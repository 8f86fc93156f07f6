import Peer.Live.SwitchController

/-! What one call of the controller can do. Whatever it decides, it notes something down,
pauses and resumes the two downloaders of the current stream, or both. -/
namespace Live.Switch

open Download

/-- What a call does to the downloaders of a stream. -/
def LiveStream.calls (f : LiveHttpDownloader → LiveHttpDownloader)
    (g : LiveP2PDownloader → LiveP2PDownloader) (l : LiveStream) : LiveStream :=
  { l with httpDownloader := l.httpDownloader.map f, p2pDownloader := l.p2pDownloader.map g }

theorem LiveStream.calls_id : LiveStream.calls id id = id := by
  funext l
  simp [LiveStream.calls]

/-- Two rounds of calls are the calls one after the other. -/
theorem LiveStream.calls_comp (f f' : LiveHttpDownloader → LiveHttpDownloader)
    (g g' : LiveP2PDownloader → LiveP2PDownloader) :
    LiveStream.calls f' g' ∘ LiveStream.calls f g = LiveStream.calls (f' ∘ f) (g' ∘ g) := by
  funext l
  simp [LiveStream.calls]

namespace LiveDownload

/-- Between `s` and `t` the downloaders of the current stream were treated with `f` and
`g`, and nothing else changed except the controller and what is only reported. The
assertions met on the way hold where both downloaders exist. -/
structure Controlled (f : LiveHttpDownloader → LiveHttpDownloader)
    (g : LiveP2PDownloader → LiveP2PDownloader) (s t : LiveDownload) : Prop where
  bwtype : t.bwtype = s.bwtype
  dataRateManager : t.dataRateManager = s.dataRateManager
  records : t.httpDownloadStatistic = s.httpDownloadStatistic
  created : t.created = s.created
  posted : t.posted = s.posted
  received : t.received = s.received
  changes : t.changes = s.changes
  streams : t.liveStreams =
    s.liveStreams.modify s.dataRateManager.currentDataRatePos (LiveStream.calls f g)
  asserted : s.getHTTPControlTarget.isSome = true → s.getP2PControlTarget.isSome = true →
    t.asserted = s.asserted

variable {s t u : LiveDownload} {f f' : LiveHttpDownloader → LiveHttpDownloader}
  {g g' : LiveP2PDownloader → LiveP2PDownloader} {c : Conditions}

theorem Controlled.refl (s : LiveDownload) : Controlled id id s s where
  bwtype := rfl
  dataRateManager := rfl
  records := rfl
  created := rfl
  posted := rfl
  received := rfl
  changes := rfl
  streams := by rw [LiveStream.calls_id, List.modify_id]
  asserted _ _ := rfl

theorem Controlled.currentStream (h : Controlled f g s t) :
    t.currentStream = s.currentStream.map (LiveStream.calls f g) := by
  simp [LiveDownload.currentStream, h.streams, h.dataRateManager]

/-- The HTTP target got the HTTP calls, if there is one. -/
theorem Controlled.http (h : Controlled f g s t) :
    t.getHTTPControlTarget = s.getHTTPControlTarget.map f := by
  unfold getHTTPControlTarget
  rw [h.currentStream]
  cases s.currentStream <;> rfl

/-- The P2P target got the P2P calls, if there is one. -/
theorem Controlled.p2p (h : Controlled f g s t) :
    t.getP2PControlTarget = s.getP2PControlTarget.map g := by
  unfold getP2PControlTarget
  rw [h.currentStream]
  cases s.currentStream <;> rfl

/-- Calls of two steps add up. -/
theorem Controlled.trans (h : Controlled f g s t) (h' : Controlled f' g' t u) :
    Controlled (f' ∘ f) (g' ∘ g) s u where
  bwtype := h'.bwtype.trans h.bwtype
  dataRateManager := h'.dataRateManager.trans h.dataRateManager
  records := h'.records.trans h.records
  created := h'.created.trans h.created
  posted := h'.posted.trans h.posted
  received := h'.received.trans h.received
  changes := h'.changes.trans h.changes
  streams := by
    rw [h'.streams, h.streams, h.dataRateManager, List.modify_modify_eq, LiveStream.calls_comp]
  asserted hHttp hP2P := by
    rw [h'.asserted _ _, h.asserted hHttp hP2P]
    · simpa [h.http] using hHttp
    · simpa [h.p2p] using hP2P

/-- What the machine notes calls no downloader. -/
theorem controlled_setSwitch (r : LiveSwitchController → LiveSwitchController) (s : LiveDownload) :
    Controlled id id s (s.setSwitch r) :=
  { Controlled.refl s with }

theorem controlled_modifyHttp (f : LiveHttpDownloader → LiveHttpDownloader) (s : LiveDownload) :
    Controlled f id s (s.modifyHttp f) :=
  { Controlled.refl s with
    streams := by
      apply congrArg (s.liveStreams.modify _)
      funext l
      simp [LiveStream.calls]
    asserted := fun _ _ => rfl }

theorem controlled_modifyP2P (g : LiveP2PDownloader → LiveP2PDownloader) (s : LiveDownload) :
    Controlled id g s (s.modifyP2P g) :=
  { Controlled.refl s with
    streams := by
      apply congrArg (s.liveStreams.modify _)
      funext l
      simp [LiveStream.calls]
    asserted := fun _ _ => rfl }

/-- `ResumeHttpDownloader` calls `Resume` of the HTTP downloader alone. -/
theorem controlled_resumeHttp (s : LiveDownload) :
    Controlled LiveHttpDownloader.resume id s s.resumeHttpDownloader :=
  (controlled_setSwitch (fun w => { w with http := .downloading }) s).trans
    (controlled_modifyHttp LiveHttpDownloader.resume _)

theorem controlled_pauseHttp (s : LiveDownload) :
    Controlled LiveHttpDownloader.pause id s s.pauseHttpDownloader :=
  (controlled_setSwitch (fun w => { w with http := .pausing }) s).trans
    (controlled_modifyHttp LiveHttpDownloader.pause _)

theorem controlled_resumeP2P (s : LiveDownload) :
    Controlled id LiveP2PDownloader.resume s s.resumeP2PDownloader :=
  (controlled_setSwitch (fun w => { w with p2p := .downloading }) s).trans
    (controlled_modifyP2P LiveP2PDownloader.resume _)

/-- `PauseP2PDownloader` calls `Pause` of the P2P downloader alone. -/
theorem controlled_pauseP2P (s : LiveDownload) :
    Controlled id LiveP2PDownloader.pause s s.pauseP2PDownloader :=
  (controlled_setSwitch (fun w => { w with p2p := .pausing }) s).trans
    (controlled_modifyP2P LiveP2PDownloader.pause _)

/-- Nothing but notes: the downloaders and the state of the machine stay. -/
structure Noted (s t : LiveDownload) : Prop extends Controlled id id s t where
  httpState : t.switch.http = s.switch.http
  p2pState : t.switch.p2p = s.switch.p2p

theorem Noted.refl (s : LiveDownload) : Noted s s :=
  { Controlled.refl s with httpState := rfl, p2pState := rfl }

theorem Noted.trans (h : Noted s t) (h' : Noted t u) : Noted s u :=
  { h.toControlled.trans h'.toControlled with
    httpState := h'.httpState.trans h.httpState
    p2pState := h'.p2pState.trans h.p2pState }

/-- A note that leaves the two states alone. -/
theorem noted_setSwitch (s : LiveDownload) (r : LiveSwitchController → LiveSwitchController)
    (hHttp : ∀ w, (r w).http = w.http) (hP2P : ∀ w, (r w).p2p = w.p2p) :
    Noted s (s.setSwitch r) :=
  { controlled_setSwitch r s with httpState := hHttp _, p2pState := hP2P _ }

theorem noted_useHttp (reason : StartHttpCondition) (s : LiveDownload) :
    Noted s (s.useHttp reason) :=
  noted_setSwitch s _ (fun _ => rfl) (fun _ => rfl)

theorem noted_useHttpForLargeUpload (s : LiveDownload) : Noted s s.useHttpForLargeUpload := by
  refine Noted.trans ?_ (noted_useHttp _ _)
  exact noted_setSwitch s _ (fun _ => rfl) (fun _ => rfl)

theorem noted_setChangeToHttpBecauseOfUrgent (s : LiveDownload) :
    Noted s s.setChangeToHttpBecauseOfUrgent :=
  { Controlled.refl s with httpState := rfl, p2pState := rfl }

theorem noted_stopUsingHttp (reason : StopHttpCondition) (s : LiveDownload) :
    Noted s (s.stopUsingHttp reason).2 :=
  { Controlled.refl s with httpState := rfl, p2pState := rfl }

/-- The assertion in it holds while there is an HTTP target. -/
theorem noted_submitChangedToP2PCondition (condition : StopHttpCondition) (s : LiveDownload) :
    Noted s (s.submitChangedToP2PCondition condition) :=
  { Controlled.refl s with
    httpState := rfl
    p2pState := rfl
    asserted := fun hHttp _ => by simp [submitChangedToP2PCondition, check, hHttp] }

theorem noted_submitBlockTimes (c : Conditions) (s : LiveDownload) :
    Noted s (s.submitBlockTimes c) := by
  unfold submitBlockTimes
  split
  · exact { Controlled.refl s with httpState := rfl, p2pState := rfl }
  · exact Noted.refl s

/-- The assertions of the states hold while both targets are there. -/
theorem noted_checkTargets (s : LiveDownload) : Noted s s.checkTargets :=
  { Controlled.refl s with
    httpState := rfl
    p2pState := rfl
    asserted := fun hHttp hP2P => by simp [checkTargets, check, hHttp, hP2P] }

/-- Asking whether to go to HTTP notes the reason at most. -/
theorem noted_needChangeTo2300 (h : s.needChangeTo2300 c = some t) : Noted s t := by
  have hUrgent : ∀ reason, Noted s (s.setChangeToHttpBecauseOfUrgent.useHttp reason) :=
    fun reason => (noted_setChangeToHttpBecauseOfUrgent s).trans (noted_useHttp reason _)
  unfold needChangeTo2300 at h
  simp only at h
  split at h
  · cases h
    exact noted_useHttp _ s
  split at h
  · cases h
    exact noted_useHttpForLargeUpload s
  split at h
  · cases h
    exact noted_useHttpForLargeUpload s
  split at h
  · cases h
    exact hUrgent _
  split at h
  · cases h
    exact hUrgent _
  · cases h

theorem noted_needChangeTo3200NotUrgent (c : Conditions) (s : LiveDownload) :
    Noted s (s.needChangeTo3200NotUrgent c).2 := by
  simp only [needChangeTo3200NotUrgent]
  split_ifs
  · exact Noted.refl s
  · exact noted_stopUsingHttp _ s
  · exact noted_stopUsingHttp _ s
  · exact Noted.refl s
  · exact noted_stopUsingHttp _ s

theorem noted_needChangeTo3200Started (c : Conditions) (s : LiveDownload) :
    Noted s (s.needChangeTo3200Started c).2 := by
  have hStops : ∀ reason, Noted s ((s.submitChangedToP2PCondition reason).stopUsingHttp reason).2 :=
    fun reason => (noted_submitChangedToP2PCondition reason s).trans (noted_stopUsingHttp reason _)
  simp only [needChangeTo3200Started]
  split_ifs
  · exact Noted.refl s
  · exact hStops _
  · exact hStops _
  · exact hStops _
  · exact hStops _
  · exact Noted.refl s

theorem noted_needChangeTo3200Urgent (c : Conditions) (s : LiveDownload) :
    Noted s (s.needChangeTo3200Urgent c).2 := by
  apply (noted_submitBlockTimes c s).trans
  simp only [needChangeTo3200Urgent]
  split_ifs
  · exact noted_stopUsingHttp _ _
  · exact noted_stopUsingHttp _ _
  · exact noted_stopUsingHttp _ _
  · exact noted_stopUsingHttp _ _
  · exact Noted.refl _

/-- Asking whether to go to P2P notes the reason at most. -/
theorem noted_needChangeTo3200 (c : Conditions) (s : LiveDownload) :
    Noted s (s.needChangeTo3200 c).2 := by
  unfold needChangeTo3200
  split_ifs
  · exact noted_needChangeTo3200NotUrgent c s
  · exact noted_needChangeTo3200Started c s
  · exact noted_needChangeTo3200Urgent c s
  · exact noted_stopUsingHttp _ s
  · exact Noted.refl s

/-- The ways a call of the controller can end. -/
inductive Control where
  | stays
  | pausesHttp
  | to3200
  | to2300
  | to3300
  | resumesHttp
  | resumesP2P
  deriving DecidableEq

namespace Control

def onHttp : Control → LiveHttpDownloader → LiveHttpDownloader
  | .stays | .resumesP2P => id
  | .to3200 | .to3300 | .pausesHttp => LiveHttpDownloader.pause
  | .to2300 | .resumesHttp => LiveHttpDownloader.resume

def onP2P : Control → LiveP2PDownloader → LiveP2PDownloader
  | .stays | .resumesHttp | .pausesHttp => id
  | .to2300 | .to3300 => LiveP2PDownloader.pause
  | .to3200 | .resumesP2P => LiveP2PDownloader.resume

def httpState : Control → HttpState → HttpState
  | .stays, h | .resumesP2P, h => h
  | .to3200, _ | .to3300, _ | .pausesHttp, _ => .pausing
  | .to2300, _ | .resumesHttp, _ => .downloading

def p2pState : Control → P2PState → P2PState
  | .stays, p | .resumesHttp, p | .pausesHttp, p => p
  | .to2300, _ | .to3300, _ => .pausing
  | .to3200, _ | .resumesP2P, _ => .downloading

end Control

/-- The call that led from `s` to `t` ended in the way `k`. -/
structure Ends (k : Control) (s t : LiveDownload) : Prop extends
    Controlled k.onHttp k.onP2P s t where
  httpState : t.switch.http = k.httpState s.switch.http
  p2pState : t.switch.p2p = k.p2pState s.switch.p2p

theorem Noted.stays (h : Noted s t) : Ends .stays s t :=
  { h.toControlled with httpState := h.httpState, p2pState := h.p2pState }

/-- Notes before the calls of a change do not matter. -/
theorem Noted.ends {k : Control} (h : Noted s t) (h' : Ends k t u) : Ends k s u :=
  { h.toControlled.trans h'.toControlled with
    httpState := by rw [h'.httpState, h.httpState]
    p2pState := by rw [h'.p2pState, h.p2pState] }

/-- Nor do notes behind them. -/
theorem Ends.noted {k : Control} (h : Ends k s t) (h' : Noted t u) : Ends k s u :=
  { h.toControlled.trans h'.toControlled with
    httpState := by rw [h'.httpState, h.httpState]
    p2pState := by rw [h'.p2pState, h.p2pState] }

theorem ends_pauseHttp (s : LiveDownload) : Ends .pausesHttp s s.pauseHttpDownloader :=
  { controlled_pauseHttp s with httpState := rfl, p2pState := rfl }

theorem ends_resumeHttp (s : LiveDownload) : Ends .resumesHttp s s.resumeHttpDownloader :=
  { controlled_resumeHttp s with httpState := rfl, p2pState := rfl }

theorem ends_resumeP2P (s : LiveDownload) : Ends .resumesP2P s s.resumeP2PDownloader :=
  { controlled_resumeP2P s with httpState := rfl, p2pState := rfl }

/-- The change to 3200 pauses HTTP first and then resumes P2P. -/
theorem ends_changeTo3200 (c : Conditions) (s : LiveDownload) : Ends .to3200 s (s.changeTo3200 c) :=
  have h : Ends .to3200 s s.pauseHttpDownloader.resumeP2PDownloader :=
    { (controlled_pauseHttp s).trans (controlled_resumeP2P _) with httpState := rfl, p2pState := rfl }
  h.noted (noted_setSwitch _ _ (fun _ => rfl) (fun _ => rfl))

/-- The change to 2300 pauses P2P first and then resumes HTTP. -/
theorem ends_changeTo2300 (c : Conditions) (s : LiveDownload) : Ends .to2300 s (s.changeTo2300 c) :=
  have h : Ends .to2300 s s.pauseP2PDownloader.resumeHttpDownloader :=
    { (controlled_pauseP2P s).trans (controlled_resumeHttp _) with httpState := rfl, p2pState := rfl }
  h.noted (noted_setSwitch _ _ (fun _ => rfl) (fun _ => rfl))

/-- The change to 3300 pauses both. -/
theorem ends_changeTo3300 (s : LiveDownload) : Ends .to3300 s s.changeTo3300 := by
  have h := (controlled_setSwitch (fun w => { w with isStarted := false }) s).trans
    ((controlled_pauseP2P _).trans (controlled_pauseHttp _))
  exact { h with httpState := rfl, p2pState := rfl }

/-- From 2300 the machine goes to 3200 or 3300 or stays. -/
theorem checkState2300_ends (c : Conditions) (s : LiveDownload) :
    ∃ k, (k = .stays ∨ k = .to3200 ∨ k = .to3300) ∧ Ends k s (s.checkState2300 c) := by
  have hTargets := noted_checkTargets s
  simp only [checkState2300]
  split
  · exact ⟨.to3300, by simp, hTargets.ends (ends_changeTo3300 _)⟩
  split
  · exact ⟨.stays, by simp, hTargets.stays⟩
  split
  · exact ⟨.stays, by simp, hTargets.stays⟩
  have hNeeds := hTargets.trans (noted_needChangeTo3200 c s.checkTargets)
  split
  next u heq =>
    rw [heq] at hNeeds
    exact ⟨.stays, by simp, hNeeds.stays⟩
  next u heq =>
    rw [heq] at hNeeds
    refine ⟨.to3200, by simp, Noted.ends ?_ (ends_changeTo3200 c _)⟩
    exact hNeeds.trans (noted_setSwitch _ _ (fun _ => rfl) (fun _ => rfl))

/-- From 3200 it goes to 2300 or 3300 or stays. -/
theorem checkState3200_ends (c : Conditions) (s : LiveDownload) :
    ∃ k, (k = .stays ∨ k = .to2300 ∨ k = .to3300) ∧ Ends k s (s.checkState3200 c) := by
  have hTargets := noted_checkTargets s
  simp only [checkState3200]
  split_ifs
  · exact ⟨.to3300, by simp, hTargets.ends (ends_changeTo3300 _)⟩
  · split
    · exact ⟨.stays, by simp, hTargets.stays⟩
    · rename_i heq
      refine ⟨.to2300, by simp, Noted.ends ?_ (ends_changeTo2300 c _)⟩
      have hNeeds := hTargets.trans (noted_needChangeTo2300 heq)
      exact hNeeds.trans (noted_setSwitch _ _ (fun _ => rfl) (fun _ => rfl))

theorem checkState3300Started_ends (c : Conditions) (s : LiveDownload) :
    ∃ k, k ≠ .to3300 ∧ k ≠ .pausesHttp ∧ Ends k s (s.checkState3300Started c) := by
  simp only [checkState3300Started]
  split_ifs
  · exact ⟨.to2300, by simp, by simp, (noted_useHttp _ s).ends (ends_changeTo2300 c _)⟩
  · exact ⟨.to3200, by simp, by simp, ends_changeTo3200 c s⟩
  · exact ⟨.to2300, by simp, by simp, (noted_useHttp _ s).ends (ends_changeTo2300 c _)⟩
  · exact ⟨.resumesHttp, by simp, by simp, (noted_useHttp _ s).ends (ends_resumeHttp _)⟩
  · exact ⟨.resumesP2P, by simp, by simp, ends_resumeP2P s⟩
  · exact ⟨.stays, by simp, by simp, (Noted.refl s).stays⟩

/-- From 3300 it goes to 2300 or 3200, resumes one of the two or stays. -/
theorem checkState3300_ends (c : Conditions) (s : LiveDownload) :
    ∃ k, k ≠ .to3300 ∧ k ≠ .pausesHttp ∧ Ends k s (s.checkState3300 c) := by
  have hHttp : ∀ reason, Ends .resumesHttp s (s.useHttp reason).resumeHttpDownloader :=
    fun reason => (noted_useHttp reason s).ends (ends_resumeHttp _)
  simp only [checkState3300]
  split_ifs
  · exact ⟨.resumesP2P, by simp, by simp, ends_resumeP2P s⟩
  · exact ⟨.resumesHttp, by simp, by simp, hHttp _⟩
  · exact ⟨.stays, by simp, by simp, (Noted.refl s).stays⟩
  · exact checkState3300Started_ends c s
  · exact ⟨.resumesHttp, by simp, by simp, hHttp _⟩
  · exact ⟨.resumesHttp, by simp, by simp, hHttp _⟩
  · exact ⟨.resumesP2P, by simp, by simp, ends_resumeP2P s⟩
  · exact ⟨.resumesP2P, by simp, by simp, ends_resumeP2P s⟩
  · exact ⟨.resumesHttp, by simp, by simp, hHttp _⟩
  · exact ⟨.stays, by simp, by simp, (Noted.refl s).stays⟩
  · exact ⟨.stays, by simp, by simp, (Noted.refl s).stays⟩

/-- Memory that runs low pauses everything there is. -/
theorem checkMemory_ends (c : Conditions) (s : LiveDownload)
    (hHttp : s.getHTTPControlTarget.isSome = true) :
    ∃ k, Ends k s (s.checkMemory c).2 ∧
      (k = .stays ∨ (∃ left, c.leftCapacity = some left ∧ left < 1024) ∧
        (s.checkMemory c).1 = true ∧
        k = if s.getP2PControlTarget.isSome then .to3300 else .pausesHttp) := by
  unfold checkMemory
  cases hLeft : c.leftCapacity with
  | none => exact ⟨.stays, (Noted.refl s).stays, .inl rfl⟩
  | some left =>
      simp only
      split
      · split
        · rename_i hLow
          have hP2P := (controlled_pauseHttp s).p2p
          simp only [hP2P, Option.map_id, id]
          split
          · have h := (controlled_pauseHttp s).trans (controlled_pauseP2P _)
            exact ⟨.to3300, { h with httpState := rfl, p2pState := rfl },
              .inr ⟨⟨left, rfl, hLow⟩, trivial, rfl⟩⟩
          · exact ⟨.pausesHttp, ends_pauseHttp s, .inr ⟨⟨left, rfl, hLow⟩, trivial, rfl⟩⟩
        · exact ⟨.stays, (Noted.refl s).stays, .inl rfl⟩
      · split
        · exact ⟨.stays, { Controlled.refl s with httpState := rfl, p2pState := rfl }, .inl rfl⟩
        · exact ⟨.stays, (Noted.refl s).stays, .inl rfl⟩

end LiveDownload

end Live.Switch
