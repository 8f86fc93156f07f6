import Peer.Live.SwitchRuns

/-! The controller's state against the downloaders it controls, and against the driver's
records of the uses of HTTP. -/
namespace Live.Switch

open Basis Download

namespace LiveDownload

variable {s t : LiveDownload} {d : LiveHttpDownloader} {q : Option LiveP2PDownloader}
  {c : Conditions} {e : Event} {bwtype : JumpBWType} {replay isPPLiveLive2 isTooNear : Bool}
  {ridS : List Nat}

theorem Legal.http (h : s.Legal) :
    s.switch.http = .downloading ∨ s.switch.http = .pausing := by
  by_cases hOnly : s.bwtype = .httpOnly
  · exact (h.2 hOnly).2
  · rcases h.1 hOnly with ⟨hHttp, -⟩ | ⟨hHttp, -⟩ | ⟨hHttp, -⟩
    · exact .inl hHttp
    · exact .inr hHttp
    · exact .inr hHttp

theorem Told.switch {u : LiveDownload} (h : Told c s u t) : t.switch = u.switch := by
  cases h <;> rfl

theorem Told.posted {u : LiveDownload} (h : Told c s u t) : t.posted = u.posted := by
  cases h <;> rfl

/-- The HTTP downloader pauses where the machine says so, up to a `Resume` that is posted. -/
structure HttpAgrees (d : LiveHttpDownloader) (s : LiveDownload) : Prop where
  settled : s.posted = [] → (d.isHttpPausing = true ↔ s.switch.http = .pausing)
  late : s.posted ≠ [] →
    s.posted = [d.number] ∧ d.isHttpPausing = true ∧ s.switch.http = .downloading

/-- No posted `Resume` is overtaken by the controller or by a data rate change. -/
def onTime (s : LiveDownload) : Event → Bool
  | .timer _ | .jumpOrSwitch _ => s.posted.isEmpty
  | .httpBytes _ | .blockTimeout | .resumePosted => true

/-- The invariant of the runs on time. -/
def OnTime (s : LiveDownload) : Prop :=
  ∃ d q, s.Streaming d q ∧ s.Legal ∧ HttpAgrees d s

theorem HttpAgrees.ends {k : Control} {u : LiveDownload} (h : HttpAgrees d s)
    (hPosted : s.posted = []) (hEnds : Ends k s u) : HttpAgrees (k.onHttp d) u := by
  have hPosted' : u.posted = [] := hEnds.posted.trans hPosted
  refine ⟨fun _ => ?_, fun hNot => absurd hPosted' hNot⟩
  have hSettled := h.settled hPosted
  rw [hEnds.httpState]
  cases k <;> simp [Control.onHttp, Control.httpState, LiveHttpDownloader.pause,
    LiveHttpDownloader.resume, hSettled]

theorem HttpAgrees.congr (h : HttpAgrees d s) (hPosted : t.posted = s.posted)
    (hSwitch : t.switch = s.switch) : HttpAgrees d t := by
  refine ⟨?_, ?_⟩
  · rw [hPosted, hSwitch]
    exact h.settled
  · rw [hPosted, hSwitch]
    exact h.late

/-- What runs, downloads for the machine. -/
theorem HttpAgrees.downloading (h : HttpAgrees d s) (hLegal : s.Legal)
    (hRuns : d.isHttpPausing = false) : s.posted = [] ∧ s.switch.http = .downloading := by
  have hPosted : s.posted = [] := by
    by_contra hNot
    rw [(h.late hNot).2.1] at hRuns
    cases hRuns
  refine ⟨hPosted, ?_⟩
  rcases hLegal.http with hHttp | hHttp
  · exact hHttp
  · rw [(h.settled hPosted).mpr hHttp] at hRuns
    cases hRuns

theorem OnTime.step (h : s.OnTime) (hOnTime : s.onTime e = true) (hStep : s.step e = some t) :
    t.OnTime := by
  obtain ⟨d, q, hStreaming, hLegal, hAgrees⟩ := h
  cases step_effect hStreaming hLegal hStep with
  | timer c hEnds hLegal' hTold =>
      have hNew := hTold.streaming (hStreaming.ends hEnds)
      have hPosted : s.posted = [] := List.isEmpty_iff.mp hOnTime
      have hAgrees' := hAgrees.ends hPosted hEnds
      exact ⟨_, _, hNew.congr rfl rfl rfl rfl, (hTold.legal hLegal').congr rfl rfl,
        hAgrees'.congr hTold.posted hTold.switch⟩
  | rates c hRates =>
      cases hRates with
      | stays m _ hRids hPos =>
          exact ⟨d, q, hStreaming.stays hRids hPos, hLegal.congr rfl rfl, hAgrees.congr rfl rfl⟩
      | changes m _ hRids hLast hInside =>
          have hNew := hStreaming.onDataRateChanged hRids hLast hInside
          obtain ⟨hSame, -, -⟩ := onDataRateChanged_same s m
          have hPosted : s.posted = [] := List.isEmpty_iff.mp hOnTime
          refine ⟨_, _, hNew.congr rfl rfl rfl rfl, hLegal.congr hSame.bwtype hSame.switch, ?_⟩
          refine HttpAgrees.congr (s := s) ?_ hSame.posted hSame.switch
          exact ⟨hAgrees.settled, fun hNot => absurd hPosted hNot⟩
  | httpBytes n =>
      have hNew := hStreaming.calls (controlled_modifyHttp (fun d => { d with
        totalDownloadBytes := (d.totalDownloadBytes + n) % 2 ^ 32 }) s) rfl
      exact ⟨_, _, hNew.congr rfl rfl rfl rfl, hLegal.congr rfl rfl,
        hAgrees.settled, hAgrees.late⟩
  | blockTimeout hRuns =>
      have hNew := hStreaming.calls (controlled_modifyHttp LiveHttpDownloader.pause s) rfl
      obtain ⟨hPosted, hHttp⟩ := hAgrees.downloading hLegal hRuns
      refine ⟨_, _, hNew.congr rfl rfl rfl rfl, hLegal.congr rfl rfl, ?_, fun _ => ?_⟩
      · intro hNone
        simp at hNone
      · refine ⟨?_, rfl, hHttp⟩
        rw [hPosted]
        rfl
  | resumePosted number rest hPosted =>
      have hNew := hStreaming.calls (controlled_modifyHttp (fun d =>
        if d.number = number then d.resume else d) s) (by split <;> rfl)
      obtain ⟨hOne, hPausing, hHttp⟩ := hAgrees.late (by simp [hPosted])
      rw [hPosted] at hOne
      cases hOne
      refine ⟨_, _, hNew.congr rfl rfl rfl rfl, hLegal.congr rfl rfl, fun _ => ?_, fun hNot => ?_⟩
      · have hHttp' : s.switch.http ≠ .pausing := by simp [hHttp]
        simpa [LiveHttpDownloader.resume] using! hHttp'
      · exact absurd rfl hNot

theorem start_onTime (hRids : ridS ≠ []) :
    (start bwtype replay isPPLiveLive2 isTooNear ridS c).OnTime := by
  obtain ⟨d, q, s₀, hBooted, -, hStart⟩ :=
    start_booted bwtype replay isPPLiveLive2 isTooNear c hRids
  obtain ⟨k, u, hEnds, hLegal, hStreaming, hTold⟩ := hBooted.control c
  have hAgrees : HttpAgrees d s₀ :=
    ⟨fun _ => hBooted.http, fun hNot => absurd hBooted.posted hNot⟩
  rw [hStart]
  exact ⟨_, _, hTold.streaming hStreaming, hTold.legal hLegal,
    (hAgrees.ends hBooted.posted hEnds).congr hTold.posted hTold.switch⟩

/-- A data rate change that overtakes a posted `Resume` stalls HTTP: the new downloader
pauses, the machine takes HTTP for downloading, and the `Resume` is for the old one. -/
theorem HttpAgrees.stalls (h : HttpAgrees d s) (hStreaming : s.Streaming d q)
    (hPosted : s.posted ≠ []) (hNeeded : s.changesRate c = true) :
    (s.switchIfNeeded c).switch.http = .downloading ∧
      ∀ u, (s.switchIfNeeded c).step .resumePosted = some u →
        u.getHTTPControlTarget.any LiveHttpDownloader.isHttpPausing = true := by
  obtain ⟨hOne, hPausing, hHttp⟩ := h.late hPosted
  have hRates := switchIfNeeded_rates c hStreaming
  generalize s.switchIfNeeded c = t at hRates
  cases hRates with
  | stays m hIdle =>
      rw [hNeeded] at hIdle
      cases hIdle
  | changes m _ hRids hLast hInside =>
      have hNew := hStreaming.onDataRateChanged hRids hLast hInside
      obtain ⟨hSame, -, -⟩ := onDataRateChanged_same s m
      refine ⟨(congrArg _ hSame.switch).trans hHttp, fun u hStep => ?_⟩
      have hPosted' := hSame.posted.trans hOne
      simp only [LiveDownload.step, hPosted'] at hStep
      cases hStep
      have hOld : s.created ≠ d.number := by
        have hNumbered := hStreaming.numbered
        omega
      have hResumed := hNew.calls (controlled_modifyHttp (fun x =>
        if x.number = d.number then x.resume else x) _) (by split <;> rfl)
      have hTarget := (hResumed.congr rfl rfl rfl rfl : Streaming _ _ _).getHTTP
      simp only [if_neg hOld] at hTarget
      exact (congrArg (Option.any _) hTarget).trans hPausing

/-- The P2P downloader pauses where the machine says so. -/
def P2PAgrees (s : LiveDownload) : Prop :=
  ∀ p, s.getP2PControlTarget = some p → (p.isP2PPausing = true ↔ s.switch.p2p = .pausing)

/-- Data rates change only while P2P downloads. -/
def steady (s : LiveDownload) : Event → Bool
  | .jumpOrSwitch c => !s.changesRate c || decide (s.switch.p2p = .downloading)
  | .timer _ | .httpBytes _ | .blockTimeout | .resumePosted => true

theorem P2PAgrees.ends {k : Control} {u : LiveDownload} (h : P2PAgrees s) (hEnds : Ends k s u) :
    P2PAgrees u := by
  intro p hTarget
  rw [hEnds.p2p] at hTarget
  obtain ⟨p', hOld, rfl⟩ := Option.map_eq_some_iff.mp hTarget
  have hSettled := h p' hOld
  rw [hEnds.p2pState]
  cases k <;> simp [Control.onP2P, Control.p2pState, LiveP2PDownloader.pause,
    LiveP2PDownloader.resume, hSettled]

theorem P2PAgrees.congr (h : P2PAgrees s) (hTarget : t.getP2PControlTarget = s.getP2PControlTarget)
    (hSwitch : t.switch = s.switch) : P2PAgrees t := by
  unfold P2PAgrees
  rw [hTarget, hSwitch]
  exact h

theorem P2PAgrees.modifyHttp (h : P2PAgrees s) (f : LiveHttpDownloader → LiveHttpDownloader) :
    P2PAgrees (s.modifyHttp f) := by
  refine h.congr ?_ rfl
  rw [(controlled_modifyHttp f s).p2p, Option.map_id, id]

/-- After a data rate change the P2P downloader runs. -/
theorem Streaming.p2p_of_changed (hStreaming : s.Streaming d q) (hNeeded : s.changesRate c = true) :
    (s.switchIfNeeded c).getP2PControlTarget = q.map LiveP2PDownloader.resume ∧
      (s.switchIfNeeded c).switch = s.switch := by
  have hRates := switchIfNeeded_rates c hStreaming
  generalize s.switchIfNeeded c = t at hRates
  cases hRates with
  | stays m hIdle =>
      rw [hNeeded] at hIdle
      cases hIdle
  | changes m _ hRids hLast hInside =>
      have hNew := hStreaming.onDataRateChanged hRids hLast hInside
      exact ⟨hNew.getP2P, (onDataRateChanged_same s m).1.switch⟩

theorem P2PAgrees.step (h : s.P2PAgrees) (hWorking : s.Working) (hSteady : s.steady e = true)
    (hStep : s.step e = some t) : t.P2PAgrees := by
  obtain ⟨⟨d, q, hStreaming⟩, hLegal⟩ := hWorking
  cases step_effect hStreaming hLegal hStep with
  | timer c hEnds hLegal' hTold =>
      have hAgrees := h.ends hEnds
      cases hTold <;> exact hAgrees.congr rfl rfl
  | rates c hRates =>
      cases hNeeded : s.changesRate c with
      | true =>
          cases hStep
          obtain ⟨hTarget, hSwitch⟩ := hStreaming.p2p_of_changed hNeeded
          have hP2P : s.switch.p2p = .downloading := by
            simpa [LiveDownload.steady, hNeeded] using hSteady
          intro p hp
          rw [hTarget] at hp
          obtain ⟨p', -, rfl⟩ := Option.map_eq_some_iff.mp hp
          rw [hSwitch, hP2P]
          simp [LiveP2PDownloader.resume]
      | false =>
          cases hRates with
          | stays m _ hRids hPos =>
              refine h.congr ?_ rfl
              rw [(hStreaming.stays hRids hPos).getP2P, hStreaming.getP2P]
          | changes m hNeeded' =>
              rw [hNeeded] at hNeeded'
              cases hNeeded'
  | httpBytes n => exact (h.modifyHttp _).congr rfl rfl
  | blockTimeout => exact (h.modifyHttp _).congr rfl rfl
  | resumePosted number rest => exact (h.modifyHttp _).congr rfl rfl

/-- Where posted calls run in time, the current HTTP downloader pauses exactly while the
machine says so, except for a downloader whose `Resume` is posted; and where that `Resume` is
overtaken by a data rate change, HTTP stalls while the machine takes it for downloading. -/
theorem http_of_run (hRids : ridS ≠ [])
    (run : Reaches (fun x e y => x.step e = some y) (fun x e => x.onTime e = true)
      (start bwtype replay isPPLiveLive2 isTooNear ridS c) s) :
    (∃ d, s.getHTTPControlTarget = some d ∧ HttpAgrees d s) ∧
      ∀ c', s.posted ≠ [] → s.changesRate c' = true →
        (s.switchIfNeeded c').switch.http = .downloading ∧
        ∀ u, (s.switchIfNeeded c').step .resumePosted = some u →
          u.getHTTPControlTarget.any LiveHttpDownloader.isHttpPausing = true := by
  have hOnTime : s.OnTime :=
    run.invariant (start_onTime hRids) fun x e y h hMet hStep => h.step hMet hStep
  obtain ⟨d, q, hStreaming, -, hAgrees⟩ := hOnTime
  exact ⟨⟨d, hStreaming.getHTTP, hAgrees⟩,
    fun c' hPosted hNeeded => hAgrees.stalls hStreaming hPosted hNeeded⟩

theorem http_of_busy_run : ∃ s : LiveDownload, s.changes = [(31000, 0, 1)] ∧
    ∃ d, s.getHTTPControlTarget = some d ∧ HttpAgrees d s := by
  obtain ⟨s, hRun, hTest⟩ := Reaches.exists_of_checked LiveDownload.step onTime
    normalStart busyRun (fun s => s.changes == [(31000, 0, 1)]) (by decide +kernel)
  exact ⟨s, eq_of_beq hTest, (http_of_run (by decide) hRun).1⟩

/-- Where data rates change only while P2P downloads, the current P2P downloader pauses
exactly while the machine says so; the first change at another time leaves it running while
the machine takes it for pausing. -/
theorem p2p_of_run (hRids : ridS ≠ [])
    (run : Reaches (fun x e y => x.step e = some y) (fun x e => x.steady e = true)
      (start bwtype replay isPPLiveLive2 isTooNear ridS c) s) :
    s.P2PAgrees ∧ ∀ c', s.changesRate c' = true → s.switch.p2p = .pausing →
      (s.switchIfNeeded c').getP2PControlTarget = some { isP2PPausing := false } ∧
        (s.switchIfNeeded c').switch.p2p = .pausing := by
  have hAll : s.Working ∧ s.P2PAgrees := by
    apply run.invariant (P := fun s => s.Working ∧ s.P2PAgrees)
    · refine ⟨states_of_run hRids (.refl _), ?_⟩
      obtain ⟨d, q, s₀, hBooted, -, hStart⟩ :=
        start_booted bwtype replay isPPLiveLive2 isTooNear c hRids
      obtain ⟨k, u, hEnds, -, -, hTold⟩ := hBooted.control c
      have hAgrees : s₀.P2PAgrees := by
        intro p hp
        rw [hBooted.streaming.getP2P] at hp
        exact hBooted.p2p p hp
      rw [hStart]
      have hEnded := hAgrees.ends hEnds
      generalize s₀.onControlTimer c = t at hTold
      cases hTold <;> exact hEnded.congr rfl rfl
    · rintro x e y ⟨hWorking, hAgrees⟩ hMet hStep
      exact ⟨hWorking.step hStep, hAgrees.step hWorking hMet hStep⟩
  obtain ⟨⟨⟨d, q, hStreaming⟩, hLegal⟩, hAgrees⟩ := hAll
  refine ⟨hAgrees, fun c' hNeeded hPausing => ?_⟩
  obtain ⟨hTarget, hSwitch⟩ := hStreaming.p2p_of_changed hNeeded
  have hBoth : s.bwtype ≠ .httpOnly := by
    intro hOnly
    rw [(hLegal.2 hOnly).1] at hPausing
    cases hPausing
  obtain ⟨p, rfl⟩ := Option.isSome_iff_exists.mp (hStreaming.p2p.mpr hBoth)
  exact ⟨hTarget, by rw [hSwitch, hPausing]⟩

theorem p2p_of_busy_run : ∃ s : LiveDownload, s.changes = [(31000, 0, 1)] ∧ s.P2PAgrees := by
  obtain ⟨s, hRun, hTest⟩ := Reaches.exists_of_checked LiveDownload.step steady
    normalStart busyRun (fun s => s.changes == [(31000, 0, 1)]) (by decide +kernel)
  exact ⟨s, eq_of_beq hTest, (p2p_of_run (by decide) hRun).1⟩

/-- The bytes of the records so far. -/
def recorded (records : List HttpDownloadStatistic) : Nat :=
  (records.map HttpDownloadStatistic.downloadBytes).sum

/-- Every record but one that runs is closed, one runs exactly while the machine downloads
over HTTP, and together they account for every byte that came. -/
structure Recorded (d : LiveHttpDownloader) (s : LiveDownload) : Prop where
  asserted : s.asserted = true
  small : d.totalDownloadBytes < 2 ^ 32
  runs : s.switch.http = .downloading → ∃ prior r, s.httpDownloadStatistic = prior ++ [r] ∧
    (∀ x ∈ prior, x.isRunning = false) ∧ r.isRunning = true ∧
    r.httpDownloadedBytesWhenStart ≤ d.totalDownloadBytes ∧
    recorded prior + (d.totalDownloadBytes - r.httpDownloadedBytesWhenStart) = s.received
  rests : s.switch.http = .pausing → (∀ x ∈ s.httpDownloadStatistic, x.isRunning = false) ∧
    recorded s.httpDownloadStatistic = s.received

/-- The memory is plenty, posted calls run in time, data rates change only while HTTP rests
and no counter of bytes overflows. -/
def countable (s : LiveDownload) : Event → Bool
  | .timer c => s.posted.isEmpty && c.leftCapacity.all fun left => decide (1024 ≤ left)
  | .jumpOrSwitch c =>
      s.posted.isEmpty && (!s.changesRate c || decide (s.switch.http = .pausing))
  | .httpBytes n => decide (s.totalDownloadBytes + n < 2 ^ 32)
  | .blockTimeout | .resumePosted => true

theorem onTime_of_countable (h : s.countable e = true) : s.onTime e = true := by
  cases e with
  | timer c => exact (Bool.and_eq_true_iff.mp h).1
  | jumpOrSwitch c => exact (Bool.and_eq_true_iff.mp h).1
  | httpBytes n => rfl
  | blockTimeout => rfl
  | resumePosted => rfl

theorem Recorded.congr (h : Recorded d s) {d' : LiveHttpDownloader}
    (hBytes : d'.totalDownloadBytes = d.totalDownloadBytes) (hHttp : t.switch.http = s.switch.http)
    (hRecords : t.httpDownloadStatistic = s.httpDownloadStatistic)
    (hAsserted : t.asserted = s.asserted) (hReceived : t.received = s.received) :
    Recorded d' t where
  asserted := by rw [hAsserted, h.asserted]
  small := by
    rw [hBytes]
    exact h.small
  runs := by
    rw [hHttp, hRecords, hBytes, hReceived]
    exact h.runs
  rests := by
    rw [hHttp, hRecords, hReceived]
    exact h.rests

theorem recorded_append (prior : List HttpDownloadStatistic) (r : HttpDownloadStatistic) :
    recorded (prior ++ [r]) = recorded prior + r.downloadBytes := by
  simp [recorded]

theorem modify_last (f : HttpDownloadStatistic → HttpDownloadStatistic) (r : HttpDownloadStatistic)
    (prior : List HttpDownloadStatistic) :
    (prior ++ [r]).modify prior.length f = prior ++ [f r] := by
  induction prior with
  | nil => rfl
  | cons x prior ih => simpa using! ih

/-- `StartHttp` opens a record where none runs. -/
theorem Recorded.startHttp {u : LiveDownload} (h : Recorded d s) (hStreaming : u.Streaming d q)
    (now : Nat) (hBefore : s.switch.http = .pausing) (hAfter : u.switch.http = .downloading)
    (hRecords : u.httpDownloadStatistic = s.httpDownloadStatistic)
    (hAsserted : u.asserted = s.asserted) (hReceived : u.received = s.received) :
    Recorded d (u.startHttp now) where
  asserted := by
    simp [LiveDownload.startHttp, check, hStreaming.getHTTP, hAsserted, h.asserted]
  small := h.small
  runs _ := by
    obtain ⟨hClosed, hSum⟩ := h.rests hBefore
    refine ⟨s.httpDownloadStatistic, .start now u.switch.reasonOfUsingHttp d.totalDownloadBytes,
      ?_, hClosed, rfl, Nat.le_refl _, ?_⟩
    · simp [LiveDownload.startHttp, hRecords, hStreaming.totalDownloadBytes]
    · rw [hSum, HttpDownloadStatistic.start, Nat.sub_self, Nat.add_zero]
      exact hReceived.symm
  rests hRests := by
    have hSame : (u.startHttp now).switch.http = u.switch.http := rfl
    rw [hSame, hAfter] at hRests
    cases hRests

/-- `StopHttp` finds a record that runs, and closes it over the bytes that came since. -/
theorem Recorded.stopHttp {u : LiveDownload} (h : Recorded d s) (hStreaming : u.Streaming d q)
    (now : Nat) (hBefore : s.switch.http = .downloading) (hAfter : u.switch.http = .pausing)
    (hRecords : u.httpDownloadStatistic = s.httpDownloadStatistic)
    (hAsserted : u.asserted = s.asserted) (hReceived : u.received = s.received) :
    Recorded d (u.stopHttp now) := by
  obtain ⟨prior, r, hList, hClosed, hRuns, hLe, hSum⟩ := h.runs hBefore
  have hSmall := h.small
  have hModified : (u.stopHttp now).httpDownloadStatistic =
      prior ++ [r.stop now u.switch.reasonOfStopingHttp d.totalDownloadBytes] := by
    simp only [LiveDownload.stopHttp, hRecords, hList, hStreaming.totalDownloadBytes]
    rw [List.length_append, List.length_singleton, Nat.add_sub_cancel, modify_last]
  have hBytes : (r.stop now u.switch.reasonOfStopingHttp d.totalDownloadBytes).downloadBytes =
      d.totalDownloadBytes - r.httpDownloadedBytesWhenStart := by
    simp only [HttpDownloadStatistic.stop]
    omega
  refine ⟨?_, hSmall, fun hRunning => ?_, fun _ => ⟨?_, ?_⟩⟩
  · simp [LiveDownload.stopHttp, check, hStreaming.getHTTP, hStreaming.totalDownloadBytes,
      hAsserted, h.asserted, hRecords, hList, hRuns, hLe]
  · have hSame : (u.stopHttp now).switch.http = u.switch.http := rfl
    rw [hSame, hAfter] at hRunning
    cases hRunning
  · intro x hx
    rw [hModified, List.mem_append, List.mem_singleton] at hx
    rcases hx with hx | rfl
    · exact hClosed x hx
    · rfl
  · rw [hModified, recorded_append, hBytes, hSum]
    exact hReceived.symm

theorem plenty_of_all (h : (c.leftCapacity.all fun left => decide (1024 ≤ left)) = true) :
    c.plenty := by
  intro left hLeft
  simpa [hLeft] using h

theorem Recorded.timer {k : Control} {u v : LiveDownload} (h : Recorded d s)
    (hStreaming : s.Streaming d q) (hLegal : s.Legal) (hBoth : s.bwtype ≠ .httpOnly)
    (hPlenty : c.plenty) (hEnds : Ends k s u) (hLegal' : u.Legal) (hTold : Told c s u v) :
    Recorded (k.onHttp d) v := by
  have hStreaming' := hStreaming.ends hEnds
  have hAsserted : u.asserted = s.asserted := by
    apply hEnds.asserted
    · rw [hStreaming.getHTTP, Option.isSome_some]
    · rw [hStreaming.getP2P, hStreaming.p2p]
      exact hBoth
  have hMoved : Recorded (k.onHttp d) s := h.congr (k.onHttp_totalDownloadBytes d) rfl rfl rfl rfl
  cases hTold with
  | nothing hSame =>
      refine hMoved.congr rfl ?_ hEnds.records hAsserted hEnds.received
      rcases hLegal.http with hHttp | hHttp
      · rw [hHttp, hSame.mpr hHttp]
      · rcases hLegal'.http with hHttp' | hHttp'
        · rw [hSame.mp hHttp'] at hHttp
          cases hHttp
        · rw [hHttp, hHttp']
  | low hShort => exact absurd hPlenty hShort
  | started _ hBefore hAfter =>
      exact hMoved.startHttp hStreaming' c.now hBefore hAfter hEnds.records hAsserted hEnds.received
  | stopped _ hBefore hAfter =>
      exact hMoved.stopHttp hStreaming' c.now hBefore hAfter hEnds.records hAsserted hEnds.received

/-- The invariant of the runs that can be counted. -/
structure Counted (bwtype : JumpBWType) (s : LiveDownload) : Prop where
  onTime : s.OnTime
  bwtype : s.bwtype = bwtype
  recorded : ∀ d, s.getHTTPControlTarget = some d → Recorded d s

theorem Counted.step (h : s.Counted bwtype) (hBoth : bwtype ≠ .httpOnly)
    (hMet : s.countable e = true) (hStep : s.step e = some t) : t.Counted bwtype := by
  have hOnTime' := h.onTime.step (onTime_of_countable hMet) hStep
  obtain ⟨d, q, hStreaming, hLegal, hAgrees⟩ := h.onTime
  have hRecorded := h.recorded d hStreaming.getHTTP
  have hType := h.bwtype
  have hBoth' : s.bwtype ≠ .httpOnly := by rwa [hType]
  cases step_effect hStreaming hLegal hStep with
  | timer c hEnds hLegal' hTold =>
      have hNew := hTold.streaming (hStreaming.ends hEnds)
      refine ⟨hOnTime', (hTold.sameRates hEnds.sameRates).bwtype.trans hType, fun d' hd' => ?_⟩
      cases hNew.getHTTP.symm.trans hd'
      have hPlenty := plenty_of_all (Bool.and_eq_true_iff.mp hMet).2
      exact (hRecorded.timer hStreaming hLegal hBoth' hPlenty hEnds hLegal' hTold).congr
        rfl rfl rfl rfl rfl
  | rates c hRates =>
      cases hRates with
      | stays m _ hRids hPos =>
          refine ⟨hOnTime', hType, fun d' hd' => ?_⟩
          cases (hStreaming.stays hRids hPos).getHTTP.symm.trans hd'
          exact hRecorded.congr rfl rfl rfl rfl rfl
      | changes m hNeeded hRids hLast hInside =>
          have hNew := hStreaming.onDataRateChanged hRids hLast hInside
          obtain ⟨hSame, -, -⟩ := onDataRateChanged_same s m
          refine ⟨hOnTime', hSame.bwtype.trans hType, fun d' hd' => ?_⟩
          cases hNew.getHTTP.symm.trans hd'
          have hRests : s.switch.http = .pausing := by
            simpa [countable, hNeeded] using (Bool.and_eq_true_iff.mp hMet).2
          obtain ⟨hClosed, hSum⟩ := hRecorded.rests hRests
          refine Recorded.congr (s := s) (d := { d with totalDownloadBytes := 0 })
            ⟨hRecorded.asserted, Nat.two_pow_pos 32, fun hRuns => ?_, fun _ => ⟨hClosed, hSum⟩⟩ rfl
            (congrArg _ hSame.switch) hSame.records hSame.asserted hSame.received
          rw [hRests] at hRuns
          cases hRuns
  | httpBytes n hRuns =>
      have hNew := hStreaming.calls (controlled_modifyHttp (fun d => { d with
        totalDownloadBytes := (d.totalDownloadBytes + n) % 2 ^ 32 }) s) rfl
      obtain ⟨-, hHttp⟩ := hAgrees.downloading hLegal hRuns
      obtain ⟨prior, r, hList, hClosed, hOpen, hLe, hSum⟩ := hRecorded.runs hHttp
      have hFits : d.totalDownloadBytes + n < 2 ^ 32 := by
        rw [← hStreaming.totalDownloadBytes]
        exact of_decide_eq_true hMet
      refine ⟨hOnTime', hType, fun d' hd' => ?_⟩
      cases hNew.getHTTP.symm.trans hd'
      simp only [Nat.mod_eq_of_lt hFits]
      refine ⟨hRecorded.asserted, hFits, fun _ => ⟨prior, r, hList, hClosed, hOpen, ?_, ?_⟩, ?_⟩
      · simp only
        omega
      · simp only
        omega
      · intro hRests
        have hSame : s.switch.http = .pausing := hRests
        rw [hHttp] at hSame
        cases hSame
  | blockTimeout =>
      have hNew := hStreaming.calls (controlled_modifyHttp LiveHttpDownloader.pause s) rfl
      refine ⟨hOnTime', hType, fun d' hd' => ?_⟩
      cases hNew.getHTTP.symm.trans hd'
      exact hRecorded.congr rfl rfl rfl rfl rfl
  | resumePosted number rest =>
      have hNew := hStreaming.calls (controlled_modifyHttp (fun d =>
        if d.number = number then d.resume else d) s) (by split <;> rfl)
      refine ⟨hOnTime', hType, fun d' hd' => ?_⟩
      cases hNew.getHTTP.symm.trans hd'
      exact hRecorded.congr (by split <;> rfl) rfl rfl rfl rfl

theorem start_counted (hBoth : bwtype ≠ .httpOnly) (hPlenty : c.plenty) (hRids : ridS ≠ []) :
    (start bwtype replay isPPLiveLive2 isTooNear ridS c).Counted bwtype := by
  have hOnTime : (start bwtype replay isPPLiveLive2 isTooNear ridS c).OnTime := start_onTime hRids
  obtain ⟨d, q, s₀, hBooted, hType, hStart⟩ :=
    start_booted bwtype replay isPPLiveLive2 isTooNear c hRids
  obtain ⟨k, u, hEnds, hLegal, hStreaming, hTold⟩ := hBooted.control c
  have hRecorded : Recorded d s₀ := by
    refine ⟨hBooted.asserted, ?_, fun hRuns => ?_, fun _ => ⟨?_, ?_⟩⟩
    · rw [hBooted.bytes]
      exact Nat.two_pow_pos 32
    · rw [hBooted.rests (by rwa [hType])] at hRuns
      cases hRuns
    · simp [hBooted.records]
    · simp [hBooted.records, hBooted.received, LiveDownload.recorded]
  rw [hStart] at hOnTime ⊢
  refine ⟨hOnTime, (hTold.sameRates hEnds.sameRates).bwtype.trans hType, fun d' hd' => ?_⟩
  cases (hTold.streaming hStreaming).getHTTP.symm.trans hd'
  exact hRecorded.timer hBooted.streaming hBooted.legal (by rwa [hType]) hPlenty hEnds hLegal hTold

/-- In every run that can be counted no assertion fails; each use of HTTP is opened and closed
once, the last one is open exactly while the machine downloads over HTTP, and the records sum
up to the bytes that came. -/
theorem records_of_run (hRids : ridS ≠ []) (hBoth : bwtype ≠ .httpOnly) (hPlenty : c.plenty)
    (run : Reaches (fun x e y => x.step e = some y) (fun x e => x.countable e = true)
      (start bwtype replay isPPLiveLive2 isTooNear ridS c) s) :
    ∃ d, s.getHTTPControlTarget = some d ∧ Recorded d s := by
  have hCounted : s.Counted bwtype :=
    run.invariant (start_counted hBoth hPlenty hRids) fun x e y h hMet hStep => h.step hBoth hMet hStep
  obtain ⟨d, q, hStreaming, -⟩ := hCounted.onTime
  exact ⟨d, hStreaming.getHTTP, hCounted.recorded d hStreaming.getHTTP⟩

theorem records_of_busy_run : ∃ s : LiveDownload, s.received = 1000 ∧
    ∃ d, s.getHTTPControlTarget = some d ∧ Recorded d s := by
  obtain ⟨s, hRun, hTest⟩ := Reaches.exists_of_checked LiveDownload.step countable
    normalStart busyRun (fun s => s.received == 1000) (by decide +kernel)
  exact ⟨s, eq_of_beq hTest, records_of_run (by decide) (by decide)
    (fun left hLeft => by cases hLeft) hRun⟩

end LiveDownload

end Live.Switch
