import Peer.Live.SwitchCalls

/-! Over every run of a live download: one stream runs, the state machine is in one of its
states, the pause flags agree with it where posted calls run in time, and the records of the
uses of HTTP account for the bytes that came over HTTP. -/
namespace Live.Switch

open Basis Download

namespace LiveDataRateManager

variable {m : LiveDataRateManager} {now rest : Nat}

theorem finish_same (now : Nat) (h : m.lastDataRatePos = m.currentDataRatePos) :
    finish now m = (false, m) :=
  if_neg (not_not.mpr h)

/-- What a switch did: nothing but to note the position, or one step up at least 30
seconds, or one step down at least 20 seconds after the last one. -/
inductive Switches (now : Nat) (m : LiveDataRateManager) : Bool × LiveDataRateManager → Prop where
  | stays : Switches now m (false, { m with lastDataRatePos := m.currentDataRatePos })
  | up (late : m.timer + 30 * 1000 < now) (inside : m.currentDataRatePos + 1 < m.ridS.length) :
      Switches now m (true, { m with
        lastDataRatePos := m.currentDataRatePos
        currentDataRatePos := m.currentDataRatePos + 1
        timer := now })
  | down (late : m.timer + 20 * 1000 < now) (next : Nat) (below : next + 1 = m.currentDataRatePos) :
      Switches now m (true, { m with
        lastDataRatePos := m.currentDataRatePos
        currentDataRatePos := next
        timer := now })

theorem switchToHigherDataRateIfNeeded_spec (now rest : Nat)
    (h : m.currentDataRatePos < m.ridS.length) :
    Switches now m (m.switchToHigherDataRateIfNeeded now rest) := by
  unfold switchToHigherDataRateIfNeeded
  simp only
  split
  · rename_i hNeeded
    split
    · have hTop : m.ridS.length - 1 = m.currentDataRatePos := by omega
      rw [hTop, finish_same now rfl]
      exact .stays
    · rw [finish, if_pos (by simp)]
      exact .up (by omega) (by omega)
  · rw [finish_same now rfl]
    exact .stays

theorem switchToLowerDataRateIfNeeded_spec (m : LiveDataRateManager) (now rest : Nat) :
    Switches now m (m.switchToLowerDataRateIfNeeded now rest) := by
  unfold switchToLowerDataRateIfNeeded
  simp only
  split
  · rename_i hNeeded
    split
    · rename_i hPos
      rw [finish, if_pos (by simp only; omega)]
      exact .down (by omega) (m.currentDataRatePos - 1) (by omega)
    · rw [finish_same now rfl]
      exact .stays
  · rw [finish_same now rfl]
    exact .stays

theorem switchIfNeeded_spec (now rest : Nat) (h : m.currentDataRatePos < m.ridS.length) :
    Switches now m (m.switchIfNeeded now rest) := by
  have hHigher := switchToHigherDataRateIfNeeded_spec now rest h
  unfold switchIfNeeded
  generalize m.switchToHigherDataRateIfNeeded now rest = r at hHigher
  cases hHigher with
  | stays =>
      have hLower := switchToLowerDataRateIfNeeded_spec
        { m with lastDataRatePos := m.currentDataRatePos } now rest
      simp only
      generalize switchToLowerDataRateIfNeeded now rest _ = r at hLower
      cases hLower with
      | stays => exact .stays
      | up hLate hInside => exact .up hLate hInside
      | down hLate next hBelow => exact .down (m := m) hLate next hBelow
  | up hLate hInside => exact .up hLate hInside
  | down hLate next hBelow => exact .down hLate next hBelow

end LiveDataRateManager

/-- The memory that is left at a timer does not pause the machine. -/
def Conditions.plenty (c : Conditions) : Prop :=
  ∀ left, c.leftCapacity = some left → 1024 ≤ left

namespace LiveDownload

/-- The current stream runs with the downloaders `d` and `q`, all others are as created. -/
structure Streaming (d : LiveHttpDownloader) (q : Option LiveP2PDownloader)
    (s : LiveDownload) : Prop where
  inside : s.dataRateManager.currentDataRatePos < s.dataRateManager.ridS.length
  streams : s.liveStreams =
    (s.dataRateManager.ridS.map fun _ => LiveStream.created).set
      s.dataRateManager.currentDataRatePos
      { isRunning := true, httpDownloader := some d, p2pDownloader := q }
  p2p : q.isSome = true ↔ s.bwtype ≠ .httpOnly
  numbered : d.number + 1 = s.created

variable {s t : LiveDownload} {d : LiveHttpDownloader} {q : Option LiveP2PDownloader}
  {f : LiveHttpDownloader → LiveHttpDownloader} {g : LiveP2PDownloader → LiveP2PDownloader}
  {c : Conditions} {k : Control}

theorem Streaming.currentStream (h : s.Streaming d q) :
    s.currentStream = some { isRunning := true, httpDownloader := some d, p2pDownloader := q } := by
  unfold LiveDownload.currentStream
  rw [h.streams, List.getElem?_set_self]
  simpa using h.inside

theorem Streaming.getHTTP (h : s.Streaming d q) : s.getHTTPControlTarget = some d := by
  simp [getHTTPControlTarget, h.currentStream]

theorem Streaming.getP2P (h : s.Streaming d q) : s.getP2PControlTarget = q := by
  simp [getP2PControlTarget, h.currentStream]

theorem Streaming.totalDownloadBytes (h : s.Streaming d q) :
    s.totalDownloadBytes = d.totalDownloadBytes := by
  simp [LiveDownload.totalDownloadBytes, h.getHTTP]

theorem modify_set {α : Type*} (xs : List α) (i : Nat) (a : α) (f : α → α) :
    (xs.set i a).modify i f = xs.set i (f a) := by
  apply List.ext_getElem?
  intro j
  by_cases hSame : i = j
  · subst hSame
    simp only [List.getElem?_modify_eq, List.getElem?_set, if_true]
    split <;> simp
  · simp [List.getElem?_set_ne hSame, hSame]

theorem Streaming.calls (h : s.Streaming d q) (hControlled : Controlled f g s t)
    (hNumber : (f d).number = d.number) : t.Streaming (f d) (q.map g) where
  inside := by
    rw [hControlled.dataRateManager]
    exact h.inside
  streams := by
    rw [hControlled.streams, hControlled.dataRateManager, h.streams, modify_set]
    rfl
  p2p := by simpa [hControlled.bwtype] using h.p2p
  numbered := by
    rw [hNumber, hControlled.created]
    exact h.numbered

@[simp]
theorem Control.onHttp_number (k : Control) (d : LiveHttpDownloader) :
    (k.onHttp d).number = d.number := by
  cases k <;> rfl

@[simp]
theorem Control.onHttp_totalDownloadBytes (k : Control) (d : LiveHttpDownloader) :
    (k.onHttp d).totalDownloadBytes = d.totalDownloadBytes := by
  cases k <;> rfl

theorem Streaming.ends (h : s.Streaming d q) (hEnds : Ends k s t) :
    t.Streaming (k.onHttp d) (q.map k.onP2P) :=
  h.calls hEnds.toControlled (by simp)

/-- The states the machine has: with a P2P downloader one of the two downloads, or both
rest; without one HTTP downloads unless the memory ran low. -/
def Legal (s : LiveDownload) : Prop :=
  (s.bwtype ≠ .httpOnly → s.switch.http = .downloading ∧ s.switch.p2p = .pausing ∨
    s.switch.http = .pausing ∧ s.switch.p2p = .downloading ∨
    s.switch.http = .pausing ∧ s.switch.p2p = .pausing) ∧
  (s.bwtype = .httpOnly → s.switch.p2p = .none ∧
    (s.switch.http = .downloading ∨ s.switch.http = .pausing))

/-- How a timer ends: the call itself ended in `u`, and the driver was told of HTTP's start
or end, if there was one. Only low memory pauses HTTP without telling. -/
inductive Told (c : Conditions) (s u : LiveDownload) : LiveDownload → Prop where
  | nothing (same : u.switch.http = .downloading ↔ s.switch.http = .downloading) : Told c s u u
  | low (short : ¬c.plenty) (after : u.switch.http = .pausing) : Told c s u u
  | started (both : s.bwtype ≠ .httpOnly) (before : s.switch.http = .pausing)
      (after : u.switch.http = .downloading) : Told c s u (u.startHttp c.now)
  | stopped (both : s.bwtype ≠ .httpOnly) (before : s.switch.http = .downloading)
      (after : u.switch.http = .pausing) : Told c s u (u.stopHttp c.now)

theorem checkState_spec (c : Conditions) (hLegal : s.Legal) :
    ∃ k u, Ends k s u ∧ u.Legal ∧ Told c s u (s.checkState c) := by
  by_cases hBoth : s.bwtype = .httpOnly
  · obtain ⟨hP2P, hHttp⟩ := hLegal.2 hBoth
    refine ⟨.stays, s, (Noted.refl s).stays, hLegal, ?_⟩
    have hSame : s.checkState c = s := by
      unfold checkState
      rcases hHttp with hHttp | hHttp <;> simp [hHttp, hP2P]
    rw [hSame]
    exact .nothing Iff.rfl
  have hKeeps : ∀ {k : Control} {u : LiveDownload}, Ends k s u →
      (u.switch.http = .downloading ∧ u.switch.p2p = .pausing ∨
        u.switch.http = .pausing ∧ u.switch.p2p = .downloading ∨
        u.switch.http = .pausing ∧ u.switch.p2p = .pausing) → u.Legal := by
    intro k u hEnds hStates
    refine ⟨fun _ => hStates, fun hOnly => absurd ?_ hBoth⟩
    rw [← hEnds.bwtype]
    exact hOnly
  rcases hLegal.1 hBoth with ⟨hHttp, hP2P⟩ | ⟨hHttp, hP2P⟩ | ⟨hHttp, hP2P⟩
  · obtain ⟨k, hWay, hEnds⟩ := checkState2300_ends c s
    have hHttp' := hEnds.httpState
    have hP2P' := hEnds.p2pState
    simp only [checkState, hHttp, hP2P]
    refine ⟨k, s.checkState2300 c, hEnds, hKeeps hEnds ?_, ?_⟩
    · rcases hWay with rfl | rfl | rfl <;>
        simp [hHttp', hP2P', Control.httpState, Control.p2pState, hHttp, hP2P]
    · rcases hWay with rfl | rfl | rfl <;> simp only [Control.httpState, hHttp] at hHttp'
      · rw [if_neg (by simp [hHttp'])]
        exact .nothing (by rw [hHttp', hHttp])
      · rw [if_pos (by simp [hHttp'])]
        exact .stopped hBoth hHttp hHttp'
      · rw [if_pos (by simp [hHttp'])]
        exact .stopped hBoth hHttp hHttp'
  · obtain ⟨k, hWay, hEnds⟩ := checkState3200_ends c s
    have hHttp' := hEnds.httpState
    have hP2P' := hEnds.p2pState
    simp only [checkState, hHttp, hP2P]
    refine ⟨k, s.checkState3200 c, hEnds, hKeeps hEnds ?_, ?_⟩
    · rcases hWay with rfl | rfl | rfl <;>
        simp [hHttp', hP2P', Control.httpState, Control.p2pState, hHttp, hP2P]
    · rcases hWay with rfl | rfl | rfl <;> simp only [Control.httpState, hHttp] at hHttp'
      · rw [if_neg (by simp [hHttp'])]
        exact .nothing (by rw [hHttp', hHttp])
      · rw [if_pos hHttp']
        exact .started hBoth hHttp hHttp'
      · rw [if_neg (by simp [hHttp'])]
        exact .nothing (by rw [hHttp', hHttp])
  · obtain ⟨k, hNot3300, hNotPauses, hEnds⟩ := checkState3300_ends c s
    have hHttp' := hEnds.httpState
    have hP2P' := hEnds.p2pState
    simp only [checkState, hHttp, hP2P]
    refine ⟨k, s.checkState3300 c, hEnds, hKeeps hEnds ?_, ?_⟩
    · cases k <;> simp_all [Control.httpState, Control.p2pState]
    · split
      · rename_i hStarted
        exact .started hBoth hHttp hStarted
      · rename_i hStays
        exact .nothing (by simp [hStays, hHttp])

theorem onControlTimer_spec (c : Conditions) (h : s.Streaming d q) (hLegal : s.Legal) :
    ∃ k u, Ends k s u ∧ u.Legal ∧ Told c s u (s.onControlTimer c) := by
  have hHttp : s.getHTTPControlTarget.isSome = true := by rw [h.getHTTP, Option.isSome_some]
  obtain ⟨k, hEnds, hWay⟩ := checkMemory_ends c s hHttp
  unfold onControlTimer
  generalize s.checkMemory c = r at hEnds hWay
  obtain ⟨full, t⟩ := r
  rcases hWay with rfl | ⟨⟨left, hLeft, hLow⟩, hFull, hk⟩
  · have hLegal' : t.Legal := by
      unfold Legal
      rw [hEnds.bwtype, hEnds.httpState, hEnds.p2pState]
      exact hLegal
    cases full with
    | true => exact ⟨.stays, t, hEnds, hLegal', .nothing (by rw [hEnds.httpState]; rfl)⟩
    | false =>
        obtain ⟨k, u, hEnds', hLegal'', hTold⟩ := checkState_spec c hLegal'
        refine ⟨k, u, ?_, hLegal'', ?_⟩
        · have hNoted : Noted s t :=
            { hEnds.toControlled with httpState := hEnds.httpState, p2pState := hEnds.p2pState }
          exact hNoted.ends hEnds'
        · simp only
          generalize t.checkState c = v at hTold
          have hState : t.switch.http = s.switch.http := hEnds.httpState
          have hType := hEnds.bwtype
          cases hTold with
          | nothing hSame => exact .nothing (by rw [hSame, hState])
          | low hShort hAfter => exact .low hShort hAfter
          | started hBoth hBefore hAfter =>
              exact .started (by rwa [← hType]) (by rwa [← hState]) hAfter
          | stopped hBoth hBefore hAfter =>
              exact .stopped (by rwa [← hType]) (by rwa [← hState]) hAfter
  · have hFull' : full = true := hFull
    subst hFull'
    have hShort : ¬c.plenty := fun hPlenty => absurd (hPlenty left hLeft) (by omega)
    rw [h.getP2P] at hk
    by_cases hBoth : s.bwtype = .httpOnly
    · have hNone : q.isSome = false := by
        rw [← Bool.not_eq_true, h.p2p]
        exact not_not.mpr hBoth
      simp only [hNone, Bool.false_eq_true, if_false] at hk
      subst hk
      refine ⟨.pausesHttp, t, hEnds, ⟨fun hNot => ?_, fun _ => ?_⟩, .low hShort hEnds.httpState⟩
      · rw [hEnds.bwtype] at hNot
        exact absurd hBoth hNot
      · exact ⟨hEnds.p2pState.trans (hLegal.2 hBoth).1, .inr hEnds.httpState⟩
    · simp only [h.p2p.mpr hBoth, if_true] at hk
      subst hk
      refine ⟨.to3300, t, hEnds, ⟨fun _ => ?_, fun hOnly => ?_⟩, .low hShort hEnds.httpState⟩
      · exact .inr (.inr ⟨hEnds.httpState, hEnds.p2pState⟩)
      · rw [hEnds.bwtype] at hOnly
        exact absurd hOnly hBoth

theorem Streaming.congr (h : s.Streaming d q) (hManager : t.dataRateManager = s.dataRateManager)
    (hStreams : t.liveStreams = s.liveStreams) (hType : t.bwtype = s.bwtype)
    (hCreated : t.created = s.created) : t.Streaming d q where
  inside := by
    rw [hManager]
    exact h.inside
  streams := by
    rw [hStreams, hManager]
    exact h.streams
  p2p := by
    rw [hType]
    exact h.p2p
  numbered := by
    rw [hCreated]
    exact h.numbered

theorem map_stop_set (rids : List Nat) (i : Nat) (l : LiveStream) (h : l.isRunning = true) :
    ((rids.map fun _ => LiveStream.created).set i l).map LiveStream.stop =
      rids.map fun _ => LiveStream.created := by
  have hStop : l.stop = LiveStream.created := if_pos h
  rw [List.map_set, List.map_map, hStop]
  apply List.ext_getElem?
  intro j
  by_cases hSame : i = j
  · subst hSame
    by_cases hInside : i < rids.length
    · simp [hInside]
    · simp [hInside]
  · rw [List.getElem?_set_ne hSame]
    rfl

/-- The streams are stopped and the one that is current now starts. Its HTTP downloader
pauses if the old one did; its P2P downloader, if there is one, always runs. -/
theorem Streaming.onDataRateChanged (h : s.Streaming d q) {m : LiveDataRateManager}
    (hRids : m.ridS = s.dataRateManager.ridS)
    (hLast : m.lastDataRatePos = s.dataRateManager.currentDataRatePos)
    (hInside : m.currentDataRatePos < m.ridS.length) :
    ({ s with dataRateManager := m }.onDataRateChanged).Streaming
      { number := s.created, isHttpPausing := d.isHttpPausing, totalDownloadBytes := 0 }
      (q.map LiveP2PDownloader.resume) := by
  let stopped : LiveDownload :=
    { s with dataRateManager := m, liveStreams := s.liveStreams.map LiveStream.stop }
  let fresh : Option LiveP2PDownloader :=
    if s.bwtype ≠ .httpOnly then some { isP2PPausing := true } else none
  have hStarted : stopped.startStream.Streaming
      { number := s.created, isHttpPausing := true, totalDownloadBytes := 0 } fresh := by
    refine ⟨hInside, ?_, ?_, rfl⟩
    · change (s.liveStreams.map LiveStream.stop).modify m.currentDataRatePos _ = _
      rw [h.streams, map_stop_set _ _ _ rfl, ← hRids, List.modify_eq_set_getElem?]
      simp [stopped, startStream, modifyStream, LiveStream.start, LiveStream.created, fresh, hInside]
    · change fresh.isSome = true ↔ s.bwtype ≠ .httpOnly
      by_cases hBoth : s.bwtype = .httpOnly <;> simp [fresh, hBoth]
  have hOld : s.liveStreams[m.lastDataRatePos]? =
      some { isRunning := true, httpDownloader := some d, p2pDownloader := q } := by
    rw [hLast]
    exact h.currentStream
  have hHttp : (if !d.isHttpPausing then stopped.startStream.modifyHttp LiveHttpDownloader.resume
      else stopped.startStream).Streaming
      { number := s.created, isHttpPausing := d.isHttpPausing, totalDownloadBytes := 0 } fresh := by
    cases hPausing : d.isHttpPausing with
    | true => exact hStarted
    | false =>
        simpa using! hStarted.calls (controlled_modifyHttp LiveHttpDownloader.resume _) rfl
  have hEq : { s with dataRateManager := m }.onDataRateChanged =
      if !q.isNone then
        (if !d.isHttpPausing then stopped.startStream.modifyHttp LiveHttpDownloader.resume
          else stopped.startStream).modifyP2P LiveP2PDownloader.resume
      else if !d.isHttpPausing then stopped.startStream.modifyHttp LiveHttpDownloader.resume
        else stopped.startStream := by
    unfold LiveDownload.onDataRateChanged
    simp only [hOld, Option.bind_some, Option.any_some]
    rfl
  rw [hEq]
  cases hq : q with
  | none =>
      have hOnly : s.bwtype = .httpOnly := by
        by_contra hBoth
        simpa [hq] using h.p2p.mpr hBoth
      have hFresh : fresh = none := if_neg (not_not.mpr hOnly)
      rw [hFresh] at hHttp
      exact hHttp
  | some p =>
      have hFresh : fresh = some { isP2PPausing := true } := if_pos (h.p2p.mp (by rw [hq]; rfl))
      rw [hFresh] at hHttp
      exact hHttp.calls (controlled_modifyP2P LiveP2PDownloader.resume _) rfl

/-- What a data rate change leaves as it was. -/
structure SameMachine (s t : LiveDownload) : Prop where
  bwtype : t.bwtype = s.bwtype
  switch : t.switch = s.switch
  records : t.httpDownloadStatistic = s.httpDownloadStatistic
  posted : t.posted = s.posted
  asserted : t.asserted = s.asserted
  received : t.received = s.received

theorem onDataRateChanged_same (s : LiveDownload) (m : LiveDataRateManager) :
    SameMachine s ({ s with dataRateManager := m }.onDataRateChanged) ∧
      ({ s with dataRateManager := m }.onDataRateChanged).dataRateManager = m ∧
      ({ s with dataRateManager := m }.onDataRateChanged).created = s.created + 1 := by
  simp only [onDataRateChanged]
  split_ifs <;> exact ⟨⟨rfl, rfl, rfl, rfl, rfl, rfl⟩, rfl, rfl⟩

/-- `JumpOrSwitchIfNeeded` changes the data rate now. -/
def changesRate (c : Conditions) (s : LiveDownload) : Bool :=
  c.config.autoSwitchStream && (s.dataRateManager.switchIfNeeded c.now c.restPlayableTime).1

/-- The ways `JumpOrSwitchIfNeeded` can end. -/
inductive Rates (c : Conditions) (s : LiveDownload) : LiveDownload → Prop where
  | stays (m : LiveDataRateManager) (idle : s.changesRate c = false)
      (rids : m.ridS = s.dataRateManager.ridS)
      (pos : m.currentDataRatePos = s.dataRateManager.currentDataRatePos)
      (timer : m.timer = s.dataRateManager.timer) : Rates c s { s with dataRateManager := m }
  | changes (m : LiveDataRateManager) (needed : s.changesRate c = true)
      (rids : m.ridS = s.dataRateManager.ridS)
      (last : m.lastDataRatePos = s.dataRateManager.currentDataRatePos)
      (inside : m.currentDataRatePos < m.ridS.length) (timer : m.timer = c.now)
      (moved : m.currentDataRatePos = m.lastDataRatePos + 1 ∧
          s.dataRateManager.timer + 30 * 1000 < c.now ∨
        m.currentDataRatePos + 1 = m.lastDataRatePos ∧
          s.dataRateManager.timer + 20 * 1000 < c.now) :
      Rates c s { { s with dataRateManager := m }.onDataRateChanged with
        changes := (c.now, m.lastDataRatePos, m.currentDataRatePos) :: s.changes }

theorem switchIfNeeded_rates (c : Conditions) (h : s.Streaming d q) :
    Rates c s (s.switchIfNeeded c) := by
  have hInside := h.inside
  unfold switchIfNeeded
  split
  · rename_i hAuto
    have hSwitches := LiveDataRateManager.switchIfNeeded_spec c.now c.restPlayableTime hInside
    have hNeeded : s.changesRate c =
        (s.dataRateManager.switchIfNeeded c.now c.restPlayableTime).1 := by
      simp [changesRate, hAuto]
    generalize s.dataRateManager.switchIfNeeded c.now c.restPlayableTime = r at hSwitches hNeeded
    cases hSwitches with
    | stays => exact .stays _ hNeeded rfl rfl rfl
    | up hLate hInside => exact .changes _ hNeeded rfl rfl hInside rfl (.inl ⟨rfl, hLate⟩)
    | down hLate next hBelow =>
        exact .changes _ hNeeded rfl rfl (by simp only; omega) rfl (.inr ⟨hBelow, hLate⟩)
  · rename_i hAuto
    exact .stays s.dataRateManager (by simp [changesRate, hAuto]) rfl rfl rfl

/-- What one step can do to a download whose current stream has the HTTP downloader `d`. -/
inductive Effect (d : LiveHttpDownloader) (s : LiveDownload) : Event → LiveDownload → Prop where
  | timer {k : Control} {u v : LiveDownload} (c : Conditions) (ends : Ends k s u)
      (legal : u.Legal) (told : Told c s u v) :
      Effect d s (.timer c) { v with switchState := (v.switch.http, v.switch.p2p) }
  | rates {t : LiveDownload} (c : Conditions) (rates : Rates c s t) :
      Effect d s (.jumpOrSwitch c) t
  | httpBytes (n : Nat) (runs : d.isHttpPausing = false) :
      Effect d s (.httpBytes n) { s.modifyHttp fun d => { d with
        totalDownloadBytes := (d.totalDownloadBytes + n) % 2 ^ 32 } with
        received := s.received + n }
  | blockTimeout (runs : d.isHttpPausing = false) :
      Effect d s .blockTimeout
        { s.modifyHttp LiveHttpDownloader.pause with posted := s.posted ++ [d.number] }
  | resumePosted (number : Nat) (rest : List Nat) (posted : s.posted = number :: rest) :
      Effect d s .resumePosted
        { s.modifyHttp fun d => if d.number = number then d.resume else d with posted := rest }

theorem step_effect {e : Event} (h : s.Streaming d q) (hLegal : s.Legal)
    (hStep : s.step e = some t) : Effect d s e t := by
  cases e with
  | timer c =>
      cases hStep
      obtain ⟨k, u, hEnds, hLegal', hTold⟩ := onControlTimer_spec c h hLegal
      exact .timer c hEnds hLegal' hTold
  | jumpOrSwitch c =>
      cases hStep
      exact .rates c (switchIfNeeded_rates c h)
  | httpBytes n =>
      simp only [LiveDownload.step, h.getHTTP, Option.any_some, decide_eq_true_eq] at hStep
      split at hStep
      · rename_i hRuns
        cases hStep
        exact .httpBytes n hRuns
      · cases hStep
  | blockTimeout =>
      simp only [LiveDownload.step, h.getHTTP] at hStep
      split at hStep
      · cases hStep
      · rename_i hRuns
        cases hStep
        exact .blockTimeout (by simpa using hRuns)
  | resumePosted =>
      simp only [LiveDownload.step] at hStep
      split at hStep
      · cases hStep
      · rename_i number rest hPosted
        cases hStep
        exact .resumePosted number rest hPosted

theorem Legal.congr (h : s.Legal) (hType : t.bwtype = s.bwtype) (hSwitch : t.switch = s.switch) :
    t.Legal := by
  unfold Legal
  rw [hType, hSwitch]
  exact h

theorem Told.streaming {u : LiveDownload} (h : Told c s u t) (hStreaming : u.Streaming d q) :
    t.Streaming d q := by
  cases h with
  | nothing => exact hStreaming
  | low => exact hStreaming
  | started => exact hStreaming.congr rfl rfl rfl rfl
  | stopped => exact hStreaming.congr rfl rfl rfl rfl

theorem Told.legal {u : LiveDownload} (h : Told c s u t) (hLegal : u.Legal) : t.Legal := by
  cases h with
  | nothing => exact hLegal
  | low => exact hLegal
  | started => exact hLegal.congr rfl rfl
  | stopped => exact hLegal.congr rfl rfl

theorem Streaming.stays (h : s.Streaming d q) {m : LiveDataRateManager}
    (hRids : m.ridS = s.dataRateManager.ridS)
    (hPos : m.currentDataRatePos = s.dataRateManager.currentDataRatePos) :
    ({ s with dataRateManager := m }).Streaming d q where
  inside := by simpa [hRids, hPos] using h.inside
  streams := by simpa [hRids, hPos] using h.streams
  p2p := h.p2p
  numbered := h.numbered

/-- Whatever happens, one stream runs and the machine is in one of its states. -/
def Working (s : LiveDownload) : Prop :=
  (∃ d q, s.Streaming d q) ∧ s.Legal

theorem Working.step {e : Event} (h : s.Working) (hStep : s.step e = some t) : t.Working := by
  obtain ⟨⟨d, q, hStreaming⟩, hLegal⟩ := h
  cases step_effect hStreaming hLegal hStep with
  | timer c hEnds hLegal' hTold =>
      have hNew := hTold.streaming (hStreaming.ends hEnds)
      exact ⟨⟨_, _, hNew.congr rfl rfl rfl rfl⟩, (hTold.legal hLegal').congr rfl rfl⟩
  | rates c hRates =>
      cases hRates with
      | stays m _ hRids hPos => exact ⟨⟨d, q, hStreaming.stays hRids hPos⟩, hLegal.congr rfl rfl⟩
      | changes m _ hRids hLast hInside =>
          have hNew := hStreaming.onDataRateChanged hRids hLast hInside
          obtain ⟨hSame, -, -⟩ := onDataRateChanged_same s m
          exact ⟨⟨_, _, hNew.congr rfl rfl rfl rfl⟩, hLegal.congr hSame.bwtype hSame.switch⟩
  | httpBytes n =>
      have hNew := hStreaming.calls (controlled_modifyHttp (fun d => { d with
        totalDownloadBytes := (d.totalDownloadBytes + n) % 2 ^ 32 }) s) rfl
      exact ⟨⟨_, _, hNew.congr rfl rfl rfl rfl⟩, hLegal.congr rfl rfl⟩
  | blockTimeout =>
      have hNew := hStreaming.calls (controlled_modifyHttp LiveHttpDownloader.pause s) rfl
      exact ⟨⟨_, _, hNew.congr rfl rfl rfl rfl⟩, hLegal.congr rfl rfl⟩
  | resumePosted number rest =>
      have hNew := hStreaming.calls (controlled_modifyHttp (fun d =>
        if d.number = number then d.resume else d) s) (by split <;> rfl)
      exact ⟨⟨_, _, hNew.congr rfl rfl rfl rfl⟩, hLegal.congr rfl rfl⟩

/-- The driver as `LiveSwitchController::Start` leaves it to the first `OnControlTimer`. -/
structure Booted (ridS : List Nat) (now : Nat) (d : LiveHttpDownloader)
    (q : Option LiveP2PDownloader) (s : LiveDownload) : Prop where
  streaming : s.Streaming d q
  legal : s.Legal
  http : d.isHttpPausing = true ↔ s.switch.http = .pausing
  p2p : ∀ p, q = some p → (p.isP2PPausing = true ↔ s.switch.p2p = .pausing)
  bytes : d.totalDownloadBytes = 0
  rests : s.bwtype ≠ .httpOnly → s.switch.http = .pausing
  records : s.httpDownloadStatistic = []
  posted : s.posted = []
  asserted : s.asserted = true
  received : s.received = 0
  changes : s.changes = []
  dataRateManager : s.dataRateManager = .start ridS now
  created : s.created = 1

variable {bwtype : JumpBWType} {replay isPPLiveLive2 isTooNear : Bool} {ridS : List Nat}

theorem start_booted (bwtype : JumpBWType) (replay isPPLiveLive2 isTooNear : Bool) (c : Conditions)
    (hRids : ridS ≠ []) :
    ∃ d q s, Booted ridS c.now d q s ∧ s.bwtype = bwtype ∧
      start bwtype replay isPPLiveLive2 isTooNear ridS c = s.onControlTimer c := by
  obtain ⟨rid, rids, rfl⟩ := List.exists_cons_of_ne_nil hRids
  let s₀ : LiveDownload := startStream
    { bwtype, replay, isPPLiveLive2, switch := .created c.now
      dataRateManager := .start (rid :: rids) c.now
      liveStreams := (rid :: rids).map fun _ => LiveStream.created
      httpDownloadStatistic := [], changedToP2PConditionWhenStart := none
      httpDownloadBytesWhenStart := 0, changedToHttpTimesWhenUrgent := 0
      blockTimesWhenUseHttpUnderUrgentSituation := 0, switchState := (.none, .none)
      created := 0, posted := [], asserted := true, received := 0, changes := [] }
  by_cases hOnly : bwtype = .httpOnly
  · subst hOnly
    refine ⟨{ number := 0, isHttpPausing := false, totalDownloadBytes := 0 }, none,
      s₀.prepareSwitch isTooNear, ?_, rfl, rfl⟩
    exact
      { streaming := ⟨Nat.succ_pos _, rfl, iff_of_false nofun fun hBoth => hBoth rfl, rfl⟩
        legal := ⟨fun hBoth => absurd rfl hBoth, fun _ => ⟨rfl, .inl rfl⟩⟩
        http := iff_of_false nofun nofun
        p2p := nofun
        bytes := rfl
        rests := fun hBoth => absurd rfl hBoth
        records := rfl
        posted := rfl
        asserted := rfl
        received := rfl
        changes := rfl
        dataRateManager := rfl
        created := rfl }
  · have hEq : s₀.prepareSwitch isTooNear = { s₀ with
        switch := { s₀.switch with
          http := .pausing, p2p := .pausing, isTooNearFromLastVvOfSameChannel := isTooNear
          isSavingMode := decide (bwtype = .p2pMore) }
        liveStreams := ⟨true, some ⟨0, true, 0⟩, some ⟨true⟩⟩ ::
          rids.map fun _ => LiveStream.created } := by
      cases bwtype <;> first | exact absurd rfl hOnly | rfl
    refine ⟨{ number := 0, isHttpPausing := true, totalDownloadBytes := 0 },
      some { isP2PPausing := true }, s₀.prepareSwitch isTooNear, ?_, ?_, rfl⟩
    · rw [hEq]
      exact
        { streaming := ⟨Nat.succ_pos _, rfl, iff_of_true rfl hOnly, rfl⟩
          legal := ⟨fun _ => .inr (.inr ⟨rfl, rfl⟩), fun h => absurd h hOnly⟩
          http := iff_of_true rfl rfl
          p2p := fun p hp => by
            cases hp
            exact iff_of_true rfl rfl
          bytes := rfl
          rests := fun _ => rfl
          records := rfl
          posted := rfl
          asserted := rfl
          received := rfl
          changes := rfl
          dataRateManager := rfl
          created := rfl }
    · rw [hEq]
      rfl

theorem Booted.control {now : Nat} {s₀ : LiveDownload} (h : Booted ridS now d q s₀)
    (c : Conditions) :
    ∃ k u, Ends k s₀ u ∧ u.Legal ∧ u.Streaming (k.onHttp d) (q.map k.onP2P) ∧
      Told c s₀ u (s₀.onControlTimer c) := by
  obtain ⟨k, u, hEnds, hLegal, hTold⟩ := onControlTimer_spec c h.streaming h.legal
  exact ⟨k, u, hEnds, hLegal, h.streaming.ends hEnds, hTold⟩

/-- What no call of the controller changes. -/
structure SameRates (s t : LiveDownload) : Prop where
  bwtype : t.bwtype = s.bwtype
  dataRateManager : t.dataRateManager = s.dataRateManager
  created : t.created = s.created
  changes : t.changes = s.changes

theorem Controlled.sameRates (h : Controlled f g s t) : SameRates s t :=
  ⟨h.bwtype, h.dataRateManager, h.created, h.changes⟩

theorem Told.sameRates {u : LiveDownload} (h : Told c s u t) (hSame : SameRates s u) :
    SameRates s t := by
  obtain ⟨hType, hManager, hCreated, hChanges⟩ := hSame
  cases h <;> exact ⟨hType, hManager, hCreated, hChanges⟩

/-- The time of the last data rate change, or of the start. -/
def lastTime (begin : Nat) (changes : List (Nat × Nat × Nat)) : Nat :=
  (changes.head?.map Prod.fst).getD begin

/-- The position the last data rate change led to. -/
def lastPos (changes : List (Nat × Nat × Nat)) : Nat :=
  (changes.head?.map fun x => x.2.2).getD 0

/-- Each change is one step up more than 30 seconds or one step down more than 20 seconds
after the change before it, and starts where that one ended. -/
def Spaced (begin : Nat) : List (Nat × Nat × Nat) → Prop
  | [] => True
  | (time, last, pos) :: rest =>
      last = lastPos rest ∧
      (pos = last + 1 ∧ lastTime begin rest + 30 * 1000 < time ∨
        pos + 1 = last ∧ lastTime begin rest + 20 * 1000 < time) ∧
      Spaced begin rest

theorem Spaced.length_le {begin : Nat} {changes : List (Nat × Nat × Nat)}
    (h : Spaced begin changes) :
    begin + 20001 * changes.length ≤ lastTime begin changes := by
  induction changes with
  | nil => simp [lastTime]
  | cons change rest ih =>
      obtain ⟨time, last, pos⟩ := change
      obtain ⟨-, hLate, hRest⟩ := h
      have hBefore := ih hRest
      have hTime : lastTime begin ((time, last, pos) :: rest) = time := rfl
      rw [hTime, List.length_cons]
      omega

/-- The data rate manager and its history agree. -/
structure Rated (ridS : List Nat) (begin : Nat) (s : LiveDownload) : Prop where
  rids : s.dataRateManager.ridS = ridS
  timer : s.dataRateManager.timer = lastTime begin s.changes
  pos : s.dataRateManager.currentDataRatePos = lastPos s.changes
  created : s.created = s.changes.length + 1
  spaced : Spaced begin s.changes

theorem Rated.same {begin : Nat} (h : Rated ridS begin s) (hSame : SameRates s t) :
    Rated ridS begin t where
  rids := by rw [hSame.dataRateManager, h.rids]
  timer := by rw [hSame.dataRateManager, hSame.changes, h.timer]
  pos := by rw [hSame.dataRateManager, hSame.changes, h.pos]
  created := by rw [hSame.created, hSame.changes, h.created]
  spaced := by rw [hSame.changes]; exact h.spaced

theorem Rated.effect {begin : Nat} {e : Event} (h : Rated ridS begin s) (hEffect : Effect d s e t) :
    Rated ridS begin t := by
  cases hEffect with
  | timer c hEnds hLegal hTold =>
      obtain ⟨hType, hManager, hCreated, hChanges⟩ := hTold.sameRates hEnds.sameRates
      exact h.same ⟨hType, hManager, hCreated, hChanges⟩
  | rates c hRates =>
      cases hRates with
      | stays m _ hRids hPos hTimer =>
          exact ⟨hRids.trans h.rids, hTimer.trans h.timer, hPos.trans h.pos, h.created, h.spaced⟩
      | changes m _ hRids hLast hInside hTimer hMoved =>
          obtain ⟨-, hManager, hCreated⟩ := onDataRateChanged_same s m
          refine ⟨?_, ?_, ?_, ?_, hLast.trans h.pos, ?_, h.spaced⟩
          · exact (congrArg _ hManager).trans (hRids.trans h.rids)
          · exact (congrArg _ hManager).trans hTimer
          · exact congrArg _ hManager
          · rw [List.length_cons, ← h.created]
            exact hCreated
          · rw [← h.timer]
            exact hMoved
  | httpBytes n => exact h.same ⟨rfl, rfl, rfl, rfl⟩
  | blockTimeout => exact h.same ⟨rfl, rfl, rfl, rfl⟩
  | resumePosted number rest => exact h.same ⟨rfl, rfl, rfl, rfl⟩

/-- A configuration that uses HTTP when P2P is late, and changes data rates. -/
def urgentConfig : BootStrapGeneralConfig :=
  { p2pSpeedThreshold := 0, timeOfAdvancingSwitchingHttp := 0
    useCdnToAccelerateBasedOnHistory := false, shouldUseCDNWhenLargeUpload := false
    timeToIgnoreHttpBad := 0, restPlayTimeDelim := 0, useHttpWhenConnectedNonePeers := false
    restPlayTimeDelimWhenNonePeers := 0, enoughRestPlayTimeDelimWhenNonePeers := 0
    useHttpWhenUrgent := true, p2pRestPlayableTimeDelim := 8
    p2pRestPlayableTimeDelimWhenSwitchedWithLargeTime := 8, p2pProtectTimeWhenStart := 5000
    p2pProtectTimeIfStartAndSpeedIs0 := 5000, p2pProtectTimeWhenSwitchedWithNotEnoughTime := 5000
    p2pProtectTimeWhenSwitchedWithBuffering := 5000, p2pProtectTimeIfSpeedIs0 := 5000
    urgentRestPlayableTimeDelim := 5, safeRestPlayableTimeDelim := 15
    safeEnoughRestPlayableTime := 20, httpProtectTimeWhenLargeUpload := 0
    usingCDNOrUdpServerTimeDelim := 30, httpRunningLongEnoughTimeWhenStart := 60000
    httpProtectTimeWhenStart := 20000, httpProtectTime2WhenStart := 20000
    httpDownloadBytesDelimWhenStart := 0, httpProtectTimeWhenUrgentSwitched := 20000
    httpRunningLongEnoughTimeWhenUrgentSwitched := 60000
    httpRunningLongestTimeWhenUrgentSwitched := 180000, maxRestPlayableTime := 180
    minRestPlayableTime := 120, shouldJudgeSwitchingDatarateManually := false
    restPlayableTimeDelimWhenSwitching := 0, shouldUseBWType := true, autoSwitchStream := true }

/-- Ten peers are connected, and memory is plenty. -/
def calm (now restPlayableTime : Nat) : Conditions :=
  { config := urgentConfig, now, restPlayableTime, p2pNowDownloadSpeed := 1000
    connectedPeersCount := 10, doesFallBehindTooMuch := false, shouldUseCdnToAccelerate := false
    isUploadSpeedLargeEnough := false, isUploadSpeedSmallEnough := true, leftCapacity := none }

/-- P2P starts and falls late, HTTP takes over, loses a block, downloads and is stopped, and
then the data rate goes up. -/
def busyRun : List Event :=
  [.timer (calm 6000 2), .httpBytes 700, .blockTimeout, .resumePosted, .httpBytes 300,
    .timer (calm 20000 40), .jumpOrSwitch (calm 31000 40), .timer (calm 32000 40)]

def normalStart : LiveDownload :=
  start .normal false true false [10, 20] (calm 0 0)

/-- In every run one stream runs, the current one, and the machine is in one of its states:
HTTP and P2P never download both. -/
theorem states_of_run (hRids : ridS ≠ [])
    (run : Reaches (fun x e y => x.step e = some y) (fun _ _ => True)
      (start bwtype replay isPPLiveLive2 isTooNear ridS c) s) : s.Working := by
  refine run.invariant ?_ fun x e y h _ hStep => h.step hStep
  obtain ⟨d, q, s₀, hBooted, -, hStart⟩ :=
    start_booted bwtype replay isPPLiveLive2 isTooNear c hRids
  obtain ⟨k, u, -, hLegal, hStreaming, hTold⟩ := hBooted.control c
  rw [hStart]
  exact ⟨⟨_, _, hTold.streaming hStreaming⟩, hTold.legal hLegal⟩

theorem states_of_busy_run : ∃ s : LiveDownload, s.changes = [(31000, 0, 1)] ∧ s.Working := by
  obtain ⟨s, hRun, hTest⟩ := Reaches.exists_of_checked LiveDownload.step (fun _ _ => true)
    normalStart busyRun (fun s => s.changes == [(31000, 0, 1)]) (by decide +kernel)
  exact ⟨s, eq_of_beq hTest, states_of_run (by decide) (hRun.mono fun _ _ _ => trivial)⟩

/-- In every run the position is that of a stream, each data rate change moves it by one, and
a change comes more than 20 seconds after the one before, or 30 seconds where it moves up. So
the downloaders are replaced at most once in 20 seconds. -/
theorem rates_of_run (hRids : ridS ≠ [])
    (run : Reaches (fun x e y => x.step e = some y) (fun _ _ => True)
      (start bwtype replay isPPLiveLive2 isTooNear ridS c) s) :
    s.dataRateManager.currentDataRatePos < ridS.length ∧ Spaced c.now s.changes ∧
      s.dataRateManager.currentDataRatePos = lastPos s.changes ∧
      s.created = s.changes.length + 1 ∧
      c.now + 20001 * s.changes.length ≤ s.dataRateManager.timer := by
  have hAll : s.Working ∧ Rated ridS c.now s := by
    apply run.invariant (P := fun s => s.Working ∧ Rated ridS c.now s)
    · refine ⟨states_of_run hRids (.refl _), ?_⟩
      obtain ⟨d, q, s₀, hBooted, -, hStart⟩ :=
        start_booted bwtype replay isPPLiveLive2 isTooNear c hRids
      obtain ⟨k, u, hEnds, -, -, hTold⟩ := hBooted.control c
      have hRated : Rated ridS c.now s₀ := by
        constructor <;> simp [hBooted.dataRateManager, hBooted.changes, hBooted.created,
          LiveDataRateManager.start, lastTime, lastPos, Spaced]
      rw [hStart]
      exact hRated.same (hTold.sameRates hEnds.sameRates)
    · rintro x e y ⟨hWorking, hRated⟩ - hStep
      obtain ⟨⟨d, q, hStreaming⟩, hLegal⟩ := hWorking
      exact ⟨Working.step ⟨⟨d, q, hStreaming⟩, hLegal⟩ hStep,
        hRated.effect (step_effect hStreaming hLegal hStep)⟩
  obtain ⟨⟨⟨d, q, hStreaming⟩, -⟩, hRated⟩ := hAll
  refine ⟨?_, hRated.spaced, hRated.pos, hRated.created, ?_⟩
  · rw [← hRated.rids]
    exact hStreaming.inside
  · rw [hRated.timer]
    exact hRated.spaced.length_le

theorem rates_of_busy_run : ∃ s : LiveDownload, s.changes = [(31000, 0, 1)] ∧
    s.dataRateManager.currentDataRatePos < 2 ∧ Spaced 0 s.changes := by
  obtain ⟨s, hRun, hTest⟩ := Reaches.exists_of_checked LiveDownload.step (fun _ _ => true)
    normalStart busyRun (fun s => s.changes == [(31000, 0, 1)]) (by decide +kernel)
  obtain ⟨hInside, hSpaced, -⟩ := rates_of_run (by decide) (hRun.mono fun _ _ _ => trivial)
  exact ⟨s, eq_of_beq hTest, hInside, hSpaced⟩

end LiveDownload

end Live.Switch
