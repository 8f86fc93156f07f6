import Peer.Download.ControlMode

/-! `DownloadControlMode`: the machine that decides for a download whether HTTP, P2P or both
run. A timer follows the state until a round does not ask for another. -/
namespace Download

open Basis

/-- What the rest of the program answers during one round. -/
structure DownloadAnswers where
  now : Nat
  isDownloadSpeedLimited : Bool
  /-- `GetDownloadLevel` is `PASSIVE_DOWNLOAD_LEVEL`. -/
  isPassive : Bool
  httpCurrentDownloadSpeed : Nat
  p2pCurrentDownloadSpeed : Nat
  connectedPeersCount : Nat
  waitTimeForTinydragInDownloadMode : Nat
  minDownloadSpeedToBeEnsuredInKBps : Nat

/-- The counters are the times of their last resets. -/
structure DownloadControlMode extends ControlMode where
  waitingTinydragTimerCounter : Nat
  isTinyDragTimerReset : Bool
  waitingP2PStableTimerCounter : Nat
  isP2PTimerReset : Bool
  waitingHttpStableTimerCounter : Nat
  isHttpTimerReset : Bool
  waitingP2PConnectedTimerCounter : Nat
  isP2PConnectedTimerReset : Bool
  deriving DecidableEq

namespace ControlMode

def changeTo0200 (m : ControlMode) : ControlMode :=
  { (m.check m.getHTTPControlTarget.isNone).setP2P false with p2p := .downloading }

def changeTo2000 (m : ControlMode) : ControlMode :=
  { (m.check m.p2pTarget.isNone).setHttp 0 false with http := .downloading }

def changeTo2200 (m : ControlMode) : ControlMode :=
  { (m.setHttp 0 false).setP2P false with http := .downloading, p2p := .downloading }

def changeTo2300 (m : ControlMode) : ControlMode :=
  { (m.setHttp 0 false).setP2P true with http := .downloading, p2p := .pausing }

def changeTo3200 (m : ControlMode) : ControlMode :=
  { (m.setHttp 0 true).setP2P false with http := .pausing, p2p := .downloading }

/-- What <0000> does once there is a target. -/
def changeFrom0000 (m : ControlMode) : ControlMode :=
  let m := if m.getHTTPControlTarget.isSome then { m.setHttp 0 true with http := .pausing } else m
  if m.p2pTarget.isSome then { m.setP2P true with p2p := .pausing } else m

/-- A call of the HTTP target, which has to be there. -/
def usesHttp (m : ControlMode) : ControlMode := m.check m.getHTTPControlTarget.isSome

/-- A call of the P2P target, which has to be there. -/
def usesP2P (m : ControlMode) : ControlMode := m.check m.p2pTarget.isSome

end ControlMode

namespace DownloadControlMode

def lift (f : ControlMode → ControlMode) (m : DownloadControlMode) : DownloadControlMode :=
  { m with toControlMode := f m.toControlMode }

/-- `IsP2PBad` without its assertions. -/
def isP2PBad (a : DownloadAnswers) (isCurrentP2PBad : Bool) (m : DownloadControlMode) : Bool :=
  let threshold :=
    if m.bwtype = .p2pIncreaseConnect then
      if isCurrentP2PBad then (a.minDownloadSpeedToBeEnsuredInKBps + 10) * 1024 % 2 ^ 32
      else a.minDownloadSpeedToBeEnsuredInKBps * 1024 % 2 ^ 32
    else if isCurrentP2PBad then 30 * 1024 else 20 * 1024
  if !isCurrentP2PBad && decide (a.p2pCurrentDownloadSpeed > threshold) ||
      isCurrentP2PBad && decide (a.p2pCurrentDownloadSpeed < threshold) then isCurrentP2PBad
  else !isCurrentP2PBad

/-- The assertions of `IsP2PBad`. -/
def asksP2PBad (m : DownloadControlMode) : DownloadControlMode :=
  m.lift fun b => b.usesP2P.check (decide (b.p2p = .downloading))

def isHTTPNormal (a : DownloadAnswers) : Bool := decide (a.httpCurrentDownloadSpeed > 0)

/-- A round goes on with another one (`continue`) or leaves the loop (`break`). -/
abbrev Round := DownloadControlMode ⊕ DownloadControlMode

def round3300 (a : DownloadAnswers) (m : DownloadControlMode) : Round :=
  let m := m.lift fun b => b.usesP2P.check
    (b.hasRID && decide (b.bwtype ≠ .httpOnly) && decide (b.bwtype ≠ .vodP2POnly))
  if !a.isDownloadSpeedLimited && decide (m.bwtype = .httpPreferred) then
    .inr (m.lift .changeTo2200)
  else if m.bwtype = .httpMore then .inr (m.lift .changeTo2300)
  else if a.isDownloadSpeedLimited then .inl (m.lift .changeTo3200)
  else if m.isP2PConnectedTimerReset then
    if a.connectedPeersCount ≥ 1 then
      .inl ({ m with isP2PConnectedTimerReset := false }.lift .changeTo3200)
    else if a.now - m.waitingP2PConnectedTimerCounter ≥ 2 * 1000 then
      .inr ({ m with isP2PConnectedTimerReset := false }.lift .changeTo2300)
    else .inr m
  else .inr { m with waitingP2PConnectedTimerCounter := a.now, isP2PConnectedTimerReset := true }

def round3000 (a : DownloadAnswers) (m : DownloadControlMode) : Round :=
  let m := m.lift fun b => b.check (decide (b.bwtype ≠ .vodP2POnly))
  if m.bwtype = .httpOnly ∨ m.bwtype = .httpMore then .inr (m.lift .changeTo2000)
  else if m.p2pTarget.isSome then .inr (m.lift fun b => { b.setP2P true with p2p := .pausing })
  else if m.isTinyDragTimerReset then
    if a.now - m.waitingTinydragTimerCounter ≥ a.waitTimeForTinydragInDownloadMode * 1000 % 2 ^ 32
    then .inr { m.lift .changeTo2000 with isTinyDragTimerReset := false }
    else .inr m
  else .inr { m with waitingTinydragTimerCounter := a.now, isTinyDragTimerReset := true }

def round2000 (m : DownloadControlMode) : Round :=
  if m.p2pTarget.isSome then .inr (m.lift .changeTo2300) else .inr m

def round2300 (a : DownloadAnswers) (m : DownloadControlMode) : Round :=
  let m := m.lift .usesHttp
  if !isHTTPNormal a then
    if a.isPassive then .inr (m.lift .changeTo3200) else .inl (m.lift .changeTo2200)
  else
    let m := m.lift .usesP2P
    if a.connectedPeersCount ≥ 1 then
      if a.isPassive then .inr (m.lift .changeTo3200)
      else if m.bwtype ≠ .httpMore then .inl (m.lift .changeTo2200)
      else .inr m
    else .inr m

def round3200 (a : DownloadAnswers) (m : DownloadControlMode) : Round :=
  let m := m.lift .usesHttp
  if a.isDownloadSpeedLimited then .inr m
  else if m.bwtype = .httpPreferred then .inr (m.lift .changeTo2200)
  else if a.isPassive then
    let m := m.lift .usesP2P
    if a.connectedPeersCount = 0 then .inr (m.lift .changeTo2300) else .inr m
  else if m.isP2PTimerReset then
    let m := m.asksP2PBad
    let m := if !m.isP2PBad a false then { m with waitingP2PStableTimerCounter := a.now } else m
    if a.now - m.waitingP2PStableTimerCounter ≥ 10 * 1000 then
      .inl { m.lift .changeTo2200 with isP2PTimerReset := false }
    else .inr m
  else .inr { m with waitingP2PStableTimerCounter := a.now, isP2PTimerReset := true }

/-- The end of <2200>: P2P that was fast for 5 seconds does without HTTP. -/
def leave2200ForP2P (a : DownloadAnswers) (m : DownloadControlMode) : Round :=
  let m := m.asksP2PBad
  let m := if m.isP2PBad a true then { m with waitingP2PStableTimerCounter := a.now } else m
  if a.now - m.waitingP2PStableTimerCounter ≥ 5 * 1000 then
    .inl { m.lift .changeTo3200 with isP2PTimerReset := false }
  else .inr m

/-- <2200> while its timers run: HTTP that was dead for 2 seconds is left. -/
def round2200Timed (a : DownloadAnswers) (m : DownloadControlMode) : Round :=
  let m := if isHTTPNormal a then { m with waitingHttpStableTimerCounter := a.now } else m
  if a.now - m.waitingHttpStableTimerCounter ≥ 2 * 1000 then
    .inl { m.lift .changeTo3200 with isHttpTimerReset := false }
  else m.leave2200ForP2P a

def round2200 (a : DownloadAnswers) (m : DownloadControlMode) : Round :=
  let m := m.lift fun b => b.usesHttp.usesP2P
  if m.bwtype = .httpPreferred ∧ a.isDownloadSpeedLimited = false then .inr m
  else if m.bwtype = .httpMore then
    if isHTTPNormal a then .inr (m.lift .changeTo2300) else .inr m
  else if a.isDownloadSpeedLimited then .inr (m.lift .changeTo3200)
  else if a.connectedPeersCount = 0 then .inr (m.lift .changeTo2300)
  else if m.isHttpTimerReset then m.round2200Timed a
  else .inr { m with
    waitingP2PStableTimerCounter := a.now
    waitingHttpStableTimerCounter := a.now
    isHttpTimerReset := true }

/-- One round of the loop of `OnControlTimer`. `SetDownloadMode` is the same every time. -/
def round (a : DownloadAnswers) (m : DownloadControlMode) : Round :=
  if m.http = .none ∧ m.p2p = .none ∧ m.getHTTPControlTarget = none ∧ m.p2pTarget = none then .inr m
  else
    let m := if m.http = .none ∧ m.p2p = .none then m.lift .changeFrom0000 else m
    match m.http, m.p2p with
    | .none, .pausing =>
        .inr (m.lift fun b => (b.usesP2P.check (b.getHTTPControlTarget.isNone &&
          decide (b.bwtype ≠ .httpOnly))).changeTo0200)
    | .pausing, .pausing => m.round3300 a
    | .pausing, .none => m.round3000 a
    | .none, .downloading => .inr m
    | .downloading, .none => m.round2000
    | .downloading, .pausing => m.round2300 a
    | .pausing, .downloading => m.round3200 a
    | .downloading, .downloading => m.round2200 a
    | _, _ => .inr (m.lift (ControlMode.check false))

/-- The loop, whose rounds may get different answers; none if the rounds do not suffice. -/
def onControlTimer (answers : Nat → DownloadAnswers) (rounds : Nat) (m : DownloadControlMode) :
    Option DownloadControlMode :=
  if m.isPausedBySdk then some m
  else loop (fun x : Nat × DownloadControlMode => (round (answers x.1) x.2).map
    (fun m => (x.1 + 1, m)) id) rounds (0, m)

/-- The constructor and `Start` up to its `OnControlTimer`. -/
def create (bwtype : JumpBWType) (hasRID : Bool) (httpTargets : List Bool)
    (p2pTarget : Option Bool) : DownloadControlMode :=
  { ControlMode.create bwtype hasRID httpTargets p2pTarget with
    waitingTinydragTimerCounter := 0, isTinyDragTimerReset := false
    waitingP2PStableTimerCounter := 0, isP2PTimerReset := false
    waitingHttpStableTimerCounter := 0, isHttpTimerReset := false
    waitingP2PConnectedTimerCounter := 0, isP2PConnectedTimerReset := false }

end DownloadControlMode

/-- What happens to a control mode: its timer, the SDK, and a P2P downloader that appears
once the resource is known, pausing or not. -/
inductive ModeEvent (Answers : Type) where
  | timer (answers : Answers)
  | resumeOrPause (needPause : Bool)
  | p2pCreated (pausing : Bool)

namespace DownloadControlMode

inductive Step (m : DownloadControlMode) :
    ModeEvent (Nat → DownloadAnswers) → DownloadControlMode → Prop where
  | timer {answers : Nat → DownloadAnswers} {rounds : Nat} {m' : DownloadControlMode}
      (returns : m.onControlTimer answers rounds = some m') : Step m (.timer answers) m'
  | resumeOrPause (needPause : Bool) :
      Step m (.resumeOrPause needPause) (m.lift (ControlMode.resumeOrPause needPause))
  | p2pCreated (pausing : Bool) (new : m.p2pTarget = none) :
      Step m (.p2pCreated pausing) (m.lift fun b =>
        { b with hasRID := true, p2pTarget := some pausing })

end DownloadControlMode

namespace ControlMode

variable {m : ControlMode}

theorem check_eq {b : Bool} (h : b = true) : m.check b = m := by
  simp [check, h]

/-- The machine controls what is there, and nothing went wrong so far. -/
structure Sound (m : ControlMode) : Prop where
  agrees : m.Agrees 0
  asserted : m.asserted = true
  p2pKind : m.p2pTarget.isSome = true → m.bwtype ≠ .httpOnly
  known : m.p2pTarget.isSome = true → m.hasRID = true
  httpKind : m.httpTargets ≠ [] → m.bwtype ≠ .vodP2POnly
  prompt : m.bwtype = .httpMore → m.http = .pausing → m.p2p = .none → m.p2pTarget = none

theorem Sound.usesHttp (h : m.Sound) (hHttp : m.http ≠ .none) : m.usesHttp = m := by
  apply check_eq
  have hInside := h.agrees.http_isSome hHttp
  simpa [getHTTPControlTarget, List.head?_eq_getElem?] using hInside

theorem Sound.usesP2P (h : m.Sound) (hP2P : m.p2p ≠ .none) : m.usesP2P = m :=
  check_eq (h.agrees.p2p_isSome hP2P)

theorem Sound.nonempty (h : m.Sound) (hHttp : m.http ≠ .none) : m.httpTargets ≠ [] := by
  have hInside := h.agrees.http_isSome hHttp
  intro hNil
  simp [hNil] at hInside

/-- Orders to both targets, with the state that goes with them. -/
theorem Sound.orders (h : m.Sound) (hHttp : m.http ≠ .none) (hP2P : m.p2pTarget.isSome = true)
    (httpPausing p2pPausing : Bool) :
    ({ (m.setHttp 0 httpPausing).setP2P p2pPausing with
      http := if httpPausing then .pausing else .downloading
      p2p := if p2pPausing then .pausing else .downloading } : ControlMode).Sound where
  agrees := by
    have hSet := (h.agrees.setHttp hHttp httpPausing).setP2P hP2P p2pPausing
    exact ⟨hSet.http, hSet.p2p⟩
  asserted := by
    have hInside := h.agrees.http_isSome hHttp
    simp [setHttp, setP2P, check, h.asserted, hP2P, hInside]
  p2pKind _ := h.p2pKind hP2P
  known _ := h.known hP2P
  httpKind _ := h.httpKind (h.nonempty hHttp)
  prompt _ _ hNone := by cases p2pPausing <;> cases hNone

theorem Sound.changeTo2200 (h : m.Sound) (hHttp : m.http ≠ .none)
    (hP2P : m.p2pTarget.isSome = true) : m.changeTo2200.Sound :=
  h.orders hHttp hP2P false false

theorem Sound.changeTo2300 (h : m.Sound) (hHttp : m.http ≠ .none)
    (hP2P : m.p2pTarget.isSome = true) : m.changeTo2300.Sound :=
  h.orders hHttp hP2P false true

theorem Sound.changeTo3200 (h : m.Sound) (hHttp : m.http ≠ .none)
    (hP2P : m.p2pTarget.isSome = true) : m.changeTo3200.Sound :=
  h.orders hHttp hP2P true false

/-- An order to the P2P target alone. -/
theorem Sound.ordersP2P (h : m.Sound) (hP2P : m.p2pTarget.isSome = true) (pausing : Bool) :
    ({ m.setP2P pausing with
      p2p := if pausing then .pausing else .downloading } : ControlMode).Sound where
  agrees := h.agrees.setP2P hP2P pausing
  asserted := by simp [setP2P, check, h.asserted, hP2P]
  p2pKind _ := h.p2pKind hP2P
  known _ := h.known hP2P
  httpKind := h.httpKind
  prompt _ _ hNone := by cases pausing <;> cases hNone

theorem Sound.no_http (h : m.Sound) (hHttp : m.http = .none) : m.httpTargets = [] := by
  rcases h.agrees.http with ⟨-, hNil⟩ | ⟨hOther, -⟩ | ⟨hOther, -⟩
  · exact hNil
  · rw [hHttp] at hOther
    cases hOther
  · rw [hHttp] at hOther
    cases hOther

theorem Sound.changeTo0200 (h : m.Sound) (hHttp : m.http = .none)
    (hP2P : m.p2pTarget.isSome = true) : m.changeTo0200.Sound := by
  have hGone : m.getHTTPControlTarget.isNone = true := by
    simp [getHTTPControlTarget, h.no_http hHttp]
  unfold ControlMode.changeTo0200
  rw [check_eq hGone]
  exact h.ordersP2P hP2P false

/-- An order to the HTTP target alone; a P2P target that the machine does not control yet
lets it not be caught pausing where HTTP is preferred. -/
theorem Sound.ordersHttp (h : m.Sound) (hHttp : m.http ≠ .none) (pausing : Bool)
    (hPrompt : m.bwtype = .httpMore → m.p2p = .none → pausing = true → m.p2pTarget = none) :
    ({ m.setHttp 0 pausing with
      http := if pausing then .pausing else .downloading } : ControlMode).Sound where
  agrees := h.agrees.setHttp hHttp pausing
  asserted := by
    have hInside := h.agrees.http_isSome hHttp
    simp [setHttp, check, h.asserted, hInside]
  p2pKind := h.p2pKind
  known := h.known
  httpKind _ := h.httpKind (h.nonempty hHttp)
  prompt hMore hPausing hNone := by
    apply hPrompt hMore hNone
    cases pausing with
    | true => rfl
    | false => cases hPausing

theorem Sound.changeTo2000 (h : m.Sound) (hHttp : m.http ≠ .none) (hP2P : m.p2pTarget = none) :
    m.changeTo2000.Sound := by
  unfold ControlMode.changeTo2000
  rw [check_eq (by rw [hP2P, Option.isNone_none])]
  exact h.ordersHttp hHttp false fun _ _ _ => hP2P

theorem Sound.http_of_target (h : m.Sound) (hSome : m.getHTTPControlTarget.isSome = true) :
    m.http ≠ .none := by
  intro hNone
  simp [getHTTPControlTarget, h.no_http hNone] at hSome

theorem Sound.resumeOrPause (h : m.Sound) (needPause : Bool) :
    (m.resumeOrPause needPause).Sound := by
  have hFlag : ∀ {m' : ControlMode} (b : Bool), m'.Sound →
      ({ m' with isPausedBySdk := b } : ControlMode).Sound := by
    intro m' b h'
    exact ⟨⟨h'.agrees.http, h'.agrees.p2p⟩, h'.asserted, h'.p2pKind, h'.known,
      h'.httpKind, h'.prompt⟩
  unfold ControlMode.resumeOrPause
  cases needPause with
  | false => exact hFlag false h
  | true =>
      simp only [if_true]
      apply hFlag true
      by_cases hSome : m.p2pTarget.isSome = true
      · simp only [hSome, if_true]
        have hPaused : ({ m.setP2P true with p2p := .pausing } : ControlMode).Sound :=
          h.ordersP2P hSome true
        split
        · rename_i hHttp
          exact hPaused.ordersHttp (hPaused.http_of_target hHttp) true fun _ hNone _ => nomatch hNone
        · exact hPaused
      · simp only [hSome, if_false, Bool.false_eq_true]
        split
        · rename_i hHttp
          have hNone : m.p2pTarget = none := by simpa using hSome
          exact h.ordersHttp (h.http_of_target hHttp) true fun _ _ _ => hNone
        · exact h

end ControlMode

namespace DownloadControlMode

variable {m m' : DownloadControlMode} {a : DownloadAnswers}

/-- What bounds the rounds: a machine that goes from one download to the other has used up a
timer that ran. -/
def rank (m : DownloadControlMode) : Nat :=
  match m.http, m.p2p with
  | .pausing, .pausing | .downloading, .pausing => 3
  | .pausing, .downloading => if m.isP2PTimerReset then if m.isHttpTimerReset then 2 else 1 else 0
  | .downloading, .downloading =>
      if m.isHttpTimerReset then if m.isP2PTimerReset then 2 else 1 else 0
  | _, _ => 0

/-- A round keeps the machine sound, and one that asks for another lowers the rank. -/
def Keeps (m : DownloadControlMode) : Round → Prop
  | .inl m' => m'.Sound ∧ m'.rank < m.rank
  | .inr m' => m'.Sound

theorem lift_eq {f : ControlMode → ControlMode} (h : f m.toControlMode = m.toControlMode) :
    m.lift f = m := by
  unfold lift
  rw [h]

theorem asksP2PBad_eq (h : m.Sound) (hP2P : m.p2p = .downloading) : m.asksP2PBad = m := by
  have hNot : m.p2p ≠ .none := by simp [hP2P]
  have hCheck : m.usesP2P.check (decide (m.p2p = .downloading)) = m.toControlMode := by
    rw [h.usesP2P hNot, ControlMode.check_eq (by simp [hP2P])]
  exact lift_eq hCheck

theorem round3200_keeps (h : m.Sound) (hHttp : m.http = .pausing) (hP2P : m.p2p = .downloading) :
    Keeps m (m.round3200 a) := by
  have hHttp' : m.http ≠ .none := by simp [hHttp]
  have hP2P' : m.p2p ≠ .none := by simp [hP2P]
  have hSome := h.agrees.p2p_isSome hP2P'
  have hUses : m.lift .usesHttp = m := lift_eq (h.usesHttp hHttp')
  have hUses' : m.lift .usesP2P = m := lift_eq (h.usesP2P hP2P')
  unfold round3200
  simp only [hUses, hUses', asksP2PBad_eq h hP2P]
  split
  · exact h
  split
  · exact h.changeTo2200 hHttp' hSome
  split
  · split
    · exact h.changeTo2300 hHttp' hSome
    · exact h
  split
  · rename_i hReset
    generalize hNew : (if !m.isP2PBad a false then
      { m with waitingP2PStableTimerCounter := a.now } else m) = m'
    have hBase : m'.toControlMode = m.toControlMode := by
      subst hNew
      split <;> rfl
    have hFlags : m'.isHttpTimerReset = m.isHttpTimerReset := by
      subst hNew
      split <;> rfl
    split
    · refine ⟨?_, ?_⟩
      · change (m'.toControlMode.changeTo2200).Sound
        rw [hBase]
        exact h.changeTo2200 hHttp' hSome
      · simp only [rank, lift, ControlMode.changeTo2200, hHttp, hP2P, hReset, hFlags]
        cases m.isHttpTimerReset <;> simp
    · change m'.toControlMode.Sound
      rw [hBase]
      exact h
  · exact h

/-- What a round of <2200> keeps for whatever has the same state and timers. -/
theorem leave2200_keeps (h : m.Sound) (hHttp : m.http = .downloading) (hP2P : m.p2p = .downloading)
    (hReset : m.isHttpTimerReset = true) (hBase : m'.toControlMode = m.toControlMode)
    (hLess : m'.isHttpTimerReset = false ∨ m'.isP2PTimerReset = false)
    (hSame : m'.isP2PTimerReset = true → m.isP2PTimerReset = true) :
    Keeps m (.inl (m'.lift .changeTo3200)) := by
  have hHttp' : m.http ≠ .none := by simp [hHttp]
  have hSome := h.agrees.p2p_isSome (by simp [hP2P] : m.p2p ≠ .none)
  refine ⟨?_, ?_⟩
  · change (m'.toControlMode.changeTo3200).Sound
    rw [hBase]
    exact h.changeTo3200 hHttp' hSome
  · have hRank : m.rank = if m.isP2PTimerReset then 2 else 1 := by
      simp [rank, hHttp, hP2P, hReset]
    have hRank' : (m'.lift .changeTo3200).rank =
        if m'.isP2PTimerReset then if m'.isHttpTimerReset then 2 else 1 else 0 := rfl
    rw [hRank, hRank']
    cases hP : m'.isP2PTimerReset with
    | false => cases m.isP2PTimerReset <;> simp
    | true =>
        have hHttpReset : m'.isHttpTimerReset = false := by simpa [hP] using hLess
        simp [hHttpReset, hSame hP]

theorem leave2200ForP2P_keeps (h : m.Sound) (hHttp : m.http = .downloading)
    (hP2P : m.p2p = .downloading) (hReset : m.isHttpTimerReset = true) :
    Keeps m (m.leave2200ForP2P a) := by
  unfold leave2200ForP2P
  simp only [asksP2PBad_eq h hP2P]
  generalize hNew : (if m.isP2PBad a true then
    { m with waitingP2PStableTimerCounter := a.now } else m) = m'
  have hBase : m'.toControlMode = m.toControlMode := by
    subst hNew
    split <;> rfl
  split
  · exact @leave2200_keeps _ { m' with isP2PTimerReset := false } h hHttp hP2P hReset hBase
      (.inr rfl) nofun
  · change m'.toControlMode.Sound
    rw [hBase]
    exact h

theorem round2200Timed_keeps (h : m.Sound) (hHttp : m.http = .downloading)
    (hP2P : m.p2p = .downloading) (hReset : m.isHttpTimerReset = true) :
    Keeps m (m.round2200Timed a) := by
  unfold round2200Timed
  simp only
  by_cases hNormal : isHTTPNormal a = true
  · simp only [hNormal, if_true]
    split
    · exact @leave2200_keeps _ { m with waitingHttpStableTimerCounter := a.now
                                        isHttpTimerReset := false }
        h hHttp hP2P hReset rfl (.inl rfl) id
    · exact leave2200ForP2P_keeps (m := { m with waitingHttpStableTimerCounter := a.now })
        h hHttp hP2P hReset
  · simp only [hNormal, if_false, Bool.false_eq_true]
    split
    · exact @leave2200_keeps _ { m with isHttpTimerReset := false }
        h hHttp hP2P hReset rfl (.inl rfl) id
    · exact leave2200ForP2P_keeps h hHttp hP2P hReset

theorem round2200_keeps (h : m.Sound) (hHttp : m.http = .downloading)
    (hP2P : m.p2p = .downloading) : Keeps m (m.round2200 a) := by
  have hHttp' : m.http ≠ .none := by simp [hHttp]
  have hP2P' : m.p2p ≠ .none := by simp [hP2P]
  have hSome := h.agrees.p2p_isSome hP2P'
  have hUses : (m.lift fun b => b.usesHttp.usesP2P) = m := by
    apply lift_eq
    rw [h.usesHttp hHttp', h.usesP2P hP2P']
  unfold round2200
  simp only [hUses]
  split
  · exact h
  split
  · split
    · exact h.changeTo2300 hHttp' hSome
    · exact h
  split
  · exact h.changeTo3200 hHttp' hSome
  split
  · exact h.changeTo2300 hHttp' hSome
  split
  · rename_i hReset
    exact round2200Timed_keeps h hHttp hP2P hReset
  · exact h

theorem rank_le (m : DownloadControlMode) (h : m.http ≠ .pausing ∧ m.http ≠ .downloading ∨
    m.p2p ≠ .pausing) : m.rank ≤ 2 := by
  unfold rank
  split
  · simp_all
  · simp_all
  · split_ifs <;> omega
  · split_ifs <;> omega
  · omega

theorem round3300_keeps (h : m.Sound) (hHttp : m.http = .pausing)
    (hP2P : m.p2p = .pausing) : Keeps m (m.round3300 a) := by
  have hHttp' : m.http ≠ .none := by simp [hHttp]
  have hP2P' : m.p2p ≠ .none := by simp [hP2P]
  have hSome := h.agrees.p2p_isSome hP2P'
  have hOnly := h.p2pKind hSome
  have hVod := h.httpKind (h.nonempty hHttp')
  have hUses : (m.lift fun b => b.usesP2P.check
      (b.hasRID && decide (b.bwtype ≠ .httpOnly) && decide (b.bwtype ≠ .vodP2POnly))) = m := by
    apply lift_eq
    rw [h.usesP2P hP2P']
    exact ControlMode.check_eq (by simp [h.known hSome, hOnly, hVod])
  have hRank : m.rank = 3 := by simp [rank, hHttp, hP2P]
  have hGoes : ∀ m' : DownloadControlMode, m'.toControlMode = m.toControlMode.changeTo3200 →
      m'.Sound ∧ m'.rank < m.rank := by
    intro m' hBase
    have hP2P'' : m'.p2p = .downloading := by
      rw [hBase]
      rfl
    refine ⟨?_, ?_⟩
    · rw [hBase]
      exact h.changeTo3200 hHttp' hSome
    · have hLe := rank_le m' (.inr (by simp [hP2P'']))
      omega
  unfold round3300
  simp only [hUses]
  split
  · exact h.changeTo2200 hHttp' hSome
  split
  · exact h.changeTo2300 hHttp' hSome
  split
  · exact hGoes _ rfl
  split
  · split
    · exact hGoes _ rfl
    split
    · exact h.changeTo2300 hHttp' hSome
    · exact h
  · exact h

theorem round2300_keeps (h : m.Sound) (hHttp : m.http = .downloading) (hP2P : m.p2p = .pausing) :
    Keeps m (m.round2300 a) := by
  have hHttp' : m.http ≠ .none := by simp [hHttp]
  have hP2P' : m.p2p ≠ .none := by simp [hP2P]
  have hSome := h.agrees.p2p_isSome hP2P'
  have hUses : m.lift .usesHttp = m := lift_eq (h.usesHttp hHttp')
  have hUses' : m.lift .usesP2P = m := lift_eq (h.usesP2P hP2P')
  have hRank : m.rank = 3 := by simp [rank, hHttp, hP2P]
  have hGoes : (m.lift .changeTo2200).Sound ∧ (m.lift .changeTo2200).rank < m.rank := by
    refine ⟨h.changeTo2200 hHttp' hSome, ?_⟩
    have hLe := rank_le (m.lift .changeTo2200) (.inr nofun)
    omega
  unfold round2300
  simp only [hUses, hUses']
  split
  · split
    · exact h.changeTo3200 hHttp' hSome
    · exact hGoes
  split
  · split
    · exact h.changeTo3200 hHttp' hSome
    split
    · exact hGoes
    · exact h
  · exact h

theorem round3000_keeps (h : m.Sound) (hHttp : m.http = .pausing) (hP2P : m.p2p = .none) :
    Keeps m (m.round3000 a) := by
  have hHttp' : m.http ≠ .none := by simp [hHttp]
  have hVod := h.httpKind (h.nonempty hHttp')
  have hUses : (m.lift fun b => b.check (decide (b.bwtype ≠ .vodP2POnly))) = m :=
    lift_eq (ControlMode.check_eq (by simpa using hVod))
  unfold round3000
  simp only [hUses]
  split
  · rename_i hType
    apply h.changeTo2000 hHttp'
    rcases hType with hOnly | hMore
    · by_contra hNot
      exact h.p2pKind (Option.isSome_iff_ne_none.mpr hNot) hOnly
    · exact h.prompt hMore hHttp hP2P
  split
  · rename_i hSome
    exact h.ordersP2P hSome true
  rename_i hGone
  have hNone : m.p2pTarget = none := by simpa using hGone
  split
  · split
    · exact h.changeTo2000 hHttp' hNone
    · exact h
  · exact h

theorem leave0300_sound {b : ControlMode} (h : b.Sound) (hHttp : b.http = .none)
    (hP2P : b.p2p = .pausing) :
    ((b.usesP2P.check (b.usesP2P.getHTTPControlTarget.isNone &&
      decide (b.usesP2P.bwtype ≠ .httpOnly))).changeTo0200).Sound := by
  have hP2P' : b.p2p ≠ .none := by simp [hP2P]
  have hSome := h.agrees.p2p_isSome hP2P'
  rw [h.usesP2P hP2P', ControlMode.check_eq]
  · exact h.changeTo0200 hHttp hSome
  · simp [ControlMode.getHTTPControlTarget, h.no_http hHttp, h.p2pKind hSome]

/-- One round: sound machines stay sound, and no state is left out. -/
theorem round_keeps (a : DownloadAnswers) (h : m.Sound) : Keeps m (m.round a) := by
  unfold round
  split
  · exact h
  rename_i hThere
  by_cases h0000 : m.http = .none ∧ m.p2p = .none
  · have hNil := h.no_http h0000.1
    have hSome : m.p2pTarget.isSome = true := by
      cases hTarget : m.p2pTarget with
      | none => simp [h0000, hTarget, hNil, ControlMode.getHTTPControlTarget] at hThere
      | some b => rfl
    have hFrom : m.toControlMode.changeFrom0000 =
        { m.toControlMode.setP2P true with p2p := .pausing } := by
      simp [ControlMode.changeFrom0000, ControlMode.getHTTPControlTarget, hNil, hSome]
    have hPaused : (m.toControlMode.changeFrom0000).Sound := by
      rw [hFrom]
      exact h.ordersP2P hSome true
    have hHttp' : (m.lift .changeFrom0000).http = .none := by
      simp [lift, hFrom, ControlMode.setP2P, ControlMode.check, h0000]
    have hP2P' : (m.lift .changeFrom0000).p2p = .pausing := by
      simp [lift, hFrom]
    rw [if_pos h0000]
    simp only [hHttp', hP2P']
    exact leave0300_sound hPaused hHttp' hP2P'
  · rw [if_neg h0000]
    rcases h.agrees.http with ⟨hHttp, -⟩ | ⟨hHttp, -⟩ | ⟨hHttp, -⟩ <;>
      rcases h.agrees.p2p with hP2P | ⟨hP2P, -⟩ | ⟨hP2P, -⟩ <;> simp only [hHttp, hP2P]
    · exact absurd ⟨hHttp, hP2P⟩ h0000
    · exact h
    · exact leave0300_sound h hHttp hP2P
    · unfold round2000
      split
      · rename_i hSome
        exact h.changeTo2300 (by simp [hHttp]) hSome
      · exact h
    · exact round2200_keeps h hHttp hP2P
    · exact round2300_keeps h hHttp hP2P
    · exact round3000_keeps h hHttp hP2P
    · exact round3200_keeps h hHttp hP2P
    · exact round3300_keeps h hHttp hP2P

theorem rank_le_three (m : DownloadControlMode) : m.rank ≤ 3 := by
  unfold rank
  split
  · omega
  · omega
  · split_ifs <;> omega
  · split_ifs <;> omega
  · omega

/-- Four rounds suffice for every timer, whatever the rounds are answered. -/
theorem onControlTimer_returns (h : m.Sound) (answers : Nat → DownloadAnswers) :
    ∃ m', (∀ rounds, 4 ≤ rounds → m.onControlTimer answers rounds = some m') ∧ m'.Sound := by
  unfold onControlTimer
  split
  · exact ⟨m, fun _ _ => rfl, h⟩
  let step := fun x : Nat × DownloadControlMode =>
    (round (answers x.1) x.2).map (fun m => (x.1 + 1, m)) id
  have hLoop : ∃ m' : DownloadControlMode,
      (∀ rounds, m.rank < rounds → loop step rounds (0, m) = some m') ∧ m'.Sound := by
    refine @loop_of_rank _ _ step (0, m) (fun x => x.2.Sound) (fun m' => m'.Sound)
      (fun x => x.2.rank) ?_ ?_ h
    · rintro ⟨i, x⟩ y hSound hRound
      have hKeeps := round_keeps (answers i) hSound
      simp only [step] at hRound
      cases hResult : round (answers i) x with
      | inl x' =>
          rw [hResult] at hKeeps hRound
          cases hRound
          exact hKeeps
      | inr x' =>
          rw [hResult] at hRound
          cases hRound
    · rintro ⟨i, x⟩ r hSound hRound
      have hKeeps := round_keeps (answers i) hSound
      simp only [step] at hRound
      cases hResult : round (answers i) x with
      | inl x' =>
          rw [hResult] at hRound
          cases hRound
      | inr x' =>
          rw [hResult] at hKeeps hRound
          cases hRound
          exact hKeeps
  obtain ⟨m', hReturns, hSound⟩ := hLoop
  have hLe := rank_le_three m
  exact ⟨m', fun rounds hEnough => hReturns rounds (by omega), hSound⟩

theorem onControlTimer_unique {answers : Nat → DownloadAnswers} {n k : Nat}
    {m'' : DownloadControlMode} (h : m.onControlTimer answers n = some m')
    (h' : m.onControlTimer answers k = some m'') : m' = m'' := by
  unfold onControlTimer at h h'
  split at h
  · rename_i hPaused
    rw [if_pos hPaused] at h'
    exact Option.some.inj (h.symm.trans h')
  · rename_i hRuns
    rw [if_neg hRuns] at h'
    exact loop_unique h h'

/-- No P2P downloader appears for pure HTTP, and none while a machine that is to use much HTTP
has it paused. `OnNoticeChangeResource` of the driver looks at neither. -/
def admits (m : DownloadControlMode) : ModeEvent (Nat → DownloadAnswers) → Bool
  | .timer _ | .resumeOrPause _ => true
  | .p2pCreated _ =>
      decide (m.bwtype ≠ .httpOnly ∧ ¬(m.bwtype = .httpMore ∧ m.http = .pausing))

theorem Step.sound {e : ModeEvent (Nat → DownloadAnswers)} (hStep : m.Step e m') (h : m.Sound)
    (hMet : m.admits e = true) : m'.Sound := by
  cases hStep with
  | @timer answers rounds m' hReturns =>
      obtain ⟨m'', hEnough, hSound⟩ := onControlTimer_returns h answers
      rw [onControlTimer_unique hReturns (hEnough 4 (Nat.le_refl 4))]
      exact hSound
  | resumeOrPause needPause => exact h.resumeOrPause needPause
  | p2pCreated pausing hNew =>
      have hNone : m.p2p = .none := by
        rcases h.agrees.p2p with hNone | ⟨-, hSome⟩ | ⟨-, hSome⟩
        · exact hNone
        · rw [hNew] at hSome
          cases hSome
        · rw [hNew] at hSome
          cases hSome
      exact
        { agrees := ⟨h.agrees.http, .inl hNone⟩
          asserted := h.asserted
          p2pKind := fun _ => (of_decide_eq_true hMet).1
          known := fun _ => rfl
          httpKind := h.httpKind
          prompt := fun hMore hPausing _ => 
            absurd ⟨hMore, hPausing⟩ (of_decide_eq_true hMet).2 }

/-- The steps, with as many rounds as a timer needs. -/
def next (m : DownloadControlMode) : ModeEvent (Nat → DownloadAnswers) → Option DownloadControlMode
  | .timer answers => m.onControlTimer answers 4
  | .resumeOrPause needPause => some (m.lift (ControlMode.resumeOrPause needPause))
  | .p2pCreated pausing =>
      if m.p2pTarget = none then
        some (m.lift fun b => { b with hasRID := true, p2pTarget := some pausing })
      else none

theorem Step.of_next {e : ModeEvent (Nat → DownloadAnswers)} (h : m.next e = some m') :
    m.Step e m' := by
  cases e with
  | timer answers => exact .timer h
  | resumeOrPause needPause =>
      cases h
      exact .resumeOrPause needPause
  | p2pCreated pausing =>
      simp only [next] at h
      split at h
      · rename_i hNew
        cases h
        exact .p2pCreated pausing hNew
      · cases h

end DownloadControlMode

end Download
