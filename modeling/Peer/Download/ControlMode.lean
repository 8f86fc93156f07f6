import Peer.Basis.Run
import Peer.Basis.Loop
import Mathlib.Data.List.Basic
import Mathlib.Algebra.GroupWithZero.Nat

/-! What the control modes of `SwitchController` share: the state of the machine, the
downloaders of the driver, and the pause of the SDK. -/
namespace Download

inductive JumpBWType where
  | normal
  | httpMore
  | httpOnly
  | httpPreferred
  | p2pMore
  | vodP2POnly
  | p2pIncreaseConnect
  deriving DecidableEq

inductive HttpState where
  | none
  | stopped
  | downloading
  | pausing
  deriving DecidableEq

inductive P2PState where
  | none
  | stopped
  | downloading
  | pausing
  deriving DecidableEq

inductive TimerUsingState where
  | none
  | x
  | y
  | z
  | h
  | t
  deriving DecidableEq

inductive TimerState where
  | none
  | started
  | stopped
  deriving DecidableEq

/-- A control mode and the targets of its driver, each given by whether it pauses: the HTTP
downloaders in the order of `url_indexer_`, and the P2P downloader. `hasRID` is the driver's
as well: the resource is known. The last field is not of
the source: whether every `assert` held so far, and every target that was used was there. -/
structure ControlMode where
  bwtype : JumpBWType
  http : HttpState
  p2p : P2PState
  timerUsing : TimerUsingState
  timer : TimerState
  isPausedBySdk : Bool
  hasRID : Bool
  httpTargets : List Bool
  p2pTarget : Option Bool
  asserted : Bool
  deriving DecidableEq

namespace ControlMode

def check (b : Bool) (m : ControlMode) : ControlMode :=
  { m with asserted := m.asserted && b }

/-- `DownloadDriver::GetHTTPControlTarget`: the downloader of the first URL. -/
def getHTTPControlTarget (m : ControlMode) : Option Bool := m.httpTargets.head?

/-- `Pause` or `Resume` of the HTTP downloader in place `i`. -/
def setHttp (i : Nat) (pausing : Bool) (m : ControlMode) : ControlMode :=
  { (m.check (decide (i < m.httpTargets.length))) with httpTargets := m.httpTargets.set i pausing }

/-- `Pause` or `Resume` of the P2P downloader. -/
def setP2P (pausing : Bool) (m : ControlMode) : ControlMode :=
  { (m.check m.p2pTarget.isSome) with p2pTarget := m.p2pTarget.map fun _ => pausing }

/-- `ResumeOrPause`. Whatever HTTP downloader the mode uses, it is the first one that is
paused here. -/
def resumeOrPause (needPause : Bool) (m : ControlMode) : ControlMode :=
  if needPause then
    let m := if m.p2pTarget.isSome then { m.setP2P true with p2p := .pausing } else m
    let m := if m.getHTTPControlTarget.isSome then { m.setHttp 0 true with http := .pausing } else m
    { m with isPausedBySdk := true }
  else { m with isPausedBySdk := false }

/-- The start of every mode: the targets pause, and the state is what they are. -/
def create (bwtype : JumpBWType) (hasRID : Bool) (httpTargets : List Bool)
    (p2pTarget : Option Bool) : ControlMode :=
  { bwtype
    hasRID
    http := if httpTargets.isEmpty then .none else .pausing
    p2p := if p2pTarget.isSome then .pausing else .none
    timerUsing := .none
    timer := .none
    isPausedBySdk := false
    httpTargets := httpTargets.set 0 true
    p2pTarget := p2pTarget.map fun _ => true
    asserted := true }

/-- The state against the target `i` of HTTP and the target of P2P: what the machine
controls is there, and pauses exactly where the state says so. -/
structure Agrees (i : Nat) (m : ControlMode) : Prop where
  http : m.http = .none ∧ m.httpTargets = [] ∨
    m.http = .downloading ∧ m.httpTargets[i]? = some false ∨
    m.http = .pausing ∧ m.httpTargets[i]? = some true
  p2p : m.p2p = .none ∨ m.p2p = .downloading ∧ m.p2pTarget = some false ∨
    m.p2p = .pausing ∧ m.p2pTarget = some true

variable {m : ControlMode} {i : Nat}

theorem Agrees.http_isSome (h : m.Agrees i) (hNot : m.http ≠ .none) : i < m.httpTargets.length := by
  rcases h.http with ⟨hNone, -⟩ | ⟨-, hAt⟩ | ⟨-, hAt⟩
  · exact absurd hNone hNot
  · exact (List.getElem?_eq_some_iff.mp hAt).1
  · exact (List.getElem?_eq_some_iff.mp hAt).1

theorem Agrees.p2p_isSome (h : m.Agrees i) (hNot : m.p2p ≠ .none) : m.p2pTarget.isSome = true := by
  rcases h.p2p with hNone | ⟨-, hAt⟩ | ⟨-, hAt⟩
  · exact absurd hNone hNot
  · rw [hAt, Option.isSome_some]
  · rw [hAt, Option.isSome_some]

/-- The state that goes with the order for HTTP. -/
theorem Agrees.setHttp (h : m.Agrees i) (hNot : m.http ≠ .none) (pausing : Bool) :
    ({ m.setHttp i pausing with
      http := if pausing then .pausing else .downloading } : ControlMode).Agrees i where
  http := by
    have hInside := h.http_isSome hNot
    cases pausing <;> simp [ControlMode.setHttp, check, hInside]
  p2p := h.p2p

/-- The state that goes with the order for P2P. -/
theorem Agrees.setP2P (h : m.Agrees i) (hSome : m.p2pTarget.isSome = true) (pausing : Bool) :
    ({ m.setP2P pausing with
      p2p := if pausing then .pausing else .downloading } : ControlMode).Agrees i where
  http := h.http
  p2p := by
    obtain ⟨b, hb⟩ := Option.isSome_iff_exists.mp hSome
    cases pausing <;> simp [ControlMode.setP2P, check, hb]

/-- The pause of the SDK keeps the state in agreement where the first downloader is the one
that is used. -/
theorem Agrees.resumeOrPause (h : m.Agrees 0) (needPause : Bool) :
    (m.resumeOrPause needPause).Agrees 0 := by
  unfold ControlMode.resumeOrPause
  cases needPause with
  | false => exact ⟨h.http, h.p2p⟩
  | true =>
      simp only [if_true]
      have hP2P : (if m.p2pTarget.isSome then ({ m.setP2P true with p2p := .pausing } : ControlMode)
          else m).Agrees 0 := by
        split
        · rename_i hSome
          exact h.setP2P hSome true
        · exact h
      generalize (if m.p2pTarget.isSome then ({ m.setP2P true with p2p := .pausing } : ControlMode)
        else m) = m' at hP2P
      split
      · rename_i hSome
        have hNot : m'.http ≠ .none := by
          intro hNone
          rcases hP2P.http with ⟨-, hNil⟩ | ⟨hOther, -⟩ | ⟨hOther, -⟩
          · simp [getHTTPControlTarget, hNil] at hSome
          · rw [hNone] at hOther
            cases hOther
          · rw [hNone] at hOther
            cases hOther
        have hPaused := hP2P.setHttp hNot true
        exact ⟨hPaused.http, hPaused.p2p⟩
      · exact ⟨hP2P.http, hP2P.p2p⟩

end ControlMode

end Download
