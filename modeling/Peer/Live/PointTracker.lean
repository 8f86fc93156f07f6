import Peer.Live.Instance

/-! The live point: the newest block of a channel, taken on in real time from the last position
that was told. -/
namespace Live

open Basis Storage

/-- `LiveSubPieceInfo::operator <`: by block, then by subpiece. -/
def LivePosition.before (a b : LivePosition) : Bool :=
  a.blockId < b.blockId ∨ (a.blockId = b.blockId ∧ a.subPieceIndex < b.subPieceIndex)

/-- A running tick counter is the tick at which it was started. -/
structure LivePointTracker where
  liveInterval : Nat
  livePointStart : LivePosition
  ticksSinceLivePointLastSet : Option Nat

namespace LivePointTracker

/-- The constructor. -/
def create (liveInterval : Nat) : LivePointTracker :=
  ⟨if liveInterval = 0 then 1 else liveInterval, ⟨0, 0⟩, none⟩

variable (s : LivePointTracker)

def getCurrentLivePoint (adjustmentNeeded : Bool) (now : Nat) : LivePosition :=
  match s.ticksSinceLivePointLastSet with
  | none => ⟨s.livePointStart.blockId, s.livePointStart.subPieceIndex⟩
  | some start =>
    let elapsed := u32 (now - start)
    let elapsed := if adjustmentNeeded then u32 (elapsed + 500 * s.liveInterval) else elapsed
    let incrementalBlocks := elapsed / (s.liveInterval * 1000)
    ⟨u32 (s.livePointStart.blockId + u32 (s.liveInterval * incrementalBlocks)),
      s.livePointStart.subPieceIndex⟩

def setCurrentLivePoint (livePoint : LivePosition) (now : Nat) : LivePointTracker :=
  if (s.getCurrentLivePoint false now).before livePoint then
    { s with ticksSinceLivePointLastSet := some now, livePointStart := livePoint }
  else s

/-- The block id that is reported. -/
def report (now : Nat) : Nat := (s.getCurrentLivePoint true now).blockId

end LivePointTracker

/-- A moment at which the live point is asked for, and set before if a block id is told: the
position of the first subpiece of that block. -/
structure LivePointCall where
  now : Nat
  blockId : Option Nat

namespace LivePointTracker

variable (s : LivePointTracker)

def step (call : LivePointCall) : LivePointTracker :=
  match call.blockId with
  | none => s
  | some blockId => s.setCurrentLivePoint ⟨blockId, 0⟩ call.now

def after (calls : List LivePointCall) : LivePointTracker := calls.foldl step s

/-- What is reported at the moments of the calls, before and after each. -/
def reports (s : LivePointTracker) : List LivePointCall → List Nat
  | [] => []
  | call :: calls =>
    s.report call.now :: (s.step call).report call.now :: reports (s.step call) calls

theorem after_concat (calls : List LivePointCall) (call : LivePointCall) :
    s.after (calls ++ [call]) = (s.after calls).step call := by
  unfold after
  rw [List.foldl_append, List.foldl_cons, List.foldl_nil]

theorem reports_concat (calls : List LivePointCall) (call : LivePointCall) :
    s.reports (calls ++ [call]) = s.reports calls ++
      [(s.after calls).report call.now, (s.after (calls ++ [call])).report call.now] := by
  induction calls generalizing s with
  | nil => rfl
  | cons first calls ih =>
      rw [List.cons_append, reports, reports, ih (s.step first)]
      rfl

/-- The elapsed time of the tracker and the half interval that is added to it. -/
def TimeFits (s : LivePointTracker) (now : Nat) : Prop :=
  ∀ start, s.ticksSinceLivePointLastSet = some start → now - start < 2 ^ 32 - 500 * s.liveInterval

/-- The extrapolated block id is a block id. -/
def PointFits (s : LivePointTracker) (now : Nat) : Prop :=
  ∀ start, s.ticksSinceLivePointLastSet = some start → s.livePointStart.blockId +
    s.liveInterval * ((now - start + 500 * s.liveInterval) / (s.liveInterval * 1000)) < 2 ^ 32

end LivePointTracker

/-- The block ids that were told, with the times. -/
def toldPoints (calls : List LivePointCall) : List (Nat × Nat) :=
  calls.filterMap fun call => call.blockId.map fun blockId => (blockId, call.now)

/-- What callers do: they tell block ids of one grid, and time does not go back. -/
structure OnGrid (liveInterval offset : Nat) (calls : List LivePointCall) : Prop where
  told : ∀ point ∈ toldPoints calls, point.1 < 2 ^ 32 ∧ point.1 ≡ offset [MOD liveInterval]
  times : calls.Pairwise fun a b => a.now ≤ b.now

/-- A reported block id, once a point was told: on the grid, not below a told point, and at most
an interval above the extrapolation of one. -/
structure ReportRight (liveInterval offset : Nat) (told : List (Nat × Nat)) (now blockId : Nat) :
    Prop where
  onGrid : told ≠ [] → blockId ≡ offset [MOD liveInterval]
  above : ∀ point ∈ told, point.1 ≤ blockId
  near : told ≠ [] → ∃ point ∈ told,
    1000 * blockId ≤ 1000 * point.1 + (now - point.2) + 1000 * liveInterval

end Live
