import Mathlib.Data.Finset.Basic
import Peer.Live.BlockRequests

/-! The list of subpieces that a P2P downloader's assigner gives to its peers: it goes through the
block tasks, and asks the stream for blocks until there is enough to do. -/
namespace Live.Requests

open Basis Storage

/-- What `LiveAssigner` reads besides its tasks and the cache: whether it is urgent, the sizes of
blocks in `live_subpiece_count_manager_` and the outstanding requests of a subpiece. -/
structure Readings where
  urgent : Bool
  subPieceCount : Nat → Option Nat
  requestingCount : LivePosition → Nat

structure AssignList where
  subpieceAssignDeque : List LivePosition
  subpieceReassignSet : Finset LivePosition

namespace Readings

variable (r : Readings) (c : LiveCacheManager)

/-- The subpieces of a block of known size that are not in the cache, in the order of the loops in
`CountMissingSubPieces` and `AssignForMissingSubPieces`. -/
def missingSubPieces (blockId : Nat) : List LivePosition :=
  match r.subPieceCount blockId with
  | none => []
  | some count =>
    ((List.range count).map (LivePosition.mk blockId)).filter fun x => !c.hasSubPiece x

def countMissingSubPieces (blockId : Nat) : Nat := (r.missingSubPieces c blockId).length

/-- `assign` in `AssignForMissingSubPieces`. -/
def mayAssign (ignoreRequestingSubpieces : Bool) (x : LivePosition) : Bool :=
  r.requestingCount x == 0 || ignoreRequestingSubpieces && decide (r.requestingCount x < 3)

def assignForMissingSubPieces (list : AssignList) (blockId : Nat)
    (ignoreRequestingSubpieces : Bool) : AssignList × Nat :=
  let assigned := (r.missingSubPieces c blockId).filter (r.mayAssign ignoreRequestingSubpieces)
  (⟨list.subpieceAssignDeque ++ assigned,
    if ignoreRequestingSubpieces then list.subpieceReassignSet ∪ assigned.toFinset
    else list.subpieceReassignSet⟩, assigned.length)

/-- The first block is assigned again because it is urgent. -/
def firstUrgent (index blockId : Nat) : Bool :=
  r.urgent && index == 0 && decide (r.countMissingSubPieces c blockId < 32)

/-- `reassign`. -/
def reassigns (firstBlockUrgentReassign : Bool) (index blockId : Nat) : Bool :=
  let missingSubpieces := r.countMissingSubPieces c blockId
  r.firstUrgent c index blockId ||
    r.urgent && firstBlockUrgentReassign && index == 1 && decide (missingSubpieces < 16) ||
    index == 0 && decide (missingSubpieces ≤ 2) || index == 1 && decide (missingSubpieces ≤ 1)

/-- The loop of `CaclSubPieceAssignMap` from a task on. -/
def assignTasks (blockTaskIndex : Nat) (firstBlockUrgentReassign : Bool) :
    List Nat → AssignList × Nat → AssignList × Nat
  | [], result => result
  | blockId :: tasks, (list, totalUniqueSubpieceCount) =>
    let (list, fresh) := r.assignForMissingSubPieces c list blockId false
    let list :=
      if r.reassigns c firstBlockUrgentReassign blockTaskIndex blockId then
        (r.assignForMissingSubPieces c list blockId true).1
      else list
    assignTasks (blockTaskIndex + 1)
      (firstBlockUrgentReassign || r.firstUrgent c blockTaskIndex blockId) tasks
      (list, u32 (totalUniqueSubpieceCount + fresh))

end Readings

namespace LiveStream

variable (s : LiveStream) (r : Readings) (g : Nat)

/-- `block_tasks_` of a P2P downloader's assigner in the order of the map. -/
def tasksInOrder : List Nat := (s.downloaders g).blockTasks.mergeSort

def caclSubPieceAssignMap : AssignList × Nat :=
  r.assignTasks s.cacheManager 0 false (s.tasksInOrder g) (⟨[], ∅⟩, 0)

/-- The size of the last task is not known. -/
def lastUnknown : Bool :=
  match (s.tasksInOrder g).getLast? with
  | none => false
  | some blockId => (r.subPieceCount blockId).isNone

/-- `CalcSubpieceTillCapacity`, with the list that it leaves. -/
def calcSubpieceTillCapacity : Nat → LiveStream → Option (LiveStream × AssignList)
  | 0, _ => none
  | rounds + 1, s =>
    let (list, subpieceCount) := s.caclSubPieceAssignMap r g
    if 150 ≤ subpieceCount then some (s, list)
    else if s.lastUnknown r g then some (s, list)
    else
      (s.requestNextBlock rounds g).bind fun (s, granted) =>
        if granted then calcSubpieceTillCapacity rounds s else some (s, list)

end LiveStream

end Live.Requests
