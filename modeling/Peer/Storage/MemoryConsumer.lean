import Peer.Live.MemoryConsumer
import Peer.Storage.ManagerStep

/-! `InstanceMemoryConsumer`: the blocks of a file that are in memory are scored by what
they are worth to the play points and to the disk. -/
namespace Storage

open Basis Live.LiveInstanceMemoryConsumer

/-- `InstanceMemoryConsumer`, with what it reads of its instance, which has a
`SubPieceManager`: whether `resource_p_` is there, where the download drivers play, and which
nodes nobody has accessed for long. -/
structure InstanceMemoryConsumer (μ : Type) where
  subpieceManager : SubPieceManager μ
  hasResource : Bool
  playingPositions : List Nat
  accessTimedOut : Nat → Bool

namespace SubPieceManager

variable {μ : Type} [BlockMap μ]

/-- `DownloadingBlock`, given whether the access to the node has timed out. -/
def downloadingBlock (m : SubPieceManager μ) (accessTimedOut : Bool) (b : Nat) : Bool :=
  match m.nodeAt b with
  | some node => node.needWrite && !node.isFull && !accessTimedOut
  | none => false

/-- `bytes_num_per_piece_g_`. -/
def bytesNumPerPiece : Nat := subpieceNumPerPiece * bytesNumPerSubpiece

/-- `PosToPieceInfo`: the indexes of the block and of the piece. -/
def posToPieceInfo (m : SubPieceManager μ) (position : Nat) : Option (Nat × Nat) :=
  if m.ridInfo.fileLength ≤ position then none
  else some (u16 (position / m.ridInfo.blockSize),
    u16 (position % m.ridInfo.blockSize / bytesNumPerPiece))

end SubPieceManager

namespace InstanceMemoryConsumer

variable {μ : Type} [BlockMap μ]

def getDistanceScore (distance effectiveRange scoreBase : Nat) : Nat :=
  if effectiveRange ≤ distance then 1
  else max 1 (scoreBase * (effectiveRange - distance) / effectiveRange)

def getSortedPlayPoints (x : InstanceMemoryConsumer μ) : List Nat :=
  (x.playingPositions.filterMap fun position =>
    (x.subpieceManager.posToPieceInfo position).map Prod.fst).mergeSort

/-- `GetPlayPointsRelevanceScore`. -/
def getPlayPointsRelevanceScore (blockId : Nat) (sortedPlayPoints : List Nat) : Nat :=
  let index := findMostRelevantPlayPointIndex sortedPlayPoints blockId
  ((sortedPlayPoints.take (index + 1).toNat).map fun playPoint =>
    getDistanceScore (blockId - playPoint) 10 5).sum

def getPotentialDiskWriteScore (x : InstanceMemoryConsumer μ) (blockId : Nat) : Nat :=
  if x.subpieceManager.downloadingBlock (x.accessTimedOut blockId) blockId then 1 else 0

/-- The score of a block in memory. -/
def importanceScore (x : InstanceMemoryConsumer μ) (blockId : Nat) : Nat :=
  getPlayPointsRelevanceScore blockId (getSortedPlayPoints x) + getPotentialDiskWriteScore x blockId

/-- `BuildBlocksImportanceScore`, as the look-ups in the map that it fills. -/
def blocksImportanceScore (x : InstanceMemoryConsumer μ) (blockId : Nat) : Option Nat :=
  if blockId < x.subpieceManager.ridInfo.blockCount ∧
      x.subpieceManager.isBlockDataInMemCache blockId = true then
    some (importanceScore x blockId)
  else none

/-- `GetBlocksQuota`. -/
def getBlocksQuota (w : Nat) (x : InstanceMemoryConsumer μ) (quota : Nat) : Nat :=
  let blockSize := x.subpieceManager.ridInfo.blockSize
  if quota = 0 then 0
  else if blockSize = 0 then 0
  else sizeT w (quota + blockSize - 1) / blockSize

/-- A call of `RemoveBlockDataFromMemCache`, behind the jobs that others have posted. -/
def clearBlock (build : Build) (s : SubPieceManager μ × List SaveJob) (blockId : Nat) :
    Option (SubPieceManager μ × List SaveJob) :=
  (s.1.removeBlockDataFromMemCache build blockId).map fun (m, jobs) => (m, s.2 ++ jobs)

/-- The body of the first loop of `SetMemoryQuota`, on the store and `score_to_block_id` in
the order of insertion. -/
def scoreOrClear (build : Build) (x : InstanceMemoryConsumer μ)
    (s : (SubPieceManager μ × List SaveJob) × List (Nat × Nat)) (blockId : Nat) :
    Option ((SubPieceManager μ × List SaveJob) × List (Nat × Nat)) :=
  let clear := if x.hasResource && s.1.1.isBlockDataInMemCache blockId then
      (clearBlock build s.1 blockId).map fun cleared => (cleared, s.2)
    else some s
  match blocksImportanceScore x blockId with
  | some score => if 0 < score then some (s.1, s.2 ++ [(score, blockId)]) else clear
  | none => clear

/-- `SetMemoryQuota`. The blocks of equal scores keep their order in the multimap. -/
def setMemoryQuota (build : Build) (w : Nat) (x : InstanceMemoryConsumer μ) (quota : Nat) :
    Option (SubPieceManager μ × List SaveJob) := do
  let (s, scoreToBlockId) ← (List.range x.subpieceManager.ridInfo.blockCount).foldlM
    (scoreOrClear build x) ((x.subpieceManager, []), [])
  let blocksQuota := getBlocksQuota w x quota
  if scoreToBlockId.length < blocksQuota ∧ x.hasResource = true then
    ((leastFirst Prod.fst scoreToBlockId).take (blocksQuota - scoreToBlockId.length)).foldlM
      (fun s entry => clearBlock build s entry.2) s
  else some s

end InstanceMemoryConsumer

end Storage
