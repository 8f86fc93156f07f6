import Mathlib.Data.Finmap
import Peer.Basis.Least
import Peer.Basis.Stride
import Peer.Live.Announce
import Peer.Storage.MemoryQuota

/-! `LiveInstanceMemoryConsumer`: the blocks of a live instance are scored by what they are
worth to upload and to play, and the least worth are evicted until a quota is kept. -/
namespace Live

open Basis Storage

/-- `GetCacheSize`. -/
def LiveCacheManager.getCacheSize (c : LiveCacheManager) : Nat := u16 c.blockNodes.keys.card

/-- A loop over the block ids from the first to the last one of the cache, which the body
may change. -/
def forBlockIds {σ : Type} (c : LiveCacheManager) (cacheOf : σ → LiveCacheManager)
    (body : σ → Nat → σ) (rounds : Nat) (s : σ) : Option σ :=
  strideLoop (2 ^ 32) c.liveInterval (fun s => (cacheOf s).getCacheLastBlockId) body rounds
    (c.getCacheFirstBlockId, s)

namespace LiveInstanceMemoryConsumer

/-- `LiveInstance::ExpectedP2PCoverageInSeconds`. -/
def expectedP2PCoverageInSeconds : Nat := 120

def playPointRelevantRangeInSeconds : Nat := 120

def getDistanceScore (distance effectiveRange scoreBase : Nat) : Nat :=
  if effectiveRange ≤ distance then 0
  else max 1 (scoreBase * (effectiveRange - distance) / effectiveRange)

/-- The index of the last play point that is not behind the block, or -1. -/
def findMostRelevantPlayPointIndex (sortedPlayPoints : List Nat) (blockId : Nat) : Int :=
  (sortedPlayPoints.findIdx fun playPoint => blockId < playPoint : Nat) - 1

/-- `GetSortedPlayPoints`. -/
def getSortedPlayPoints (x : LiveInstance) : List Nat :=
  (x.liveStreams.map fun s => s.playingPosition.blockId).mergeSort

/-- The loop over the play points from the most relevant one to the left. -/
def relevanceFrom (blockId : Nat) : List Nat → Nat
  | [] => 0
  | playPoint :: rest =>
      let score := getDistanceScore (blockId - playPoint) playPointRelevantRangeInSeconds 10
      if score = 0 then 0 else score + relevanceFrom blockId rest

/-- The score of a block: how near it is to the last one, and how close it follows the
play points. -/
def importanceScore (x : LiveInstance) (blockId : Nat) : Nat :=
  let sortedPlayPoints := getSortedPlayPoints x
  let uploadCandidateScore := getDistanceScore
    (x.cacheManager.getCacheLastBlockId - blockId) expectedP2PCoverageInSeconds 5
  let index := findMostRelevantPlayPointIndex sortedPlayPoints blockId
  uploadCandidateScore + relevanceFrom blockId (sortedPlayPoints.take (index + 1).toNat).reverse

/-- `blocks_importance_score`. -/
abbrev Scores := Finmap fun _ : Nat => Nat

/-- The body of the loop of `BuildBlocksImportanceScore`. -/
def scoreBlock (x : LiveInstance) (scores : Scores) (blockId : Nat) : Scores :=
  if blockId ∈ x.cacheManager.blockNodes then scores.insert blockId (importanceScore x blockId)
  else scores

/-- `BuildBlocksImportanceScore`; `none` when its loop does not end within the rounds. -/
def buildBlocksImportanceScore (x : LiveInstance) (rounds : Nat) : Option Scores :=
  if x.cacheManager.getCacheSize = 0 then some ∅
  else forBlockIds x.cacheManager (fun _ => x.cacheManager) (scoreBlock x) rounds ∅

/-- The body of the loop of `GetAverageBlockSize`, on the sum and the number of blocks. -/
def addBlockSize (w : Nat) (c : LiveCacheManager) (sums : Nat × Nat) (blockId : Nat) : Nat × Nat :=
  let blockSize := c.getBlockSizeInBytes blockId
  if 0 < blockSize then (sizeT w (sums.1 + blockSize), sizeT w (sums.2 + 1)) else sums

/-- `GetAverageBlockSize`. -/
def getAverageBlockSize (w : Nat) (x : LiveInstance) (rounds : Nat) : Option Nat :=
  if x.cacheManager.getCacheSize = 0 then some 0
  else
    (forBlockIds x.cacheManager (fun _ => x.cacheManager) (addBlockSize w x.cacheManager) rounds
      (0, 0)).map fun sums => if sums.2 = 0 then 0 else sums.1 / sums.2

/-- `GetBlocksQuota`. -/
def getBlocksQuota (w : Nat) (x : LiveInstance) (quota rounds : Nat) : Option Nat :=
  if quota = 0 then some 0
  else
    (getAverageBlockSize w x rounds).map fun averageBlockSize =>
      if averageBlockSize = 0 then 0
      else sizeT w (quota + averageBlockSize - 1) / averageBlockSize

/-- The body of the first loop of `SetMemoryQuota`, on the scores and the cache: blocks
that score nothing are removed. -/
def removeUnimportant (s : Scores × LiveCacheManager) (blockId : Nat) : Scores × LiveCacheManager :=
  match s.1.lookup blockId with
  | some score =>
      if score = 0 then (s.1.erase blockId, s.2.removeBlock blockId) else s
  | none => (s.1, s.2.removeBlock blockId)

/-- `score_to_block_id`: of equal scores the lower id comes first. -/
def scoreToBlockId (scores : Scores) : List (Nat × Nat) :=
  leastFirst Prod.snd (entries scores)

/-- The second part of `SetMemoryQuota`: the blocks that score least are removed. -/
def removeLeast (blocksQuota : Nat) (s : Scores × LiveCacheManager) : LiveCacheManager :=
  if blocksQuota < s.2.getCacheSize then
    ((scoreToBlockId s.1).take (s.2.getCacheSize - blocksQuota)).foldl
      (fun c entry => c.removeBlock entry.1) s.2
  else s.2

/-- `SetMemoryQuota`; `none` when a loop does not end within the rounds. -/
def setMemoryQuota (w : Nat) (x : LiveInstance) (quota rounds : Nat) : Option LiveInstance := do
  let blocksQuota ← getBlocksQuota w x quota rounds
  if x.cacheManager.getCacheSize ≤ blocksQuota then some x
  else
    let scores ← buildBlocksImportanceScore x rounds
    let s ← forBlockIds x.cacheManager Prod.snd removeUnimportant rounds (scores, x.cacheManager)
    some { x with cacheManager := removeLeast blocksQuota s }

end LiveInstanceMemoryConsumer

end Live
