import Mathlib.Data.Finset.Lattice.Fold
import Mathlib.Order.Lattice.Nat
import Peer.Live.Instance

/-! The announce map: a peer tells which pieces of which blocks it has, another one keeps
what it is told. -/
namespace Live

open Storage HeaderSubPiece

section Maps

variable {α : Type}

/-- `std::map::insert`, which keeps what is there. -/
def insertNew (m : Finmap fun _ : Nat => α) (key : Nat) (value : α) : Finmap fun _ : Nat => α :=
  if key ∈ m then m else m.insert key value

/-- The keys of a `std::map` in the order of its iterators. -/
def keysInOrder (m : Finmap fun _ : Nat => α) : List Nat :=
  (List.range (m.keys.sup id + 1)).filter (· ∈ m)

/-- The entries in the order of the keys. -/
def entries (m : Finmap fun _ : Nat => α) : List (Nat × α) :=
  (keysInOrder m).filterMap fun key => (m.lookup key).map fun value => (key, value)

end Maps

/-- `protocol::LiveAnnounceMap`. -/
structure LiveAnnounceMap where
  requestBlockId : Nat
  liveInterval : Nat
  blockInfoCount : Nat
  subpieceNos : Finmap fun _ : Nat => Nat
  subpieceMap : Finmap fun _ : Nat => List Bool

namespace LiveCacheManager

variable (c : LiveCacheManager)

def getCacheFirstBlockId : Nat := (keysInOrder c.blockNodes).headD 0

def getCacheLastBlockId : Nat := (keysInOrder c.blockNodes).getLastD 0

-- The four answers for a block, and those for a block that is not there. What the first
-- and the third remember in mutable members changes no later answer.

def isBlockHeaderValid (D : Digests) (blockId : Nat) : Bool :=
  match c.node blockId with
  | some node => (node.isHeaderValid D).2
  | none => false

def isPieceComplete (blockId pieceIndex : Nat) : Bool :=
  match c.node blockId with
  | some node => node.isPieceComplete pieceIndex
  | none => false

def isPieceValid (D : Digests) (blockId pieceIndex : Nat) : Bool :=
  match c.node blockId with
  | some node => (node.isPieceValid D pieceIndex).2
  | none => false

def getBlockSizeInBytes (blockId : Nat) : Nat :=
  match c.node blockId with
  | some node => node.getBlockSizeInBytes
  | none => 0

end LiveCacheManager

/-- `LiveAnnouceMapBuilder`, without the cache. -/
structure LiveAnnounceMapBuilder where
  announceMap : LiveAnnounceMap
  accumulatedPacketSize : Nat
  additionalBitsBeyondTheLastByte : Nat

/-- `protocol::SUBPIECE_COUNT_IN_ONE_CHECK`. -/
def subpieceCountInOneCheck : Nat := 16

namespace LiveAnnounceMapBuilder

/-- `ResetState` on the map that the caller passes. -/
def resetState (c : LiveCacheManager) (announceMap : LiveAnnounceMap) : LiveAnnounceMapBuilder where
  announceMap := ⟨announceMap.requestBlockId, c.liveInterval, 0, ∅, ∅⟩
  accumulatedPacketSize := 4 + 2 + 4 + 2 + 2
  additionalBitsBeyondTheLastByte := 0

def maximumPacketSizeAllowed (x : LiveAnnounceMapBuilder) : Nat :=
  if 0 < x.additionalBitsBeyondTheLastByte then liveSubPieceSize - 1 else liveSubPieceSize

/-- The bits of a block: its header, and one for each piece. -/
def bitsOf (D : Digests) (c : LiveCacheManager) (blockId subpiecesCount : Nat) : List Bool :=
  true :: (List.range
    ((subpiecesCount - 1 + subpieceCountInOneCheck - 1) / subpieceCountInOneCheck)).map fun p =>
      c.isPieceComplete blockId p && c.isPieceValid D blockId p

def tryAddBlockToAnnounceMap (D : Digests) (c : LiveCacheManager) (x : LiveAnnounceMapBuilder)
    (blockId : Nat) : LiveAnnounceMapBuilder × Bool :=
  let subpiecesCount :=
    u16 (u32 (c.getBlockSizeInBytes blockId + liveSubPieceSize - 1) / liveSubPieceSize)
  let bits := subpiecesCount + x.additionalBitsBeyondTheLastByte
  let newPacketSize := u32 (x.accumulatedPacketSize + 2 + bits / 8)
  let x := { x with additionalBitsBeyondTheLastByte := bits % 8 }
  if x.maximumPacketSizeAllowed < newPacketSize then (x, false)
  else
    let m := x.announceMap
    ({ x with
      accumulatedPacketSize := newPacketSize
      announceMap := { m with
        blockInfoCount := m.blockInfoCount + 1
        subpieceNos := insertNew m.subpieceNos blockId subpiecesCount
        subpieceMap := insertNew m.subpieceMap blockId (bitsOf D c blockId subpiecesCount) } }, true)

/-- The loop of `Build`; `none` when it does not end within the rounds. -/
def addBlocks (D : Digests) (c : LiveCacheManager) (lastBlockId : Nat) :
    Nat → Nat → LiveAnnounceMapBuilder → Option LiveAnnounceMapBuilder
  | 0, _, _ => none
  | rounds + 1, blockId, x =>
      if lastBlockId < blockId then some x
      else if c.isBlockHeaderValid D blockId then
        let (x, added) := x.tryAddBlockToAnnounceMap D c blockId
        if !added then some x
        else addBlocks D c lastBlockId rounds (u32 (blockId + c.liveInterval)) x
      else if 0 < x.announceMap.blockInfoCount then some x
      else addBlocks D c lastBlockId rounds (u32 (blockId + c.liveInterval)) x

end LiveAnnounceMapBuilder

/-- `LiveAnnouceMapBuilder::Build`. -/
def buildAnnounceMap (D : Digests) (c : LiveCacheManager) (rounds requestBlockId : Nat)
    (announceMap : LiveAnnounceMap) : Option LiveAnnounceMap :=
  let x := LiveAnnounceMapBuilder.resetState c announceMap
  if c.blockNodes.keys = ∅ then some x.announceMap
  else
    let x := { x with announceMap := { x.announceMap with requestBlockId := requestBlockId } }
    let firstBlockId := c.getCacheFirstBlockId
    let lastBlockId := c.getCacheLastBlockId
    if lastBlockId < requestBlockId then some x.announceMap
    else
      let start := if requestBlockId < firstBlockId then firstBlockId else requestBlockId
      (x.addBlocks D c lastBlockId rounds start).map (·.announceMap)

/-- `LiveSubPieceCountManager`. -/
structure LiveSubPieceCountManager where
  subpieceCountMap : Finmap fun _ : Nat => Nat
  liveInterval : Nat

namespace LiveSubPieceCountManager

def setSubPieceCountMap (m : LiveSubPieceCountManager) (blockId : Nat) (subpieceCount : List Nat) :
    LiveSubPieceCountManager :=
  let counts := subpieceCount.zipIdx.foldl
    (fun counts entry => insertNew counts (u32 (blockId + entry.2 * m.liveInterval)) entry.1)
    m.subpieceCountMap
  { m with subpieceCountMap := counts }

def hasSubPieceCount (m : LiveSubPieceCountManager) (blockId : Nat) : Bool :=
  decide (blockId ∈ m.subpieceCountMap)

def getSubPieceCount (m : LiveSubPieceCountManager) (blockId : Nat) : Nat :=
  (m.subpieceCountMap.lookup blockId).getD 0

end LiveSubPieceCountManager

/-- What a `LivePeerConnection` keeps of announce maps, its downloader's counts, and the
live interval of the downloader's instance. -/
structure AnnounceReceiver where
  blockBitmap : Finmap fun _ : Nat => List Bool
  counts : LiveSubPieceCountManager
  liveInterval : Nat

namespace AnnounceReceiver

/-- The loop that forgets blocks before the first one of the map; `none` when it does not
end within the rounds. -/
def forget (firstBlockId liveInterval : Nat) :
    Nat → Nat → (Finmap fun _ : Nat => List Bool) → Option (Finmap fun _ : Nat => List Bool)
  | 0, _, _ => none
  | rounds + 1, blockId, bitmap =>
      if blockId < firstBlockId then
        forget firstBlockId liveInterval rounds (u32 (blockId + liveInterval)) (bitmap.erase blockId)
      else some bitmap

/-- `LivePeerConnection::OnAnnounce`. A map that counts blocks and has none is the
dereference of an end iterator. -/
def onAnnounce (rounds : Nat) (x : AnnounceReceiver) (m : LiveAnnounceMap) :
    Option AnnounceReceiver :=
  if 0 < m.blockInfoCount then
    match (entries m.subpieceMap).head? with
    | none => none
    | some first => do
        let counts := x.counts.setSubPieceCountMap first.1 ((entries m.subpieceNos).map (·.2))
        let bitmap ← forget first.1 x.liveInterval rounds m.requestBlockId x.blockBitmap
        some { x with
          counts := counts
          blockBitmap := (entries m.subpieceMap).foldl (fun b entry => b.insert entry.1 entry.2) bitmap }
  else some { x with blockBitmap := ∅ }

/-- `HasSubPieceInBitmap`. -/
def hasSubPieceInBitmap (x : AnnounceReceiver) (subpiece : LivePosition) : Bool :=
  match x.blockBitmap.lookup subpiece.blockId with
  | some bits =>
      if subpiece.subPieceIndex = 0 then bits.getD 0 false
      else
        let pieceIndex := (subpiece.subPieceIndex - 1) / 16 + 1
        if pieceIndex < bits.length then bits.getD pieceIndex false else false
  | none => false

end AnnounceReceiver

end Live
