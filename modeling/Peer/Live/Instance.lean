import Mathlib.Data.Finmap
import Peer.Live.BlockNode

/-! The cache of the blocks of one live resource, and the streams that play from it. A
stream is pushed what is next after its position whenever a subpiece is added and on
every tick of the play timer. -/
namespace Live

open Basis Storage HeaderSubPiece

/-- `LivePosition`, also `protocol::LiveSubPieceInfo`. -/
structure LivePosition where
  blockId : Nat
  subPieceIndex : Nat
deriving DecidableEq

structure LiveCacheManager where
  rid : Guid
  blockNodes : Finmap fun _ : Nat => LiveBlockNode
  /-- The live interval in seconds; `LivePointTracker` does not let it be 0. -/
  liveInterval : Nat
  liveInterval_pos : 0 < liveInterval

theorem ten_pos : 0 < 10 := by decide

namespace LiveCacheManager

variable (c : LiveCacheManager)

def node (blockId : Nat) : Option LiveBlockNode := c.blockNodes.lookup blockId

def setNode (blockId : Nat) (node : LiveBlockNode) : LiveCacheManager :=
  { c with blockNodes := c.blockNodes.insert blockId node }

/-- The node that `EnsureBlockExists` leaves for a block. -/
def nodeOrNew (blockId : Nat) : LiveBlockNode :=
  (c.node blockId).getD (.create blockId c.rid)

def addSubPiece (D : Digests) (subpiece : LivePosition) (buffer : Option LiveSubPieceBuffer) :
    LiveCacheManager × Bool :=
  let (node, added) :=
    (c.nodeOrNew subpiece.blockId).addSubPiece D subpiece.subPieceIndex buffer
  (c.setNode subpiece.blockId node, added)

def removeBlock (blockId : Nat) : LiveCacheManager :=
  { c with blockNodes := c.blockNodes.erase blockId }

def hasSubPiece (subpiece : LivePosition) : Bool :=
  match c.node subpiece.blockId with
  | some node => node.hasSubPiece subpiece.subPieceIndex
  | none => false

def hasCompleteBlock (blockId : Nat) : Bool :=
  match c.node blockId with
  | some node => node.isComplete
  | none => false

def getSubPiecesCount (blockId : Nat) : Nat :=
  match c.node blockId with
  | some node => node.getSubPiecesCount
  | none => 0

/-- The buffers of the range from `start` to `last`. -/
def getSubPieces (blockId start last : Nat) : List (Option LiveSubPieceBuffer) :=
  if last < start then []
  else
    match c.node blockId with
    | some node => (List.range' start (last + 1 - start)).map node.slot
    | none => []

/-- `GetNextMissingSubPiece`. Every round but the last finds a complete block, so that
there are at most as many as blocks, unless all the blocks around the circle of
`boost::uint32_t` are complete. -/
def getNextMissingSubPiece : Nat → Nat → Option LivePosition
  | 0, _ => none
  | rounds + 1, blockId =>
      match c.node blockId with
      | none => some ⟨blockId, 0⟩
      | some node =>
          if !node.isComplete then some ⟨blockId, node.getNextMissingSubPiece⟩
          else getNextMissingSubPiece rounds (u32 (blockId + c.liveInterval))

end LiveCacheManager

/-- `ILiveStream` as `LiveStream` implements it, with the positions of its download
driver and the calls of `OnRecvLivePiece`. The last four fields are for statements
about runs: the block where the stream was last placed, whether its driver placed it
there (or the push that follows a jump moved it on from where the driver had), how many
calls it had got by then, and the blocks it has left behind since, as they were then. -/
structure LiveStream where
  id : Nat
  startPosition : LivePosition
  playingPosition : LivePosition
  received : List (Nat × List (Option LiveSubPieceBuffer))
  placedAt : Nat
  byDriver : Bool
  callsBefore : Nat
  played : List LiveBlockNode

namespace LiveStream

/-- The driver puts the stream at the start of a block. -/
def place (s : LiveStream) (blockId : Nat) : LiveStream :=
  { s with
    playingPosition := ⟨blockId, 0⟩
    placedAt := blockId
    byDriver := true
    callsBefore := s.received.length
    played := [] }

/-- `OnRecvLivePiece`. When the whole block was sent the driver may jump; the result tells
whether it did. -/
def onRecvLivePiece (s : LiveStream) (jump : Option Nat) (blockId : Nat)
    (buffers : List (Option LiveSubPieceBuffer)) (progressPercentage : Nat) : LiveStream × Bool :=
  let s := { s with received := s.received ++ [(blockId, buffers)] }
  match jump with
  | some target => if progressPercentage = 100 then (s.place (u32 target), true) else (s, false)
  | none => (s, false)

end LiveStream

def flvHeaderSizeInBytes : Nat := 13

/-- `RemoveFlashHeader`. -/
def removeFlashHeader : List (Option LiveSubPieceBuffer) → List (Option LiveSubPieceBuffer)
  | some first :: rest =>
      if flvHeaderSizeInBytes < first.length then
        some ⟨first.data.drop flvHeaderSizeInBytes, by
          rw [List.length_drop]
          exact (Nat.sub_le ..).trans first.length_le⟩ :: rest
      else some first :: rest
  | buffers => buffers

section Push

variable (c : LiveCacheManager)

/-- `LiveInstance::SendSubPieces`. -/
def sendSubPieces (jump : Option Nat) (s : LiveStream) (lastSubpieceIndex : Nat) :
    LiveStream × Bool :=
  let position := s.playingPosition
  if position.subPieceIndex = 0 ∧ lastSubpieceIndex = 0 then (s, false)
  else
    let isFirstBlock := position.blockId == s.startPosition.blockId
    let startSubpieceIndex := if position.subPieceIndex = 0 then 1 else position.subPieceIndex
    let buffers := c.getSubPieces position.blockId startSubpieceIndex lastSubpieceIndex
    let downloaded := u32 (position.subPieceIndex + buffers.length)
    let percentage := u32 (downloaded * 100) / c.getSubPiecesCount position.blockId % 256
    let buffers :=
      if !isFirstBlock && startSubpieceIndex == 1 then removeFlashHeader buffers else buffers
    s.onRecvLivePiece jump position.blockId buffers percentage

/-- `LiveInstance::PushDataToDownloaderDriver`; `none` is the branch of `assert(false)`. -/
def pushDataToDownloaderDriver (jump : Option Nat) (s : LiveStream) : Option LiveStream :=
  let position := s.playingPosition
  if !c.hasSubPiece position then some s
  else if c.hasCompleteBlock position.blockId then
    let (sent, jumped) :=
      sendSubPieces c jump s (u16 (subU32 (c.getSubPiecesCount position.blockId) 1))
    let nextBlockId := u32 (sent.playingPosition.blockId + c.liveInterval)
    -- The reference to the position is that of the block the driver jumped to.
    if jumped then some { sent.place nextBlockId with byDriver := false }
    else some { sent with
      playingPosition := ⟨nextBlockId, 0⟩
      played := sent.played ++ (c.node position.blockId).toList }
  else
    match c.getNextMissingSubPiece (c.blockNodes.keys.card + 1) position.blockId with
    | none => none
    | some missing =>
        if missing.blockId = position.blockId ∧
            position.subPieceIndex < missing.subPieceIndex then
          let last := subU32 (LiveBlockNode.getFirstSubPieceIndex
            (LiveBlockNode.getPieceIndex missing.subPieceIndex)) 1
          if position.subPieceIndex ≤ last then
            let (sent, _) := sendSubPieces c jump s (u16 last)
            some { sent with
              playingPosition := ⟨sent.playingPosition.blockId, u16 (last + 1)⟩ }
          else some s
        else none

end Push

/-- The cache and the attached streams. -/
structure LiveInstance where
  cacheManager : LiveCacheManager
  liveStreams : List LiveStream

namespace LiveInstance

/-- `PushDataToDownloaderDrivers`; `jumps` says where the driver of a stream jumps to, if
it decides so when it is told that a block was sent. -/
def pushDataToDownloaderDrivers (jumps : Nat → Option Nat) (x : LiveInstance) :
    Option LiveInstance :=
  (x.liveStreams.mapM fun s => pushDataToDownloaderDriver x.cacheManager (jumps s.id) s).map
    fun streams => { x with liveStreams := streams }

def addSubPiece (D : Digests) (jumps : Nat → Option Nat) (x : LiveInstance)
    (subpiece : LivePosition) (buffer : Option LiveSubPieceBuffer) : Option LiveInstance :=
  let (cacheManager, added) := x.cacheManager.addSubPiece D subpiece buffer
  let x := { x with cacheManager := cacheManager }
  if !added then some x else x.pushDataToDownloaderDrivers jumps

end LiveInstance

/-- What can happen to a live instance: a subpiece is added, the play timer ticks, a stream
is attached at its position or detached, the driver of a stream jumps between two blocks,
a block is evicted. -/
inductive LiveAction where
  | addSubPiece (jumps : Nat → Option Nat) (subpiece : LivePosition)
      (buffer : Option LiveSubPieceBuffer)
  | playTimer (jumps : Nat → Option Nat)
  | attachStream (id start blockId : Nat)
  | detachStream (id : Nat)
  | jumpTo (id target : Nat)
  | removeBlock (blockId : Nat)

namespace LiveInstance

def create (rid : Guid) (liveInterval : Nat) : LiveInstance where
  cacheManager := ⟨rid, ∅, if liveInterval = 0 then 1 else liveInterval, by split <;> omega⟩
  liveStreams := []

/-- One step. It fails where the source reaches `assert(false)`. -/
def next (D : Digests) (x : LiveInstance) : LiveAction → Option LiveInstance
  | .addSubPiece jumps subpiece buffer => x.addSubPiece D jumps subpiece buffer
  | .playTimer jumps => x.pushDataToDownloaderDrivers jumps
  | .attachStream id start blockId =>
      some { x with liveStreams := x.liveStreams ++
        [⟨id, ⟨start, 0⟩, ⟨u32 blockId, 0⟩, [], u32 blockId, true, 0, []⟩] }
  | .detachStream id =>
      some { x with liveStreams := x.liveStreams.filter fun s => s.id != id }
  | .jumpTo id target =>
      some { x with liveStreams := x.liveStreams.map fun s =>
        if s.id = id ∧ s.playingPosition.subPieceIndex = 0 then s.place (u32 target) else s }
  | .removeBlock blockId => some { x with cacheManager := x.cacheManager.removeBlock blockId }

/-- The step relation of a live instance. -/
def Step (D : Digests) (x : LiveInstance) (a : LiveAction) (y : LiveInstance) : Prop :=
  x.next D a = some y

end LiveInstance

end Live
