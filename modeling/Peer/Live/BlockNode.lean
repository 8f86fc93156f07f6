import Mathlib.Data.Finset.Card
import Peer.Storage.Base

/-! A block of a live stream while it is downloaded: a vector of subpieces, the
header that subpiece 0 carries, and the pieces whose checksum was found right. -/
namespace Live

open Basis Storage

/-- `LIVE_SUB_PIECE_SIZE`, also `HeaderSubPiece::Constants::SubPieceSizeInBytes`. -/
def liveSubPieceSize : Nat := 1400

/-- `protocol::LiveSubPieceBuffer` with its content: at most one subpiece of bytes. An
invalid buffer is `none` where the source stores buffers. -/
structure LiveSubPieceBuffer where
  data : Bytes
  length_le : data.length ≤ liveSubPieceSize
deriving DecidableEq

theorem LiveSubPieceBuffer.length_single_le (byte : UInt8) : [byte].length ≤ liveSubPieceSize := by
  simp [liveSubPieceSize]

def LiveSubPieceBuffer.length (buffer : LiveSubPieceBuffer) : Nat := buffer.data.length

/-- The two digests that come from libraries: MD5 and `check_sum_new`. -/
structure Digests where
  md5 : Bytes → Guid
  checkSumNew : Bytes → Nat

/-- `HeaderSubPiece`, with the members in the order of its memory. -/
structure HeaderSubPiece where
  blockHash : Bytes
  rid : Bytes
  blockHeaderLength : Nat
  dataLength : Nat
  blockId : Nat
  version : Nat
  piecesChecksum : List Nat
deriving DecidableEq

namespace HeaderSubPiece

def blockHashSizeInBytes : Nat := 16

def subPiecesPerPiece : Nat := 16

def piecesCheckSumOffset : Nat := 4 * 4 + 16 + subPiecesPerPiece

def maximumPiecesPerBlock : Nat := (liveSubPieceSize - piecesCheckSumOffset) / 4

/-- The number of four bytes at `offset`. -/
def wordAt (buffer : Bytes) (offset : Nat) : Nat := leValue ((buffer.drop offset).take 4)

def load (buffer : Bytes) : HeaderSubPiece where
  blockHash := buffer.take 16
  rid := (buffer.drop 16).take 16
  blockHeaderLength := wordAt buffer 32
  dataLength := wordAt buffer 36
  blockId := wordAt buffer 40
  version := wordAt buffer 44
  piecesChecksum := (List.range maximumPiecesPerBlock).map fun i => wordAt buffer (48 + 4 * i)

/-- The bytes of the record in memory, which `VerifyBlockHash` reads. -/
def memory (header : HeaderSubPiece) : Bytes :=
  header.blockHash ++ header.rid ++ leBytes 4 header.blockHeaderLength ++
    leBytes 4 header.dataLength ++ leBytes 4 header.blockId ++ leBytes 4 header.version ++
    header.piecesChecksum.flatMap (leBytes 4)

def verifyBlockHash (D : Digests) (header : HeaderSubPiece) : Bool :=
  (D.md5 ((header.memory.drop blockHashSizeInBytes).take
    (header.blockHeaderLength - blockHashSizeInBytes))).bytes == header.blockHash

def isValid (D : Digests) (header : HeaderSubPiece) : Bool :=
  if header.blockHeaderLength < piecesCheckSumOffset then false
  else if liveSubPieceSize < header.blockHeaderLength then false
  else if header.dataLength < header.blockHeaderLength then false
  else if maximumPiecesPerBlock * subPiecesPerPiece * liveSubPieceSize < header.dataLength then false
  else header.verifyBlockHash D

def getPieceChecksum (header : HeaderSubPiece) (pieceIndex : Nat) : Nat :=
  header.piecesChecksum.getD pieceIndex 0

end HeaderSubPiece

open HeaderSubPiece

/-- `std::vector::resize` of buffers. -/
def resize (slots : List (Option LiveSubPieceBuffer)) (size : Nat) :
    List (Option LiveSubPieceBuffer) :=
  slots.take size ++ List.replicate (size - slots.length) none

structure LiveBlockNode where
  blockId : Nat
  rid : Guid
  subpieces : List (Option LiveSubPieceBuffer)
  headerSubpiece : Option HeaderSubPiece
  blockHeaderValidated : Bool
  validatedPieces : Finset Nat
  checksumFailedTimes : Nat
deriving DecidableEq

namespace LiveBlockNode

/-- The node of a block of which nothing has arrived. -/
def create (blockId : Nat) (rid : Guid) : LiveBlockNode :=
  ⟨blockId, rid, [], none, false, ∅, 0⟩

/-- `subpieces_[index]`, and `none` past the end. -/
def slot (node : LiveBlockNode) (index : Nat) : Option LiveSubPieceBuffer :=
  node.subpieces.getD index none

def hasHeaderSubPiece (node : LiveBlockNode) : Bool := node.headerSubpiece.isSome

def hasSubPiece (node : LiveBlockNode) (index : Nat) : Bool :=
  if node.subpieces.length ≤ index then false else (node.slot index).isSome

def getSubPiecesCount (node : LiveBlockNode) : Nat :=
  if node.hasHeaderSubPiece then node.subpieces.length else 0

def getBlockSizeInBytes (node : LiveBlockNode) : Nat :=
  match node.headerSubpiece with
  | some header => u32 (header.dataLength + liveSubPieceSize)
  | none => 0

/-- The first index without a subpiece, or the size of the vector. -/
def getNextMissingSubPiece (node : LiveBlockNode) : Nat :=
  u16 (node.subpieces.findIdx fun slot => slot.isNone)

def getPieceIndex (subpieceIndex : Nat) : Nat := u16 (subU32 subpieceIndex 1 / subPiecesPerPiece)

def getFirstSubPieceIndex (pieceIndex : Nat) : Nat := subPiecesPerPiece * pieceIndex + 1

def isComplete (node : LiveBlockNode) : Bool :=
  if !node.hasHeaderSubPiece then false else node.subpieces.all (·.isSome)

/-- The index after the last subpiece of a piece; the last piece may be shorter. -/
def pieceEnd (node : LiveBlockNode) (pieceIndex : Nat) : Nat :=
  min (getFirstSubPieceIndex pieceIndex + subPiecesPerPiece) node.subpieces.length

/-- The slots of a piece. -/
def pieceSlots (node : LiveBlockNode) (pieceIndex : Nat) : List (Option LiveSubPieceBuffer) :=
  (List.range' (getFirstSubPieceIndex pieceIndex)
    (node.pieceEnd pieceIndex - getFirstSubPieceIndex pieceIndex)).map node.slot

def isPieceComplete (node : LiveBlockNode) (pieceIndex : Nat) : Bool :=
  if maximumPiecesPerBlock ≤ pieceIndex then false
  else if node.subpieces.length ≤ getFirstSubPieceIndex pieceIndex then false
  -- Without the header the size of a last piece is not known.
  else if node.subpieces.length < getFirstSubPieceIndex pieceIndex + subPiecesPerPiece &&
      !node.hasHeaderSubPiece then false
  else (node.pieceSlots pieceIndex).all (·.isSome)

/-- `IsHeaderValid`, which remembers that the header was valid. -/
def isHeaderValid (D : Digests) (node : LiveBlockNode) : LiveBlockNode × Bool :=
  if node.blockHeaderValidated then (node, true)
  else
    let valid :=
      match node.headerSubpiece with
      | some header =>
          header.isValid D && node.blockId == header.blockId && node.rid.bytes == header.rid
      | none => false
    ({ node with blockHeaderValidated := valid }, valid)

/-- The bytes of a piece, one subpiece after the other. -/
def pieceBytes (node : LiveBlockNode) (pieceIndex : Nat) : Bytes :=
  (node.pieceSlots pieceIndex).flatMap fun slot =>
    match slot with
    | some buffer => buffer.data
    | none => []

/-- `IsPieceValid`, which remembers the valid pieces and counts the others. -/
def isPieceValid (D : Digests) (node : LiveBlockNode) (pieceIndex : Nat) : LiveBlockNode × Bool :=
  if maximumPiecesPerBlock ≤ pieceIndex then (node, false)
  else if pieceIndex ∈ node.validatedPieces then (node, true)
  else
    let (node, headerValid) := node.isHeaderValid D
    if !headerValid then (node, false)
    else if !node.isPieceComplete pieceIndex then (node, false)
    else
      match node.headerSubpiece with
      | none => (node, false)
      | some header =>
          if header.getPieceChecksum pieceIndex = D.checkSumNew (node.pieceBytes pieceIndex) then
            ({ node with validatedPieces := insert pieceIndex node.validatedPieces }, true)
          else ({ node with checksumFailedTimes := u32 (node.checksumFailedTimes + 1) }, false)

def dropSubPiece (node : LiveBlockNode) (index : Nat) : LiveBlockNode :=
  if index < node.subpieces.length then { node with subpieces := node.subpieces.set index none }
  else node

def dropPiece (node : LiveBlockNode) (pieceIndex : Nat) : LiveBlockNode :=
  if maximumPiecesPerBlock ≤ pieceIndex then node
  else if node.subpieces.length ≤ getFirstSubPieceIndex pieceIndex then node
  else (List.range' (getFirstSubPieceIndex pieceIndex) subPiecesPerPiece).foldl dropSubPiece node

/-- A complete piece with a wrong checksum is dropped. -/
def dropPieceIfInvalid (D : Digests) (node : LiveBlockNode) (pieceIndex : Nat) : LiveBlockNode :=
  if node.isPieceComplete pieceIndex then
    let (node, valid) := node.isPieceValid D pieceIndex
    if valid then node else node.dropPiece pieceIndex
  else node

def dropDataIfNecessary (D : Digests) (node : LiveBlockNode) (newArrivalSubpieceIndex : Nat) :
    LiveBlockNode :=
  if newArrivalSubpieceIndex = 0 then
    if node.hasHeaderSubPiece then
      let (node, headerValid) := node.isHeaderValid D
      if headerValid then
        let piecesCount := u16 (getPieceIndex (subU32 node.getSubPiecesCount 1) + 1)
        (List.range piecesCount).foldl (dropPieceIfInvalid D) node
      else node
    else node
  else if node.hasHeaderSubPiece then
    node.dropPieceIfInvalid D (getPieceIndex newArrivalSubpieceIndex)
  else node

def checkHeadSubPiece (D : Digests) (node : LiveBlockNode) : LiveBlockNode :=
  match node.slot 0 with
  | none => node.dropSubPiece 0
  | some buffer =>
      if buffer.length ≠ liveSubPieceSize then node.dropSubPiece 0
      else
        let header := load buffer.data
        let (node, valid) := { node with headerSubpiece := some header }.isHeaderValid D
        if !valid then { node with headerSubpiece := none }.dropSubPiece 0
        else
          let realSubpiecesCount :=
            u16 (1 + u32 (header.dataLength + liveSubPieceSize - 1) / liveSubPieceSize)
          { node with subpieces := resize node.subpieces realSubpiecesCount }

def addSubPiece (D : Digests) (node : LiveBlockNode) (subpieceIndex : Nat)
    (subpieceBuffer : Option LiveSubPieceBuffer) : LiveBlockNode × Bool :=
  if subpieceIndex < node.subpieces.length && (node.slot subpieceIndex).isSome then (node, false)
  else if node.subpieces.length ≤ subpieceIndex && node.hasHeaderSubPiece then (node, false)
  else
    let slots :=
      if node.subpieces.length ≤ subpieceIndex then resize node.subpieces (subpieceIndex + 1)
      else node.subpieces
    let node := { node with subpieces := slots.set subpieceIndex subpieceBuffer }
    let node := if subpieceIndex = 0 then node.checkHeadSubPiece D else node
    (node.dropDataIfNecessary D subpieceIndex, true)

end LiveBlockNode

end Live
