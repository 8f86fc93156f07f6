import Peer.Storage.Base
import Mathlib.Data.Finmap

/-! The subpieces of one block. `subpieces` is what is in memory, `nodeState`
says whether the block is also on disk, and `pieceCount` caches, for each run of
128 subpieces, how many are held. A function returning `Option` gives `none`
where the source indexes a vector out of range or dereferences a null pointer. -/
namespace Storage

open Basis

inductive BlockNodeState where
  | empty | downloading | mem | saving | disk | reading | all
deriving DecidableEq, Repr

structure BlockNode where
  subpieces : Finmap fun _ : Nat => SubPieceBuffer
  pieceCount : List Nat
  nodeState : BlockNodeState
  totalSubpieceCount : Nat
  lastPieceCapacity : Nat
  index : Nat
  needWrite : Bool
deriving DecidableEq

namespace BlockNode

/-- The number of 128-subpiece pieces of a block, as the constructor computes it. -/
def piecesOf (subpieceNum : Nat) : Nat :=
  u32 (subpieceNum + subpieceNumPerPiece - 1) / subpieceNumPerPiece

/-- The number of subpieces of the last piece. -/
def lastPieceOf (subpieceNum : Nat) : Nat :=
  subU32 subpieceNum 1 % subpieceNumPerPiece + 1

def create (index subpieceNum : Nat) (isFullDisk : Bool) : BlockNode where
  subpieces := ∅
  pieceCount :=
    if isFullDisk then
      (List.range (piecesOf subpieceNum)).map fun pidx =>
        if pidx = piecesOf subpieceNum - 1 then lastPieceOf subpieceNum else subpieceNumPerPiece
    else List.replicate (piecesOf subpieceNum) 0
  nodeState := if isFullDisk then .disk else .empty
  totalSubpieceCount := subpieceNum
  lastPieceCapacity := lastPieceOf subpieceNum
  index := index
  needWrite := false

/-- `subpieces_.size()`. -/
def size (node : BlockNode) : Nat := node.subpieces.keys.card

def isBlockSavedOnDisk (node : BlockNode) : Bool :=
  node.nodeState = .all || node.nodeState = .disk || node.nodeState = .reading

def isFull (node : BlockNode) : Bool :=
  node.size == node.totalSubpieceCount || node.isBlockSavedOnDisk

def isEmpty (node : BlockNode) : Bool := node.size == 0 && !node.isBlockSavedOnDisk

def isSaving (node : BlockNode) : Bool := node.nodeState = .saving

def getCurrNullSubPieceCount (node : BlockNode) : Nat := subU32 node.totalSubpieceCount node.size

def isPieceFull (node : BlockNode) (pieceIndex : Nat) : Bool :=
  if pieceIndex = node.pieceCount.length - 1 then
    node.pieceCount.getD pieceIndex 0 == node.lastPieceCapacity
  else node.pieceCount.getD pieceIndex 0 == subpieceNumPerPiece

def hasPiece (node : BlockNode) (pieceIndex : Nat) : Bool :=
  if pieceIndex < node.pieceCount.length then node.isPieceFull pieceIndex else false

/-- `piece_count_[pieceIndex] = f(piece_count_[pieceIndex])`. -/
def modifyPieceCount (node : BlockNode) (pieceIndex : Nat) (f : Nat → Nat) : Option BlockNode :=
  if pieceIndex < node.pieceCount.length then
    some { node with pieceCount := node.pieceCount.modify pieceIndex f }
  else none

def insertSubpiece (node : BlockNode) (index : Nat) (buf : SubPieceBuffer) : BlockNode :=
  { node with subpieces := node.subpieces.insert index buf }

/-- The tail of `AddSubpiece`: the first time the block is full it needs a write. -/
def markIfFull (node : BlockNode) : BlockNode :=
  if node.isFull && !node.needWrite then { node with needWrite := true, nodeState := .mem }
  else node

def addSubpiece (node : BlockNode) (index : Nat) (buf : SubPieceBuffer) :
    Option (BlockNode × Bool) :=
  let node :=
    if node.nodeState = .empty then { node with nodeState := .downloading } else node
  if index ∈ node.subpieces then some (node, false)
  else
    ((node.insertSubpiece index buf).modifyPieceCount (index / subpieceNumPerPiece)
      fun c => u32 (c + 1)).map fun node => (node.markIfFull, true)

def loadSubPieceBuffer (node : BlockNode) (index : Nat) (buf : SubPieceBuffer) :
    BlockNode × Bool :=
  if index ∈ node.subpieces then (node, false)
  else
    let node := node.insertSubpiece index buf
    if node.size = node.totalSubpieceCount then ({ node with nodeState := .all }, true)
    else (node, true)

def hasSubPiece (node : BlockNode) (index : Nat) : Bool :=
  node.isBlockSavedOnDisk || decide (index ∈ node.subpieces)

def hasSubPieceInMem (node : BlockNode) (index : Nat) : Bool := decide (index ∈ node.subpieces)

def setBlockReading (node : BlockNode) : BlockNode × Bool :=
  if node.nodeState = .disk then ({ node with nodeState := .reading }, true) else (node, false)

/-- An invalid buffer stands for the default-constructed one. -/
def getSubPiece (node : BlockNode) (index : Nat) : SubPieceBuffer :=
  match node.subpieces.lookup index with
  | some buf => if buf.isValid then buf else ⟨[], false⟩
  | none => ⟨[], false⟩

/-- The inner loop of `GetNextNullSubPiece`, whose counter is a `boost::uint16_t`.
After 65536 rounds the counter is back where it was, so running out of rounds
means that the loop never ends. -/
def scanNull (node : BlockNode) : Nat → Nat → Option (Option Nat)
  | 0, _ => none
  | rounds + 1, sidx =>
      if sidx < node.totalSubpieceCount then
        if sidx ∈ node.subpieces then scanNull node rounds (u16 (sidx + 1)) else some (some sidx)
      else some none

/-- The outer loop of `GetNextNullSubPiece` over the pieces from `pidx` on. -/
def nextNullFrom (node : BlockNode) (start : Nat) : Nat → Nat → Option (Option Nat)
  | 0, _ => some none
  | pieces + 1, pidx =>
      let startindex :=
        if pidx = start / subpieceNumPerPiece then start else pidx * subpieceNumPerPiece
      if node.pieceCount.getD pidx 0 = 0 then some (some startindex)
      else if node.isPieceFull pidx then nextNullFrom node start pieces (pidx + 1)
      else
        match node.scanNull (2 ^ 16) (u16 startindex) with
        | some none => nextNullFrom node start pieces (pidx + 1)
        | found => found

def getNextNullSubPiece (node : BlockNode) (start : Nat) : Option (Option Nat) :=
  node.nextNullFrom start (node.pieceCount.length - start / subpieceNumPerPiece)
    (start / subpieceNumPerPiece)

/-- One round of the loop of `ClearBlockMemCache`. -/
def dropSubpiece (node : BlockNode) (sidx : Nat) : Option BlockNode :=
  if sidx ∈ node.subpieces then
    let node := { node with subpieces := node.subpieces.erase sidx }
    if node.isBlockSavedOnDisk then some node
    else node.modifyPieceCount (sidx / subpieceNumPerPiece) fun c => subU32 c 1
  else some node

/-- The loop of `ClearBlockMemCache`. Its second bound is the current size of
the map, which shrinks with every subpiece the loop erases. -/
def clearFrom (node : BlockNode) : Nat → Nat → Option BlockNode
  | 0, _ => some node
  | rounds + 1, sidx =>
      if sidx < node.size then (node.dropSubpiece sidx).bind fun node => clearFrom node rounds (sidx + 1)
      else some node

def clearBlockMemCache (node : BlockNode) (playSubpieceIndex : Nat) : Option BlockNode :=
  (node.clearFrom (playSubpieceIndex + 1) 0).map fun node =>
    if node.nodeState = .all then { node with nodeState := .disk } else node

def onWriteFinish (node : BlockNode) : BlockNode :=
  if node.nodeState = .saving then { node with subpieces := ∅, nodeState := .disk } else node

/-- `buffer_set`: the map's keys are `uint16` pairs and an insert under an
existing key does nothing, so at most 65536 subpieces enter it. -/
def bufferSet (node : BlockNode) : List (SubPieceInfo × SubPieceBuffer) :=
  (List.range (min node.size (2 ^ 16))).map fun sidx =>
    (SubPieceInfo.make node.index sidx, (node.subpieces.lookup sidx).getD ⟨[], false⟩)

/-- The source asserts that the keys are exactly the indices below the size; the
model stops where that assertion fails. -/
def getBufferForSave (node : BlockNode) :
    Option (BlockNode × List (SubPieceInfo × SubPieceBuffer)) :=
  if !node.needWrite then some (node, [])
  else
    let node := { node with needWrite := false }
    match node.nodeState with
    | .all => some ({ node with nodeState := .disk, subpieces := ∅ }, [])
    | .mem =>
        if node.subpieces.keys = Finset.range node.size then
          some ({ node with nodeState := .saving }, node.bufferSet)
        else none
    | _ => some (node, [])

def resetForReDownload (node : BlockNode) : BlockNode :=
  { node with nodeState := .empty, pieceCount := node.pieceCount.map fun _ => 0 }

end BlockNode

end Storage
