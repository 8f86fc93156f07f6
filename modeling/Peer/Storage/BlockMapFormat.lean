import Peer.Storage.SubPieceManager

/-! The block map of a cfg file, as `ToBuffer` writes it and `Parse` reads it back.
The reader runs on bytes that nobody checked, so its model stops with a `Fault`
at the first action that the language or the format does not allow. -/
namespace Storage

open Basis

/-- What a run of the reader can do wrong. -/
inductive Fault where
  | wrappedSum
  | readOutside
  | writeOutside
  | copyAborts
  | endless
  | divisionByZero
deriving DecidableEq, Repr

abbrev Checked (α : Type) := Except Fault α

instance {α : Type} [DecidableEq α] : DecidableEq (Checked α)
  | .ok a, .ok b => decidable_of_iff (a = b) (by simp)
  | .error e, .error f => decidable_of_iff (e = f) (by simp)
  | .ok _, .error _ => .isFalse (by simp)
  | .error _, .ok _ => .isFalse (by simp)

namespace Checked

/-- The sum of an offset and a length in 32 bits. -/
def sum (offset length : Nat) : Checked Nat :=
  if offset + length < 2 ^ 32 then .ok (offset + length) else .error .wrappedSum

/-- Read `count` bytes at `offset`. -/
def read (buf : Bytes) (offset count : Nat) : Checked Bytes :=
  if offset + count ≤ buf.length then .ok ((buf.drop offset).take count) else .error .readOutside

/-- `AppBuffer(data, length)` copies with `memcpy2`. -/
def copy (buf : Bytes) (offset count : Nat) : Checked Bytes :=
  if memcpy2Ok count count then read buf offset count else .error .copyAborts

end Checked

/-- The unsigned integer of `width` bytes at `offset`. -/
def uintAt (buf : Bytes) (offset width : Nat) : Nat := leValue ((buf.drop offset).take width)

namespace BlockNode

/-- `CheckBuf`: the number in front and the number of bytes after it. -/
def checkBuf (buf : Bytes) : Option (Nat × Nat) :=
  if buf.length < 4 then none
  else some (uintAt buf 0 4, if uintAt buf 0 4 = 0 then 0 else buf.length - 4)

/-- The loop that reads the bitset of a piece word by word. Its counter is a
`boost::uint8_t`: after 256 rounds it is back where it was, so running out of
rounds means that the loop never ends. -/
def readWords (piecebuf : Bytes) (count : Nat) : Nat → Nat → Checked (List Nat)
  | 0, _ => .error .endless
  | rounds + 1, i =>
      if i < count then do
        let word ← Checked.read piecebuf (4 + i * 4) 4
        let words ← readWords piecebuf count rounds ((i + 1) % 256)
        .ok (leValue word :: words)
      else .ok []

/-- Bit `i` of the words after `resize(bitcount, true)`. -/
def bitAt (words : List Nat) (i : Nat) : Bool :=
  match words[i / 32]? with
  | some word => word.testBit (i % 32)
  | none => true

/-- `subpiece_set.count() < bitcount` after the flip: a zero bit is a subpiece
that is held. -/
def isPieceComplete (words : List Nat) (bitcount : Nat) : Bool :=
  !decide ((List.range bitcount).countP (fun i => !bitAt words i) < bitcount)

/-- How one round of the loop over the pieces ends: the function returns `false`,
the loop is left, or the count of a piece is written. -/
inductive PieceRound where
  | reject
  | leave (offset : Nat)
  | record (pieceIndex bitcount offset : Nat)
deriving DecidableEq

/-- One round of the loop of `Parse` at `offset`, for a node of `pieces` pieces. -/
def pieceRound (payload : Bytes) (pieces offset : Nat) : Checked PieceRound := do
  let headerEnd ← Checked.sum offset 6
  if payload.length < headerEnd then .ok .reject
  else
    let index ← Checked.read payload offset 2
    if pieces < leValue index then .ok .reject
    else
      let piecebuflen ← Checked.read payload (offset + 2) 4
      if leValue piecebuflen = 0 then .ok .reject
      else
        let stop ← Checked.sum (offset + 6) (leValue piecebuflen)
        if payload.length < stop then .ok .reject
        else
          let piecebuf ← Checked.copy payload (offset + 6) (leValue piecebuflen)
          match checkBuf piecebuf with
          | none => .ok .reject
          | some (bitcount, bitbuffersize) =>
              if bitbuffersize = 0 then .ok (.leave stop)
              else
                let words ← readWords piecebuf (bitbuffersize / 4) 257 0
                if isPieceComplete words bitcount then .ok (.record (leValue index) bitcount stop)
                else .ok (.leave stop)

/-- The loop of `Parse`; every round moves the offset, so `rounds` is no bound
when it starts at the length of the payload. The answer `none` is `false`. -/
def parsePieces (payload : Bytes) : Nat → Nat → BlockNode → Checked (Option (BlockNode × Nat))
  | 0, _, _ => .error .endless
  | rounds + 1, offset, node =>
      if offset < payload.length then do
        match ← pieceRound payload node.pieceCount.length offset with
        | .reject => .ok none
        | .leave offset => .ok (some (node, offset))
        | .record pieceIndex bitcount offset =>
            if pieceIndex < node.pieceCount.length then
              parsePieces payload rounds offset
                { node with pieceCount := node.pieceCount.set pieceIndex bitcount }
            else .error .writeOutside
      else .ok (some (node, offset))

/-- `BlockNode::Parse`. The outer option is the returned `bool`, the inner one the
pointer. -/
def parse (index : Nat) (buf : Bytes) : Checked (Option (Option BlockNode)) :=
  match checkBuf buf with
  | none => .ok none
  | some (total, size) =>
      if size = 0 then .ok (some none)
      else do
        match ← parsePieces (buf.drop 4) (size + 1) 0 (create index total false) with
        | none => .ok none
        | some (node, offset) =>
            .ok (some (if offset < size then none else some { node with nodeState := .disk }))

/-- `NullBlockToBuffer`. -/
def nullBlockToBuffer : Bytes := List.replicate 4 0

end BlockNode

/-- A heap buffer that is filled from the front. -/
structure ScratchBuffer where
  capacity : Nat
  bytes : Bytes

namespace ScratchBuffer

def write (buf : ScratchBuffer) (data : Bytes) : Option ScratchBuffer :=
  if memcpy2Ok (subU32 buf.capacity buf.bytes.length) data.length then
    some { buf with bytes := buf.bytes ++ data }
  else none

/-- Move to a buffer of twice the capacity. -/
def double (buf : ScratchBuffer) : Option ScratchBuffer :=
  if memcpy2Ok (u32 (buf.capacity * 2)) buf.bytes.length then
    some { buf with capacity := u32 (buf.capacity * 2) }
  else none

/-- Both writers double once when the next field and a reserve do not fit. -/
def reserve (buf : ScratchBuffer) (need : Nat) : Option ScratchBuffer :=
  if buf.capacity < u32 (buf.bytes.length + need) then buf.double else some buf

/-- `AppBuffer(tmp, buf_len)`. -/
def toAppBuffer (buf : ScratchBuffer) : Option Bytes :=
  if memcpy2Ok buf.bytes.length buf.bytes.length then some buf.bytes else none

end ScratchBuffer

namespace BlockNode

/-- One round of the loop of `BlockNode::ToBuffer`. On disk the piece buffer has
a length and no memory, so that copying into it stops the program. -/
def writePiece (node : BlockNode) (buf : ScratchBuffer) (pidx : Nat) : Option ScratchBuffer := do
  let buf ← buf.write (leBytes 2 pidx)
  if node.isBlockSavedOnDisk then none
  else
    let piecebuf := nullBlockToBuffer
    let buf ← buf.reserve (piecebuf.length + 1024)
    let buf ← buf.write (leBytes 4 piecebuf.length)
    buf.write piecebuf

/-- `BlockNode::ToBuffer`. The `boost::uint16_t` counter of its loop reaches no
bound above 65535. -/
def toBuffer (node : BlockNode) : Option Bytes :=
  if node.pieceCount.length < 2 ^ 16 then do
    let buf ← ScratchBuffer.write ⟨2 * 1024 * 32, []⟩ (leBytes 4 node.totalSubpieceCount)
    let buf ← (List.range node.pieceCount.length).foldlM (writePiece node) buf
    buf.toAppBuffer
  else none

end BlockNode

namespace SubPieceManager

variable {μ : Type} [BlockMap μ]

/-- The buffer of one block. -/
def blockBuffer (m : SubPieceManager μ) (b : Nat) : Option Bytes :=
  match m.nodeAt b with
  | none => some BlockNode.nullBlockToBuffer
  | some node => node.toBuffer

/-- One round of the loop of `ToBuffer`: only blocks without their bit are
written. -/
def writeBlock (m : SubPieceManager μ) (buf : ScratchBuffer) (b : Nat) : Option ScratchBuffer :=
  if m.hasFullBlock b then some buf
  else do
    let buf ← buf.write (leBytes 4 b)
    let blockBuf ← m.blockBuffer b
    let buf ← buf.write (leBytes 4 blockBuf.length)
    let buf ← buf.reserve (blockBuf.length + 256)
    buf.write blockBuf

def toBuffer (m : SubPieceManager μ) : Option Bytes := do
  let buf ← (List.range m.blocks.length).foldlM (writeBlock m) ⟨16 * 1024, []⟩
  buf.toAppBuffer

/-- The header and the payload of the record at `offset`, or `none` where `Parse`
gives up. -/
def blockRound (buf : Bytes) (count offset : Nat) : Checked (Option (Nat × Bytes × Nat)) := do
  let headerEnd ← Checked.sum offset 8
  if buf.length < headerEnd then .ok none
  else
    let index ← Checked.read buf offset 4
    if count ≤ leValue index then .ok none
    else
      let blockbuflen ← Checked.read buf (offset + 4) 4
      if leValue blockbuflen = 0 then .ok none
      else
        let stop ← Checked.sum (offset + 8) (leValue blockbuflen)
        if buf.length < stop then .ok none
        else
          let payload ← Checked.copy buf (offset + 8) (leValue blockbuflen)
          .ok (some (leValue index, payload, stop))

/-- What a parsed record does to the store and to `curr_null_subpiece_count`. -/
def applyRecord (m : SubPieceManager μ) (nulls index : Nat) (node? : Option BlockNode) :
    SubPieceManager μ × Nat :=
  let m := (m.setBit index false).setNode index node?
  match node? with
  | some node => (m, u32 (nulls + node.getCurrNullSubPieceCount))
  | none =>
      ({ m with blocksCount := subU32 m.blocksCount 1 },
        u32 (nulls + m.getBlockSubPieceCount index))

/-- The loop of `SubPieceManager::Parse`. -/
def parseBlocks (buf : Bytes) : Nat → Nat → SubPieceManager μ → Nat →
    Checked (Option (SubPieceManager μ × Nat))
  | 0, _, _, _ => .error .endless
  | rounds + 1, offset, m, nulls =>
      if offset < buf.length then do
        match ← blockRound buf m.blocks.length offset with
        | none => .ok none
        | some (index, payload, stop) =>
            match ← BlockNode.parse index payload with
            | none => .ok none
            | some node? =>
                let (m, nulls) := m.applyRecord nulls index node?
                parseBlocks buf rounds stop m nulls
      else .ok (some (m, nulls))

/-- The number of bytes that `Parse` computes from the number of missing
subpieces. -/
def parsedBytes (m : SubPieceManager μ) (nulls : Nat) : Nat :=
  if m.hasSubPiece m.lastSubpieceInfo then
    subU32 m.ridInfo.fileLength (u32 (nulls * bytesNumPerSubpiece))
  else
    subU32 m.ridInfo.fileLength (u32 (u32 (subU32 nulls 1 * bytesNumPerSubpiece) +
      m.ridInfo.fileLength % bytesNumPerSubpiece))

/-- `SubPieceManager::Parse`; `none` is the null pointer. The last step looks up
the block of the last subpiece, which a file without blocks does not have. -/
def parse (buf : Bytes) (r : RidInfo) (needVerifyBlock : Bool) :
    Checked (Option (SubPieceManager μ)) :=
  match new r true needVerifyBlock with
  | none => .error .divisionByZero
  | some m => do
      match ← parseBlocks buf (buf.length + 1) 0 m 0 with
      | none => .ok none
      | some (m, nulls) =>
          if m.lastSubpieceInfo.blockIndex < m.blocks.length then
            .ok (some { m with downloadBytes := m.parsedBytes nulls })
          else .error .readOutside

end SubPieceManager

end Storage
