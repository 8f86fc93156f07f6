import Peer.Storage.Base

/-! Buffers that are views of a storage: an array of their own, or the content of a subpiece or
of a live subpiece. -/
namespace Base

open Basis Storage

/-- `BUF_NORMAL`, `BUF_SUBPIECE` and `BUF_LIVESUBPIECE`. -/
inductive BufType where
  | normal
  | subpiece
  | liveSubpiece
deriving DecidableEq

/-- `base::AppBuffer`. A null pointer is none. -/
structure AppBuffer where
  data : Option Bytes
  subpiece : Option Bytes
  liveSubpiece : Option Bytes
  length : Nat
  offset : Nat
  type : BufType
deriving DecidableEq

namespace AppBuffer

/-- The default constructor. -/
def empty : AppBuffer := ⟨none, none, none, 0, 0, .normal⟩

/-- The buffer of a `SubPieceBuffer` or of a `LiveSubPieceBuffer`. -/
def ofSubPiece (content : Bytes) (offset length : Nat) : AppBuffer :=
  ⟨none, some content, none, length, offset, .subpiece⟩

def ofLiveSubPiece (content : Bytes) (offset length : Nat) : AppBuffer :=
  ⟨none, none, some content, length, offset, .liveSubpiece⟩

/-- The constructor with a length, for what the new array holds. -/
def create (memory : Bytes) : AppBuffer := ⟨some memory, none, none, memory.length, 0, .normal⟩

variable (b : AppBuffer)

/-- The bytes that the type points to. -/
def storage : Bytes :=
  match b.type with
  | .normal => b.data.getD []
  | .subpiece => b.subpiece.getD []
  | .liveSubpiece => b.liveSubpiece.getD []

/-- Where `Data()` points in the storage. -/
def dataPos : Nat :=
  match b.type with
  | .normal => b.offset
  | .subpiece => 0
  | .liveSubpiece => 0

/-- `Length()` bytes from `Data()`; none if some are outside the storage. -/
def bytes : Option Bytes :=
  if b.dataPos + b.length ≤ b.storage.length then
    some ((b.storage.drop b.dataPos).take b.length)
  else none

/-- `SubBuffer(offset)`. -/
def subBufferFrom (offset : Nat) : AppBuffer :=
  if offset < b.length then
    { b with offset := u32 (b.offset + offset), length := subU32 b.length offset }
  else empty

/-- `SubBuffer(offset, length)`. -/
def subBuffer (offset length : Nat) : AppBuffer :=
  if u32 (offset + length) ≤ b.length then
    { b with offset := u32 (b.offset + offset), length := length }
  else empty

/-- `Add`, of a normal buffer; none if the copy is refused. -/
def add (bytes : Bytes) : Option (AppBuffer × Bool) :=
  if b.length < u32 (b.offset + bytes.length) then some (b, false)
  else if memcpy2Ok (subU32 b.length b.offset) bytes.length then
    some ({ b with data := some (b.storage.take b.offset ++ bytes ++
      b.storage.drop (b.offset + bytes.length)) }, true)
  else none

/-- `Extend`, for what the new array holds. The copy begins at the start of the storage. -/
def extend (length : Nat) (newArray : Nat → Bytes) : Option (AppBuffer × Bool) :=
  if b.type = .normal then
    let newLength := u32 (length + b.length)
    ((create (newArray newLength)).add (b.storage.take b.length)).map fun added =>
      ({ added.1 with offset := b.offset }, true)
  else some (b, false)

end AppBuffer

end Base
