import Peer.Basis.Loop
import Peer.Basis.LittleEndian

/-! The head of a file that comes compressed: what is received goes through `inflate` into
buffers of the size of a subpiece. -/
namespace P2S

open Basis

/-- What `inflate` returns. -/
inductive Ret where
  | ok
  | streamEnd
  | needDict
  | dataError
  | memError
  | bufError
  | streamError
  deriving DecidableEq

/-- `inflate` has returned: what is left of its input and what it has put out. -/
structure Inflated (Stream : Type) where
  ret : Ret
  stream : Stream
  left : Bytes
  output : Bytes

/-- The library. -/
structure Zlib (Stream : Type) where
  inflateInit : Stream
  inflate : Stream → Bytes → Nat → Inflated Stream
  inflateEnd : Stream → Stream

/-- `SUB_PIECE_SIZE`. -/
def subPieceSize : Nat := 1024

structure GzipDecompresser (Stream : Type) where
  handler : Bool
  isDecompressComplete : Bool
  stream : Stream
  subPieceBufferDeque : List Bytes

/-- `OnRecvData` has returned, and what the listener was handed. -/
structure Answer where
  result : Bool
  handed : Option (List Bytes)
  deriving DecidableEq

section Calls

variable {Stream : Type} (zlib : Zlib Stream)

namespace GzipDecompresser

/-- The constructor. -/
def create : GzipDecompresser Stream := ⟨false, false, zlib.inflateInit, []⟩

/-- `Start` with a listener. -/
def start (decompresser : GzipDecompresser Stream) : GzipDecompresser Stream :=
  { decompresser with handler := true, isDecompressComplete := false }

def stop (decompresser : GzipDecompresser Stream) : GzipDecompresser Stream :=
  { decompresser with handler := false, subPieceBufferDeque := [] }

/-- The buffer that is filled next, and the buffers before it: a new one if there is none or the
last is full. -/
def nextBuffer (deque : List Bytes) : List Bytes × Bytes :=
  match deque.getLast? with
  | none => (deque, [])
  | some buffer => if buffer.length = subPieceSize then (deque, []) else (deque.dropLast, buffer)

/-- A round of the loop in `Decompress`. -/
def round : GzipDecompresser Stream × Bytes →
    GzipDecompresser Stream × Bytes ⊕ GzipDecompresser Stream
  | (decompresser, src) =>
    let (front, buffer) := nextBuffer decompresser.subPieceBufferDeque
    let availOut := subPieceSize - buffer.length
    let inflated := zlib.inflate decompresser.stream src availOut
    let filled := front ++ [buffer ++ inflated.output]
    let loops (decompresser : GzipDecompresser Stream) :=
      if availOut - inflated.output.length = 0 then .inl (decompresser, inflated.left)
      else .inr decompresser
    match inflated.ret with
    | .ok => loops { decompresser with stream := inflated.stream, subPieceBufferDeque := filled }
    | .streamEnd =>
      .inr { decompresser with
        stream := zlib.inflateEnd inflated.stream
        subPieceBufferDeque := filled
        isDecompressComplete := true }
    | .needDict | .dataError | .memError =>
      .inr { decompresser with
        stream := zlib.inflateEnd inflated.stream
        subPieceBufferDeque := front ++ [buffer] }
    | .bufError | .streamError =>
      loops { decompresser with
        stream := inflated.stream
        subPieceBufferDeque := front ++ [buffer] }

def decompress (rounds : Nat) (decompresser : GzipDecompresser Stream) (src : Bytes) :
    Option (GzipDecompresser Stream) :=
  loop (round zlib) rounds (decompresser, src)

def onRecvData (rounds : Nat) (decompresser : GzipDecompresser Stream) (buffer : Bytes)
    (fileOffset : Nat) : Option (GzipDecompresser Stream × Answer) :=
  if 512 * 1024 ≤ fileOffset then some (decompresser, ⟨true, none⟩)
  else
    (if decompresser.isDecompressComplete then some decompresser
      else decompresser.decompress zlib rounds buffer).map fun decompresser =>
    if decompresser.isDecompressComplete && decompresser.handler then
      (decompresser.stop, ⟨true, some decompresser.subPieceBufferDeque⟩)
    else (decompresser, ⟨false, none⟩)

/-- The buffers as they are received, the first at an offset in the file. -/
def receive (rounds : Nat) : GzipDecompresser Stream → Nat → List Bytes → Option (List Answer)
  | _, _, [] => some []
  | decompresser, fileOffset, buffer :: buffers =>
    (decompresser.onRecvData zlib rounds buffer fileOffset).bind fun (decompresser, answer) =>
      (receive rounds decompresser (fileOffset + buffer.length) buffers).map (answer :: ·)

end GzipDecompresser

end Calls

end P2S
