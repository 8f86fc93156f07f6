import Peer.Storage.Mp4Head

/-! The walks that copy the `moov` box of an MP4 head without its `free` boxes. A walk over
the boxes of a container calls the one for the next container inside; it hands the number of
removed bytes up and writes the sizes of the containers that it has copied. -/
namespace Storage

open Basis

/-- `write_int32`. -/
def beBytes (n : Nat) : Bytes := (leBytes 4 n).reverse

namespace Mp4Spliter

/-- The variables of a walk: the position in the old buffer, what was written of the new one,
the removed bytes, and the written and read ones as far as they are counted. -/
structure FreeWalk where
  buffer : Nat
  written : Bytes
  rmSize : Nat
  readed : Nat
  usedSize : Nat

/-- The walk of a container: from a start and of a size, to the bytes that are written and
the number of removed ones; none is `has_error`. -/
abbrev ContainerWalk := Nat → Nat → Checked (Option (Bytes × Nat))

variable (buf : Bytes)

/-- `memcpy2` of a whole box to a place with room for this many bytes. -/
def copyAtom (room : Nat) (atom : Atom) : Checked Bytes :=
  if memcpy2Ok room atom.size then Checked.read buf atom.start atom.size else .error .copyAborts

/-- What a nested container becomes: 8 bytes of room are checked and the type is copied
before its walk. -/
def walkNested (walk : ContainerWalk) (newBufLength readed : Nat) (atom : Atom) :
    Checked (Option (Bytes × Nat)) :=
  if newBufLength < u32 (readed + 8) then .ok none
  else if memcpy2Ok (subU32 newBufLength (readed + 4)) 4 then
    walk (atom.start + 8) (subU32 atom.size 8)
  else .error .copyAborts

/-- A round of `stbl_rmfree`, `minf_rmfree`, `mdia_rmfree` and `trak_rmfree`. The removed
bytes of a nested container are added to those before it, and all taken off its size. -/
def rmfreeRound (nested : Option (String × ContainerWalk)) (newBufLength : Nat) (s : FreeWalk) :
    Checked (Option FreeWalk) := do
  let atom ← atomReadHeader buf s.buffer
  match nested.filter fun container => atom.is container.1 with
  | some (_, walk) =>
    match ← walkNested walk newBufLength s.readed atom with
    | none => .ok none
    | some (content, removed) =>
      let rmSize := u32 (s.rmSize + removed)
      .ok (some { s with
        buffer := atom.stop
        written := s.written ++ (beBytes (subU32 atom.size rmSize) ++ atom.type ++ content)
        rmSize
        readed := s.readed + (8 + content.length) })
  | none =>
    if atom.is "free" then
      .ok (some { s with buffer := atom.stop, rmSize := u32 (s.rmSize + atom.size) })
    else if newBufLength < u32 (s.readed + atom.size) then .ok none
    else
      let bytes ← copyAtom buf (subU32 newBufLength s.readed) atom
      .ok (some { s with
        buffer := atom.stop
        written := s.written ++ bytes
        readed := s.readed + atom.size })

/-- A round of `moov_rmfree`. The removed bytes of a nested container are counted apart, and
the copied boxes are checked against the read bytes instead of the written ones. -/
def moovRound (nested : Option (String × ContainerWalk)) (oldSize : Nat) (s : FreeWalk) :
    Checked (Option FreeWalk) := do
  let atom ← atomReadHeader buf s.buffer
  match nested.filter fun container => atom.is container.1 with
  | some (_, walk) =>
    match ← walkNested walk oldSize s.readed atom with
    | none => .ok none
    | some (content, rmTrakSize) =>
      .ok (some
        { buffer := atom.stop
          written := s.written ++ (beBytes (subU32 atom.size rmTrakSize) ++ atom.type ++ content)
          rmSize := u32 (s.rmSize + rmTrakSize)
          readed := s.readed + (8 + content.length)
          usedSize := s.usedSize + atom.size })
  | none =>
    if atom.is "free" then
      .ok (some { s with
        buffer := atom.stop
        rmSize := u32 (s.rmSize + atom.size)
        usedSize := s.usedSize + atom.size })
    else if subU32 oldSize s.usedSize < atom.size then .ok none
    else
      let bytes ← copyAtom buf (subU32 oldSize s.readed) atom
      .ok (some { s with
        buffer := atom.stop
        written := s.written ++ bytes
        usedSize := s.usedSize + atom.size })

/-- The loop over the boxes before an offset. More rounds than the buffer has bytes are only
needed where a box has no size and the loop never ends. -/
def rmfreeLoop (round : FreeWalk → Checked (Option FreeWalk)) (stop : Nat) :
    Nat → FreeWalk → Checked (Option FreeWalk)
  | 0, _ => .error .endless
  | rounds + 1, s =>
    if s.buffer < stop then do
      match ← round s with
      | none => .ok none
      | some s => rmfreeLoop round stop rounds s
    else .ok (some s)

/-- A walk made of its rounds, which know the size of the container. -/
def rmfreeBoxes (round : Nat → FreeWalk → Checked (Option FreeWalk)) : ContainerWalk :=
  fun start oldSize => do
    match ← rmfreeLoop (round oldSize) (start + oldSize) (buf.length + 1) ⟨start, [], 0, 0, 0⟩ with
    | none => .ok none
    | some s => .ok (some (s.written, s.rmSize))

def stblRmfree : ContainerWalk := rmfreeBoxes buf (rmfreeRound buf none)

def minfRmfree : ContainerWalk := rmfreeBoxes buf (rmfreeRound buf (some ("stbl", stblRmfree buf)))

def mdiaRmfree : ContainerWalk := rmfreeBoxes buf (rmfreeRound buf (some ("minf", minfRmfree buf)))

def trakRmfree : ContainerWalk := rmfreeBoxes buf (rmfreeRound buf (some ("mdia", mdiaRmfree buf)))

def moovRmfree : ContainerWalk := rmfreeBoxes buf (moovRound buf (some ("trak", trakRmfree buf)))

/-- `rm_freeatom` of the bytes of a `moov` box, up to the new buffer whose chunk offsets are
shifted then. -/
def rmFreeatom (moovData : Bytes) : Checked (Option Bytes) :=
  if memcpy2Ok (subU32 moovData.length 4) 4 then do
    match ← moovRmfree moovData 8 (moovData.length - 8) with
    | none => .ok none
    | some (content, rmSize) =>
      .ok (some (beBytes (subU32 moovData.length rmSize) ++ boxType "moov" ++ content))
  else .error .copyAborts

/-! ## Trees of boxes -/

/-- The containers, by how many others can be inside them. -/
def containerName : Nat → String
  | 0 => "stbl"
  | 1 => "minf"
  | 2 => "mdia"
  | _ => "trak"

/-- A box that is copied as it is among boxes with `depth` kinds of containers inside. -/
structure Leaf (depth : Nat) where
  type : Bytes
  payload : Bytes
  type_length : type.length = 4
  type_ne_free : type ≠ boxType "free"
  type_ne_container : ∀ inner, depth = inner + 1 → type ≠ boxType (containerName inner)

/-- The boxes of a container: `free` boxes, boxes that are copied, and containers. -/
inductive Boxes : Nat → Type where
  | nil {depth : Nat} : Boxes depth
  | free {depth : Nat} (payload : Bytes) (rest : Boxes depth) : Boxes depth
  | leaf {depth : Nat} (first : Leaf depth) (rest : Boxes depth) : Boxes depth
  | container {depth : Nat} (inner : Boxes depth) (rest : Boxes (depth + 1)) : Boxes (depth + 1)

/-- The bytes of a box: its size, its type and what is in it. -/
def boxBytes (type payload : Bytes) : Bytes := beBytes (8 + payload.length) ++ type ++ payload

namespace Boxes

def encode {depth : Nat} : Boxes depth → Bytes
  | .nil => []
  | .free payload rest => boxBytes (boxType "free") payload ++ encode rest
  | .leaf first rest => boxBytes first.type first.payload ++ encode rest
  | @container inside inner rest =>
    boxBytes (boxType (containerName inside)) (encode inner) ++ encode rest

/-- The same boxes without the `free` ones. -/
def withoutFree {depth : Nat} : Boxes depth → Boxes depth
  | .nil => .nil
  | .free _ rest => withoutFree rest
  | .leaf first rest => .leaf first (withoutFree rest)
  | .container inner rest => .container (withoutFree inner) (withoutFree rest)

/-- The bytes of the `free` boxes at all depths. -/
def removed {depth : Nat} : Boxes depth → Nat
  | .nil => 0
  | .free payload rest => 8 + payload.length + removed rest
  | .leaf _ rest => removed rest
  | .container inner rest => removed inner + removed rest

/-- No `free` box comes before a container in the container around them, directly or inside
an earlier container. `before` counts the bytes removed so far. -/
def FreeBehind {depth : Nat} : Boxes depth → Nat → Prop
  | .nil, _ => True
  | .free payload rest, before => FreeBehind rest (before + (8 + payload.length))
  | .leaf _ rest, before => FreeBehind rest before
  | .container inner rest, before =>
    before = 0 ∧ FreeBehind inner 0 ∧ FreeBehind rest (before + removed inner)

/-- So it is inside every container. -/
def InnerFreeBehind {depth : Nat} : Boxes depth → Prop
  | .nil => True
  | .free _ rest => InnerFreeBehind rest
  | .leaf _ rest => InnerFreeBehind rest
  | .container inner rest => FreeBehind inner 0 ∧ InnerFreeBehind rest

end Boxes

/-- The bytes of a `moov` box. Its tracks contain `mdia`, these `minf`, and these `stbl`. -/
def moovBytes (boxes : Boxes 4) : Bytes := boxBytes (boxType "moov") boxes.encode

end Mp4Spliter

end Storage
