import Peer.Basis.Loop
import Peer.Storage.AppBuffer

/-! The scans of the head of an MP4 file. A box tells its size and its type in 8 bytes; the
scans go from box to box by sizes that nobody checked. -/
namespace Storage

open Basis

/-- The bytes of a box type. -/
def boxType (name : String) : Bytes := name.toList.map fun c => UInt8.ofNat c.toNat

namespace Mp4Spliter

/-- `atom_t`, with an offset in the buffer for a pointer. -/
structure Atom where
  type : Bytes
  size : Nat
  start : Nat
deriving DecidableEq

namespace Atom

/-- `end_`, to which `atom_skip` goes. -/
def stop (atom : Atom) : Nat := atom.start + atom.size

def is (atom : Atom) (name : String) : Bool := atom.type == boxType name

end Atom

/-- `atom_read_header`: the type first, then the size. -/
def atomReadHeader (buf : Bytes) (p : Nat) : Checked Atom := do
  let type ← Checked.read buf (p + 4) 4
  let size ← Checked.read buf p 4
  .ok ⟨type, beValue size, p⟩

/-- The variables of the loop of `Mp4HeadLength`. -/
structure HeadScan where
  p : Nat
  headLength : Nat
  i : Nat
  moovAtom : Option Atom

/-- What the loop does with a box. -/
def HeadScan.next (s : HeadScan) (atom : Atom) : HeadScan :=
  if atom.is "ftyp" then { s with p := atom.stop, i := s.i + 1 }
  else if atom.is "moov" then
    { p := atom.stop
      headLength := u32 (s.p + atom.size + 8)
      i := s.i + 1
      moovAtom := some atom }
  else { s with p := atom.stop }

/-- A round of the loop of `Mp4HeadLength`. -/
def headRound (buf : Bytes) (s : HeadScan) : HeadScan ⊕ Checked HeadScan :=
  if s.p < buf.length ∧ s.i < 2 then
    match atomReadHeader buf s.p with
    | .error fault => .inr (.error fault)
    | .ok atom => .inl (s.next atom)
  else .inr (.ok s)

/-- `Mp4HeadLength`, with the box that its result is about. -/
def mp4HeadLength (head : AppBuffer) (rounds : Nat) : Option (Checked HeadScan) :=
  loop (headRound head.data) rounds ⟨0, 0, 0, none⟩

/-- The variables of the first loop of `Mp4HeadParse`. `used_size` has 32 bits. -/
structure ParseScan where
  p : Nat
  usedSize : Nat
  ftypData : Option Bytes
  moovData : Option Bytes

/-- How the first loop of `Mp4HeadParse` ends: with an empty buffer as the result, or with
the boxes it has copied. -/
inductive ParseEnd where
  | returnsEmpty
  | leaves (s : ParseScan)

/-- A round of the first loop of `Mp4HeadParse`. -/
def parseRound (head : AppBuffer) (s : ParseScan) : ParseScan ⊕ Checked ParseEnd :=
  if s.p < head.data.length then
    match atomReadHeader head.data s.p with
    | .error fault => .inr (.error fault)
    | .ok atom =>
      let skip (s : ParseScan) : ParseScan :=
        { s with p := atom.stop, usedSize := u32 (s.usedSize + atom.size) }
      if atom.is "ftyp" then
        if subU32 head.data.length s.usedSize < atom.size then .inr (.ok .returnsEmpty)
        else
          match Checked.copy head.data atom.start atom.size with
          | .error fault => .inr (.error fault)
          | .ok bytes => .inl (skip { s with ftypData := some bytes })
      else if atom.is "moov" then
        if subU32 head.data.length s.usedSize < atom.size then .inr (.ok .returnsEmpty)
        else
          match Checked.copy head.data atom.start atom.size with
          | .error fault => .inr (.error fault)
          | .ok bytes => .inl (skip { s with moovData := some bytes })
      else .inl (skip s)
  else .inr (.ok (.leaves s))

/-- The first loop of `Mp4HeadParse`. -/
def mp4HeadParse (head : AppBuffer) (rounds : Nat) : Option (Checked ParseEnd) :=
  loop (parseRound head) rounds ⟨0, 0, none, none⟩

/-- Both scans come to an end and read nothing outside the buffer. The length is 0, or that
of a `moov` box of the buffer with what precedes it and 8 bytes of the next header. -/
structure ScansSafely (head : AppBuffer) : Prop where
  length : Settles (mp4HeadLength head) fun result => ∃ s, result = .ok s ∧
    (s.headLength = 0 ∨ ∃ moov, s.moovAtom = some moov ∧ moov.is "moov" = true ∧
      atomReadHeader head.data moov.start = .ok moov ∧ s.headLength = moov.stop + 8)
  parse : Settles (mp4HeadParse head) fun result => ∃ e, result = .ok e

/-- What stands where a header is taken to be, of bytes beyond the end nothing. -/
def boxAt (buf : Bytes) (p : Nat) : Atom :=
  ⟨(buf.drop (p + 4)).take 4, beValue ((buf.drop p).take 4), p⟩

/-- The box is one of those that are counted and copied. -/
def Atom.IsHead (atom : Atom) : Prop := atom.is "ftyp" = true ∨ atom.is "moov" = true

instance (atom : Atom) : Decidable atom.IsHead := inferInstanceAs (Decidable (_ ∨ _))

/-- From box to box, with the number of `ftyp` and `moov` boxes, until there are two. -/
def nextHeadBox (buf : Bytes) : Nat × Nat → Option (Nat × Nat)
  | (p, i) =>
    if p + 8 ≤ buf.length ∧ i < 2 then
      some ((boxAt buf p).stop, if (boxAt buf p).IsHead then i + 1 else i)
    else none

/-- From box to box, until an `ftyp` or `moov` box cannot be copied. -/
def nextBox (buf : Bytes) (p : Nat) : Option Nat :=
  if p + 8 ≤ buf.length ∧ ((boxAt buf p).IsHead →
      (boxAt buf p).stop ≤ buf.length ∧ (boxAt buf p).size ≤ 0x3FFFFFFF) then
    some (boxAt buf p).stop
  else none

/-- The scan for the length comes to this box. -/
def HeadBox (buf : Bytes) (p i : Nat) : Prop :=
  Visits (nextHeadBox buf) (0, 0) (p, i) ∧ p < buf.length ∧ i < 2

/-- The last `moov` box the scan for the length comes to. -/
def LastMoov (buf : Bytes) (p : Nat) : Prop :=
  (boxAt buf p).is "moov" = true ∧ ∃ i, HeadBox buf p i ∧
    ∀ q j, Visits (nextHeadBox buf) ((boxAt buf p).stop, i + 1) (q, j) → q < buf.length → j < 2 →
      (boxAt buf q).is "moov" = false

/-- Wherever a scan comes to a box, its header is inside the buffer and its size is not 0
(for the length, if it is not an `ftyp` or `moov` box); what is copied has less than a
gigabyte; and the length of the last `moov` box does not wrap, unless to 0. -/
structure BoxesFit (head : AppBuffer) : Prop where
  length : ∀ p i, HeadBox head.data p i → p + 8 ≤ head.data.length ∧
    ((boxAt head.data p).size ≠ 0 ∨ (boxAt head.data p).IsHead)
  moov : ∀ p, LastMoov head.data p →
    (boxAt head.data p).stop + 8 < 2 ^ 32 ∨ u32 ((boxAt head.data p).stop + 8) = 0
  parse : ∀ p, Visits (nextBox head.data) 0 p → p < head.data.length → p + 8 ≤ head.data.length ∧
    (boxAt head.data p).size ≠ 0 ∧
    ((boxAt head.data p).IsHead → (boxAt head.data p).stop ≤ head.data.length →
      (boxAt head.data p).size ≤ 0x3FFFFFFF)

end Mp4Spliter

end Storage
