import Peer.Storage.AppBuffer

/-! The reader of the metadata of an FLV file. Records of the `onMetaData` array follow one
another; each has a name, a type and a value of that type. -/
namespace Storage

open Basis

namespace MetaFLVParser

/-- Whether the structures are packed, as `PEER_PC_CLIENT` has them. -/
inductive Packing where
  | packed
  | aligned
deriving DecidableEq

/-- `sizeof(FLVHeader)`. -/
def Packing.headerSize : Packing → Nat
  | .packed => 9
  | .aligned => 12

/-- `sizeof(ScriptDataDate)`: a double and a short. -/
def Packing.dateSize : Packing → Nat
  | .packed => 10
  | .aligned => 16

/-- `sizeof(FLVTag)`, which has bytes only. -/
def tagSize : Nat := 11

/-- The value of a property: a double by its bytes, a byte, or a string. -/
inductive Property where
  | number (bytes : Bytes)
  | boolean (bytes : Bytes)
  | text (bytes : Bytes)

/-- `PropertyMap`, by names. -/
abbrev PropertyMap := Bytes → Option Property

/-- `properties_[name] = value`. -/
def PropertyMap.set (properties : PropertyMap) (name : Bytes) (value : Property) : PropertyMap :=
  fun other => if other = name then some value else properties other

/-- How `Parse` goes on: it returns, or it is at an offset. -/
inductive Progress where
  | returns (properties : PropertyMap)
  | at (offset : Nat) (properties : PropertyMap)

variable (buf : Bytes) (packing : Packing)

/-- `offset += size; if (offset >= length) return;` -/
def advance (offset size : Nat) (properties : PropertyMap) (k : Nat → Checked Progress) :
    Checked Progress := do
  let offset ← Checked.sum offset size
  if buf.length ≤ offset then .ok (.returns properties) else k offset

/-- A string after its length, which has `width` bytes. -/
def readString (offset width : Nat) (properties : PropertyMap)
    (k : Bytes → Nat → Checked Progress) : Checked Progress :=
  advance buf offset width properties fun start => do
    let length ← Checked.read buf offset width
    let stop ← Checked.sum start (beValue length)
    if buf.length ≤ stop then .ok (.returns properties)
    else
      let text ← Checked.read buf start (beValue length)
      advance buf start (beValue length) properties (k text)

/-- The value of a record, at `offset` behind its type. -/
def readValue (offset : Nat) (type : Nat) (name : Bytes) (properties : PropertyMap) :
    Checked Progress :=
  match type with
  | 0x00 => do
    let double ← Checked.read buf offset 8
    let properties := properties.set name (.number double)
    advance buf offset 8 properties fun offset => .ok (.at offset properties)
  | 0x01 => do
    let boolean ← Checked.read buf offset 1
    let properties := properties.set name (.boolean boolean)
    advance buf offset 1 properties fun offset => .ok (.at offset properties)
  | 0x02 =>
    readString buf offset 2 properties fun text offset =>
      .ok (.at offset (properties.set name (.text text)))
  | 0x0B => advance buf offset packing.dateSize properties fun offset => .ok (.at offset properties)
  | 0x0C =>
    readString buf offset 4 properties fun text offset =>
      .ok (.at offset (properties.set name (.text text)))
  | 0x0A => do
    -- The only value after which the offset is not compared with the length.
    let offset ← Checked.sum offset 4
    .ok (.at offset properties)
  | _ => .ok (.at offset properties)

/-- A round of the loop over the array. -/
def readRecord (offset : Nat) (properties : PropertyMap) : Checked Progress := do
  let mark ← Checked.read buf offset 3
  if beValue mark = 0x09 then .ok (.returns properties)
  else
    readString buf offset 2 properties fun name offset => do
      let type ← Checked.read buf offset 1
      advance buf offset 1 properties fun offset =>
        readValue buf packing offset (beValue type) name properties

/-- The loop over the array. -/
def readRecords : Nat → Nat → PropertyMap → Checked PropertyMap
  | 0, _, properties => .ok properties
  | count + 1, offset, properties => do
    match ← readRecord buf packing offset properties with
    | .returns properties => .ok properties
    | .at offset properties => readRecords count offset properties

/-- The metadata behind the name of the script data. -/
def readMeta (name : Bytes) (offset : Nat) (properties : PropertyMap) : Checked Progress := do
  if name = "onMetaData".toList.map (fun c => UInt8.ofNat c.toNat) then
    let type ← Checked.read buf offset 1
    advance buf offset 1 properties fun offset => do
      if beValue type = 0x08 then
        let count ← Checked.read buf offset 4
        advance buf offset 4 properties fun offset => do
          let properties ← readRecords buf packing (beValue count) offset properties
          .ok (.returns properties)
      else .ok (.returns properties)
  else .ok (.returns properties)

/-- `Parse` of a buffer that is there. -/
def parse (buffer : AppBuffer) : Checked Progress :=
  advance buffer.data 0 packing.headerSize (fun _ => none) fun offset =>
    advance buffer.data offset 4 (fun _ => none) fun offset => do
      let tagType ← Checked.read buffer.data offset 1
      if beValue tagType = 0x12 then
        advance buffer.data offset tagSize (fun _ => none) fun offset =>
          advance buffer.data offset 1 (fun _ => none) fun offset =>
            readString buffer.data offset 2 (fun _ => none) fun name offset =>
              readMeta buffer.data packing name offset fun _ => none
      else .ok (.returns fun _ => none)

end MetaFLVParser

end Storage
