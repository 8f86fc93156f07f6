import Peer.P2P.UploadConnections

/-! The snapshot of the statistics: a main record and three lists of records, each written by an
archive of its own behind what the outer archive has written. -/
namespace Statistic

open Basis P2P

/-- What the archive of a record writes, and what it reads from the bytes behind it: the record
and how many bytes it took, or none on an error. -/
structure RecordArchive (Record : Type) where
  encode : Record → Bytes
  decode : Bytes → Option (Record × Nat)
  /-- It reads back what it wrote. -/
  decode_encode : ∀ record more, decode (encode record ++ more) = some (record, (encode record).length)
  /-- It does not move past the end. -/
  decode_le : ∀ bytes record taken, decode bytes = some (record, taken) → taken ≤ bytes.length
  /-- A record has fields. -/
  encode_ne_nil : ∀ record, encode record ≠ []

/-- A size as the `int` that is made of it. -/
def intSize (n : Nat) : Int := asInt32 (n % 2 ^ 32)

theorem intSize_of_lt {n : Nat} (h : n < 2 ^ 31) : intSize n = n := by
  unfold intSize asInt32
  rw [Nat.mod_eq_of_lt (by omega), if_pos h]

theorem toNat_intSize_le (n : Nat) : (intSize n).toNat ≤ n := by
  unfold intSize asInt32
  have hMod : n % 2 ^ 32 ≤ n := Nat.mod_le _ _
  split <;> omega

/-- `StatisticsData`. -/
structure StatisticsData (Main P2P Vod Live : Type) where
  statisticsInfo : Main
  p2pDownloaderStatistics : List P2P
  vodDownloadDriverStatistics : List Vod
  liveDownloadDriverStatistics : List Live

/-- The outer archive over the committed bytes of its buffer. -/
structure Output where
  bytes : Bytes
  ok : Bool

/-- The archive over what is left of its buffer. -/
structure Input where
  left : Bytes
  ok : Bool

section Codec

variable {Record Main P2P Vod Live : Type}

namespace Output

/-- `output <<`: a value that does not fit makes the archive fail. -/
def put (maxSize : Nat) (output : Output) (value : Bytes) : Output :=
  if output.ok then
    if output.bytes.length + value.length ≤ maxSize then ⟨output.bytes ++ value, true⟩
    else ⟨output.bytes, false⟩
  else output

/-- An `int`. -/
def putInt (maxSize : Nat) (output : Output) (n : Nat) : Output :=
  output.put maxSize (leBytes 4 n)

/-- A record by an archive of its own, in the rest of the buffer: it is committed if something
was serialized. -/
def putRecord (maxSize : Nat) (output : Output) (record : Bytes) : Output :=
  let bytesSerialized : Int :=
    if output.bytes.length + record.length ≤ maxSize then intSize record.length else -1
  if 0 < bytesSerialized then
    { output with bytes := output.bytes ++ record.take bytesSerialized.toNat }
  else output

/-- The loop over a list. -/
def putRecords (maxSize : Nat) (archive : RecordArchive Record) (output : Output)
    (records : List Record) : Output :=
  if output.ok then
    (records.take (intSize records.length).toNat).foldl
      (fun output record => output.putRecord maxSize (archive.encode record)) output
  else output

end Output

namespace Input

/-- `input >>` of an `int` that is 0 before. -/
def getInt (input : Input) : Int × Input :=
  if input.ok ∧ 4 ≤ input.left.length then
    (asInt32 (leValue (input.left.take 4)), { input with left := input.left.drop 4 })
  else (0, { input with ok := false })

/-- The loop over a list of `n` records; none when an archive of a record has moved past the
end of the buffer. -/
def getRecords (archive : RecordArchive Record) :
    Nat → Input → List Record → Option (Input × List Record)
  | 0, input, records => some (input, records)
  | n + 1, input, records =>
    if input.ok then
      match archive.decode input.left with
      | none => getRecords archive n input records
      | some (record, taken) =>
        if 0 < intSize taken then
          if (intSize taken).toNat ≤ input.left.length then
            getRecords archive n { input with left := input.left.drop (intSize taken).toNat }
              (records ++ [record])
          else none
        else getRecords archive n input records
    else some (input, records)

/-- A count and the list. -/
def getList (archive : RecordArchive Record) (input : Input) : Option (Input × List Record) :=
  let (count, input) := input.getInt
  getRecords archive count.toNat input []

end Input

variable (main : RecordArchive Main) (p2p : RecordArchive P2P) (vod : RecordArchive Vod)
  (live : RecordArchive Live)

/-- What the outer archive holds at the end of `Serialize`. -/
def output (data : StatisticsData Main P2P Vod Live) (maxSize : Nat) : Output :=
  let output : Output := ⟨[], true⟩
  let output := output.put maxSize (main.encode data.statisticsInfo)
  let output := output.putInt maxSize data.p2pDownloaderStatistics.length
  let output := output.putRecords maxSize p2p data.p2pDownloaderStatistics
  let output := output.putInt maxSize data.vodDownloadDriverStatistics.length
  let output := output.putRecords maxSize vod data.vodDownloadDriverStatistics
  let output := output.putInt maxSize data.liveDownloadDriverStatistics.length
  output.putRecords maxSize live data.liveDownloadDriverStatistics

/-- `Serialize`, with the bytes it leaves. -/
def serialize (data : StatisticsData Main P2P Vod Live) (maxSize : Nat) : Int × Bytes :=
  let output := output main p2p vod live data maxSize
  (if output.ok then intSize output.bytes.length else -1, output.bytes)

/-- `Deserialize` into an object with a main record; none when something outside the buffer
would be read. -/
def deserialize (before : Main) (bytes : Bytes) :
    Option (Int × StatisticsData Main P2P Vod Live) :=
  let (statisticsInfo, input) : Main × Input :=
    match main.decode bytes with
    | some (record, taken) => (record, ⟨bytes.drop taken, true⟩)
    | none => (before, ⟨bytes, false⟩)
  (input.getList p2p).bind fun (input, p2ps) =>
  (input.getList vod).bind fun (input, vods) =>
  (input.getList live).map fun (input, lives) =>
  (if input.ok then intSize (bytes.length - input.left.length) else -1,
    ⟨statisticsInfo, p2ps, vods, lives⟩)

end Codec

end Statistic
