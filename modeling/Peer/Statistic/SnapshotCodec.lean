import Peer.Statistic.Snapshot

/-! When a snapshot of the statistics reads back: a record that does not fit is left out, and
only a count that does not fit makes the whole fail. -/
namespace Statistic

open Basis P2P

section Codec

variable {Record Main P2P Vod Live : Type} {maxSize : Nat}

/-- The records of a list, one behind the other. -/
def encodeAll (archive : RecordArchive Record) (records : List Record) : Bytes :=
  records.flatMap archive.encode

/-- A list with its count. -/
def encodeList (archive : RecordArchive Record) (records : List Record) : Bytes :=
  leBytes 4 records.length ++ encodeAll archive records

/-- Where the buffer is filled up to when the records that do not fit are left out. -/
def packed (maxSize pos : Nat) (sizes : List Nat) : Nat :=
  sizes.foldl (fun pos size => if pos + size ≤ maxSize then pos + size else pos) pos

/-- The sizes of the records. -/
def sizesOf (archive : RecordArchive Record) (records : List Record) : List Nat :=
  records.map fun record => (archive.encode record).length

theorem encode_pos (archive : RecordArchive Record) (record : Record) :
    0 < (archive.encode record).length := List.length_pos_of_ne_nil (archive.encode_ne_nil record)

theorem encodeAll_cons (archive : RecordArchive Record) (record : Record) (records : List Record) :
    encodeAll archive (record :: records) = archive.encode record ++ encodeAll archive records :=
  List.flatMap_cons

/-- A record has at least one byte. -/
theorem length_le_encodeAll (archive : RecordArchive Record) (records : List Record) :
    records.length ≤ (encodeAll archive records).length := by
  induction records with
  | nil => exact Nat.le_refl _
  | cons record records ih =>
      have hRecord := encode_pos archive record
      rw [encodeAll_cons, List.length_append, List.length_cons]
      omega

namespace Output

@[simp] theorem put_of_not_ok {output : Output} (h : output.ok = false) (value : Bytes) :
    output.put maxSize value = output := by
  unfold put
  rw [h, if_neg Bool.false_ne_true]

@[simp] theorem putInt_of_not_ok {output : Output} (h : output.ok = false) (n : Nat) :
    output.putInt maxSize n = output := put_of_not_ok h _

@[simp] theorem putRecords_of_not_ok {output : Output} (h : output.ok = false)
    (archive : RecordArchive Record) (records : List Record) :
    output.putRecords maxSize archive records = output := by
  unfold putRecords
  rw [h, if_neg Bool.false_ne_true]

theorem put_of_le {bytes value : Bytes} (h : bytes.length + value.length ≤ maxSize) :
    (⟨bytes, true⟩ : Output).put maxSize value = ⟨bytes ++ value, true⟩ := by
  unfold put
  rw [if_pos rfl, if_pos h]

theorem put_of_lt {bytes value : Bytes} (h : maxSize < bytes.length + value.length) :
    (⟨bytes, true⟩ : Output).put maxSize value = ⟨bytes, false⟩ := by
  unfold put
  rw [if_pos rfl, if_neg (Nat.not_le.mpr h)]

/-- A record whose size an `int` can tell is written if it fits. -/
theorem putRecord_eq {record : Bytes} (hPos : 0 < record.length) (hSize : record.length < 2 ^ 31)
    (output : Output) :
    output.putRecord maxSize record =
      if output.bytes.length + record.length ≤ maxSize then
        { output with bytes := output.bytes ++ record }
      else output := by
  unfold putRecord
  rw [intSize_of_lt hSize]
  by_cases hFits : output.bytes.length + record.length ≤ maxSize
  · rw [if_pos hFits, if_pos hFits, if_pos (by omega), Int.toNat_natCast, List.take_length]
  · rw [if_neg hFits, if_neg hFits]
    rfl

/-- The loop goes over all of a list whose length an `int` can tell. -/
theorem putRecords_eq (archive : RecordArchive Record) {records : List Record}
    (hSize : (encodeAll archive records).length < 2 ^ 31) (bytes : Bytes) :
    (⟨bytes, true⟩ : Output).putRecords maxSize archive records =
      records.foldl (fun output record => output.putRecord maxSize (archive.encode record))
        ⟨bytes, true⟩ := by
  unfold putRecords
  rw [if_pos rfl, intSize_of_lt ((length_le_encodeAll archive records).trans_lt hSize),
    Int.toNat_natCast, List.take_length]

/-- A list of records keeps the archive and fills its buffer. -/
theorem putRecords_cases (maxSize : Nat) (archive : RecordArchive Record) (records : List Record)
    (bytes : Bytes) (hSize : (encodeAll archive records).length < 2 ^ 31) :
    ∃ bytes', (⟨bytes, true⟩ : Output).putRecords maxSize archive records = ⟨bytes', true⟩ ∧
      bytes'.length = packed maxSize bytes.length (sizesOf archive records) := by
  rw [putRecords_eq archive hSize]
  induction records generalizing bytes with
  | nil => exact ⟨bytes, rfl, rfl⟩
  | cons record records ih =>
      rw [encodeAll_cons, List.length_append] at hSize
      rw [List.foldl_cons, putRecord_eq (encode_pos archive record) (by omega)]
      unfold packed sizesOf
      rw [List.map_cons, List.foldl_cons]
      by_cases hFits : bytes.length + (archive.encode record).length ≤ maxSize
      · rw [if_pos hFits, if_pos hFits, ← List.length_append]
        exact ih _ (by omega)
      · rw [if_neg hFits, if_neg hFits]
        exact ih _ (by omega)

/-- Records that all fit are written. -/
theorem putRecords_of_le (archive : RecordArchive Record) (records : List Record) (bytes : Bytes)
    (hSize : (encodeAll archive records).length < 2 ^ 31)
    (h : bytes.length + (encodeAll archive records).length ≤ maxSize) :
    (⟨bytes, true⟩ : Output).putRecords maxSize archive records =
      ⟨bytes ++ encodeAll archive records, true⟩ := by
  rw [putRecords_eq archive hSize]
  induction records generalizing bytes with
  | nil => simp [encodeAll]
  | cons record records ih =>
      rw [encodeAll_cons, List.length_append] at h hSize
      have hFits : bytes.length + (archive.encode record).length ≤ maxSize := by omega
      rw [List.foldl_cons, putRecord_eq (encode_pos archive record) (by omega), if_pos hFits,
        encodeAll_cons, ← List.append_assoc]
      dsimp only
      apply ih _ (by omega)
      rw [List.length_append]
      omega

/-- A count and a list: either the count fits and the buffer is filled, or the archive fails. -/
theorem putList_cases (maxSize : Nat) (archive : RecordArchive Record) (records : List Record)
    (bytes : Bytes) (hSize : (encodeAll archive records).length < 2 ^ 31) :
    (bytes.length + 4 ≤ maxSize ∧ ∃ bytes',
      ((⟨bytes, true⟩ : Output).putInt maxSize records.length).putRecords maxSize archive records =
        ⟨bytes', true⟩ ∧
      bytes'.length = packed maxSize (bytes.length + 4) (sizesOf archive records)) ∨
    (maxSize < bytes.length + 4 ∧
      ((⟨bytes, true⟩ : Output).putInt maxSize records.length).putRecords maxSize archive records =
        ⟨bytes, false⟩) := by
  have hLength : (leBytes 4 records.length).length = 4 := leBytes_length 4 _
  unfold putInt
  by_cases hFits : bytes.length + 4 ≤ maxSize
  · obtain ⟨bytes', hBytes, hPacked⟩ :=
      putRecords_cases maxSize archive records (bytes ++ leBytes 4 records.length) hSize
    rw [List.length_append, hLength] at hPacked
    rw [put_of_le (by rw [hLength]; exact hFits)]
    exact .inl ⟨hFits, bytes', hBytes, hPacked⟩
  · rw [put_of_lt (by rw [hLength]; omega), putRecords_of_not_ok rfl]
    exact .inr ⟨by omega, rfl⟩

/-- A list that fits is written. -/
theorem putList_of_le (archive : RecordArchive Record) (records : List Record) (bytes : Bytes)
    (hSize : (encodeAll archive records).length < 2 ^ 31)
    (h : bytes.length + (encodeList archive records).length ≤ maxSize) :
    ((⟨bytes, true⟩ : Output).putInt maxSize records.length).putRecords maxSize archive records =
      ⟨bytes ++ encodeList archive records, true⟩ := by
  unfold encodeList at *
  rw [List.length_append] at h
  rw [putInt, put_of_le (by omega), putRecords_of_le archive records _ hSize
    (by rw [List.length_append]; omega), List.append_assoc]

theorem length_put_le (maxSize : Nat) (output : Output) (value : Bytes) :
    (output.put maxSize value).bytes.length ≤ output.bytes.length + value.length := by
  unfold put
  split
  · split <;> simp
  · exact Nat.le_add_right _ _

theorem length_putRecord_le (maxSize : Nat) (output : Output) (record : Bytes) :
    (output.putRecord maxSize record).bytes.length ≤ output.bytes.length + record.length := by
  unfold putRecord
  dsimp only
  generalize (if output.bytes.length + record.length ≤ maxSize then intSize record.length
    else -1) = bytesSerialized
  split
  · rw [List.length_append]
    exact Nat.add_le_add_left (List.length_take_le' _ _) _
  · exact Nat.le_add_right _ _

theorem length_putRecords_le (maxSize : Nat) (archive : RecordArchive Record) (output : Output)
    (records : List Record) :
    (output.putRecords maxSize archive records).bytes.length ≤
      output.bytes.length + (encodeAll archive records).length := by
  unfold putRecords
  split
  · rename_i hOk
    clear hOk
    generalize (intSize records.length).toNat = n
    induction records generalizing output n with
    | nil => simp
    | cons record records ih =>
        rw [encodeAll_cons, List.length_append]
        cases n with
        | zero => exact Nat.le_add_right _ _
        | succ n =>
            rw [List.take_succ_cons, List.foldl_cons]
            have hRest := ih (output.putRecord maxSize (archive.encode record)) n
            have hRecord := length_putRecord_le maxSize output (archive.encode record)
            omega
  · exact Nat.le_add_right _ _

/-- No more is written than there is. -/
theorem length_putList_le (maxSize : Nat) (archive : RecordArchive Record) (output : Output)
    (records : List Record) :
    ((output.putInt maxSize records.length).putRecords maxSize archive records).bytes.length ≤
      output.bytes.length + (encodeList archive records).length := by
  have hRecords := length_putRecords_le maxSize archive
    (output.putInt maxSize records.length) records
  have hCount : (output.putInt maxSize records.length).bytes.length ≤ _ :=
    length_put_le maxSize output _
  rw [encodeList, List.length_append]
  omega

end Output

namespace Input

variable {n : Nat} {more : Bytes}

/-- The count of a list. -/
theorem getInt_append (hn : n < 2 ^ 31) :
    (⟨leBytes 4 n ++ more, true⟩ : Input).getInt = ((n : Int), ⟨more, true⟩) := by
  unfold getInt
  dsimp only
  rw [if_pos ⟨rfl, by simp⟩, List.take_left' (leBytes_length 4 n),
    List.drop_left' (leBytes_length 4 n), leValue_leBytes (by omega)]
  unfold asInt32
  rw [if_pos hn]

/-- The records read back. -/
theorem getRecords_append (archive : RecordArchive Record) (records prior : List Record)
    (hSize : (encodeAll archive records).length < 2 ^ 31) :
    getRecords archive records.length ⟨encodeAll archive records ++ more, true⟩ prior =
      some (⟨more, true⟩, prior ++ records) := by
  induction records generalizing prior with
  | nil => simp [getRecords, encodeAll]
  | cons record records ih =>
      have hPos := encode_pos archive record
      rw [encodeAll_cons, List.length_append] at hSize
      rw [List.length_cons, getRecords, if_pos rfl, encodeAll_cons, List.append_assoc]
      dsimp only
      rw [archive.decode_encode]
      dsimp only
      rw [intSize_of_lt (by omega), if_pos (by omega), Int.toNat_natCast, if_pos (by simp),
        List.drop_left, ih _ (by omega)]
      simp

theorem getList_append (archive : RecordArchive Record) {records : List Record}
    (hSize : (encodeAll archive records).length < 2 ^ 31) :
    (⟨encodeList archive records ++ more, true⟩ : Input).getList archive =
      some (⟨more, true⟩, records) := by
  unfold getList encodeList
  rw [List.append_assoc, getInt_append ((length_le_encodeAll archive records).trans_lt hSize)]
  dsimp only
  rw [Int.toNat_natCast, getRecords_append archive records [] hSize, List.nil_append]

/-- No record is read outside the buffer. -/
theorem exists_getRecords (archive : RecordArchive Record) (n : Nat) (input : Input)
    (records : List Record) : ∃ result, getRecords archive n input records = some result := by
  induction n generalizing input records with
  | zero => exact ⟨_, rfl⟩
  | succ n ih =>
      rw [getRecords]
      split
      · split
        · exact ih _ _
        · rename_i record taken hRead
          split
          · rw [if_pos ((toNat_intSize_le taken).trans (archive.decode_le _ _ _ hRead))]
            exact ih _ _
          · exact ih _ _
      · exact ⟨_, rfl⟩

theorem exists_getList (archive : RecordArchive Record) (input : Input) :
    ∃ result, input.getList archive = some result := exists_getRecords _ _ _ _

end Input

/-! ## The whole snapshot -/

section Snapshot

variable (main : RecordArchive Main) (p2p : RecordArchive P2P) (vod : RecordArchive Vod)
  (live : RecordArchive Live) (data : StatisticsData Main P2P Vod Live)

/-- The whole of the data. -/
def encoded : Bytes :=
  main.encode data.statisticsInfo ++
    (encodeList p2p data.p2pDownloaderStatistics ++
      (encodeList vod data.vodDownloadDriverStatistics ++
        encodeList live data.liveDownloadDriverStatistics))

/-- Where the first list ends when the records that do not fit are left out. -/
def p2pEnd (maxSize : Nat) : Nat :=
  packed maxSize ((main.encode data.statisticsInfo).length + 4)
    (sizesOf p2p data.p2pDownloaderStatistics)

/-- Where the second list ends. -/
def vodEnd (maxSize : Nat) : Nat :=
  packed maxSize (p2pEnd main p2p data maxSize + 4) (sizesOf vod data.vodDownloadDriverStatistics)

/-- The main record and the counts fit. -/
def CountsFit (maxSize : Nat) : Prop :=
  (main.encode data.statisticsInfo).length + 4 ≤ maxSize ∧
    p2pEnd main p2p data maxSize + 4 ≤ maxSize ∧ vodEnd main p2p vod data maxSize + 4 ≤ maxSize

/-- The whole has a size that an `int` can tell. -/
def IntSized : Prop := (encoded main p2p vod live data).length < 2 ^ 31

/-- The claims about a snapshot: what was serialized reads back, and what does not fit is
refused. -/
structure SnapshotRight (maxSize : Nat) : Prop where
  readsBack : ∀ n : Nat, (serialize main p2p vod live data maxSize).1 = n →
    ∀ before, deserialize main p2p vod live before (serialize main p2p vod live data maxSize).2 =
      some ((n : Int), data)
  refuses : maxSize < (encoded main p2p vod live data).length →
    (serialize main p2p vod live data maxSize).1 = -1

variable {main p2p vod live data}

/-- So have the lists. -/
theorem IntSized.lists (h : IntSized main p2p vod live data) :
    (encodeAll p2p data.p2pDownloaderStatistics).length < 2 ^ 31 ∧
      (encodeAll vod data.vodDownloadDriverStatistics).length < 2 ^ 31 ∧
        (encodeAll live data.liveDownloadDriverStatistics).length < 2 ^ 31 := by
  unfold IntSized encoded encodeList at h
  simp only [List.length_append] at h
  omega

/-- The archive ends well exactly if the main record and the counts fit. -/
theorem output_ok_iff (h : IntSized main p2p vod live data) :
    (output main p2p vod live data maxSize).ok = true ↔ CountsFit main p2p vod data maxSize := by
  obtain ⟨hP2PSize, hVodSize, hLiveSize⟩ := h.lists
  unfold output CountsFit
  dsimp only
  by_cases hMain : (main.encode data.statisticsInfo).length ≤ maxSize
  · rw [Output.put_of_le (by simpa using hMain), List.nil_append]
    obtain ⟨hP2P, bytes, hBytes, hLength⟩ | ⟨hP2P, hFails⟩ := Output.putList_cases maxSize
      p2p data.p2pDownloaderStatistics (main.encode data.statisticsInfo) hP2PSize
    · rw [hBytes]
      rw [← p2pEnd] at hLength
      obtain ⟨hVod, bytes', hBytes', hLength'⟩ | ⟨hVod, hFails⟩ := Output.putList_cases
        maxSize vod data.vodDownloadDriverStatistics bytes hVodSize
      · rw [hBytes']
        rw [hLength] at hVod hLength'
        rw [← vodEnd] at hLength'
        obtain ⟨hLive, bytes'', hBytes'', -⟩ | ⟨hLive, hFails⟩ := Output.putList_cases
          maxSize live data.liveDownloadDriverStatistics bytes' hLiveSize
        · rw [hBytes'']
          rw [hLength'] at hLive
          exact iff_of_true rfl ⟨hP2P, hVod, hLive⟩
        · rw [hFails]
          rw [hLength'] at hLive
          exact iff_of_false Bool.false_ne_true fun hFit => by omega
      · rw [hFails]
        rw [hLength] at hVod
        simp
        omega
    · rw [hFails]
      simp
      omega
  · rw [Output.put_of_lt (by simp; omega)]
    simp
    omega

/-- What fits is written as a whole. -/
theorem output_eq (hSize : IntSized main p2p vod live data)
    (h : (encoded main p2p vod live data).length ≤ maxSize) :
    output main p2p vod live data maxSize = ⟨encoded main p2p vod live data, true⟩ := by
  obtain ⟨hP2PSize, hVodSize, hLiveSize⟩ := hSize.lists
  unfold encoded at *
  simp only [List.length_append] at h
  unfold output
  dsimp only
  rw [Output.put_of_le (by rw [List.length_nil]; omega), List.nil_append,
    Output.putList_of_le p2p _ _ hP2PSize (by omega),
    Output.putList_of_le vod _ _ hVodSize (by rw [List.length_append]; omega),
    Output.putList_of_le live _ _ hLiveSize
      (by rw [List.length_append, List.length_append]; omega)]
  simp only [List.append_assoc]

theorem length_output_le :
    (output main p2p vod live data maxSize).bytes.length ≤
      (encoded main p2p vod live data).length := by
  unfold output encoded
  dsimp only
  refine (Output.length_putList_le maxSize live _ _).trans ?_
  refine (Nat.add_le_add_right (Output.length_putList_le maxSize vod _ _) _).trans ?_
  refine (Nat.add_le_add_right (Nat.add_le_add_right (Output.length_putList_le maxSize p2p _ _) _) _).trans ?_
  refine (Nat.add_le_add_right (Nat.add_le_add_right (Nat.add_le_add_right
    (Output.length_put_le maxSize _ _) _) _) _).trans ?_
  simp only [List.length_append, List.length_nil]
  omega

/-- A snapshot that was written as a whole reads back. -/
theorem deserialize_encoded (h : IntSized main p2p vod live data) (before : Main) :
    deserialize main p2p vod live before (encoded main p2p vod live data) =
      some (((encoded main p2p vod live data).length : Int), data) := by
  obtain ⟨hP2P, hVod, hLive⟩ := h.lists
  have hLast : encodeList live data.liveDownloadDriverStatistics =
      encodeList live data.liveDownloadDriverStatistics ++ [] := (List.append_nil _).symm
  unfold deserialize
  rw [encoded, main.decode_encode]
  dsimp only
  rw [List.drop_left, Input.getList_append p2p hP2P, Option.bind_some]
  dsimp only
  rw [Input.getList_append vod hVod, Option.bind_some]
  dsimp only
  rw [hLast, Input.getList_append live hLive, Option.map_some, if_pos rfl, List.append_nil,
    List.length_nil, Nat.sub_zero]
  exact congrArg (fun size => some (size, data)) (intSize_of_lt h)

/-- Any bytes are read inside the buffer. -/
theorem exists_deserialize (before : Main) (bytes : Bytes) :
    ∃ result : Int × StatisticsData Main P2P Vod Live,
      deserialize main p2p vod live before bytes = some result := by
  unfold deserialize
  split
  obtain ⟨⟨input, p2ps⟩, hP2P⟩ := Input.exists_getList p2p _
  rw [hP2P, Option.bind_some]
  dsimp only
  obtain ⟨⟨input, vods⟩, hVod⟩ := Input.exists_getList vod input
  rw [hVod, Option.bind_some]
  dsimp only
  obtain ⟨⟨input, lives⟩, hLive⟩ := Input.exists_getList live input
  rw [hLive]
  exact ⟨_, rfl⟩

/-- A snapshot is right exactly if all of it fits, or already the main record and the counts do
not; a record that does not fit behind its count is left out in silence. In any case no bytes make
the reader leave its buffer. -/
theorem snapshot_iff (h : IntSized main p2p vod live data) :
    (SnapshotRight main p2p vod live data maxSize ↔
      (encoded main p2p vod live data).length ≤ maxSize ∨
        ¬ CountsFit main p2p vod data maxSize) ∧
    ∀ before bytes, ∃ result : Int × StatisticsData Main P2P Vod Live,
      deserialize main p2p vod live before bytes = some result := by
  refine ⟨⟨fun hRight => ?_, ?_⟩, exists_deserialize⟩
  · by_contra hBad
    obtain ⟨hLong, hFit⟩ := not_or.mp hBad
    have hOk : (output main p2p vod live data maxSize).ok = true :=
      (output_ok_iff h).mpr (not_not.mp hFit)
    have hRefused := hRight.refuses (Nat.not_le.mp hLong)
    have hWritten : (output main p2p vod live data maxSize).bytes.length < 2 ^ 31 :=
      length_output_le.trans_lt h
    unfold serialize at hRefused
    dsimp only at hRefused
    rw [if_pos hOk, intSize_of_lt hWritten] at hRefused
    omega
  · rintro (hFits | hFails)
    · refine ⟨fun n hn before => ?_, fun hLong => absurd hFits (Nat.not_le.mpr hLong)⟩
      unfold serialize at *
      rw [output_eq h hFits] at *
      dsimp only at *
      rw [if_pos rfl, intSize_of_lt h] at hn
      rw [deserialize_encoded h, hn]
    · have hOk : ¬ (output main p2p vod live data maxSize).ok = true :=
        fun hOk => hFails ((output_ok_iff h).mp hOk)
      have hRefused : (serialize main p2p vod live data maxSize).1 = -1 := if_neg hOk
      refine ⟨fun n hn => ?_, fun _ => hRefused⟩
      rw [hRefused] at hn
      omega

end Snapshot

/-- An archive for a test: a record is one byte. -/
def byteArchive : RecordArchive UInt8 where
  encode record := [record]
  decode
    | [] => none
    | byte :: _ => some (byte, 1)
  decode_encode _ _ := rfl
  decode_le bytes record taken h := by
    cases bytes with
    | nil => cases h
    | cons byte bytes =>
        cases h
        exact Nat.le_add_left _ _
  encode_ne_nil _ := List.cons_ne_nil _ _

/-- An archive for a test: a record is two bytes. -/
def pairArchive : RecordArchive (UInt8 × UInt8) where
  encode record := [record.1, record.2]
  decode
    | first :: second :: _ => some ((first, second), 2)
    | _ => none
  decode_encode _ _ := rfl
  decode_le bytes record taken h := by
    match bytes, h with
    | _ :: _ :: _, rfl => exact Nat.le_add_left _ _
  encode_ne_nil _ := List.cons_ne_nil _ _

/-- One live record of two bytes. -/
def oneLive : StatisticsData UInt8 UInt8 UInt8 (UInt8 × UInt8) := ⟨7, [], [], [(1, 2)]⟩

theorem snapshot_iff_oneLive :
    IntSized byteArchive byteArchive byteArchive pairArchive oneLive ∧
    (SnapshotRight byteArchive byteArchive byteArchive pairArchive oneLive 15 ↔
      (encoded byteArchive byteArchive byteArchive pairArchive oneLive).length ≤ 15 ∨
        ¬ CountsFit byteArchive byteArchive byteArchive oneLive 15) ∧
    ∀ before bytes, ∃ result, deserialize byteArchive byteArchive byteArchive pairArchive before
      bytes = some result := by
  have h : IntSized byteArchive byteArchive byteArchive pairArchive oneLive := by
    unfold IntSized
    decide
  exact ⟨h, snapshot_iff h⟩

/-- There is room for the main record and the counts, but for one byte of the record only: the
snapshot is 13 bytes long and tells of one live record that is not there. -/
theorem snapshot_fails :
    ¬ SnapshotRight byteArchive byteArchive byteArchive pairArchive oneLive 14 := by
  intro hRight
  have hRefused := hRight.refuses (by decide)
  have hLength :
      (serialize byteArchive byteArchive byteArchive pairArchive oneLive 14).1 = 13 := by decide
  rw [hLength] at hRefused
  cases hRefused

end Codec

end Statistic
