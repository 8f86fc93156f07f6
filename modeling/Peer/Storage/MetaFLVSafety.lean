import Peer.Storage.MetaFLVParser
import Peer.Storage.PieceParse

/-! When reading FLV metadata is safe. -/
namespace Storage

open Basis

namespace MetaFLVParser

variable (buf : Bytes) (packing : Packing)

/-- The number that stands at an offset, as far as there are bytes. -/
def numberAt (offset width : Nat) : Nat := beValue ((buf.drop offset).take width)

/-- An offset that lies before the end. -/
def inside (offset : Nat) : Option Nat := if offset < buf.length then some offset else none

/-- Where a string ends, if it ends before the end of the buffer. -/
def stringEnd (offset width : Nat) : Option Nat :=
  (inside buf (offset + width)).bind fun start => inside buf (start + numberAt buf offset width)

/-- No sum of a string wraps. -/
def StringFits (offset width : Nat) : Prop :=
  offset + width < 2 ^ 32 ∧
    (offset + width < buf.length → offset + width + numberAt buf offset width < 2 ^ 32)

/-- Where a value ends, if the loop goes on behind it. -/
def valueEnd (type offset : Nat) : Option Nat :=
  match type with
  | 0x00 => inside buf (offset + 8)
  | 0x01 => inside buf (offset + 1)
  | 0x02 => stringEnd buf offset 2
  | 0x0B => inside buf (offset + packing.dateSize)
  | 0x0C => stringEnd buf offset 4
  | 0x0A => some (offset + 4)
  | _ => some offset

/-- A double is inside the buffer, and no sum of a value wraps. -/
def ValueFits (type offset : Nat) : Prop :=
  match type with
  | 0x00 => offset + 8 ≤ buf.length
  | 0x02 => StringFits buf offset 2
  | 0x0B => offset + packing.dateSize < 2 ^ 32
  | 0x0C => StringFits buf offset 4
  | 0x0A => offset + 4 < 2 ^ 32
  | _ => True

/-- Where the value of a record starts, if the record has one. -/
def valueStart (offset : Nat) : Option Nat :=
  if numberAt buf offset 3 = 0x09 then none
  else (stringEnd buf offset 2).bind fun type => inside buf (type + 1)

/-- Where the next record starts, if there is one. -/
def nextRecord (offset : Nat) : Option Nat :=
  (valueStart buf offset).bind fun start => valueEnd buf packing (numberAt buf (start - 1) 1) start

/-- The first three bytes of a record are inside the buffer, and its name and value fit. -/
def RecordFits (offset : Nat) : Prop :=
  offset + 3 ≤ buf.length ∧
    (numberAt buf offset 3 ≠ 0x09 → StringFits buf offset 2) ∧
    ∀ start, valueStart buf offset = some start →
      ValueFits buf packing (numberAt buf (start - 1) 1) start

/-- So do all records the loop comes to. -/
def RecordsFit : Nat → Nat → Prop
  | 0, _ => True
  | count + 1, offset => RecordFits buf packing offset ∧
      ∀ later, nextRecord buf packing offset = some later → RecordsFit count later

/-- Where the number of records stands, if there is an `onMetaData` array. -/
def arrayAt : Option Nat :=
  (inside buf (packing.headerSize + 4)).bind fun tag =>
    if numberAt buf tag 1 = 0x12 then
      (inside buf (tag + tagSize + 1)).bind fun data =>
        (stringEnd buf data 2).bind fun type =>
          if (buf.drop (data + 2)).take (numberAt buf data 2) =
              "onMetaData".toList.map (fun c => UInt8.ofNat c.toNat) ∧
            numberAt buf type 1 = 0x08 then inside buf (type + 1)
          else none
    else none

/-- Where there is an array, the number of its records is inside the buffer, and the records
the loop comes to fit. -/
def MetaFits : Prop :=
  ∀ start, arrayAt buf packing = some start → start + 4 ≤ buf.length ∧
    (start + 4 < buf.length → RecordsFit buf packing (numberAt buf start 4) (start + 4))

variable {buf packing} {offset size width start : Nat} {properties : PropertyMap}
  {k : Nat → Checked Progress}

theorem numberAt_lt (offset width : Nat) : numberAt buf offset width < 256 ^ width := by
  refine (beValue_lt _).trans_le (Nat.pow_le_pow_right (by decide) ?_)
  rw [List.length_take]
  exact Nat.min_le_left _ _

theorem inside_eq_some {o : Nat} : inside buf offset = some o ↔ offset = o ∧ offset < buf.length := by
  unfold inside
  split
  · rename_i hInside
    simp [hInside]
  · rename_i hInside
    simp [hInside]

theorem inside_none_of_le {later : Nat} (h : inside buf offset = none) (hLe : offset ≤ later) :
    inside buf later = none := by
  unfold inside at h ⊢
  split at h
  · cases h
  · exact if_neg (by omega)

theorem lt_of_stringEnd {stop : Nat} (h : stringEnd buf offset width = some stop) :
    stop < buf.length := by
  unfold stringEnd at h
  obtain ⟨_, _, hInside⟩ := Option.bind_eq_some_iff.mp h
  obtain ⟨hSame, hLess⟩ := inside_eq_some.mp hInside
  exact hSame ▸ hLess

theorem advance_eq (h : offset + size < 2 ^ 32) :
    advance buf offset size properties k =
      match inside buf (offset + size) with
      | none => .ok (.returns properties)
      | some later => k later := by
  unfold advance inside
  rw [Checked.sum_eq h, Checked.ok_bind]
  by_cases hInside : offset + size < buf.length
  · rw [if_neg (by omega), if_pos hInside]
  · rw [if_pos (by omega), if_neg hInside]

theorem readString_eq {k : Bytes → Nat → Checked Progress} (h : StringFits buf offset width) :
    readString buf offset width properties k =
      match stringEnd buf offset width with
      | none => .ok (.returns properties)
      | some stop =>
        k ((buf.drop (offset + width)).take (numberAt buf offset width)) stop := by
  obtain ⟨hSum, hStop⟩ := h
  unfold readString stringEnd
  rw [advance_eq hSum]
  by_cases hStart : offset + width < buf.length
  · have hFirst : inside buf (offset + width) = some (offset + width) := if_pos hStart
    have hWrap := hStop hStart
    rw [hFirst]
    simp only [Option.bind_some]
    rw [Checked.read_eq (by omega), Checked.ok_bind]
    change (Checked.sum (offset + width) (numberAt buf offset width) >>= _) = _
    rw [Checked.sum_eq hWrap, Checked.ok_bind]
    by_cases hInside : offset + width + numberAt buf offset width < buf.length
    · have hLast : inside buf (offset + width + numberAt buf offset width) =
          some (offset + width + numberAt buf offset width) := if_pos hInside
      rw [if_neg (by omega), hLast]
      change (Checked.read buf (offset + width) (numberAt buf offset width) >>= _) = _
      rw [Checked.read_eq (by omega), Checked.ok_bind]
      change advance buf (offset + width) (numberAt buf offset width) properties _ = _
      rw [advance_eq hWrap, hLast]
    · have hLast : inside buf (offset + width + numberAt buf offset width) = none := if_neg hInside
      rw [if_pos (by omega), hLast]
  · have hFirst : inside buf (offset + width) = none := if_neg hStart
    rw [hFirst]
    rfl

theorem readString_wraps {k : Bytes → Nat → Checked Progress} (h : ¬ StringFits buf offset width) :
    readString buf offset width properties k = .error .wrappedSum := by
  unfold readString
  by_cases hSum : offset + width < 2 ^ 32
  · have hStop : offset + width < buf.length ∧
        ¬ offset + width + numberAt buf offset width < 2 ^ 32 := by
      by_contra hNot
      exact h ⟨hSum, fun hStart => by_contra fun hWrap => hNot ⟨hStart, hWrap⟩⟩
    have hFirst : inside buf (offset + width) = some (offset + width) := if_pos hStop.1
    rw [advance_eq hSum, hFirst]
    dsimp only
    rw [Checked.read_eq (by omega), Checked.ok_bind]
    change (Checked.sum (offset + width) (numberAt buf offset width) >>= _) = _
    rw [Checked.sum_wrapped hStop.2, Checked.error_bind]
  · unfold advance
    rw [Checked.sum_wrapped hSum, Checked.error_bind]

/-- A step of the reader that fits goes on where it should; one that does not is unsafe. -/
def Follows (fits : Prop) (stop : Option Nat) (result : Checked Progress) : Prop :=
  (fits → ∃ properties, result =
    .ok (stop.elim (.returns properties) fun offset => .at offset properties)) ∧
  (¬ fits → ∃ fault, result = .error fault)

theorem Follows.of_advance {properties' : PropertyMap} :
    Follows (offset + size < 2 ^ 32) (inside buf (offset + size))
      (advance buf offset size properties fun offset => .ok (.at offset properties')) := by
  constructor
  · intro hFits
    rw [advance_eq hFits]
    cases inside buf (offset + size) with
    | none => exact ⟨properties, rfl⟩
    | some later => exact ⟨properties', rfl⟩
  · intro hWraps
    unfold advance
    rw [Checked.sum_wrapped hWraps]
    exact ⟨_, rfl⟩

theorem Follows.of_readString {properties' : Bytes → PropertyMap} :
    Follows (StringFits buf offset width) (stringEnd buf offset width)
      (readString buf offset width properties fun text offset =>
        .ok (.at offset (properties' text))) := by
  constructor
  · intro hFits
    rw [readString_eq hFits]
    cases stringEnd buf offset width with
    | none => exact ⟨properties, rfl⟩
    | some later => exact ⟨_, rfl⟩
  · intro hWraps
    exact ⟨_, readString_wraps hWraps⟩

/-- A read of which the bytes are skipped afterwards. -/
theorem Follows.of_read {value : Bytes → PropertyMap} (hLength : buf.length < 2 ^ 32) :
    Follows (offset + size ≤ buf.length) (inside buf (offset + size))
      (Checked.read buf offset size >>= fun bytes =>
        advance buf offset size (value bytes) fun offset => .ok (.at offset (value bytes))) := by
  constructor
  · intro hFits
    rw [Checked.read_eq hFits, Checked.ok_bind]
    exact Follows.of_advance.1 (by omega)
  · intro hOutside
    unfold Checked.read
    rw [if_neg hOutside]
    exact ⟨_, rfl⟩

theorem readValue_follows {type : Nat} {name : Bytes} (hLength : buf.length < 2 ^ 32)
    (hInside : offset < buf.length) :
    Follows (ValueFits buf packing type offset) (valueEnd buf packing type offset)
      (readValue buf packing offset type name properties) := by
  unfold readValue
  split
  · exact Follows.of_read hLength
  · have hRead : ValueFits buf packing 0x01 offset ↔ offset + 1 ≤ buf.length :=
      iff_of_true trivial hInside
    unfold Follows
    rw [hRead]
    exact Follows.of_read hLength
  · exact Follows.of_readString
  · exact Follows.of_advance
  · exact Follows.of_readString
  · constructor
    · intro hFits
      rw [Checked.sum_eq hFits]
      exact ⟨properties, rfl⟩
    · intro hWraps
      rw [Checked.sum_wrapped hWraps]
      exact ⟨_, rfl⟩
  · rename_i h0 h1 h2 hB hC hA
    have hFits : ValueFits buf packing type offset ↔ True := by
      unfold ValueFits
      split <;> first | contradiction | exact Iff.rfl
    have hEnd : valueEnd buf packing type offset = some offset := by
      unfold valueEnd
      split <;> first | contradiction | rfl
    unfold Follows
    rw [hFits, hEnd]
    exact ⟨fun _ => ⟨properties, rfl⟩, fun h => absurd trivial h⟩

theorem readRecord_follows (hLength : buf.length < 2 ^ 32) :
    Follows (RecordFits buf packing offset) (nextRecord buf packing offset)
      (readRecord buf packing offset properties) := by
  unfold readRecord
  by_cases hMark : offset + 3 ≤ buf.length
  swap
  · refine ⟨fun hFits => absurd hFits.1 hMark, fun _ => ?_⟩
    unfold Checked.read
    rw [if_neg hMark]
    exact ⟨_, rfl⟩
  rw [Checked.read_eq hMark, Checked.ok_bind]
  change Follows _ _ (if numberAt buf offset 3 = 0x09 then _ else _)
  by_cases hLast : numberAt buf offset 3 = 0x09
  · have hStart : valueStart buf offset = none := if_pos hLast
    have hFits : RecordFits buf packing offset :=
      ⟨hMark, fun h => absurd hLast h, fun start h => by rw [hStart] at h; cases h⟩
    rw [if_pos hLast]
    refine ⟨fun _ => ⟨properties, ?_⟩, fun h => absurd hFits h⟩
    rw [nextRecord, hStart]
    rfl
  rw [if_neg hLast]
  by_cases hName : StringFits buf offset 2
  swap
  · exact ⟨fun hFits => absurd (hFits.2.1 hLast) hName, fun _ => ⟨_, readString_wraps hName⟩⟩
  rw [readString_eq hName]
  cases hType : stringEnd buf offset 2 with
  | none =>
      have hStart : valueStart buf offset = none := by
        rw [valueStart, if_neg hLast, hType]
        rfl
      have hFits : RecordFits buf packing offset :=
        ⟨hMark, fun _ => hName, fun start h => by rw [hStart] at h; cases h⟩
      refine ⟨fun _ => ⟨properties, ?_⟩, fun h => absurd hFits h⟩
      rw [nextRecord, hStart]
      rfl
  | some type =>
      have hStart : valueStart buf offset = inside buf (type + 1) := by
        rw [valueStart, if_neg hLast, hType]
        rfl
      have hBefore := lt_of_stringEnd hType
      dsimp only
      rw [Checked.read_eq (by omega), Checked.ok_bind, advance_eq (by omega)]
      cases hValue : inside buf (type + 1) with
      | none =>
          rw [hValue] at hStart
          have hFits : RecordFits buf packing offset :=
            ⟨hMark, fun _ => hName, fun start h => by rw [hStart] at h; cases h⟩
          refine ⟨fun _ => ⟨properties, ?_⟩, fun h => absurd hFits h⟩
          rw [nextRecord, hStart]
          rfl
      | some start =>
          obtain ⟨rfl, hInside⟩ := inside_eq_some.mp hValue
          rw [hValue] at hStart
          have hFollows := fun name : Bytes =>
            (readValue_follows hLength hInside : Follows _ _
              (readValue buf packing (type + 1) (numberAt buf type 1) name properties))
          have hFits : RecordFits buf packing offset ↔
              ValueFits buf packing (numberAt buf type 1) (type + 1) := by
            unfold RecordFits
            rw [hStart]
            simp [hMark, hName]
          rw [nextRecord, hStart]
          unfold Follows
          rw [hFits]
          exact hFollows _

/-- The loop is safe exactly if the records it comes to fit. -/
theorem readRecords_safe_iff (hLength : buf.length < 2 ^ 32) (count : Nat) :
    (∃ result, readRecords buf packing count offset properties = .ok result) ↔
      RecordsFit buf packing count offset := by
  induction count generalizing offset properties with
  | zero => exact iff_of_true ⟨properties, rfl⟩ trivial
  | succ count ih =>
      have hFollows : Follows _ _ (readRecord buf packing offset properties) :=
        readRecord_follows hLength
      unfold readRecords RecordsFit
      by_cases hFits : RecordFits buf packing offset
      · obtain ⟨properties', hRecord⟩ := hFollows.1 hFits
        rw [hRecord, Checked.ok_bind]
        cases hNext : nextRecord buf packing offset with
        | none => exact iff_of_true ⟨properties', rfl⟩ ⟨hFits, nofun⟩
        | some later =>
            have hRest : (∃ result, readRecords buf packing count later properties' = .ok result) ↔
                RecordsFit buf packing count later := ih
            refine hRest.trans ⟨fun h => ⟨hFits, ?_⟩, fun h => h.2 later rfl⟩
            rintro _ ⟨⟩
            exact h
      · obtain ⟨fault, hRecord⟩ := hFollows.2 hFits
        rw [hRecord, Checked.error_bind]
        exact iff_of_false nofun fun h => hFits h.1

/-- Reading the metadata is safe exactly if what the array has fits. -/
theorem readMeta_safe_iff (hLength : buf.length < 2 ^ 32) (hInside : offset < buf.length)
    {name : Bytes} :
    (∃ result, readMeta buf packing name offset properties = .ok result) ↔
      ∀ start, (if name = "onMetaData".toList.map (fun c => UInt8.ofNat c.toNat) ∧
          numberAt buf offset 1 = 0x08 then inside buf (offset + 1) else none) = some start →
        start + 4 ≤ buf.length ∧
          (start + 4 < buf.length → RecordsFit buf packing (numberAt buf start 4) (start + 4)) := by
  unfold readMeta
  by_cases hName : name = "onMetaData".toList.map (fun c => UInt8.ofNat c.toNat)
  swap
  · rw [if_neg hName, if_neg fun h => hName h.1]
    exact iff_of_true ⟨_, rfl⟩ nofun
  rw [if_pos hName, Checked.read_eq (by omega), Checked.ok_bind, advance_eq (by omega)]
  cases hArray : inside buf (offset + 1) with
  | none =>
      refine iff_of_true ⟨_, rfl⟩ fun start h => ?_
      split at h <;> cases h
  | some start =>
      dsimp only
      by_cases hType : numberAt buf offset 1 = 0x08
      swap
      · have hOther : ¬ beValue ((buf.drop offset).take 1) = 0x08 := hType
        rw [if_neg hOther, if_neg fun h => hType h.2]
        exact iff_of_true ⟨_, rfl⟩ nofun
      have hSame : beValue ((buf.drop offset).take 1) = 0x08 := hType
      rw [if_pos hSame, if_pos ⟨hName, hType⟩]
      by_cases hCount : start + 4 ≤ buf.length
      swap
      · unfold Checked.read
        rw [if_neg hCount, Checked.error_bind]
        exact iff_of_false nofun fun h => hCount (h start rfl).1
      rw [Checked.read_eq hCount, Checked.ok_bind, advance_eq (by omega)]
      by_cases hRecords : start + 4 < buf.length
      · have hFirst : inside buf (start + 4) = some (start + 4) := if_pos hRecords
        rw [hFirst]
        dsimp only
        change (∃ result, (readRecords buf packing (numberAt buf start 4) (start + 4) properties >>=
          fun properties => Except.ok (Progress.returns properties)) = .ok result) ↔ _
        have hSafe : (∃ result,
            readRecords buf packing (numberAt buf start 4) (start + 4) properties = .ok result) ↔
            RecordsFit buf packing (numberAt buf start 4) (start + 4) :=
          readRecords_safe_iff hLength _
        constructor
        · rintro ⟨result, hResult⟩ _ ⟨⟩
          refine ⟨hCount, fun _ => hSafe.mp ?_⟩
          cases hRun : readRecords buf packing (numberAt buf start 4) (start + 4) properties with
          | ok properties => exact ⟨properties, rfl⟩
          | error fault =>
              rw [hRun, Checked.error_bind] at hResult
              cases hResult
        · intro hFits
          obtain ⟨properties', hRun⟩ := hSafe.mpr ((hFits start rfl).2 hRecords)
          exact ⟨_, by rw [hRun, Checked.ok_bind]⟩
      · have hNone : inside buf (start + 4) = none := if_neg hRecords
        rw [hNone]
        refine iff_of_true ⟨_, rfl⟩ ?_
        rintro _ ⟨⟩
        exact ⟨hCount, fun h => absurd h hRecords⟩

/-- `Parse` is safe exactly on buffers whose array fits. -/
theorem parse_reads_inside_iff (packing : Packing) (buffer : AppBuffer) :
    (∃ result, parse packing buffer = .ok result) ↔ MetaFits buffer.data packing := by
  have hLength := buffer.length_lt
  have hHeader : packing.headerSize ≤ 12 := by cases packing <;> decide
  unfold parse MetaFits arrayAt
  rw [advance_eq (by omega), Nat.zero_add]
  cases hFirst : inside buffer.data packing.headerSize with
  | none =>
      have hNone : inside buffer.data (packing.headerSize + 4) = none :=
        inside_none_of_le hFirst (Nat.le_add_right _ _)
      rw [hNone]
      exact iff_of_true ⟨_, rfl⟩ nofun
  | some header =>
      obtain ⟨rfl, -⟩ := inside_eq_some.mp hFirst
      dsimp only
      rw [advance_eq (by omega)]
      cases hTag : inside buffer.data (packing.headerSize + 4) with
      | none => exact iff_of_true ⟨_, rfl⟩ nofun
      | some tag =>
          obtain ⟨rfl, hTag⟩ := inside_eq_some.mp hTag
          dsimp only
          rw [Checked.read_eq (by omega), Checked.ok_bind, Option.bind_some]
          by_cases hScript : numberAt buffer.data (packing.headerSize + 4) 1 = 0x12
          swap
          · have hOther : ¬ beValue ((buffer.data.drop (packing.headerSize + 4)).take 1) = 0x12 :=
              hScript
            rw [if_neg hOther, if_neg hScript]
            exact iff_of_true ⟨_, rfl⟩ nofun
          have hSame : beValue ((buffer.data.drop (packing.headerSize + 4)).take 1) = 0x12 := hScript
          have hTagSize : tagSize = 11 := rfl
          rw [if_pos hSame, if_pos hScript, advance_eq (by omega)]
          cases hBody : inside buffer.data (packing.headerSize + 4 + tagSize) with
          | none =>
              have hNone : inside buffer.data (packing.headerSize + 4 + tagSize + 1) = none :=
                inside_none_of_le hBody (Nat.le_succ _)
              rw [hNone]
              exact iff_of_true ⟨_, rfl⟩ nofun
          | some body =>
              obtain ⟨rfl, -⟩ := inside_eq_some.mp hBody
              dsimp only
              rw [advance_eq (by omega)]
              cases hData : inside buffer.data (packing.headerSize + 4 + tagSize + 1) with
              | none => exact iff_of_true ⟨_, rfl⟩ nofun
              | some data =>
                  obtain ⟨rfl, -⟩ := inside_eq_some.mp hData
                  have hShort : numberAt buffer.data (packing.headerSize + 4 + tagSize + 1) 2 < 256 ^ 2 :=
                    numberAt_lt _ _
                  have hName : StringFits buffer.data (packing.headerSize + 4 + tagSize + 1) 2 :=
                    ⟨by omega, fun _ => by omega⟩
                  dsimp only
                  rw [readString_eq hName, Option.bind_some]
                  cases hStop : stringEnd buffer.data (packing.headerSize + 4 + tagSize + 1) 2 with
                  | none => exact iff_of_true ⟨_, rfl⟩ nofun
                  | some type => exact readMeta_safe_iff hLength (lt_of_stringEnd hStop)

/-- A file that ends one byte into its first record. -/
def cutRecord : AppBuffer where
  data := List.replicate 13 0 ++ 0x12 :: List.replicate 11 0 ++
    [0, 10, 0x6f, 0x6e, 0x4d, 0x65, 0x74, 0x61, 0x44, 0x61, 0x74, 0x61, 0x08, 0, 0, 0, 1, 0]
  length_lt := by decide

/-- The three bytes that are compared with the mark of the end are read without a check. -/
theorem parse_reads_inside_fails :
    ¬ ∀ (packing : Packing) (buffer : AppBuffer), ∃ result, parse packing buffer = .ok result := by
  intro hAll
  obtain ⟨result, hResult⟩ := hAll .packed cutRecord
  have hFault : parse .packed cutRecord = .error .readOutside := rfl
  rw [hFault] at hResult
  cases hResult

end MetaFLVParser

end Storage
