import Peer.Base.AppBuffer

/-! When a view of a buffer has the bytes of the buffer, and when an extended buffer keeps its
bytes. -/
namespace Base

open Basis Storage

namespace AppBuffer

variable {b : AppBuffer} {o l n : Nat}

/-- A view that lies inside its storage. -/
structure Inside (b : AppBuffer) : Prop where
  storage_lt : b.storage.length < 2 ^ 32
  inside : b.offset + b.length ≤ b.storage.length

theorem dataPos_le (b : AppBuffer) : b.dataPos ≤ b.offset := by
  unfold dataPos
  split
  · exact le_rfl
  · exact Nat.zero_le _
  · exact Nat.zero_le _

theorem bytes_of_le (h : b.dataPos + b.length ≤ b.storage.length) :
    b.bytes = some ((b.storage.drop b.dataPos).take b.length) := if_pos h

theorem Inside.bytes_eq (h : Inside b) :
    b.bytes = some ((b.storage.drop b.dataPos).take b.length) := by
  have hPos := b.dataPos_le
  have hInside := h.inside
  exact bytes_of_le (by omega)

/-! ## Views -/

/-- A view that reaches outside the buffer is the empty buffer, and another one has the bytes
of the buffer from `o` on. -/
def SubRight (b : AppBuffer) (o l : Nat) : Prop :=
  if b.length < o + l then b.subBuffer o l = empty
  else ∃ bytes, b.bytes = some bytes ∧ (b.subBuffer o l).bytes = some ((bytes.drop o).take l)

/-- The sum of the position and the length does not wrap into the buffer; and a view inside the
buffer is one of a normal buffer, or the storage begins with the same bytes. -/
def SubFits (b : AppBuffer) (o l : Nat) : Prop :=
  if b.length < o + l then b.length < u32 (o + l)
  else b.type = .normal ∨ b.storage.take l = (b.storage.drop o).take l

instance (b : AppBuffer) (o l : Nat) : Decidable (SubFits b o l) :=
  inferInstanceAs (Decidable (if b.length < o + l then _ else _))

theorem subBuffer_of_le (h : Inside b) (hLe : o + l ≤ b.length) :
    b.subBuffer o l = { b with offset := b.offset + o, length := l } := by
  have hLt := h.storage_lt
  have hInside := h.inside
  unfold subBuffer
  rw [u32_of_lt (show o + l < 2 ^ 32 by omega), if_pos hLe,
    u32_of_lt (show b.offset + o < 2 ^ 32 by omega)]

/-- A normal buffer reads from the offset, another one from the start of its storage. -/
theorem dataPos_view (b : AppBuffer) (o l : Nat) :
    ({ b with offset := b.offset + o, length := l } : AppBuffer).dataPos =
      if b.type = .normal then b.dataPos + o else b.dataPos := by
  unfold dataPos
  cases hType : b.type <;> rfl

theorem dataPos_of_ne (h : b.type ≠ .normal) : b.dataPos = 0 := by
  unfold dataPos
  cases hType : b.type with
  | normal => exact absurd hType h
  | subpiece => rfl
  | liveSubpiece => rfl

theorem subRight_iff (h : Inside b) (ho : o < 2 ^ 32) : SubRight b o l ↔ SubFits b o l := by
  unfold SubRight SubFits
  split
  · rename_i hOutside
    unfold subBuffer
    constructor
    · intro hEmpty
      by_contra hNot
      rw [if_pos (Nat.not_lt.mp hNot)] at hEmpty
      obtain rfl : l = 0 := congrArg AppBuffer.length hEmpty
      rw [Nat.add_zero, u32_of_lt ho] at hNot
      exact hNot hOutside
    · intro hWrap
      rw [if_neg (Nat.not_le.mpr hWrap)]
  · rename_i hInside
    rw [Nat.not_lt] at hInside
    have hRoom := h.inside
    have hPos := b.dataPos_le
    have hView : ({ b with offset := b.offset + o, length := l } : AppBuffer).bytes =
        some ((b.storage.drop (if b.type = .normal then b.dataPos + o else b.dataPos)).take l) := by
      rw [← dataPos_view b o l]
      apply bytes_of_le
      rw [dataPos_view]
      show _ ≤ b.storage.length
      split <;> dsimp only <;> omega
    have hPart : ((b.storage.drop b.dataPos).take b.length |>.drop o).take l =
        (b.storage.drop (b.dataPos + o)).take l := by
      rw [List.drop_take, List.take_take, List.drop_drop, Nat.min_eq_left (by omega)]
    rw [subBuffer_of_le h hInside, hView, h.bytes_eq]
    simp only [Option.some.injEq, exists_eq_left', hPart]
    by_cases hType : b.type = .normal
    · simp [hType]
    · rw [if_neg hType, dataPos_of_ne hType]
      simp [hType]

/-- A view of a view is a view. -/
theorem subBuffer_subBuffer (h : Inside b) {o' l' : Nat} (hLe : o + l ≤ b.length)
    (hLe' : o' + l' ≤ l) : (b.subBuffer o l).subBuffer o' l' = b.subBuffer (o + o') l' := by
  have hInside := h.inside
  have hView : Inside ({ b with offset := b.offset + o, length := l } : AppBuffer) :=
    ⟨h.storage_lt, by show b.offset + o + l ≤ b.storage.length; omega⟩
  rw [subBuffer_of_le h hLe, subBuffer_of_le hView hLe', subBuffer_of_le h (by omega)]
  dsimp only
  rw [Nat.add_assoc]

theorem subBufferFrom_of_lt (h : Inside b) (hLt : o < b.length) :
    b.subBufferFrom o = { b with offset := b.offset + o, length := b.length - o } := by
  have hStorage := h.storage_lt
  have hInside := h.inside
  unfold subBufferFrom
  rw [if_pos hLt, u32_of_lt (show b.offset + o < 2 ^ 32 by omega),
    subU32_of_le (by omega) hLt.le]

theorem subBufferFrom_of_le (hLe : b.length ≤ o) : b.subBufferFrom o = empty :=
  if_neg (Nat.not_lt.mpr hLe)

/-- To the end of the buffer. -/
theorem subBufferFrom_subBufferFrom (h : Inside b) (o o' : Nat) :
    (b.subBufferFrom o).subBufferFrom o' = b.subBufferFrom (o + o') := by
  have hInside := h.inside
  by_cases hFirst : o < b.length
  · have hView : Inside ({ b with offset := b.offset + o, length := b.length - o } : AppBuffer) :=
      ⟨h.storage_lt, by show b.offset + o + (b.length - o) ≤ b.storage.length; omega⟩
    rw [subBufferFrom_of_lt h hFirst]
    by_cases hSecond : o' < b.length - o
    · rw [subBufferFrom_of_lt hView hSecond, subBufferFrom_of_lt h (by omega)]
      dsimp only
      rw [Nat.add_assoc, Nat.sub_sub]
    · rw [subBufferFrom_of_le (Nat.not_lt.mp hSecond), subBufferFrom_of_le (by omega)]
  · rw [subBufferFrom_of_le (Nat.not_lt.mp hFirst), subBufferFrom_of_le (Nat.zero_le _),
      subBufferFrom_of_le (by omega)]

/-! ## Extended buffers -/

/-- Whatever the new array holds, the extended buffer begins with the bytes of the old one and
lies inside its storage. -/
def ExtendRight (b : AppBuffer) (n : Nat) : Prop :=
  ∀ newArray : Nat → Bytes, (∀ k, (newArray k).length = k) →
    ∃ b', b.extend n newArray = some (b', true) ∧ Inside b' ∧
      ∃ bytes, b'.bytes = some bytes ∧ b.bytes = some (bytes.take b.length)

/-- The buffer has no offset, and the copy is allowed. -/
def ExtendFits (b : AppBuffer) (n : Nat) : Prop :=
  b.offset = 0 ∧ (b.length = 0 ∨ n + b.length ≤ 0x3FFFFFFF)

/-- The extended buffer over its array. -/
def extended (b : AppBuffer) (newLength : Nat) (array : Bytes) : AppBuffer :=
  ⟨some array, none, none, newLength, b.offset, .normal⟩

@[simp] theorem storage_create (memory : Bytes) : (create memory).storage = memory := rfl

@[simp] theorem length_create (memory : Bytes) : (create memory).length = memory.length := rfl

@[simp] theorem offset_create (memory : Bytes) : (create memory).offset = 0 := rfl

/-- What is read of an extended buffer. -/
theorem bytes_extended (b : AppBuffer) (newLength : Nat) (array : Bytes) :
    (b.extended newLength array).bytes =
      if b.offset + newLength ≤ array.length then
        some ((array.drop b.offset).take newLength) else none := rfl

theorem extend_eq (h : Inside b) (hType : b.type = .normal) (newArray : Nat → Bytes)
    (hArray : ∀ k, (newArray k).length = k) : b.extend n newArray =
      if u32 (n + b.length) < b.length then
        some (b.extended (u32 (n + b.length)) (newArray (u32 (n + b.length))), true)
      else if memcpy2Ok (u32 (n + b.length)) b.length then
        some (b.extended (u32 (n + b.length)) (b.storage.take b.length ++
          (newArray (u32 (n + b.length))).drop b.length), true)
      else none := by
  have hInside := h.inside
  have hLt := h.storage_lt
  have hTake : (b.storage.take b.length).length = b.length := List.length_take_of_le (by omega)
  have hLength : u32 b.length = b.length := u32_of_lt (by omega)
  have hNew := u32_lt (n + b.length)
  unfold extend add
  rw [if_pos hType]
  simp only [storage_create, length_create, offset_create, hTake, Nat.zero_add, hLength, hArray,
    subU32_of_le hNew (Nat.zero_le _), Nat.sub_zero]
  split_ifs <;> simp [create, extended, hArray]

/-- The first bytes of an array that was filled from the front. -/
theorem extendRight_iff (h : Inside b) (hType : b.type = .normal) (hn : n < 2 ^ 32) :
    ExtendRight b n ↔ ExtendFits b n := by
  have hInside := h.inside
  have hLt := h.storage_lt
  have hNew := u32_lt (n + b.length)
  have hPos : b.dataPos = b.offset := by
    unfold dataPos
    rw [hType]
  have hLe : u32 (n + b.length) ≤ n + b.length := u32_le _
  unfold ExtendRight ExtendFits
  constructor
  · intro hRight
    have hZeros : ∀ k, (List.replicate k (0 : UInt8)).length = k := fun k => List.length_replicate
    obtain ⟨b', hExtend, hStill, bytes, hBytes, hOld⟩ :=
      hRight (fun k => List.replicate k 0) hZeros
    rw [extend_eq h hType _ hZeros] at hExtend
    rw [h.bytes_eq, hPos] at hOld
    have hLength := congrArg List.length (Option.some.inj hOld)
    rw [List.length_take, List.length_take, List.length_drop] at hLength
    split at hExtend
    · -- The sum has wrapped, so that the new array is too short.
      rename_i hShort
      obtain ⟨rfl, -⟩ := Prod.mk.inj (Option.some.inj hExtend)
      rw [bytes_extended] at hBytes
      split at hBytes
      · obtain rfl := Option.some.inj hBytes
        rw [List.length_take] at hLength
        omega
      · cases hBytes
    · rename_i hLong
      split at hExtend
      · rename_i hCopy
        obtain ⟨rfl, -⟩ := Prod.mk.inj (Option.some.inj hExtend)
        have hArray : (b.storage.take b.length ++
            (List.replicate (u32 (n + b.length)) (0 : UInt8)).drop b.length).length =
              u32 (n + b.length) := by
          rw [List.length_append, List.length_take, List.length_drop, List.length_replicate]
          omega
        have hRoom : b.offset + u32 (n + b.length) ≤ u32 (n + b.length) := by
          rw [← hArray]
          conv_lhs => rw [hArray]
          exact hStill.inside
        rw [memcpy2Ok_iff] at hCopy
        refine ⟨by omega, ?_⟩
        rcases hCopy with hNone | ⟨hFits, hSmall⟩
        · exact Or.inl hNone
        · right
          unfold u32 at hFits hSmall
          omega
      · cases hExtend
  · rintro ⟨hOffset, hRoom⟩ newArray hArray
    have hFits : b.length ≤ u32 (n + b.length) ∧
        memcpy2Ok (u32 (n + b.length)) b.length = true := by
      rw [memcpy2Ok_iff]
      rcases hRoom with hNone | hSmall
      · exact ⟨by omega, Or.inl hNone⟩
      · rw [u32_of_lt (show n + b.length < 2 ^ 32 by omega)]
        omega
    have hFront : (b.storage.take b.length).length = b.length := List.length_take_of_le (by omega)
    have hStart : (b.storage.take b.length ++
        (newArray (u32 (n + b.length))).drop b.length).take b.length = b.storage.take b.length := by
      conv_lhs => rw [List.take_left' hFront]
    have hFilled : (b.storage.take b.length ++
        (newArray (u32 (n + b.length))).drop b.length).length = u32 (n + b.length) := by
      rw [List.length_append, hFront, List.length_drop, hArray]
      omega
    have hExtend := extend_eq (n := n) h hType newArray hArray
    rw [if_neg (Nat.not_lt.mpr hFits.1), if_pos hFits.2] at hExtend
    generalize b.storage.take b.length ++ (newArray (u32 (n + b.length))).drop b.length = array
      at hStart hFilled hExtend
    refine ⟨_, hExtend, ⟨hFilled.trans_lt hNew, ?_⟩, array, ?_, ?_⟩
    · show b.offset + u32 (n + b.length) ≤ array.length
      rw [hOffset, Nat.zero_add]
      exact hFilled.ge
    · rw [bytes_extended, hOffset, Nat.zero_add, if_pos hFilled.ge, List.drop_zero,
        List.take_of_length_le hFilled.le]
    · rw [h.bytes_eq, hPos, hOffset, List.drop_zero, hStart]

/-! ## The three operations -/

/-- Views and extended buffers are right exactly where no sum wraps, where the offset of the
buffer is the one that is read, and where the copy is allowed. -/
theorem views_iff (h : Inside b) :
    (∀ o l, o < 2 ^ 32 → l < 2 ^ 32 → (SubRight b o l ↔ SubFits b o l)) ∧
    (∀ o l o' l', o + l ≤ b.length → o' + l' ≤ l →
      (b.subBuffer o l).subBuffer o' l' = b.subBuffer (o + o') l') ∧
    (∀ o o', (b.subBufferFrom o).subBufferFrom o' = b.subBufferFrom (o + o')) ∧
    (b.type = .normal → ∀ n, n < 2 ^ 32 → (ExtendRight b n ↔ ExtendFits b n)) :=
  ⟨fun _ _ ho _ => subRight_iff h ho, fun _ _ _ _ => subBuffer_subBuffer h,
    subBufferFrom_subBufferFrom h, fun hType _ hn => extendRight_iff h hType hn⟩

/-- A view of the last two bytes of an array of three. -/
def lastTwo : AppBuffer := ⟨some [7, 8, 9], none, none, 2, 1, .normal⟩

theorem inside_lastTwo : Inside lastTwo := ⟨by decide, by decide⟩

theorem views_iff_lastTwo :
    (∀ o l, o < 2 ^ 32 → l < 2 ^ 32 → (SubRight lastTwo o l ↔ SubFits lastTwo o l)) ∧
    (∀ o l o' l', o + l ≤ lastTwo.length → o' + l' ≤ l →
      (lastTwo.subBuffer o l).subBuffer o' l' = lastTwo.subBuffer (o + o') l') ∧
    (∀ o o', (lastTwo.subBufferFrom o).subBufferFrom o' = lastTwo.subBufferFrom (o + o')) ∧
    (lastTwo.type = .normal → ∀ n, n < 2 ^ 32 → (ExtendRight lastTwo n ↔ ExtendFits lastTwo n)) :=
  views_iff inside_lastTwo

/-- A length that wraps, the second byte of a subpiece, and an extended buffer with an offset. -/
theorem views_fail : ¬ SubRight lastTwo 1 4294967295 ∧
    (Inside (ofSubPiece [7, 8] 0 2) ∧ ¬ SubRight (ofSubPiece [7, 8] 0 2) 1 1) ∧
    ¬ ExtendRight lastTwo 1 := by
  refine ⟨?_, ⟨⟨by decide, by decide⟩, ?_⟩, ?_⟩
  · rw [subRight_iff inside_lastTwo (by decide)]
    decide +kernel
  · rw [subRight_iff ⟨by decide, by decide⟩ (by decide)]
    decide +kernel
  · rw [extendRight_iff inside_lastTwo rfl (by decide)]
    exact fun h => absurd h.1 (by decide)

end AppBuffer

end Base
