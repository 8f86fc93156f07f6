import Peer.Basis.Walk
import Peer.Storage.BlockMapFormat
import Peer.Storage.BlockNodeLaws

/-! `BlockNode::Parse` on arbitrary bytes. The records of a payload are read here
with unbounded integers; the reader of the source agrees with that reading as
long as every record it visits is safe, and faults at the first that is not. -/
namespace Storage

open Basis

namespace Checked

theorem sum_eq {a b : Nat} (h : a + b < 2 ^ 32) : sum a b = .ok (a + b) := if_pos h

theorem sum_wrapped {a b : Nat} (h : ¬ a + b < 2 ^ 32) : sum a b = .error .wrappedSum := if_neg h

theorem read_eq {buf : Bytes} {o n : Nat} (h : o + n ≤ buf.length) :
    read buf o n = .ok ((buf.drop o).take n) := if_pos h

theorem copy_eq {buf : Bytes} {o n : Nat} (h : o + n ≤ buf.length) (hn : n ≤ 0x3FFFFFFF) :
    copy buf o n = .ok ((buf.drop o).take n) := by
  unfold copy
  rw [if_pos (memcpy2Ok_iff.mpr (Or.inr ⟨Nat.le_refl n, hn⟩)), read_eq h]

theorem copy_aborts {buf : Bytes} {o n : Nat} (hn : ¬ n ≤ 0x3FFFFFFF) :
    copy buf o n = .error .copyAborts := by
  unfold copy
  refine if_neg fun h => ?_
  rcases memcpy2Ok_iff.mp h with h0 | h1 <;> omega

@[simp] theorem ok_bind {α β : Type} (a : α) (f : α → Checked β) :
    (Except.ok a : Checked α) >>= f = f a := rfl

@[simp] theorem error_bind {α β : Type} (e : Fault) (f : α → Checked β) :
    (Except.error e : Checked α) >>= f = .error e := rfl

/-- A run that ended, with or without a result, did nothing wrong. -/
def Safe {α : Type} (x : Checked α) : Prop := ∃ a, x = .ok a

@[simp] theorem safe_ok {α : Type} (a : α) : Safe (.ok a : Checked α) := ⟨a, rfl⟩

@[simp] theorem not_safe_error {α : Type} (f : Fault) : ¬ Safe (.error f : Checked α) := by
  rintro ⟨a, h⟩
  cases h

end Checked

namespace BlockNode

section Records

variable (payload : Bytes) (pieces o : Nat)

def pieceIndexAt : Nat := uintAt payload o 2

def pieceLengthAt : Nat := uintAt payload (o + 2) 4

def pieceEnd : Nat := o + 6 + pieceLengthAt payload o

def pieceBufAt : Bytes := (payload.drop (o + 6)).take (pieceLengthAt payload o)

/-- The header of the record at `o` is inside the payload, its index is not larger
than the number of pieces, and its length is not zero. -/
def HeaderOk : Prop :=
  o + 6 ≤ payload.length ∧ pieceIndexAt payload o ≤ pieces ∧ pieceLengthAt payload o ≠ 0

def RecordOk : Prop := HeaderOk payload pieces o ∧ pieceEnd payload o ≤ payload.length

instance : Decidable (HeaderOk payload pieces o) := by
  unfold HeaderOk
  infer_instance

instance : Decidable (RecordOk payload pieces o) := by
  unfold RecordOk
  infer_instance

end Records

/-- The words of the bitset behind the bit count. -/
def bitWords (piecebuf : Bytes) : List Nat :=
  (List.range ((piecebuf.length - 4) / 4)).map fun i => uintAt piecebuf (4 + i * 4) 4

/-- A nonzero number with bytes behind it, as `CheckBuf` looks at it. -/
def HasContent (piecebuf : Bytes) : Prop := 4 < piecebuf.length ∧ uintAt piecebuf 0 4 ≠ 0

/-- The bitset says that every subpiece of the piece is held. -/
def Complete (piecebuf : Bytes) : Prop :=
  HasContent piecebuf ∧ isPieceComplete (bitWords piecebuf) (uintAt piecebuf 0 4) = true

instance (piecebuf : Bytes) : Decidable (HasContent piecebuf) := by
  unfold HasContent
  infer_instance

instance (piecebuf : Bytes) : Decidable (Complete piecebuf) := by
  unfold Complete
  infer_instance

/-- The offset after the record at `o`, when the loop goes on from there. -/
def nextPiece (payload : Bytes) (pieces o : Nat) : Option Nat :=
  if o < payload.length ∧ RecordOk payload pieces o ∧ Complete (pieceBufAt payload o) then
    some (pieceEnd payload o)
  else none

/-- What keeps one round from going wrong: the end of a record does not wrap, a
bitset has fewer than 256 words, and a complete piece is one of the node. -/
structure RoundSafe (payload : Bytes) (pieces o : Nat) : Prop where
  sum : HeaderOk payload pieces o → pieceEnd payload o < 2 ^ 32
  words : RecordOk payload pieces o → HasContent (pieceBufAt payload o) →
    (pieceLengthAt payload o - 4) / 4 < 256
  index : RecordOk payload pieces o → Complete (pieceBufAt payload o) →
    pieceIndexAt payload o ≠ pieces

theorem pieceBufAt_length {payload : Bytes} {pieces o : Nat} (h : RecordOk payload pieces o) :
    (pieceBufAt payload o).length = pieceLengthAt payload o := by
  have hEnd := h.2
  unfold pieceEnd at hEnd
  simp only [pieceBufAt, List.length_take, List.length_drop]
  omega

section ReadWords

variable {piecebuf : Bytes} {count : Nat}

/-- The word loop ends when its counter can reach the bound. -/
theorem readWords_eq (hCount : count < 256) (hInside : 4 + count * 4 ≤ piecebuf.length)
    {rounds i : Nat} (hRounds : count < i + rounds) (hi : i ≤ count) :
    readWords piecebuf count rounds i =
      .ok ((List.range' i (count - i)).map fun j => uintAt piecebuf (4 + j * 4) 4) := by
  induction rounds generalizing i with
  | zero => omega
  | succ rounds ih =>
      unfold readWords
      by_cases hLt : i < count
      · rw [if_pos hLt, Checked.read_eq (by omega), Nat.mod_eq_of_lt (by omega : i + 1 < 256),
          show count - i = count - (i + 1) + 1 by omega, List.range'_succ]
        simp only [Checked.ok_bind, ih (i := i + 1) (by omega) (by omega), List.map_cons]
        rfl
      · rw [if_neg hLt, show count - i = 0 by omega]
        rfl

/-- With 256 words or more the counter never reaches the bound, whatever the
number of rounds. -/
theorem readWords_endless (hCount : 256 ≤ count) (hInside : 4 + count * 4 ≤ piecebuf.length)
    {rounds i : Nat} (hi : i < 256) :
    readWords piecebuf count rounds i = .error .endless := by
  induction rounds generalizing i with
  | zero => rfl
  | succ rounds ih =>
      unfold readWords
      rw [if_pos (by omega), Checked.read_eq (by omega)]
      rw [Checked.ok_bind, ih (Nat.mod_lt _ (by decide)), Checked.error_bind]

end ReadWords

section Round

variable {payload : Bytes} {pieces o : Nat}

theorem pieceRound_of_not_headerOk (hSize : payload.length ≤ 0x3FFFFFFF)
    (ho : o < payload.length) (h : ¬ HeaderOk payload pieces o) :
    pieceRound payload pieces o = .ok .reject := by
  unfold pieceRound
  rw [Checked.sum_eq (by omega), Checked.ok_bind]
  split
  · rfl
  · rename_i hHeader
    rw [Checked.read_eq (by omega), Checked.ok_bind]
    split
    · rfl
    · rename_i hIndex
      rw [Checked.read_eq (by omega), Checked.ok_bind]
      refine if_pos ?_
      by_contra hLength
      exact h ⟨by omega, Nat.not_lt.mp hIndex, hLength⟩

/-- With an admitted header the round adds the length and looks at the record. -/
theorem pieceRound_of_headerOk (hSize : payload.length ≤ 0x3FFFFFFF)
    (h : HeaderOk payload pieces o) :
    pieceRound payload pieces o = (do
      let stop ← Checked.sum (o + 6) (pieceLengthAt payload o)
      if payload.length < stop then .ok .reject
      else
        let piecebuf ← Checked.copy payload (o + 6) (pieceLengthAt payload o)
        match checkBuf piecebuf with
        | none => .ok .reject
        | some (bitcount, bitbuffersize) =>
            if bitbuffersize = 0 then .ok (.leave stop)
            else
              let words ← readWords piecebuf (bitbuffersize / 4) 257 0
              if isPieceComplete words bitcount then
                .ok (.record (pieceIndexAt payload o) bitcount stop)
              else .ok (.leave stop)) := by
  obtain ⟨hInside, hIndex, hLength⟩ := h
  have hIndex' : ¬ pieces < leValue ((payload.drop o).take 2) := Nat.not_lt.mpr hIndex
  have hLength' : ¬ leValue ((payload.drop (o + 2)).take 4) = 0 := hLength
  unfold pieceRound
  rw [Checked.sum_eq (by omega), Checked.ok_bind, if_neg (by omega),
    Checked.read_eq (by omega), Checked.ok_bind, if_neg hIndex',
    Checked.read_eq (by omega), Checked.ok_bind, if_neg hLength']
  rfl

theorem pieceRound_wrapped (hSize : payload.length ≤ 0x3FFFFFFF)
    (h : HeaderOk payload pieces o) (hWrap : ¬ pieceEnd payload o < 2 ^ 32) :
    pieceRound payload pieces o = .error .wrappedSum := by
  rw [pieceRound_of_headerOk hSize h, Checked.sum_wrapped hWrap, Checked.error_bind]

theorem pieceRound_too_long (hSize : payload.length ≤ 0x3FFFFFFF)
    (h : HeaderOk payload pieces o) (hSum : pieceEnd payload o < 2 ^ 32)
    (hLong : ¬ RecordOk payload pieces o) : pieceRound payload pieces o = .ok .reject := by
  rw [pieceRound_of_headerOk hSize h, Checked.sum_eq hSum, Checked.ok_bind]
  exact if_pos (Nat.not_le.mp fun hLe => hLong ⟨h, hLe⟩)

theorem pieceRound_of_recordOk (hSize : payload.length ≤ 0x3FFFFFFF)
    (h : RecordOk payload pieces o) :
    pieceRound payload pieces o =
      if (pieceBufAt payload o).length < 4 then .ok .reject
      else if HasContent (pieceBufAt payload o) then do
        let words ← readWords (pieceBufAt payload o) ((pieceLengthAt payload o - 4) / 4) 257 0
        if isPieceComplete words (uintAt (pieceBufAt payload o) 0 4) then
          .ok (.record (pieceIndexAt payload o) (uintAt (pieceBufAt payload o) 0 4)
            (pieceEnd payload o))
        else .ok (.leave (pieceEnd payload o))
      else .ok (.leave (pieceEnd payload o)) := by
  have hLength := pieceBufAt_length h
  have hEnd := h.2
  have hCopy : Checked.copy payload (o + 6) (pieceLengthAt payload o) =
      .ok (pieceBufAt payload o) :=
    Checked.copy_eq hEnd (by unfold pieceEnd at hEnd; omega)
  have hSum : Checked.sum (o + 6) (pieceLengthAt payload o) = .ok (pieceEnd payload o) :=
    Checked.sum_eq (Nat.lt_of_le_of_lt hEnd (by omega))
  rw [pieceRound_of_headerOk hSize h.1, hSum, Checked.ok_bind, if_neg (Nat.not_lt.mpr hEnd),
    hCopy, Checked.ok_bind]
  unfold checkBuf
  by_cases hShort : (pieceBufAt payload o).length < 4
  · rw [if_pos hShort, if_pos hShort]
  · rw [if_neg hShort, if_neg hShort]
    dsimp only
    by_cases hBits : HasContent (pieceBufAt payload o)
    · have hSizePos : ¬ (pieceBufAt payload o).length - 4 = 0 := by
        have := hBits.1
        omega
      rw [if_pos hBits, if_neg hBits.2, if_neg hSizePos, hLength]
    · rw [if_neg hBits]
      refine if_pos ?_
      split
      · rfl
      · rename_i hCount
        by_contra hSizePos
        exact hBits ⟨by omega, hCount⟩

theorem pieceRound_endless (hSize : payload.length ≤ 0x3FFFFFFF)
    (h : RecordOk payload pieces o) (hBits : HasContent (pieceBufAt payload o))
    (hWords : ¬ (pieceLengthAt payload o - 4) / 4 < 256) :
    pieceRound payload pieces o = .error .endless := by
  have hLength := pieceBufAt_length h
  have hLong := hBits.1
  rw [pieceRound_of_recordOk hSize h, if_neg (by omega), if_pos hBits,
    readWords_endless (by omega) (by omega) (by decide), Checked.error_bind]

theorem pieceRound_bits (hSize : payload.length ≤ 0x3FFFFFFF)
    (h : RecordOk payload pieces o) (hBits : HasContent (pieceBufAt payload o))
    (hWords : (pieceLengthAt payload o - 4) / 4 < 256) :
    pieceRound payload pieces o =
      if Complete (pieceBufAt payload o) then
        .ok (.record (pieceIndexAt payload o) (uintAt (pieceBufAt payload o) 0 4)
          (pieceEnd payload o))
      else .ok (.leave (pieceEnd payload o)) := by
  have hLength := pieceBufAt_length h
  have hLong := hBits.1
  have hRead : readWords (pieceBufAt payload o) ((pieceLengthAt payload o - 4) / 4) 257 0 =
      .ok (bitWords (pieceBufAt payload o)) := by
    rw [readWords_eq hWords (by omega) (by omega) (Nat.zero_le _), Nat.sub_zero,
      ← List.range_eq_range', bitWords, hLength]
  rw [pieceRound_of_recordOk hSize h, if_neg (by omega), if_pos hBits, hRead, Checked.ok_bind]
  simp only [Complete, hBits, true_and]

/-- The round with unbounded integers. -/
def roundOf (payload : Bytes) (pieces o : Nat) : PieceRound :=
  if RecordOk payload pieces o ∧ 4 ≤ (pieceBufAt payload o).length then
    if Complete (pieceBufAt payload o) then
      .record (pieceIndexAt payload o) (uintAt (pieceBufAt payload o) 0 4) (pieceEnd payload o)
    else .leave (pieceEnd payload o)
  else .reject

theorem roundOf_record (hRecord : RecordOk payload pieces o)
    (hComplete : Complete (pieceBufAt payload o)) : roundOf payload pieces o =
      .record (pieceIndexAt payload o) (uintAt (pieceBufAt payload o) 0 4)
        (pieceEnd payload o) := by
  rw [roundOf, if_pos ⟨hRecord, Nat.le_of_lt hComplete.1.1⟩, if_pos hComplete]

theorem roundOf_leave (h : RecordOk payload pieces o ∧ 4 ≤ (pieceBufAt payload o).length)
    (hComplete : ¬ Complete (pieceBufAt payload o)) :
    roundOf payload pieces o = .leave (pieceEnd payload o) := by
  rw [roundOf, if_pos h, if_neg hComplete]

theorem roundOf_reject (h : ¬ (RecordOk payload pieces o ∧ 4 ≤ (pieceBufAt payload o).length)) :
    roundOf payload pieces o = .reject := if_neg h

/-- A round without a wrapped sum and with a short bitset is the unbounded one. -/
theorem pieceRound_eq (hSize : payload.length ≤ 0x3FFFFFFF) (ho : o < payload.length)
    (hSum : HeaderOk payload pieces o → pieceEnd payload o < 2 ^ 32)
    (hWords : RecordOk payload pieces o → HasContent (pieceBufAt payload o) →
      (pieceLengthAt payload o - 4) / 4 < 256) :
    pieceRound payload pieces o = .ok (roundOf payload pieces o) := by
  by_cases hHeader : HeaderOk payload pieces o
  · by_cases hRecord : RecordOk payload pieces o
    · by_cases hBits : HasContent (pieceBufAt payload o)
      · rw [pieceRound_bits hSize hRecord hBits (hWords hRecord hBits)]
        by_cases hComplete : Complete (pieceBufAt payload o)
        · rw [if_pos hComplete, roundOf_record hRecord hComplete]
        · rw [if_neg hComplete, roundOf_leave ⟨hRecord, Nat.le_of_lt hBits.1⟩ hComplete]
      · have hNot : ¬ Complete (pieceBufAt payload o) := fun h => hBits h.1
        rw [pieceRound_of_recordOk hSize hRecord, if_neg hBits]
        by_cases hShort : (pieceBufAt payload o).length < 4
        · rw [if_pos hShort, roundOf_reject fun h => Nat.not_lt.mpr h.2 hShort]
        · rw [if_neg hShort, roundOf_leave ⟨hRecord, Nat.not_lt.mp hShort⟩ hNot]
    · rw [pieceRound_too_long hSize hHeader (hSum hHeader) hRecord,
        roundOf_reject fun h => hRecord h.1]
  · rw [pieceRound_of_not_headerOk hSize ho hHeader, roundOf_reject fun h => hHeader h.1.1]

theorem pieceRound_unsafe (hSize : payload.length ≤ 0x3FFFFFFF)
    (h : ¬ ((HeaderOk payload pieces o → pieceEnd payload o < 2 ^ 32) ∧
      (RecordOk payload pieces o → HasContent (pieceBufAt payload o) →
        (pieceLengthAt payload o - 4) / 4 < 256))) :
    ∃ f, pieceRound payload pieces o = .error f := by
  rw [not_and_or] at h
  rcases h with hSum | hWords
  · simp only [Classical.not_imp] at hSum
    exact ⟨_, pieceRound_wrapped hSize hSum.1 hSum.2⟩
  · simp only [Classical.not_imp] at hWords
    exact ⟨_, pieceRound_endless hSize hWords.1 hWords.2.1 hWords.2.2⟩

end Round

section Loop

variable {payload : Bytes} {pieces o : Nat}

/-- Where the loop is when it ends at `o`; `none` when the function gives up. -/
def stopOf (payload : Bytes) (pieces o : Nat) : Option Nat :=
  if o < payload.length then
    if RecordOk payload pieces o ∧ 4 ≤ (pieceBufAt payload o).length then
      some (pieceEnd payload o)
    else none
  else some o

theorem nextPiece_eq_some {o' : Nat} : nextPiece payload pieces o = some o' ↔
    (o < payload.length ∧ RecordOk payload pieces o ∧ Complete (pieceBufAt payload o)) ∧
      pieceEnd payload o = o' := by
  unfold nextPiece
  split <;> simp_all

theorem nextPiece_lt {o' : Nat} (h : nextPiece payload pieces o = some o') : o < o' := by
  obtain ⟨-, rfl⟩ := nextPiece_eq_some.mp h
  unfold pieceEnd
  omega

/-- A loop that started inside the payload ends inside it. -/
theorem visits_le {o' : Nat} (h : Visits (nextPiece payload pieces) o o')
    (ho : o ≤ payload.length) : o' ≤ payload.length := by
  induction h with
  | refl => exact ho
  | tail _ hLast ih =>
      obtain ⟨⟨-, hRecord, -⟩, rfl⟩ := nextPiece_eq_some.mp hLast
      exact hRecord.2

theorem stopOf_le {e : Nat} (he : e ≤ payload.length) {stop : Nat}
    (h : stopOf payload pieces e = some stop) : stop ≤ payload.length := by
  unfold stopOf at h
  split at h
  · split at h
    · rename_i hRecord
      cases h
      exact hRecord.1.2
    · cases h
  · cases h
    exact he

/-- The loop ends well exactly when each record it visits is safe. -/
theorem parsePieces_safe_iff (hSize : payload.length ≤ 0x3FFFFFFF) {rounds : Nat}
    {node : BlockNode} (hPieces : node.pieceCount.length = pieces)
    (hRounds : payload.length - o < rounds) :
    Checked.Safe (parsePieces payload rounds o node) ↔
      ∀ o', Visits (nextPiece payload pieces) o o' → o' < payload.length →
        RoundSafe payload pieces o' := by
  induction rounds generalizing o node with
  | zero => omega
  | succ rounds ih =>
      unfold parsePieces
      by_cases ho : o < payload.length
      · rw [if_pos ho, hPieces]
        by_cases hRound : (HeaderOk payload pieces o → pieceEnd payload o < 2 ^ 32) ∧
            (RecordOk payload pieces o → HasContent (pieceBufAt payload o) →
              (pieceLengthAt payload o - 4) / 4 < 256)
        · rw [pieceRound_eq hSize ho hRound.1 hRound.2, Checked.ok_bind]
          by_cases hNext : RecordOk payload pieces o ∧ Complete (pieceBufAt payload o)
          · have hStep : nextPiece payload pieces o = some (pieceEnd payload o) :=
              nextPiece_eq_some.mpr ⟨⟨ho, hNext⟩, rfl⟩
            rw [forall_visits_of_step hStep]
            rw [roundOf_record hNext.1 hNext.2]
            dsimp only
            by_cases hIndex : pieceIndexAt payload o < pieces
            · have hLt := nextPiece_lt hStep
              rw [if_pos hIndex, ih (by simpa using hPieces) (by omega)]
              exact ⟨fun h => ⟨fun _ => ⟨hRound.1, hRound.2, fun _ _ => Nat.ne_of_lt hIndex⟩, h⟩,
                And.right⟩
            · rw [if_neg hIndex]
              simp only [Checked.not_safe_error, false_iff, not_and]
              have hLe := hNext.1.1.2.1
              exact fun hSafe => absurd (by omega) ((hSafe ho).index hNext.1 hNext.2)
          · have hStop : nextPiece payload pieces o = none :=
              if_neg fun h => hNext h.2
            rw [forall_visits_of_stop hStop]
            have hSafe : RoundSafe payload pieces o :=
              ⟨hRound.1, hRound.2, fun h1 h2 => absurd ⟨h1, h2⟩ hNext⟩
            refine iff_of_true ?_ fun _ => hSafe
            by_cases hRecord : RecordOk payload pieces o ∧ 4 ≤ (pieceBufAt payload o).length
            · rw [roundOf_leave hRecord fun h => hNext ⟨hRecord.1, h⟩]
              exact Checked.safe_ok _
            · rw [roundOf_reject hRecord]
              exact Checked.safe_ok _
        · obtain ⟨f, hError⟩ := pieceRound_unsafe hSize hRound
          rw [hError, Checked.error_bind]
          refine iff_of_false (Checked.not_safe_error f) fun hAll => hRound ?_
          have hSafe := hAll o (Visits.refl o) ho
          exact ⟨hSafe.sum, hSafe.words⟩
      · rw [if_neg ho]
        have hStop : nextPiece payload pieces o = none := if_neg fun h => ho h.1
        rw [forall_visits_of_stop hStop]
        exact iff_of_true (Checked.safe_ok _) fun h => absurd h ho

/-- A loop that ends well has walked to the end of its records. It gives up there,
or returns a node that differs in its piece counts only. -/
theorem parsePieces_result (hSize : payload.length ≤ 0x3FFFFFFF) {rounds : Nat}
    {node : BlockNode} (hPieces : node.pieceCount.length = pieces)
    {result : Option (BlockNode × Nat)} (h : parsePieces payload rounds o node = .ok result) :
    ∃ e, Visits (nextPiece payload pieces) o e ∧ nextPiece payload pieces e = none ∧
      (result = none ∧ stopOf payload pieces e = none ∨
        ∃ counts stop, result = some ({ node with pieceCount := counts }, stop) ∧
          counts.length = pieces ∧ stopOf payload pieces e = some stop) := by
  induction rounds generalizing o node with
  | zero => cases h
  | succ rounds ih =>
      unfold parsePieces at h
      by_cases ho : o < payload.length
      · rw [if_pos ho, hPieces] at h
        by_cases hRound : (HeaderOk payload pieces o → pieceEnd payload o < 2 ^ 32) ∧
            (RecordOk payload pieces o → HasContent (pieceBufAt payload o) →
              (pieceLengthAt payload o - 4) / 4 < 256)
        · rw [pieceRound_eq hSize ho hRound.1 hRound.2, Checked.ok_bind] at h
          by_cases hNext : RecordOk payload pieces o ∧ Complete (pieceBufAt payload o)
          · have hStep : nextPiece payload pieces o = some (pieceEnd payload o) :=
              nextPiece_eq_some.mpr ⟨⟨ho, hNext⟩, rfl⟩
            rw [roundOf_record hNext.1 hNext.2] at h
            dsimp only at h
            split at h
            · obtain ⟨e, hVisits, hEnd, hResult⟩ := ih (by simpa using hPieces) h
              exact ⟨e, hVisits.head hStep, hEnd, hResult⟩
            · cases h
          · refine ⟨o, Visits.refl o, if_neg fun h => hNext h.2, ?_⟩
            by_cases hRecord : RecordOk payload pieces o ∧ 4 ≤ (pieceBufAt payload o).length
            · rw [roundOf_leave hRecord fun h => hNext ⟨hRecord.1, h⟩] at h
              cases h
              exact Or.inr ⟨_, _, rfl, hPieces, by rw [stopOf, if_pos ho, if_pos hRecord]⟩
            · rw [roundOf_reject hRecord] at h
              cases h
              exact Or.inl ⟨rfl, by rw [stopOf, if_pos ho, if_neg hRecord]⟩
        · obtain ⟨f, hError⟩ := pieceRound_unsafe hSize hRound
          rw [hError, Checked.error_bind] at h
          cases h
      · rw [if_neg ho] at h
        cases h
        exact ⟨o, Visits.refl o, if_neg fun h => ho h.1,
          Or.inr ⟨_, _, rfl, hPieces, by rw [stopOf, if_neg ho]⟩⟩

end Loop

section Payload

/-- The number in front of a block buffer. -/
def totalAt (buf : Bytes) : Nat := uintAt buf 0 4

/-- The next record of a block buffer. Offsets count from behind its number. -/
def nextIn (buf : Bytes) : Nat → Option Nat := nextPiece (buf.drop 4) (piecesOf (totalAt buf))

/-- Every record that the reader visits is safe. -/
def PayloadSafe (buf : Bytes) : Prop :=
  HasContent buf → ∀ o, Visits (nextIn buf) 0 o → o < (buf.drop 4).length →
    RoundSafe (buf.drop 4) (piecesOf (totalAt buf)) o

/-- The reader ends at `stop`, or gives up when that is `none`. -/
def EndsAt (buf : Bytes) (stop : Option Nat) : Prop :=
  ∃ e, Visits (nextIn buf) 0 e ∧ nextIn buf e = none ∧
    stopOf (buf.drop 4) (piecesOf (totalAt buf)) e = stop

/-- The block buffer is not rejected. -/
def Accepted (buf : Bytes) : Prop :=
  4 ≤ buf.length ∧ (HasContent buf → ∃ stop, EndsAt buf (some stop))

/-- The block buffer gives a node: the reader leaves it at its very end. -/
def Kept (buf : Bytes) : Prop := HasContent buf ∧ EndsAt buf (some (buf.drop 4).length)

variable {buf : Bytes} {index : Nat}

theorem EndsAt.unique {stop stop' : Option Nat} (h : EndsAt buf stop) (h' : EndsAt buf stop') :
    stop = stop' := by
  obtain ⟨e, hVisits, hEnd, rfl⟩ := h
  obtain ⟨e', hVisits', hEnd', rfl⟩ := h'
  rw [hVisits.end_unique hEnd hVisits' hEnd']

theorem checkBuf_of_hasContent (h : HasContent buf) :
    checkBuf buf = some (totalAt buf, buf.length - 4) := by
  have hLong := h.1
  rw [checkBuf, if_neg (by omega), if_neg h.2]
  rfl

/-- Without content a block buffer is rejected or stands for a block without a
node. -/
theorem parse_of_not_hasContent (h : ¬ HasContent buf) :
    parse index buf = .ok (if 4 ≤ buf.length then some none else none) := by
  unfold parse checkBuf
  by_cases hShort : buf.length < 4
  · rw [if_pos hShort, if_neg (by omega)]
  · have hEmpty : (if uintAt buf 0 4 = 0 then 0 else buf.length - 4) = 0 := by
      split
      · rfl
      · rename_i hTotal
        by_contra hSize
        exact h ⟨by omega, hTotal⟩
    rw [if_neg hShort, hEmpty, if_pos (Nat.not_lt.mp hShort)]
    exact if_pos rfl

theorem parse_of_hasContent (h : HasContent buf) :
    parse index buf = (do
      match ← parsePieces (buf.drop 4) (buf.length - 4 + 1) 0 (create index (totalAt buf) false) with
      | none => .ok none
      | some (node, offset) =>
          .ok (some (if offset < buf.length - 4 then none
            else some { node with nodeState := .disk }))) := by
  have hLong := h.1
  unfold parse
  rw [checkBuf_of_hasContent h]
  exact if_neg (by omega)

theorem pieces_safe_iff (index : Nat) (hSize : buf.length ≤ 0x3FFFFFFF) :
    Checked.Safe (parse index buf) ↔ PayloadSafe buf := by
  by_cases hContent : HasContent buf
  · have hLoop := parsePieces_safe_iff (o := 0)
      (show (buf.drop 4).length ≤ 0x3FFFFFFF by simp only [List.length_drop]; omega)
      (create_pieces index (totalAt buf) false)
      (show (buf.drop 4).length - 0 < buf.length - 4 + 1 by simp only [List.length_drop]; omega)
    rw [parse_of_hasContent hContent, PayloadSafe]
    simp only [hContent, true_imp_iff]
    rw [nextIn, ← hLoop]
    cases hRun : parsePieces (buf.drop 4) (buf.length - 4 + 1) 0
        (create index (totalAt buf) false) with
    | error f =>
        rw [Checked.error_bind]
        exact iff_of_false (Checked.not_safe_error f) (Checked.not_safe_error f)
    | ok result =>
        rw [Checked.ok_bind]
        refine iff_of_true ?_ (Checked.safe_ok result)
        rcases result with - | ⟨node, offset⟩ <;> exact Checked.safe_ok _
  · rw [parse_of_not_hasContent hContent]
    exact iff_of_true (Checked.safe_ok _) fun h => absurd h hContent

/-- A node as `Parse` makes it: on disk and without a subpiece in memory. -/
structure OnDiskOnly (index : Nat) (node : BlockNode) : Prop where
  index_eq : node.index = index
  state_eq : node.nodeState = .disk
  needWrite_eq : node.needWrite = false
  keys_eq : node.keys = ∅

/-- What the returned value says about the bytes. -/
inductive ParseResult (index : Nat) (buf : Bytes) : Option (Option BlockNode) → Prop where
  | rejected (h : ¬ Accepted buf) : ParseResult index buf none
  | noNode (h : Accepted buf) (hKept : ¬ Kept buf) : ParseResult index buf (some none)
  | kept (node : BlockNode) (h : Accepted buf) (hKept : Kept buf)
      (hTotal : node.totalSubpieceCount = totalAt buf) (hNode : OnDiskOnly index node)
      (hPieces : node.pieceCount.length = piecesOf node.totalSubpieceCount) :
      ParseResult index buf (some (some node))

theorem parse_result (hSize : buf.length ≤ 0x3FFFFFFF) {result : Option (Option BlockNode)}
    (h : parse index buf = .ok result) : ParseResult index buf result := by
  by_cases hContent : HasContent buf
  · have hLong := hContent.1
    have hDrop : (buf.drop 4).length = buf.length - 4 := List.length_drop
    rw [parse_of_hasContent hContent] at h
    cases hRun : parsePieces (buf.drop 4) (buf.length - 4 + 1) 0
        (create index (totalAt buf) false) with
    | error f =>
        rw [hRun, Checked.error_bind] at h
        cases h
    | ok loop =>
        obtain ⟨e, hVisits, hEnd, hLoop⟩ := parsePieces_result
          (show (buf.drop 4).length ≤ 0x3FFFFFFF by omega) (create_pieces index (totalAt buf) false) hRun
        rw [hRun, Checked.ok_bind] at h
        rcases hLoop with ⟨rfl, hStop⟩ | ⟨counts, stop, rfl, hCounts, hStop⟩
        · cases h
          refine .rejected fun hAccepted => ?_
          obtain ⟨stop, hEnds⟩ := hAccepted.2 hContent
          cases hEnds.unique ⟨e, hVisits, hEnd, hStop⟩
        · have hEnds : EndsAt buf (some stop) := ⟨e, hVisits, hEnd, hStop⟩
          have hAccepted : Accepted buf := ⟨by omega, fun _ => ⟨stop, hEnds⟩⟩
          have hLe := stopOf_le (visits_le hVisits (Nat.zero_le _)) hStop
          cases h
          by_cases hLt : stop < buf.length - 4
          · rw [if_pos hLt]
            refine .noNode hAccepted fun hKept => ?_
            have hSame := Option.some.inj (hKept.2.unique hEnds)
            omega
          · rw [if_neg hLt]
            have hAll : stop = (buf.drop 4).length := by omega
            exact .kept _ hAccepted ⟨hContent, hAll ▸ hEnds⟩ rfl ⟨rfl, rfl, rfl, rfl⟩
              hCounts
  · rw [parse_of_not_hasContent hContent] at h
    cases h
    split
    · rename_i hFour
      exact .noNode ⟨hFour, fun h => absurd h hContent⟩ fun hKept => hContent hKept.1
    · rename_i hFour
      exact .rejected fun h => hFour h.1

end Payload

end BlockNode

end Storage
