import Peer.Live.BlockNode

/-! What the steps of `AddSubPiece` do to the slots of a block. A piece is looked at
through the function from indices to buffers, so that the same piece can be compared
in two nodes. -/
namespace Live

open Basis Storage HeaderSubPiece

abbrev Slots := Nat → Option LiveSubPieceBuffer

section Vectors

variable {slots : List (Option LiveSubPieceBuffer)} {size i j : Nat}

@[simp] theorem resize_length (slots : List (Option LiveSubPieceBuffer)) (size : Nat) :
    (resize slots size).length = size := by
  simp only [resize, List.length_append, List.length_take, List.length_replicate]
  omega

theorem resize_getD (slots : List (Option LiveSubPieceBuffer)) (size i : Nat) :
    (resize slots size).getD i none = if i < size then slots.getD i none else none := by
  simp only [resize, List.getD_eq_getElem?_getD, List.getElem?_append, List.length_take,
    List.getElem?_take, List.getElem?_replicate]
  by_cases hSize : i < size
  · by_cases hIn : i < slots.length
    · simp [hSize, hIn]
    · simp [hSize, hIn]
      split <;> rfl
  · have hOut : ¬ i < min size slots.length := by omega
    have hPast : ¬ i - min size slots.length < size - slots.length := by omega
    simp [hSize, hOut, hPast]

theorem set_getD (slots : List (Option LiveSubPieceBuffer)) (i j : Nat)
    (buffer : Option LiveSubPieceBuffer) (hi : i < slots.length) :
    (slots.set i buffer).getD j none = if j = i then buffer else slots.getD j none := by
  simp only [List.getD_eq_getElem?_getD, List.getElem?_set]
  by_cases h : j = i
  · simp [h, hi]
  · simp [h, Ne.symm h]

end Vectors

section Pieces

/-- Subpiece `j` belongs to piece `p`. Subpiece 0 belongs to none. -/
def InPiece (p j : Nat) : Prop := 16 * p + 1 ≤ j ∧ j < 16 * p + 17

instance (p j : Nat) : Decidable (InPiece p j) := inferInstanceAs (Decidable (_ ∧ _))

theorem InPiece.of_pos {j : Nat} (h : 0 < j) : InPiece ((j - 1) / 16) j := by
  unfold InPiece
  omega

theorem InPiece.eq_of_mem {p q j : Nat} (hp : InPiece p j) (hq : InPiece q j) : p = q := by
  unfold InPiece at hp hq
  omega

theorem getPieceIndex_eq {j : Nat} (hPos : 0 < j) (hj : j < 2 ^ 16) :
    LiveBlockNode.getPieceIndex j = (j - 1) / 16 := by
  have hDiv : (j - 1) / 16 < 2 ^ 16 := by omega
  rw [LiveBlockNode.getPieceIndex, subU32_of_le (by omega) hPos, subPiecesPerPiece, u16_of_lt hDiv]

/-- Every subpiece of piece `p` of a block of `count` subpieces is there. -/
def PieceComplete (slots : Slots) (count p : Nat) : Prop :=
  16 * p + 1 < count ∧ ∀ j, InPiece p j → j < count → (slots j).isSome = true

/-- The bytes of piece `p`. -/
def pieceData (slots : Slots) (count p : Nat) : Bytes :=
  ((List.range' (16 * p + 1) (min (16 * p + 17) count - (16 * p + 1))).map slots).flatMap fun slot =>
    match slot with
    | some buffer => buffer.data
    | none => []

def PieceGood (D : Digests) (header : HeaderSubPiece) (slots : Slots) (count p : Nat) : Prop :=
  header.getPieceChecksum p = D.checkSumNew (pieceData slots count p)

variable {slots slots' : Slots} {count p : Nat}

theorem PieceComplete.congr (h : ∀ j, InPiece p j → j < count → slots j = slots' j)
    (hComplete : PieceComplete slots count p) : PieceComplete slots' count p := by
  refine ⟨hComplete.1, fun j hj hLt => ?_⟩
  rw [← h j hj hLt]
  exact hComplete.2 j hj hLt

theorem pieceData_congr (h : ∀ j, InPiece p j → j < count → slots j = slots' j) :
    pieceData slots count p = pieceData slots' count p := by
  unfold pieceData
  congr 1
  apply List.map_congr_left
  intro j hMem
  rw [List.mem_range'_1] at hMem
  apply h j
  · unfold InPiece
    omega
  · omega

theorem PieceGood.congr {D : Digests} {header : HeaderSubPiece}
    (h : ∀ j, InPiece p j → j < count → slots j = slots' j)
    (hGood : PieceGood D header slots count p) : PieceGood D header slots' count p := by
  unfold PieceGood at hGood ⊢
  rw [← pieceData_congr h]
  exact hGood

end Pieces

namespace LiveBlockNode

variable {D : Digests} {node : LiveBlockNode} {p : Nat}

theorem slot_of_le {i : Nat} (h : node.subpieces.length ≤ i) : node.slot i = none := by
  simp [slot, List.getElem?_eq_none h]

theorem lt_of_slot {i : Nat} (h : (node.slot i).isSome = true) : i < node.subpieces.length := by
  by_contra hLe
  rw [slot_of_le (Nat.not_lt.mp hLe)] at h
  cases h

/-- A node with a header sees its last piece. -/
theorem isPieceComplete_iff (hHeader : node.hasHeaderSubPiece = true)
    (hp : p < maximumPiecesPerBlock) :
    node.isPieceComplete p = true ↔ PieceComplete node.slot node.subpieces.length p := by
  have hFirst : getFirstSubPieceIndex p = 16 * p + 1 := rfl
  unfold isPieceComplete PieceComplete
  rw [if_neg (Nat.not_le.mpr hp), hFirst, hHeader]
  simp only [Bool.not_true, Bool.and_false, Bool.false_eq_true, if_false]
  by_cases hLt : 16 * p + 1 < node.subpieces.length
  · have hEnd : node.pieceEnd p = min (16 * p + 17) node.subpieces.length := rfl
    rw [if_neg (Nat.not_le.mpr hLt), pieceSlots, List.all_map, List.all_eq_true, hFirst, hEnd]
    constructor
    · intro h
      refine ⟨hLt, fun j hj hCount => h j (List.mem_range'_1.mpr ?_)⟩
      unfold InPiece at hj
      omega
    · intro h j hMem
      rw [List.mem_range'_1] at hMem
      apply h.2 j
      · unfold InPiece
        omega
      · omega
  · rw [if_pos (Nat.not_lt.mp hLt)]
    simp [hLt]

section Drop

@[simp] theorem dropSubPiece_slot (node : LiveBlockNode) (i j : Nat) :
    (node.dropSubPiece i).slot j = if j = i then none else node.slot j := by
  unfold dropSubPiece
  by_cases hi : i < node.subpieces.length
  · rw [if_pos hi]
    exact set_getD node.subpieces i j none hi
  · rw [if_neg hi]
    split
    · rename_i h
      rw [h, slot_of_le (Nat.not_lt.mp hi)]
    · rfl

/-- Nothing but slots changed. -/
structure SlotsOnly (node node' : LiveBlockNode) : Prop where
  length_eq : node'.subpieces.length = node.subpieces.length
  rest_eq : node' = { node with subpieces := node'.subpieces }

theorem SlotsOnly.refl (node : LiveBlockNode) : SlotsOnly node node := ⟨rfl, rfl⟩

theorem SlotsOnly.trans {node' node'' : LiveBlockNode} (h : SlotsOnly node node')
    (h' : SlotsOnly node' node'') : SlotsOnly node node'' := by
  refine ⟨h'.length_eq.trans h.length_eq, ?_⟩
  rw [h'.rest_eq, h.rest_eq]

theorem dropSubPiece_slotsOnly (node : LiveBlockNode) (i : Nat) :
    SlotsOnly node (node.dropSubPiece i) := by
  unfold dropSubPiece
  split
  · exact ⟨List.length_set .., rfl⟩
  · exact SlotsOnly.refl node

theorem dropFrom_slot (node : LiveBlockNode) (start count : Nat) :
    SlotsOnly node ((List.range' start count).foldl dropSubPiece node) ∧
      ∀ j, ((List.range' start count).foldl dropSubPiece node).slot j =
        if start ≤ j ∧ j < start + count then none else node.slot j := by
  induction count generalizing node start with
  | zero =>
      refine ⟨SlotsOnly.refl node, fun j => ?_⟩
      rw [if_neg (by omega)]
      rfl
  | succ count ih =>
      rw [List.range'_succ, List.foldl_cons]
      obtain ⟨hOnly, hSlot⟩ := ih (node.dropSubPiece start) (start + 1)
      refine ⟨(dropSubPiece_slotsOnly node start).trans hOnly, fun j => ?_⟩
      rw [hSlot, dropSubPiece_slot]
      by_cases hj : j = start
      · rw [if_neg (by omega), if_pos hj, if_pos (by omega)]
      · rw [if_neg hj]
        congr 1
        apply propext
        omega

theorem dropPiece_slot (node : LiveBlockNode) (hp : p < maximumPiecesPerBlock) :
    SlotsOnly node (node.dropPiece p) ∧
      ∀ j, (node.dropPiece p).slot j = if InPiece p j then none else node.slot j := by
  unfold dropPiece
  rw [if_neg (Nat.not_le.mpr hp)]
  split
  · rename_i hPast
    refine ⟨SlotsOnly.refl node, fun j => ?_⟩
    split
    · rename_i hIn
      exact slot_of_le (hPast.trans hIn.1)
    · rfl
  · exact dropFrom_slot node _ _

end Drop

end LiveBlockNode

end Live
