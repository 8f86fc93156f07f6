import Peer.Live.BlockIntegrity

/-! The outcome of one `AddSubPiece`: a packet is ignored, stored, completes a piece or
makes a piece be dropped, and the header checks what was gathered before it. -/
namespace Live

open Basis Storage HeaderSubPiece

namespace LiveBlockNode

variable {D : Digests} {node node' : LiveBlockNode} {header : HeaderSubPiece}
  {buffer : Option LiveSubPieceBuffer} {i p : Nat}

/-- The slots after buffer `i` was put in. -/
def put (slots : Slots) (i : Nat) (buffer : Option LiveSubPieceBuffer) : Slots :=
  fun j => if j = i then buffer else slots j

/-- What `AddSubPiece` does with subpiece `i` of a node that has its header. -/
inductive Added (D : Digests) (header : HeaderSubPiece) (i : Nat)
    (buffer : Option LiveSubPieceBuffer) (node : LiveBlockNode) : LiveBlockNode → Prop where
  | ignored (h : (node.slot i).isSome = true ∨ node.subpieces.length ≤ i) :
      Added D header i buffer node node
  | stored (hLt : i < node.subpieces.length) (hNone : node.slot i = none)
      (hPart : ¬ PieceComplete (put node.slot i buffer) node.subpieces.length ((i - 1) / 16)) :
      Added D header i buffer node { node with subpieces := node.subpieces.set i buffer }
  | completed (hLt : i < node.subpieces.length) (hNone : node.slot i = none)
      (hComplete : PieceComplete (put node.slot i buffer) node.subpieces.length ((i - 1) / 16))
      (hGood : PieceGood D header (put node.slot i buffer) node.subpieces.length ((i - 1) / 16)) :
      Added D header i buffer node { node with
        subpieces := node.subpieces.set i buffer
        validatedPieces := insert ((i - 1) / 16) node.validatedPieces }
  | rejected (node' : LiveBlockNode) (hLt : i < node.subpieces.length) (hNone : node.slot i = none)
      (hComplete : PieceComplete (put node.slot i buffer) node.subpieces.length ((i - 1) / 16))
      (hBad : ¬ PieceGood D header (put node.slot i buffer) node.subpieces.length ((i - 1) / 16))
      (hRest : SlotsOnly { node with checksumFailedTimes := u32 (node.checksumFailedTimes + 1) } node')
      (hSlot : ∀ j, node'.slot j = if InPiece ((i - 1) / 16) j then none else node.slot j) :
      Added D header i buffer node node'

theorem slot_set (hLt : i < node.subpieces.length) :
    slot { node with subpieces := node.subpieces.set i buffer } = put node.slot i buffer := by
  funext j
  exact set_getD node.subpieces i j buffer hLt

/-- A piece whose last missing subpiece arrives was not validated before. -/
theorem CheckedUpTo.notMem_of_none {limit : Nat} (h : CheckedUpTo D header limit node)
    (hPos : 0 < i) (hLt : i < node.subpieces.length) (hNone : node.slot i = none) :
    (i - 1) / 16 ∉ node.validatedPieces := by
  intro hMem
  have hSome := ((h.mem_iff _).mp hMem).2.2 i (InPiece.of_pos hPos) hLt
  rw [hNone] at hSome
  cases hSome

theorem addSubPiece_added {limit : Nat} (h : CheckedUpTo D header limit node) (hPos : 0 < i)
    (buffer : Option LiveSubPieceBuffer) :
    Added D header i buffer node (node.addSubPiece D i buffer).1 := by
  by_cases hSome : (node.slot i).isSome = true
  · have hLt := lt_of_slot hSome
    unfold addSubPiece
    rw [if_pos (by simp [hLt, hSome])]
    exact .ignored (Or.inl hSome)
  by_cases hLt : i < node.subpieces.length
  · have hNone : node.slot i = none := by simpa using hSome
    have hBounds := subpieceCount_bounds h.describes.1
    have hLength := h.length_eq
    have hp : (i - 1) / 16 < maximumPiecesPerBlock := by
      have hMax : maximumPiecesPerBlock = 338 := rfl
      omega
    have hAdd : (node.addSubPiece D i buffer).1 =
        dropPieceIfInvalid D { node with subpieces := node.subpieces.set i buffer }
          ((i - 1) / 16) := by
      have hHas : hasHeaderSubPiece { node with subpieces := node.subpieces.set i buffer } = true :=
        h.hasHeader
      unfold addSubPiece
      rw [if_neg (by simp [hNone]), if_neg (by simp [hLt])]
      simp only [Nat.not_le.mpr hLt, if_false, Nat.ne_of_gt hPos, dropDataIfNecessary, hHas, if_true,
        getPieceIndex_eq hPos (show i < 2 ^ 16 by omega)]
    rw [hAdd]
    have hLength' : (node.subpieces.set i buffer).length = node.subpieces.length :=
      List.length_set ..
    have hNew := h.notMem_of_none hPos hLt hNone
    have hIn := InPiece.of_pos hPos
    have hChecked : PieceChecked D header ((i - 1) / 16)
        { node with subpieces := node.subpieces.set i buffer }
        (dropPieceIfInvalid D { node with subpieces := node.subpieces.set i buffer }
          ((i - 1) / 16)) := dropPieceIfInvalid_checked h.header_eq h.flag_eq hp
    generalize dropPieceIfInvalid D { node with subpieces := node.subpieces.set i buffer }
      ((i - 1) / 16) = result at hChecked ⊢
    cases hChecked with
    | untouched hWhy =>
        refine .stored hLt hNone ?_
        rw [slot_set hLt, hLength'] at hWhy
        exact hWhy.resolve_right hNew
    | validated hComplete hGood =>
        rw [slot_set hLt, hLength'] at hComplete hGood
        exact .completed hLt hNone hComplete hGood
    | dropped _ _ hComplete hBad hRest hSlot =>
        rw [slot_set hLt, hLength'] at hComplete hBad
        refine .rejected _ hLt hNone hComplete hBad ⟨hRest.length_eq.trans hLength', hRest.rest_eq⟩ ?_
        intro j
        rw [hSlot, slot_set hLt]
        split
        · rfl
        · rename_i hOut
          exact if_neg fun hEq : j = i => hOut (hEq ▸ hIn)
  · unfold addSubPiece
    have hLe := Nat.not_lt.mp hLt
    rw [if_neg (by simp [hLt]), if_pos (by simp [hLe, h.hasHeader])]
    exact .ignored (Or.inr hLe)

theorem put_of_ne {slots : Slots} {j : Nat} (h : j ≠ i) : put slots i buffer j = slots j := if_neg h

/-- Putting a subpiece of another piece changes nothing in piece `p`. -/
theorem put_of_other {slots : Slots} (hPos : 0 < i) (hp : p ≠ (i - 1) / 16) :
    ∀ j, InPiece p j → put slots i buffer j = slots j := by
  intro j hIn
  apply put_of_ne
  rintro rfl
  exact hp (hIn.eq_of_mem (InPiece.of_pos hPos))

/-- The checks are kept up to date by every later packet. -/
theorem CheckedUpTo.added (h : CheckedUpTo D header (pieceCount header) node) (hPos : 0 < i)
    (hAdded : Added D header i buffer node node') :
    CheckedUpTo D header (pieceCount header) node' := by
  have hIn := InPiece.of_pos hPos
  have hFirst : put node.slot i buffer 0 = node.slot 0 := put_of_ne (Nat.ne_of_lt hPos)
  have hLength : (node.subpieces.set i buffer).length = node.subpieces.length := List.length_set ..
  have hOther : ∀ p, p ≠ (i - 1) / 16 →
      (PieceComplete (put node.slot i buffer) node.subpieces.length p ↔
        PieceComplete node.slot node.subpieces.length p) := by
    intro p hp
    exact ⟨PieceComplete.congr fun j hj _ => put_of_other hPos hp j hj,
      PieceComplete.congr fun j hj _ => (put_of_other hPos hp j hj).symm⟩
  have hBefore : ∀ hLt : i < node.subpieces.length, node.slot i = none →
      ¬ PieceComplete node.slot node.subpieces.length ((i - 1) / 16) := by
    intro hLt hNone hComplete
    have hSome := hComplete.2 i hIn hLt
    rw [hNone] at hSome
    cases hSome
  cases hAdded with
  | ignored => exact h
  | stored hLt hNone hPart =>
      have hNew := h.notMem_of_none hPos hLt hNone
      refine { h with
        length_eq := hLength.trans h.length_eq
        buffer := ?_
        mem_iff := fun p => ?_
        good := fun p hMem => ?_ }
      · rw [slot_set hLt, hFirst]
        exact h.buffer
      · rw [slot_set hLt, hLength]
        change p ∈ node.validatedPieces ↔ _
        rw [h.mem_iff]
        by_cases hp : p = (i - 1) / 16
        · rw [hp]
          simp [hPart, hBefore hLt hNone]
        · rw [hOther p hp]
      · have hp : p ≠ (i - 1) / 16 := fun hEq => hNew (hEq ▸ hMem)
        rw [slot_set hLt, hLength]
        exact (h.good p hMem).congr fun j hj _ => (put_of_other hPos hp j hj).symm
  | completed hLt hNone hComplete hGood =>
      have hNew := h.notMem_of_none hPos hLt hNone
      have hLimit : (i - 1) / 16 < pieceCount header := by
        rw [lt_pieceCount_iff h.describes.1, ← h.length_eq]
        exact hComplete.1
      refine { h with
        length_eq := hLength.trans h.length_eq
        buffer := ?_
        mem_iff := fun p => ?_
        good := fun p hMem => ?_ }
      · change ∃ buffer', slot { node with subpieces := node.subpieces.set i buffer } 0 = _ ∧ _
        rw [slot_set hLt, hFirst]
        exact h.buffer
      · change p ∈ insert _ node.validatedPieces ↔ _ ∧ PieceComplete
          (slot { node with subpieces := node.subpieces.set i buffer }) _ p
        rw [slot_set hLt, hLength, Finset.mem_insert, h.mem_iff]
        by_cases hp : p = (i - 1) / 16
        · rw [hp]
          simp [hComplete, hLimit]
        · rw [hOther p hp]
          simp [hp]
      · change PieceGood D header (slot { node with subpieces := node.subpieces.set i buffer }) _ p
        rw [slot_set hLt, hLength]
        rcases Finset.mem_insert.mp hMem with rfl | hOld
        · exact hGood
        · have hp : p ≠ (i - 1) / 16 := fun hEq => hNew (hEq ▸ hOld)
          exact (h.good p hOld).congr fun j hj _ => (put_of_other hPos hp j hj).symm
  | rejected _ hLt hNone _ _ hRest hSlot =>
      exact h.drop (h.notMem_of_none hPos hLt hNone) (fun _ _ => Iff.rfl) hRest hSlot

/-- A later packet leaves the subpieces of a validated piece alone. -/
theorem CheckedUpTo.kept {limit : Nat} (h : CheckedUpTo D header limit node) (hPos : 0 < i)
    (hAdded : Added D header i buffer node node') (hMem : p ∈ node.validatedPieces) :
    p ∈ node'.validatedPieces ∧
      ∀ j, InPiece p j → j < node.subpieces.length → node'.slot j = node.slot j := by
  have hNe : ∀ hLt : i < node.subpieces.length, node.slot i = none → p ≠ (i - 1) / 16 :=
    fun hLt hNone hEq => h.notMem_of_none hPos hLt hNone (hEq ▸ hMem)
  cases hAdded with
  | ignored => exact ⟨hMem, fun _ _ _ => rfl⟩
  | stored hLt hNone =>
      refine ⟨hMem, fun j hIn _ => ?_⟩
      rw [slot_set hLt]
      exact put_of_other hPos (hNe hLt hNone) j hIn
  | completed hLt hNone =>
      refine ⟨Finset.mem_insert_of_mem hMem, fun j hIn _ => ?_⟩
      change slot { node with subpieces := node.subpieces.set i buffer } j = _
      rw [slot_set hLt]
      exact put_of_other hPos (hNe hLt hNone) j hIn
  | rejected _ hLt hNone _ _ hRest hSlot =>
      refine ⟨?_, fun j hIn _ => ?_⟩
      · rw [hRest.rest_eq]
        exact hMem
      · rw [hSlot, if_neg fun hq => hNe hLt hNone (hIn.eq_of_mem hq)]

section Gathered

variable {slots : Slots}

/-- Before the packet arrives its piece is not complete, so that nothing of it was dropped. -/
theorem Settles.before (h : Settles D header slots (pieceCount header) node) (hPos : 0 < i)
    (hLt : i < subpieceCount header) (hNone : slots i = none)
    (buffer : Option LiveSubPieceBuffer) :
    ¬ PieceBad D header slots ((i - 1) / 16) ∧
      ∀ j, InPiece ((i - 1) / 16) j → j < subpieceCount header →
        put slots i buffer j = put node.slot i buffer j := by
  have hNot : ¬ PieceBad D header slots ((i - 1) / 16) := by
    intro hBad
    have hSome := hBad.1.2 i (InPiece.of_pos hPos) hLt
    rw [hNone] at hSome
    cases hSome
  refine ⟨hNot, fun j hIn hj => ?_⟩
  unfold put
  rw [h.slot_of_unchecked (Or.inr hNot) j hIn hj]

/-- The packet stays: its piece is incomplete or right. -/
theorem Settles.put_kept (h : Settles D header slots (pieceCount header) node) (hPos : 0 < i)
    (hLt : i < subpieceCount header) (hNone : slots i = none)
    (hNext : CheckedUpTo D header (pieceCount header) node')
    (hSlot : node'.slot = put node.slot i buffer)
    (hFailed : node'.checksumFailedTimes = node.checksumFailedTimes)
    (hFine : ¬ PieceBad D header (put node.slot i buffer) ((i - 1) / 16)) :
    Settles D header (put slots i buffer) (pieceCount header) node' := by
  obtain ⟨hOld, hHere⟩ := h.before hPos hLt hNone buffer
  rw [← PieceBad.congr hHere] at hFine
  have hOther : ∀ p, p ≠ (i - 1) / 16 →
      (PieceBad D header (put slots i buffer) p ↔ PieceBad D header slots p) :=
    fun p hp => PieceBad.congr fun j hj _ => put_of_other hPos hp j hj
  refine { hNext with
    slot_of_bad := fun p j hp hj hBad => ?_
    slot_of_not_bad := fun p j hj hNot hjLt => ?_
    failed_eq := ?_ }
  · have hNe : p ≠ (i - 1) / 16 := fun hEq => hFine (hEq ▸ hBad)
    rw [hSlot, put_of_other hPos hNe j hj]
    exact h.slot_of_bad p j hp hj ((hOther p hNe).mp hBad)
  · by_cases hEq : p = (i - 1) / 16
    · rw [hSlot, hHere j (hEq ▸ hj) hjLt]
    · rw [hSlot, put_of_other hPos hEq j hj, put_of_other hPos hEq j hj]
      exact h.slot_of_not_bad p j hj (fun hBad => hNot ⟨hBad.1, (hOther p hEq).mpr hBad.2⟩) hjLt
  · rw [hFailed, h.failed_eq]
    congr 1
    apply failures_congr
    intro p _
    by_cases hEq : p = (i - 1) / 16
    · rw [hEq]
      simp [hOld, hFine]
    · exact (hOther p hEq).symm

/-- A packet that arrives after the header is checked as if it had been gathered before. -/
theorem Settles.added (h : Settles D header slots (pieceCount header) node) (hPos : 0 < i)
    (hNone : slots i = none) (hAdded : Added D header i buffer node node') :
    Settles D header (put slots i buffer) (pieceCount header) node' := by
  have hIn := InPiece.of_pos hPos
  have hLength := h.length_eq
  have hNext := h.toCheckedUpTo.added hPos hAdded
  cases hAdded with
  | ignored hWhy =>
      have hPast : subpieceCount header ≤ i := by
        rcases hWhy with hSome | hLe
        · by_contra hLt
          obtain ⟨hOld, -⟩ := h.before hPos (Nat.not_le.mp hLt) hNone buffer
          rw [h.slot_of_unchecked (Or.inr hOld) i hIn (Nat.not_le.mp hLt), hNone] at hSome
          cases hSome
        · exact hLength ▸ hLe
      have hPut : ∀ j, j < subpieceCount header → put slots i buffer j = slots j :=
        fun j hLt => put_of_ne (by omega)
      have hBad : ∀ p, PieceBad D header (put slots i buffer) p ↔ PieceBad D header slots p :=
        fun p => PieceBad.congr fun j _ hLt => hPut j hLt
      refine { hNext with
        slot_of_bad := fun p j hp hj hBadPiece => h.slot_of_bad p j hp hj ((hBad p).mp hBadPiece)
        slot_of_not_bad := fun p j hj hNot hLt => ?_
        failed_eq := ?_ }
      · rw [hPut j hLt]
        exact h.slot_of_not_bad p j hj (fun hOld => hNot ⟨hOld.1, (hBad p).mpr hOld.2⟩) hLt
      · rw [h.failed_eq, failures_congr fun p _ => (hBad p).symm]
  | stored hLt _ hPart =>
      refine h.put_kept hPos (hLength ▸ hLt) hNone hNext (slot_set hLt) rfl ?_
      exact fun hBad => hPart (hLength ▸ hBad.1)
  | completed hLt _ _ hGood =>
      refine h.put_kept hPos (hLength ▸ hLt) hNone hNext (slot_set hLt) rfl ?_
      exact fun hBad => hBad.2 (hLength ▸ hGood)
  | rejected _ hLt _ hComplete hSum hRest hSlot =>
      rw [hLength] at hLt hComplete hSum
      obtain ⟨hOld, hHere⟩ := h.before hPos hLt hNone buffer
      have hBad : PieceBad D header (put slots i buffer) ((i - 1) / 16) :=
        (PieceBad.congr hHere).mpr ⟨hComplete, hSum⟩
      have hLimit := (lt_pieceCount_iff h.describes.1).mpr hComplete.1
      have hOther : ∀ p, p ≠ (i - 1) / 16 →
          (PieceBad D header (put slots i buffer) p ↔ PieceBad D header slots p) :=
        fun p hp => PieceBad.congr fun j hj _ => put_of_other hPos hp j hj
      refine { hNext with
        slot_of_bad := fun p j hp hj hBadPiece => ?_
        slot_of_not_bad := fun p j hj hNot hjLt => ?_
        failed_eq := ?_ }
      · rw [hSlot]
        by_cases hEq : p = (i - 1) / 16
        · rw [if_pos (hEq ▸ hj)]
        · rw [if_neg fun hq => hEq (hj.eq_of_mem hq)]
          exact h.slot_of_bad p j hp hj ((hOther p hEq).mp hBadPiece)
      · have hEq : p ≠ (i - 1) / 16 := fun hEq => hNot ⟨hEq ▸ hLimit, hEq ▸ hBad⟩
        rw [hSlot, if_neg fun hq => hEq (hj.eq_of_mem hq), put_of_other hPos hEq j hj]
        exact h.slot_of_not_bad p j hj (fun hWas => hNot ⟨hWas.1, (hOther p hEq).mpr hWas.2⟩) hjLt
      · rw [failures_of_one_more hLimit hOld hBad hOther, ← u32_add_left, ← h.failed_eq, hRest.rest_eq]

end Gathered

end LiveBlockNode

end Live
