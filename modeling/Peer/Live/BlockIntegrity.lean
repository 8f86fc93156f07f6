import Peer.Live.BlockNodeLaws

/-! What holds of a live block after any sequence of `AddSubPiece`. Before the header
nothing is checked; from the header on every complete piece has been checked, and
those with a wrong checksum are gone. -/
namespace Live

open Basis Storage HeaderSubPiece

namespace LiveBlockNode

variable {D : Digests} {node node' : LiveBlockNode} {header : HeaderSubPiece} {p : Nat}

/-- The header describes the block of the node. -/
def Describes (D : Digests) (node : LiveBlockNode) (header : HeaderSubPiece) : Prop :=
  header.isValid D = true ∧ node.blockId = header.blockId ∧ node.rid.bytes = header.rid

instance (D : Digests) (node : LiveBlockNode) (header : HeaderSubPiece) :
    Decidable (Describes D node header) := inferInstanceAs (Decidable (_ ∧ _ ∧ _))

/-- The buffer is a valid header of the block. -/
def HeaderBuffer (D : Digests) (node : LiveBlockNode) (buffer : LiveSubPieceBuffer) : Prop :=
  buffer.length = liveSubPieceSize ∧ Describes D node (load buffer.data)

/-- The number of subpieces of the block of a header. -/
def subpieceCount (header : HeaderSubPiece) : Nat := 1 + (header.dataLength + 1399) / 1400

/-- The header has not arrived: nothing was checked yet. -/
structure Headless (node : LiveBlockNode) : Prop where
  header_eq : node.headerSubpiece = none
  flag_eq : node.blockHeaderValidated = false
  validated_eq : node.validatedPieces = ∅
  failed_eq : node.checksumFailedTimes = 0
  first_eq : node.slot 0 = none

/-- The header is there, and the pieces before `limit` that are complete are exactly
the validated ones. -/
structure CheckedUpTo (D : Digests) (header : HeaderSubPiece) (limit : Nat)
    (node : LiveBlockNode) : Prop where
  header_eq : node.headerSubpiece = some header
  flag_eq : node.blockHeaderValidated = true
  describes : Describes D node header
  buffer : ∃ buffer, node.slot 0 = some buffer ∧ buffer.length = liveSubPieceSize ∧
    header = load buffer.data
  length_eq : node.subpieces.length = subpieceCount header
  mem_iff : ∀ p, p ∈ node.validatedPieces ↔
    p < limit ∧ PieceComplete node.slot node.subpieces.length p
  good : ∀ p ∈ node.validatedPieces, PieceGood D header node.slot node.subpieces.length p

/-- The number of pieces that subpieces of a block may belong to. -/
def pieceCount (header : HeaderSubPiece) : Nat := (subpieceCount header + 14) / 16

theorem subpieceCount_bounds (h : header.isValid D = true) :
    2 ≤ subpieceCount header ∧ subpieceCount header ≤ 5409 := by
  unfold isValid at h
  have hOffset : piecesCheckSumOffset = 48 := rfl
  have hMax : maximumPiecesPerBlock * subPiecesPerPiece * liveSubPieceSize = 7571200 := by decide
  rw [hOffset, hMax] at h
  unfold subpieceCount
  split at h
  · cases h
  split at h
  · cases h
  split at h
  · cases h
  split at h
  · cases h
  omega

theorem lt_pieceCount_iff (h : header.isValid D = true) :
    p < pieceCount header ↔ 16 * p + 1 < subpieceCount header := by
  have hBounds := subpieceCount_bounds h
  unfold pieceCount
  omega

theorem pieceCount_le (h : header.isValid D = true) : pieceCount header ≤ maximumPiecesPerBlock := by
  have hBounds := subpieceCount_bounds h
  have hMax : maximumPiecesPerBlock = 338 := rfl
  unfold pieceCount
  omega

namespace CheckedUpTo

variable {limit : Nat}

theorem hasHeader (h : CheckedUpTo D header limit node) : node.hasHeaderSubPiece = true := by
  simp [hasHeaderSubPiece, h.header_eq]

theorem isHeaderValid_eq (h : CheckedUpTo D header limit node) :
    node.isHeaderValid D = (node, true) := by
  simp [isHeaderValid, h.flag_eq]

theorem lt_max (h : CheckedUpTo D header limit node)
    (hp : 16 * p + 1 < node.subpieces.length) : p < maximumPiecesPerBlock := by
  rw [h.length_eq, ← lt_pieceCount_iff h.describes.1] at hp
  exact hp.trans_le (pieceCount_le h.describes.1)

end CheckedUpTo

/-- A piece that was not validated is dropped. -/
theorem CheckedUpTo.drop {limit limit' q failed : Nat} (h : CheckedUpTo D header limit node)
    (hNew : q ∉ node.validatedPieces)
    (hLimit : ∀ p, p ≠ q → (p < limit' ↔ p < limit))
    (hRest : SlotsOnly { node with checksumFailedTimes := failed } node')
    (hSlot : ∀ j, node'.slot j = if InPiece q j then none else node.slot j) :
    CheckedUpTo D header limit' node' := by
  have hLength : node'.subpieces.length = node.subpieces.length := hRest.length_eq
  have hOther : ∀ p, p ≠ q → ∀ j, InPiece p j → j < node.subpieces.length →
      node.slot j = node'.slot j := by
    intro p hp j hIn _
    rw [hSlot, if_neg fun hq => hp (hIn.eq_of_mem hq)]
  have hEmpty : ¬ PieceComplete node'.slot node'.subpieces.length q := by
    rintro ⟨hLt, hAll⟩
    have hIn : InPiece q (16 * q + 1) := by
      unfold InPiece
      omega
    have hSome := hAll _ hIn hLt
    rw [hSlot, if_pos hIn] at hSome
    cases hSome
  have hValidated : node'.validatedPieces = node.validatedPieces := by rw [hRest.rest_eq]
  refine ⟨?_, ?_, ?_, ?_, hLength.trans h.length_eq, fun p => ?_, fun p hMem => ?_⟩
  · rw [hRest.rest_eq]
    exact h.header_eq
  · rw [hRest.rest_eq]
    exact h.flag_eq
  · rw [hRest.rest_eq]
    exact h.describes
  · obtain ⟨buffer, hBuffer, hLoad⟩ := h.buffer
    refine ⟨buffer, ?_, hLoad⟩
    rw [hSlot, if_neg (by unfold InPiece; omega)]
    exact hBuffer
  · rw [hValidated]
    by_cases hp : p = q
    · rw [hp]
      exact ⟨fun hMem => absurd hMem hNew, fun hIn => absurd hIn.2 hEmpty⟩
    · rw [h.mem_iff, hLimit p hp, hLength]
      apply and_congr_right
      intro _
      exact ⟨PieceComplete.congr (hOther p hp),
        PieceComplete.congr fun j hIn hLt => (hOther p hp j hIn hLt).symm⟩
  · rw [hValidated] at hMem
    have hp : p ≠ q := fun hEq => hNew (hEq ▸ hMem)
    rw [hLength]
    exact (h.good p hMem).congr (hOther p hp)

/-- What the check of one piece does. -/
inductive PieceChecked (D : Digests) (header : HeaderSubPiece) (p : Nat)
    (node : LiveBlockNode) : LiveBlockNode → Prop where
  | untouched (h : ¬ PieceComplete node.slot node.subpieces.length p ∨ p ∈ node.validatedPieces) :
      PieceChecked D header p node node
  | validated (hComplete : PieceComplete node.slot node.subpieces.length p)
      (hGood : PieceGood D header node.slot node.subpieces.length p) :
      PieceChecked D header p node { node with validatedPieces := insert p node.validatedPieces }
  | dropped (node' : LiveBlockNode) (hNew : p ∉ node.validatedPieces)
      (hComplete : PieceComplete node.slot node.subpieces.length p)
      (hBad : ¬ PieceGood D header node.slot node.subpieces.length p)
      (hRest : SlotsOnly { node with checksumFailedTimes := u32 (node.checksumFailedTimes + 1) } node')
      (hSlot : ∀ j, node'.slot j = if InPiece p j then none else node.slot j) :
      PieceChecked D header p node node'

/-- `IsPieceValid` of a piece that is complete and was not found valid before. -/
theorem isPieceValid_of_complete (hHeader : node.headerSubpiece = some header)
    (hFlag : node.blockHeaderValidated = true) (hp : p < maximumPiecesPerBlock)
    (hNew : p ∉ node.validatedPieces) (hComplete : node.isPieceComplete p = true) :
    node.isPieceValid D p =
      if header.getPieceChecksum p = D.checkSumNew (node.pieceBytes p) then
        ({ node with validatedPieces := insert p node.validatedPieces }, true)
      else ({ node with checksumFailedTimes := u32 (node.checksumFailedTimes + 1) }, false) := by
  have hValid : node.isHeaderValid D = (node, true) := by simp [isHeaderValid, hFlag]
  unfold isPieceValid
  rw [if_neg (Nat.not_le.mpr hp), if_neg hNew, hValid]
  dsimp only
  rw [hComplete]
  simp only [Bool.not_true, Bool.false_eq_true, if_false]
  split
  · rename_i hNone
    rw [hHeader] at hNone
    cases hNone
  · rename_i found hSome
    rw [hHeader] at hSome
    cases hSome
    rfl

theorem dropPieceIfInvalid_checked (hHeader : node.headerSubpiece = some header)
    (hFlag : node.blockHeaderValidated = true) (hp : p < maximumPiecesPerBlock) :
    PieceChecked D header p node (node.dropPieceIfInvalid D p) := by
  have hHas : node.hasHeaderSubPiece = true := by simp [hasHeaderSubPiece, hHeader]
  have hIff := isPieceComplete_iff hHas hp
  unfold dropPieceIfInvalid
  by_cases hComplete : node.isPieceComplete p = true
  · rw [if_pos hComplete]
    by_cases hMem : p ∈ node.validatedPieces
    · have hValid : node.isPieceValid D p = (node, true) := by
        simp [isPieceValid, Nat.not_le.mpr hp, hMem]
      rw [hValid]
      exact .untouched (Or.inr hMem)
    · rw [isPieceValid_of_complete hHeader hFlag hp hMem hComplete]
      by_cases hGood : header.getPieceChecksum p = D.checkSumNew (node.pieceBytes p)
      · rw [if_pos hGood]
        exact .validated (hIff.mp hComplete) hGood
      · rw [if_neg hGood]
        obtain ⟨hOnly, hSlot⟩ := dropPiece_slot
          { node with checksumFailedTimes := u32 (node.checksumFailedTimes + 1) } hp
        exact .dropped _ hMem (hIff.mp hComplete) hGood hOnly hSlot
  · rw [if_neg hComplete]
    exact .untouched (Or.inl fun h => hComplete (hIff.mpr h))

section Gathered

/-- The piece is complete among the packets gathered in `slots`, and its checksum is wrong. -/
def PieceBad (D : Digests) (header : HeaderSubPiece) (slots : Slots) (p : Nat) : Prop :=
  PieceComplete slots (subpieceCount header) p ∧ ¬ PieceGood D header slots (subpieceCount header) p

theorem PieceBad.congr {slots slots' : Slots}
    (h : ∀ j, InPiece p j → j < subpieceCount header → slots j = slots' j) :
    PieceBad D header slots p ↔ PieceBad D header slots' p := by
  have hBack : ∀ j, InPiece p j → j < subpieceCount header → slots' j = slots j :=
    fun j hIn hLt => (h j hIn hLt).symm
  constructor
  · intro hBad
    exact ⟨hBad.1.congr h, fun hGood => hBad.2 (hGood.congr hBack)⟩
  · intro hBad
    exact ⟨hBad.1.congr hBack, fun hGood => hBad.2 (hGood.congr h)⟩

open Classical in
/-- The number of pieces below `limit` whose checksum is wrong. -/
noncomputable def failures (D : Digests) (header : HeaderSubPiece) (slots : Slots)
    (limit : Nat) : Nat :=
  ((Finset.range limit).filter fun p => PieceBad D header slots p).card

theorem failures_succ_of_bad {slots : Slots} {limit : Nat} (h : PieceBad D header slots limit) :
    failures D header slots (limit + 1) = failures D header slots limit + 1 := by
  unfold failures
  rw [Finset.range_add_one, Finset.filter_insert, if_pos h, Finset.card_insert_of_notMem]
  simp

theorem failures_succ_of_not_bad {slots : Slots} {limit : Nat}
    (h : ¬ PieceBad D header slots limit) :
    failures D header slots (limit + 1) = failures D header slots limit := by
  unfold failures
  rw [Finset.range_add_one, Finset.filter_insert, if_neg h]

theorem failures_congr {slots slots' : Slots} {limit : Nat}
    (h : ∀ p < limit, PieceBad D header slots p ↔ PieceBad D header slots' p) :
    failures D header slots limit = failures D header slots' limit := by
  classical
  unfold failures
  congr 1
  apply Finset.filter_congr
  intro p hMem
  exact h p (Finset.mem_range.mp hMem)

/-- One more piece turns out wrong. -/
theorem failures_of_one_more {slots slots' : Slots} {limit q : Nat} (hq : q < limit)
    (hOld : ¬ PieceBad D header slots q) (hNew : PieceBad D header slots' q)
    (hOther : ∀ p, p ≠ q → (PieceBad D header slots' p ↔ PieceBad D header slots p)) :
    failures D header slots' limit = failures D header slots limit + 1 := by
  classical
  unfold failures
  have hInsert : (Finset.range limit).filter (fun p => PieceBad D header slots' p) =
      insert q ((Finset.range limit).filter fun p => PieceBad D header slots p) := by
    ext p
    rw [Finset.mem_insert, Finset.mem_filter, Finset.mem_filter, Finset.mem_range]
    by_cases hp : p = q
    · rw [hp]
      simp [hq, hNew]
    · rw [hOther p hp]
      simp [hp]
  convert congrArg Finset.card hInsert using 1
  rw [Finset.card_insert_of_notMem (by simp [hOld])]

/-- The node is what checking the pieces below `limit` makes of the gathered packets. -/
structure Settles (D : Digests) (header : HeaderSubPiece) (slots : Slots) (limit : Nat)
    (node : LiveBlockNode) : Prop extends CheckedUpTo D header limit node where
  slot_of_bad : ∀ p j, p < limit → InPiece p j → PieceBad D header slots p → node.slot j = none
  slot_of_not_bad : ∀ p j, InPiece p j → ¬ (p < limit ∧ PieceBad D header slots p) →
    j < subpieceCount header → node.slot j = slots j
  failed_eq : node.checksumFailedTimes = u32 (failures D header slots limit)

/-- The gathered packets determine the node. -/
theorem Settles.unique {slots : Slots} {limit : Nat} (h : Settles D header slots limit node)
    (h' : Settles D header slots limit node') (hId : node.blockId = node'.blockId)
    (hRid : node.rid = node'.rid) (hFirst : node.slot 0 = node'.slot 0) : node = node' := by
  have hSlot : ∀ j, node.slot j = node'.slot j := by
    intro j
    by_cases hj : j = 0
    · rw [hj, hFirst]
    · have hIn := InPiece.of_pos (Nat.pos_of_ne_zero hj)
      by_cases hLt : j < subpieceCount header
      · by_cases hBad : (j - 1) / 16 < limit ∧ PieceBad D header slots ((j - 1) / 16)
        · rw [h.slot_of_bad _ j hBad.1 hIn hBad.2, h'.slot_of_bad _ j hBad.1 hIn hBad.2]
        · rw [h.slot_of_not_bad _ j hIn hBad hLt, h'.slot_of_not_bad _ j hIn hBad hLt]
      · rw [slot_of_le (h.length_eq ▸ Nat.not_lt.mp hLt),
          slot_of_le (h'.length_eq ▸ Nat.not_lt.mp hLt)]
  have hSlots : node.slot = node'.slot := funext hSlot
  have hSubpieces : node.subpieces = node'.subpieces := by
    apply List.ext_getElem (h.length_eq.trans h'.length_eq.symm)
    intro j hj hj'
    have hGet := hSlot j
    simpa [slot, hj, hj'] using hGet
  have hValidated : node.validatedPieces = node'.validatedPieces := by
    ext p
    rw [h.mem_iff, h'.mem_iff, hSlots, hSubpieces]
  cases node
  cases node'
  simp only [LiveBlockNode.mk.injEq]
  exact ⟨hId, hRid, hSubpieces, h.header_eq.trans h'.header_eq.symm,
    h.flag_eq.trans h'.flag_eq.symm, hValidated, h.failed_eq.trans h'.failed_eq.symm⟩

/-- The slots of a piece that was not checked yet are those gathered. -/
theorem Settles.slot_of_unchecked {slots : Slots} {limit : Nat}
    (h : Settles D header slots limit node) {q : Nat}
    (hq : limit ≤ q ∨ ¬ PieceBad D header slots q) :
    ∀ j, InPiece q j → j < subpieceCount header → node.slot j = slots j := by
  intro j hIn hLt
  apply h.slot_of_not_bad q j hIn _ hLt
  rintro ⟨hLimit, hBad⟩
  rcases hq with hLe | hNot
  · omega
  · exact hNot hBad

theorem Settles.dropped {slots : Slots} {limit : Nat} (h : Settles D header slots limit node)
    (hBad : PieceBad D header slots limit)
    (hRest : SlotsOnly { node with checksumFailedTimes := u32 (node.checksumFailedTimes + 1) } node')
    (hSlot : ∀ j, node'.slot j = if InPiece limit j then none else node.slot j) :
    Settles D header slots (limit + 1) node' := by
  have hNew : limit ∉ node.validatedPieces := by
    rw [h.mem_iff]
    omega
  have hDrop : CheckedUpTo D header (limit + 1) node' :=
    h.drop hNew (fun p hp => by omega) hRest hSlot
  refine { hDrop with
    slot_of_bad := fun p j hp hIn hBadPiece => ?_
    slot_of_not_bad := fun p j hIn hNot hLt => ?_
    failed_eq := ?_ }
  · rw [hSlot]
    by_cases hEq : p = limit
    · rw [if_pos (hEq ▸ hIn)]
    · rw [if_neg fun hq => hEq (hIn.eq_of_mem hq)]
      exact h.slot_of_bad p j (by omega) hIn hBadPiece
  · have hEq : p ≠ limit := fun hEq => hNot ⟨by omega, hEq ▸ hBad⟩
    rw [hSlot, if_neg fun hq => hEq (hIn.eq_of_mem hq)]
    exact h.slot_of_not_bad p j hIn (fun hOld => hNot ⟨by omega, hOld.2⟩) hLt
  · rw [failures_succ_of_bad hBad, hRest.rest_eq]
    change u32 (node.checksumFailedTimes + 1) = _
    rw [h.failed_eq, u32_add_left]

/-- One round of the loop over the pieces when the header arrives. -/
theorem Settles.next {slots : Slots} {limit : Nat} (h : Settles D header slots limit node)
    (hLimit : limit < pieceCount header) :
    Settles D header slots (limit + 1) (node.dropPieceIfInvalid D limit) := by
  have hMax : limit < maximumPiecesPerBlock := hLimit.trans_le (pieceCount_le h.describes.1)
  have hSame := h.slot_of_unchecked (Or.inl (Nat.le_refl limit))
  have hNew : limit ∉ node.validatedPieces := by
    rw [h.mem_iff]
    omega
  have hGather : PieceBad D header slots limit ↔ PieceBad D header node.slot limit :=
    PieceBad.congr fun j hIn hLt => (hSame j hIn hLt).symm
  have hLength := h.length_eq
  have hChecked := dropPieceIfInvalid_checked (D := D) h.header_eq h.flag_eq hMax
  generalize node.dropPieceIfInvalid D limit = result at hChecked ⊢
  cases hChecked with
  | untouched hWhy =>
      have hNot : ¬ PieceComplete node.slot node.subpieces.length limit :=
        hWhy.resolve_right hNew
      have hGood : ¬ PieceBad D header slots limit := by
        rw [hGather]
        intro hBad
        exact hNot (hLength ▸ hBad.1)
      refine { h with
        mem_iff := fun p => ?_
        slot_of_bad := fun p j hp hIn hBad => ?_
        slot_of_not_bad := fun p j hIn hBad hLt => ?_
        failed_eq := by rw [failures_succ_of_not_bad hGood, h.failed_eq] }
      · rw [h.mem_iff]
        constructor
        · rintro ⟨hp, hComplete⟩
          exact ⟨by omega, hComplete⟩
        · rintro ⟨hp, hComplete⟩
          have hNe : p ≠ limit := fun hEq => hNot (hEq ▸ hComplete)
          exact ⟨by omega, hComplete⟩
      · have hNe : p ≠ limit := fun hEq => hGood (hEq ▸ hBad)
        exact h.slot_of_bad p j (by omega) hIn hBad
      · exact h.slot_of_not_bad p j hIn (fun hOld => hBad ⟨by omega, hOld.2⟩) hLt
  | validated hComplete hSum =>
      have hGood : ¬ PieceBad D header slots limit := by
        rw [hGather]
        intro hBad
        exact hBad.2 (hLength ▸ hSum)
      refine { h with
        mem_iff := fun p => ?_
        good := fun p hMem => ?_
        slot_of_bad := fun p j hp hIn hBad => ?_
        slot_of_not_bad := fun p j hIn hBad hLt => ?_
        failed_eq := by rw [failures_succ_of_not_bad hGood, h.failed_eq] }
      · change p ∈ insert limit node.validatedPieces ↔ _ ∧ PieceComplete node.slot _ p
        rw [Finset.mem_insert, h.mem_iff]
        constructor
        · rintro (rfl | ⟨hp, hOld⟩)
          · exact ⟨by omega, hComplete⟩
          · exact ⟨by omega, hOld⟩
        · rintro ⟨hp, hOld⟩
          by_cases hEq : p = limit
          · exact Or.inl hEq
          · exact Or.inr ⟨by omega, hOld⟩
      · rcases Finset.mem_insert.mp hMem with rfl | hOld
        · exact hSum
        · exact h.good p hOld
      · have hNe : p ≠ limit := fun hEq => hGood (hEq ▸ hBad)
        exact h.slot_of_bad p j (by omega) hIn hBad
      · exact h.slot_of_not_bad p j hIn (fun hOld => hBad ⟨by omega, hOld.2⟩) hLt
  | dropped node' _ hComplete hSum hRest hSlot =>
      have hBadHere : PieceBad D header slots limit := by
        rw [hGather]
        unfold PieceBad
        rw [← hLength]
        exact ⟨hComplete, hSum⟩
      exact h.dropped hBadHere hRest hSlot

end Gathered

end LiveBlockNode

end Live
