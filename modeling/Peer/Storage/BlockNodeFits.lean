import Peer.Basis.First
import Peer.Storage.BlockNodeLaws
import Mathlib.Order.Interval.Finset.Nat

/-! The invariant of one block node for the capacity of its block, and the search
for a missing subpiece, which reads the piece counts. -/
namespace Storage

open Basis

namespace BlockNode

/-- The subpieces of piece `p` that are in memory. -/
def pieceKeys (node : BlockNode) (p : Nat) : Finset Nat :=
  node.keys.filter fun k => k / subpieceNumPerPiece = p

/-- A node as its block needs it: built for the capacity `cap`, with keys below
it, and with exact piece counts while the counts are what is known of the block. -/
structure Fits (cap : Nat) (node : BlockNode) : Prop where
  total_eq : node.totalSubpieceCount = cap
  pieces_eq : node.pieceCount.length = piecesOf cap
  lastPiece_eq : node.lastPieceCapacity = lastPieceOf cap
  keys_lt : ∀ k ∈ node.keys, k < cap
  counts : node.isBlockSavedOnDisk = false →
    ∀ p, node.pieceCount.getD p 0 = (node.pieceKeys p).card

theorem pieceKeys_congr {node node' : BlockNode} (h : node'.keys = node.keys) (p : Nat) :
    node'.pieceKeys p = node.pieceKeys p := by
  simp only [pieceKeys, h]

theorem pieceKeys_insert {node node' : BlockNode} {i : Nat} (h : node'.keys = insert i node.keys)
    (p : Nat) : node'.pieceKeys p =
      if i / subpieceNumPerPiece = p then insert i (node.pieceKeys p) else node.pieceKeys p := by
  simp only [pieceKeys, h, Finset.filter_insert]

theorem pieceKeys_erase {node node' : BlockNode} {i : Nat} (h : node'.keys = node.keys.erase i)
    (p : Nat) : node'.pieceKeys p = (node.pieceKeys p).erase i := by
  simp only [pieceKeys, h, Finset.filter_erase]

/-- A piece has at most as many subpieces as there is room for. -/
theorem pieceKeys_card_le (node : BlockNode) (p : Nat) :
    (node.pieceKeys p).card ≤ subpieceNumPerPiece := by
  have hSubset : node.pieceKeys p ⊆
      Finset.Ico (p * subpieceNumPerPiece) ((p + 1) * subpieceNumPerPiece) := by
    intro k hk
    have hPiece := (Finset.mem_filter.mp hk).2
    simp only [Finset.mem_Ico, subpieceNumPerPiece] at hPiece ⊢
    omega
  apply (Finset.card_le_card hSubset).trans
  rw [Nat.card_Ico, Nat.add_mul, Nat.add_sub_cancel_left, Nat.one_mul]

theorem getD_modify {counts : List Nat} {i p : Nat} {f : Nat → Nat} (hi : i < counts.length) :
    (counts.modify i f).getD p 0 = if p = i then f (counts.getD p 0) else counts.getD p 0 := by
  simp only [List.getD_eq_getElem?_getD, List.getElem?_modify]
  by_cases h : p = i
  · subst h
    simp [hi]
  · simp [h, Ne.symm h]

section Preservation

variable {cap : Nat} {node node' : BlockNode} {i : Nat}

theorem Fits.keys_subset (h : Fits cap node) : node.keys ⊆ Finset.range cap :=
  fun k hk => Finset.mem_range.mpr (h.keys_lt k hk)

theorem Fits.card_le (h : Fits cap node) : node.keys.card ≤ cap := by
  simpa using Finset.card_le_card h.keys_subset

/-- A node with as many subpieces as its block holds every one of them. -/
theorem Fits.keys_eq_range (h : Fits cap node) (hCard : node.keys.card = cap) :
    node.keys = Finset.range cap :=
  Finset.eq_of_subset_of_card_le h.keys_subset (by simp [hCard])

/-- A full node has every subpiece of its block. -/
theorem Fits.isFull_iff (h : Fits cap node) :
    node.isFull = true ↔ ∀ s < cap, node.hasSubPiece s = true := by
  rw [BlockNode.isFull_iff, h.total_eq]
  constructor
  · rintro (hCard | hDisk) s hs <;> rw [hasSubPiece_iff]
    · exact Or.inr (by rw [h.keys_eq_range hCard]; exact Finset.mem_range.mpr hs)
    · exact Or.inl hDisk
  · intro hAll
    by_cases hDisk : node.isBlockSavedOnDisk = true
    · exact Or.inr hDisk
    · have hKeys : node.keys = Finset.range cap :=
        Finset.Subset.antisymm h.keys_subset fun s hs =>
          (hasSubPiece_iff.mp (hAll s (Finset.mem_range.mp hs))).resolve_left hDisk
      exact Or.inl (by rw [hKeys, Finset.card_range])

theorem Fits.create (b : Nat) (disk : Bool) : Fits cap (BlockNode.create b cap disk) where
  total_eq := rfl
  pieces_eq := create_pieces b cap disk
  lastPiece_eq := rfl
  keys_lt := by simp
  counts := by
    intro hDisk p
    rw [create_onDisk] at hDisk
    subst hDisk
    rw [create_pieceCount_empty]
    simp [pieceKeys]

/-- The part of the invariant about shape and keys survives any operation of the
same shape that adds no key outside the block. -/
theorem Fits.of_shape (h : Fits cap node) (hShape : SameShape node node')
    (hKeys : ∀ k ∈ node'.keys, k < cap)
    (hCounts : node'.isBlockSavedOnDisk = false →
      ∀ p, node'.pieceCount.getD p 0 = (node'.pieceKeys p).card) : Fits cap node' :=
  ⟨hShape.total_eq.trans h.total_eq, hShape.pieces_eq.trans h.pieces_eq,
    hShape.lastPiece_eq.trans h.lastPiece_eq, hKeys, hCounts⟩

theorem Fits.added (h : Fits cap node) (hAdded : Added node node' i) (hi : i < cap)
    (hDisk : node.isBlockSavedOnDisk = false) : Fits cap node' := by
  refine h.of_shape hAdded.shape ?_ fun _ p => ?_
  · intro k hk
    rw [hAdded.keys_eq, Finset.mem_insert] at hk
    rcases hk with rfl | hk
    · exact hi
    · exact h.keys_lt k hk
  · by_cases hIn : i ∈ node.keys
    · rw [hAdded.pieces_of_mem hIn, h.counts hDisk,
        pieceKeys_congr (by rw [hAdded.keys_eq, Finset.insert_eq_of_mem hIn])]
    · obtain ⟨hLt, hPieces⟩ := hAdded.pieces_of_notMem hIn
      rw [hPieces, getD_modify hLt, h.counts hDisk, pieceKeys_insert hAdded.keys_eq]
      have hBound : (node.pieceKeys p).card ≤ 128 := pieceKeys_card_le node p
      have hNew : i ∉ node.pieceKeys p := fun hMem => hIn (Finset.mem_filter.mp hMem).1
      by_cases hp : i / subpieceNumPerPiece = p
      · rw [if_pos hp.symm, if_pos hp, Finset.card_insert_of_notMem hNew, u32_of_lt (by omega)]
      · rw [if_neg (Ne.symm hp), if_neg hp]

/-- Reading back keeps the invariant where the piece counts are not in use, or
where nothing is inserted. -/
theorem Fits.loaded (h : Fits cap node) (hLoaded : Loaded node node' i) (hi : i < cap)
    (hUnused : node.isBlockSavedOnDisk = true ∨ i ∈ node.keys) : Fits cap node' := by
  refine h.of_shape hLoaded.shape ?_ fun hDisk' p => ?_
  · intro k hk
    rw [hLoaded.keys_eq, Finset.mem_insert] at hk
    rcases hk with rfl | hk
    · exact hi
    · exact h.keys_lt k hk
  · have hDisk : ¬ node.isBlockSavedOnDisk = true := fun hDisk => by
      rw [hLoaded.onDisk.mpr (Or.inl hDisk)] at hDisk'
      cases hDisk'
    have hIn := hUnused.resolve_left hDisk
    rw [hLoaded.pieces_eq, h.counts (Bool.eq_false_iff.mpr hDisk),
      pieceKeys_congr (by rw [hLoaded.keys_eq, Finset.insert_eq_of_mem hIn])]

theorem Fits.setBlockReading (h : Fits cap node) : Fits cap node.setBlockReading.1 := by
  refine h.of_shape (setBlockReading_shape node) ?_ fun hDisk p => ?_
  · simpa using h.keys_lt
  · rw [setBlockReading_onDisk] at hDisk
    rw [setBlockReading_pieceCount, h.counts hDisk,
      pieceKeys_congr (setBlockReading_keys node)]

theorem Fits.dropped (h : Fits cap node) (hDropped : Dropped node node' i) : Fits cap node' := by
  refine h.of_shape hDropped.shape ?_ fun hDisk' p => ?_
  · intro k hk
    rw [hDropped.keys_eq] at hk
    exact h.keys_lt k (Finset.mem_of_mem_erase hk)
  · have hDisk : node.isBlockSavedOnDisk = false :=
      (onDisk_congr hDropped.state_eq).symm.trans hDisk'
    by_cases hIn : i ∈ node.keys
    · rw [hDropped.pieces_of_erased hIn hDisk, pieceKeys_erase hDropped.keys_eq]
      by_cases hLt : i / subpieceNumPerPiece < node.pieceCount.length
      · rw [getD_modify hLt, h.counts hDisk]
        split
        · rename_i hp
          have hMem : i ∈ node.pieceKeys p := Finset.mem_filter.mpr ⟨hIn, hp.symm⟩
          have hPos : 0 < (node.pieceKeys p).card := Finset.card_pos.mpr ⟨i, hMem⟩
          have hBound : (node.pieceKeys p).card ≤ 128 := pieceKeys_card_le node p
          rw [Finset.card_erase_of_mem hMem, subU32_of_le (by omega) (by omega)]
        · rename_i hp
          have hNot : i ∉ node.pieceKeys p := fun hMem => hp (Finset.mem_filter.mp hMem).2.symm
          rw [Finset.erase_eq_of_notMem hNot]
      · have hMem : i ∈ node.pieceKeys (i / subpieceNumPerPiece) :=
          Finset.mem_filter.mpr ⟨hIn, rfl⟩
        have hPos := Finset.card_pos.mpr ⟨i, hMem⟩
        rw [← h.counts hDisk, List.getD_eq_getElem?_getD,
          List.getElem?_eq_none (by omega)] at hPos
        simp at hPos
    · rw [hDropped.pieces_of_kept (Or.inl hIn), h.counts hDisk,
        pieceKeys_congr (by rw [hDropped.keys_eq, Finset.erase_eq_of_notMem hIn])]

theorem Fits.cleared (h : Fits cap node) {play : Nat}
    (hClear : node.clearBlockMemCache play = some node') : Fits cap node' := by
  refine clearBlockMemCache_induction (P := Fits cap)
    (fun n s n' hFits hDrop => hFits.dropped hDrop) ?_ hClear h
  intro n n' hFits hShape hKeys hPieces hDisk
  refine hFits.of_shape hShape (hKeys ▸ hFits.keys_lt) fun hDisk' p => ?_
  rw [hPieces, pieceKeys_congr hKeys]
  exact hFits.counts (hDisk ▸ hDisk') p

/-- Clearing never makes a node full. -/
theorem Fits.cleared_not_full (h : Fits cap node) {play : Nat}
    (hClear : node.clearBlockMemCache play = some node') (hFull : node.isFull = false) :
    node'.isFull = false := by
  have hCleared := clearBlockMemCache_cleared hClear
  rw [Bool.eq_false_iff, ne_eq, BlockNode.isFull_iff, hCleared.onDisk_eq,
    not_onDisk_of_not_full hFull, hCleared.shape.total_eq, h.total_eq, not_or]
  refine ⟨fun hCard => ?_, Bool.false_ne_true⟩
  have hSub := Finset.card_le_card hCleared.keys_subset
  have hEq : node.keys.card = cap := Nat.le_antisymm h.card_le (by omega)
  rw [BlockNode.isFull_iff.mpr (Or.inl (hEq.trans h.total_eq.symm))] at hFull
  cases hFull

theorem Fits.taken (h : Fits cap node) (hTaken : TakenForSave node node') : Fits cap node' := by
  refine h.of_shape hTaken.shape ?_ fun hDisk' p => ?_
  · rcases hTaken.keys_eq with hKeys | ⟨-, hKeys⟩
    · exact hKeys ▸ h.keys_lt
    · simp [hKeys]
  · have hDisk : node.isBlockSavedOnDisk = false := hTaken.onDisk_eq.symm.trans hDisk'
    rcases hTaken.keys_eq with hKeys | ⟨hOnDisk, -⟩
    · rw [hTaken.pieces_eq, pieceKeys_congr hKeys]
      exact h.counts hDisk p
    · simp [hDisk] at hOnDisk

theorem Fits.resetForReDownload (h : Fits cap node) (hKeys : node.keys = ∅) :
    Fits cap node.resetForReDownload := by
  refine h.of_shape (resetForReDownload_shape node) (by simp [hKeys]) fun _ p => ?_
  rw [resetForReDownload_pieceCount]
  simp [pieceKeys, hKeys]

end Preservation

section Search

variable {cap start : Nat} {node : BlockNode}

theorem piecesOf_eq {cap : Nat} (hCap : cap + 127 < 2 ^ 32) :
    piecesOf cap = (cap + 127) / subpieceNumPerPiece := by
  rw [piecesOf, u32_of_lt (by simp only [subpieceNumPerPiece]; omega)]
  rfl

theorem piecesOf_pos {cap : Nat} (hPos : 0 < cap) (hCap : cap + 127 < 2 ^ 32) : 0 < piecesOf cap := by
  rw [piecesOf_eq hCap, subpieceNumPerPiece]
  omega

theorem lastPieceOf_eq {cap : Nat} (hPos : 0 < cap) (hCap : cap + 127 < 2 ^ 32) :
    lastPieceOf cap = (cap - 1) % subpieceNumPerPiece + 1 := by
  rw [lastPieceOf, subU32_of_le (by omega) hPos]

/-- The subpieces of piece `p` of a block with `cap` subpieces. -/
def pieceRange (cap p : Nat) : Finset Nat :=
  Finset.Ico (p * subpieceNumPerPiece) (min ((p + 1) * subpieceNumPerPiece) cap)

theorem Fits.pieceKeys_subset (h : Fits cap node) (p : Nat) :
    node.pieceKeys p ⊆ pieceRange cap p := by
  intro k hk
  obtain ⟨hIn, hPiece⟩ := Finset.mem_filter.mp hk
  have hLt := h.keys_lt k hIn
  simp only [pieceRange, Finset.mem_Ico, subpieceNumPerPiece] at hPiece ⊢
  omega

/-- A piece whose count says it is full has all of its subpieces in memory. -/
theorem Fits.pieceKeys_eq_of_isPieceFull (h : Fits cap node) (hPos : 0 < cap)
    (hCap : cap + 127 < 2 ^ 32) (hDisk : node.isBlockSavedOnDisk = false) {p : Nat}
    (hFull : node.isPieceFull p = true) :
    node.pieceKeys p = pieceRange cap p := by
  refine Finset.eq_of_subset_of_card_le (h.pieceKeys_subset p) ?_
  unfold isPieceFull at hFull
  simp only [h.counts hDisk, h.pieces_eq, h.lastPiece_eq, piecesOf_eq hCap,
    lastPieceOf_eq hPos hCap, subpieceNumPerPiece] at hFull
  simp only [pieceRange, Nat.card_Ico, subpieceNumPerPiece]
  split at hFull
  · have := beq_iff_eq.mp hFull
    omega
  · have := beq_iff_eq.mp hFull
    omega

/-- A block in memory has a piece when it has all subpieces of the piece. -/
theorem Fits.hasPiece_iff (h : Fits cap node) (hPos : 0 < cap) (hCap : cap + 127 < 2 ^ 32)
    (hDisk : node.isBlockSavedOnDisk = false) {p : Nat} (hp : p * subpieceNumPerPiece < cap) :
    node.hasPiece p = true ↔ ∀ s < cap, s / subpieceNumPerPiece = p → s ∈ node.keys := by
  have hCount := piecesOf_eq hCap
  have hLast := lastPieceOf_eq hPos hCap
  unfold BlockNode.hasPiece
  rw [h.pieces_eq, if_pos (by simp only [subpieceNumPerPiece] at hp hCount; omega)]
  constructor
  · intro hFull s hs hPiece
    have hRange := h.pieceKeys_eq_of_isPieceFull hPos hCap hDisk hFull
    have hMem : s ∈ node.pieceKeys p := by
      rw [hRange, pieceRange, Finset.mem_Ico]
      simp only [subpieceNumPerPiece] at hPiece ⊢
      omega
    exact (Finset.mem_filter.mp hMem).1
  · intro hAll
    have hRange : node.pieceKeys p = pieceRange cap p := by
      apply Finset.Subset.antisymm (h.pieceKeys_subset p)
      intro s hs
      rw [pieceRange, Finset.mem_Ico] at hs
      simp only [subpieceNumPerPiece] at hs
      have hPiece : s / subpieceNumPerPiece = p := by
        simp only [subpieceNumPerPiece]
        omega
      exact Finset.mem_filter.mpr ⟨hAll s (by omega) hPiece, hPiece⟩
    unfold isPieceFull
    rw [h.counts hDisk, hRange, pieceRange, Nat.card_Ico, h.pieces_eq, h.lastPiece_eq, hCount, hLast]
    split <;> rename_i hEnd <;> rw [beq_iff_eq] <;> simp only [subpieceNumPerPiece] at hp hEnd ⊢ <;>
      omega

/-- The inner loop finds the first missing subpiece when its 16-bit counter
cannot wrap. -/
theorem Fits.scanNull_first (h : Fits cap node) (hCap : cap < 2 ^ 16) (rounds sidx : Nat)
    (hRounds : cap - sidx < rounds) :
    ∃ r, node.scanNull rounds sidx = some r ∧ FirstFrom (· ∉ node.keys) sidx cap r := by
  induction rounds generalizing sidx with
  | zero => omega
  | succ rounds ih =>
      unfold scanNull
      rw [h.total_eq]
      split
      · rename_i hLt
        split
        · rename_i hIn
          rw [u16_of_lt (by omega)]
          obtain ⟨r, hScan, hFirst⟩ := ih (sidx + 1) (by omega)
          refine ⟨r, hScan, hFirst.of_skip (by omega) fun i hlo hi _ => ?_⟩
          obtain rfl : i = sidx := by omega
          exact fun hNot => hNot (mem_keys.mpr hIn)
        · rename_i hOut
          exact ⟨some sidx, rfl, FirstFrom.here hLt fun hIn => hOut (mem_keys.mp hIn)⟩
      · exact ⟨none, rfl, FirstFrom.empty (by omega)⟩

/-- The inner loop finds the first missing subpiece when that one is below 2^16. -/
theorem scanNull_finds {x rounds sidx : Nat} (hTotal : x < node.totalSubpieceCount)
    (hSmall : x < 2 ^ 16) (hLe : sidx ≤ x) (hMissing : x ∉ node.keys)
    (hBefore : ∀ i, sidx ≤ i → i < x → i ∈ node.keys) (hRounds : x - sidx < rounds) :
    node.scanNull rounds sidx = some (some x) := by
  induction rounds generalizing sidx with
  | zero => omega
  | succ rounds ih =>
      unfold scanNull
      rw [if_pos (by omega)]
      by_cases hEq : sidx = x
      · subst hEq
        rw [if_neg fun hIn => hMissing (mem_keys.mpr hIn)]
      · have hIn := hBefore sidx (Nat.le_refl _) (by omega)
        rw [if_pos (mem_keys.mp hIn), u16_of_lt (by omega)]
        exact ih (by omega) (fun i hlo hi => hBefore i (by omega) hi) (by omega)

/-- In a block of 2^16 subpieces and more the inner loop does not come to an end
without an answer, since its counter cannot leave the block. -/
theorem scanNull_large (hTotal : 2 ^ 16 ≤ node.totalSubpieceCount) {rounds sidx : Nat}
    (hLt : sidx < 2 ^ 16) : node.scanNull rounds sidx = none ∨
      ∃ x, x ∉ node.keys ∧ x < 2 ^ 16 ∧ node.scanNull rounds sidx = some (some x) := by
  induction rounds generalizing sidx with
  | zero => exact Or.inl rfl
  | succ rounds ih =>
      unfold scanNull
      rw [if_pos (by omega)]
      split
      · exact ih (u16_lt _)
      · rename_i hOut
        exact Or.inr ⟨sidx, fun hIn => hOut (mem_keys.mp hIn), hLt, rfl⟩

/-- The outer loop finds the first missing subpiece, when the inner loop does in the
pieces it is used for. -/
theorem Fits.nextNullFrom_first (h : Fits cap node) (hSmall : cap + 127 < 2 ^ 32)
    (hDisk : node.isBlockSavedOnDisk = false) (hStart : start < cap)
    (hScan : ∀ startindex, start ≤ startindex → startindex < cap →
      (∀ s, start ≤ s → s < startindex → s ∈ node.keys) →
      node.isPieceFull (startindex / subpieceNumPerPiece) = false →
      ∃ r, node.scanNull (2 ^ 16) (u16 startindex) = some r ∧
        FirstFrom (· ∉ node.keys) startindex cap r) {pieces pidx : Nat}
    (hPieces : pieces + pidx = piecesOf cap) (hpidx : start / subpieceNumPerPiece ≤ pidx)
    (hSkip : ∀ s, start ≤ s → s < pidx * subpieceNumPerPiece → s < cap → s ∈ node.keys) :
    ∃ r, node.nextNullFrom start pieces pidx = some r ∧
      FirstFrom (· ∉ node.keys) start cap r := by
  have hCount := piecesOf_eq hSmall
  induction pieces generalizing pidx with
  | zero =>
      refine ⟨none, rfl, fun i hlo hhi hNot => hNot (hSkip i hlo ?_ hhi)⟩
      simp only [subpieceNumPerPiece] at hCount ⊢
      omega
  | succ pieces ih =>
      unfold nextNullFrom
      generalize hIndex : (if pidx = start / subpieceNumPerPiece then start
        else pidx * subpieceNumPerPiece) = startindex
      -- The scan of this piece begins at `start` or at the first subpiece of the piece.
      have hBounds : start ≤ startindex ∧ startindex < cap ∧
          startindex / subpieceNumPerPiece = pidx ∧
          (∀ s, start ≤ s → s < startindex → s < cap → s ∈ node.keys) := by
        by_cases hFirst : pidx = start / subpieceNumPerPiece
        · rw [if_pos hFirst] at hIndex
          subst hIndex
          exact ⟨Nat.le_refl _, hStart, hFirst.symm, fun s _ _ _ => by omega⟩
        · rw [if_neg hFirst] at hIndex
          subst hIndex
          refine ⟨?_, ?_, ?_, hSkip⟩ <;>
            simp only [subpieceNumPerPiece] at hCount hpidx hFirst ⊢ <;> omega
      obtain ⟨hLo, hHi, hPiece, hBefore⟩ := hBounds
      have hSkip' : ∀ i, start ≤ i → i < startindex → i < cap → ¬ i ∉ node.keys :=
        fun i h1 h2 h3 hNot => hNot (hBefore i h1 h2 h3)
      dsimp only
      rw [h.counts hDisk]
      split
      · rename_i hZero
        refine ⟨some startindex, rfl, (FirstFrom.here hHi ?_).of_skip hLo hSkip'⟩
        intro hIn
        have hMem : startindex ∈ node.pieceKeys pidx := Finset.mem_filter.mpr ⟨hIn, hPiece⟩
        rw [Finset.card_eq_zero.mp hZero] at hMem
        exact absurd hMem (Finset.notMem_empty _)
      · split
        · rename_i hFull
          have hRange := h.pieceKeys_eq_of_isPieceFull (by omega) hSmall hDisk hFull
          refine ih (by omega) (by omega) fun s hlo hs hcap => ?_
          by_cases hOld : s < pidx * subpieceNumPerPiece
          · exact hSkip s hlo hOld hcap
          · have hMem : s ∈ node.pieceKeys pidx := by
              rw [hRange, pieceRange, Finset.mem_Ico]
              omega
            exact (Finset.mem_filter.mp hMem).1
        · rename_i hFull
          obtain ⟨r, hFound, hFirst⟩ := hScan startindex hLo hHi
            (fun s hlo hs => hBefore s hlo hs (by omega)) (by
              rw [hPiece]
              exact Bool.eq_false_iff.mpr hFull)
          rw [hFound]
          cases r with
          | some x => exact ⟨some x, rfl, hFirst.of_skip hLo hSkip'⟩
          | none =>
              refine ih (by omega) (by omega) fun s hlo _ hcap => ?_
              by_cases hs : s < startindex
              · exact hBefore s hlo hs hcap
              · exact not_not.mp (hFirst s (by omega) hcap)

/-- The search of a node that is not on disk finds its first missing subpiece from
`start` on, when the inner loop does in the pieces it is used for. -/
theorem Fits.getNextNullSubPiece_of_scan (h : Fits cap node) (hSmall : cap + 127 < 2 ^ 32)
    (hDisk : node.isBlockSavedOnDisk = false) (hStart : start < cap)
    (hScan : ∀ startindex, start ≤ startindex → startindex < cap →
      (∀ s, start ≤ s → s < startindex → s ∈ node.keys) →
      node.isPieceFull (startindex / subpieceNumPerPiece) = false →
      ∃ r, node.scanNull (2 ^ 16) (u16 startindex) = some r ∧
        FirstFrom (· ∉ node.keys) startindex cap r) :
    ∃ r, node.getNextNullSubPiece start = some r ∧ FirstFrom (· ∉ node.keys) start cap r := by
  have hCount := piecesOf_eq hSmall
  refine h.nextNullFrom_first hSmall hDisk hStart hScan ?_ (Nat.le_refl _) fun s hlo hs _ => ?_
  · rw [h.pieces_eq, hCount]
    simp only [subpieceNumPerPiece]
    omega
  · simp only [subpieceNumPerPiece] at hs
    omega

theorem Fits.getNextNullSubPiece_first (h : Fits cap node) (hCap : cap < 2 ^ 16)
    (hDisk : node.isBlockSavedOnDisk = false) (hStart : start < cap) :
    ∃ r, node.getNextNullSubPiece start = some r ∧ FirstFrom (· ∉ node.keys) start cap r := by
  apply h.getNextNullSubPiece_of_scan (by omega) hDisk hStart
  intro startindex _ hHi _ _
  rw [u16_of_lt (by omega)]
  exact h.scanNull_first hCap (2 ^ 16) startindex (by omega)

/-- In a larger block the search is right about a subpiece below 2^16. -/
theorem Fits.getNextNullSubPiece_below (h : Fits cap node) (hSmall : cap + 127 < 2 ^ 32)
    (hDisk : node.isBlockSavedOnDisk = false) {x : Nat} (hLe : start ≤ x) (hCap : x < cap)
    (hName : x < 2 ^ 16) (hMissing : x ∉ node.keys)
    (hBefore : ∀ i, start ≤ i → i < x → i ∈ node.keys) :
    ∃ r, node.getNextNullSubPiece start = some r ∧ FirstFrom (· ∉ node.keys) start cap r := by
  apply h.getNextNullSubPiece_of_scan hSmall hDisk (by omega)
  intro startindex hLo _ hHeld _
  have hReach : startindex ≤ x := by
    by_contra hPast
    exact hMissing (hHeld x hLe (by omega))
  have hTotal : x < node.totalSubpieceCount := h.total_eq ▸ hCap
  refine ⟨some x, ?_, hReach, hCap, hMissing, ?_⟩
  · rw [u16_of_lt (by omega)]
    exact scanNull_finds hTotal hName hReach hMissing (fun i hlo hi => hBefore i (by omega) hi)
      (by omega)
  · exact fun i hlo hi hNot => hNot (hBefore i (by omega) hi)

/-- Nothing is missing from `start` on, and neither is anything in its piece. -/
theorem Fits.getNextNullSubPiece_none (h : Fits cap node) (hSmall : cap + 127 < 2 ^ 32)
    (hDisk : node.isBlockSavedOnDisk = false) (hStart : start < cap)
    (hHeld : ∀ s, start ≤ s → s < cap → s ∈ node.keys)
    (hPiece : ∀ s < start, s / subpieceNumPerPiece = start / subpieceNumPerPiece → s ∈ node.keys) :
    node.getNextNullSubPiece start = some none := by
  have hNever : ∀ startindex, start ≤ startindex → startindex < cap →
      node.isPieceFull (startindex / subpieceNumPerPiece) = true := by
    intro startindex hLo hHi
    have hHas : node.hasPiece (startindex / subpieceNumPerPiece) = true := by
      apply (h.hasPiece_iff (by omega) hSmall hDisk ?_).mpr
      · intro s hs hSame
        by_cases hLt : s < start
        · apply hPiece s hLt
          simp only [subpieceNumPerPiece] at hSame ⊢
          omega
        · exact hHeld s (by omega) hs
      · simp only [subpieceNumPerPiece]
        omega
    unfold hasPiece at hHas
    split at hHas
    · exact hHas
    · cases hHas
  obtain ⟨r, hFound, hFirst⟩ := h.getNextNullSubPiece_of_scan hSmall hDisk hStart (by
    intro startindex hLo hHi _ hNot
    rw [hNever startindex hLo hHi] at hNot
    cases hNot)
  cases r with
  | none => exact hFound
  | some x =>
      obtain ⟨hLo, hHi, hMissing, -⟩ := hFirst
      exact absurd (hHeld x hLo hHi) hMissing

/-- When the piece of `start` misses only subpieces before `start`, the search of a
block of 2^16 subpieces and more has an answer before `start`, or none at all. -/
theorem Fits.getNextNullSubPiece_wraps (h : Fits cap node) (hSmall : cap + 127 < 2 ^ 32)
    (hDisk : node.isBlockSavedOnDisk = false) (hStart : start < cap) (hName : start < 2 ^ 16)
    (hLarge : 2 ^ 16 ≤ cap) (hHeld : start ∈ node.keys) {x : Nat} (hx : x < cap)
    (hPiece : x / subpieceNumPerPiece = start / subpieceNumPerPiece) (hMissing : x ∉ node.keys) :
    node.getNextNullSubPiece start = none ∨
      ∃ y, y ∉ node.keys ∧ y < 2 ^ 16 ∧ node.getNextNullSubPiece start = some (some y) := by
  have hCount := piecesOf_eq hSmall
  have hLt : start / subpieceNumPerPiece < node.pieceCount.length := by
    rw [h.pieces_eq, hCount]
    simp only [subpieceNumPerPiece]
    omega
  have hNotFull : node.isPieceFull (start / subpieceNumPerPiece) ≠ true := by
    intro hFull
    have hHas : node.hasPiece (start / subpieceNumPerPiece) = true := by
      rw [hasPiece, if_pos hLt, hFull]
    have hAll := (h.hasPiece_iff (by omega) hSmall hDisk (by
      simp only [subpieceNumPerPiece]
      omega)).mp hHas
    exact hMissing (hAll x hx hPiece)
  have hSome : node.pieceCount.getD (start / subpieceNumPerPiece) 0 ≠ 0 := by
    rw [h.counts hDisk]
    exact Finset.card_ne_zero_of_mem (Finset.mem_filter.mpr ⟨hHeld, rfl⟩)
  obtain ⟨pieces, hPieces⟩ : ∃ pieces,
      node.pieceCount.length - start / subpieceNumPerPiece = pieces + 1 :=
    ⟨node.pieceCount.length - start / subpieceNumPerPiece - 1, by omega⟩
  have hLarge' : 2 ^ 16 ≤ node.totalSubpieceCount := h.total_eq ▸ hLarge
  simp only [getNextNullSubPiece, hPieces, nextNullFrom, if_true, if_neg hSome, hNotFull,
    u16_of_lt hName, Bool.false_eq_true, if_false]
  rcases scanNull_large hLarge' hName with hNone | ⟨y, hOut, hSmallY, hFound⟩
  · rw [hNone]
    exact Or.inl rfl
  · rw [hFound]
    exact Or.inr ⟨y, hOut, hSmallY, rfl⟩

end Search

end BlockNode

end Storage
