import Peer.Storage.BlockNodeLaws
import Mathlib.Data.Finset.Max

/-! Which buffers `ClearBlockMemCache` drops. Its loop is bounded by the size of
the map it erases from, so a buffer is reached only when enough others lie at or
above it. -/
namespace Storage

namespace BlockNode

/-- The number of subpieces in memory at index `k` and above. -/
def heldFrom (node : BlockNode) (k : Nat) : Nat := (node.keys.filter fun j => k ≤ j).card

theorem heldFrom_le (node : BlockNode) (k : Nat) : node.heldFrom k ≤ node.keys.card :=
  Finset.card_le_card (Finset.filter_subset _ _)

theorem heldFrom_eq_card {node : BlockNode} {s : Nat} (h : ∀ k ∈ node.keys, s ≤ k) :
    node.heldFrom s = node.keys.card := by
  rw [heldFrom, Finset.filter_true_of_mem h]

theorem Dropped.heldFrom_eq {node node' : BlockNode} {s k : Nat} (h : Dropped node node' s)
    (hLt : s < k) : node'.heldFrom k = node.heldFrom k := by
  have hNot : s ∉ node.keys.filter fun j => k ≤ j := by
    intro hMem
    have hLe := (Finset.mem_filter.mp hMem).2
    omega
  rw [heldFrom, h.keys_eq, Finset.filter_erase, Finset.erase_eq_of_notMem hNot, heldFrom]

/-- The loop erases a buffer when its index is in bounds and below the number of
buffers from it on. When it comes to `s`, nothing below `s` is left. -/
theorem mem_clearFrom_iff {rounds s : Nat} {node node' : BlockNode}
    (h : node.clearFrom rounds s = some node') (hBelow : ∀ k ∈ node.keys, s ≤ k) {k : Nat} :
    k ∈ node'.keys ↔ k ∈ node.keys ∧ ¬ (k < s + rounds ∧ k < node.heldFrom k) := by
  induction rounds generalizing s node with
  | zero =>
      cases h
      constructor
      · intro hk
        have hLe := hBelow k hk
        exact ⟨hk, fun hReached => by omega⟩
      · exact fun hk => hk.1
  | succ rounds ih =>
      unfold clearFrom at h
      split at h
      · rename_i hSize
        obtain ⟨middle, hDrop, hRest⟩ := Option.bind_eq_some_iff.mp h
        have hDropped := dropSubpiece_dropped hDrop
        have hAbove : ∀ j ∈ middle.keys, s + 1 ≤ j := by
          intro j hj
          rw [hDropped.keys_eq, Finset.mem_erase] at hj
          have hLe := hBelow j hj.2
          omega
        rw [ih hRest hAbove, hDropped.keys_eq, Finset.mem_erase]
        by_cases hHere : k = s
        · subst hHere
          have hHeld : k < node.heldFrom k := by
            rw [heldFrom_eq_card hBelow]
            exact hSize
          constructor
          · exact fun hk => absurd rfl hk.1.1
          · exact fun hk => absurd ⟨by omega, hHeld⟩ hk.2
        · constructor
          · rintro ⟨⟨-, hk⟩, hKept⟩
            have hLe := hBelow k hk
            rw [hDropped.heldFrom_eq (by omega)] at hKept
            exact ⟨hk, fun hReached => hKept ⟨by omega, hReached.2⟩⟩
          · rintro ⟨hk, hKept⟩
            have hLe := hBelow k hk
            rw [hDropped.heldFrom_eq (by omega)]
            exact ⟨⟨hHere, hk⟩, fun hReached => hKept ⟨by omega, hReached.2⟩⟩
      · rename_i hSize
        obtain rfl : node = node' := Option.some.inj h
        constructor
        · intro hk
          have hLe := hBelow k hk
          have hHeld := heldFrom_le node k
          have hCard : ¬ s < node.keys.card := hSize
          exact ⟨hk, fun hReached => by omega⟩
        · exact fun hk => hk.1

/-- A node as its block is built: its buffers have an index inside the block and a
piece that counts them. -/
structure Placed (node : BlockNode) : Prop where
  total_pos : 0 < node.totalSubpieceCount
  keys_lt : ∀ k ∈ node.keys, k < node.totalSubpieceCount
  piece_lt : ∀ k ∈ node.keys, k / subpieceNumPerPiece < node.pieceCount.length

theorem Dropped.placed {node node' : BlockNode} {s : Nat} (h : Dropped node node' s)
    (hPlaced : node.Placed) : node'.Placed where
  total_pos := by
    rw [h.shape.total_eq]
    exact hPlaced.total_pos
  keys_lt := by
    intro k hk
    rw [h.keys_eq] at hk
    rw [h.shape.total_eq]
    exact hPlaced.keys_lt k (Finset.mem_of_mem_erase hk)
  piece_lt := by
    intro k hk
    rw [h.keys_eq] at hk
    rw [h.shape.pieces_eq]
    exact hPlaced.piece_lt k (Finset.mem_of_mem_erase hk)

theorem Placed.dropSubpiece_isSome {node : BlockNode} (h : node.Placed) (s : Nat) :
    ∃ node', node.dropSubpiece s = some node' := by
  by_cases hIn : s ∈ node.subpieces
  · have hPiece := h.piece_lt s (mem_keys.mpr hIn)
    simp only [dropSubpiece, if_pos hIn]
    split
    · exact ⟨_, rfl⟩
    · simp [modifyPieceCount, hPiece]
  · exact ⟨node, by simp [dropSubpiece, hIn]⟩

/-- Clearing stays inside the piece counts. -/
theorem Placed.clearFrom_isSome {node : BlockNode} (h : node.Placed) (rounds s : Nat) :
    ∃ node', node.clearFrom rounds s = some node' := by
  induction rounds generalizing s node with
  | zero => exact ⟨node, rfl⟩
  | succ rounds ih =>
      unfold clearFrom
      split
      · obtain ⟨middle, hDrop⟩ := h.dropSubpiece_isSome s
        rw [hDrop]
        exact ih ((dropSubpiece_dropped hDrop).placed h) (s + 1)
      · exact ⟨node, rfl⟩

theorem Placed.clearBlockMemCache_isSome {node : BlockNode} (h : node.Placed) (play : Nat) :
    ∃ node', node.clearBlockMemCache play = some node' := by
  obtain ⟨middle, hLoop⟩ := h.clearFrom_isSome (play + 1) 0
  rw [clearBlockMemCache, hLoop]
  exact ⟨_, rfl⟩

/-- What is left in memory after clearing up to `play`. -/
theorem mem_clearBlockMemCache_iff {node node' : BlockNode} {play : Nat}
    (h : node.clearBlockMemCache play = some node') {k : Nat} :
    k ∈ node'.keys ↔ k ∈ node.keys ∧ ¬ (k ≤ play ∧ k < node.heldFrom k) := by
  obtain ⟨middle, hLoop, hEq⟩ := Option.map_eq_some_iff.mp h
  have hKeys : node'.keys = middle.keys := by
    rw [← hEq]
    split <;> rfl
  rw [hKeys, mem_clearFrom_iff hLoop fun k _ => Nat.zero_le k, Nat.zero_add, Nat.lt_succ_iff]

/-- A buffer that is not dropped stays as it was. -/
theorem lookup_clearBlockMemCache {node node' : BlockNode} {play k : Nat}
    (h : node.clearBlockMemCache play = some node') (hk : k ∈ node.keys → k ∈ node'.keys) :
    node'.subpieces.lookup k = node.subpieces.lookup k := by
  have hCleared := clearBlockMemCache_cleared h
  cases hLookup : node'.subpieces.lookup k with
  | some buf => exact (hCleared.lookup_of_some k buf hLookup).symm
  | none =>
      have hAbsent : k ∉ node'.keys := fun hMem =>
        Finmap.lookup_eq_none.mp hLookup (mem_keys.mp hMem)
      exact (Finmap.lookup_eq_none.mpr fun hMem => hAbsent (hk (mem_keys.mpr hMem))).symm

/-- The states in which a block says that every buffer of it is in memory. -/
def saysInMemory (node : BlockNode) : Bool :=
  node.nodeState = .mem || node.nodeState = .saving || node.nodeState = .all

/-- `GetSubPiece` answers as the state says: with a buffer for every subpiece of a
block in memory, and for those `HasSubPiece` tells of when the block is not on disk. -/
structure AnswersAgree (node : BlockNode) : Prop where
  of_inMemory : node.saysInMemory = true →
    ∀ i < node.totalSubpieceCount, (node.getSubPiece i).isValid = true
  of_not_onDisk : node.isBlockSavedOnDisk = false → ∀ i < node.totalSubpieceCount,
    ((node.getSubPiece i).isValid = true ↔ node.hasSubPiece i = true)

/-- What clearing up to `play` promises. -/
structure Evicted (node : BlockNode) (play : Nat) (node' : BlockNode) : Prop where
  dropped : ∀ k ≤ play, k ∉ node'.keys
  kept : ∀ k, play < k → node'.subpieces.lookup k = node.subpieces.lookup k
  whole : node.totalSubpieceCount ≤ play + 1 → node'.subpieces = ∅ ∧ node'.AnswersAgree

/-- The promise can be kept: no buffer up to `play` has too few others from it on,
and a block that is to be emptied does not say that it is in memory only. -/
structure Evictable (node : BlockNode) (play : Nat) : Prop where
  dense : ∀ k ∈ node.keys, k ≤ play → k < node.heldFrom k
  state : node.totalSubpieceCount ≤ play + 1 → node.nodeState ≠ .mem ∧ node.nodeState ≠ .saving

theorem getSubPiece_of_empty {node : BlockNode} (h : node.subpieces = ∅) (i : Nat) :
    (node.getSubPiece i).isValid = false := by
  simp [getSubPiece, h]

/-- An emptied node answers as its state says when the state is not about memory. -/
theorem answersAgree_of_empty_iff {node : BlockNode} (h : node.subpieces = ∅)
    (hPos : 0 < node.totalSubpieceCount) : node.AnswersAgree ↔ node.saysInMemory = false := by
  constructor
  · intro hAgree
    rw [Bool.eq_false_iff]
    intro hSays
    have hValid := hAgree.of_inMemory hSays 0 hPos
    rw [getSubPiece_of_empty h] at hValid
    cases hValid
  · intro hSays
    constructor
    · intro hContra
      rw [hSays] at hContra
      cases hContra
    · intro hDisk i _
      simp [getSubPiece_of_empty h, hasSubPiece, hDisk, h, Finmap.notMem_empty]

theorem saysInMemory_clearBlockMemCache {node node' : BlockNode} {play : Nat}
    (h : node.clearBlockMemCache play = some node') :
    node'.saysInMemory = true ↔ node.nodeState = .mem ∨ node.nodeState = .saving := by
  obtain ⟨middle, hLoop, hEq⟩ := Option.map_eq_some_iff.mp h
  have hSame : middle.nodeState = node.nodeState := by
    apply clearFrom_induction (P := fun n => n.nodeState = node.nodeState) _ hLoop rfl
    exact fun n s n' hState hDrop => hDrop.state_eq.trans hState
  rw [← hSame, ← hEq]
  split
  · rename_i hAll
    simp [saysInMemory, hAll]
  · rename_i hAll
    simp [saysInMemory, hAll]

/-- A block is emptied only when at most its first subpiece is in memory. -/
theorem dense_of_whole_iff {node : BlockNode} (h : node.Placed) {play : Nat}
    (hWhole : node.totalSubpieceCount ≤ play + 1) :
    (∀ k ∈ node.keys, k ≤ play → k < node.heldFrom k) ↔ node.keys ⊆ {0} := by
  constructor
  · intro hDense
    rcases node.keys.eq_empty_or_nonempty with hNone | hSome
    · rw [hNone]
      exact Finset.empty_subset _
    · -- From the largest index on there is one buffer.
      have hTop := node.keys.max'_mem hSome
      have hMax : ∀ k ∈ node.keys, k ≤ node.keys.max' hSome := fun k hk => node.keys.le_max' k hk
      generalize node.keys.max' hSome = top at hTop hMax
      have hLt := h.keys_lt top hTop
      have hOne : node.heldFrom top ≤ 1 := by
        apply Finset.card_le_one.mpr
        intro i hi j hj
        have hI := hMax i (Finset.mem_filter.mp hi).1
        have hJ := hMax j (Finset.mem_filter.mp hj).1
        have hI' := (Finset.mem_filter.mp hi).2
        have hJ' := (Finset.mem_filter.mp hj).2
        omega
      have hDenseTop := hDense top hTop (by omega)
      intro k hk
      have hLe := hMax k hk
      rw [Finset.mem_singleton]
      omega
  · intro hFirst k hk _
    obtain rfl := Finset.mem_singleton.mp (hFirst hk)
    rw [heldFrom_eq_card fun j _ => Nat.zero_le j]
    exact Finset.card_pos.mpr ⟨0, hk⟩

/-- Clearing keeps its promise on the nodes of `Evictable`, and on no other. -/
theorem evicted_iff {node : BlockNode} (h : node.Placed) (play : Nat) :
    (∃ node', node.clearBlockMemCache play = some node' ∧ Evicted node play node') ↔
      Evictable node play := by
  constructor
  · rintro ⟨node', hClear, hEvicted⟩
    constructor
    · intro k hk hLe
      by_contra hSparse
      apply hEvicted.dropped k hLe
      exact (mem_clearBlockMemCache_iff hClear).mpr ⟨hk, fun hReached => hSparse hReached.2⟩
    · intro hWhole
      obtain ⟨hEmpty, hAgree⟩ := hEvicted.whole hWhole
      have hPos : 0 < node'.totalSubpieceCount := by
        rw [(clearBlockMemCache_cleared hClear).shape.total_eq]
        exact h.total_pos
      have hSays := (answersAgree_of_empty_iff hEmpty hPos).mp hAgree
      rw [Bool.eq_false_iff, ne_eq, saysInMemory_clearBlockMemCache hClear] at hSays
      exact not_or.mp hSays
  · intro hEvictable
    obtain ⟨node', hClear⟩ := h.clearBlockMemCache_isSome play
    have hCleared := clearBlockMemCache_cleared hClear
    have hDropped : ∀ k ≤ play, k ∉ node'.keys := by
      intro k hLe hk
      obtain ⟨hIn, hKept⟩ := (mem_clearBlockMemCache_iff hClear).mp hk
      exact hKept ⟨hLe, hEvictable.dense k hIn hLe⟩
    refine ⟨node', hClear, hDropped, ?_, ?_⟩
    · intro k hLt
      apply lookup_clearBlockMemCache hClear
      intro hk
      exact (mem_clearBlockMemCache_iff hClear).mpr ⟨hk, fun hReached => by omega⟩
    · intro hWhole
      have hEmpty : node'.subpieces = ∅ := by
        apply Finmap.ext_lookup
        intro k
        rw [Finmap.lookup_empty, Finmap.lookup_eq_none, ← mem_keys]
        intro hk
        have hLt := h.keys_lt k (hCleared.keys_subset hk)
        exact hDropped k (by omega) hk
      refine ⟨hEmpty, (answersAgree_of_empty_iff hEmpty ?_).mpr ?_⟩
      · rw [hCleared.shape.total_eq]
        exact h.total_pos
      · rw [Bool.eq_false_iff, ne_eq, saysInMemory_clearBlockMemCache hClear]
        exact not_or.mpr (hEvictable.state hWhole)

/-- The node after the subpieces were added in turn. -/
def addAll (node : BlockNode) (buf : SubPieceBuffer) (indices : List Nat) : Option BlockNode :=
  indices.foldlM (fun node index => (node.addSubpiece index buf).map Prod.fst) node

theorem evicted_of_fourBuffers : ∃ node node',
    (create 0 6 false).addAll ⟨[7], true⟩ [0, 1, 2, 3] = some node ∧
      node.clearBlockMemCache 1 = some node' ∧ Evicted node 1 node' := by
  have hTest : ((create 0 6 false).addAll ⟨[7], true⟩ [0, 1, 2, 3]).any (fun node => decide
      (node.totalSubpieceCount = 6 ∧ (∀ k ∈ node.keys, k < node.totalSubpieceCount) ∧
        (∀ k ∈ node.keys, k / subpieceNumPerPiece < node.pieceCount.length) ∧
        ∀ k ∈ node.keys, k ≤ 1 → k < node.heldFrom k)) = true := by decide +kernel
  obtain ⟨node, hRun, hNode⟩ := (Option.any_eq_true _ _).mp hTest
  obtain ⟨hTotal, hKeys, hPieces, hDense⟩ := of_decide_eq_true hNode
  have hPlaced : node.Placed := ⟨by omega, hKeys, hPieces⟩
  obtain ⟨node', hClear, hEvicted⟩ :=
    (evicted_iff hPlaced 1).mpr ⟨hDense, fun hWhole => by omega⟩
  exact ⟨node, node', hRun, hClear, hEvicted⟩

/-- Of two buffers in a block of four, dropping the whole block leaves the second. -/
theorem evicted_fails : ∃ node, (create 0 4 false).addAll ⟨[7], true⟩ [0, 1] = some node ∧
    ¬ ∃ node', node.clearBlockMemCache 4 = some node' ∧ Evicted node 4 node' := by
  have hTest : ((create 0 4 false).addAll ⟨[7], true⟩ [0, 1]).any (fun node =>
      (node.clearBlockMemCache 4).any fun node' => decide (1 ∈ node'.keys)) = true := by
    decide +kernel
  obtain ⟨node, hRun, hNode⟩ := (Option.any_eq_true _ _).mp hTest
  obtain ⟨left, hLeft, hIn⟩ := (Option.any_eq_true _ _).mp hNode
  refine ⟨node, hRun, ?_⟩
  rintro ⟨node', hClear, hEvicted⟩
  cases hLeft.symm.trans hClear
  exact hEvicted.dropped 1 (by decide) (of_decide_eq_true hIn)

end BlockNode

end Storage
