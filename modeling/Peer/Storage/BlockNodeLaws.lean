import Peer.Storage.BlockNode
import Mathlib.Data.Finset.Card
import Mathlib.Data.Finset.Filter

/-! What each operation of a node does to the subpieces in memory, to the piece
counts and to the question whether the block is on disk. -/
namespace Storage

namespace BlockNode

/-- The indices of the subpieces in memory. -/
def keys (node : BlockNode) : Finset Nat := node.subpieces.keys

theorem mem_keys {node : BlockNode} {s : Nat} : s ∈ node.keys ↔ s ∈ node.subpieces :=
  Finmap.mem_keys

theorem size_eq (node : BlockNode) : node.size = node.keys.card := rfl

/-- The parts of a node that are fixed when it is created. -/
structure SameShape (node node' : BlockNode) : Prop where
  total_eq : node'.totalSubpieceCount = node.totalSubpieceCount
  pieces_eq : node'.pieceCount.length = node.pieceCount.length
  lastPiece_eq : node'.lastPieceCapacity = node.lastPieceCapacity

theorem SameShape.refl (node : BlockNode) : SameShape node node := ⟨rfl, rfl, rfl⟩

theorem SameShape.trans {a b c : BlockNode} (hab : SameShape a b) (hbc : SameShape b c) :
    SameShape a c :=
  ⟨hbc.total_eq.trans hab.total_eq, hbc.pieces_eq.trans hab.pieces_eq,
    hbc.lastPiece_eq.trans hab.lastPiece_eq⟩

theorem isFull_iff {node : BlockNode} : node.isFull = true ↔
    node.keys.card = node.totalSubpieceCount ∨ node.isBlockSavedOnDisk = true := by
  simp [isFull, size_eq]

theorem isFull_congr {node node' : BlockNode} (hKeys : node'.keys = node.keys)
    (hTotal : node'.totalSubpieceCount = node.totalSubpieceCount)
    (hDisk : node'.isBlockSavedOnDisk = node.isBlockSavedOnDisk) : node'.isFull = node.isFull := by
  rw [Bool.eq_iff_iff, isFull_iff, isFull_iff, hKeys, hTotal, hDisk]

theorem not_onDisk_of_not_full {node : BlockNode} (h : node.isFull = false) :
    node.isBlockSavedOnDisk = false := by
  simp only [isFull, Bool.or_eq_false_iff] at h
  exact h.2

theorem isEmpty_iff {node : BlockNode} : node.isEmpty = true ↔
    node.keys = ∅ ∧ node.isBlockSavedOnDisk = false := by
  simp [isEmpty, size_eq]

theorem hasSubPiece_iff {node : BlockNode} {s : Nat} : node.hasSubPiece s = true ↔
    node.isBlockSavedOnDisk = true ∨ s ∈ node.keys := by
  simp [hasSubPiece, mem_keys]

/-- `IsBlockSavedOnDisk` looks at the state only. -/
theorem onDisk_congr {node node' : BlockNode} (h : node'.nodeState = node.nodeState) :
    node'.isBlockSavedOnDisk = node.isBlockSavedOnDisk := by
  simp [isBlockSavedOnDisk, h]

@[simp] theorem create_keys (b n : Nat) (disk : Bool) : (create b n disk).keys = ∅ := rfl

@[simp] theorem create_total (b n : Nat) (disk : Bool) :
    (create b n disk).totalSubpieceCount = n := rfl

@[simp] theorem create_lastPieceCapacity (b n : Nat) (disk : Bool) :
    (create b n disk).lastPieceCapacity = lastPieceOf n := rfl

@[simp] theorem create_pieces (b n : Nat) (disk : Bool) :
    (create b n disk).pieceCount.length = piecesOf n := by
  cases disk <;> simp [create]

@[simp] theorem create_onDisk (b n : Nat) (disk : Bool) :
    (create b n disk).isBlockSavedOnDisk = disk := by
  cases disk <;> simp [create, isBlockSavedOnDisk]

theorem create_pieceCount_empty (b n p : Nat) : (create b n false).pieceCount.getD p 0 = 0 := by
  simp only [create, Bool.false_eq_true, if_false, List.getD_eq_getElem?_getD,
    List.getElem?_replicate]
  split <;> rfl

section Insert

variable (node : BlockNode) (i : Nat) (buf : SubPieceBuffer)

@[simp] theorem insertSubpiece_keys : (node.insertSubpiece i buf).keys = insert i node.keys := by
  ext k
  simp [mem_keys, insertSubpiece, Finmap.mem_insert]

theorem modifyPieceCount_eq_some {node node' : BlockNode} {p : Nat} {f : Nat → Nat} :
    node.modifyPieceCount p f = some node' ↔
      p < node.pieceCount.length ∧
        { node with pieceCount := node.pieceCount.modify p f } = node' := by
  unfold modifyPieceCount
  split <;> simp_all

theorem markIfFull_cases : node.markIfFull = node ∨
    node.markIfFull = { node with needWrite := true, nodeState := .mem } ∧
      node.isFull = true := by
  unfold markIfFull
  split
  · rename_i h
    simp only [Bool.and_eq_true] at h
    exact Or.inr ⟨rfl, h.1⟩
  · exact Or.inl rfl

end Insert

/-- A subpiece added to a node that is not full. It enters the map and is counted
in its piece when it was not there before. -/
structure Added (node node' : BlockNode) (i : Nat) : Prop where
  shape : SameShape node node'
  onDisk : node'.isBlockSavedOnDisk = false
  keys_eq : node'.keys = insert i node.keys
  pieces_of_mem : i ∈ node.keys → node'.pieceCount = node.pieceCount
  pieces_of_notMem : i ∉ node.keys → i / subpieceNumPerPiece < node.pieceCount.length ∧
    node'.pieceCount = node.pieceCount.modify (i / subpieceNumPerPiece) fun c => u32 (c + 1)

theorem addSubpiece_added {node node' : BlockNode} {i : Nat} {buf : SubPieceBuffer} {added : Bool}
    (hFull : node.isFull = false) (h : node.addSubpiece i buf = some (node', added)) :
    Added node node' i := by
  have hDisk := not_onDisk_of_not_full hFull
  -- The change of state from EMPTY to DOWNLOADING touches nothing else.
  obtain ⟨start, hStart, hKeys, hPieces, hShape, hStartDisk⟩ : ∃ start : BlockNode,
      (if node.nodeState = .empty then { node with nodeState := .downloading } else node) = start ∧
      start.subpieces = node.subpieces ∧ start.pieceCount = node.pieceCount ∧
      SameShape node start ∧ start.isBlockSavedOnDisk = false := by
    refine ⟨_, rfl, ?_⟩
    split
    · exact ⟨rfl, rfl, ⟨rfl, rfl, rfl⟩, by simp [isBlockSavedOnDisk]⟩
    · exact ⟨rfl, rfl, SameShape.refl node, hDisk⟩
  have hMem : i ∈ start.subpieces ↔ i ∈ node.keys := by rw [hKeys, mem_keys]
  simp only [addSubpiece, hStart] at h
  split at h
  · rename_i hIn
    cases h
    refine ⟨hShape, hStartDisk, ?_, fun _ => hPieces, fun hOut => absurd (hMem.mp hIn) hOut⟩
    rw [Finset.insert_eq_of_mem (hMem.mp hIn), keys, hKeys, keys]
  · rename_i hOut
    obtain ⟨stored, hStored, hEq⟩ := Option.map_eq_some_iff.mp h
    obtain ⟨hLt, rfl⟩ := modifyPieceCount_eq_some.mp hStored
    have hLt' : i / subpieceNumPerPiece < node.pieceCount.length := by
      simpa [insertSubpiece, hPieces] using hLt
    cases hEq
    have hInsert : (start.insertSubpiece i buf).keys = insert i node.keys := by
      rw [insertSubpiece_keys, keys, hKeys, keys]
    have hNotMem : i ∉ node.keys := fun hIn => hOut (hMem.mpr hIn)
    rcases markIfFull_cases { start.insertSubpiece i buf with
        pieceCount := (start.insertSubpiece i buf).pieceCount.modify
          (i / subpieceNumPerPiece) fun c => u32 (c + 1) } with hMark | ⟨hMark, -⟩ <;>
      rw [hMark] <;>
      refine ⟨hShape.trans ⟨rfl, by simp [insertSubpiece], rfl⟩, ?_, hInsert,
        fun hIn => absurd hIn hNotMem, fun _ => ⟨hLt', by simp [insertSubpiece, hPieces]⟩⟩
    · exact (onDisk_congr rfl).trans hStartDisk
    · rfl

/-- Adding stays inside the piece counts when the piece of the subpiece has one. -/
theorem addSubpiece_isSome {node : BlockNode} {i : Nat} (buf : SubPieceBuffer)
    (h : i / subpieceNumPerPiece < node.pieceCount.length) :
    (node.addSubpiece i buf).isSome = true := by
  unfold addSubpiece
  by_cases hState : node.nodeState = .empty
  · simp only [hState, if_true]
    split
    · rfl
    · simp [modifyPieceCount, insertSubpiece, h]
  · simp only [hState, if_false]
    split
    · rfl
    · simp [modifyPieceCount, insertSubpiece, h]

/-- A subpiece read back from the disk. No piece count changes. -/
structure Loaded (node node' : BlockNode) (i : Nat) : Prop where
  shape : SameShape node node'
  pieces_eq : node'.pieceCount = node.pieceCount
  keys_eq : node'.keys = insert i node.keys
  onDisk : node'.isBlockSavedOnDisk = true ↔ node.isBlockSavedOnDisk = true ∨
    (i ∉ node.keys ∧ node'.keys.card = node.totalSubpieceCount)

theorem loadSubPieceBuffer_loaded (node : BlockNode) (i : Nat) (buf : SubPieceBuffer) :
    Loaded node (node.loadSubPieceBuffer i buf).1 i := by
  unfold loadSubPieceBuffer
  by_cases hIn : i ∈ node.subpieces
  · have hKey : i ∈ node.keys := mem_keys.mpr hIn
    rw [if_pos hIn]
    exact ⟨SameShape.refl node, rfl, (Finset.insert_eq_of_mem hKey).symm, by simp [hKey]⟩
  · have hKey : i ∉ node.keys := fun h => hIn (mem_keys.mp h)
    rw [if_neg hIn]
    dsimp only
    split
    · rename_i hSize
      refine ⟨⟨rfl, rfl, rfl⟩, rfl, insertSubpiece_keys node i buf, ?_⟩
      have hCard : (node.insertSubpiece i buf).keys.card = node.totalSubpieceCount := hSize
      have hAll : isBlockSavedOnDisk { node.insertSubpiece i buf with nodeState := .all } = true := rfl
      simp only [hAll, true_iff]
      exact Or.inr ⟨hKey, hCard⟩
    · rename_i hSize
      refine ⟨⟨rfl, rfl, rfl⟩, rfl, insertSubpiece_keys node i buf, ?_⟩
      rw [onDisk_congr (show (node.insertSubpiece i buf).nodeState = node.nodeState from rfl)]
      constructor
      · exact Or.inl
      · rintro (h | ⟨-, h⟩)
        · exact h
        · exact absurd h hSize

/-- Reading back into a block on disk, or what is there already, fills nothing. -/
theorem Loaded.isFull_eq {node node' : BlockNode} {i : Nat} (h : Loaded node node' i)
    (hKnown : i ∈ node.keys ∨ node.isBlockSavedOnDisk = true) : node'.isFull = node.isFull := by
  rw [Bool.eq_iff_iff, isFull_iff, isFull_iff, h.onDisk, h.shape.total_eq, h.keys_eq]
  rcases hKnown with hIn | hDisk
  · rw [Finset.insert_eq_of_mem hIn]
    simp [hIn]
  · simp [hDisk]

@[simp] theorem setBlockReading_keys (node : BlockNode) :
    node.setBlockReading.1.keys = node.keys := by
  unfold setBlockReading
  split <;> rfl

@[simp] theorem setBlockReading_pieceCount (node : BlockNode) :
    node.setBlockReading.1.pieceCount = node.pieceCount := by
  unfold setBlockReading
  split <;> rfl

theorem setBlockReading_shape (node : BlockNode) : SameShape node node.setBlockReading.1 := by
  unfold setBlockReading
  split <;> exact ⟨rfl, rfl, rfl⟩

@[simp] theorem setBlockReading_onDisk (node : BlockNode) :
    node.setBlockReading.1.isBlockSavedOnDisk = node.isBlockSavedOnDisk := by
  unfold setBlockReading
  split
  · rename_i h
    simp [isBlockSavedOnDisk, h]
  · rfl

@[simp] theorem setBlockReading_isFull (node : BlockNode) :
    node.setBlockReading.1.isFull = node.isFull := by
  rw [Bool.eq_iff_iff, isFull_iff, isFull_iff, setBlockReading_keys, setBlockReading_onDisk,
    (setBlockReading_shape node).total_eq]

/-- A node on which one round of `ClearBlockMemCache` ran. -/
structure Dropped (node node' : BlockNode) (s : Nat) : Prop where
  shape : SameShape node node'
  index_eq : node'.index = node.index
  state_eq : node'.nodeState = node.nodeState
  needWrite_eq : node'.needWrite = node.needWrite
  keys_eq : node'.keys = node.keys.erase s
  lookup_of_some : ∀ k buf, node'.subpieces.lookup k = some buf →
    node.subpieces.lookup k = some buf
  pieces_of_kept : s ∉ node.keys ∨ node.isBlockSavedOnDisk = true →
    node'.pieceCount = node.pieceCount
  pieces_of_erased : s ∈ node.keys → node.isBlockSavedOnDisk = false →
    node'.pieceCount = node.pieceCount.modify (s / subpieceNumPerPiece) fun c => subU32 c 1

theorem dropSubpiece_of_notMem {node : BlockNode} {s : Nat} (h : s ∉ node.keys) :
    node.dropSubpiece s = some node := by
  rw [mem_keys] at h
  simp [dropSubpiece, h]

theorem dropSubpiece_dropped {node node' : BlockNode} {s : Nat}
    (h : node.dropSubpiece s = some node') : Dropped node node' s := by
  by_cases hIn : s ∈ node.keys
  · have hErase : keys { node with subpieces := node.subpieces.erase s } = node.keys.erase s :=
      Finmap.keys_erase s node.subpieces
    have hLookup : ∀ k buf, (node.subpieces.erase s).lookup k = some buf →
        node.subpieces.lookup k = some buf := by
      intro k buf hk
      by_cases hEq : k = s
      · rw [hEq, Finmap.lookup_erase] at hk
        cases hk
      · rwa [Finmap.lookup_erase_ne hEq] at hk
    unfold dropSubpiece at h
    rw [if_pos (mem_keys.mp hIn)] at h
    dsimp only at h
    split at h
    · rename_i hDisk
      have hDisk' : node.isBlockSavedOnDisk = true := hDisk
      cases h
      exact ⟨⟨rfl, rfl, rfl⟩, rfl, rfl, rfl, hErase, hLookup, fun _ => rfl, by simp [hDisk']⟩
    · rename_i hDisk
      have hDisk' : node.isBlockSavedOnDisk = false := Bool.eq_false_iff.mpr hDisk
      obtain ⟨-, rfl⟩ := modifyPieceCount_eq_some.mp h
      exact ⟨⟨rfl, by simp, rfl⟩, rfl, rfl, rfl, hErase, hLookup, by simp [hIn, hDisk'],
        fun _ _ => rfl⟩
  · rw [dropSubpiece_of_notMem hIn] at h
    cases h
    exact ⟨SameShape.refl node, rfl, rfl, rfl, (Finset.erase_eq_of_notMem hIn).symm,
      fun _ _ => id, fun _ => rfl, fun h => absurd h hIn⟩

/-- What every round of the loop keeps, the loop keeps. -/
theorem clearFrom_induction {P : BlockNode → Prop}
    (hStep : ∀ n s n', P n → Dropped n n' s → P n') {rounds s : Nat} {node node' : BlockNode}
    (h : node.clearFrom rounds s = some node') (hP : P node) : P node' := by
  induction rounds generalizing s node with
  | zero =>
      cases h
      exact hP
  | succ rounds ih =>
      unfold clearFrom at h
      split at h
      · obtain ⟨middle, hDrop, hRest⟩ := Option.bind_eq_some_iff.mp h
        exact ih hRest (hStep _ _ _ hP (dropSubpiece_dropped hDrop))
      · cases h
        exact hP

/-- Past its first round the loop runs only while two subpieces are left, so it
does not empty the map. -/
theorem clearFrom_nonempty {rounds s : Nat} {node node' : BlockNode} (hs : 0 < s)
    (h : node.clearFrom rounds s = some node') (hKeys : node.keys.Nonempty) :
    node'.keys.Nonempty := by
  induction rounds generalizing s node with
  | zero =>
      cases h
      exact hKeys
  | succ rounds ih =>
      unfold clearFrom at h
      split at h
      · rename_i hSize
        obtain ⟨middle, hDrop, hRest⟩ := Option.bind_eq_some_iff.mp h
        refine ih (by omega) hRest ?_
        rw [(dropSubpiece_dropped hDrop).keys_eq, ← Finset.card_pos]
        have hCard := Finset.pred_card_le_card_erase (s := node.keys) (a := s)
        have hTwo : s < node.keys.card := hSize
        omega
      · cases h
        exact hKeys

/-- The loop erases nothing when every index it looks at is absent. -/
theorem clearFrom_of_absent {rounds s : Nat} {node : BlockNode}
    (h : ∀ k ∈ node.keys, node.keys.card ≤ k) : node.clearFrom rounds s = some node := by
  induction rounds generalizing s with
  | zero => rfl
  | succ rounds ih =>
      unfold clearFrom
      split
      · rename_i hSize
        have hLt : s < node.keys.card := hSize
        have hAbsent : s ∉ node.keys := fun hIn => by
          have := h s hIn
          omega
        rw [dropSubpiece_of_notMem hAbsent]
        exact ih
      · rfl

/-- A node after `ClearBlockMemCache`: whether it is on disk does not change. -/
structure Cleared (node node' : BlockNode) : Prop where
  shape : SameShape node node'
  index_eq : node'.index = node.index
  state_cases : node'.nodeState = node.nodeState ∨ node.nodeState = .all ∧ node'.nodeState = .disk
  needWrite_eq : node'.needWrite = node.needWrite
  keys_subset : node'.keys ⊆ node.keys
  lookup_of_some : ∀ k buf, node'.subpieces.lookup k = some buf →
    node.subpieces.lookup k = some buf

theorem Cleared.onDisk_eq {node node' : BlockNode} (h : Cleared node node') :
    node'.isBlockSavedOnDisk = node.isBlockSavedOnDisk := by
  rcases h.state_cases with hSame | ⟨hAll, hDisk⟩
  · exact onDisk_congr hSame
  · simp [isBlockSavedOnDisk, hAll, hDisk]

private theorem clear_result {node node' : BlockNode} {play : Nat}
    (h : node.clearBlockMemCache play = some node') : ∃ middle,
      node.clearFrom (play + 1) 0 = some middle ∧ Cleared middle node' ∧
      node'.keys = middle.keys ∧ node'.pieceCount = middle.pieceCount := by
  obtain ⟨middle, hClear, hEq⟩ := Option.map_eq_some_iff.mp h
  refine ⟨middle, hClear, ?_⟩
  split at hEq
  · rename_i hAll
    cases hEq
    exact ⟨⟨⟨rfl, rfl, rfl⟩, rfl, Or.inr ⟨hAll, rfl⟩, rfl, Finset.Subset.refl _, fun _ _ => id⟩,
      rfl, rfl⟩
  · cases hEq
    exact ⟨⟨SameShape.refl _, rfl, Or.inl rfl, rfl, Finset.Subset.refl _, fun _ _ => id⟩, rfl, rfl⟩

theorem clearBlockMemCache_cleared {node node' : BlockNode} {play : Nat}
    (h : node.clearBlockMemCache play = some node') : Cleared node node' := by
  obtain ⟨middle, hLoop, hEnd, -⟩ := clear_result h
  have hMiddle : Cleared node middle ∧ middle.nodeState = node.nodeState := by
    refine clearFrom_induction (P := fun n => Cleared node n ∧ n.nodeState = node.nodeState) ?_
      hLoop ⟨⟨SameShape.refl node, rfl, Or.inl rfl, rfl, Finset.Subset.refl _, fun _ _ => id⟩, rfl⟩
    rintro n s n' ⟨hn, hState⟩ hDrop
    have hState' := hDrop.state_eq.trans hState
    refine ⟨⟨hn.shape.trans hDrop.shape, hDrop.index_eq.trans hn.index_eq, Or.inl hState',
      hDrop.needWrite_eq.trans hn.needWrite_eq, ?_, fun k buf hk =>
        hn.lookup_of_some k buf (hDrop.lookup_of_some k buf hk)⟩, hState'⟩
    rw [hDrop.keys_eq]
    exact (Finset.erase_subset s n.keys).trans hn.keys_subset
  obtain ⟨hn, hState⟩ := hMiddle
  refine ⟨hn.shape.trans hEnd.shape, hEnd.index_eq.trans hn.index_eq, ?_,
    hEnd.needWrite_eq.trans hn.needWrite_eq, hEnd.keys_subset.trans hn.keys_subset,
    fun k buf hk => hn.lookup_of_some k buf (hEnd.lookup_of_some k buf hk)⟩
  rw [← hState]
  exact hEnd.state_cases

/-- What a round keeps on a node whose place on disk is fixed, clearing keeps. -/
theorem clearBlockMemCache_induction {P : BlockNode → Prop}
    (hStep : ∀ n s n', P n → Dropped n n' s → P n')
    (hEnd : ∀ n n', P n → SameShape n n' → n'.keys = n.keys → n'.pieceCount = n.pieceCount →
      n'.isBlockSavedOnDisk = n.isBlockSavedOnDisk → P n')
    {node node' : BlockNode} {play : Nat} (h : node.clearBlockMemCache play = some node')
    (hP : P node) : P node' := by
  obtain ⟨middle, hLoop, hCleared, hKeys, hPieces⟩ := clear_result h
  exact hEnd _ _ (clearFrom_induction hStep hLoop hP) hCleared.shape hKeys hPieces
    hCleared.onDisk_eq

/-- A block with a subpiece other than its first one in memory is not emptied. -/
theorem clearBlockMemCache_nonempty {node node' : BlockNode} {play k : Nat}
    (h : node.clearBlockMemCache play = some node') (hk : k ∈ node.keys) (hPos : k ≠ 0) :
    node'.keys.Nonempty := by
  obtain ⟨middle, hLoop, -, hKeys, -⟩ := clear_result h
  rw [hKeys]
  unfold clearFrom at hLoop
  split at hLoop
  · obtain ⟨first, hDrop, hRest⟩ := Option.bind_eq_some_iff.mp hLoop
    refine clearFrom_nonempty (by omega) hRest ⟨k, ?_⟩
    rw [(dropSubpiece_dropped hDrop).keys_eq]
    exact Finset.mem_erase.mpr ⟨hPos, hk⟩
  · cases hLoop
    exact ⟨k, hk⟩

/-- Nothing is erased when the held subpieces lie past the first `size` indices. -/
theorem clearBlockMemCache_keys_of_absent {node node' : BlockNode} {play : Nat}
    (h : node.clearBlockMemCache play = some node')
    (hAbsent : ∀ k ∈ node.keys, node.keys.card ≤ k) : node'.keys = node.keys := by
  obtain ⟨middle, hLoop, -, hKeys, -⟩ := clear_result h
  rw [clearFrom_of_absent hAbsent] at hLoop
  cases hLoop
  exact hKeys

/-- A node from which the write buffer was taken. -/
structure TakenForSave (node node' : BlockNode) : Prop where
  shape : SameShape node node'
  pieces_eq : node'.pieceCount = node.pieceCount
  onDisk_eq : node'.isBlockSavedOnDisk = node.isBlockSavedOnDisk
  keys_eq : node'.keys = node.keys ∨ node.isBlockSavedOnDisk = true ∧ node'.keys = ∅

theorem getBufferForSave_taken {node node' : BlockNode}
    {bufferSet : List (SubPieceInfo × SubPieceBuffer)}
    (h : node.getBufferForSave = some (node', bufferSet)) : TakenForSave node node' := by
  unfold getBufferForSave at h
  split at h
  · cases h
    exact ⟨SameShape.refl node, rfl, rfl, Or.inl rfl⟩
  · dsimp only at h
    split at h
    · rename_i hState
      cases h
      have hAll : node.nodeState = .all := hState
      exact ⟨⟨rfl, rfl, rfl⟩, rfl, by simp [isBlockSavedOnDisk, hAll],
        Or.inr ⟨by simp [isBlockSavedOnDisk, hAll], rfl⟩⟩
    · rename_i hState
      have hMem : node.nodeState = .mem := hState
      split at h
      · cases h
        exact ⟨⟨rfl, rfl, rfl⟩, rfl, by simp [isBlockSavedOnDisk, hMem], Or.inl rfl⟩
      · cases h
    · cases h
      exact ⟨⟨rfl, rfl, rfl⟩, rfl, rfl, Or.inl rfl⟩

theorem TakenForSave.refl (node : BlockNode) : TakenForSave node node :=
  ⟨.refl node, rfl, rfl, Or.inl rfl⟩

theorem TakenForSave.keys_of_not_onDisk {node node' : BlockNode} (h : TakenForSave node node')
    (hDisk : node.isBlockSavedOnDisk = false) : node'.keys = node.keys := by
  rcases h.keys_eq with hSame | ⟨hOnDisk, -⟩
  · exact hSame
  · rw [hOnDisk] at hDisk
    cases hDisk

theorem TakenForSave.isFull_eq {node node' : BlockNode} (h : TakenForSave node node') :
    node'.isFull = node.isFull := by
  rw [Bool.eq_iff_iff, isFull_iff, isFull_iff, h.onDisk_eq, h.shape.total_eq]
  rcases h.keys_eq with hKeys | ⟨hDisk, -⟩
  · rw [hKeys]
  · simp [hDisk]

theorem TakenForSave.isFull {node node' : BlockNode} (h : TakenForSave node node')
    (hFull : node.isFull = true) : node'.isFull = true := h.isFull_eq.trans hFull

@[simp] theorem resetForReDownload_keys (node : BlockNode) :
    node.resetForReDownload.keys = node.keys := rfl

@[simp] theorem resetForReDownload_onDisk (node : BlockNode) :
    node.resetForReDownload.isBlockSavedOnDisk = false := rfl

theorem resetForReDownload_shape (node : BlockNode) : SameShape node node.resetForReDownload :=
  ⟨rfl, by simp [resetForReDownload], rfl⟩

theorem resetForReDownload_pieceCount (node : BlockNode) (p : Nat) :
    node.resetForReDownload.pieceCount.getD p 0 = 0 := by
  simp only [resetForReDownload, List.getD_eq_getElem?_getD, List.getElem?_map]
  cases node.pieceCount[p]? <;> rfl

end BlockNode

end Storage
