import Peer.Storage.BlockNodeFits
import Peer.Storage.Pipeline

/-! What a block is between its download and its write. In a build with a disk a
block that has its bit is on disk, or its node is complete in memory and wants to
be written; evicting it then posts the whole block. -/
namespace Storage

open Basis

/-- A call that adds or loads whole subpieces of blocks of the file. -/
def StoreOp.WholeSubpieces (r : RidInfo) : StoreOp → Prop
  | .addSubPiece info buf =>
      r.Inside info ∧ buf.length = r.subpieceSize info.blockIndex info.subpieceIndex
  | .loadSubPiece info content => r.Inside info ∧ content.length = bytesNumPerSubpiece
  | .initRidInfo r' => r'.blockSize = r.blockSize ∧ r'.fileLength = r.fileLength
  | _ => True

theorem StoreOp.WholeSubpieces.keepsGeometry {r : RidInfo} {op : StoreOp}
    (h : op.WholeSubpieces r) : op.KeepsGeometry r := by
  cases op with
  | initRidInfo r' => exact h
  | _ => trivial

namespace BlockNode

section Nodes

variable {node node' : BlockNode} {i : Nat} {buf : SubPieceBuffer} {flag : Bool}

/-- A node that gets a subpiece wants to be written exactly when that completes it. -/
structure Grown (node node' : BlockNode) (i : Nat) (buf : SubPieceBuffer) : Prop where
  index_eq : node'.index = node.index
  needWrite_eq : node'.needWrite = node'.isFull
  mem_iff : node'.nodeState = .mem ↔ node'.isFull = true
  lookup_of_some : ∀ k x, node'.subpieces.lookup k = some x →
    node.subpieces.lookup k = some x ∨ k = i ∧ x = buf

theorem insertSubpiece_lookup (node : BlockNode) (i : Nat) (buf : SubPieceBuffer) (k : Nat)
    (x : SubPieceBuffer) (h : (node.insertSubpiece i buf).subpieces.lookup k = some x) :
    node.subpieces.lookup k = some x ∨ k = i ∧ x = buf := by
  by_cases hk : k = i
  · subst hk
    have hSelf : (node.insertSubpiece k buf).subpieces.lookup k = some buf :=
      Finmap.lookup_insert node.subpieces
    rw [hSelf] at h
    exact Or.inr ⟨rfl, (Option.some.inj h).symm⟩
  · exact Or.inl ((Finmap.lookup_insert_of_ne node.subpieces hk).symm.trans h)

theorem markIfFull_grown (node : BlockNode) (hWrite : node.needWrite = false) (hMem : node.nodeState ≠ .mem)
    (hDisk : node.isBlockSavedOnDisk = false) :
    node.markIfFull.index = node.index ∧ node.markIfFull.subpieces = node.subpieces ∧
      node.markIfFull.needWrite = node.markIfFull.isFull ∧
      (node.markIfFull.nodeState = .mem ↔ node.markIfFull.isFull = true) := by
  unfold markIfFull
  cases hFull : node.isFull with
  | false =>
      rw [Bool.false_and, if_neg Bool.false_ne_true, hFull, hWrite]
      exact ⟨rfl, rfl, rfl, iff_of_false hMem Bool.false_ne_true⟩
  | true =>
      have hCard : node.keys.card = node.totalSubpieceCount :=
        (isFull_iff.mp hFull).resolve_right (by rw [hDisk]; exact Bool.false_ne_true)
      have hMarked : isFull { node with needWrite := true, nodeState := .mem } = true :=
        isFull_iff.mpr (Or.inl hCard)
      rw [hWrite, Bool.not_false, Bool.and_self, if_pos rfl, hMarked]
      exact ⟨rfl, rfl, rfl, iff_of_true rfl rfl⟩

theorem addSubpiece_grown (hFull : node.isFull = false) (hWrite : node.needWrite = false)
    (hMem : node.nodeState ≠ .mem) (h : node.addSubpiece i buf = some (node', flag)) :
    Grown node node' i buf := by
  have hDisk := not_onDisk_of_not_full hFull
  obtain ⟨begun, hBegun, hSub, hIndex, hTotal, hBegunWrite, hBegunDisk, hBegunMem⟩ :
      ∃ begun : BlockNode,
        (if node.nodeState = .empty then { node with nodeState := .downloading } else node) = begun ∧
        begun.subpieces = node.subpieces ∧ begun.index = node.index ∧
        begun.totalSubpieceCount = node.totalSubpieceCount ∧ begun.needWrite = false ∧
        begun.isBlockSavedOnDisk = false ∧ begun.nodeState ≠ .mem := by
    refine ⟨_, rfl, ?_⟩
    split
    · exact ⟨rfl, rfl, rfl, hWrite, rfl, by simp⟩
    · exact ⟨rfl, rfl, rfl, hWrite, hDisk, hMem⟩
  simp only [addSubpiece, hBegun] at h
  split at h
  · cases h
    have hSame : node'.isFull = false := by
      rw [← hFull]
      exact isFull_congr (by rw [keys, hSub, keys]) hTotal (hBegunDisk.trans hDisk.symm)
    exact ⟨hIndex, hBegunWrite.trans hSame.symm,
      iff_of_false hBegunMem (by rw [hSame]; exact Bool.false_ne_true),
      fun k x hx => Or.inl (hSub ▸ hx)⟩
  · obtain ⟨stored, hStored, hEq⟩ := Option.map_eq_some_iff.mp h
    obtain ⟨-, rfl⟩ := modifyPieceCount_eq_some.mp hStored
    cases hEq
    obtain ⟨hMarkIndex, hMarkSub, hMarkWrite, hMarkMem⟩ := markIfFull_grown
      { begun.insertSubpiece i buf with
        pieceCount := (begun.insertSubpiece i buf).pieceCount.modify (i / subpieceNumPerPiece)
          fun c => u32 (c + 1) } hBegunWrite hBegunMem hBegunDisk
    refine ⟨hMarkIndex.trans hIndex, hMarkWrite, hMarkMem, fun k x hx => ?_⟩
    rw [hMarkSub] at hx
    rw [← hSub]
    exact insertSubpiece_lookup begun i buf k x hx

/-- A subpiece that is there is not loaded again. -/
theorem loadSubPieceBuffer_of_mem (h : i ∈ node.keys) :
    (node.loadSubPieceBuffer i buf).1 = node := by
  rw [loadSubPieceBuffer, if_pos (mem_keys.mp h)]

/-- Loading what is not there may put the node in the state `ALL`. -/
theorem loadSubPieceBuffer_of_notMem (buf : SubPieceBuffer) (h : i ∉ node.keys) :
    (node.loadSubPieceBuffer i buf).1.index = node.index ∧
      (node.loadSubPieceBuffer i buf).1.needWrite = node.needWrite ∧
      (node.loadSubPieceBuffer i buf).1.subpieces = (node.insertSubpiece i buf).subpieces ∧
      (node.loadSubPieceBuffer i buf).1.nodeState =
        (if (insert i node.keys).card = node.totalSubpieceCount then .all else node.nodeState) := by
  rw [loadSubPieceBuffer, if_neg fun hIn => h (mem_keys.mpr hIn)]
  have hSize : (node.insertSubpiece i buf).size = (insert i node.keys).card := by
    rw [size_eq, insertSubpiece_keys]
  have hTotal : (node.insertSubpiece i buf).totalSubpieceCount = node.totalSubpieceCount := rfl
  dsimp only
  rw [hSize, hTotal]
  split
  · exact ⟨rfl, rfl, rfl, rfl⟩
  · exact ⟨rfl, rfl, rfl, rfl⟩

@[simp] theorem setBlockReading_index (node : BlockNode) :
    node.setBlockReading.1.index = node.index := by
  unfold setBlockReading
  split <;> rfl

@[simp] theorem setBlockReading_needWrite (node : BlockNode) :
    node.setBlockReading.1.needWrite = node.needWrite := by
  unfold setBlockReading
  split <;> rfl

@[simp] theorem setBlockReading_subpieces (node : BlockNode) :
    node.setBlockReading.1.subpieces = node.subpieces := by
  unfold setBlockReading
  split <;> rfl

theorem setBlockReading_mem_iff (node : BlockNode) :
    node.setBlockReading.1.nodeState = .mem ↔ node.nodeState = .mem := by
  unfold setBlockReading
  split
  · rename_i hState
    rw [hState]
    exact iff_of_false (by simp) (by simp)
  · rfl

end Nodes

end BlockNode

namespace SubPieceManager

variable {μ : Type} [BlockMap μ] {r : RidInfo} {md5 : Bytes → Guid} {m m' : SubPieceManager μ}
  {op : StoreOp} {b j : Nat}

/-- A node with the subpieces of its block, of their sizes. While it wants to be
written it is complete and not on disk, and the bit of its block says that it is on
disk or waits in memory for its write. -/
structure WriteReady (r : RidInfo) (b : Nat) (node : BlockNode) (bit : Bool) : Prop where
  index_eq : node.index = b
  total_eq : node.totalSubpieceCount = r.capacity b
  keys_subset : node.keys ⊆ Finset.range (r.capacity b)
  length_eq : ∀ s buf, node.subpieces.lookup s = some buf → buf.length = r.subpieceSize b s
  full_of_write : node.needWrite = true →
    node.keys.card = r.capacity b ∧ node.isBlockSavedOnDisk = false
  write_of_mem : node.nodeState = .mem → node.needWrite = true
  held : bit = true → node.isBlockSavedOnDisk = true ∨ node.nodeState = .mem

section Ready

variable {node node' : BlockNode} {bit : Bool}

theorem WriteReady.create (disk bit : Bool) (h : bit = true → disk = true) :
    WriteReady r b (.create b (r.capacity b) disk) bit where
  index_eq := rfl
  total_eq := rfl
  keys_subset := Finset.empty_subset _
  length_eq s buf hs := by cases hs
  full_of_write hWrite := by cases hWrite
  write_of_mem hMem := by cases disk <;> cases hMem
  held hBit := Or.inl (by rw [BlockNode.create_onDisk, h hBit])

theorem WriteReady.added (h : WriteReady r b node false) (hFull : node.isFull = false)
    {i : Nat} {buf : SubPieceBuffer} {flag : Bool} (hi : i < r.capacity b)
    (hLength : buf.length = r.subpieceSize b i)
    (hCall : node.addSubpiece i buf = some (node', flag)) :
    WriteReady r b node' node'.isFull := by
  have hWrite : node.needWrite = false := by
    by_contra hWrite
    have hCard := (h.full_of_write (Bool.eq_true_of_not_eq_false hWrite)).1
    rw [BlockNode.isFull_iff.mpr (Or.inl (hCard.trans h.total_eq.symm))] at hFull
    cases hFull
  have hMem : node.nodeState ≠ .mem := fun hMem => by
    rw [h.write_of_mem hMem] at hWrite
    cases hWrite
  have hAdded := BlockNode.addSubpiece_added hFull hCall
  have hGrown := BlockNode.addSubpiece_grown hFull hWrite hMem hCall
  have hTotal := hAdded.shape.total_eq.trans h.total_eq
  refine ⟨hGrown.index_eq.trans h.index_eq, hTotal, ?_, fun s x hx => ?_, fun hNeed => ?_,
    fun hState => hGrown.needWrite_eq.trans (hGrown.mem_iff.mp hState),
    fun hBit => Or.inr (hGrown.mem_iff.mpr hBit)⟩
  · rw [hAdded.keys_eq]
    exact Finset.insert_subset (Finset.mem_range.mpr hi) h.keys_subset
  · rcases hGrown.lookup_of_some s x hx with hOld | ⟨rfl, rfl⟩
    · exact h.length_eq s x hOld
    · exact hLength
  · rw [hGrown.needWrite_eq, BlockNode.isFull_iff, hAdded.onDisk, hTotal] at hNeed
    exact ⟨hNeed.resolve_right Bool.false_ne_true, hAdded.onDisk⟩

theorem WriteReady.loaded (h : WriteReady r b node bit) {i : Nat} {buf : SubPieceBuffer}
    (hi : i < r.capacity b) (hLength : buf.length = r.subpieceSize b i) :
    WriteReady r b (node.loadSubPieceBuffer i buf).1 bit := by
  by_cases hIn : i ∈ node.keys
  · rw [BlockNode.loadSubPieceBuffer_of_mem hIn]
    exact h
  · have hLoaded := BlockNode.loadSubPieceBuffer_loaded node i buf
    obtain ⟨hIndex, hWrite, hSub, hState⟩ := BlockNode.loadSubPieceBuffer_of_notMem buf hIn
    have hCard : node.keys.card ≠ r.capacity b := by
      intro hCard
      have hRange := Finset.eq_of_subset_of_card_le h.keys_subset (by simp [hCard])
      exact hIn (hRange ▸ Finset.mem_range.mpr hi)
    have hNotWrite : node.needWrite = true → False := fun hNeed => hCard (h.full_of_write hNeed).1
    have hNotMem : node.nodeState ≠ .mem := fun hMem => hNotWrite (h.write_of_mem hMem)
    refine ⟨hIndex.trans h.index_eq, hLoaded.shape.total_eq.trans h.total_eq, ?_, fun s x hx => ?_,
      fun hNeed => absurd (hWrite ▸ hNeed) hNotWrite, fun hMem => ?_, fun hBit => Or.inl ?_⟩
    · rw [hLoaded.keys_eq]
      exact Finset.insert_subset (Finset.mem_range.mpr hi) h.keys_subset
    · rw [hSub] at hx
      rcases BlockNode.insertSubpiece_lookup node i buf s x hx with hOld | ⟨rfl, rfl⟩
      · exact h.length_eq s x hOld
      · exact hLength
    · rw [hState] at hMem
      split at hMem
      · cases hMem
      · exact absurd hMem hNotMem
    · exact hLoaded.onDisk.mpr (Or.inl ((h.held hBit).resolve_right hNotMem))

theorem WriteReady.cleared (h : WriteReady r b node bit) (hFull : node.isFull = false) {play : Nat}
    (hClear : node.clearBlockMemCache play = some node') : WriteReady r b node' bit := by
  have hCleared := BlockNode.clearBlockMemCache_cleared hClear
  have hDisk := BlockNode.not_onDisk_of_not_full hFull
  have hNotWrite : node.needWrite = true → False := fun hNeed => by
    rw [BlockNode.isFull_iff.mpr (Or.inl ((h.full_of_write hNeed).1.trans h.total_eq.symm))] at hFull
    cases hFull
  have hState : node'.nodeState = node.nodeState := by
    rcases hCleared.state_cases with hSame | ⟨hAll, -⟩
    · exact hSame
    · rw [BlockNode.isBlockSavedOnDisk, hAll] at hDisk
      cases hDisk
  refine ⟨hCleared.index_eq.trans h.index_eq, hCleared.shape.total_eq.trans h.total_eq,
    hCleared.keys_subset.trans h.keys_subset,
    fun s x hx => h.length_eq s x (hCleared.lookup_of_some s x hx),
    fun hNeed => absurd (hCleared.needWrite_eq ▸ hNeed) hNotWrite,
    fun hMem => absurd (h.write_of_mem (hState ▸ hMem)) hNotWrite, fun hBit => ?_⟩
  rw [hCleared.onDisk_eq, hState]
  exact h.held hBit

theorem WriteReady.reset (h : WriteReady r b node bit) :
    WriteReady r b node.resetForReDownload false where
  index_eq := h.index_eq
  total_eq := h.total_eq
  keys_subset := h.keys_subset
  length_eq := h.length_eq
  full_of_write hNeed := ⟨(h.full_of_write hNeed).1, rfl⟩
  write_of_mem hMem := by cases hMem
  held hBit := by cases hBit

theorem WriteReady.reading (h : WriteReady r b node bit) :
    WriteReady r b node.setBlockReading.1 bit := by
  refine ⟨(BlockNode.setBlockReading_index node).trans h.index_eq,
    (BlockNode.setBlockReading_shape node).total_eq.trans h.total_eq, ?_, ?_, ?_, ?_, ?_⟩
  · rw [BlockNode.setBlockReading_keys]
    exact h.keys_subset
  · rw [BlockNode.setBlockReading_subpieces]
    exact h.length_eq
  · rw [BlockNode.setBlockReading_needWrite, BlockNode.setBlockReading_keys,
      BlockNode.setBlockReading_onDisk]
    exact h.full_of_write
  · rw [BlockNode.setBlockReading_mem_iff, BlockNode.setBlockReading_needWrite]
    exact h.write_of_mem
  · rw [BlockNode.setBlockReading_onDisk, BlockNode.setBlockReading_mem_iff]
    exact h.held

end Ready

section Geometry

/-- The length that `LoadSubPiece` cuts a content to is the size of the subpiece. -/
theorem BuiltFor.loadSize_eq (h : BuiltFor r m) (hr : r.Addressable) {info : SubPieceInfo}
    (hb : info.blockIndex < r.blockCount) :
    m.loadSize info = r.subpieceSize info.blockIndex info.subpieceIndex := by
  have hPosition := h.position_length hr hb
  have hSize : subU32 r.fileLength 1 % bytesNumPerSubpiece + 1 ≤ bytesNumPerSubpiece :=
    Nat.mod_lt _ (by decide)
  rw [← hPosition, loadSize, getSubPiecePosition, h.lastSize_eq, h.fileLength_eq]
  split
  · exact u16_of_lt (Nat.lt_of_le_of_lt hSize (by decide))
  · rfl

/-- A buffer that the admission test accepts has the size of its subpiece. -/
theorem BuiltFor.length_of_valid (h : BuiltFor r m) (hr : r.Addressable) {info : SubPieceInfo}
    {buf : SubPieceBuffer} (hb : info.blockIndex < r.blockCount)
    (hValid : m.isSubPieceValid info buf = true) :
    buf.length = r.subpieceSize info.blockIndex info.subpieceIndex := by
  rw [← h.position_length hr hb, getSubPiecePosition, h.fileLength_eq]
  unfold isSubPieceValid at hValid
  split at hValid
  · cases hValid
  · split at hValid
    · rename_i hLast
      rw [if_pos hLast, ← h.lastSize_eq]
      exact beq_iff_eq.mp hValid
    · rename_i hLast
      rw [if_neg hLast]
      exact beq_iff_eq.mp hValid

end Geometry

/-- Every call with whole subpieces keeps the nodes ready. -/
theorem WriteReady.rules (hr : r.Addressable) (hm : BuiltFor r m) (hOp : op.WholeSubpieces r) :
    NodeRules ⟨true, md5⟩ m op (WriteReady r) where
  created info buf hEq hNone hLt := by
    rw [hm.newBlockCapacity_eq hr (hm.length_eq ▸ hLt)]
    exact .create false false id
  added info buf node node' flag hEq h hFull hCall := by
    subst hEq
    exact h.added hFull hOp.1.2 hOp.2 hCall
  loaded info content node bit hEq _ h := by
    subst hEq
    refine h.loaded hOp.1.2 ?_
    have hLe := RidInfo.subpieceSize_le (r := r) info.blockIndex info.subpieceIndex
    rw [SubPieceBuffer.length, SubPieceBuffer.ofContent, hm.loadSize_eq hr hOp.1.1,
      List.length_take, hOp.2]
    exact Nat.min_eq_left hLe
  fromDisk b hEq hLt := by
    rw [hm.getBlockSubPieceCount_eq hr (hm.length_eq ▸ hLt)]
    exact .create true true id
  reading b node bit _ h := h.reading
  taken _ _ _ _ hMode := by cases hMode
  evicted _ _ _ _ _ hMode := by cases hMode
  cleared b node node' bit play _ hFull h hClear := h.cleared hFull hClear
  reset info node bit _ _ h := h.reset

/-- The buffer set of a whole block. -/
structure FullSet (r : RidInfo) (b : Nat) (bufferSet : List (SubPieceInfo × SubPieceBuffer)) :
    Prop where
  length_eq : bufferSet.length = r.capacity b
  first_eq : ∃ buf rest, bufferSet = (SubPieceInfo.make b 0, buf) :: rest
  data_length : (blockData bufferSet).length = r.blockBytes b

/-- A block that is held, and not by memory. -/
def Stored (m : SubPieceManager μ) (b : Nat) : Prop :=
  m.hasFullBlock b = true ∧ ∀ node, m.nodeAt b = some node → node.isBlockSavedOnDisk = true

section Save

variable {node node' : BlockNode} {bit : Bool}

theorem blockData_length (set : List (SubPieceInfo × SubPieceBuffer)) :
    (blockData set).length = (set.map fun entry => entry.2.length).sum := by
  rw [blockData, List.length_flatMap]
  rfl

theorem WriteReady.bufferSet_full (h : WriteReady r b node bit) (hr : r.Addressable)
    (hCard : node.keys.card = r.capacity b) : FullSet r b node.bufferSet := by
  have hRange : node.keys = Finset.range (r.capacity b) :=
    Finset.eq_of_subset_of_card_le h.keys_subset (by simp [hCard])
  have hPos := RidInfo.capacity_pos hr.toValid b
  have hLe := RidInfo.capacity_le hr.toValid b
  have hSize := hr.blockSize_le
  have hCount : min node.size (2 ^ 16) = r.capacity b := by
    rw [BlockNode.size_eq, hCard]
    omega
  have hEach : ∀ s < r.capacity b,
      ((node.subpieces.lookup s).getD ⟨[], false⟩).length = r.subpieceSize b s := by
    intro s hs
    have hMem : s ∈ node.subpieces := BlockNode.mem_keys.mp (hRange ▸ Finset.mem_range.mpr hs)
    obtain ⟨buf, hBuf⟩ := Option.isSome_iff_exists.mp (Finmap.lookup_isSome.mpr hMem)
    rw [hBuf]
    exact h.length_eq s buf hBuf
  refine ⟨by rw [BlockNode.bufferSet, List.length_map, List.length_range, hCount], ?_, ?_⟩
  · obtain ⟨n, hn⟩ := Nat.exists_eq_succ_of_ne_zero (Nat.ne_of_gt hPos)
    rw [BlockNode.bufferSet, hCount, hn, List.range_succ_eq_map, List.map_cons, h.index_eq]
    exact ⟨_, _, rfl⟩
  · have hSum : r.blockBytes b = ((List.range (r.capacity b)).map (r.subpieceSize b)).sum := rfl
    rw [blockData_length, BlockNode.bufferSet, hCount, List.map_map, hSum]
    exact congrArg List.sum (List.map_congr_left fun s hs => hEach s (List.mem_range.mp hs))

/-- Taking the write buffer of a node that wants to be written gives the whole block,
or nothing when the block is not held. -/
theorem WriteReady.getBufferForSave (h : WriteReady r b node bit) (hr : r.Addressable)
    (hWrite : node.needWrite = true) {set : List (SubPieceInfo × SubPieceBuffer)}
    (hTake : node.getBufferForSave = some (node', set)) :
    set = [] ∧ bit = false ∨ FullSet r b set := by
  obtain ⟨hCard, hDisk⟩ := h.full_of_write hWrite
  unfold BlockNode.getBufferForSave at hTake
  rw [hWrite, Bool.not_true, if_neg Bool.false_ne_true] at hTake
  dsimp only at hTake
  split at hTake
  · rename_i hAll
    rw [BlockNode.isBlockSavedOnDisk, hAll] at hDisk
    cases hDisk
  · split at hTake
    · cases hTake
      exact Or.inr (h.bufferSet_full hr hCard)
    · cases hTake
  · rename_i hNotMem
    cases hTake
    refine Or.inl ⟨rfl, Bool.eq_false_iff.mpr fun hBit => ?_⟩
    rcases h.held hBit with hOnDisk | hMem
    · rw [hDisk] at hOnDisk
      cases hOnDisk
    · exact hNotMem hMem

end Save

section Stored

theorem Becomes.stored_of_ne {node? : Option BlockNode} {bit : Bool} {count bytes : Nat}
    (h : Becomes m b node? bit count bytes m') (hNe : j ≠ b) (hj : j < m.blocks.length)
    (hStored : Stored m' j) : Stored m j := by
  rw [Stored, h.bit_of_ne j hNe hj, h.nodeAt_of_ne j hNe] at hStored
  exact hStored

/-- A change of one block makes no block stored when it does not make this one so. -/
theorem Becomes.stored {node? : Option BlockNode} {bit : Bool} {count bytes : Nat}
    (h : Becomes m b node? bit count bytes m') (hj : j < m.blocks.length)
    (hSelf : bit = true → (∀ node, node? = some node → node.isBlockSavedOnDisk = true) →
      Stored m b) (hStored : Stored m' j) : Stored m j := by
  by_cases hEq : j = b
  · subst hEq
    rw [Stored, h.bit_self, h.nodeAt_self] at hStored
    exact hSelf hStored.1 hStored.2
  · exact h.stored_of_ne hEq hj hStored

/-- What an eviction posts. A block it drops from memory is posted as a whole, or was
stored before, or is not held. -/
inductive EvictSaves (r : RidInfo) (m : SubPieceManager μ) (b : Nat) (m' : SubPieceManager μ) :
    List SaveJob → Prop where
  | nothing (h : ∀ j < r.blockCount, Stored m' j → Stored m j) : EvictSaves r m b m' []
  | block (set : List (SubPieceInfo × SubPieceBuffer)) (hFull : FullSet r b set)
      (hBlock : b < r.blockCount) (h : ∀ j < r.blockCount, j ≠ b → Stored m' j → Stored m j) :
      EvictSaves r m b m' [.threadPendingHashBlock b set, .secSaveResourceFileInfo]

theorem removeBlockDataFromMemCache_saves (hr : r.Addressable) (hm : BuiltFor r m)
    (hReady : NodesHave (WriteReady r) m) {saves : List SaveJob}
    (h : m.removeBlockDataFromMemCache ⟨true, md5⟩ b = some (m', saves)) :
    EvictSaves r m b m' saves := by
  unfold removeBlockDataFromMemCache at h
  split at h
  · rename_i hLt
    have hSame := Becomes.same hm.sized hLt
    have hBlock : b < r.blockCount := hm.length_eq ▸ hLt
    split at h
    · cases h
      exact .nothing fun _ _ => id
    · rename_i node hNode
      have hNodeReady := hReady b node hNode
      rw [if_pos rfl] at h
      unfold evictToDisk at h
      split at h
      · rename_i hWrite
        rw [Bool.and_eq_true] at hWrite
        obtain ⟨⟨written, taken, jobs⟩, hWritten, hEq⟩ := Option.map_eq_some_iff.mp h
        obtain ⟨⟨taken', set⟩, hTake, hEq'⟩ := Option.map_eq_some_iff.mp hWritten
        cases hEq'
        have hFull := (BlockNode.getBufferForSave_taken hTake).isFull hWrite.2
        dsimp only at hEq
        rw [if_pos hFull] at hEq
        have hDrop := (hSame.setNode (some taken)).setNode none
        rcases hNodeReady.getBufferForSave hr hWrite.1 hTake with ⟨rfl, hBit⟩ | hSet
        · cases hEq
          refine .nothing fun j hj => hDrop.stored (hm.length_eq ▸ hj) fun hHeld => ?_
          rw [hBit] at hHeld
          cases hHeld
        · obtain ⟨buf, rest, rfl⟩ := hSet.first_eq
          cases hEq
          exact .block _ hSet hBlock fun j hj hNe => hDrop.stored_of_ne hNe (hm.length_eq ▸ hj)
      · rename_i hWrite
        split at h
        · rename_i hFull
          cases h
          refine .nothing fun j hj => (hSame.setNode none).stored (hm.length_eq ▸ hj)
            fun hHeld _ => ⟨hHeld, fun n hn => ?_⟩
          cases hNode.symm.trans hn
          -- A full node that waits for its write would have been written.
          refine (hNodeReady.held hHeld).resolve_right fun hMem => hWrite ?_
          rw [hNodeReady.write_of_mem hMem, hFull]
          rfl
        · cases h
          exact .nothing fun _ _ => id
  · cases h

/-- A round of `SaveAllBlock` posts what the eviction in it posts. -/
theorem saveBlock_saves (hr : r.Addressable) (hm : BuiltFor r m)
    (hReady : NodesHave (WriteReady r) m) {saves : List SaveJob}
    (h : m.saveBlock ⟨true, md5⟩ b = some (m', saves)) : EvictSaves r m b m' saves := by
  obtain ⟨⟨evicted, jobs⟩, hEvict, hRest⟩ := Option.bind_eq_some_iff.mp h
  have hSaves := removeBlockDataFromMemCache_saves hr hm hReady hEvict
  have hStep := removeBlockDataFromMemCache_step hm.sized hEvict
  have hBuilt := hStep.builtFor hm
  have hLater : jobs = saves ∧ ∀ j < r.blockCount, Stored m' j → Stored evicted j := by
    dsimp only at hRest
    split at hRest
    · rename_i node hNode
      split at hRest
      · cases hRest
        exact ⟨rfl, fun _ _ => id⟩
      · rename_i hFull
        obtain ⟨node', hClear, hEq⟩ := Option.map_eq_some_iff.mp hRest
        cases hEq
        have hSame := Becomes.same hBuilt.sized (lt_of_nodeAt hNode)
        have hDisk := BlockNode.not_onDisk_of_not_full (Bool.eq_false_iff.mpr hFull)
        refine ⟨rfl, fun j hj => (hSame.setNode _).stored (hBuilt.length_eq ▸ hj) fun _ hAll => ?_⟩
        have hCleared := (BlockNode.clearBlockMemCache_cleared hClear).onDisk_eq
        rw [hAll node' rfl, hDisk] at hCleared
        cases hCleared
    · cases hRest
      exact ⟨rfl, fun _ _ => id⟩
  obtain ⟨rfl, hLater⟩ := hLater
  cases hSaves with
  | nothing hOld => exact .nothing fun j hj hStored => hOld j hj (hLater j hj hStored)
  | block set hFull hBlock hOld =>
      exact .block set hFull hBlock fun j hj hNe hStored =>
        hOld j hj hNe (hLater j hj hStored)

/-- Of the other calls only the end of a write makes a block stored. -/
theorem Step.stored (hm : BuiltFor r m) (hReady : NodesHave (WriteReady r) m)
    (hOp : op.WholeSubpieces r) (hEvict : ∀ b, op ≠ .removeBlockDataFromMemCache b)
    (hSave : ∀ b, op ≠ .saveBlock b) (hStep : Step ⟨true, md5⟩ m op m')
    (hj : j < r.blockCount) (hStored : Stored m' j) :
    Stored m j ∨ op = .onWriteBlockFinish j := by
  have hSized := hm.sized
  have hLt : j < m.blocks.length := hm.length_eq ▸ hj
  unfold Step next at hStep
  cases op with
  | addSubPiece info buf =>
      obtain ⟨⟨result, added⟩, hAdd, rfl⟩ := Option.map_eq_some_iff.mp hStep
      refine Or.inl ?_
      cases addSubPiece_step hSized hAdd with
      | rejected h => exact h ▸ hStored
      | emptyBlock _ _ h => exact h.stored hLt (fun hBit => by cases hBit) hStored
      | stored node' _ _ _ hAdded h =>
          refine h.stored hLt (fun _ hAll => ?_) hStored
          have hDisk := hAll node' rfl
          rw [hAdded.onDisk] at hDisk
          cases hDisk
  | loadSubPiece info content =>
      obtain ⟨⟨result, loaded⟩, hLoad, rfl⟩ := Option.map_eq_some_iff.mp hStep
      refine Or.inl ?_
      rcases loadSubPiece_step hSized hLoad with ⟨-, h⟩ | ⟨node, node', hNode, rfl, -, h⟩
      · exact h ▸ hStored
      · refine h.stored hLt (fun hBit hAll => ⟨hBit, fun n hn => ?_⟩) hStored
        cases hNode.symm.trans hn
        have hNodeReady := hReady _ _ hNode
        refine (hNodeReady.held hBit).resolve_right fun hMem => ?_
        -- A block that is complete in memory is not changed by the load.
        obtain ⟨hCard, hDisk⟩ := hNodeReady.full_of_write (hNodeReady.write_of_mem hMem)
        have hRange := Finset.eq_of_subset_of_card_le hNodeReady.keys_subset (by simp [hCard])
        have hLoaded := hAll _ rfl
        rw [BlockNode.loadSubPieceBuffer_of_mem (hRange ▸ Finset.mem_range.mpr hOp.1.2),
          hDisk] at hLoaded
        cases hLoaded
  | setBlockReading b =>
      obtain ⟨⟨result, reading⟩, hRead, rfl⟩ := Option.map_eq_some_iff.mp hStep
      refine Or.inl ?_
      rcases setBlockReading_step hSized hRead with ⟨-, -, h⟩ | ⟨node, hNode, h⟩
      · exact h ▸ hStored
      · refine h.stored hLt (fun hBit hAll => ⟨hBit, fun n hn => ?_⟩) hStored
        have hDisk := hAll _ rfl
        rw [BlockNode.setBlockReading_onDisk] at hDisk
        rcases hNode with hNode | ⟨hNone, -⟩
        · cases hNode.symm.trans hn
          exact hDisk
        · cases hNone.symm.trans hn
  | onWriteBlockFinish b =>
      have h := onWriteBlockFinish_step hSized hStep
      by_cases hEq : j = b
      · exact Or.inr (hEq ▸ rfl)
      · exact Or.inl (h.stored_of_ne hEq hLt hStored)
  | removeBlockDataFromMemCache b => exact absurd rfl (hEvict b)
  | removeBlockInfo b =>
      refine Or.inl ((removeBlockInfo_step hSized hStep).stored hLt (fun hBit => ?_) hStored)
      cases hBit
  | onReportBlockReadFailed info =>
      refine Or.inl ((onReportBlockReadFailed_step hSized hStep).stored hLt (fun hBit => ?_) hStored)
      cases hBit
  | saveBlock b => exact absurd rfl (hSave b)
  | initRidInfo r' =>
      cases hStep
      exact Or.inl hStored

end Stored

end SubPieceManager

end Storage
