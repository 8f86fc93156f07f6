import Peer.Storage.Agreement

/-! The number of downloaded bytes. `AddSubPiece` adds to it and nothing ever
subtracts, so it is the size of what is held as long as nothing held is dropped
and nothing is added twice. -/
namespace Storage

open Basis

/-- What a call must not do to the number of bytes: add what is held already or a
buffer of the wrong size, or drop something that is held. -/
def StoreOp.KeepsBytes {μ : Type} [BlockMap μ] (r : RidInfo) (build : Build)
    (m : SubPieceManager μ) : StoreOp → Prop
  | .addSubPiece info buf =>
      m.hasFullBlock info.blockIndex = true ∨ buf.isValid = false ∨
        (buf.length = r.subpieceSize info.blockIndex info.subpieceIndex ∧
          ∀ node, m.nodeAt info.blockIndex = some node → info.subpieceIndex ∉ node.keys)
  | .removeBlockInfo b =>
      m.hasFullBlock b = false ∧ ∀ node, m.nodeAt b = some node → node.keys = ∅
  | .onReportBlockReadFailed info => m.hasFullBlock info.blockIndex = false
  | .removeBlockDataFromMemCache b =>
      build.diskMode = true ∨ ∀ node, m.nodeAt b = some node →
        (m.needVerifyBlock = true → node.needWrite = true ∧ node.isFull = true) →
          node.isBlockSavedOnDisk = true ∨ ∀ k ∈ node.keys, node.keys.card ≤ k
  | .saveBlock b => ∀ node, m.nodeAt b = some node →
      node.isBlockSavedOnDisk = true ∨ (build.diskMode = true ∧ node.isFull = true) ∨
        ∀ k ∈ node.keys, node.keys.card ≤ k
  | _ => True

namespace SubPieceManager

variable {μ : Type} [BlockMap μ] {r : RidInfo} {build : Build} {m m' : SubPieceManager μ}
  {op : StoreOp}

/-- The size of what a block holds. -/
def heldBytes (r : RidInfo) (b : Nat) (node? : Option BlockNode) (bit : Bool) : Nat :=
  if bit then r.blockBytes b
  else
    match node? with
    | some node => ∑ s ∈ node.keys, r.subpieceSize b s
    | none => 0

/-- The number of bytes is the size of all that is held. -/
def BytesCounted (r : RidInfo) (m : SubPieceManager μ) : Prop :=
  m.downloadBytes = tally r.blockCount (heldBytes r) m

section Held

variable {b : Nat} {node node' : BlockNode}

@[simp] theorem heldBytes_full (node? : Option BlockNode) :
    heldBytes r b node? true = r.blockBytes b := rfl

@[simp] theorem heldBytes_none : heldBytes r b none false = 0 := rfl

@[simp] theorem heldBytes_of_node :
    heldBytes r b (some node) false = ∑ s ∈ node.keys, r.subpieceSize b s := rfl

theorem heldBytes_congr (hKeys : node'.keys = node.keys) (bit : Bool) :
    heldBytes r b (some node') bit = heldBytes r b (some node) bit := by
  simp only [heldBytes, hKeys]

/-- A block that agrees holds at most its own size. -/
theorem heldBytes_le {node? : Option BlockNode} {bit : Bool}
    (h : BlockOk (r.capacity b) node? bit) : heldBytes r b node? bit ≤ r.blockBytes b := by
  unfold heldBytes
  split
  · exact Nat.le_refl _
  · cases node? with
    | none => exact Nat.zero_le _
    | some node =>
        refine Finset.sum_le_sum_of_subset fun s hs => ?_
        exact Finset.mem_range.mpr ((h node rfl).1.keys_lt s hs)

/-- A full node in memory holds what its bit stands for. -/
theorem heldBytes_of_full (hFits : BlockNode.Fits (r.capacity b) node)
    (hDisk : node.isBlockSavedOnDisk = false) (hFull : node.isFull = true) :
    ∑ s ∈ node.keys, r.subpieceSize b s = r.blockBytes b := by
  rw [BlockNode.isFull_iff, hDisk, hFits.total_eq] at hFull
  rw [hFits.keys_eq_range (hFull.resolve_right Bool.false_ne_true), RidInfo.blockBytes]

end Held

theorem BytesCounted.le (h : BytesCounted r m) (hAgree : BlocksAgree r m) (hr : r.Valid) :
    m.downloadBytes ≤ r.fileLength := by
  rw [h, ← RidInfo.sum_blockBytes hr]
  exact Finset.sum_le_sum fun b hb => heldBytes_le (hAgree.blocks b (Finset.mem_range.mp hb))

theorem BytesCounted.becomes (h : BytesCounted r m) (hm : BuiltFor r m) {b : Nat}
    {node? : Option BlockNode} {bit : Bool} {count bytes : Nat}
    (hStep : Becomes m b node? bit count bytes m')
    (hBytes : bytes + heldBytes r b (m.nodeAt b) (m.hasFullBlock b) =
      m.downloadBytes + heldBytes r b node? bit) : BytesCounted r m' := by
  have hTally := hStep.tally hm.length_eq (heldBytes r)
  unfold BytesCounted at h ⊢
  rw [hStep.bytes_eq]
  omega

/-- A change that leaves the size of what the block holds. -/
theorem BytesCounted.same (h : BytesCounted r m) (hm : BuiltFor r m) {b : Nat}
    {node? : Option BlockNode} {bit : Bool} {count : Nat}
    (hStep : Becomes m b node? bit count m.downloadBytes m')
    (hSame : heldBytes r b node? bit = heldBytes r b (m.nodeAt b) (m.hasFullBlock b)) :
    BytesCounted r m' :=
  h.becomes hm hStep (by rw [hSame])

section Evict

variable {b : Nat}

/-- Evicting a block keeps what it holds when its subpieces are on disk or out of
the reach of `ClearBlockMemCache`. -/
theorem EvictStep.bytesCounted (h : BytesCounted r m) (hAgree : BlocksAgree r m)
    (hKeeps : build.diskMode = true ∨ ∀ node, m.nodeAt b = some node →
      (m.needVerifyBlock = true → node.needWrite = true ∧ node.isFull = true) →
        node.isBlockSavedOnDisk = true ∨ ∀ k ∈ node.keys, node.keys.card ≤ k)
    (hStep : EvictStep build m b m') : BytesCounted r m' := by
  have hm := hAgree.builtFor
  cases hStep with
  | kept hSame => exact hSame ▸ h
  | droppedFull node _ hNode hFull hBecomes =>
      obtain ⟨-, hBit⟩ := hAgree.node (hAgree.lt hBecomes) hNode
      refine h.same hm hBecomes ?_
      rw [hBit, hFull, heldBytes_full, heldBytes_full]
  | hashed node node' _ hNode hFull _ hBecomes =>
      obtain ⟨-, hBit⟩ := hAgree.node (hAgree.lt hBecomes) hNode
      refine h.same hm hBecomes ?_
      rw [hBit, hFull, heldBytes_full, heldBytes_full]
  | cleared node taken node' play hMode hNode hVerify hTaken _ hClear hBecomes =>
      obtain ⟨-, hBit⟩ := hAgree.node (hAgree.lt hBecomes) hNode
      have hCleared := BlockNode.clearBlockMemCache_cleared hClear
      have hDisk : node'.isBlockSavedOnDisk = node.isBlockSavedOnDisk :=
        hCleared.onDisk_eq.trans hTaken.onDisk_eq
      refine h.same hm hBecomes ?_
      cases hOnDisk : node.isBlockSavedOnDisk with
      | true =>
          have hFull := BlockNode.isFull_iff.mpr (Or.inr hOnDisk)
          have hFull' := BlockNode.isFull_iff.mpr (Or.inr (hDisk.trans hOnDisk))
          rw [hBit, hFull, hFull', Bool.and_self, heldBytes_full, heldBytes_full]
      | false =>
          have hAbsent := (hKeeps.resolve_left (by simp [hMode]) node hNode hVerify).resolve_left
            (by simp [hOnDisk])
          have hKeys := hTaken.keys_of_not_onDisk hOnDisk
          have hSame : node'.keys = node.keys :=
            (BlockNode.clearBlockMemCache_keys_of_absent hClear (by rwa [hKeys])).trans hKeys
          have hFull := BlockNode.isFull_congr hSame
            (hCleared.shape.total_eq.trans hTaken.shape.total_eq) hDisk
          rw [hFull, ← hBit, Bool.and_self, hNode]
          split
          · rename_i hEmpty
            have hNone : node.keys = ∅ := hSame ▸ (BlockNode.isEmpty_iff.mp hEmpty).1
            simp only [heldBytes, hNone, Finset.sum_empty]
          · exact heldBytes_congr hSame _

/-- What a second clearing of the block in `SaveAllBlock` finds there. -/
theorem EvictStep.absent_of_partial (hStep : EvictStep build m b m')
    (hKeeps : ∀ node, m.nodeAt b = some node → node.isBlockSavedOnDisk = true ∨
      (build.diskMode = true ∧ node.isFull = true) ∨ ∀ k ∈ node.keys, node.keys.card ≤ k)
    {node : BlockNode} (hNode : m'.nodeAt b = some node) (hFull : node.isFull = false) :
    ∀ k ∈ node.keys, node.keys.card ≤ k := by
  cases hStep with
  | kept hSame =>
      subst hSame
      rcases hKeeps node hNode with hDisk | ⟨-, hIs⟩ | hAbsent
      · rw [BlockNode.not_onDisk_of_not_full hFull] at hDisk
        cases hDisk
      · rw [hFull] at hIs
        cases hIs
      · exact hAbsent
  | droppedFull _ _ _ _ hBecomes =>
      rw [hBecomes.nodeAt_self] at hNode
      cases hNode
  | hashed old taken _ _ hOldFull hTaken hBecomes =>
      rw [hBecomes.nodeAt_self] at hNode
      cases hNode
      rw [hTaken.isFull hOldFull] at hFull
      cases hFull
  | cleared old taken node' play hMode hOld _ hTaken _ hClear hBecomes =>
      have hDisk := (BlockNode.clearBlockMemCache_cleared hClear).onDisk_eq.trans hTaken.onDisk_eq
      rw [hBecomes.nodeAt_self] at hNode
      split at hNode
      · cases hNode
      · cases hNode
        have hNotDisk : old.isBlockSavedOnDisk = false :=
          hDisk.symm.trans (BlockNode.not_onDisk_of_not_full hFull)
        have hAbsent : ∀ k ∈ old.keys, old.keys.card ≤ k := by
          rcases hKeeps old hOld with hOnDisk | ⟨hDiskMode, -⟩ | hAbsent
          · rw [hNotDisk] at hOnDisk
            cases hOnDisk
          · rw [hMode] at hDiskMode
            cases hDiskMode
          · exact hAbsent
        have hKeys := hTaken.keys_of_not_onDisk hNotDisk
        have hSame : node.keys = old.keys :=
          (BlockNode.clearBlockMemCache_keys_of_absent hClear (by rwa [hKeys])).trans hKeys
        rwa [hSame]

end Evict

/-- Adding a subpiece that is missing adds its size. -/
theorem BytesCounted.added (h : BytesCounted r m) (hAgree : BlocksAgree r m) (hr : r.Addressable)
    {info : SubPieceInfo} {buf : SubPieceBuffer} {node' : BlockNode} {count : Nat}
    (hFull : (m.nodeOrNew info.blockIndex).isFull = false)
    (hBit : m.hasFullBlock info.blockIndex = false)
    (hAdded : BlockNode.Added (m.nodeOrNew info.blockIndex) node' info.subpieceIndex)
    (hInside : r.Inside info)
    (hLength : buf.length = r.subpieceSize info.blockIndex info.subpieceIndex)
    (hNew : ∀ node, m.nodeAt info.blockIndex = some node → info.subpieceIndex ∉ node.keys)
    (hBecomes : Becomes m info.blockIndex (some node') node'.isFull count
      (u32 (m.downloadBytes + buf.length)) m') : BytesCounted r m' := by
  have hFits := (hAgree.nodeOrNew_fits hr hInside.1).added hAdded hInside.2
    (BlockNode.not_onDisk_of_not_full hFull)
  have hMissing : info.subpieceIndex ∉ (m.nodeOrNew info.blockIndex).keys := by
    unfold nodeOrNew
    cases hNode : m.nodeAt info.blockIndex with
    | some node => exact hNew node hNode
    | none => exact Finset.notMem_empty _
  have hBefore : heldBytes r info.blockIndex (m.nodeAt info.blockIndex) false =
      ∑ s ∈ (m.nodeOrNew info.blockIndex).keys, r.subpieceSize info.blockIndex s := by
    unfold nodeOrNew
    cases m.nodeAt info.blockIndex with
    | some node => rfl
    | none => rfl
  have hAfter : heldBytes r info.blockIndex (some node') node'.isFull =
      buf.length + heldBytes r info.blockIndex (m.nodeAt info.blockIndex) false := by
    have hSum : ∑ s ∈ node'.keys, r.subpieceSize info.blockIndex s =
        buf.length + heldBytes r info.blockIndex (m.nodeAt info.blockIndex) false := by
      rw [hAdded.keys_eq, Finset.sum_insert hMissing, hBefore, hLength]
    rw [← hSum]
    cases hFull' : node'.isFull with
    | true => exact (heldBytes_of_full hFits hAdded.onDisk hFull').symm
    | false => rfl
  -- The sum does not wrap, because the store then still holds at most the file.
  have hFitsIn : m.downloadBytes + buf.length ≤ r.fileLength := by
    have hTally := hBecomes.tally hAgree.builtFor.length_eq (heldBytes r)
    have hAgree' := hAgree.becomes hBecomes (BlockOk.some hFits rfl)
    have hLe : tally r.blockCount (heldBytes r) m' ≤ r.fileLength := by
      rw [← RidInfo.sum_blockBytes hr.toValid]
      exact Finset.sum_le_sum fun b hb =>
        heldBytes_le (hAgree'.blocks b (Finset.mem_range.mp hb))
    unfold BytesCounted at h
    rw [hBit, hAfter] at hTally
    omega
  refine h.becomes hAgree.builtFor hBecomes ?_
  rw [u32_of_lt (hFitsIn.trans_lt r.fileLength_lt), hBit, hAfter]
  omega

theorem BytesCounted.step (h : BytesCounted r m) (hAgree : BlocksAgree r m) (hr : r.Addressable)
    (hBlocks : op.KeepsBlocks r m) (hCount : op.KeepsCount build m)
    (hBytes : op.KeepsBytes r build m) (hStep : Step build m op m') : BytesCounted r m' := by
  have hm := hAgree.builtFor
  have hSized := hm.sized
  unfold Step next at hStep
  cases op with
  | addSubPiece info buf =>
      obtain ⟨⟨result, added⟩, hAdd, rfl⟩ := Option.map_eq_some_iff.mp hStep
      rcases hAgree.add_cases hr (addSubPiece_step hSized hAdd) with
        hSame | ⟨node', hb, hFull, hBit, hAdded, hBecomes⟩
      · exact hSame ▸ h
      · rcases hBytes with hHeld | hInvalid | ⟨hLength, hNew⟩
        · rw [hBit] at hHeld
          cases hHeld
        · exact addSubPiece_of_invalid hAdd hInvalid ▸ h
        · rcases hBlocks with hInside | hHeld | hInvalid
          · exact h.added hAgree hr hFull hBit hAdded hInside hLength hNew hBecomes
          · rw [hBit] at hHeld
            cases hHeld
          · exact addSubPiece_of_invalid hAdd hInvalid ▸ h
  | loadSubPiece info content =>
      obtain ⟨⟨result, loaded⟩, hLoad, rfl⟩ := Option.map_eq_some_iff.mp hStep
      rcases loadSubPiece_step hSized hLoad with ⟨-, hSame⟩ | ⟨node, node', hNode, -, hLoaded, hBecomes⟩
      · exact hSame ▸ h
      · refine h.same hm hBecomes ?_
        rcases hBlocks node hNode with hIn | ⟨hDisk, -⟩
        · rw [hNode]
          exact heldBytes_congr (by rw [hLoaded.keys_eq, Finset.insert_eq_of_mem hIn]) _
        · obtain ⟨-, hBit⟩ := hAgree.node (hAgree.lt hBecomes) hNode
          rw [hBit, BlockNode.isFull_iff.mpr (Or.inr hDisk), heldBytes_full, heldBytes_full]
  | setBlockReading b =>
      obtain ⟨⟨result, reading⟩, hRead, rfl⟩ := Option.map_eq_some_iff.mp hStep
      rcases setBlockReading_step hSized hRead with ⟨-, -, hSame⟩ | ⟨node, hNode, hBecomes⟩
      · exact hSame ▸ h
      · refine h.same hm hBecomes ?_
        rcases hNode with hNode | ⟨-, hBit, -⟩
        · rw [hNode]
          exact heldBytes_congr (BlockNode.setBlockReading_keys node) _
        · rw [hBit, heldBytes_full, heldBytes_full]
  | onWriteBlockFinish b =>
      refine h.same hm (onWriteBlockFinish_step hSized hStep) ?_
      rcases hCount with hNode | hBit
      · rw [hNode]
      · rw [hBit, heldBytes_full, heldBytes_full]
  | removeBlockDataFromMemCache b =>
      obtain ⟨⟨result, jobs⟩, hEvict, rfl⟩ := Option.map_eq_some_iff.mp hStep
      exact EvictStep.bytesCounted h hAgree hBytes (removeBlockDataFromMemCache_step hSized hEvict)
  | removeBlockInfo b =>
      refine h.same hm (removeBlockInfo_step hSized hStep) ?_
      rw [heldBytes_none, hBytes.1]
      cases hNode : m.nodeAt b with
      | none => rfl
      | some node => rw [heldBytes_of_node, hBytes.2 node hNode, Finset.sum_empty]
  | onReportBlockReadFailed info =>
      refine h.same hm (onReportBlockReadFailed_step hSized hStep) ?_
      rw [hBytes]
      cases hNode : m.nodeAt info.blockIndex with
      | none => rfl
      | some node => exact heldBytes_congr (BlockNode.resetForReDownload_keys node) _
  | saveBlock b =>
      obtain ⟨⟨result, jobs⟩, hSave, rfl⟩ := Option.map_eq_some_iff.mp hStep
      obtain ⟨evicted, hEvict, hRest⟩ := saveBlock_step hSized hSave
      have hEvicted := EvictStep.bytesCounted h hAgree (by
        by_cases hMode : build.diskMode = true
        · exact Or.inl hMode
        · refine Or.inr fun node hNode _ => (hBytes node hNode).imp_right fun hRest => ?_
          exact hRest.resolve_left fun hDisk => hMode hDisk.1) hEvict
      rcases hRest with hSame | ⟨node, node', play, hNode, hFull, hClear, hBecomes⟩
      · exact hSame ▸ hEvicted
      · refine hEvicted.same (hEvict.builtFor hm) hBecomes ?_
        rw [hNode]
        exact heldBytes_congr (BlockNode.clearBlockMemCache_keys_of_absent hClear
          (hEvict.absent_of_partial hBytes hNode hFull)) _
  | initRidInfo r' =>
      cases hStep
      exact h

section Start

/-- The stores whose number of bytes starts right. `Parse` computes the size of a
missing last block from the file length modulo 1024. -/
inductive StartsCounted (r : RidInfo) (m : SubPieceManager μ) : Prop where
  | fresh (full verify : Bool) (h : new r full verify = some m)
  | parsed (buf : Bytes) (verify : Bool) (hNull : OnlyNullBlocks r buf)
      (hLast : r.fileLength % bytesNumPerSubpiece = 0 →
        ∀ records, Records buf r.blockCount 0 records →
          ∀ record ∈ records, record.1 ≠ r.blockCount - 1)
      (h : parse buf r verify = .ok (some m))

theorem StartsCounted.starts (h : StartsCounted r m) : Starts r m := by
  cases h with
  | fresh full verify h => exact .fresh full verify h
  | parsed buf verify hNull _ h => exact .parsed buf verify hNull h

theorem bytesCounted_new (hr : r.Valid) {full verify : Bool} (h : new r full verify = some m) :
    BytesCounted r m := by
  obtain ⟨-, -, hNone, hBits, -, hBytes⟩ := new_eq_some h
  have hEach : ∀ b ∈ Finset.range r.blockCount,
      heldBytes r b (m.nodeAt b) (m.hasFullBlock b) = if full then r.blockBytes b else 0 := by
    intro b hb
    rw [hNone, hBits b (Finset.mem_range.mp hb)]
    cases full <;> rfl
  rw [BytesCounted, tally, Finset.sum_congr rfl hEach, hBytes]
  cases full with
  | true => exact (RidInfo.sum_blockBytes hr).symm
  | false => simp

/-- The subpieces a block without a node is missing. -/
def missing (r : RidInfo) (b : Nat) (_ : Option BlockNode) (bit : Bool) : Nat :=
  if bit then 0 else r.capacity b

/-- By how much the size of a block is below that of its subpieces. -/
def shortfall (r : RidInfo) (b : Nat) : Nat :=
  if b = r.blockCount - 1 then bytesNumPerSubpiece - r.subpieceSize b r.lastSubpiece else 0

theorem blockBytes_add_shortfall (hr : r.Valid) (b : Nat) :
    r.blockBytes b + shortfall r b = bytesNumPerSubpiece * r.capacity b := by
  unfold shortfall
  by_cases hb : b = r.blockCount - 1
  · subst hb
    have hSplit := Nat.div_add_mod ((r.fileLength - 1) % r.blockSize) bytesNumPerSubpiece
    rw [Nat.mod_mod_of_dvd _ hr.subpiece_dvd] at hSplit
    have hMod := Nat.mod_lt (r.fileLength - 1) (y := bytesNumPerSubpiece) (by decide)
    rw [RidInfo.blockBytes_last hr, if_pos rfl, RidInfo.capacity, if_pos rfl, RidInfo.subpieceSize,
      if_pos ⟨rfl, rfl⟩, RidInfo.lastSubpiece, Nat.mul_add]
    omega
  · rw [RidInfo.blockBytes_of_ne hr hb, if_neg hb, RidInfo.capacity, if_neg hb, Nat.add_zero]
    exact hr.blockSize_eq.symm

theorem capacity_le_blockBytes (b : Nat) : r.capacity b ≤ r.blockBytes b := by
  have hSum : ∑ _s ∈ Finset.range (r.capacity b), 1 ≤ r.blockBytes b :=
    Finset.sum_le_sum fun s _ => RidInfo.subpieceSize_pos b s
  simpa using hSum

theorem tally_missing_lt (hr : r.Valid) (m : SubPieceManager μ) :
    tally r.blockCount (missing r) m < 2 ^ 32 := by
  refine lt_of_le_of_lt ?_ r.fileLength_lt
  rw [← RidInfo.sum_blockBytes hr]
  refine Finset.sum_le_sum fun j _ => ?_
  unfold missing
  split
  · exact Nat.zero_le _
  · exact capacity_le_blockBytes j

/-- `curr_null_subpiece_count` is the number of subpieces that the blocks without
their bit have, when every node that was read counts all of its own. -/
theorem nulls_applyRecord {nulls : Nat} (h : nulls = tally r.blockCount (missing r) m)
    (hm : BuiltFor r m) (hr : r.Addressable) {b : Nat} (hb : b < r.blockCount)
    (hBit : m.hasFullBlock b = true) {node? : Option BlockNode}
    (hNode : ∀ node, node? = some node → node.getCurrNullSubPieceCount = r.capacity b) :
    (m.applyRecord nulls b node?).2 =
      tally r.blockCount (missing r) (m.applyRecord nulls b node?).1 := by
  have hBecomes := applyRecord_becomes nulls hm.sized (hm.length_eq ▸ hb) node?
  have hTally := hBecomes.tally hm.length_eq (missing r)
  have hSmall := tally_missing_lt hr.toValid (m.applyRecord nulls b node?).1
  have hNulls : (m.applyRecord nulls b node?).2 = u32 (nulls + r.capacity b) := by
    cases node? with
    | some node =>
        rw [← hNode node rfl]
        rfl
    | none =>
        have hCount : ((m.setBit b false).setNode b none).getBlockSubPieceCount b = r.capacity b :=
          hm.getBlockSubPieceCount_eq hr hb
        rw [← hCount]
        rfl
  rw [hBit] at hTally
  simp only [missing, if_true, Bool.false_eq_true, if_false, Nat.add_zero] at hTally
  rw [hNulls, u32_of_lt (by omega)]
  omega

/-- `curr_null_subpiece_count` while only empty blocks have been read. -/
structure NullsCounted (r : RidInfo) (m : SubPieceManager μ) (nulls : Nat) : Prop where
  noNode : ∀ b, m.nodeAt b = none
  nulls_eq : nulls = tally r.blockCount (missing r) m

theorem NullsCounted.applyRecord (h : NullsCounted r m nulls) (hm : BuiltFor r m)
    (hr : r.Addressable) {b : Nat} (hb : b < r.blockCount) (hBit : m.hasFullBlock b = true) :
    NullsCounted r (m.applyRecord nulls b none).1 (m.applyRecord nulls b none).2 := by
  have hBecomes := applyRecord_becomes nulls hm.sized (hm.length_eq ▸ hb) none
  constructor
  · intro j
    by_cases hj : j = b
    · rw [hj, hBecomes.nodeAt_self]
    · rw [hBecomes.nodeAt_of_ne j hj, h.noNode j]
  · exact nulls_applyRecord h.nulls_eq hm hr hb hBit fun node hNode => by cases hNode

/-- What is held, and what is missing, make up the file. -/
theorem held_add_missing (hr : r.Valid) (hCount : 0 < r.blockCount)
    (hNone : ∀ b, m.nodeAt b = none) :
    tally r.blockCount (heldBytes r) m + bytesNumPerSubpiece * tally r.blockCount (missing r) m =
      r.fileLength + if m.hasFullBlock (r.blockCount - 1) then 0
        else shortfall r (r.blockCount - 1) := by
  have hEach : ∀ b ∈ Finset.range r.blockCount,
      heldBytes r b (m.nodeAt b) (m.hasFullBlock b) +
          bytesNumPerSubpiece * missing r b (m.nodeAt b) (m.hasFullBlock b) =
        r.blockBytes b + if b = r.blockCount - 1 then
          (if m.hasFullBlock (r.blockCount - 1) then 0 else shortfall r (r.blockCount - 1)) else 0 := by
    intro b _
    have hBlock := blockBytes_add_shortfall hr b
    rw [hNone]
    by_cases hb : b = r.blockCount - 1
    · subst hb
      rw [if_pos rfl]
      cases m.hasFullBlock (r.blockCount - 1) with
      | true => simp [missing]
      | false => simpa [missing] using hBlock.symm
    · rw [shortfall, if_neg hb] at hBlock
      rw [if_neg hb]
      cases m.hasFullBlock b with
      | true => simp [missing]
      | false => simpa [missing] using hBlock.symm
  unfold tally
  rw [Finset.mul_sum, ← Finset.sum_add_distrib, Finset.sum_congr rfl hEach,
    Finset.sum_add_distrib, RidInfo.sum_blockBytes hr, Finset.sum_ite_eq' (Finset.range r.blockCount),
    if_pos (Finset.mem_range.mpr (by omega))]

/-- The number of bytes `Parse` computes is right, unless it takes a missing last
subpiece of 1024 bytes for one of none. -/
theorem NullsCounted.parsedBytes {nulls : Nat} (h : NullsCounted r m nulls) (hm : BuiltFor r m)
    (hr : r.Addressable) (hCount : 0 < r.blockCount)
    (hLast : m.hasFullBlock (r.blockCount - 1) = false →
      r.fileLength % bytesNumPerSubpiece ≠ 0) :
    m.parsedBytes nulls = tally r.blockCount (heldBytes r) m := by
  have hLength := hr.fileLength_pos hCount
  have hSize := r.fileLength_lt
  have hTotal := held_add_missing hr.toValid hCount h.noNode
  obtain ⟨hBlock, -⟩ := lastInfoOf_eq hr hLength
  have hLastHeld : m.hasSubPiece m.lastSubpieceInfo = m.hasFullBlock (r.blockCount - 1) := by
    rw [hasSubPiece, hm.lastInfo_eq, hBlock, h.noNode]
    simp
  rw [← h.nulls_eq] at hTotal
  rw [SubPieceManager.parsedBytes, hLastHeld, hm.fileLength_eq]
  cases hBit : m.hasFullBlock (r.blockCount - 1) with
  | true =>
      rw [hBit, if_pos rfl, Nat.mul_comm] at hTotal
      rw [if_pos rfl, u32_of_lt (by omega), subU32_of_le hSize (by omega)]
      omega
  | false =>
      have hMod := hLast hBit
      have hPos : 1 ≤ nulls := by
        have hLe := le_sum_range (n := r.blockCount) (i := r.blockCount - 1)
          (f := fun b => missing r b (m.nodeAt b) (m.hasFullBlock b)) (by omega)
        have hCap := RidInfo.capacity_pos hr.toValid (r.blockCount - 1)
        have hEq := h.nulls_eq
        simp only [missing, hBit, Bool.false_eq_true, if_false] at hLe
        unfold tally missing at hEq
        omega
      rw [hBit, if_neg Bool.false_ne_true, shortfall, if_pos rfl, RidInfo.subpieceSize,
        if_pos ⟨rfl, rfl⟩] at hTotal
      rw [if_neg Bool.false_ne_true]
      simp only [bytesNumPerSubpiece] at hTotal hMod ⊢
      have hWhole : u32 ((nulls - 1) * 1024) = (nulls - 1) * 1024 := u32_of_lt (by omega)
      rw [subU32_of_le (h.nulls_eq ▸ tally_missing_lt hr.toValid m) hPos, hWhole,
        u32_of_lt (by omega), subU32_of_le hSize (by omega)]
      omega

theorem StartsCounted.bytesCounted (hr : r.Addressable) (h : StartsCounted r m) :
    BytesCounted r m := by
  cases h with
  | fresh full verify hNew => exact bytesCounted_new hr.toValid hNew
  | parsed buf verify hNull hLast hParse =>
      obtain ⟨fresh, records, hNew, hRecords, hIndex, hState⟩ := parse_eq_some hParse
      obtain ⟨-, hm, hNone, hBits, -⟩ := new_eq_some hNew
      obtain ⟨hEmpty, hNodup⟩ := hNull records hRecords
      have hStart : NullsCounted r fresh 0 := by
        refine ⟨hNone, (Finset.sum_eq_zero fun b hb => ?_).symm⟩
        rw [missing, hBits b (Finset.mem_range.mp hb), if_pos rfl]
      have hNulls := applyRecords_once_induction (P := NullsCounted r) 0 hRecords.index_lt hNodup
        (fun s nulls record hMem hs hBit hNulls => by
          rw [hEmpty record hMem]
          exact hNulls.applyRecord hs hr (hRecords.index_lt record hMem) hBit) hm
        (fun record hMem => hBits _ (hRecords.index_lt record hMem)) hStart
      have hm' := applyRecords_builtFor 0 hm hRecords.index_lt
      have hCount : 0 < r.blockCount := by
        rw [hState] at hIndex
        exact Nat.pos_of_ne_zero fun hZero => by
          have hLength := hm'.length_eq
          rw [hZero] at hLength
          exact absurd (hLength ▸ hIndex) (Nat.not_lt_zero _)
      have hBytes := hNulls.parsedBytes hm' hr hCount fun hBit hZero => by
        have hUnlisted : r.blockCount - 1 ∉ records.map Prod.fst := by
          rw [List.mem_map]
          rintro ⟨record, hMem, hFst⟩
          exact hLast hZero records hRecords record hMem hFst
        rw [applyRecords_hasFullBlock 0 hm.sized
          (by rw [hm.length_eq]; exact hRecords.index_lt)
          (by rw [hm.length_eq]; omega), hBits _ (by omega),
          decide_eq_true hUnlisted] at hBit
        cases hBit
      rw [hState]
      exact hBytes

end Start

/-- The two counters are exact: the bytes are those of the subpieces that the store
answers to have, and the blocks those with a node or their bit. -/
structure Accounted (r : RidInfo) (m : SubPieceManager μ) : Prop where
  bytes_eq : m.downloadBytes = ∑ b ∈ Finset.range r.blockCount, ∑ s ∈ Finset.range (r.capacity b),
    if m.hasSubPiece (.make b s) then (m.getSubPiecePosition (.make b s)).2 else 0
  bytes_le : m.downloadBytes ≤ r.fileLength
  count_eq : m.blocksCount = ((Finset.range r.blockCount).filter fun b =>
    (m.nodeAt b).isSome = true ∨ m.hasFullBlock b = true).card

/-- The size of what a block holds, subpiece by subpiece. -/
theorem heldBytes_eq (hAgree : BlocksAgree r m) (hr : r.Addressable) {b : Nat}
    (hb : b < r.blockCount) : heldBytes r b (m.nodeAt b) (m.hasFullBlock b) =
      ∑ s ∈ Finset.range (r.capacity b),
        if m.hasSubPiece (.make b s) then (m.getSubPiecePosition (.make b s)).2 else 0 := by
  have hCount := hr.blockCount_le
  have hCap := (RidInfo.capacity_le hr.toValid b).trans_lt hr.blockSize_le
  have hBlock : u16 b = b := u16_of_lt (by omega)
  have hEach : ∀ s ∈ Finset.range (r.capacity b),
      (if m.hasSubPiece (.make b s) then (m.getSubPiecePosition (.make b s)).2 else 0) =
        if m.hasSubPiece (.make b s) then r.subpieceSize b s else 0 := by
    intro s hs
    have hSub : u16 s = s := u16_of_lt (by have := Finset.mem_range.mp hs; omega)
    rw [hAgree.builtFor.position_length hr (by rw [SubPieceInfo.make_blockIndex, hBlock]; exact hb),
      SubPieceInfo.make_blockIndex, SubPieceInfo.make_subpieceIndex, hBlock, hSub]
  rw [Finset.sum_congr rfl hEach]
  cases hBit : m.hasFullBlock b with
  | true => simp [hasSubPiece, hBlock, hBit, RidInfo.blockBytes]
  | false =>
      cases hNode : m.nodeAt b with
      | none => simp [hasSubPiece, hBlock, hBit, hNode]
      | some node =>
          obtain ⟨hFits, hSame⟩ := hAgree.node hb hNode
          rw [hBit] at hSame
          have hDisk := BlockNode.not_onDisk_of_not_full hSame.symm
          have hHas : ∀ s ∈ Finset.range (r.capacity b),
              (if m.hasSubPiece (.make b s) then r.subpieceSize b s else 0) =
                if s ∈ node.keys then r.subpieceSize b s else 0 := by
            intro s hs
            have hSub : u16 s = s := u16_of_lt (by have := Finset.mem_range.mp hs; omega)
            have hIff : m.hasSubPiece (.make b s) = true ↔ s ∈ node.keys := by
              simp [hasSubPiece, hBlock, hSub, hBit, hNode, BlockNode.hasSubPiece_iff, hDisk]
            exact if_congr hIff rfl rfl
          rw [Finset.sum_congr rfl hHas, Finset.sum_ite_mem, heldBytes_of_node,
            Finset.inter_eq_right.mpr hFits.keys_subset]

/-- In every run that drops nothing held and adds nothing twice, both counters are
exact in every state. -/
theorem accounted_of_run (hr : r.Addressable) {start : SubPieceManager μ}
    (hStart : StartsCounted r start)
    (run : Reaches (Step build) (fun m op => op.KeepsBlocks r m ∧ op.KeepsCount build m ∧
      op.KeepsBytes r build m) start m) : Accounted r m := by
  obtain ⟨⟨hAgree, hCounted⟩, hBytes⟩ : (BlocksAgree r m ∧ Counted r m) ∧ BytesCounted r m := by
    refine run.invariant (P := fun m => (BlocksAgree r m ∧ Counted r m) ∧ BytesCounted r m)
      ⟨hStart.starts.counted hr, hStart.bytesCounted hr⟩ ?_
    rintro x a y ⟨⟨hAgree, hCounted⟩, hBytes⟩ ⟨hBlocks, hCount, hKeeps⟩ hStep
    exact ⟨⟨hAgree.step hr hBlocks hStep, hCounted.step hAgree hr hCount hStep⟩,
      hBytes.step hAgree hr hBlocks hCount hKeeps hStep⟩
  refine ⟨?_, hBytes.le hAgree hr.toValid, ?_⟩
  · exact hBytes.trans (Finset.sum_congr rfl fun b hb =>
      heldBytes_eq hAgree hr (Finset.mem_range.mp hb))
  · rw [hCounted, Finset.card_filter]
    rfl

section Runs

/-- A block is downloaded, written to the disk, forgotten and read again. -/
theorem accounted_of_disk_run : ∃ m : SubPieceManager (List Bool),
    m.downloadBytes = 1024 ∧ Accounted (singleBlock 1024 (by decide)) m := by
  obtain ⟨start, m, hRun, hNew, run⟩ := runFresh_reaches ⟨true, fun _ => Guid.zero⟩
    (singleBlock 1024 (by decide))
    [.addSubPiece (.make 0 0) ⟨List.replicate 1024 0, true⟩,
      .removeBlockDataFromMemCache 0, .setBlockReading 0]
    (fun m op => op.KeepsBlocks (singleBlock 1024 (by decide)) m ∧
      op.KeepsCount ⟨true, fun _ => Guid.zero⟩ m ∧
      op.KeepsBytes (singleBlock 1024 (by decide)) ⟨true, fun _ => Guid.zero⟩ m)
    (by decide +kernel) (by
      intro start hNew
      obtain ⟨-, -, hNone, -⟩ := new_eq_some hNew
      refine ⟨⟨Or.inl (by decide +kernel), trivial, Or.inr (Or.inr ⟨by decide +kernel, ?_⟩)⟩,
        fun _ _ => ⟨⟨trivial, Or.inl rfl, Or.inl rfl⟩,
          fun _ _ => ⟨⟨trivial, trivial, trivial⟩, fun _ _ => trivial⟩⟩⟩
      intro node hNode
      rw [hNone] at hNode
      cases hNode)
  have hState : ((runFresh ⟨true, fun _ => Guid.zero⟩ (singleBlock 1024 (by decide))
      [.addSubPiece (.make 0 0) ⟨List.replicate 1024 0, true⟩,
        .removeBlockDataFromMemCache 0, .setBlockReading 0]).map fun m => m.downloadBytes) =
      some 1024 := by decide +kernel
  rw [hRun, Option.map_some, Option.some.injEq] at hState
  exact ⟨m, hState, accounted_of_run ⟨⟨by decide, ⟨2048, by decide⟩, by decide⟩, by decide,
    by decide⟩ (.fresh false false hNew) run⟩

/-- A block of one subpiece is downloaded, removed after a bad hash and downloaded
again: the store then counts 2048 bytes of a file of 1024. -/
theorem accounted_of_redownload_fails :
    ¬ ∀ (build : Build) (r : RidInfo) (start m : SubPieceManager (List Bool)), r.Addressable →
      StartsCounted r start → Reaches (Step build) (fun m op => op.KeepsBlocks r m) start m →
      Accounted r m := by
  intro h
  obtain ⟨start, m, hRun, hNew, run⟩ := runFresh_reaches ⟨true, fun _ => Guid.zero⟩
    (singleBlock 1024 (by decide))
    [.addSubPiece (.make 0 0) ⟨List.replicate 1024 0, true⟩, .removeBlockInfo 0,
      .addSubPiece (.make 0 0) ⟨List.replicate 1024 0, true⟩]
    (fun m op => op.KeepsBlocks (singleBlock 1024 (by decide)) m) (by decide +kernel)
    fun _ _ => ⟨Or.inl (by decide +kernel), fun _ _ => ⟨trivial,
      fun _ _ => ⟨Or.inl (by decide +kernel), fun _ _ => trivial⟩⟩⟩
  have hLe := (h _ _ start m ⟨⟨by decide, ⟨2048, by decide⟩, by decide⟩, by decide, by decide⟩
    (.fresh false false hNew) run).bytes_le
  have hState : ((runFresh ⟨true, fun _ => Guid.zero⟩ (singleBlock 1024 (by decide))
      [.addSubPiece (.make 0 0) ⟨List.replicate 1024 0, true⟩, .removeBlockInfo 0,
        .addSubPiece (.make 0 0) ⟨List.replicate 1024 0, true⟩]).map fun m => m.downloadBytes) =
      some 2048 := by decide +kernel
  rw [hRun, Option.map_some, Option.some.injEq] at hState
  rw [hState, show (singleBlock 1024 (by decide)).fileLength = 1024 from rfl] at hLe
  omega

end Runs

end SubPieceManager

end Storage
