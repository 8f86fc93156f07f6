import Peer.Basis.Run
import Peer.Storage.BlockNodeLaws
import Peer.Storage.SubPieceManager

/-! One operation of the store changes one block. `Becomes` says what the block
is afterwards and that everything else stays; every invariant of the store is
derived from it. -/
namespace Storage

open Basis

namespace SubPieceManager

section Nodes

variable {μ : Type} {m : SubPieceManager μ} {b j : Nat}

@[simp] theorem setNode_length (node : Option BlockNode) :
    (m.setNode b node).blocks.length = m.blocks.length := by
  simp [setNode]

theorem setNode_nodeAt_self (h : b < m.blocks.length) (node : Option BlockNode) :
    (m.setNode b node).nodeAt b = node := by
  simp [nodeAt, setNode, List.getD_eq_getElem?_getD, h]

theorem setNode_nodeAt_of_ne (h : j ≠ b) (node : Option BlockNode) :
    (m.setNode b node).nodeAt j = m.nodeAt j := by
  simp [nodeAt, setNode, List.getD_eq_getElem?_getD, List.getElem?_set_ne (Ne.symm h)]

theorem nodeAt_eq_none_of_le (h : m.blocks.length ≤ b) : m.nodeAt b = none := by
  simp [nodeAt, List.getD_eq_getElem?_getD, List.getElem?_eq_none h]

theorem lt_of_nodeAt {j : Nat} {node : BlockNode} (h : m.nodeAt j = some node) :
    j < m.blocks.length := by
  by_contra hGe
  rw [nodeAt_eq_none_of_le (by omega)] at h
  cases h

end Nodes

variable {μ : Type} [BlockMap μ] {m m' m'' : SubPieceManager μ} {b j : Nat}

/-- The bitmap has one bit for each entry of the vector of nodes. -/
def Sized (m : SubPieceManager μ) : Prop := BlockMap.size m.blockBitMap = m.blocks.length

@[simp] theorem setNode_hasFullBlock (node : Option BlockNode) :
    (m.setNode b node).hasFullBlock j = m.hasFullBlock j := rfl

@[simp] theorem setBit_nodeAt (held : Bool) : (m.setBit b held).nodeAt j = m.nodeAt j := rfl

@[simp] theorem setBit_blocks (held : Bool) : (m.setBit b held).blocks = m.blocks := rfl

@[simp] theorem setBit_size (held : Bool) :
    BlockMap.size (m.setBit b held).blockBitMap = BlockMap.size m.blockBitMap := by
  cases held <;> simp [setBit]

theorem setBit_hasFullBlock_self (h : b < BlockMap.size m.blockBitMap) (held : Bool) :
    (m.setBit b held).hasFullBlock b = held := by
  cases held <;> simp [setBit, hasFullBlock, BlockMap.hasBlock_set_self,
    BlockMap.hasBlock_reset_self, h]

theorem setBit_hasFullBlock_of_ne (hb : b < BlockMap.size m.blockBitMap)
    (hj : j < BlockMap.size m.blockBitMap) (h : j ≠ b) (held : Bool) :
    (m.setBit b held).hasFullBlock j = m.hasFullBlock j := by
  cases held
  · exact BlockMap.hasBlock_reset_of_ne hb hj h
  · exact BlockMap.hasBlock_set_of_ne hb hj h

/-- `m'` is `m` after block `b` got the node `node?` and the bit `bit`, and the
two counters the values `count` and `bytes`. -/
structure Becomes (m : SubPieceManager μ) (b : Nat) (node? : Option BlockNode) (bit : Bool)
    (count bytes : Nat) (m' : SubPieceManager μ) : Prop where
  block_lt : b < m.blocks.length
  nodeAt_self : m'.nodeAt b = node?
  nodeAt_of_ne : ∀ j, j ≠ b → m'.nodeAt j = m.nodeAt j
  bit_self : m'.hasFullBlock b = bit
  bit_of_ne : ∀ j, j ≠ b → j < m.blocks.length → m'.hasFullBlock j = m.hasFullBlock j
  count_eq : m'.blocksCount = count
  bytes_eq : m'.downloadBytes = bytes
  length_eq : m'.blocks.length = m.blocks.length
  sized : Sized m'
  ridInfo_eq : m'.ridInfo = m.ridInfo
  capacity_eq : m'.lastBlockCapacity = m.lastBlockCapacity
  lastInfo_eq : m'.lastSubpieceInfo = m.lastSubpieceInfo
  lastSize_eq : m'.lastSubpieceSize = m.lastSubpieceSize
  verify_eq : m'.needVerifyBlock = m.needVerifyBlock

section Becomes

variable {node? node2? : Option BlockNode} {bit bit2 : Bool} {count bytes count2 bytes2 : Nat}

theorem Becomes.same (hSized : Sized m) (h : b < m.blocks.length) :
    Becomes m b (m.nodeAt b) (m.hasFullBlock b) m.blocksCount m.downloadBytes m where
  block_lt := h
  nodeAt_self := rfl
  nodeAt_of_ne _ _ := rfl
  bit_self := rfl
  bit_of_ne _ _ _ := rfl
  count_eq := rfl
  bytes_eq := rfl
  length_eq := rfl
  sized := hSized
  ridInfo_eq := rfl
  capacity_eq := rfl
  lastInfo_eq := rfl
  lastSize_eq := rfl
  verify_eq := rfl

theorem Becomes.setNode (h : Becomes m b node? bit count bytes m') (node : Option BlockNode) :
    Becomes m b node bit count bytes (m'.setNode b node) :=
  { h with
    nodeAt_self := setNode_nodeAt_self (h.length_eq ▸ h.block_lt) node
    nodeAt_of_ne := fun j hj => (setNode_nodeAt_of_ne hj node).trans (h.nodeAt_of_ne j hj)
    length_eq := (setNode_length node).trans h.length_eq
    sized := h.sized.trans (setNode_length node).symm }

theorem Becomes.setBit (h : Becomes m b node? bit count bytes m') (held : Bool) :
    Becomes m b node? held count bytes (m'.setBit b held) :=
  have hb : b < BlockMap.size m'.blockBitMap := by
    rw [h.sized, h.length_eq]
    exact h.block_lt
  { h with
    bit_self := setBit_hasFullBlock_self hb held
    bit_of_ne := fun j hj hlt => by
      refine (setBit_hasFullBlock_of_ne hb ?_ hj held).trans (h.bit_of_ne j hj hlt)
      rw [h.sized, h.length_eq]
      exact hlt
    sized := (setBit_size held).trans h.sized }

theorem Becomes.setCount (h : Becomes m b node? bit count bytes m') (n : Nat) :
    Becomes m b node? bit n bytes { m' with blocksCount := n } :=
  { h with count_eq := rfl }

theorem Becomes.setBytes (h : Becomes m b node? bit count bytes m') (n : Nat) :
    Becomes m b node? bit count n { m' with downloadBytes := n } :=
  { h with bytes_eq := rfl }

theorem Becomes.setHashFailed (h : Becomes m b node? bit count bytes m') (n : Nat) :
    Becomes m b node? bit count bytes { m' with md5HashFailed := n } :=
  { h with }

theorem Becomes.trans (h : Becomes m b node? bit count bytes m')
    (h2 : Becomes m' b node2? bit2 count2 bytes2 m'') :
    Becomes m b node2? bit2 count2 bytes2 m'' where
  block_lt := h.block_lt
  nodeAt_self := h2.nodeAt_self
  nodeAt_of_ne j hj := (h2.nodeAt_of_ne j hj).trans (h.nodeAt_of_ne j hj)
  bit_self := h2.bit_self
  bit_of_ne j hj hlt := (h2.bit_of_ne j hj (h.length_eq ▸ hlt)).trans (h.bit_of_ne j hj hlt)
  count_eq := h2.count_eq
  bytes_eq := h2.bytes_eq
  length_eq := h2.length_eq.trans h.length_eq
  sized := h2.sized
  ridInfo_eq := h2.ridInfo_eq.trans h.ridInfo_eq
  capacity_eq := h2.capacity_eq.trans h.capacity_eq
  lastInfo_eq := h2.lastInfo_eq.trans h.lastInfo_eq
  lastSize_eq := h2.lastSize_eq.trans h.lastSize_eq
  verify_eq := h2.verify_eq.trans h.verify_eq

end Becomes

/-- The node of a block, or the one `AddSubPiece` would create for it. -/
def nodeOrNew (m : SubPieceManager μ) (b : Nat) : BlockNode :=
  (m.nodeAt b).getD (BlockNode.create b (m.newBlockCapacity b) false)

/-- The count of blocks once block `b` has a node. -/
def countWith (m : SubPieceManager μ) (b : Nat) : Nat :=
  if (m.nodeAt b).isSome then m.blocksCount else u32 (m.blocksCount + 1)

theorem ensureNode_becomes (hSized : Sized m) (h : b < m.blocks.length) :
    (m.ensureNode b).2 = m.nodeOrNew b ∧
    Becomes m b (some (m.nodeOrNew b)) (m.hasFullBlock b) (m.countWith b) m.downloadBytes
      (m.ensureNode b).1 := by
  have hSame := Becomes.same hSized h
  cases hNode : m.nodeAt b with
  | some node =>
      simp only [ensureNode, nodeOrNew, countWith, hNode, Option.getD_some, Option.isSome_some,
        if_true, true_and]
      rw [hNode] at hSame
      exact hSame
  | none =>
      simp only [ensureNode, nodeOrNew, countWith, hNode, Option.getD_none, Option.isSome_none,
        Bool.false_eq_true, if_false, true_and]
      exact (hSame.setNode _).setCount _

/-- What a call of `AddSubPiece` that returns has done. -/
inductive AddStep (m : SubPieceManager μ) (info : SubPieceInfo) (buf : SubPieceBuffer)
    (m' : SubPieceManager μ) : Prop where
  | rejected (h : m' = m)
  | emptyBlock (hFull : (m.nodeOrNew info.blockIndex).isFull = true)
      (hBit : m.hasFullBlock info.blockIndex = false)
      (h : Becomes m info.blockIndex (some (m.nodeOrNew info.blockIndex)) false
        (m.countWith info.blockIndex) m.downloadBytes m')
  | stored (node' : BlockNode) (hFull : (m.nodeOrNew info.blockIndex).isFull = false)
      (hBit : m.hasFullBlock info.blockIndex = false)
      (hCall : ∃ flag, (m.nodeOrNew info.blockIndex).addSubpiece info.subpieceIndex buf =
        some (node', flag))
      (hAdded : BlockNode.Added (m.nodeOrNew info.blockIndex) node' info.subpieceIndex)
      (h : Becomes m info.blockIndex (some node') node'.isFull (m.countWith info.blockIndex)
        (u32 (m.downloadBytes + buf.length)) m')

theorem addSubPiece_step (hSized : Sized m) {info : SubPieceInfo} {buf : SubPieceBuffer}
    {added : Bool} (h : m.addSubPiece info buf = some (m', added)) : AddStep m info buf m' := by
  unfold addSubPiece at h
  split at h
  · cases h
    exact .rejected rfl
  rename_i hBit
  have hBit : m.hasFullBlock info.blockIndex = false := Bool.eq_false_iff.mpr hBit
  split at h
  · cases h
    exact .rejected rfl
  split at h
  · rename_i hLt
    obtain ⟨hNode, hEnsure⟩ := ensureNode_becomes hSized hLt
    dsimp only at h
    rw [hNode] at h
    split at h
    · rename_i hFull
      cases h
      exact .emptyBlock hFull hBit (hBit ▸ hEnsure)
    · rename_i hFull
      have hFull : (m.nodeOrNew info.blockIndex).isFull = false := Bool.eq_false_iff.mpr hFull
      obtain ⟨stored, hStored, hEq⟩ := Option.map_eq_some_iff.mp h
      cases hEq
      obtain ⟨⟨node', flag⟩, hNode', hEq⟩ := Option.map_eq_some_iff.mp hStored
      have hAdded := BlockNode.addSubpiece_added hFull hNode'
      have hStep := (hEnsure.setNode (some node')).setBytes
        (u32 (m.downloadBytes + buf.length))
      have hBytes : (m.ensureNode info.blockIndex).1.downloadBytes = m.downloadBytes :=
        hEnsure.bytes_eq
      dsimp only at hEq
      rw [hBytes] at hEq
      split at hEq
      · rename_i hNew
        cases hEq
        exact .stored node' hFull hBit ⟨flag, hNode'⟩ hAdded (hNew ▸ hStep.setBit true)
      · rename_i hNew
        have hNew : node'.isFull = false := Bool.eq_false_iff.mpr hNew
        cases hEq
        exact .stored node' hFull hBit ⟨flag, hNode'⟩ hAdded (by rw [hNew, ← hBit]; exact hStep)
  · cases h

theorem addSubPiece_of_invalid {info : SubPieceInfo} {buf : SubPieceBuffer} {added : Bool}
    (h : m.addSubPiece info buf = some (m', added)) (hInvalid : buf.isValid = false) : m' = m := by
  unfold addSubPiece at h
  split at h
  · cases h
    rfl
  · rw [hInvalid, Bool.not_false, if_pos rfl] at h
    cases h
    rfl

/-- The length that `LoadSubPiece` gives the buffer it makes of a content. -/
def loadSize (m : SubPieceManager μ) (info : SubPieceInfo) : Nat :=
  if info = m.lastSubpieceInfo then u16 m.lastSubpieceSize else bytesNumPerSubpiece

theorem loadSubPiece_step (hSized : Sized m) {info : SubPieceInfo} {content : Bytes}
    {loaded : Bool} (h : m.loadSubPiece info content = some (m', loaded)) :
    m.nodeAt info.blockIndex = none ∧ m' = m ∨
    ∃ node node', m.nodeAt info.blockIndex = some node ∧
      node' = (node.loadSubPieceBuffer info.subpieceIndex
        (SubPieceBuffer.ofContent content (m.loadSize info))).1 ∧
      BlockNode.Loaded node node' info.subpieceIndex ∧
      Becomes m info.blockIndex (some node') (m.hasFullBlock info.blockIndex) m.blocksCount
        m.downloadBytes m' := by
  unfold loadSubPiece at h
  split at h
  · rename_i hLt
    split at h
    · rename_i hNode
      cases h
      exact Or.inl ⟨hNode, rfl⟩
    · rename_i node hNode
      cases h
      exact Or.inr ⟨node, _, hNode, rfl, BlockNode.loadSubPieceBuffer_loaded node _ _,
        (Becomes.same hSized hLt).setNode _⟩
  · cases h

theorem setBlockReading_step (hSized : Sized m) {reading : Bool}
    (h : m.setBlockReading b = some (m', reading)) :
    m.nodeAt b = none ∧ m.hasFullBlock b = false ∧ m' = m ∨
    ∃ node, (m.nodeAt b = some node ∨ m.nodeAt b = none ∧ m.hasFullBlock b = true ∧
        node = BlockNode.create b (m.getBlockSubPieceCount b) true) ∧
      Becomes m b (some node.setBlockReading.1) (m.hasFullBlock b) m.blocksCount
        m.downloadBytes m' := by
  unfold setBlockReading at h
  split at h
  · rename_i hLt
    have hSame := Becomes.same hSized hLt
    split at h
    · rename_i node hNode
      cases h
      exact Or.inr ⟨node, Or.inl hNode, hSame.setNode _⟩
    · rename_i hNode
      split at h
      · rename_i hBit
        cases h
        exact Or.inr ⟨_, Or.inr ⟨hNode, hBit, rfl⟩, hSame.setNode _⟩
      · rename_i hBit
        cases h
        exact Or.inl ⟨hNode, Bool.eq_false_iff.mpr hBit, rfl⟩
  · cases h

theorem removeBlockInfo_step (hSized : Sized m) (h : m.removeBlockInfo b = some m') :
    Becomes m b none false
      (if (m.nodeAt b).isSome then subU32 m.blocksCount 1 else m.blocksCount)
      m.downloadBytes m' := by
  unfold removeBlockInfo at h
  split at h
  · rename_i hLt
    have hSame := Becomes.same hSized hLt
    have hReset : Becomes m b (m.nodeAt b) false m.blocksCount m.downloadBytes
        (if m.hasFullBlock b then m.setBit b false else m) := by
      split
      · exact hSame.setBit false
      · rename_i hBit
        rw [Bool.eq_false_iff.mpr hBit] at hSame
        exact hSame
    dsimp only at h
    have hNodeAt := hReset.nodeAt_self
    have hCount := hReset.count_eq
    rw [hNodeAt] at h
    split at h
    · rename_i node hNode
      have h := Option.some.inj h
      rw [hCount] at h
      rw [hNode, Option.isSome_some, if_pos rfl, ← h]
      exact (hReset.setNode none).setCount _
    · rename_i hNode
      have h := Option.some.inj h
      rw [hNode] at hReset
      rw [hNode, Option.isSome_none, if_neg Bool.false_ne_true, ← h]
      exact hReset
  · cases h

theorem onWriteBlockFinish_step (hSized : Sized m) (h : m.onWriteBlockFinish b = some m') :
    Becomes m b none (m.hasFullBlock b) m.blocksCount m.downloadBytes m' := by
  unfold onWriteBlockFinish at h
  split at h
  · rename_i hLt
    have hSame := Becomes.same hSized hLt
    split at h
    · cases h
      exact hSame.setNode none
    · rename_i hNode
      cases h
      exact hNode ▸ hSame
  · cases h

theorem onReportBlockReadFailed_step (hSized : Sized m) {info : SubPieceInfo}
    (h : m.onReportBlockReadFailed info = some m') :
    Becomes m info.blockIndex ((m.nodeAt info.blockIndex).map BlockNode.resetForReDownload) false
      m.blocksCount m.downloadBytes m' := by
  unfold onReportBlockReadFailed at h
  split at h
  · rename_i hLt
    have hReset := (Becomes.same hSized hLt).setBit false
    dsimp only at h
    rw [setBit_nodeAt] at h
    split at h
    · rename_i node hNode
      cases h
      simpa [hNode] using hReset.setNode (some node.resetForReDownload)
    · rename_i hNode
      cases h
      simpa [hNode] using hReset
  · cases h

/-- What a call of `ClearBlockMemCache` in a build without a disk has done. -/
theorem clearBlock_step (hSized : Sized m) (hLt : b < m.blocks.length) {node : BlockNode}
    (h : m.clearBlock b node = some m') : ∃ node',
      node.clearBlockMemCache (m.ridInfo.blockSize / bytesNumPerSubpiece) = some node' ∧
      Becomes m b (if node'.isEmpty then none else some node') (m.hasFullBlock b && node'.isFull)
        m.blocksCount m.downloadBytes m' := by
  obtain ⟨node', hClear, hEq⟩ := Option.map_eq_some_iff.mp h
  refine ⟨node', hClear, ?_⟩
  have hStore := (Becomes.same hSized hLt).setNode (some node')
  have hBit : Becomes m b (some node') (m.hasFullBlock b && node'.isFull) m.blocksCount
      m.downloadBytes (if (m.setNode b (some node')).hasFullBlock b && !node'.isFull then
        (m.setNode b (some node')).setBit b false else m.setNode b (some node')) := by
    rw [setNode_hasFullBlock]
    cases hFull : node'.isFull with
    | true => simpa using hStore
    | false =>
        cases hHeld : m.hasFullBlock b with
        | true => simpa using hStore.setBit false
        | false => simpa [hHeld] using hStore
  dsimp only at hEq
  split at hEq
  · rename_i hEmpty
    cases hEq
    rw [if_pos hEmpty]
    exact hBit.setNode none
  · rename_i hEmpty
    cases hEq
    rw [if_neg hEmpty]
    exact hBit

/-- What a call of `RemoveBlockDataFromMemCache` that returns has done. -/
inductive EvictStep (build : Build) (m : SubPieceManager μ) (b : Nat) (m' : SubPieceManager μ) :
    Prop where
  | kept (h : m' = m)
  | droppedFull (node : BlockNode) (hMode : build.diskMode = true) (hNode : m.nodeAt b = some node)
      (hFull : node.isFull = true)
      (h : Becomes m b none (m.hasFullBlock b) m.blocksCount m.downloadBytes m')
  | hashed (node node' : BlockNode) (hMode : build.diskMode = false)
      (hNode : m.nodeAt b = some node) (hFull : node.isFull = true)
      (hTaken : BlockNode.TakenForSave node node')
      (h : Becomes m b (some node') (m.hasFullBlock b) m.blocksCount m.downloadBytes m')
  | cleared (node taken node' : BlockNode) (play : Nat) (hMode : build.diskMode = false)
      (hNode : m.nodeAt b = some node)
      (hVerify : m.needVerifyBlock = true → node.needWrite = true ∧ node.isFull = true)
      (hTaken : BlockNode.TakenForSave node taken)
      (hPlay : play = m.ridInfo.blockSize / bytesNumPerSubpiece)
      (hClear : taken.clearBlockMemCache play = some node')
      (h : Becomes m b (if node'.isEmpty then none else some node')
        (m.hasFullBlock b && node'.isFull) m.blocksCount m.downloadBytes m')

private theorem evictToDisk_step (hSized : Sized m) (hLt : b < m.blocks.length)
    {build : Build} (hMode : build.diskMode = true) {node : BlockNode}
    (hNode : m.nodeAt b = some node) {jobs : List SaveJob}
    (h : m.evictToDisk b node = some (m', jobs)) : EvictStep build m b m' := by
  have hSame := Becomes.same hSized hLt
  unfold evictToDisk at h
  split at h
  · rename_i hWrite
    simp only [Bool.and_eq_true] at hWrite
    obtain ⟨⟨written, taken, jobs'⟩, hWritten, hEq⟩ := Option.map_eq_some_iff.mp h
    obtain ⟨⟨taken', bufferSet⟩, hTaken, hEq'⟩ := Option.map_eq_some_iff.mp hWritten
    cases hEq'
    have hFull := (BlockNode.getBufferForSave_taken hTaken).isFull hWrite.2
    simp only [hFull, if_true] at hEq
    cases hEq
    exact .droppedFull node hMode hNode hWrite.2 ((hSame.setNode _).setNode none)
  · split at h
    · rename_i hFull
      cases h
      exact .droppedFull node hMode hNode hFull (hSame.setNode none)
    · cases h
      exact .kept rfl

private theorem verifyAndClear_step (hSized : Sized m) (hLt : b < m.blocks.length)
    {build : Build} (hMode : build.diskMode = false) {node : BlockNode}
    (hNode : m.nodeAt b = some node) (h : m.verifyAndClear build b node = some m') :
    EvictStep build m b m' := by
  unfold verifyAndClear at h
  split at h
  · rename_i hWrite
    simp only [Bool.and_eq_true] at hWrite
    obtain ⟨⟨taken, bufferSet⟩, hTake, hRest⟩ := Option.bind_eq_some_iff.mp h
    have hTaken := BlockNode.getBufferForSave_taken hTake
    have hStore := (Becomes.same hSized hLt).setNode (some taken)
    dsimp only at hRest
    split at hRest
    · cases hRest
      exact .hashed node taken hMode hNode hWrite.2 hTaken hStore
    split at hRest
    · cases hRest
      exact .hashed node taken hMode hNode hWrite.2 hTaken hStore
    · obtain ⟨expected, -, hClear⟩ := Option.bind_eq_some_iff.mp hRest
      obtain ⟨hashed, hHashed, hBecomes⟩ : ∃ hashed, hashed.clearBlock b taken = some m' ∧
          Becomes m b (some taken) (m.hasFullBlock b) m.blocksCount m.downloadBytes hashed := by
        refine ⟨_, hClear, ?_⟩
        split
        · exact hStore.setHashFailed _
        · exact hStore
      have hLt' : b < hashed.blocks.length := by
        rw [hBecomes.length_eq]
        exact hLt
      obtain ⟨node', hNode', hStep⟩ := clearBlock_step hBecomes.sized hLt' hHashed
      rw [hBecomes.bit_self, hBecomes.count_eq, hBecomes.bytes_eq] at hStep
      rw [hBecomes.ridInfo_eq] at hNode'
      exact .cleared node taken node' _ hMode hNode (fun _ => hWrite) hTaken rfl hNode'
        (hBecomes.trans hStep)
  · cases h
    exact .kept rfl

theorem removeBlockDataFromMemCache_step (hSized : Sized m) {build : Build}
    {jobs : List SaveJob} (h : m.removeBlockDataFromMemCache build b = some (m', jobs)) :
    EvictStep build m b m' := by
  unfold removeBlockDataFromMemCache at h
  split at h
  · rename_i hLt
    split at h
    · cases h
      exact .kept rfl
    · rename_i node hNode
      split at h
      · rename_i hMode
        exact evictToDisk_step hSized hLt hMode hNode h
      · rename_i hMode
        have hMode : build.diskMode = false := Bool.eq_false_iff.mpr hMode
        split at h
        · obtain ⟨result, hVerify, hEq⟩ := Option.map_eq_some_iff.mp h
          cases hEq
          exact verifyAndClear_step hSized hLt hMode hNode hVerify
        · rename_i hVerify
          obtain ⟨result, hClear, hEq⟩ := Option.map_eq_some_iff.mp h
          cases hEq
          obtain ⟨node', hNode', hStep⟩ := clearBlock_step hSized hLt hClear
          exact .cleared node node node' _ hMode hNode (fun hv => absurd hv hVerify)
            (BlockNode.TakenForSave.refl node) rfl hNode' hStep
  · cases h

theorem EvictStep.sized {build : Build} (h : EvictStep build m b m') (hSized : Sized m) :
    Sized m' := by
  cases h with
  | kept h => exact h ▸ hSized
  | droppedFull _ _ _ _ h => exact h.sized
  | hashed _ _ _ _ _ _ h => exact h.sized
  | cleared _ _ _ _ _ _ _ _ _ _ h => exact h.sized

/-- A round of `SaveAllBlock` evicts the block, and then clears the memory of a
node that is still there and not full. -/
theorem saveBlock_step (hSized : Sized m) {build : Build} {jobs : List SaveJob}
    (h : m.saveBlock build b = some (m', jobs)) :
    ∃ evicted, EvictStep build m b evicted ∧
      (m' = evicted ∨ ∃ node node' play, evicted.nodeAt b = some node ∧ node.isFull = false ∧
        node.clearBlockMemCache play = some node' ∧
        Becomes evicted b (some node') (evicted.hasFullBlock b) evicted.blocksCount
          evicted.downloadBytes m') := by
  obtain ⟨⟨evicted, jobs'⟩, hEvict, hRest⟩ := Option.bind_eq_some_iff.mp h
  have hStep := removeBlockDataFromMemCache_step hSized hEvict
  refine ⟨evicted, hStep, ?_⟩
  dsimp only at hRest
  split at hRest
  · rename_i node hNode
    split at hRest
    · cases hRest
      exact Or.inl rfl
    · rename_i hFull
      obtain ⟨node', hClear, hEq⟩ := Option.map_eq_some_iff.mp hRest
      cases hEq
      have hLt := lt_of_nodeAt hNode
      exact Or.inr ⟨node, node', _, hNode, Bool.eq_false_iff.mpr hFull, hClear,
        (Becomes.same (hStep.sized hSized) hLt).setNode _⟩
  · cases hRest
    exact Or.inl rfl

end SubPieceManager

/-- The calls that change a store. `saveBlock` is one round of `SaveAllBlock`. -/
inductive StoreOp where
  | addSubPiece (info : SubPieceInfo) (buf : SubPieceBuffer)
  | loadSubPiece (info : SubPieceInfo) (content : Bytes)
  | setBlockReading (b : Nat)
  | onWriteBlockFinish (b : Nat)
  | removeBlockDataFromMemCache (b : Nat)
  | removeBlockInfo (b : Nat)
  | onReportBlockReadFailed (info : SubPieceInfo)
  | saveBlock (b : Nat)
  | initRidInfo (r : RidInfo)

namespace SubPieceManager

variable {μ : Type} [BlockMap μ]

/-- Execute one call. -/
def next (build : Build) (m : SubPieceManager μ) : StoreOp → Option (SubPieceManager μ)
  | .addSubPiece info buf => (m.addSubPiece info buf).map Prod.fst
  | .loadSubPiece info content => (m.loadSubPiece info content).map Prod.fst
  | .setBlockReading b => (m.setBlockReading b).map Prod.fst
  | .onWriteBlockFinish b => m.onWriteBlockFinish b
  | .removeBlockDataFromMemCache b => (m.removeBlockDataFromMemCache build b).map Prod.fst
  | .removeBlockInfo b => m.removeBlockInfo b
  | .onReportBlockReadFailed info => m.onReportBlockReadFailed info
  | .saveBlock b => (m.saveBlock build b).map Prod.fst
  | .initRidInfo r => some (m.initRidInfo r)

/-- The step relation of the store. -/
def Step (build : Build) (m : SubPieceManager μ) (op : StoreOp) (m' : SubPieceManager μ) : Prop :=
  m.next build op = some m'

end SubPieceManager

end Storage
