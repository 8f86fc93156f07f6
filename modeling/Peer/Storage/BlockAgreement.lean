import Peer.Basis.Tally
import Peer.Storage.BlockNodeFits
import Peer.Storage.ManagerInvariant

/-! Node and bit of one block agree: a node fits its block, and the bit says whether
the node is full. Every call keeps this, under a condition on four of them. -/
namespace Storage

open Basis

/-- What a call must not do: add or load a subpiece outside its block, load into a
block of which the store has only parts, or give up a read of a block with
subpieces in memory. -/
def StoreOp.KeepsBlocks {μ : Type} [BlockMap μ] (r : RidInfo) (m : SubPieceManager μ) :
    StoreOp → Prop
  | .addSubPiece info buf =>
      r.Inside info ∨ m.hasFullBlock info.blockIndex = true ∨ buf.isValid = false
  | .loadSubPiece info _ => ∀ node, m.nodeAt info.blockIndex = some node →
      info.subpieceIndex ∈ node.keys ∨ node.isBlockSavedOnDisk = true ∧ r.Inside info
  | .onReportBlockReadFailed info => ∀ node, m.nodeAt info.blockIndex = some node → node.keys = ∅
  | .initRidInfo r' => r'.blockSize = r.blockSize ∧ r'.fileLength = r.fileLength
  | _ => True

namespace SubPieceManager

variable {μ : Type} [BlockMap μ] {r : RidInfo} {build : Build} {m m' : SubPieceManager μ}
  {op : StoreOp}

/-- The sum over all blocks of a number that depends on node and bit. -/
def tally (n : Nat) (f : Nat → Option BlockNode → Bool → Nat) (m : SubPieceManager μ) : Nat :=
  ∑ b ∈ Finset.range n, f b (m.nodeAt b) (m.hasFullBlock b)

theorem Becomes.tally {b n : Nat} {node? : Option BlockNode} {bit : Bool} {count bytes : Nat}
    (h : Becomes m b node? bit count bytes m') (hn : m.blocks.length = n)
    (f : Nat → Option BlockNode → Bool → Nat) :
    tally n f m' + f b (m.nodeAt b) (m.hasFullBlock b) = tally n f m + f b node? bit := by
  have hChange := sum_range_change (n := n) (i := b)
    (f := fun j => f j (m.nodeAt j) (m.hasFullBlock j))
    (g := fun j => f j (m'.nodeAt j) (m'.hasFullBlock j)) (hn ▸ h.block_lt)
    fun j hj hNe => by rw [h.nodeAt_of_ne j hNe, h.bit_of_ne j hNe (hn ▸ hj)]
  rwa [h.nodeAt_self, h.bit_self] at hChange

/-- A node that fits its block, and a bit that is its fullness. A block without a
node may have either bit. -/
def BlockOk (cap : Nat) (node? : Option BlockNode) (bit : Bool) : Prop :=
  ∀ node, node? = some node → BlockNode.Fits cap node ∧ bit = node.isFull

theorem BlockOk.none (cap : Nat) (bit : Bool) : BlockOk cap none bit := fun _ h => by cases h

theorem BlockOk.some {cap : Nat} {node : BlockNode} {bit : Bool}
    (hFits : BlockNode.Fits cap node) (hBit : bit = node.isFull) :
    BlockOk cap (some node) bit := by
  intro n hn
  cases hn
  exact ⟨hFits, hBit⟩

/-- A store of an addressable file in which every block agrees. -/
structure BlocksAgree (r : RidInfo) (m : SubPieceManager μ) : Prop where
  builtFor : BuiltFor r m
  blocks : ∀ b < r.blockCount, BlockOk (r.capacity b) (m.nodeAt b) (m.hasFullBlock b)

section Becomes

variable {b : Nat} {node? : Option BlockNode} {bit : Bool} {count bytes : Nat}

theorem BlocksAgree.becomes (h : BlocksAgree r m) (hStep : Becomes m b node? bit count bytes m')
    (hBlock : BlockOk (r.capacity b) node? bit) : BlocksAgree r m' := by
  refine ⟨h.builtFor.becomes hStep, fun j hj => ?_⟩
  by_cases hEq : j = b
  · subst hEq
    rw [hStep.nodeAt_self, hStep.bit_self]
    exact hBlock
  · rw [hStep.nodeAt_of_ne j hEq, hStep.bit_of_ne j hEq (h.builtFor.length_eq ▸ hj)]
    exact h.blocks j hj

theorem BlocksAgree.lt (h : BlocksAgree r m) (hStep : Becomes m b node? bit count bytes m') :
    b < r.blockCount :=
  h.builtFor.length_eq ▸ hStep.block_lt

theorem BlocksAgree.node (h : BlocksAgree r m) (hb : b < r.blockCount) {node : BlockNode}
    (hNode : m.nodeAt b = some node) :
    BlockNode.Fits (r.capacity b) node ∧ m.hasFullBlock b = node.isFull :=
  h.blocks b hb node hNode

end Becomes

theorem BlocksAgree.nodeOrNew_fits (h : BlocksAgree r m) (hr : r.Addressable) {b : Nat}
    (hb : b < r.blockCount) : BlockNode.Fits (r.capacity b) (m.nodeOrNew b) := by
  unfold nodeOrNew
  cases hNode : m.nodeAt b with
  | some node => exact (h.node hb hNode).1
  | none =>
      rw [h.builtFor.newBlockCapacity_eq hr hb]
      exact BlockNode.Fits.create b false

/-- A fresh node is not full, because no block is empty. -/
theorem BlocksAgree.nodeOrNew_full (h : BlocksAgree r m) (hr : r.Addressable) {b : Nat}
    (hb : b < r.blockCount) (hFull : (m.nodeOrNew b).isFull = true) :
    m.nodeAt b = some (m.nodeOrNew b) := by
  unfold nodeOrNew at hFull ⊢
  cases hNode : m.nodeAt b with
  | some node => rfl
  | none =>
      rw [hNode, Option.getD_none, BlockNode.isFull_iff, h.builtFor.newBlockCapacity_eq hr hb] at hFull
      have hPos := RidInfo.capacity_pos hr.toValid b
      simp only [BlockNode.create_keys, Finset.card_empty, BlockNode.create_total,
        BlockNode.create_onDisk, Bool.false_eq_true, or_false] at hFull
      omega

/-- Adding to a store that agrees leaves the store alone, or puts the subpiece into
a node that was not full. -/
theorem BlocksAgree.add_cases (h : BlocksAgree r m) (hr : r.Addressable) {info : SubPieceInfo}
    {buf : SubPieceBuffer} (hStep : AddStep m info buf m') :
    m' = m ∨ ∃ node', info.blockIndex < r.blockCount ∧
      (m.nodeOrNew info.blockIndex).isFull = false ∧ m.hasFullBlock info.blockIndex = false ∧
      BlockNode.Added (m.nodeOrNew info.blockIndex) node' info.subpieceIndex ∧
      Becomes m info.blockIndex (some node') node'.isFull (m.countWith info.blockIndex)
        (u32 (m.downloadBytes + buf.length)) m' := by
  cases hStep with
  | rejected h => exact Or.inl h
  | emptyBlock hFull hBit hBecomes =>
      have hb := h.lt hBecomes
      obtain ⟨-, hSame⟩ := h.node hb (h.nodeOrNew_full hr hb hFull)
      rw [hFull, hBit] at hSame
      cases hSame
  | stored node' hFull hBit _ hAdded hBecomes =>
      exact Or.inr ⟨node', h.lt hBecomes, hFull, hBit, hAdded, hBecomes⟩

theorem EvictStep.blocksAgree (h : BlocksAgree r m) (hr : r.Addressable) {b : Nat}
    (hStep : EvictStep build m b m') : BlocksAgree r m' := by
  have hCap := RidInfo.capacity_lt hr.toValid b
  cases hStep with
  | kept hEq => exact hEq ▸ h
  | droppedFull _ _ _ _ hBecomes => exact h.becomes hBecomes (BlockOk.none _ _)
  | hashed node node' _ hNode hFull hTaken hBecomes =>
      obtain ⟨hFits, hBit⟩ := h.node (h.lt hBecomes) hNode
      refine h.becomes hBecomes (BlockOk.some (hFits.taken hTaken) ?_)
      rw [hBit, hFull, hTaken.isFull hFull]
  | cleared node taken node' play _ hNode hVerify hTaken _ hClear hBecomes =>
      obtain ⟨hFits, hBit⟩ := h.node (h.lt hBecomes) hNode
      refine h.becomes hBecomes ?_
      split
      · exact BlockOk.none _ _
      · refine BlockOk.some ((hFits.taken hTaken).cleared hClear) ?_
        cases hBit' : m.hasFullBlock b with
        | true => rfl
        | false =>
            rw [hBit'] at hBit
            rw [Bool.false_and]
            exact ((hFits.taken hTaken).cleared_not_full hClear
              (hTaken.isFull_eq.trans hBit.symm)).symm

/-- Every call keeps the agreement. -/
theorem BlocksAgree.step (h : BlocksAgree r m) (hr : r.Addressable)
    (hKeeps : op.KeepsBlocks r m) (hStep : Step build m op m') : BlocksAgree r m' := by
  have hSized := h.builtFor.sized
  unfold Step next at hStep
  cases op with
  | addSubPiece info buf =>
      obtain ⟨⟨result, added⟩, hAdd, rfl⟩ := Option.map_eq_some_iff.mp hStep
      rcases h.add_cases hr (addSubPiece_step hSized hAdd) with
        hSame | ⟨node', hb, hFull, hBit, hAdded, hBecomes⟩
      · exact hSame ▸ h
      · have hInside : info.subpieceIndex < r.capacity info.blockIndex := by
          rcases hKeeps with hInside | hFull | hInvalid
          · exact hInside.2
          · rw [hBit] at hFull
            cases hFull
          · have hRejected := addSubPiece_of_invalid hAdd hInvalid
            rw [hRejected] at hBecomes
            have hSame := hBecomes.bit_self
            rw [hBit] at hSame
            have hNode := hBecomes.nodeAt_self
            have hIn : info.subpieceIndex ∈ node'.keys := by
              rw [hAdded.keys_eq]
              exact Finset.mem_insert_self _ _
            exact (h.node hb hNode).1.keys_lt _ hIn
        refine h.becomes hBecomes (BlockOk.some ?_ rfl)
        exact (h.nodeOrNew_fits hr hb).added hAdded hInside
          (BlockNode.not_onDisk_of_not_full hFull)
  | loadSubPiece info content =>
      obtain ⟨⟨result, loaded⟩, hLoad, rfl⟩ := Option.map_eq_some_iff.mp hStep
      rcases loadSubPiece_step hSized hLoad with ⟨-, hSame⟩ | ⟨node, node', hNode, -, hLoaded, hBecomes⟩
      · exact hSame ▸ h
      · obtain ⟨hFits, hBit⟩ := h.node (h.lt hBecomes) hNode
        have hIndex : info.subpieceIndex < r.capacity info.blockIndex := by
          rcases hKeeps node hNode with hIn | ⟨-, hInside⟩
          · exact hFits.keys_lt _ hIn
          · exact hInside.2
        refine h.becomes hBecomes (BlockOk.some (hFits.loaded hLoaded hIndex ?_) ?_)
        · rcases hKeeps node hNode with hIn | ⟨hDisk, -⟩
          · exact Or.inr hIn
          · exact Or.inl hDisk
        · rw [hBit]
          exact (hLoaded.isFull_eq ((hKeeps node hNode).imp_right And.left)).symm
  | setBlockReading b =>
      obtain ⟨⟨result, reading⟩, hRead, rfl⟩ := Option.map_eq_some_iff.mp hStep
      rcases setBlockReading_step hSized hRead with ⟨-, -, hSame⟩ | ⟨node, hNode, hBecomes⟩
      · exact hSame ▸ h
      · have hb := h.lt hBecomes
        refine h.becomes hBecomes ?_
        rcases hNode with hNode | ⟨-, hBit, rfl⟩
        · obtain ⟨hFits, hBit⟩ := h.node hb hNode
          exact BlockOk.some hFits.setBlockReading (hBit.trans (BlockNode.setBlockReading_isFull _).symm)
        · rw [h.builtFor.getBlockSubPieceCount_eq hr hb]
          refine BlockOk.some (BlockNode.Fits.create b true).setBlockReading ?_
          rw [hBit, BlockNode.setBlockReading_isFull]
          exact (BlockNode.isFull_iff.mpr (Or.inr (BlockNode.create_onDisk _ _ _))).symm
  | onWriteBlockFinish b => exact h.becomes (onWriteBlockFinish_step hSized hStep) (BlockOk.none _ _)
  | removeBlockDataFromMemCache b =>
      obtain ⟨⟨result, jobs⟩, hEvict, rfl⟩ := Option.map_eq_some_iff.mp hStep
      exact EvictStep.blocksAgree h hr (removeBlockDataFromMemCache_step hSized hEvict)
  | removeBlockInfo b => exact h.becomes (removeBlockInfo_step hSized hStep) (BlockOk.none _ _)
  | onReportBlockReadFailed info =>
      have hBecomes := onReportBlockReadFailed_step hSized hStep
      refine h.becomes hBecomes fun node' hNode' => ?_
      obtain ⟨node, hNode, rfl⟩ := Option.map_eq_some_iff.mp hNode'
      obtain ⟨hFits, -⟩ := h.node (h.lt hBecomes) hNode
      have hKeys := hKeeps node hNode
      refine ⟨hFits.resetForReDownload hKeys, ?_⟩
      symm
      by_contra hFull
      rw [Bool.not_eq_false, BlockNode.isFull_iff, BlockNode.resetForReDownload_keys, hKeys,
        BlockNode.resetForReDownload_onDisk, Finset.card_empty,
        (BlockNode.resetForReDownload_shape node).total_eq, hFits.total_eq] at hFull
      have hPos := RidInfo.capacity_pos hr.toValid info.blockIndex
      have hZero := hFull.resolve_right Bool.false_ne_true
      omega
  | saveBlock b =>
      obtain ⟨⟨result, jobs⟩, hSave, rfl⟩ := Option.map_eq_some_iff.mp hStep
      obtain ⟨evicted, hEvict, hRest⟩ := saveBlock_step hSized hSave
      have hEvicted := EvictStep.blocksAgree h hr hEvict
      rcases hRest with hSame | ⟨node, node', play, hNode, hFull, hClear, hBecomes⟩
      · exact hSame ▸ hEvicted
      · obtain ⟨hFits, hBit⟩ := hEvicted.node (hEvicted.lt hBecomes) hNode
        refine hEvicted.becomes hBecomes (BlockOk.some
          (hFits.cleared hClear) ?_)
        rw [hBit, hFull]
        exact (hFits.cleared_not_full hClear hFull).symm
  | initRidInfo r' =>
      cases hStep
      exact ⟨h.builtFor.initRidInfo hKeeps.1 hKeeps.2, h.blocks⟩

section Runs

/-- A file of `length` bytes in one block. -/
def singleBlock (length : Nat) (h : length < 2 ^ 32) : RidInfo :=
  ⟨Guid.zero, length, 2097152, 1, [], h, twoMib_lt_uint32, one_lt_uint32⟩

/-- The calls `ops` on a fresh store. -/
def runFresh (build : Build) (r : RidInfo) (ops : List StoreOp) :
    Option (SubPieceManager (List Bool)) :=
  (new r false false).bind fun start => execute (next build) start ops

theorem runFresh_reaches (build : Build) (r : RidInfo) (ops : List StoreOp)
    (guard : SubPieceManager (List Bool) → StoreOp → Prop)
    (h : (runFresh build r ops).isSome = true)
    (hMet : ∀ start, new r false false = some start → AllMet (next build) guard start ops) :
    ∃ start m, runFresh build r ops = some m ∧ new r false false = some start ∧
      Reaches (Step build) guard start m := by
  obtain ⟨m, hRun⟩ := Option.isSome_iff_exists.mp h
  obtain ⟨start, hNew, hExecute⟩ := Option.bind_eq_some_iff.mp hRun
  exact ⟨start, m, hRun, hNew, Reaches.of_execute hExecute (hMet start hNew)⟩

end Runs

end SubPieceManager

end Storage
