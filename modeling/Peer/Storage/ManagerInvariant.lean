import Peer.Storage.Geometry

/-! Invariants of a store that speak about one node at a time. `NodeRules` lists
what each call may do to a node, and `Step.nodes` turns it into a step lemma. -/
namespace Storage

open Basis

/-- A call that gives the store other RID information keeps the geometry. -/
def StoreOp.KeepsGeometry (r : RidInfo) : StoreOp → Prop
  | .initRidInfo r' => r'.blockSize = r.blockSize ∧ r'.fileLength = r.fileLength
  | _ => True

namespace SubPieceManager

variable {μ : Type} [BlockMap μ] {r : RidInfo} {build : Build} {m m' : SubPieceManager μ}
  {op : StoreOp}

/-- What a property of node and bit has to survive for the call `op`. -/
structure NodeRules (build : Build) (m : SubPieceManager μ) (op : StoreOp)
    (P : Nat → BlockNode → Bool → Prop) : Prop where
  created : ∀ info buf, op = .addSubPiece info buf → m.nodeAt info.blockIndex = none →
    info.blockIndex < m.blocks.length →
    P info.blockIndex (.create info.blockIndex (m.newBlockCapacity info.blockIndex) false) false
  added : ∀ info buf node node' flag, op = .addSubPiece info buf →
    P info.blockIndex node false → node.isFull = false →
    node.addSubpiece info.subpieceIndex buf = some (node', flag) →
    P info.blockIndex node' node'.isFull
  loaded : ∀ info content node bit, op = .loadSubPiece info content →
    m.nodeAt info.blockIndex = some node → P info.blockIndex node bit →
    P info.blockIndex (node.loadSubPieceBuffer info.subpieceIndex
      (SubPieceBuffer.ofContent content (m.loadSize info))).1 bit
  fromDisk : ∀ b, op = .setBlockReading b → b < m.blocks.length →
    P b (.create b (m.getBlockSubPieceCount b) true) true
  reading : ∀ b node bit, op = .setBlockReading b → P b node bit → P b node.setBlockReading.1 bit
  taken : ∀ b node node' bit, build.diskMode = false → P b node bit →
    BlockNode.TakenForSave node node' → P b node' bit
  evicted : ∀ b node node' bit play, build.diskMode = false → P b node bit →
    node.clearBlockMemCache play = some node' → P b node' (bit && node'.isFull)
  cleared : ∀ b node node' bit play, op = .saveBlock b → node.isFull = false → P b node bit →
    node.clearBlockMemCache play = some node' → P b node' bit
  reset : ∀ info node bit, op = .onReportBlockReadFailed info →
    m.nodeAt info.blockIndex = some node → P info.blockIndex node bit →
    P info.blockIndex node.resetForReDownload false

/-- The property holds of every node there is. -/
def NodesHave (P : Nat → BlockNode → Bool → Prop) (m : SubPieceManager μ) : Prop :=
  ∀ j node, m.nodeAt j = some node → P j node (m.hasFullBlock j)

section Becomes

variable {b : Nat} {node? : Option BlockNode} {bit : Bool} {count bytes : Nat}

theorem Becomes.nodes {P : Nat → BlockNode → Bool → Prop}
    (h : Becomes m b node? bit count bytes m') (hOld : NodesHave P m)
    (hNew : ∀ node, node? = some node → P b node bit) : NodesHave P m' := by
  intro j node hNode
  by_cases hj : j = b
  · subst hj
    rw [h.bit_self]
    exact hNew node (h.nodeAt_self.symm.trans hNode)
  · have hOldNode := (h.nodeAt_of_ne j hj).symm.trans hNode
    rw [h.bit_of_ne j hj (lt_of_nodeAt hOldNode)]
    exact hOld j node hOldNode

end Becomes

theorem EvictStep.nodes {P : Nat → BlockNode → Bool → Prop} {b : Nat}
    (rules : NodeRules build m op P) (h : EvictStep build m b m') (hOld : NodesHave P m) :
    NodesHave P m' := by
  cases h with
  | kept h => exact h ▸ hOld
  | droppedFull _ _ _ _ h => exact h.nodes hOld fun _ hNone => by cases hNone
  | hashed node node' hMode hNode _ hTake h =>
      refine h.nodes hOld fun n hn => ?_
      cases hn
      exact rules.taken b node node' _ hMode (hOld b node hNode) hTake
  | cleared node taken node' play hMode hNode _ hTake _ hClear h =>
      refine h.nodes hOld fun n hn => ?_
      split at hn
      · cases hn
      · cases hn
        exact rules.evicted b taken node' _ play hMode
          (rules.taken b node taken _ hMode (hOld b node hNode) hTake) hClear

/-- The step lemma of an invariant about nodes. -/
theorem Step.nodes {P : Nat → BlockNode → Bool → Prop} (rules : NodeRules build m op P)
    (hSized : Sized m) (hStep : Step build m op m') (hOld : NodesHave P m) : NodesHave P m' := by
  unfold Step next at hStep
  cases op with
  | addSubPiece info buf =>
      obtain ⟨⟨result, added⟩, hAdd, rfl⟩ := Option.map_eq_some_iff.mp hStep
      have hOrNew : info.blockIndex < m.blocks.length → m.hasFullBlock info.blockIndex = false →
          P info.blockIndex (m.nodeOrNew info.blockIndex) false := by
        intro hLt hBit
        unfold nodeOrNew
        cases hNode : m.nodeAt info.blockIndex with
        | some node => exact hBit ▸ hOld _ node hNode
        | none => exact rules.created info buf rfl hNode hLt
      cases addSubPiece_step hSized hAdd with
      | rejected h => exact h ▸ hOld
      | emptyBlock _ hBit h =>
          refine h.nodes hOld fun n hn => ?_
          cases hn
          exact hOrNew h.block_lt hBit
      | stored node' hFull hBit hCall _ h =>
          refine h.nodes hOld fun n hn => ?_
          cases hn
          obtain ⟨flag, hCall⟩ := hCall
          exact rules.added info buf _ node' flag rfl (hOrNew h.block_lt hBit) hFull hCall
  | loadSubPiece info content =>
      obtain ⟨⟨result, loaded⟩, hLoad, rfl⟩ := Option.map_eq_some_iff.mp hStep
      rcases loadSubPiece_step hSized hLoad with ⟨-, h⟩ | ⟨node, node', hNode, rfl, -, h⟩
      · exact h ▸ hOld
      · refine h.nodes hOld fun n hn => ?_
        cases hn
        exact rules.loaded info content node _ rfl hNode (hOld _ node hNode)
  | setBlockReading b =>
      obtain ⟨⟨result, reading⟩, hRead, rfl⟩ := Option.map_eq_some_iff.mp hStep
      rcases setBlockReading_step hSized hRead with ⟨-, -, h⟩ | ⟨node, hNode, h⟩
      · exact h ▸ hOld
      · refine h.nodes hOld fun n hn => ?_
        cases hn
        refine rules.reading b node _ rfl ?_
        rcases hNode with hNode | ⟨-, hBit, rfl⟩
        · exact hOld b node hNode
        · rw [hBit]
          exact rules.fromDisk b rfl h.block_lt
  | onWriteBlockFinish b =>
      exact (onWriteBlockFinish_step hSized hStep).nodes hOld fun _ hNone => by cases hNone
  | removeBlockDataFromMemCache b =>
      obtain ⟨⟨result, jobs⟩, hEvict, rfl⟩ := Option.map_eq_some_iff.mp hStep
      exact (removeBlockDataFromMemCache_step hSized hEvict).nodes rules hOld
  | removeBlockInfo b =>
      exact (removeBlockInfo_step hSized hStep).nodes hOld fun _ hNone => by cases hNone
  | onReportBlockReadFailed info =>
      refine (onReportBlockReadFailed_step hSized hStep).nodes hOld fun n hn => ?_
      obtain ⟨node, hNode, rfl⟩ := Option.map_eq_some_iff.mp hn
      exact rules.reset info node _ rfl hNode (hOld _ node hNode)
  | saveBlock b =>
      obtain ⟨⟨result, jobs⟩, hSave, rfl⟩ := Option.map_eq_some_iff.mp hStep
      obtain ⟨evicted, hEvict, hRest⟩ := saveBlock_step hSized hSave
      have hEvicted := hEvict.nodes rules hOld
      rcases hRest with h | ⟨node, node', play, hNode, hFull, hClear, h⟩
      · exact h ▸ hEvicted
      · refine h.nodes hEvicted fun n hn => ?_
        cases hn
        exact rules.cleared b node node' _ play rfl hFull (hEvicted b node hNode) hClear
  | initRidInfo r' =>
      cases hStep
      exact hOld

theorem EvictStep.builtFor {b : Nat} (h : EvictStep build m b m') (hm : BuiltFor r m) :
    BuiltFor r m' := by
  cases h with
  | kept h => exact h ▸ hm
  | droppedFull _ _ _ _ h => exact hm.becomes h
  | hashed _ _ _ _ _ _ h => exact hm.becomes h
  | cleared _ _ _ _ _ _ _ _ _ _ h => exact hm.becomes h

/-- A store stays built for its file. -/
theorem BuiltFor.step (hm : BuiltFor r m) (hKeeps : StoreOp.KeepsGeometry r op)
    (hStep : Step build m op m') : BuiltFor r m' := by
  have hSized := hm.sized
  unfold Step next at hStep
  cases op with
  | addSubPiece info buf =>
      obtain ⟨⟨result, added⟩, hAdd, rfl⟩ := Option.map_eq_some_iff.mp hStep
      cases addSubPiece_step hSized hAdd with
      | rejected h => exact h ▸ hm
      | emptyBlock _ _ h => exact hm.becomes h
      | stored _ _ _ _ _ h => exact hm.becomes h
  | loadSubPiece info content =>
      obtain ⟨⟨result, loaded⟩, hLoad, rfl⟩ := Option.map_eq_some_iff.mp hStep
      rcases loadSubPiece_step hSized hLoad with ⟨-, h⟩ | ⟨_, _, _, _, _, h⟩
      · exact h ▸ hm
      · exact hm.becomes h
  | setBlockReading b =>
      obtain ⟨⟨result, reading⟩, hRead, rfl⟩ := Option.map_eq_some_iff.mp hStep
      rcases setBlockReading_step hSized hRead with ⟨-, -, h⟩ | ⟨_, _, h⟩
      · exact h ▸ hm
      · exact hm.becomes h
  | onWriteBlockFinish b => exact hm.becomes (onWriteBlockFinish_step hSized hStep)
  | removeBlockDataFromMemCache b =>
      obtain ⟨⟨result, jobs⟩, hEvict, rfl⟩ := Option.map_eq_some_iff.mp hStep
      exact (removeBlockDataFromMemCache_step hSized hEvict).builtFor hm
  | removeBlockInfo b => exact hm.becomes (removeBlockInfo_step hSized hStep)
  | onReportBlockReadFailed info => exact hm.becomes (onReportBlockReadFailed_step hSized hStep)
  | saveBlock b =>
      obtain ⟨⟨result, jobs⟩, hSave, rfl⟩ := Option.map_eq_some_iff.mp hStep
      obtain ⟨evicted, hEvict, h | ⟨_, _, _, _, _, _, h⟩⟩ := saveBlock_step hSized hSave
      · exact h ▸ hEvict.builtFor hm
      · exact (hEvict.builtFor hm).becomes h
  | initRidInfo r' =>
      cases hStep
      exact hm.initRidInfo hKeeps.1 hKeeps.2

/-- The capacity that `AddSubPiece` derives from RID information. -/
def newCapacityOf (r : RidInfo) (b : Nat) : Nat :=
  if b ≠ r.blockCount - 1 then r.blockSize / bytesNumPerSubpiece
  else (lastInfoOf r).subpieceIndex + 1

theorem BuiltFor.newBlockCapacity (h : BuiltFor r m) (b : Nat) :
    m.newBlockCapacity b = newCapacityOf r b := by
  rw [SubPieceManager.newBlockCapacity, newCapacityOf, h.length_eq, h.blockSize_eq, h.capacity_eq]

theorem newCapacityOf_bounds (hr : r.Valid) (b : Nat) :
    0 < newCapacityOf r b ∧ newCapacityOf r b < 2 ^ 31 := by
  have hPos := hr.subpieces_pos
  have hSize := r.blockSize_lt
  have hLast := (lastInfoOf r).subpieceIndex_lt
  unfold newCapacityOf
  split
  · refine ⟨hPos, ?_⟩
    simp only [bytesNumPerSubpiece]
    omega
  · omega

theorem subPieceCountOf_bounds (hr : r.Valid) (b : Nat) :
    0 < subPieceCountOf r b ∧ subPieceCountOf r b < 2 ^ 31 := by
  have hPos := hr.subpieces_pos
  have hSize := r.blockSize_lt
  have hLast := (lastInfoOf r).subpieceIndex_lt
  unfold subPieceCountOf
  split
  · omega
  · refine ⟨hPos, ?_⟩
    simp only [bytesNumPerSubpiece]
    omega

/-- A node as one of the two capacities of its block makes it. -/
structure NodeShape (r : RidInfo) (b : Nat) (node : BlockNode) : Prop where
  total_cases : node.totalSubpieceCount = newCapacityOf r b ∨
    node.totalSubpieceCount = subPieceCountOf r b
  pieces_eq : node.pieceCount.length = BlockNode.piecesOf node.totalSubpieceCount

theorem NodeShape.of_shape {b : Nat} {node node' : BlockNode} (h : NodeShape r b node)
    (hShape : BlockNode.SameShape node node') : NodeShape r b node' :=
  ⟨by rw [hShape.total_eq]; exact h.total_cases,
    by rw [hShape.pieces_eq, hShape.total_eq]; exact h.pieces_eq⟩

theorem NodeShape.total_bounds {b : Nat} {node : BlockNode} (h : NodeShape r b node)
    (hr : r.Valid) : 0 < node.totalSubpieceCount ∧ node.totalSubpieceCount < 2 ^ 31 := by
  rcases h.total_cases with hTotal | hTotal
  · exact hTotal ▸ newCapacityOf_bounds hr b
  · exact hTotal ▸ subPieceCountOf_bounds hr b

/-- Every call keeps the shape of the nodes. -/
theorem NodeShape.rules (hm : BuiltFor r m) (op : StoreOp) :
    NodeRules build m op fun b node _ => NodeShape r b node where
  created _ _ _ _ _ := ⟨Or.inl (hm.newBlockCapacity _), BlockNode.create_pieces _ _ _⟩
  added _ _ _ _ _ _ h hFull hCall := h.of_shape (BlockNode.addSubpiece_added hFull hCall).shape
  loaded _ _ node _ _ _ h := h.of_shape (BlockNode.loadSubPieceBuffer_loaded node _ _).shape
  fromDisk b _ _ := ⟨Or.inr (hm.getBlockSubPieceCount b), BlockNode.create_pieces _ _ _⟩
  reading _ node _ _ h := h.of_shape (BlockNode.setBlockReading_shape node)
  taken _ _ _ _ _ h hTaken := h.of_shape hTaken.shape
  evicted _ _ _ _ _ _ h hClear := h.of_shape (BlockNode.clearBlockMemCache_cleared hClear).shape
  cleared _ _ _ _ _ _ _ h hClear := h.of_shape (BlockNode.clearBlockMemCache_cleared hClear).shape
  reset _ node _ _ _ h := h.of_shape (BlockNode.resetForReDownload_shape node)

/-- A store built for a file whose nodes have the shapes of its blocks. -/
structure Shaped (r : RidInfo) (m : SubPieceManager μ) : Prop where
  builtFor : BuiltFor r m
  nodes : ∀ b node, m.nodeAt b = some node → NodeShape r b node

theorem Shaped.new {full verify : Bool} (h : new r full verify = some m) : Shaped r m := by
  obtain ⟨-, hm, hNone, -⟩ := new_eq_some h
  refine ⟨hm, fun b node hNode => ?_⟩
  rw [hNone b] at hNode
  cases hNode

theorem Shaped.step (h : Shaped r m) (hKeeps : StoreOp.KeepsGeometry r op)
    (hStep : Step build m op m') : Shaped r m' :=
  ⟨h.builtFor.step hKeeps hStep,
    Step.nodes (NodeShape.rules h.builtFor op) h.builtFor.sized hStep h.nodes⟩

end SubPieceManager

end Storage
