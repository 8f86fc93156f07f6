import Peer.Storage.BlockMapCodec
import Peer.Storage.BlockNodeFits
import Peer.Storage.ManagerInvariant

/-! A store is written with `ToBuffer` and read back with `Parse`. A block that was
not complete comes back as held when its node has a single piece: the reader
stops at the first piece record, and with one piece that is the end of the buffer. -/
namespace Storage

open Basis

/-- The calls a snapshot may follow: all but those that reset a node for another
download or replace the RID information. -/
def StoreOp.InSnapshotRun : StoreOp → Prop
  | .onReportBlockReadFailed _ | .initRidInfo _ => False
  | _ => True

theorem StoreOp.InSnapshotRun.keepsGeometry {r : RidInfo} {op : StoreOp}
    (h : op.InSnapshotRun) : op.KeepsGeometry r := by
  cases op <;> trivial

namespace SubPieceManager

variable {μ : Type} [BlockMap μ] {r : RidInfo} {build : Build} {m m' : SubPieceManager μ}
  {op : StoreOp} {buf : Bytes}

/-- A node that is not on disk was created by `AddSubPiece`. -/
def MemCapacity (r : RidInfo) (b : Nat) (node : BlockNode) : Prop :=
  node.isBlockSavedOnDisk = false → node.totalSubpieceCount = newCapacityOf r b

theorem MemCapacity.rules (hm : BuiltFor r m) (hOp : op.InSnapshotRun) :
    NodeRules build m op fun b node _ => MemCapacity r b node where
  created _ _ _ _ _ _ := hm.newBlockCapacity _
  added _ _ _ _ _ _ h hFull hCall _ :=
    (BlockNode.addSubpiece_added hFull hCall).shape.total_eq.trans
      (h (BlockNode.not_onDisk_of_not_full hFull))
  loaded info content node _ _ _ h hDisk := by
    have hLoaded := BlockNode.loadSubPieceBuffer_loaded node info.subpieceIndex
      (SubPieceBuffer.ofContent content (m.loadSize info))
    refine hLoaded.shape.total_eq.trans (h (Bool.eq_false_iff.mpr fun hOld => ?_))
    rw [hLoaded.onDisk.mpr (Or.inl hOld)] at hDisk
    cases hDisk
  fromDisk b _ _ hDisk := by
    rw [BlockNode.create_onDisk] at hDisk
    cases hDisk
  reading _ node _ _ h hDisk := by
    rw [BlockNode.setBlockReading_onDisk] at hDisk
    exact (BlockNode.setBlockReading_shape node).total_eq.trans (h hDisk)
  taken _ _ _ _ _ h hTaken hDisk := by
    rw [hTaken.onDisk_eq] at hDisk
    exact hTaken.shape.total_eq.trans (h hDisk)
  evicted _ _ _ _ _ _ h hClear hDisk := by
    have hCleared := BlockNode.clearBlockMemCache_cleared hClear
    rw [hCleared.onDisk_eq] at hDisk
    exact hCleared.shape.total_eq.trans (h hDisk)
  cleared _ _ _ _ _ _ _ h hClear hDisk := by
    have hCleared := BlockNode.clearBlockMemCache_cleared hClear
    rw [hCleared.onDisk_eq] at hDisk
    exact hCleared.shape.total_eq.trans (h hDisk)
  reset _ _ _ hReset := by
    subst hReset
    exact absurd hOp id

/-- What a snapshot relies on: the shape of the nodes, and the capacity of those
that are not on disk. -/
structure SnapshotReady (r : RidInfo) (m : SubPieceManager μ) : Prop extends Shaped r m where
  memCapacity : ∀ b node, m.nodeAt b = some node → MemCapacity r b node

theorem SnapshotReady.step (h : SnapshotReady r m) (hOp : op.InSnapshotRun)
    (hStep : Step build m op m') : SnapshotReady r m' :=
  ⟨h.toShaped.step hOp.keepsGeometry hStep,
    Step.nodes (MemCapacity.rules h.builtFor hOp) h.builtFor.sized hStep h.memCapacity⟩

theorem SnapshotReady.of_run {full verify : Bool} {start : SubPieceManager μ}
    (hNew : new r full verify = some start)
    (run : Reaches (Step build) (fun _ op => op.InSnapshotRun) start m) : SnapshotReady r m := by
  refine run.invariant ⟨Shaped.new hNew, fun b node hNode => ?_⟩
    fun _ _ _ hReady hOp hStep => hReady.step hOp hStep
  obtain ⟨-, -, hNone, -⟩ := new_eq_some hNew
  rw [hNone b] at hNode
  cases hNode

/-- A store `m'` that holds nothing but blocks whose bit is set in `m`, and each of
those. -/
structure ResumesSafely (r : RidInfo) (m m' : SubPieceManager μ) : Prop where
  held : ∀ info, r.Inside info → m'.hasSubPiece info = true →
    m.hasFullBlock info.blockIndex = true
  kept : ∀ b < r.blockCount, m.hasFullBlock b = true → m'.hasFullBlock b = true

/-- What `Parse` returns for the bytes `ToBuffer` wrote: the same bits, and a node,
on disk, for each block that has one of a single piece and no bit. -/
structure ParsedBack (r : RidInfo) (m m' : SubPieceManager μ) : Prop where
  bits : ∀ b < r.blockCount, m'.hasFullBlock b = m.hasFullBlock b
  nodes : ∀ b < r.blockCount, m.hasFullBlock b = false →
    ((m.nodeAt b ≠ none ∧ newCapacityOf r b ≤ subpieceNumPerPiece) ∧
        ∃ held, m'.nodeAt b = some held ∧ held.isBlockSavedOnDisk = true) ∨
      ((m.nodeAt b = none ∨ subpieceNumPerPiece < newCapacityOf r b) ∧ m'.nodeAt b = none)

/-- The buffer of one node, parsed: a node with a single piece comes back on disk. -/
theorem parse_nodeBuffer (hr : r.Valid) {b : Nat} {node : BlockNode} (hShape : NodeShape r b node)
    {bytes : Bytes} (hToBuffer : node.toBuffer = some bytes) {node? : Option BlockNode}
    (h : BlockNode.parse b bytes = .ok (some node?)) : node.isBlockSavedOnDisk = false ∧
    ((subpieceNumPerPiece < node.totalSubpieceCount ∧ node? = none) ∨
      (node.totalSubpieceCount ≤ subpieceNumPerPiece ∧ ∃ held, node? = some held ∧
        BlockNode.OnDiskOnly b held ∧ held.totalSubpieceCount = node.totalSubpieceCount)) := by
  obtain ⟨hPos, hTotal⟩ := hShape.total_bounds hr
  have hCount : 0 < node.pieceCount.length := by
    rw [hShape.pieces_eq]
    exact BlockNode.piecesOf_pos hPos (by omega)
  obtain ⟨rfl, hLt, hDisk⟩ := BlockNode.toBuffer_eq_some hToBuffer hCount
  have hOne : node.pieceCount.length = 1 ↔ node.totalSubpieceCount ≤ subpieceNumPerPiece := by
    rw [hShape.pieces_eq, BlockNode.piecesOf_eq (by omega)]
    simp only [subpieceNumPerPiece]
    omega
  refine ⟨hDisk, ?_⟩
  rcases BlockNode.parse_recordBytes hPos hTotal hShape.pieces_eq hCount hLt h with
    ⟨hMany, hNone⟩ | ⟨hSingle, hHeld⟩
  · exact Or.inl ⟨Nat.lt_of_not_le fun hLe => hMany (hOne.mpr hLe), hNone⟩
  · exact Or.inr ⟨hOne.mp hSingle, hHeld⟩

/-- The buffer of one block, parsed. -/
theorem parse_blockBuffer (hr : r.Valid) (hReady : SnapshotReady r m) {b : Nat}
    {node? : Option BlockNode} (hSome : (m.blockBuffer b).isSome = true)
    (h : BlockNode.parse b ((m.blockBuffer b).getD []) = .ok (some node?)) :
    ((m.nodeAt b ≠ none ∧ newCapacityOf r b ≤ subpieceNumPerPiece) ∧
        ∃ held, node? = some held ∧ held.isBlockSavedOnDisk = true) ∨
      ((m.nodeAt b = none ∨ subpieceNumPerPiece < newCapacityOf r b) ∧ node? = none) := by
  cases hNode : m.nodeAt b with
  | none =>
      simp only [blockBuffer, hNode, Option.getD_some, BlockNode.parse_nullBlock] at h
      cases h
      exact Or.inr ⟨Or.inl rfl, rfl⟩
  | some node =>
      simp only [blockBuffer, hNode] at h hSome
      obtain ⟨bytes, hToBuffer⟩ := Option.isSome_iff_exists.mp hSome
      rw [hToBuffer, Option.getD_some] at h
      obtain ⟨hDisk, hParsed⟩ := parse_nodeBuffer hr (hReady.nodes b node hNode) hToBuffer h
      rw [hReady.memCapacity b node hNode hDisk] at hParsed
      rcases hParsed with ⟨hMany, rfl⟩ | ⟨hSingle, held, rfl, hHeld, -⟩
      · exact Or.inr ⟨Or.inr hMany, rfl⟩
      · refine Or.inl ⟨⟨by simp, hSingle⟩, held, rfl, ?_⟩
        simp [BlockNode.isBlockSavedOnDisk, hHeld.state_eq]

theorem parse_toBuffer (hr : r.Valid) (hReady : SnapshotReady r m) (hBuf : m.toBuffer = some buf)
    {verify : Bool} (hParse : parse buf r verify = .ok (some m')) : ParsedBack r m m' := by
  obtain ⟨hBytes, hSize, hWritten⟩ := toBuffer_eq_some hBuf
  obtain ⟨fresh, records, hNew, hRecords, -, hState⟩ := parse_eq_some hParse
  obtain ⟨-, hm, hNone, hFull, -⟩ := new_eq_some hNew
  have hNodeAt : ∀ b, m'.nodeAt b = (applyRecords (fresh, 0) records).1.nodeAt b :=
    fun b => hState ▸ rfl
  have hHas : ∀ b, m'.hasFullBlock b = (applyRecords (fresh, 0) records).1.hasFullBlock b :=
    fun b => hState ▸ rfl
  rw [hReady.builtFor.length_eq] at hBytes hWritten
  obtain ⟨hMap, hPayloads⟩ := records_of_blockRecords (m := m) []
    (by simpa using hBytes) (by omega)
    (fun b hb => Nat.lt_trans (List.mem_range.mp hb) r.blockCount_lt) hRecords
  have hIndex : ∀ record ∈ records, record.1 < fresh.blocks.length := by
    rw [hm.length_eq]
    exact hRecords.index_lt
  have hListed : ∀ b < r.blockCount, b ∈ records.map Prod.fst ↔ m.hasFullBlock b = false := by
    intro b hb
    rw [hMap, List.mem_filter]
    simp [hb]
  refine ⟨fun b hb => ?_, fun b hb hBit => ?_⟩
  · rw [hHas, applyRecords_hasFullBlock 0 hm.sized hIndex (hm.length_eq ▸ hb), hFull b hb]
    cases hBit : m.hasFullBlock b with
    | false => simpa using (hListed b hb).mpr hBit
    | true =>
        have hNot : ¬ b ∈ records.map Prod.fst := fun h => by
          rw [(hListed b hb).mp h] at hBit
          cases hBit
        simpa using hNot
  · rw [hNodeAt]
    rcases applyRecords_nodeAt 0 hm.sized hIndex b with
      ⟨-, hUnlisted⟩ | ⟨before, node?, after, hSplit, -, hFound⟩
    · obtain ⟨record, hMem, hFst⟩ := List.mem_map.mp ((hListed b hb).mpr hBit)
      exact absurd hFst (hUnlisted record hMem)
    · rw [hFound]
      have hPayload := hPayloads (b, node?) (by rw [hSplit]; simp)
      exact parse_blockBuffer hr hReady (hWritten b hb hBit) hPayload

/-- A snapshot resumes safely exactly when each block without its bit has no node
or more than one piece. A block index outside `boost::uint16_t` has no subpiece
that could be asked for. -/
theorem snapshot_resumes_iff (hr : r.Valid) {full verify verify' : Bool}
    {start : SubPieceManager μ}
    (hNew : new r full verify = some start)
    (run : Reaches (Step build) (fun _ op => op.InSnapshotRun) start m)
    (hBuf : m.toBuffer = some buf) (hParse : parse buf r verify' = .ok (some m')) :
    ResumesSafely r m m' ↔
      ∀ b < r.blockCount, b < 2 ^ 16 → m.hasFullBlock b = false →
        m.nodeAt b = none ∨ subpieceNumPerPiece < newCapacityOf r b := by
  have hBack := parse_toBuffer hr (SnapshotReady.of_run hNew run) hBuf hParse
  constructor
  · intro hSafe b hb hAddress hBit
    rcases hBack.nodes b hb hBit with ⟨-, held, hNode, hDisk⟩ | ⟨h, -⟩
    · have hBlock : (SubPieceInfo.make b 0).blockIndex = b := u16_of_lt hAddress
      have hSub : (SubPieceInfo.make b 0).subpieceIndex = 0 := u16_of_lt (by decide)
      have hHas : m'.hasSubPiece (SubPieceInfo.make b 0) = true := by
        rw [hasSubPiece, hBlock, hBack.bits b hb, hBit, hNode]
        simp [BlockNode.hasSubPiece, hDisk]
      have hFull := hSafe.held _ ⟨hBlock.symm ▸ hb, by
        rw [hBlock, hSub]
        exact RidInfo.capacity_pos hr b⟩ hHas
      rw [hBlock, hBit] at hFull
      cases hFull
    · exact h
  · intro hCond
    refine ⟨fun info hRange hHas => ?_, fun b hb hBit => (hBack.bits b hb).trans hBit⟩
    by_contra hBit
    have hBit : m.hasFullBlock info.blockIndex = false := Bool.eq_false_iff.mpr hBit
    rcases hBack.nodes _ hRange.1 hBit with ⟨⟨hSome, hSmall⟩, -⟩ | ⟨-, hNode⟩
    · rcases hCond _ hRange.1 info.blockIndex_lt hBit with hNone | hLarge
      · exact hSome hNone
      · omega
    · rw [hasSubPiece, hBack.bits _ hRange.1, hBit, hNode] at hHas
      cases hHas

section Runs

/-- A file of `length` bytes in one block of 2048 subpieces. -/
private def oneBlock (length : Nat) (h : length < 2 ^ 32) : RidInfo :=
  ⟨Guid.zero, length, 2097152, 1, [], h, twoMib_lt_uint32, one_lt_uint32⟩

def firstSubpiece : SubPieceBuffer := ⟨List.replicate 1024 0, true⟩

/-- Download the first subpiece of a file, take a snapshot and parse it. -/
def resumeAfterOne (r : RidInfo) :
    Option (SubPieceManager (List Bool) × SubPieceManager (List Bool) × Bytes ×
      SubPieceManager (List Bool)) := do
  let start ← new r false false
  let m ← next ⟨true, fun _ => Guid.zero⟩ start (.addSubPiece (.make 0 0) firstSubpiece)
  let buf ← m.toBuffer
  match parse buf r false with
  | .ok (some m') => some (start, m, buf, m')
  | _ => none

theorem resumeAfterOne_run {r : RidInfo}
    (h : (resumeAfterOne r).isSome = true) : ∃ start m buf m',
      resumeAfterOne r = some (start, m, buf, m') ∧ new r false false = some start ∧
      Reaches (Step ⟨true, fun _ => Guid.zero⟩) (fun _ op => op.InSnapshotRun) start m ∧
      m.toBuffer = some buf ∧ parse buf r false = .ok (some m') := by
  obtain ⟨⟨start, m, buf, m'⟩, hRun⟩ := Option.isSome_iff_exists.mp h
  refine ⟨start, m, buf, m', hRun, ?_⟩
  obtain ⟨start', hNew, hRest⟩ := Option.bind_eq_some_iff.mp hRun
  obtain ⟨middle, hStep, hRest⟩ := Option.bind_eq_some_iff.mp hRest
  obtain ⟨bytes, hBuf, hRest⟩ := Option.bind_eq_some_iff.mp hRest
  split at hRest
  · rename_i result hParse
    cases hRest
    exact ⟨hNew, (Reaches.refl start).tail (by trivial) hStep, hBuf, hParse⟩
  · cases hRest

/-- With 129 subpieces the block has two pieces, and its one subpiece is forgotten
but not made up. -/
theorem snapshot_of_two_pieces_resumes : ∃ m m' : SubPieceManager (List Bool),
    m.hasFullBlock 0 = false ∧ m.nodeAt 0 ≠ none ∧
      ResumesSafely (oneBlock 131073 (by decide)) m m' := by
  obtain ⟨start, m, buf, m', hRun, hNew, run, hBuf, hParse⟩ :=
    resumeAfterOne_run (r := oneBlock 131073 (by decide)) (by decide +kernel)
  have hState : ((resumeAfterOne (oneBlock 131073 (by decide))).map fun x =>
      (x.2.1.hasFullBlock 0, x.2.1.nodeAt 0 == none)) = some (false, false) := by decide +kernel
  rw [hRun] at hState
  simp only [Option.map_some, Option.some.injEq, Prod.mk.injEq, beq_eq_false_iff_ne] at hState
  refine ⟨m, m', hState.1, hState.2, (snapshot_resumes_iff ⟨by decide, ⟨2048, by decide⟩, by decide⟩
    hNew run hBuf hParse).mpr fun b hb _ _ => Or.inr ?_⟩
  obtain rfl : b = 0 := Nat.lt_one_iff.mp hb
  decide +kernel

/-- With two subpieces the block has one piece, and the subpiece that was never
downloaded comes back as held. -/
theorem snapshot_of_one_piece_unsafe :
    ¬ ∀ (build : Build) (r : RidInfo) (full verify verify' : Bool)
      (start m m' : SubPieceManager (List Bool)) (buf : Bytes), r.Valid →
      new r full verify = some start →
      Reaches (Step build) (fun _ op => op.InSnapshotRun) start m →
      m.toBuffer = some buf → parse buf r verify' = .ok (some m') → ResumesSafely r m m' := by
  intro h
  obtain ⟨start, m, buf, m', hRun, hNew, run, hBuf, hParse⟩ :=
    resumeAfterOne_run (r := oneBlock 2048 (by decide)) (by decide +kernel)
  have hSafe := h _ (oneBlock 2048 (by decide)) false false false start m m' buf
    ⟨by decide, ⟨2048, by decide⟩, by decide⟩ hNew run hBuf hParse
  have hState : ((resumeAfterOne (oneBlock 2048 (by decide))).map fun x =>
      (x.2.1.hasFullBlock 0, x.2.2.2.hasSubPiece (.make 0 1))) = some (false, true) := by
    decide +kernel
  rw [hRun] at hState
  simp only [Option.map_some, Option.some.injEq, Prod.mk.injEq] at hState
  have hFull := hSafe.held (.make 0 1) (by decide +kernel) hState.2
  rw [show (SubPieceInfo.make 0 1).blockIndex = 0 by decide +kernel, hState.1] at hFull
  cases hFull

end Runs

end SubPieceManager

end Storage
