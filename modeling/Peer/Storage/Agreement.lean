import Peer.Storage.BlockMapParse
import Peer.Storage.NextMissing

/-! Which subpieces are held is recorded in the nodes, in the bitmap and in the
count of blocks, and every query answers from one of the three. They agree as long
as no call drops a node or a bit without the count. -/
namespace Storage

open Basis

/-- What a call must not do to the count of blocks: forget a partial block without
uncounting it, or uncount nothing when it forgets a block that has no node. -/
def StoreOp.KeepsCount {μ : Type} [BlockMap μ] (build : Build) (m : SubPieceManager μ) :
    StoreOp → Prop
  | .onWriteBlockFinish b => m.nodeAt b = none ∨ m.hasFullBlock b = true
  | .removeBlockInfo b => m.nodeAt b ≠ none ∨ m.hasFullBlock b = false
  | .onReportBlockReadFailed info =>
      m.nodeAt info.blockIndex ≠ none ∨ m.hasFullBlock info.blockIndex = false
  | .removeBlockDataFromMemCache b | .saveBlock b =>
      build.diskMode = true ∨ ∀ node, m.nodeAt b = some node →
        (m.needVerifyBlock = true → node.needWrite = true ∧ node.isFull = true) →
          node.isBlockSavedOnDisk = true ∨ ∃ k ∈ node.keys, k ≠ 0
  | _ => True

namespace SubPieceManager

variable {μ : Type} [BlockMap μ] {r : RidInfo} {build : Build} {m m' : SubPieceManager μ}
  {op : StoreOp}

/-- The right answer of a search for the first missing subpiece from `start` on. -/
def FirstMissing (r : RidInfo) (m : SubPieceManager μ) (start : SubPieceInfo) :
    Option SubPieceInfo → Prop
  | none => ∀ info, r.Inside info → start.le info = true →
      m.Held info.blockIndex info.subpieceIndex
  | some found => r.Inside found ∧ start.le found = true ∧
      ¬ m.Held found.blockIndex found.subpieceIndex ∧
      ∀ info, r.Inside info → start.le info = true → found.le info = false →
        m.Held info.blockIndex info.subpieceIndex

/-- Count, bitmap and every query answer from one set of held subpieces. -/
structure Consistent (r : RidInfo) (m : SubPieceManager μ) : Prop where
  count_eq : m.blocksCount = ((Finset.range r.blockCount).filter fun b =>
    (m.nodeAt b).isSome = true ∨ m.hasFullBlock b = true).card
  bit_iff : ∀ b < r.blockCount, m.hasFullBlock b = true ↔ ∀ s < r.capacity b, m.Held b s
  hasSubPiece_iff : ∀ info, r.Inside info →
    (m.hasSubPiece info = true ↔ m.Held info.blockIndex info.subpieceIndex)
  nextNull : ∀ start, r.Inside start →
    ∃ found, m.getNextNullSubPiece start = some found ∧ FirstMissing r m start found
  isFull_iff : m.isFull = true ↔ ∀ b < r.blockCount, ∀ s < r.capacity b, m.Held b s

/-- In an addressable file every subpiece has a name, so the search is exact. -/
theorem searchable_of_addressable (hr : r.Addressable) (start : SubPieceInfo) :
    Searchable r m start := by
  have hBlocks := hr.blockCount_le
  have hCap : ∀ b, r.capacity b < 2 ^ 16 := fun b =>
    (RidInfo.capacity_le hr.toValid b).trans_lt hr.blockSize_le
  constructor
  · intro b s hAt
    have hBlock := hAt.block_lt
    have hSub := hAt.subpiece_lt
    have hLt := hCap b
    omega
  · intro hLarge
    have hLt := hCap start.blockIndex
    omega

section Queries

variable (h : BlocksAgree r m) (hr : r.Addressable)
include h hr

theorem BlocksAgree.hasSubPiece_iff {info : SubPieceInfo} (hInside : r.Inside info) :
    m.hasSubPiece info = true ↔ m.Held info.blockIndex info.subpieceIndex := by
  unfold hasSubPiece
  split
  · rename_i hBit
    exact ⟨fun _ => (h.bit_iff hr.toValid hInside.1).mp hBit _ hInside.2, fun _ => rfl⟩
  · rename_i hBit
    unfold Held
    cases m.nodeAt info.blockIndex with
    | none => exact ⟨fun hFalse => (Bool.false_ne_true hFalse).elim, fun hHeld => absurd hHeld hBit⟩
    | some node => exact BlockNode.hasSubPiece_iff

/-- A piece is there when all its subpieces are held. -/
theorem BlocksAgree.hasPiece_iff {b p : Nat} (hb : b < r.blockCount)
    (hp : p * subpieceNumPerPiece < r.capacity b) :
    m.hasPiece b p = true ↔
      ∀ s < r.capacity b, s / subpieceNumPerPiece = p → m.Held b s := by
  have hBit := h.bit_iff hr.toValid hb
  unfold hasPiece
  split
  · rename_i hFull
    exact ⟨fun _ s hs _ => hBit.mp hFull s hs, fun _ => rfl⟩
  · rename_i hNotFull
    cases hNode : m.nodeAt b with
    | none =>
        refine ⟨fun hFalse => (Bool.false_ne_true hFalse).elim, fun hAll => ?_⟩
        have hHeld := hAll (p * subpieceNumPerPiece) hp (Nat.mul_div_cancel _ (by decide))
        unfold Held at hHeld
        rw [hNode] at hHeld
        exact absurd hHeld hNotFull
    | some node =>
        obtain ⟨hFits, hNodeBit⟩ := h.node hb hNode
        have hDisk : node.isBlockSavedOnDisk = false := by
          by_contra hOnDisk
          rw [Bool.not_eq_false] at hOnDisk
          exact hNotFull (hNodeBit.trans (BlockNode.isFull_iff.mpr (Or.inr hOnDisk)))
        have hHeld : ∀ s, m.Held b s ↔ s ∈ node.keys := by
          intro s
          simp [Held, hNode, hDisk]
        simp only [hHeld]
        have hCap := RidInfo.capacity_lt hr.toValid b
        exact hFits.hasPiece_iff (RidInfo.capacity_pos hr.toValid b) (by omega) hDisk hp

theorem BlocksAgree.getNextNullSubPiece {start : SubPieceInfo} (hStart : r.Inside start) :
    ∃ found, m.getNextNullSubPiece start = some found ∧ FirstMissing r m start found := by
  obtain ⟨found, hFound, hExact⟩ :=
    h.getNextNullSubPiece_exact hr.toValid hStart (searchable_of_addressable hr start)
  refine ⟨found, hFound, ?_⟩
  have hAfter : ∀ info : SubPieceInfo, start.le info = true →
      After start info.blockIndex info.subpieceIndex := fun info => SubPieceInfo.le_iff.mp
  cases found with
  | none => exact fun info hIn hLe => hExact _ hIn.1 _ hIn.2 (hAfter info hLe)
  | some found =>
      refine ⟨⟨hExact.block_lt, hExact.subpiece_lt⟩, SubPieceInfo.le_iff.mpr hExact.after,
        hExact.missing, fun info hIn hLe hNot => ?_⟩
      apply hExact.first _ _ hIn.2 (hAfter info hLe)
      rw [Bool.eq_false_iff, ne_eq, SubPieceInfo.le_iff] at hNot
      omega

theorem BlocksAgree.isFull_iff :
    m.isFull = true ↔ ∀ b < r.blockCount, ∀ s < r.capacity b, m.Held b s := by
  rw [isFull, BlockMap.isFull_iff, h.builtFor.sized, h.builtFor.length_eq]
  exact forall₂_congr fun b hb => h.bit_iff hr.toValid hb

end Queries

section Count

/-- What a block adds to `blocks_count_`. -/
def occupied (node? : Option BlockNode) (bit : Bool) : Nat :=
  if node?.isSome = true ∨ bit = true then 1 else 0

@[simp] theorem occupied_some (node : BlockNode) (bit : Bool) : occupied (some node) bit = 1 := by
  simp [occupied]

@[simp] theorem occupied_full (node? : Option BlockNode) : occupied node? true = 1 := by
  simp [occupied]

@[simp] theorem occupied_none : occupied none false = 0 := rfl

/-- The count of blocks is the number of those that have a node or their bit. -/
def Counted (r : RidInfo) (m : SubPieceManager μ) : Prop :=
  m.blocksCount = ∑ b ∈ Finset.range r.blockCount, occupied (m.nodeAt b) (m.hasFullBlock b)

theorem Counted.le (h : Counted r m) : m.blocksCount ≤ r.blockCount := by
  rw [h]
  refine (Finset.sum_le_card_nsmul (Finset.range r.blockCount) _ 1 fun b _ => ?_).trans (by simp)
  unfold occupied
  split <;> omega

theorem Counted.becomes (h : Counted r m) (hm : BuiltFor r m) {b : Nat}
    {node? : Option BlockNode} {bit : Bool} {count bytes : Nat}
    (hStep : Becomes m b node? bit count bytes m')
    (hCount : count + occupied (m.nodeAt b) (m.hasFullBlock b) =
      m.blocksCount + occupied node? bit) : Counted r m' := by
  have hTally := hStep.tally hm.length_eq fun _ => occupied
  simp only [tally] at hTally
  unfold Counted at h ⊢
  rw [hStep.count_eq]
  omega

/-- One block less is counted where a block was. -/
theorem Counted.sub_one (h : Counted r m) (hr : r.Addressable) {b : Nat} (hb : b < r.blockCount)
    (hOccupied : occupied (m.nodeAt b) (m.hasFullBlock b) = 1) :
    subU32 m.blocksCount 1 + 1 = m.blocksCount := by
  have hLe := h.le
  have hCount := hr.blockCount_le
  have hPos := le_sum_range (f := fun j => occupied (m.nodeAt j) (m.hasFullBlock j)) hb
  unfold Counted at h
  rw [subU32_of_le (by omega) (by omega)]
  omega

/-- Evicting a block keeps the count when the block stays counted or was empty. -/
theorem EvictStep.counted (h : Counted r m) (hAgree : BlocksAgree r m) {b : Nat}
    (hKeeps : build.diskMode = true ∨ ∀ node, m.nodeAt b = some node →
      (m.needVerifyBlock = true → node.needWrite = true ∧ node.isFull = true) →
        node.isBlockSavedOnDisk = true ∨ ∃ k ∈ node.keys, k ≠ 0)
    (hStep : EvictStep build m b m') : Counted r m' := by
  have hm := hAgree.builtFor
  cases hStep with
  | kept hSame => exact hSame ▸ h
  | droppedFull node _ hNode hFull hBecomes =>
      obtain ⟨-, hBit⟩ := hAgree.node (hAgree.lt hBecomes) hNode
      rw [hFull] at hBit
      refine h.becomes hm hBecomes ?_
      rw [hNode, hBit, occupied_full, occupied_full]
  | hashed node node' _ hNode _ _ hBecomes =>
      refine h.becomes hm hBecomes ?_
      rw [hNode, occupied_some, occupied_some]
  | cleared node taken node' play hMode hNode hVerify hTaken _ hClear hBecomes =>
      have hKept := hKeeps.resolve_left (by simp [hMode]) node hNode hVerify
      have hEmpty : node'.isEmpty = false := by
        have hDisk : node'.isBlockSavedOnDisk = node.isBlockSavedOnDisk :=
          (BlockNode.clearBlockMemCache_cleared hClear).onDisk_eq.trans hTaken.onDisk_eq
        rw [Bool.eq_false_iff, ne_eq, BlockNode.isEmpty_iff, hDisk]
        rintro ⟨hKeys, hNotDisk⟩
        obtain ⟨k, hk, hPos⟩ := hKept.resolve_left (by simp [hNotDisk])
        rcases hTaken.keys_eq with hSame | ⟨hOnDisk, -⟩
        · obtain ⟨x, hx⟩ := BlockNode.clearBlockMemCache_nonempty hClear (hSame ▸ hk) hPos
          rw [hKeys] at hx
          exact absurd hx (Finset.notMem_empty x)
        · rw [hOnDisk] at hNotDisk
          cases hNotDisk
      refine h.becomes hm hBecomes ?_
      rw [hEmpty, if_neg Bool.false_ne_true, hNode, occupied_some, occupied_some]

theorem Counted.step (h : Counted r m) (hAgree : BlocksAgree r m) (hr : r.Addressable)
    (hKeeps : op.KeepsCount build m) (hStep : Step build m op m') : Counted r m' := by
  have hm := hAgree.builtFor
  have hSized := hm.sized
  unfold Step next at hStep
  cases op with
  | addSubPiece info buf =>
      obtain ⟨⟨result, added⟩, hAdd, rfl⟩ := Option.map_eq_some_iff.mp hStep
      rcases hAgree.add_cases hr (addSubPiece_step hSized hAdd) with
        hSame | ⟨node', -, -, hBit, -, hBecomes⟩
      · exact hSame ▸ h
      · refine h.becomes hm hBecomes ?_
        have hLe := h.le
        have hCount := hr.blockCount_le
        unfold countWith
        cases hNode : m.nodeAt info.blockIndex with
        | some node => simp
        | none =>
            rw [hBit, occupied_none, occupied_some, Option.isSome_none, if_neg Bool.false_ne_true,
              u32_of_lt (by omega)]
  | loadSubPiece info content =>
      obtain ⟨⟨result, loaded⟩, hLoad, rfl⟩ := Option.map_eq_some_iff.mp hStep
      rcases loadSubPiece_step hSized hLoad with ⟨-, hSame⟩ | ⟨node, node', hNode, -, -, hBecomes⟩
      · exact hSame ▸ h
      · refine h.becomes hm hBecomes ?_
        rw [hNode, occupied_some, occupied_some]
  | setBlockReading b =>
      obtain ⟨⟨result, reading⟩, hRead, rfl⟩ := Option.map_eq_some_iff.mp hStep
      rcases setBlockReading_step hSized hRead with ⟨-, -, hSame⟩ | ⟨node, hNode, hBecomes⟩
      · exact hSame ▸ h
      · refine h.becomes hm hBecomes ?_
        rcases hNode with hNode | ⟨-, hBit, -⟩
        · rw [hNode, occupied_some, occupied_some]
        · rw [hBit, occupied_full, occupied_full]
  | onWriteBlockFinish b =>
      refine h.becomes hm (onWriteBlockFinish_step hSized hStep) ?_
      rcases hKeeps with hNode | hBit
      · rw [hNode]
      · rw [hBit, occupied_full, occupied_full]
  | removeBlockDataFromMemCache b =>
      obtain ⟨⟨result, jobs⟩, hEvict, rfl⟩ := Option.map_eq_some_iff.mp hStep
      exact EvictStep.counted h hAgree hKeeps (removeBlockDataFromMemCache_step hSized hEvict)
  | removeBlockInfo b =>
      have hBecomes := removeBlockInfo_step hSized hStep
      refine h.becomes hm hBecomes ?_
      rw [occupied_none]
      cases hNode : m.nodeAt b with
      | some node =>
          have hSub := h.sub_one hr (hAgree.lt hBecomes) (by rw [hNode, occupied_some])
          rw [Option.isSome_some, if_pos rfl, occupied_some]
          exact hSub
      | none =>
          have hBit := hKeeps.resolve_left (not_not.mpr hNode)
          rw [Option.isSome_none, if_neg Bool.false_ne_true, hBit, occupied_none]
  | onReportBlockReadFailed info =>
      refine h.becomes hm (onReportBlockReadFailed_step hSized hStep) ?_
      cases hNode : m.nodeAt info.blockIndex with
      | some node => rw [Option.map_some, occupied_some, occupied_some]
      | none =>
          have hBit := hKeeps.resolve_left (not_not.mpr hNode)
          rw [hBit, Option.map_none]
  | saveBlock b =>
      obtain ⟨⟨result, jobs⟩, hSave, rfl⟩ := Option.map_eq_some_iff.mp hStep
      obtain ⟨evicted, hEvict, hRest⟩ := saveBlock_step hSized hSave
      have hEvicted := EvictStep.counted h hAgree hKeeps hEvict
      rcases hRest with hSame | ⟨node, node', play, hNode, -, -, hBecomes⟩
      · exact hSame ▸ hEvicted
      · refine hEvicted.becomes (hEvict.builtFor hm) hBecomes ?_
        rw [hNode, occupied_some, occupied_some]
  | initRidInfo r' =>
      cases hStep
      exact h

end Count

section Start

/-- A buffer of which every record is that of an empty block, and no block has two. -/
def OnlyNullBlocks (r : RidInfo) (buf : Bytes) : Prop :=
  ∀ records, Records buf r.blockCount 0 records →
    (∀ record ∈ records, record.2 = none) ∧ (records.map Prod.fst).Nodup

/-- The stores a run starts from: fresh ones, and those parsed from a block map
without records of partial blocks. -/
inductive Starts (r : RidInfo) (m : SubPieceManager μ) : Prop where
  | fresh (full verify : Bool) (h : new r full verify = some m)
  | parsed (buf : Bytes) (verify : Bool) (hNull : OnlyNullBlocks r buf)
      (h : parse buf r verify = .ok (some m))

theorem counted_new {full verify : Bool} (h : new r full verify = some m) :
    BlocksAgree r m ∧ Counted r m := by
  obtain ⟨-, hm, hNone, hBits, hCount, -⟩ := new_eq_some h
  refine ⟨⟨hm, fun b _ => hNone b ▸ BlockOk.none _ _⟩, ?_⟩
  have hEach : ∀ b ∈ Finset.range r.blockCount,
      occupied (m.nodeAt b) (m.hasFullBlock b) = if full then 1 else 0 := by
    intro b hb
    rw [hNone, hBits b (Finset.mem_range.mp hb)]
    cases full <;> simp
  rw [Counted, Finset.sum_congr rfl hEach, hCount]
  cases full <;> simp

/-- What a record keeps at a block that has its bit is kept by all records, when no
block has two. -/
theorem applyRecords_once_induction {P : SubPieceManager μ → Nat → Prop}
    {records : List (Nat × Option BlockNode)} (nulls : Nat)
    (hIndex : ∀ record ∈ records, record.1 < r.blockCount) (hNodup : (records.map Prod.fst).Nodup)
    (hStep : ∀ s nulls record, record ∈ records → BuiltFor r s →
      s.hasFullBlock record.1 = true → P s nulls →
      P (s.applyRecord nulls record.1 record.2).1 (s.applyRecord nulls record.1 record.2).2)
    {m : SubPieceManager μ} (hm : BuiltFor r m)
    (hBits : ∀ record ∈ records, m.hasFullBlock record.1 = true) (hInit : P m nulls) :
    P (applyRecords (m, nulls) records).1 (applyRecords (m, nulls) records).2 := by
  induction records generalizing m nulls with
  | nil => exact hInit
  | cons record rest ih =>
      have hHere := List.mem_cons_self (a := record) (l := rest)
      have hLater := fun x (hx : x ∈ rest) => List.mem_cons_of_mem record hx
      have hBecomes := applyRecord_becomes nulls hm.sized
        (hm.length_eq ▸ hIndex record hHere) record.2
      have hFirst := hStep m nulls record hHere hm (hBits record hHere) hInit
      rw [List.map_cons, List.nodup_cons] at hNodup
      rw [applyRecords, List.foldl_cons]
      dsimp only
      generalize m.applyRecord nulls record.1 record.2 = state at hBecomes hFirst ⊢
      obtain ⟨next, nulls'⟩ := state
      apply ih nulls' (fun x hx => hIndex x (hLater x hx)) hNodup.2
        (fun s n x hx => hStep s n x (hLater x hx)) (hm.becomes hBecomes) _ hFirst
      intro x hx
      have hNe : x.1 ≠ record.1 := fun hEq => hNodup.1 (hEq ▸ List.mem_map_of_mem hx)
      rw [hBecomes.bit_of_ne _ hNe (hm.length_eq ▸ hIndex x (hLater x hx))]
      exact hBits x (hLater x hx)

/-- A record takes its block off the count when it has no node. -/
theorem Counted.applyRecord (h : Counted r m) (hm : BuiltFor r m) (hr : r.Addressable)
    {b nulls : Nat} (hb : b < r.blockCount) (hBit : m.hasFullBlock b = true)
    (node? : Option BlockNode) : Counted r (m.applyRecord nulls b node?).1 := by
  have hBecomes := applyRecord_becomes nulls hm.sized (hm.length_eq ▸ hb) node?
  have hOccupied : occupied (m.nodeAt b) (m.hasFullBlock b) = 1 := by rw [hBit, occupied_full]
  apply h.becomes hm hBecomes
  rw [hOccupied]
  cases node? with
  | some node => rw [Option.isSome_some, if_pos rfl, occupied_some]
  | none =>
      rw [Option.isSome_none, if_neg Bool.false_ne_true, occupied_none]
      exact h.sub_one hr hb hOccupied

theorem BlocksAgree.applyRecord (h : BlocksAgree r m) {b nulls : Nat} (hb : b < r.blockCount) :
    BlocksAgree r (m.applyRecord nulls b none).1 :=
  h.becomes (applyRecord_becomes nulls h.builtFor.sized (h.builtFor.length_eq ▸ hb) none)
    (BlockOk.none _ _)

theorem Starts.counted (hr : r.Addressable) (h : Starts r m) :
    BlocksAgree r m ∧ Counted r m := by
  cases h with
  | fresh full verify hNew => exact counted_new hNew
  | parsed buf verify hNull hParse =>
      obtain ⟨fresh, records, hNew, hRecords, -, rfl⟩ := parse_eq_some hParse
      obtain ⟨-, hm, -, hBits, -⟩ := new_eq_some hNew
      obtain ⟨hEmpty, hNodup⟩ := hNull records hRecords
      obtain ⟨hAgree, hCounted⟩ := applyRecords_once_induction
        (P := fun s _ => BlocksAgree r s ∧ Counted r s) 0 hRecords.index_lt hNodup
        (fun s nulls record hMem hs hBit hKept => by
          rw [hEmpty record hMem]
          have hb := hRecords.index_lt record hMem
          exact ⟨hKept.1.applyRecord hb, hKept.2.applyRecord hs hr hb hBit none⟩) hm
        (fun record hMem => hBits _ (hRecords.index_lt record hMem)) (counted_new hNew)
      exact ⟨⟨{ hAgree.builtFor with }, hAgree.blocks⟩, hCounted⟩

end Start

/-- In every run that keeps the blocks and their count, all records of what is held
agree in every state. -/
theorem consistent_of_run (hr : r.Addressable) {start : SubPieceManager μ}
    (hStart : Starts r start)
    (run : Reaches (Step build) (fun m op => op.KeepsBlocks r m ∧ op.KeepsCount build m)
      start m) : Consistent r m := by
  obtain ⟨h, hCounted⟩ : BlocksAgree r m ∧ Counted r m := by
    refine run.invariant (P := fun m => BlocksAgree r m ∧ Counted r m) (hStart.counted hr) ?_
    rintro x a y ⟨hAgree, hCounted⟩ ⟨hBlocks, hCount⟩ hStep
    exact ⟨hAgree.step hr hBlocks hStep, hCounted.step hAgree hr hCount hStep⟩
  refine ⟨?_, fun b hb => h.bit_iff hr.toValid hb, fun info => h.hasSubPiece_iff hr,
    fun start => h.getNextNullSubPiece hr, h.isFull_iff hr⟩
  rw [hCounted, Finset.card_filter]
  rfl

section Runs

/-- A block is downloaded, written to the disk, forgotten and read again. -/
theorem consistent_of_disk_run : ∃ m : SubPieceManager (List Bool),
    (m.nodeAt 0).isSome = true ∧ m.hasFullBlock 0 = true ∧
      Consistent (singleBlock 1024 (by decide)) m := by
  obtain ⟨start, m, hRun, hNew, run⟩ := runFresh_reaches ⟨true, fun _ => Guid.zero⟩
    (singleBlock 1024 (by decide))
    [.addSubPiece (.make 0 0) ⟨List.replicate 1024 0, true⟩,
      .removeBlockDataFromMemCache 0, .setBlockReading 0]
    (fun m op => op.KeepsBlocks (singleBlock 1024 (by decide)) m ∧
      op.KeepsCount ⟨true, fun _ => Guid.zero⟩ m) (by decide +kernel)
    fun _ _ => ⟨⟨Or.inl (by decide +kernel), trivial⟩, fun _ _ => ⟨⟨trivial, Or.inl rfl⟩,
      fun _ _ => ⟨⟨trivial, trivial⟩, fun _ _ => trivial⟩⟩⟩
  have hState : ((runFresh ⟨true, fun _ => Guid.zero⟩ (singleBlock 1024 (by decide))
      [.addSubPiece (.make 0 0) ⟨List.replicate 1024 0, true⟩,
        .removeBlockDataFromMemCache 0, .setBlockReading 0]).map fun m =>
      ((m.nodeAt 0).isSome, m.hasFullBlock 0)) = some (true, true) := by decide +kernel
  rw [hRun, Option.map_some, Option.some.injEq, Prod.mk.injEq] at hState
  exact ⟨m, hState.1, hState.2, consistent_of_run
    ⟨⟨by decide, ⟨2048, by decide⟩, by decide⟩, by decide, by decide⟩ (.fresh false false hNew) run⟩

/-- Without a disk, evicting a block of which only subpiece 0 is there drops its
node, and the block stays counted. -/
theorem consistent_of_eviction_fails :
    ¬ ∀ (build : Build) (r : RidInfo) (start m : SubPieceManager (List Bool)), r.Addressable →
      Starts r start → Reaches (Step build) (fun m op => op.KeepsBlocks r m) start m →
      Consistent r m := by
  intro h
  obtain ⟨start, m, hRun, hNew, run⟩ := runFresh_reaches ⟨false, fun _ => Guid.zero⟩
    (singleBlock 2048 (by decide))
    [.addSubPiece (.make 0 0) ⟨List.replicate 1024 0, true⟩,
      .removeBlockDataFromMemCache 0]
    (fun m op => op.KeepsBlocks (singleBlock 2048 (by decide)) m)
    (by decide +kernel)
    fun _ _ => ⟨Or.inl (by decide +kernel), fun _ _ => ⟨trivial, fun _ _ => trivial⟩⟩
  have hCount := (h _ _ start m ⟨⟨by decide, ⟨2048, by decide⟩, by decide⟩, by decide, by decide⟩
    (.fresh false false hNew) run).count_eq
  have hState : ((runFresh ⟨false, fun _ => Guid.zero⟩ (singleBlock 2048 (by decide))
      [.addSubPiece (.make 0 0) ⟨List.replicate 1024 0, true⟩,
        .removeBlockDataFromMemCache 0]).map fun m =>
      (m.blocksCount, (m.nodeAt 0).isSome, m.hasFullBlock 0)) = some (1, false, false) := by
    decide +kernel
  rw [hRun, Option.map_some, Option.some.injEq, Prod.mk.injEq, Prod.mk.injEq] at hState
  obtain ⟨hOne, hNode, hBit⟩ := hState
  rw [hOne, show (singleBlock 2048 (by decide)).blockCount = 1 from rfl, Finset.range_one,
    Finset.filter_singleton, hNode, hBit] at hCount
  simp at hCount

end Runs

end SubPieceManager

end Storage
