import Peer.Storage.Accounting
import Peer.Storage.SnapshotResume

/-! The progress that `Parse` computes for a store that was written with `ToBuffer`.
It subtracts what the records say is missing from the length of the file. -/
namespace Storage

open Basis

namespace SubPieceManager

variable {μ : Type} [BlockMap μ] {r : RidInfo} {m m' : SubPieceManager μ} {buf : Bytes}

/-- The number of bytes of the subpieces that `HasSubPiece` is true of. -/
def presentBytes (r : RidInfo) (m : SubPieceManager μ) : Nat :=
  ∑ b ∈ Finset.range r.blockCount, ∑ s ∈ Finset.range (r.capacity b),
    if m.hasSubPiece (.make b s) then r.subpieceSize b s else 0

/-- What `Parse` promises of its counters, with the records it read and the number
of missing subpieces it counted: they are exact, and no difference is negative. -/
structure Progress (r : RidInfo) (m' : SubPieceManager μ)
    (records : List (Nat × Option BlockNode)) (nulls : Nat) : Prop where
  bytes_eq : m'.downloadBytes = presentBytes r m'
  count_eq : m'.blocksCount = ((Finset.range r.blockCount).filter fun b =>
    ∃ s < r.capacity b, m'.hasSubPiece (.make b s) = true).card
  nodes_le : ∀ record ∈ records, ∀ node, record.2 = some node →
    node.size ≤ node.totalSubpieceCount
  blocks_le : (records.filter fun record => record.2.isNone).length ≤ r.blockCount
  bytes_le : if m'.hasSubPiece m'.lastSubpieceInfo then
      nulls * bytesNumPerSubpiece ≤ r.fileLength
    else 1 ≤ nulls ∧
      (nulls - 1) * bytesNumPerSubpiece + r.fileLength % bytesNumPerSubpiece ≤ r.fileLength

/-- A block without its bit comes back when its node has a single piece. -/
def ComesBack (r : RidInfo) (m : SubPieceManager μ) (b : Nat) : Prop :=
  m.hasFullBlock b = false ∧ (m.nodeAt b).isSome = true ∧ r.capacity b ≤ subpieceNumPerPiece

instance (b : Nat) : Decidable (ComesBack r m b) := by
  unfold ComesBack
  infer_instance

/-- A block that the resumed store does not have. -/
def Gone (r : RidInfo) (m : SubPieceManager μ) (b : Nat) : Prop :=
  m.hasFullBlock b = false ∧ ¬ ComesBack r m b

instance (b : Nat) : Decidable (Gone r m b) := by
  unfold Gone
  infer_instance

/-- The subpieces of the blocks that come back, which `Parse` counts as missing. -/
def miscounted (r : RidInfo) (m : SubPieceManager μ) : Nat :=
  ∑ b ∈ Finset.range r.blockCount, if ComesBack r m b then r.capacity b else 0

/-- The subpieces that are missing in the resumed store. -/
def goneSubpieces (r : RidInfo) (m : SubPieceManager μ) : Nat :=
  ∑ b ∈ Finset.range r.blockCount, if Gone r m b then r.capacity b else 0

/-- The bytes that are there in the resumed store. -/
def keptBytes (r : RidInfo) (m : SubPieceManager μ) : Nat :=
  ∑ b ∈ Finset.range r.blockCount, if Gone r m b then 0 else r.blockBytes b

theorem NodeShape.total_eq (hm : BuiltFor r m) (hr : r.Addressable) {b : Nat}
    (hb : b < r.blockCount) {node : BlockNode} (h : NodeShape r b node) :
    node.totalSubpieceCount = r.capacity b := by
  rcases h.total_cases with hNew | hDisk
  · rw [hNew, ← hm.newBlockCapacity, hm.newBlockCapacity_eq hr hb]
  · rw [hDisk, ← hm.getBlockSubPieceCount, hm.getBlockSubPieceCount_eq hr hb]

/-- What `Parse` makes of one record. -/
inductive RecordOf (r : RidInfo) (m : SubPieceManager μ) : Nat × Option BlockNode → Prop where
  | gone {b : Nat} (h : Gone r m b) : RecordOf r m (b, none)
  | back {b : Nat} {held : BlockNode} (h : ComesBack r m b) (hHeld : BlockNode.OnDiskOnly b held)
      (hTotal : held.totalSubpieceCount = r.capacity b) : RecordOf r m (b, some held)

/-- The records that are read are those of the blocks without their bit, in order. -/
theorem records_of_toBuffer (h : Shaped r m) (hr : r.Addressable) (hBuf : m.toBuffer = some buf)
    {records : List (Nat × Option BlockNode)} (hRecords : Records buf r.blockCount 0 records) :
    records.map Prod.fst = (List.range r.blockCount).filter (fun b => !m.hasFullBlock b) ∧
      ∀ record ∈ records, RecordOf r m record := by
  obtain ⟨hBytes, hSize, hWritten⟩ := toBuffer_eq_some hBuf
  rw [h.builtFor.length_eq] at hBytes hWritten
  obtain ⟨hMap, hPayloads⟩ := records_of_blockRecords (m := m) [] (by simpa using hBytes) (by omega)
    (fun b hb => Nat.lt_trans (List.mem_range.mp hb) r.blockCount_lt) hRecords
  refine ⟨hMap, ?_⟩
  rintro ⟨b, node?⟩ hMem
  have hPayload := hPayloads _ hMem
  have hListed : b ∈ records.map Prod.fst := List.mem_map_of_mem hMem
  rw [hMap, List.mem_filter, List.mem_range, Bool.not_eq_true'] at hListed
  obtain ⟨hb, hBit⟩ := hListed
  dsimp only at hPayload
  cases hNode : m.nodeAt b with
  | none =>
      simp only [blockBuffer, hNode, Option.getD_some, BlockNode.parse_nullBlock] at hPayload
      cases hPayload
      refine .gone ⟨hBit, fun hBack => ?_⟩
      have hSome := hBack.2.1
      simp [hNode] at hSome
  | some node =>
      have hSome := hWritten b hb hBit
      have hShape := h.nodes b node hNode
      simp only [blockBuffer, hNode] at hPayload hSome
      obtain ⟨bytes, hToBuffer⟩ := Option.isSome_iff_exists.mp hSome
      rw [hToBuffer, Option.getD_some] at hPayload
      obtain ⟨-, hParsed⟩ := parse_nodeBuffer hr.toValid hShape hToBuffer hPayload
      rw [hShape.total_eq h.builtFor hr hb] at hParsed
      rcases hParsed with ⟨hMany, rfl⟩ | ⟨hSingle, held, rfl, hHeld, hTotal⟩
      · exact .gone ⟨hBit, fun hBack => by
          have hLe := hBack.2.2
          omega⟩
      · exact .back ⟨hBit, by simp [hNode], hSingle⟩ hHeld hTotal

/-- A resumed store, before the number of bytes is computed. -/
structure Resumed (r : RidInfo) (m : SubPieceManager μ) (state : SubPieceManager μ × Nat) :
    Prop where
  builtFor : BuiltFor r state.1
  counted : Counted r state.1
  bits : ∀ b < r.blockCount, state.1.hasFullBlock b = m.hasFullBlock b
  nodes : ∀ b < r.blockCount, m.hasFullBlock b = false →
    (Gone r m b ∧ state.1.nodeAt b = none) ∨ (ComesBack r m b ∧
      ∃ held, state.1.nodeAt b = some held ∧ BlockNode.OnDiskOnly b held)
  nulls_eq : state.2 = goneSubpieces r m + miscounted r m

theorem missing_split (b : Nat) : missing r b (m.nodeAt b) (m.hasFullBlock b) =
    (if Gone r m b then r.capacity b else 0) + if ComesBack r m b then r.capacity b else 0 := by
  by_cases hBack : ComesBack r m b
  · have hNot : ¬ Gone r m b := fun hGone => hGone.2 hBack
    rw [if_neg hNot, if_pos hBack, missing, hBack.1, if_neg Bool.false_ne_true, Nat.zero_add]
  · rw [if_neg hBack, Nat.add_zero, missing]
    cases hBit : m.hasFullBlock b with
    | true => simp [Gone, hBit]
    | false => simp [Gone, hBit, hBack]

theorem resumed_of_records (h : Shaped r m) (hr : r.Addressable) (hBuf : m.toBuffer = some buf)
    {verify : Bool} {fresh : SubPieceManager μ} (hNew : new r true verify = some fresh)
    {records : List (Nat × Option BlockNode)} (hRecords : Records buf r.blockCount 0 records) :
    Resumed r m (applyRecords (fresh, 0) records) := by
  obtain ⟨hMap, hOf⟩ := records_of_toBuffer h hr hBuf hRecords
  obtain ⟨-, hm, -, hBits, -⟩ := new_eq_some hNew
  have hNodup : (records.map Prod.fst).Nodup := by
    rw [hMap]
    exact List.nodup_range.filter _
  have hIndex : ∀ record ∈ records, record.1 < fresh.blocks.length := by
    rw [hm.length_eq]
    exact hRecords.index_lt
  have hSame : ∀ b < r.blockCount,
      (applyRecords (fresh, 0) records).1.hasFullBlock b = m.hasFullBlock b := by
    intro b hb
    rw [applyRecords_hasFullBlock 0 hm.sized hIndex (hm.length_eq ▸ hb), hBits b hb, hMap]
    cases hBit : m.hasFullBlock b <;> simp [hb, hBit]
  have hKept := applyRecords_once_induction
    (P := fun s nulls => Counted r s ∧ nulls = tally r.blockCount (missing r) s) 0
    hRecords.index_lt hNodup (fun s nulls record hMem hs hBit hP => by
      have hb := hRecords.index_lt record hMem
      refine ⟨hP.1.applyRecord hs hr hb hBit record.2, nulls_applyRecord hP.2 hs hr hb hBit ?_⟩
      intro node hNode
      have hRecord := hOf record hMem
      obtain ⟨b, node?⟩ := record
      cases hRecord with
      | gone _ => cases hNode
      | back _ hHeld hTotal =>
          cases hNode
          have hCap := RidInfo.capacity_lt hr.toValid b
          rw [BlockNode.getCurrNullSubPieceCount, BlockNode.size_eq, hHeld.keys_eq, hTotal,
            Finset.card_empty, subU32_of_le (by omega) (Nat.zero_le _), Nat.sub_zero]) hm
    (fun record hMem => hBits _ (hRecords.index_lt record hMem))
    ⟨(counted_new hNew).2, (Finset.sum_eq_zero fun b hb => by
      rw [missing, hBits b (Finset.mem_range.mp hb), if_pos rfl]).symm⟩
  refine ⟨applyRecords_builtFor 0 hm hRecords.index_lt, hKept.1, hSame, ?_, ?_⟩
  · intro b hb hBit
    rcases applyRecords_nodeAt 0 hm.sized hIndex b with
      ⟨-, hUnlisted⟩ | ⟨before, node?, after, hSplit, -, hFound⟩
    · have hListed : b ∈ records.map Prod.fst := by
        rw [hMap]
        simp [hb, hBit]
      obtain ⟨record, hMem, hFst⟩ := List.mem_map.mp hListed
      exact absurd hFst (hUnlisted record hMem)
    · rw [hFound]
      have hRecord := hOf (b, node?) (by simp [hSplit])
      cases hRecord with
      | gone hGone => exact Or.inl ⟨hGone, rfl⟩
      | back hBack hHeld _ => exact Or.inr ⟨hBack, _, rfl, hHeld⟩
  · rw [hKept.2, goneSubpieces, miscounted, ← Finset.sum_add_distrib, tally]
    apply Finset.sum_congr rfl
    intro b hb
    rw [← missing_split, missing, missing, hSame b (Finset.mem_range.mp hb)]

section Counters

variable {state : SubPieceManager μ × Nat} (h : Resumed r m state) (hr : r.Addressable)
include h hr

/-- The store answers to have the subpieces of every block that is not gone. -/
theorem Resumed.hasSubPiece_iff {b s : Nat} (hb : b < r.blockCount) :
    state.1.hasSubPiece (.make b s) = true ↔ ¬ Gone r m b := by
  have hCount := hr.blockCount_le
  have hBlock : u16 b = b := u16_of_lt (by omega)
  rw [hasSubPiece, SubPieceInfo.make_blockIndex, hBlock, h.bits b hb]
  cases hBit : m.hasFullBlock b with
  | true => simp [Gone, hBit]
  | false =>
      rcases h.nodes b hb hBit with ⟨hGone, hNode⟩ | ⟨hBack, held, hNode, hHeld⟩
      · simp [hNode, hGone]
      · have hNot : ¬ Gone r m b := fun hGone => hGone.2 hBack
        simp [hNode, hNot, BlockNode.hasSubPiece, BlockNode.isBlockSavedOnDisk, hHeld.state_eq]

theorem Resumed.bytes_eq : presentBytes r state.1 = keptBytes r m := by
  apply Finset.sum_congr rfl
  intro b hb
  have hEach := fun s => h.hasSubPiece_iff hr (s := s) (Finset.mem_range.mp hb)
  by_cases hGone : Gone r m b <;> simp [hEach, hGone, RidInfo.blockBytes]

theorem Resumed.count_eq : state.1.blocksCount = ((Finset.range r.blockCount).filter fun b =>
    ∃ s < r.capacity b, state.1.hasSubPiece (.make b s) = true).card := by
  rw [h.counted, Finset.card_filter]
  apply Finset.sum_congr rfl
  intro b hb
  have hb := Finset.mem_range.mp hb
  have hPos := RidInfo.capacity_pos hr.toValid b
  have hEach := fun s => h.hasSubPiece_iff hr (s := s) hb
  rw [occupied, h.bits b hb]
  apply if_congr _ rfl rfl
  simp only [hEach]
  constructor
  · intro hOccupied
    refine ⟨0, hPos, ?_⟩
    rcases hOccupied with hSome | hBit
    · intro hGone
      rcases h.nodes b hb hGone.1 with ⟨-, hNode⟩ | ⟨hBack, -⟩
      · simp [hNode] at hSome
      · exact hGone.2 hBack
    · intro hGone
      have hUnset := hGone.1
      simp [hBit] at hUnset
  · rintro ⟨-, -, hKept⟩
    cases hBit : m.hasFullBlock b with
    | true => exact Or.inr rfl
    | false =>
        rcases h.nodes b hb hBit with ⟨hGone, -⟩ | ⟨-, held, hNode, -⟩
        · exact absurd hGone hKept
        · exact Or.inl (by simp [hNode])

end Counters

/-- What is kept and what is gone make up the file. -/
theorem kept_add_gone (hr : r.Valid) (hCount : 0 < r.blockCount) :
    keptBytes r m + bytesNumPerSubpiece * goneSubpieces r m =
      r.fileLength + if Gone r m (r.blockCount - 1) then shortfall r (r.blockCount - 1) else 0 := by
  have hEach : ∀ b ∈ Finset.range r.blockCount,
      (if Gone r m b then 0 else r.blockBytes b) +
          bytesNumPerSubpiece * (if Gone r m b then r.capacity b else 0) =
        r.blockBytes b + if b = r.blockCount - 1 then
          (if Gone r m (r.blockCount - 1) then shortfall r (r.blockCount - 1) else 0) else 0 := by
    intro b _
    have hBlock := blockBytes_add_shortfall hr b
    by_cases hb : b = r.blockCount - 1
    · subst hb
      split <;> simp [hBlock]
    · rw [shortfall, if_neg hb] at hBlock
      split <;> simp [← hBlock]
  rw [keptBytes, goneSubpieces, Finset.mul_sum, ← Finset.sum_add_distrib, Finset.sum_congr rfl hEach,
    Finset.sum_add_distrib, RidInfo.sum_blockBytes hr, Finset.sum_ite_eq' (Finset.range r.blockCount),
    if_pos (Finset.mem_range.mpr (by omega))]

theorem lastInfoOf_make (hr : r.Addressable) (hLength : 0 < r.fileLength) (hCount : 0 < r.blockCount) :
    lastInfoOf r = SubPieceInfo.make (r.blockCount - 1) r.lastSubpiece := by
  obtain ⟨hBlock, hSub⟩ := lastInfoOf_eq hr hLength
  have hBlocks := hr.blockCount_le
  have hLast := hr.toValid.lastSubpiece_lt
  have hSize := hr.blockSize_le
  apply SubPieceInfo.ext
  · rw [hBlock, SubPieceInfo.make_blockIndex, u16_of_lt (by omega)]
  · rw [hSub, SubPieceInfo.make_subpieceIndex, u16_of_lt (by omega)]

/-- The bytes of the file from its end, when the last subpiece is there. -/
theorem bytes_of_kept {length kept gone extra : Nat} (hLength : length < 2 ^ 32)
    (hSum : kept + 1024 * gone = length) :
    (subU32 length (u32 ((gone + extra) * 1024)) = kept ∧ (gone + extra) * 1024 ≤ length) ↔
      extra = 0 := by
  constructor
  · rintro ⟨hBytes, hLe⟩
    rw [u32_of_lt (by omega), subU32_of_le hLength hLe] at hBytes
    omega
  · rintro rfl
    rw [u32_of_lt (by omega), subU32_of_le hLength (by omega)]
    omega

/-- The same when the last subpiece is missing: `Parse` takes its length for the
remainder of the file length, which is 0 when it is a whole subpiece. -/
theorem bytes_of_gone {length kept gone extra : Nat} (hLength : length < 2 ^ 32)
    (hPos : 0 < length) (hGone : 1 ≤ gone)
    (hSum : kept + 1024 * gone = length + (1024 - ((length - 1) % 1024 + 1))) :
    (subU32 length (u32 (u32 (subU32 (gone + extra) 1 * 1024) + length % 1024)) = kept ∧
        1 ≤ gone + extra ∧ (gone + extra - 1) * 1024 + length % 1024 ≤ length) ↔
      extra = if length % 1024 = 0 then 1 else 0 := by
  constructor
  · rintro ⟨hBytes, hOne, hLe⟩
    rw [subU32_of_le (by omega) hOne, u32_of_lt (n := (gone + extra - 1) * 1024) (by omega),
      u32_of_lt (by omega), subU32_of_le hLength hLe] at hBytes
    split <;> omega
  · intro hExtra
    have hLe : (gone + extra - 1) * 1024 + length % 1024 ≤ length := by
      split at hExtra <;> omega
    have hOne : 1 ≤ gone + extra := by omega
    refine ⟨?_, hOne, hLe⟩
    rw [subU32_of_le (by omega) hOne, u32_of_lt (n := (gone + extra - 1) * 1024) (by omega),
      u32_of_lt (by omega), subU32_of_le hLength hLe]
    split at hExtra <;> omega

/-- The progress of a resumed store is exact exactly when the miscounted subpieces
make up for a last subpiece of 1024 bytes that `Parse` takes for one of none. -/
theorem resumedProgress_iff (h : Shaped r m) (hr : r.Addressable) (hBuf : m.toBuffer = some buf)
    {verify : Bool} {fresh : SubPieceManager μ} (hNew : new r true verify = some fresh)
    {records : List (Nat × Option BlockNode)} (hRecords : Records buf r.blockCount 0 records)
    (hParse : parse buf r verify = .ok (some m')) :
    Progress r m' records (applyRecords (fresh, 0) records).2 ↔
      miscounted r m =
        if Gone r m (r.blockCount - 1) ∧ r.fileLength % bytesNumPerSubpiece = 0 then 1 else 0 := by
  obtain ⟨fresh', read, hNew', hRead, hIndex, hState⟩ := parse_eq_some hParse
  obtain rfl : fresh = fresh' := Option.some.inj (hNew.symm.trans hNew')
  have hResumed := resumed_of_records h hr hBuf hNew hRead
  have hNulls := (resumed_of_records h hr hBuf hNew hRecords).nulls_eq
  generalize applyRecords (fresh, 0) read = state at hResumed hState
  generalize (applyRecords (fresh, 0) records).2 = nulls at hNulls
  have hm := hResumed.builtFor
  have hCount : 0 < r.blockCount := by
    rw [hState] at hIndex
    have hLt : state.1.lastSubpieceInfo.blockIndex < state.1.blocks.length := hIndex
    rw [hm.length_eq] at hLt
    omega
  have hLength := hr.fileLength_pos hCount
  have hHas : ∀ info, m'.hasSubPiece info = state.1.hasSubPiece info := fun info => hState ▸ rfl
  have hLast : m'.hasSubPiece m'.lastSubpieceInfo = true ↔ ¬ Gone r m (r.blockCount - 1) := by
    have hInfo : m'.lastSubpieceInfo = .make (r.blockCount - 1) r.lastSubpiece := by
      rw [← lastInfoOf_make hr hLength hCount, ← hm.lastInfo_eq, hState]
    rw [hHas, hInfo, hResumed.hasSubPiece_iff hr (by omega)]
  have hBytes : m'.downloadBytes = state.1.parsedBytes nulls := by
    rw [hNulls, ← hResumed.nulls_eq, hState]
  have hParsed : state.1.parsedBytes nulls =
      if Gone r m (r.blockCount - 1) then
        subU32 r.fileLength (u32 (u32 (subU32 nulls 1 * bytesNumPerSubpiece) +
          r.fileLength % bytesNumPerSubpiece))
      else subU32 r.fileLength (u32 (nulls * bytesNumPerSubpiece)) := by
    have hSame : state.1.hasSubPiece state.1.lastSubpieceInfo = m'.hasSubPiece m'.lastSubpieceInfo := by
      rw [hHas, hState]
    rw [parsedBytes, hSame, hm.fileLength_eq]
    by_cases hGone : Gone r m (r.blockCount - 1)
    · rw [if_neg fun hHeld => hLast.mp hHeld hGone, if_pos hGone]
    · rw [if_pos (hLast.mpr hGone), if_neg hGone]
  have hPresent : presentBytes r m' = keptBytes r m := by
    rw [← hResumed.bytes_eq hr, hState]
    rfl
  obtain ⟨hMap, hOf⟩ := records_of_toBuffer h hr hBuf hRecords
  -- What remains is the number of bytes, and its differences.
  have hProgress : Progress r m' records nulls ↔ m'.downloadBytes = keptBytes r m ∧
      if m'.hasSubPiece m'.lastSubpieceInfo then nulls * bytesNumPerSubpiece ≤ r.fileLength
      else 1 ≤ nulls ∧ (nulls - 1) * bytesNumPerSubpiece +
        r.fileLength % bytesNumPerSubpiece ≤ r.fileLength := by
    constructor
    · intro hAll
      exact ⟨hAll.bytes_eq.trans hPresent, hAll.bytes_le⟩
    · rintro ⟨hEq, hLe⟩
      refine ⟨hEq.trans hPresent.symm, ?_, ?_, ?_, hLe⟩
      · simp only [hHas]
        have hSame : m'.blocksCount = state.1.blocksCount := by rw [hState]
        exact hSame.trans (hResumed.count_eq hr)
      · intro record hMem node hNode
        have hRecord := hOf record hMem
        obtain ⟨b, node?⟩ := record
        cases hRecord with
        | gone _ => cases hNode
        | back _ hHeld _ =>
            cases hNode
            rw [BlockNode.size_eq, hHeld.keys_eq, Finset.card_empty]
            exact Nat.zero_le _
      · have hAll : records.length ≤ r.blockCount := by
          rw [← List.length_map (f := Prod.fst), hMap]
          exact (List.length_filter_le _ _).trans (by simp)
        exact (List.length_filter_le _ _).trans hAll
  have hSum := kept_add_gone (m := m) hr.toValid hCount
  rw [hProgress, hBytes, hParsed, hNulls]
  simp only [bytesNumPerSubpiece] at hSum ⊢
  by_cases hGone : Gone r m (r.blockCount - 1)
  · rw [if_pos hGone, if_neg fun hHeld => hLast.mp hHeld hGone]
    have hOne : 1 ≤ goneSubpieces r m := by
      have hLe := le_sum_range (n := r.blockCount) (i := r.blockCount - 1)
        (f := fun b => if Gone r m b then r.capacity b else 0) (by omega)
      have hCap := RidInfo.capacity_pos hr.toValid (r.blockCount - 1)
      rw [if_pos hGone] at hLe
      exact Nat.le_trans hCap hLe
    rw [if_pos hGone, shortfall, if_pos rfl, RidInfo.subpieceSize, if_pos ⟨rfl, rfl⟩] at hSum
    rw [bytes_of_gone r.fileLength_lt hLength hOne hSum]
    simp [hGone]
  · rw [if_neg hGone, if_pos (hLast.mpr hGone)]
    rw [if_neg hGone, Nat.add_zero] at hSum
    rw [bytes_of_kept r.fileLength_lt hSum]
    simp [hGone]

section Runs

/-- A file of `length` bytes in blocks of one subpiece. -/
def smallBlocks (length : Nat) (h : length < 2 ^ 32) : RidInfo where
  rid := Guid.zero
  fileLength := length
  blockSize := 1024
  blockCount := (length + 1023) / 1024
  blockMd5s := []
  fileLength_lt := h
  blockSize_lt := oneKib_lt_uint32
  blockCount_lt := by omega

/-- Of three blocks the first is there; the last one has a single byte. -/
theorem resumedProgress_of_firstBlock : ∃ (m m' : SubPieceManager (List Bool))
    (records : List (Nat × Option BlockNode)) (nulls : Nat), m.hasFullBlock 0 = true ∧
      Progress (smallBlocks 2049 (by decide)) m' records nulls ∧ m'.downloadBytes = 1024 := by
  obtain ⟨start, m, buf, m', hRun, hNew, run, hBuf, hParse⟩ :=
    resumeAfterOne_run (r := smallBlocks 2049 (by decide)) (by decide +kernel)
  have hShaped : Shaped (smallBlocks 2049 (by decide)) m :=
    (SnapshotReady.of_run hNew run).toShaped
  have hState : (resumeAfterOne (smallBlocks 2049 (by decide))).map (fun x =>
      (x.2.1.hasFullBlock 0, miscounted (smallBlocks 2049 (by decide)) x.2.1,
        x.2.2.2.downloadBytes)) = some (true, 0, 1024) := by decide +kernel
  rw [hRun] at hState
  simp only [Option.map_some, Option.some.injEq, Prod.mk.injEq] at hState
  obtain ⟨hBit, hNone, hBytes⟩ := hState
  obtain ⟨fresh, records, hFresh, hRecords, -⟩ := parse_eq_some hParse
  have hr : (smallBlocks 2049 (by decide)).Addressable :=
    ⟨⟨by decide, ⟨1, by decide⟩, by decide⟩, by decide, by decide⟩
  have hMod : ¬ (smallBlocks 2049 (by decide)).fileLength % bytesNumPerSubpiece = 0 := by decide
  have hNoMiscount : miscounted (smallBlocks 2049 (by decide)) m =
      if Gone (smallBlocks 2049 (by decide)) m ((smallBlocks 2049 (by decide)).blockCount - 1) ∧
        (smallBlocks 2049 (by decide)).fileLength % bytesNumPerSubpiece = 0 then 1 else 0 := by
    rw [hNone, if_neg fun hLast => hMod hLast.2]
  have hProgress := (resumedProgress_iff hShaped hr hBuf hFresh hRecords hParse).mpr hNoMiscount
  exact ⟨m, m', records, _, hBit, hProgress, hBytes⟩

/-- Of two whole blocks the first is there, and the progress is that of the file. -/
theorem resumedProgress_fails : ∃ (m m' fresh : SubPieceManager (List Bool)) (buf : Bytes)
    (records : List (Nat × Option BlockNode)), Shaped (smallBlocks 2048 (by decide)) m ∧
      m.toBuffer = some buf ∧ new (smallBlocks 2048 (by decide)) true false = some fresh ∧
      Records buf 2 0 records ∧
      parse buf (smallBlocks 2048 (by decide)) false = .ok (some m') ∧
      ¬ Progress (smallBlocks 2048 (by decide)) m' records
        (applyRecords (fresh, 0) records).2 := by
  obtain ⟨start, m, buf, m', hRun, hNew, run, hBuf, hParse⟩ :=
    resumeAfterOne_run (r := smallBlocks 2048 (by decide)) (by decide +kernel)
  have hShaped : Shaped (smallBlocks 2048 (by decide)) m :=
    (SnapshotReady.of_run hNew run).toShaped
  have hState : (resumeAfterOne (smallBlocks 2048 (by decide))).map (fun x =>
      decide (x.2.2.2.downloadBytes = presentBytes (smallBlocks 2048 (by decide)) x.2.2.2)) =
        some false := by
    decide +kernel
  rw [hRun] at hState
  simp only [Option.map_some, Option.some.injEq, decide_eq_false_iff_not] at hState
  obtain ⟨fresh, records, hFresh, hRecords, -⟩ := parse_eq_some hParse
  exact ⟨m, m', fresh, buf, records, hShaped, hBuf, hFresh, hRecords, hParse,
    fun hProgress => hState hProgress.bytes_eq⟩

end Runs

end SubPieceManager

end Storage
