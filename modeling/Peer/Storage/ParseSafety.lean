import Peer.Storage.BlockMapParse

/-! When parsing a block map that nobody checked is safe. -/
namespace Storage

open Basis

namespace SubPieceManager

variable {μ : Type} [BlockMap μ] {buf : Bytes} {count o : Nat}

/-- A call of `Parse` that ends, reads and writes only where it may, wraps no sum,
and gives a null pointer or a store whose nodes have the capacities of the file. -/
def ParsesSafely (μ : Type) [BlockMap μ] (buf : Bytes) (r : RidInfo) (needVerifyBlock : Bool) :
    Prop :=
  ∃ result : Option (SubPieceManager μ), parse buf r needVerifyBlock = .ok result ∧
    ∀ m, result = some m → ∀ b node, m.nodeAt b = some node →
      node.totalSubpieceCount = m.getBlockSubPieceCount b

/-- The record at `o` is the last one of its block. -/
def LastListing (buf : Bytes) (count o : Nat) : Prop :=
  ∀ o', Visits (nextBlock buf count) (blockEnd buf o) o' → o' < buf.length →
    blockIndexAt buf o' ≠ blockIndexAt buf o

/-- Bytes and RID information on which `Parse` is safe: there is a block size and,
for an empty map, a block; every record that is visited is safe; and when the map
is read to its end, a record that decides on a node carries the capacity. -/
structure SafeInput (buf : Bytes) (r : RidInfo) : Prop where
  blockSize_ne : r.blockSize ≠ 0
  block_exists : buf = [] → r.blockCount ≠ 0
  records_safe : ∀ o, Visits (nextBlock buf r.blockCount) 0 o → o < buf.length →
    BlockSafe buf r.blockCount o
  totals : Visits (nextBlock buf r.blockCount) 0 buf.length →
    ∀ o, Visits (nextBlock buf r.blockCount) 0 o → o < buf.length →
      BlockNode.Kept (payloadAt buf o) → LastListing buf r.blockCount o →
      BlockNode.totalAt (payloadAt buf o) = subPieceCountOf r (blockIndexAt buf o)

theorem nextBlock_of_parse {index : Nat} {node? : Option BlockNode} (ho : o < buf.length)
    (hRecord : BlockRecordOk buf count o) (hCopy : blockLengthAt buf o ≤ 0x3FFFFFFF)
    (hParse : BlockNode.parse index (payloadAt buf o) = .ok (some node?)) :
    nextBlock buf count o = some (blockEnd buf o) := by
  have hSize : (payloadAt buf o).length ≤ 0x3FFFFFFF := by
    rw [payloadAt_length hRecord]
    exact hCopy
  refine nextBlock_eq_some.mpr ⟨⟨ho, hRecord, ?_⟩, rfl⟩
  cases BlockNode.parse_result hSize hParse with
  | noNode h => exact h
  | kept _ h => exact h

/-- Reading all records is a walk to the end of the buffer. -/
theorem Records.visits_end {records : List (Nat × Option BlockNode)}
    (h : Records buf count o records) (ho : o ≤ buf.length) :
    Visits (nextBlock buf count) o buf.length := by
  induction h with
  | done hEnd =>
      rw [Nat.le_antisymm ho hEnd]
      exact Visits.refl _
  | more hLt hRecord hCopy hParse _ ih =>
      exact (ih hRecord.2).head (nextBlock_of_parse hLt hRecord hCopy hParse)

/-- A visited offset has its record in the list. -/
theorem Records.split_of_visits {records : List (Nat × Option BlockNode)} {o' : Nat}
    (h : Records buf count o records) (hVisits : Visits (nextBlock buf count) o o')
    (ho' : o' < buf.length) :
    ∃ before node? after, records = before ++ (blockIndexAt buf o', node?) :: after ∧
      blockLengthAt buf o' ≤ 0x3FFFFFFF ∧ BlockRecordOk buf count o' ∧
      BlockNode.parse (blockIndexAt buf o') (payloadAt buf o') = .ok (some node?) ∧
      Records buf count (blockEnd buf o') after := by
  induction h with
  | done hEnd =>
      have hStop : ∀ x, buf.length ≤ x → nextBlock buf count x = none :=
        fun x hx => if_neg fun h => absurd h.1 (Nat.not_lt.mpr hx)
      rw [(visits_of_stop (hStop _ hEnd)).mp hVisits] at ho'
      omega
  | @more here node? rest hLt hRecord hCopy hParse hRest ih =>
      rcases (visits_of_step (nextBlock_of_parse hLt hRecord hCopy hParse)).mp hVisits with
        rfl | hLater
      · exact ⟨[], node?, rest, rfl, hCopy, hRecord, hParse, hRest⟩
      · obtain ⟨before, node?', after, rfl, hFacts⟩ := ih hLater
        exact ⟨_ :: before, node?', after, rfl, hFacts⟩

/-- A record of the list is at a visited offset. -/
theorem Records.visits_of_split {records : List (Nat × Option BlockNode)}
    (h : Records buf count o records) {before after : List (Nat × Option BlockNode)}
    {record : Nat × Option BlockNode} (hSplit : records = before ++ record :: after) :
    ∃ o', Visits (nextBlock buf count) o o' ∧ o' < buf.length ∧ blockIndexAt buf o' = record.1 ∧
      blockLengthAt buf o' ≤ 0x3FFFFFFF ∧ BlockRecordOk buf count o' ∧
      BlockNode.parse (blockIndexAt buf o') (payloadAt buf o') = .ok (some record.2) ∧
      Records buf count (blockEnd buf o') after := by
  induction h generalizing before with
  | done => simp at hSplit
  | @more here node? rest hLt hRecord hCopy hParse hRest ih =>
      cases before with
      | nil =>
          cases hSplit
          exact ⟨here, Visits.refl _, hLt, rfl, hCopy, hRecord, hParse, hRest⟩
      | cons first before =>
          obtain ⟨o', hVisits, hFacts⟩ := ih (List.cons.inj hSplit).2
          exact ⟨o', hVisits.head (nextBlock_of_parse hLt hRecord hCopy hParse), hFacts⟩

/-- A list has one last entry under a key. -/
private theorem last_entry_unique {α : Type} {b : Nat} {x y : α} {pre pre' post post' : List (Nat × α)}
    (hPost : ∀ e ∈ post, e.1 ≠ b) (hPost' : ∀ e ∈ post', e.1 ≠ b)
    (h : pre ++ (b, x) :: post = pre' ++ (b, y) :: post') : x = y := by
  induction pre generalizing pre' with
  | nil =>
      cases pre' with
      | nil => exact congrArg Prod.snd (List.cons.inj h).1
      | cons e rest =>
          have hMem : (b, y) ∈ post := by simp [(List.cons.inj h).2]
          exact absurd rfl (hPost _ hMem)
  | cons e rest ih =>
      cases pre' with
      | nil =>
          have hMem : (b, x) ∈ post' := by simp [← (List.cons.inj h).2]
          exact absurd rfl (hPost' _ hMem)
      | cons e' rest' => exact ih (List.cons.inj h).2

/-- The nodes of a store that was read to its end have the capacities of the file
exactly when each deciding record carries the capacity of its block. -/
theorem totals_iff {records : List (Nat × Option BlockNode)} {m : SubPieceManager μ}
    {r : RidInfo} (nulls : Nat) (hm : BuiltFor r m) (hNew : ∀ b, m.nodeAt b = none)
    (h : Records buf r.blockCount 0 records) :
    (∀ b node, (applyRecords (m, nulls) records).1.nodeAt b = some node →
        node.totalSubpieceCount = subPieceCountOf r b) ↔
      ∀ o, Visits (nextBlock buf r.blockCount) 0 o → o < buf.length →
        BlockNode.Kept (payloadAt buf o) → LastListing buf r.blockCount o →
        BlockNode.totalAt (payloadAt buf o) = subPieceCountOf r (blockIndexAt buf o) := by
  have hIndex : ∀ record ∈ records, record.1 < m.blocks.length := by
    rw [hm.length_eq]
    exact h.index_lt
  constructor
  · intro hTotals o hVisits ho hKept hLast
    obtain ⟨before, node?, after, hSplit, hCopy, hRecord, hParse, hAfter⟩ :=
      h.split_of_visits hVisits ho
    have hSize : (payloadAt buf o).length ≤ 0x3FFFFFFF := by
      rw [payloadAt_length hRecord]
      exact hCopy
    have hUnlisted : ∀ record ∈ after, record.1 ≠ blockIndexAt buf o := by
      intro record hMem
      obtain ⟨front, back, hFound⟩ := List.append_of_mem hMem
      obtain ⟨o', hVisits', ho', hIndex', -⟩ := hAfter.visits_of_split hFound
      exact hIndex' ▸ hLast o' hVisits' ho'
    cases BlockNode.parse_result hSize hParse with
    | noNode _ hNot => exact absurd hKept hNot
    | kept node _ _ hTotal _ _ =>
        have hNode : (applyRecords (m, nulls) records).1.nodeAt (blockIndexAt buf o) =
            some node := by
          rcases applyRecords_nodeAt nulls hm.sized hIndex (blockIndexAt buf o) with
            ⟨-, hNone⟩ | ⟨before', node?, after', hSplit', hAfter', hNode⟩
          · exact absurd rfl (hNone (blockIndexAt buf o, some node) (by simp [hSplit]))
          · rw [hNode]
            have hSame := last_entry_unique hUnlisted hAfter' (hSplit.symm.trans hSplit')
            exact hSame.symm
        rw [← hTotal]
        exact hTotals _ _ hNode
  · intro hRaw b node hNode
    rcases applyRecords_nodeAt nulls hm.sized hIndex b with
      ⟨hSame, -⟩ | ⟨before, node?, after, hSplit, hAfter, hFound⟩
    · rw [hSame, hNew] at hNode
      cases hNode
    · rw [hFound] at hNode
      subst hNode
      obtain ⟨o, hVisits, ho, hBlock, hCopy, hRecord, hParse, hRest⟩ := h.visits_of_split hSplit
      have hSize : (payloadAt buf o).length ≤ 0x3FFFFFFF := by
        rw [payloadAt_length hRecord]
        exact hCopy
      cases BlockNode.parse_result hSize hParse with
      | kept _ _ hKept hTotal _ _ =>
          have hLast : LastListing buf r.blockCount o := by
            intro o' hVisits' ho'
            obtain ⟨front, node?, back, hLater, -⟩ := hRest.split_of_visits hVisits' ho'
            rw [hBlock]
            exact hAfter (blockIndexAt buf o', node?) (by rw [hLater]; simp)
          rw [hTotal, hRaw o hVisits ho hKept hLast, hBlock]

/-- `Parse` is safe on exactly the safe inputs. -/
theorem parse_safe_iff (buf : Bytes) (r : RidInfo) (needVerifyBlock : Bool) :
    ParsesSafely μ buf r needVerifyBlock ↔ SafeInput buf r := by
  unfold ParsesSafely parse
  cases hNew : (new r true needVerifyBlock : Option (SubPieceManager μ)) with
  | none =>
      have hSize : r.blockSize = 0 := by
        by_contra hNe
        rw [new, if_neg hNe] at hNew
        cases hNew
      refine iff_of_false ?_ fun h => h.blockSize_ne hSize
      rintro ⟨result, h, -⟩
      cases h
  | some m =>
      obtain ⟨hSize, hm, hNone, -⟩ := new_eq_some hNew
      have hSafe := parseBlocks_safe_iff buf 0 0 hm.length_eq
        (show buf.length - 0 < buf.length + 1 by omega)
      dsimp only
      cases hLoop : parseBlocks buf (buf.length + 1) 0 m 0 with
      | error f =>
          rw [hLoop] at hSafe
          refine iff_of_false ?_ fun h => Checked.not_safe_error f (hSafe.mpr h.records_safe)
          rintro ⟨result, h, -⟩
          cases h
      | ok result =>
          rw [hLoop] at hSafe
          have hRecordsSafe := hSafe.mp (Checked.safe_ok _)
          rw [Checked.ok_bind]
          cases result with
          | none =>
              refine iff_of_true ⟨none, rfl, by simp⟩ ⟨hSize, ?_, hRecordsSafe, ?_⟩
              · intro hEmpty
                subst hEmpty
                cases hLoop
              · intro hAll
                exact absurd hLoop (parseBlocks_ne_none hm.length_eq (by omega) hAll)
          | some state =>
              obtain ⟨records, hRecords, hState⟩ := parseBlocks_records hm.length_eq hLoop
              have hBuilt := applyRecords_builtFor 0 hm hRecords.index_lt
              have hTotals := totals_iff 0 hm hNone hRecords
              have hAll := hRecords.visits_end (Nat.zero_le _)
              rw [← hState] at hBuilt hTotals
              dsimp only
              by_cases hBlock : state.1.lastSubpieceInfo.blockIndex < state.1.blocks.length
              · have hCount : r.blockCount ≠ 0 := by
                  rw [← hBuilt.length_eq]
                  omega
                rw [if_pos hBlock]
                have hNodes : ∀ b, SubPieceManager.nodeAt
                    { state.1 with downloadBytes := state.1.parsedBytes state.2 } b =
                      state.1.nodeAt b := fun _ => rfl
                constructor
                · rintro ⟨result, hResult, hProp⟩
                  have hResult := (Except.ok.inj hResult).symm
                  refine ⟨hSize, fun _ => hCount, hRecordsSafe, fun _ => hTotals.mp ?_⟩
                  intro b node hNode
                  rw [← hBuilt.getBlockSubPieceCount]
                  exact hProp _ hResult b node hNode
                · intro hInput
                  refine ⟨_, rfl, fun m' hm' b node hNode => ?_⟩
                  cases hm'
                  have hTotal := hTotals.mpr (hInput.totals hAll) b node hNode
                  rw [← hBuilt.getBlockSubPieceCount] at hTotal
                  exact hTotal
              · rw [if_neg hBlock]
                refine iff_of_false ?_ fun h => ?_
                · rintro ⟨result, hResult, -⟩
                  cases hResult
                · have hZero : r.blockCount = 0 := by
                    by_contra hNe
                    refine hBlock ?_
                    rw [hBuilt.lastInfo_eq, hBuilt.length_eq]
                    exact lastInfoOf_blockIndex_lt (by omega)
                  refine h.block_exists ?_ hZero
                  cases hRecords with
                  | done hLe => exact List.eq_nil_of_length_eq_zero (Nat.le_zero.mp hLe)
                  | more _ hRecord =>
                      have hIndex := hRecord.1.2.1
                      omega

/-- A file of one block. -/
private def smallFile : RidInfo :=
  ⟨Guid.zero, 2048, 2097152, 1, [], twoKib_lt_uint32, twoMib_lt_uint32, one_lt_uint32⟩

/-- One record for block 0: a node of one subpiece, and in it a complete piece with
the index 1, although the node has one piece only. -/
private def pastTheEnd : Bytes :=
  leBytes 4 0 ++ leBytes 4 18 ++
    (leBytes 4 1 ++ (leBytes 2 1 ++ leBytes 4 8 ++ (leBytes 4 1 ++ leBytes 4 0)))

/-- `piece_index > size` lets the index that equals the size pass, and the write
lands outside `piece_count_`. -/
theorem parse_pastTheEnd_unsafe :
    ¬ ∀ (buf : Bytes) (r : RidInfo) (needVerifyBlock : Bool), buf.length < 2 ^ 32 →
      ParsesSafely (List Bool) buf r needVerifyBlock := by
  intro h
  obtain ⟨result, hResult, -⟩ := h pastTheEnd smallFile false (by decide)
  have hFault : (match parse (μ := List Bool) pastTheEnd smallFile false with
      | .ok _ => none
      | .error f => some f) = some Fault.writeOutside := by decide +kernel
  rw [hResult] at hFault
  cases hFault

end SubPieceManager

end Storage
