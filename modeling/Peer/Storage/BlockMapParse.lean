import Peer.Storage.Geometry
import Peer.Storage.PieceParse

/-! `SubPieceManager::Parse` on arbitrary bytes: the walk over the records of a
block map, what keeps it from going wrong, and the store it builds. -/
namespace Storage

open Basis

namespace SubPieceManager

section Records

variable (buf : Bytes) (count o : Nat)

def blockIndexAt : Nat := uintAt buf o 4

def blockLengthAt : Nat := uintAt buf (o + 4) 4

def blockEnd : Nat := o + 8 + blockLengthAt buf o

def payloadAt : Bytes := (buf.drop (o + 8)).take (blockLengthAt buf o)

/-- The header of the record at `o` is inside the buffer, names a block of the file
and has a length that is not zero. -/
def BlockHeaderOk : Prop :=
  o + 8 ≤ buf.length ∧ blockIndexAt buf o < count ∧ blockLengthAt buf o ≠ 0

def BlockRecordOk : Prop := BlockHeaderOk buf count o ∧ blockEnd buf o ≤ buf.length

open Classical in
/-- The offset after the record at `o`, when the loop goes on from there. -/
noncomputable def nextBlock : Option Nat :=
  if o < buf.length ∧ BlockRecordOk buf count o ∧ BlockNode.Accepted (payloadAt buf o) then
    some (blockEnd buf o)
  else none

/-- What keeps the round at `o` from going wrong. -/
structure BlockSafe : Prop where
  header : o + 8 < 2 ^ 32
  sum : BlockHeaderOk buf count o → blockEnd buf o < 2 ^ 32
  copy : BlockRecordOk buf count o → blockLengthAt buf o ≤ 0x3FFFFFFF
  payload : BlockRecordOk buf count o → BlockNode.PayloadSafe (payloadAt buf o)

end Records

section Round

variable {buf : Bytes} {count o : Nat}

theorem payloadAt_length (h : BlockRecordOk buf count o) :
    (payloadAt buf o).length = blockLengthAt buf o := by
  have hEnd := h.2
  unfold blockEnd at hEnd
  simp only [payloadAt, List.length_take, List.length_drop]
  omega

theorem nextBlock_eq_some {o' : Nat} : nextBlock buf count o = some o' ↔
    (o < buf.length ∧ BlockRecordOk buf count o ∧ BlockNode.Accepted (payloadAt buf o)) ∧
      blockEnd buf o = o' := by
  unfold nextBlock
  split <;> simp_all

theorem nextBlock_lt {o' : Nat} (h : nextBlock buf count o = some o') : o < o' := by
  obtain ⟨-, rfl⟩ := nextBlock_eq_some.mp h
  unfold blockEnd
  omega

theorem blockRound_wrapped_header (h : ¬ o + 8 < 2 ^ 32) :
    blockRound buf count o = .error .wrappedSum := by
  rw [blockRound, Checked.sum_wrapped h, Checked.error_bind]

theorem blockRound_of_not_headerOk (hSum : o + 8 < 2 ^ 32) (h : ¬ BlockHeaderOk buf count o) :
    blockRound buf count o = .ok none := by
  unfold blockRound
  rw [Checked.sum_eq hSum, Checked.ok_bind]
  split
  · rfl
  · rename_i hHeader
    rw [Checked.read_eq (by omega), Checked.ok_bind]
    split
    · rfl
    · rename_i hIndex
      rw [Checked.read_eq (by omega), Checked.ok_bind]
      refine if_pos ?_
      by_contra hLength
      exact h ⟨by omega, Nat.not_le.mp hIndex, hLength⟩

theorem blockRound_of_headerOk (hSum : o + 8 < 2 ^ 32) (h : BlockHeaderOk buf count o) :
    blockRound buf count o = (do
      let stop ← Checked.sum (o + 8) (blockLengthAt buf o)
      if buf.length < stop then .ok none
      else
        let payload ← Checked.copy buf (o + 8) (blockLengthAt buf o)
        .ok (some (blockIndexAt buf o, payload, stop))) := by
  obtain ⟨hInside, hIndex, hLength⟩ := h
  have hIndex' : ¬ count ≤ leValue ((buf.drop o).take 4) := Nat.not_le.mpr hIndex
  have hLength' : ¬ leValue ((buf.drop (o + 4)).take 4) = 0 := hLength
  unfold blockRound
  rw [Checked.sum_eq hSum, Checked.ok_bind, if_neg (by omega),
    Checked.read_eq (by omega), Checked.ok_bind, if_neg hIndex',
    Checked.read_eq (by omega), Checked.ok_bind, if_neg hLength']
  rfl

theorem blockRound_wrapped (hSum : o + 8 < 2 ^ 32) (h : BlockHeaderOk buf count o)
    (hWrap : ¬ blockEnd buf o < 2 ^ 32) : blockRound buf count o = .error .wrappedSum := by
  rw [blockRound_of_headerOk hSum h, Checked.sum_wrapped hWrap, Checked.error_bind]

theorem blockRound_too_long (hSum : o + 8 < 2 ^ 32) (h : BlockHeaderOk buf count o)
    (hEnd : blockEnd buf o < 2 ^ 32) (hLong : ¬ BlockRecordOk buf count o) :
    blockRound buf count o = .ok none := by
  rw [blockRound_of_headerOk hSum h, Checked.sum_eq hEnd, Checked.ok_bind]
  exact if_pos (Nat.not_le.mp fun hLe => hLong ⟨h, hLe⟩)

theorem blockRound_aborts (hSum : o + 8 < 2 ^ 32) (h : BlockRecordOk buf count o)
    (hEnd : blockEnd buf o < 2 ^ 32) (hCopy : ¬ blockLengthAt buf o ≤ 0x3FFFFFFF) :
    blockRound buf count o = .error .copyAborts := by
  have hStop : Checked.sum (o + 8) (blockLengthAt buf o) = .ok (blockEnd buf o) :=
    Checked.sum_eq hEnd
  rw [blockRound_of_headerOk hSum h.1, hStop, Checked.ok_bind, if_neg (Nat.not_lt.mpr h.2),
    Checked.copy_aborts hCopy, Checked.error_bind]

theorem blockRound_of_recordOk (hSum : o + 8 < 2 ^ 32) (h : BlockRecordOk buf count o)
    (hEnd : blockEnd buf o < 2 ^ 32) (hCopy : blockLengthAt buf o ≤ 0x3FFFFFFF) :
    blockRound buf count o = .ok (some (blockIndexAt buf o, payloadAt buf o, blockEnd buf o)) := by
  have hStop : Checked.sum (o + 8) (blockLengthAt buf o) = .ok (blockEnd buf o) :=
    Checked.sum_eq hEnd
  rw [blockRound_of_headerOk hSum h.1, hStop, Checked.ok_bind, if_neg (Nat.not_lt.mpr h.2),
    Checked.copy_eq h.2 hCopy, Checked.ok_bind]
  rfl

/-- What a round of the loop can answer. -/
inductive RoundCases (buf : Bytes) (count o : Nat) : Prop where
  | fault (f : Fault) (h : blockRound buf count o = .error f) (hUnsafe : ¬ BlockSafe buf count o)
  | stop (h : blockRound buf count o = .ok none) (hSafe : BlockSafe buf count o)
      (hRecord : ¬ BlockRecordOk buf count o)
  | record
      (h : blockRound buf count o =
        .ok (some (blockIndexAt buf o, payloadAt buf o, blockEnd buf o)))
      (hRecord : BlockRecordOk buf count o) (hCopy : blockLengthAt buf o ≤ 0x3FFFFFFF)
      (hSafe : BlockSafe buf count o ↔ BlockNode.PayloadSafe (payloadAt buf o))

theorem blockRound_cases (buf : Bytes) (count o : Nat) : RoundCases buf count o := by
  by_cases hSum : o + 8 < 2 ^ 32
  · by_cases hHeader : BlockHeaderOk buf count o
    · by_cases hEnd : blockEnd buf o < 2 ^ 32
      · by_cases hRecord : BlockRecordOk buf count o
        · by_cases hCopy : blockLengthAt buf o ≤ 0x3FFFFFFF
          · exact .record (blockRound_of_recordOk hSum hRecord hEnd hCopy) hRecord hCopy
              ⟨fun h => h.payload hRecord, fun h => ⟨hSum, fun _ => hEnd, fun _ => hCopy, fun _ => h⟩⟩
          · exact .fault _ (blockRound_aborts hSum hRecord hEnd hCopy)
              fun h => hCopy (h.copy hRecord)
        · exact .stop (blockRound_too_long hSum hHeader hEnd hRecord)
            ⟨hSum, fun _ => hEnd, fun h => absurd h hRecord, fun h => absurd h hRecord⟩ hRecord
      · exact .fault _ (blockRound_wrapped hSum hHeader hEnd) fun h => hEnd (h.sum hHeader)
    · exact .stop (blockRound_of_not_headerOk hSum hHeader)
        ⟨hSum, fun h => absurd h hHeader, fun h => absurd h.1 hHeader,
          fun h => absurd h.1 hHeader⟩ fun h => hHeader h.1
  · exact .fault _ (blockRound_wrapped_header hSum) fun h => hSum h.header

end Round

section Loop

variable {μ : Type} [BlockMap μ] {buf : Bytes} {m : SubPieceManager μ} {o nulls : Nat}

theorem applyRecord_length (index : Nat) (node? : Option BlockNode) :
    (m.applyRecord nulls index node?).1.blocks.length = m.blocks.length := by
  cases node? <;> simp [applyRecord]

/-- The loop ends well exactly when each record it visits is safe. -/
theorem parseBlocks_safe_iff (buf : Bytes) (o nulls : Nat) {count rounds : Nat} (hCount : m.blocks.length = count)
    (hRounds : buf.length - o < rounds) :
    Checked.Safe (parseBlocks buf rounds o m nulls) ↔
      ∀ o', Visits (nextBlock buf count) o o' → o' < buf.length → BlockSafe buf count o' := by
  induction rounds generalizing o m nulls with
  | zero => omega
  | succ rounds ih =>
      unfold parseBlocks
      by_cases ho : o < buf.length
      · rw [if_pos ho, hCount]
        rcases blockRound_cases buf count o with ⟨f, h, hUnsafe⟩ | ⟨h, hSafe, hRecord⟩ |
          ⟨h, hRecord, hCopy, hSafe⟩
        · rw [h, Checked.error_bind]
          exact iff_of_false (Checked.not_safe_error f) fun hAll =>
            hUnsafe (hAll o (Visits.refl o) ho)
        · have hStop : nextBlock buf count o = none := if_neg fun h => hRecord h.2.1
          rw [h, Checked.ok_bind, forall_visits_of_stop hStop]
          exact iff_of_true (Checked.safe_ok _) fun _ => hSafe
        · have hSize : (payloadAt buf o).length ≤ 0x3FFFFFFF := by
            rw [payloadAt_length hRecord]
            exact hCopy
          have hPayload := BlockNode.pieces_safe_iff (blockIndexAt buf o) hSize
          rw [h, Checked.ok_bind]
          dsimp only
          cases hParse : BlockNode.parse (blockIndexAt buf o) (payloadAt buf o) with
          | error f =>
              rw [hParse] at hPayload
              rw [Checked.error_bind]
              refine iff_of_false (Checked.not_safe_error f) fun hAll => ?_
              exact Checked.not_safe_error f (hPayload.mpr (hSafe.mp (hAll o (Visits.refl o) ho)))
          | ok result =>
              rw [hParse] at hPayload
              have hHere : BlockSafe buf count o := hSafe.mpr (hPayload.mp (Checked.safe_ok _))
              have hResult := BlockNode.parse_result hSize hParse
              rw [Checked.ok_bind]
              cases result with
              | none =>
                  cases hResult with
                  | rejected hNot =>
                      have hStop : nextBlock buf count o = none := if_neg fun h => hNot h.2.2
                      rw [forall_visits_of_stop hStop]
                      exact iff_of_true (Checked.safe_ok _) fun _ => hHere
              | some node? =>
                  have hAccepted : BlockNode.Accepted (payloadAt buf o) := by
                    cases hResult with
                    | noNode h => exact h
                    | kept _ h => exact h
                  have hStep : nextBlock buf count o = some (blockEnd buf o) :=
                    nextBlock_eq_some.mpr ⟨⟨ho, hRecord, hAccepted⟩, rfl⟩
                  have hLt := nextBlock_lt hStep
                  rw [forall_visits_of_step hStep]
                  dsimp only
                  rw [ih _ _ ((applyRecord_length _ _).trans hCount) (by omega)]
                  exact ⟨fun hRest => ⟨fun _ => hHere, hRest⟩, And.right⟩
      · rw [if_neg ho]
        have hStop : nextBlock buf count o = none := if_neg fun h => ho h.1
        rw [forall_visits_of_stop hStop]
        exact iff_of_true (Checked.safe_ok _) fun h => absurd h ho

/-- A walk to the end of the buffer is not given up. -/
theorem parseBlocks_ne_none {count rounds : Nat} (hCount : m.blocks.length = count)
    (ho : o ≤ buf.length) (hAll : Visits (nextBlock buf count) o buf.length) :
    parseBlocks buf rounds o m nulls ≠ .ok none := by
  induction rounds generalizing o m nulls with
  | zero => exact fun h => by cases h
  | succ rounds ih =>
      intro h
      unfold parseBlocks at h
      by_cases hLt : o < buf.length
      · rcases visits_iff.mp hAll with hEq | ⟨next, hStep, hRest⟩
        · omega
        obtain ⟨⟨-, hRecord, hAccepted⟩, rfl⟩ := nextBlock_eq_some.mp hStep
        rw [if_pos hLt, hCount] at h
        rcases blockRound_cases buf count o with ⟨f, hRound, -⟩ | ⟨-, -, hNot⟩ |
          ⟨hRound, -, hCopy, -⟩
        · rw [hRound, Checked.error_bind] at h
          cases h
        · exact hNot hRecord
        · rw [hRound, Checked.ok_bind] at h
          dsimp only at h
          cases hParse : BlockNode.parse (blockIndexAt buf o) (payloadAt buf o) with
          | error f =>
              rw [hParse, Checked.error_bind] at h
              cases h
          | ok result =>
              rw [hParse, Checked.ok_bind] at h
              cases result with
              | none =>
                  have hSize : (payloadAt buf o).length ≤ 0x3FFFFFFF := by
                    rw [payloadAt_length hRecord]
                    exact hCopy
                  cases BlockNode.parse_result hSize hParse with
                  | rejected hNot => exact hNot hAccepted
              | some node? =>
                  exact ih ((applyRecord_length _ _).trans hCount) hRecord.2 hRest h
      · rw [if_neg hLt] at h
        cases h

/-- The records of a block map from offset `o` to its end, with the pointer that
each payload parses to. -/
inductive Records (buf : Bytes) (count : Nat) : Nat → List (Nat × Option BlockNode) → Prop where
  | done {o : Nat} (h : buf.length ≤ o) : Records buf count o []
  | more {o : Nat} {node? : Option BlockNode} {rest : List (Nat × Option BlockNode)}
      (ho : o < buf.length) (hRecord : BlockRecordOk buf count o)
      (hCopy : blockLengthAt buf o ≤ 0x3FFFFFFF)
      (hParse : BlockNode.parse (blockIndexAt buf o) (payloadAt buf o) = .ok (some node?))
      (hRest : Records buf count (blockEnd buf o) rest) :
      Records buf count o ((blockIndexAt buf o, node?) :: rest)

/-- The effect of a list of records. -/
def applyRecords (state : SubPieceManager μ × Nat) (records : List (Nat × Option BlockNode)) :
    SubPieceManager μ × Nat :=
  records.foldl (fun state record => state.1.applyRecord state.2 record.1 record.2) state

/-- A loop that returns a store has read records up to the end of the buffer. -/
theorem parseBlocks_records {count rounds : Nat} (hCount : m.blocks.length = count)
    {state : SubPieceManager μ × Nat}
    (h : parseBlocks buf rounds o m nulls = .ok (some state)) :
    ∃ records, Records buf count o records ∧ state = applyRecords (m, nulls) records := by
  induction rounds generalizing o m nulls with
  | zero => cases h
  | succ rounds ih =>
      unfold parseBlocks at h
      by_cases ho : o < buf.length
      · rw [if_pos ho, hCount] at h
        rcases blockRound_cases buf count o with ⟨f, hRound, -⟩ | ⟨hRound, -, -⟩ |
          ⟨hRound, hRecord, hCopy, -⟩
        · rw [hRound, Checked.error_bind] at h
          cases h
        · rw [hRound, Checked.ok_bind] at h
          cases h
        · rw [hRound, Checked.ok_bind] at h
          dsimp only at h
          cases hParse : BlockNode.parse (blockIndexAt buf o) (payloadAt buf o) with
          | error f =>
              rw [hParse, Checked.error_bind] at h
              cases h
          | ok result =>
              rw [hParse, Checked.ok_bind] at h
              cases result with
              | none => cases h
              | some node? =>
                  obtain ⟨records, hRecords, hState⟩ :=
                    ih ((applyRecord_length _ _).trans hCount) h
                  exact ⟨_, .more ho hRecord hCopy hParse hRecords, hState⟩
      · rw [if_neg ho] at h
        cases h
        exact ⟨[], .done (Nat.not_lt.mp ho), rfl⟩

/-- What one record does to the store. -/
theorem applyRecord_becomes (nulls : Nat) (hSized : Sized m) {index : Nat} (h : index < m.blocks.length)
    (node? : Option BlockNode) :
    Becomes m index node? false
      (if node?.isSome then m.blocksCount else subU32 m.blocksCount 1) m.downloadBytes
      (m.applyRecord nulls index node?).1 := by
  have hStore := ((Becomes.same hSized h).setBit false).setNode node?
  cases node? with
  | some node =>
      rw [Option.isSome_some, if_pos rfl]
      exact hStore
  | none =>
      rw [Option.isSome_none, if_neg Bool.false_ne_true, ← hStore.count_eq]
      exact hStore.setCount _

theorem Records.index_lt {count : Nat} {records : List (Nat × Option BlockNode)}
    (h : Records buf count o records) : ∀ record ∈ records, record.1 < count := by
  induction h with
  | done => simp
  | more _ hRecord _ _ _ ih =>
      intro record hMem
      rcases List.mem_cons.mp hMem with rfl | hMem
      · exact hRecord.1.2.1
      · exact ih record hMem

/-- A node that a record gives is as `Parse` makes it, with a count for each piece. -/
theorem Records.parsed {count b : Nat} {records : List (Nat × Option BlockNode)}
    (h : Records buf count o records) {node : BlockNode} (hMem : (b, some node) ∈ records) :
    BlockNode.OnDiskOnly b node ∧
      node.pieceCount.length = BlockNode.piecesOf node.totalSubpieceCount := by
  induction h with
  | done => simp at hMem
  | more _ hRecord hCopy hParse _ ih =>
      rcases List.mem_cons.mp hMem with hHere | hLater
      · cases hHere
        cases BlockNode.parse_result (by rw [payloadAt_length hRecord]; exact hCopy) hParse with
        | kept _ _ _ _ hNode hPieces => exact ⟨hNode, hPieces⟩
      · exact ih hLater

/-- A whole list of records keeps what every record keeps. -/
theorem applyRecords_induction {P : SubPieceManager μ × Nat → Prop}
    {records : List (Nat × Option BlockNode)} {state : SubPieceManager μ × Nat} (hInit : P state)
    (hStep : ∀ s record, record ∈ records → P s →
      P (s.1.applyRecord s.2 record.1 record.2)) : P (applyRecords state records) := by
  induction records generalizing state with
  | nil => exact hInit
  | cons record rest ih =>
      refine ih (hStep _ _ (List.mem_cons_self ..) hInit) fun s r hr => ?_
      exact hStep s r (List.mem_cons_of_mem _ hr)

theorem applyRecords_builtFor (nulls : Nat) {r : RidInfo} (hm : BuiltFor r m)
    {records : List (Nat × Option BlockNode)}
    (hRecords : ∀ record ∈ records, record.1 < r.blockCount) :
    BuiltFor r (applyRecords (m, nulls) records).1 := by
  refine applyRecords_induction (P := fun s => BuiltFor r s.1) hm fun s record hMem hs => ?_
  have hLt : record.1 < s.1.blocks.length := by
    rw [hs.length_eq]
    exact hRecords record hMem
  exact hs.becomes (applyRecord_becomes _ hs.sized hLt record.2)

/-- The node of a block is the one its last record gives. -/
theorem applyRecords_nodeAt {records : List (Nat × Option BlockNode)} {m : SubPieceManager μ}
    (nulls : Nat) (hSized : Sized m) (hRecords : ∀ record ∈ records, record.1 < m.blocks.length)
    (b : Nat) :
    (applyRecords (m, nulls) records).1.nodeAt b = m.nodeAt b ∧
        (∀ record ∈ records, record.1 ≠ b) ∨
      ∃ before node? after, records = before ++ (b, node?) :: after ∧
        (∀ record ∈ after, record.1 ≠ b) ∧
        (applyRecords (m, nulls) records).1.nodeAt b = node? := by
  induction records generalizing m nulls with
  | nil => exact Or.inl ⟨rfl, by simp⟩
  | cons record rest ih =>
      have hLt := hRecords record (List.mem_cons_self ..)
      have hStep := applyRecord_becomes nulls hSized hLt record.2
      have hRest : ∀ later ∈ rest,
          later.1 < (m.applyRecord nulls record.1 record.2).1.blocks.length := by
        intro later hLater
        rw [hStep.length_eq]
        exact hRecords later (List.mem_cons_of_mem _ hLater)
      rcases ih (m.applyRecord nulls record.1 record.2).2 hStep.sized hRest with
        ⟨hSame, hUnlisted⟩ | ⟨before, node?, after, rfl, hAfter, hNode⟩
      · by_cases hIndex : record.1 = b
        · subst hIndex
          exact Or.inr ⟨[], record.2, rest, rfl, hUnlisted, hSame.trans hStep.nodeAt_self⟩
        · refine Or.inl ⟨hSame.trans (hStep.nodeAt_of_ne b (Ne.symm hIndex)), ?_⟩
          intro later hMem
          rcases List.mem_cons.mp hMem with rfl | hMem
          · exact hIndex
          · exact hUnlisted later hMem
      · exact Or.inr ⟨record :: before, node?, after, rfl, hAfter, hNode⟩

/-- Parsing a record resets the bit of its block and leaves the other bits alone. -/
theorem applyRecords_hasFullBlock {records : List (Nat × Option BlockNode)} {m : SubPieceManager μ}
    (nulls : Nat) {b : Nat} (hSized : Sized m) (hRecords : ∀ record ∈ records, record.1 < m.blocks.length)
    (hb : b < m.blocks.length) :
    (applyRecords (m, nulls) records).1.hasFullBlock b =
      (m.hasFullBlock b && decide (b ∉ records.map Prod.fst)) := by
  induction records generalizing m nulls with
  | nil => simp [applyRecords]
  | cons record rest ih =>
      have hStep := applyRecord_becomes nulls hSized
        (hRecords record (List.mem_cons_self ..)) record.2
      have hRest : ∀ later ∈ rest,
          later.1 < (m.applyRecord nulls record.1 record.2).1.blocks.length := by
        intro later hLater
        rw [hStep.length_eq]
        exact hRecords later (List.mem_cons_of_mem _ hLater)
      have hTail := ih (m.applyRecord nulls record.1 record.2).2 hStep.sized hRest
        (hStep.length_eq ▸ hb)
      refine hTail.trans ?_
      by_cases hEq : b = record.1
      · rw [hEq, hStep.bit_self]
        simp
      · rw [hStep.bit_of_ne b hEq hb]
        simp only [List.map_cons, List.mem_cons, hEq, false_or]

/-- A parsed store is a full one after the records of the buffer, with the number
of bytes computed at the end. -/
theorem parse_eq_some {r : RidInfo} {verify : Bool} {m' : SubPieceManager μ}
    (h : parse buf r verify = .ok (some m')) :
    ∃ (fresh : SubPieceManager μ) (records : List (Nat × Option BlockNode)),
      new r true verify = some fresh ∧ Records buf r.blockCount 0 records ∧
      m'.lastSubpieceInfo.blockIndex < m'.blocks.length ∧
      m' = { (applyRecords (fresh, 0) records).1 with
        downloadBytes := (applyRecords (fresh, 0) records).1.parsedBytes
          (applyRecords (fresh, 0) records).2 } := by
  unfold parse at h
  split at h
  · cases h
  · rename_i fresh hNew
    cases hLoop : parseBlocks buf (buf.length + 1) 0 fresh 0 with
    | error f =>
        rw [hLoop, Checked.error_bind] at h
        cases h
    | ok result =>
        rw [hLoop, Checked.ok_bind] at h
        cases result with
        | none => cases h
        | some state =>
            obtain ⟨-, hm, -⟩ := new_eq_some hNew
            obtain ⟨records, hRecords, hState⟩ := parseBlocks_records hm.length_eq hLoop
            dsimp only at h
            split at h
            · rename_i hLast
              cases h
              exact ⟨fresh, records, hNew, hRecords, hLast, hState ▸ rfl⟩
            · cases h

variable {r : RidInfo} {verify : Bool}

theorem builtFor_of_parse (h : parse buf r verify = .ok (some m)) : BuiltFor r m := by
  obtain ⟨fresh, records, hNew, hRecords, -, rfl⟩ := parse_eq_some h
  exact { applyRecords_builtFor 0 (new_eq_some hNew).2.1 hRecords.index_lt with }

/-- The node of a block in a parsed store is as its last record gives it, and the bit
of the block is not set. -/
theorem node_of_parse (h : parse buf r verify = .ok (some m)) {b : Nat} {node : BlockNode}
    (hNode : m.nodeAt b = some node) :
    (BlockNode.OnDiskOnly b node ∧
      node.pieceCount.length = BlockNode.piecesOf node.totalSubpieceCount) ∧
      m.hasFullBlock b = false := by
  obtain ⟨fresh, records, hNew, hRecords, -, rfl⟩ := parse_eq_some h
  obtain ⟨-, hm, hNone, -⟩ := new_eq_some hNew
  have hLt : ∀ record ∈ records, record.1 < fresh.blocks.length := fun record hMem => by
    rw [hm.length_eq]
    exact hRecords.index_lt record hMem
  have hNode' : (applyRecords (fresh, 0) records).1.nodeAt b = some node := hNode
  rcases applyRecords_nodeAt 0 hm.sized hLt b with ⟨hSame, -⟩ |
    ⟨before, node?, after, hSplit, -, hLast⟩
  · rw [hSame, hNone] at hNode'
    cases hNode'
  · cases hNode'.symm.trans hLast
    have hMem : (b, some node) ∈ records := hSplit ▸ List.mem_append_right _ (List.mem_cons_self ..)
    refine ⟨hRecords.parsed hMem, ?_⟩
    have hBits := applyRecords_hasFullBlock 0 hm.sized hLt (hLt _ hMem)
    rw [decide_eq_false (not_not.mpr (List.mem_map_of_mem hMem)), Bool.and_false] at hBits
    exact hBits

end Loop

end SubPieceManager

end Storage
