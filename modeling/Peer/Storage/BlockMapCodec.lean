import Peer.Storage.BlockMapParse

/-! What `ToBuffer` writes, and what `Parse` makes of those bytes. The reader leaves
the buffer of a node at its first piece record. -/
namespace Storage

open Basis

namespace ScratchBuffer

theorem write_bytes {buf buf' : ScratchBuffer} {data : Bytes} (h : buf.write data = some buf') :
    buf'.bytes = buf.bytes ++ data := by
  unfold write at h
  split at h
  · cases h
    rfl
  · cases h

theorem double_bytes {buf buf' : ScratchBuffer} (h : buf.double = some buf') :
    buf'.bytes = buf.bytes := by
  unfold double at h
  split at h
  · cases h
    rfl
  · cases h

theorem reserve_bytes {buf buf' : ScratchBuffer} {need : Nat}
    (h : buf.reserve need = some buf') : buf'.bytes = buf.bytes := by
  unfold reserve at h
  split at h
  · exact double_bytes h
  · cases h
    rfl

theorem toAppBuffer_eq_some {buf : ScratchBuffer} {bytes : Bytes}
    (h : buf.toAppBuffer = some bytes) : bytes = buf.bytes ∧ bytes.length ≤ 0x3FFFFFFF := by
  unfold toAppBuffer at h
  split at h
  · rename_i hCopy
    cases h
    refine ⟨rfl, ?_⟩
    rcases memcpy2Ok_iff.mp hCopy with hZero | ⟨-, hLe⟩ <;> omega
  · cases h

/-- A loop whose rounds append to the buffer appends all of it. -/
theorem foldlM_bytes {α : Type} {f : ScratchBuffer → α → Option ScratchBuffer} {g : α → Bytes}
    {xs : List α} {buf buf' : ScratchBuffer}
    (hStep : ∀ x ∈ xs, ∀ buf buf', f buf x = some buf' → buf'.bytes = buf.bytes ++ g x)
    (h : xs.foldlM f buf = some buf') : buf'.bytes = buf.bytes ++ xs.flatMap g := by
  induction xs generalizing buf with
  | nil =>
      cases h
      simp
  | cons x rest ih =>
      rw [List.foldlM_cons] at h
      obtain ⟨middle, hFirst, hRest⟩ := Option.bind_eq_some_iff.mp h
      rw [ih (fun y hy => hStep y (List.mem_cons_of_mem _ hy)) hRest,
        hStep x (List.mem_cons_self ..) _ _ hFirst, List.flatMap_cons, List.append_assoc]

/-- In a loop that succeeds every round has succeeded. -/
theorem foldlM_round {α : Type} {f : ScratchBuffer → α → Option ScratchBuffer} {xs : List α}
    {buf buf' : ScratchBuffer} (h : xs.foldlM f buf = some buf') :
    ∀ x ∈ xs, ∃ before after, f before x = some after := by
  induction xs generalizing buf with
  | nil => simp
  | cons x rest ih =>
      rw [List.foldlM_cons] at h
      obtain ⟨middle, hFirst, hRest⟩ := Option.bind_eq_some_iff.mp h
      intro y hy
      rcases List.mem_cons.mp hy with rfl | hy
      · exact ⟨buf, middle, hFirst⟩
      · exact ih hRest y hy

end ScratchBuffer

namespace BlockNode

/-- The record `ToBuffer` writes for a piece of a block that is not on disk. -/
def pieceRecord (pidx : Nat) : Bytes := leBytes 2 pidx ++ (leBytes 4 4 ++ List.replicate 4 0)

/-- The buffer of a node that is not on disk. -/
def recordBytes (node : BlockNode) : Bytes :=
  leBytes 4 node.totalSubpieceCount ++ (List.range node.pieceCount.length).flatMap pieceRecord

theorem writePiece_bytes {node : BlockNode} {buf buf' : ScratchBuffer} {pidx : Nat}
    (h : node.writePiece buf pidx = some buf') :
    buf'.bytes = buf.bytes ++ pieceRecord pidx ∧ node.isBlockSavedOnDisk = false := by
  obtain ⟨first, hFirst, hRest⟩ := Option.bind_eq_some_iff.mp h
  split at hRest
  · cases hRest
  · rename_i hDisk
    obtain ⟨second, hSecond, hRest⟩ := Option.bind_eq_some_iff.mp hRest
    obtain ⟨third, hThird, hLast⟩ := Option.bind_eq_some_iff.mp hRest
    refine ⟨?_, Bool.eq_false_iff.mpr hDisk⟩
    rw [ScratchBuffer.write_bytes hLast, ScratchBuffer.write_bytes hThird,
      ScratchBuffer.reserve_bytes hSecond, ScratchBuffer.write_bytes hFirst]
    simp [pieceRecord, nullBlockToBuffer]

/-- A node that `ToBuffer` writes has less than 2^16 pieces and is not on disk. -/
theorem toBuffer_eq_some {node : BlockNode} {bytes : Bytes} (h : node.toBuffer = some bytes)
    (hPieces : 0 < node.pieceCount.length) :
    bytes = node.recordBytes ∧ node.pieceCount.length < 2 ^ 16 ∧
      node.isBlockSavedOnDisk = false := by
  unfold toBuffer at h
  split at h
  · rename_i hLt
    obtain ⟨first, hFirst, hRest⟩ := Option.bind_eq_some_iff.mp h
    obtain ⟨last, hLoop, hEnd⟩ := Option.bind_eq_some_iff.mp hRest
    have hBytes := ScratchBuffer.foldlM_bytes (g := pieceRecord)
      (fun pidx _ _ _ hWrite => (writePiece_bytes hWrite).1) hLoop
    refine ⟨?_, hLt, ?_⟩
    · rw [(ScratchBuffer.toAppBuffer_eq_some hEnd).1, hBytes, ScratchBuffer.write_bytes hFirst]
      rfl
    · obtain ⟨before, after, hPiece⟩ :=
        ScratchBuffer.foldlM_round hLoop 0 (List.mem_range.mpr hPieces)
      exact (writePiece_bytes hPiece).2
  · cases h

section Parse

variable {node : BlockNode}

theorem uintAt_append_left {front back : Bytes} {width : Nat} (h : front.length = width) :
    uintAt (front ++ back) 0 width = leValue front := by
  simp [uintAt, ← h]

/-- Reading past a prefix. -/
theorem uintAt_append (front back : Bytes) (o width : Nat) :
    uintAt (front ++ back) (front.length + o) width = uintAt back o width := by
  simp [uintAt, List.drop_append, List.drop_eq_nil_of_le (Nat.le_add_right front.length o)]

theorem uintAt_leBytes {n width : Nat} {back : Bytes} (h : n < 256 ^ width) :
    uintAt (leBytes width n ++ back) 0 width = n := by
  rw [uintAt_append_left (leBytes_length width n), leValue_leBytes h]

theorem flatMap_pieceRecord_length (n : Nat) :
    ((List.range n).flatMap pieceRecord).length = 10 * n := by
  rw [List.length_flatMap]
  simp [pieceRecord]
  omega

theorem recordBytes_length (node : BlockNode) :
    node.recordBytes.length = 4 + 10 * node.pieceCount.length := by
  rw [recordBytes, List.length_append, leBytes_length, flatMap_pieceRecord_length]

theorem recordBytes_drop (node : BlockNode) :
    node.recordBytes.drop 4 = (List.range node.pieceCount.length).flatMap pieceRecord := by
  rw [recordBytes, List.drop_left' (leBytes_length 4 _)]

/-- The reader leaves the buffer of a node behind its first piece record. -/
theorem recordBytes_endsAt (hPos : 0 < node.totalSubpieceCount)
    (hTotal : node.totalSubpieceCount < 2 ^ 31)
    (hPieces : node.pieceCount.length = piecesOf node.totalSubpieceCount)
    (hCount : 0 < node.pieceCount.length) :
    HasContent node.recordBytes ∧ EndsAt node.recordBytes (some 10) := by
  have hLength := recordBytes_length node
  have hTotalAt : totalAt node.recordBytes = node.totalSubpieceCount :=
    uintAt_leBytes (by omega)
  have hContent : HasContent node.recordBytes := by
    refine ⟨by omega, ?_⟩
    change totalAt node.recordBytes ≠ 0
    omega
  obtain ⟨rest, hRest⟩ : ∃ rest, (List.range node.pieceCount.length).flatMap pieceRecord =
      leBytes 2 0 ++ (leBytes 4 4 ++ (List.replicate 4 0 ++ rest)) := by
    rw [show node.pieceCount.length = (node.pieceCount.length - 1) + 1 by omega,
      List.range_succ_eq_map, List.flatMap_cons, pieceRecord]
    exact ⟨_, by simp only [List.append_assoc]; rfl⟩
  have hDrop := (recordBytes_drop node).trans hRest
  have hDropLength : (node.recordBytes.drop 4).length = 10 * node.pieceCount.length := by
    rw [recordBytes_drop, flatMap_pieceRecord_length]
  have hIndexAt : pieceIndexAt (node.recordBytes.drop 4) 0 = 0 := by
    rw [hDrop]
    exact uintAt_leBytes (by decide)
  have hLengthAt : pieceLengthAt (node.recordBytes.drop 4) 0 = 4 := by
    rw [hDrop, pieceLengthAt]
    have hSkip := uintAt_append (leBytes 2 0)
      (leBytes 4 4 ++ (List.replicate 4 0 ++ rest)) 0 4
    rw [leBytes_length] at hSkip
    rw [Nat.zero_add]
    exact hSkip.trans (uintAt_leBytes (by decide))
  have hEnd : pieceEnd (node.recordBytes.drop 4) 0 = 10 := by rw [pieceEnd, hLengthAt]
  have hRecord : RecordOk (node.recordBytes.drop 4) (piecesOf (totalAt node.recordBytes)) 0 :=
    ⟨⟨by omega, by omega, by omega⟩, by omega⟩
  have hBuf : (pieceBufAt (node.recordBytes.drop 4) 0).length = 4 := by
    rw [pieceBufAt_length hRecord, hLengthAt]
  refine ⟨hContent, 0, Visits.refl 0, ?_, ?_⟩
  · refine if_neg fun h => ?_
    have hLong := h.2.2.1.1
    omega
  · rw [stopOf, if_pos (by omega), if_pos ⟨hRecord, by omega⟩, hEnd]

/-- Parsing what `ToBuffer` wrote for a node gives a node, on disk, exactly when the
node has a single piece. -/
theorem parse_recordBytes {index : Nat} {node? : Option BlockNode}
    (hPos : 0 < node.totalSubpieceCount) (hTotal : node.totalSubpieceCount < 2 ^ 31)
    (hPieces : node.pieceCount.length = piecesOf node.totalSubpieceCount)
    (hCount : 0 < node.pieceCount.length) (hLt : node.pieceCount.length < 2 ^ 16)
    (h : parse index node.recordBytes = .ok (some node?)) :
    (node.pieceCount.length ≠ 1 ∧ node? = none) ∨
      (node.pieceCount.length = 1 ∧ ∃ held, node? = some held ∧ OnDiskOnly index held ∧
        held.totalSubpieceCount = node.totalSubpieceCount) := by
  obtain ⟨hContent, hEnds⟩ := recordBytes_endsAt hPos hTotal hPieces hCount
  have hLength : (node.recordBytes.drop 4).length = 10 * node.pieceCount.length := by
    rw [recordBytes_drop, flatMap_pieceRecord_length]
  have hKept : Kept node.recordBytes ↔ node.pieceCount.length = 1 := by
    constructor
    · intro hKept
      have hSame := Option.some.inj (hKept.2.unique hEnds)
      omega
    · intro hOne
      exact ⟨hContent, by rw [hLength, hOne]; exact hEnds⟩
  have hSize : node.recordBytes.length ≤ 0x3FFFFFFF := by
    rw [recordBytes_length]
    omega
  cases parse_result hSize h with
  | noNode _ hNot => exact Or.inl ⟨fun hOne => hNot (hKept.mpr hOne), rfl⟩
  | kept held _ hKeep hHeld hNode _ =>
      have hTotalAt : totalAt node.recordBytes = node.totalSubpieceCount :=
        uintAt_leBytes (by omega)
      exact Or.inr ⟨hKept.mp hKeep, held, rfl, hNode, hHeld.trans hTotalAt⟩

theorem parse_nullBlock (index : Nat) :
    parse index nullBlockToBuffer = .ok (some none) := by
  have hNone : ¬ HasContent nullBlockToBuffer := fun h => Nat.lt_irrefl _ h.1
  rw [parse_of_not_hasContent hNone]
  rfl

end Parse

end BlockNode

namespace SubPieceManager

variable {μ : Type} [BlockMap μ] {r : RidInfo} {m m' : SubPieceManager μ} {buf : Bytes}

/-- The record of block `b`; a block with its bit has none. -/
def blockRecord (m : SubPieceManager μ) (b : Nat) : Bytes :=
  if m.hasFullBlock b then []
  else leBytes 4 b ++ (leBytes 4 ((m.blockBuffer b).getD []).length ++
    (m.blockBuffer b).getD [])

theorem writeBlock_bytes {before after : ScratchBuffer} {b : Nat}
    (h : m.writeBlock before b = some after) :
    after.bytes = before.bytes ++ m.blockRecord b ∧
      (m.hasFullBlock b = false → (m.blockBuffer b).isSome = true) := by
  unfold writeBlock at h
  unfold blockRecord
  split at h
  · rename_i hBit
    cases h
    simp [hBit]
  · rename_i hBit
    obtain ⟨first, hFirst, hRest⟩ := Option.bind_eq_some_iff.mp h
    obtain ⟨blockBuf, hBlock, hRest⟩ := Option.bind_eq_some_iff.mp hRest
    obtain ⟨second, hSecond, hRest⟩ := Option.bind_eq_some_iff.mp hRest
    obtain ⟨third, hThird, hLast⟩ := Option.bind_eq_some_iff.mp hRest
    rw [if_neg hBit, hBlock, ScratchBuffer.write_bytes hLast, ScratchBuffer.reserve_bytes hThird,
      ScratchBuffer.write_bytes hSecond, ScratchBuffer.write_bytes hFirst]
    simp

theorem toBuffer_eq_some (h : m.toBuffer = some buf) :
    buf = (List.range m.blocks.length).flatMap m.blockRecord ∧ buf.length ≤ 0x3FFFFFFF ∧
      ∀ b < m.blocks.length, m.hasFullBlock b = false → (m.blockBuffer b).isSome = true := by
  obtain ⟨last, hLoop, hEnd⟩ := Option.bind_eq_some_iff.mp h
  obtain ⟨hEq, hLe⟩ := ScratchBuffer.toAppBuffer_eq_some hEnd
  refine ⟨?_, hLe, fun b hb hBit => ?_⟩
  · rw [hEq, ScratchBuffer.foldlM_bytes (g := m.blockRecord)
      (fun b _ _ _ hWrite => (writeBlock_bytes hWrite).1) hLoop]
    rfl
  · obtain ⟨before, after, hRound⟩ :=
      ScratchBuffer.foldlM_round hLoop b (List.mem_range.mpr hb)
    exact (writeBlock_bytes hRound).2 hBit

/-- Reading the records of a list of blocks finds each block without its bit, and
parses what was written for it. -/
theorem records_of_blockRecords {count : Nat} {bs : List Nat} (pre : Bytes)
    {records : List (Nat × Option BlockNode)}
    (hBuf : buf = pre ++ bs.flatMap m.blockRecord) (hLength : buf.length < 2 ^ 32)
    (hBlocks : ∀ b ∈ bs, b < 2 ^ 32) (h : Records buf count pre.length records) :
    records.map Prod.fst = bs.filter (fun b => !m.hasFullBlock b) ∧
      ∀ record ∈ records,
        BlockNode.parse record.1 ((m.blockBuffer record.1).getD []) = .ok (some record.2) := by
  induction bs generalizing pre records with
  | nil =>
      have hEnd : buf.length = pre.length := by simp [hBuf]
      cases h with
      | done => simp
      | more ho => omega
  | cons b rest ih =>
      have hRest := fun c hc => hBlocks c (List.mem_cons_of_mem b hc)
      by_cases hBit : m.hasFullBlock b = true
      · have hBuf' : buf = pre ++ rest.flatMap m.blockRecord := by
          rw [hBuf, List.flatMap_cons, blockRecord, if_pos hBit, List.nil_append]
        simpa [hBit] using ih _ hBuf' hRest h
      · obtain ⟨blk, hBlk⟩ : ∃ blk, (m.blockBuffer b).getD [] = blk := ⟨_, rfl⟩
        have hSplit : buf = pre ++ (leBytes 4 b ++ (leBytes 4 blk.length ++
            (blk ++ rest.flatMap m.blockRecord))) := by
          rw [hBuf, List.flatMap_cons, blockRecord, if_neg hBit, hBlk]
          simp only [List.append_assoc]
        have hTotal : buf.length =
            pre.length + (8 + blk.length + (rest.flatMap m.blockRecord).length) := by
          rw [hSplit]
          simp only [List.length_append, leBytes_length]
          omega
        have hIndex : blockIndexAt buf pre.length = b := by
          have hSkip := BlockNode.uintAt_append pre (leBytes 4 b ++
            (leBytes 4 blk.length ++ (blk ++ rest.flatMap m.blockRecord))) 0 4
          rw [← hSplit, Nat.add_zero] at hSkip
          exact hSkip.trans (BlockNode.uintAt_leBytes (hBlocks b (List.mem_cons_self ..)))
        have hLen : blockLengthAt buf pre.length = blk.length := by
          have hSkip := BlockNode.uintAt_append (pre ++ leBytes 4 b)
            (leBytes 4 blk.length ++ (blk ++ rest.flatMap m.blockRecord)) 0 4
          rw [List.append_assoc, ← hSplit, List.length_append, leBytes_length, Nat.add_zero] at hSkip
          exact hSkip.trans (BlockNode.uintAt_leBytes (by omega))
        have hPayload : payloadAt buf pre.length = blk := by
          have hDrop : buf.drop (pre.length + 8) = blk ++ rest.flatMap m.blockRecord := by
            have hFront : pre.length + 8 =
                (pre ++ (leBytes 4 b ++ leBytes 4 blk.length)).length := by simp
            have hJoin : buf = (pre ++ (leBytes 4 b ++ leBytes 4 blk.length)) ++
                (blk ++ rest.flatMap m.blockRecord) := by
              rw [hSplit]
              simp only [List.append_assoc]
            rw [hFront, hJoin, List.drop_left]
          rw [payloadAt, hLen, hDrop, List.take_left]
        cases h with
        | done hDone => omega
        | @more _ node? tail ho hRecord hCopy hParse hTail =>
            have hBuf' : buf = (pre ++ (leBytes 4 b ++ (leBytes 4 blk.length ++ blk))) ++
                rest.flatMap m.blockRecord := by
              rw [hSplit]
              simp only [List.append_assoc]
            have hNext : blockEnd buf pre.length =
                (pre ++ (leBytes 4 b ++ (leBytes 4 blk.length ++ blk))).length := by
              rw [blockEnd, hLen]
              simp only [List.length_append, leBytes_length]
              omega
            rw [hNext] at hTail
            obtain ⟨hMap, hAll⟩ := ih _ hBuf' hRest hTail
            rw [hIndex, hPayload, ← hBlk] at hParse
            refine ⟨?_, fun record hMem => ?_⟩
            · rw [List.map_cons, hMap, hIndex, List.filter_cons_of_pos (by simp [hBit])]
            · rcases List.mem_cons.mp hMem with rfl | hMem
              · rw [hIndex]
                exact hParse
              · exact hAll record hMem

end SubPieceManager

end Storage
