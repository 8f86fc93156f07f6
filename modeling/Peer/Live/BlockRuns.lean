import Peer.Live.BlockOrder

/-! The integrity of a live block in every state that `AddSubPiece` can reach, whatever
arrives and in whatever order. -/
namespace Live

open Basis Storage HeaderSubPiece

namespace LiveBlockNode

variable {D : Digests} {node : LiveBlockNode} {header : HeaderSubPiece}

/-- What a reader of the block may rely on. -/
structure Intact (D : Digests) (node : LiveBlockNode) : Prop where
  hasHeader_iff : node.hasHeaderSubPiece = true ↔
    ∃ buffer, node.slot 0 = some buffer ∧ HeaderBuffer D node buffer
  count_eq : ∀ buffer, node.slot 0 = some buffer → HeaderBuffer D node buffer →
    node.getSubPiecesCount = 1 + ((load buffer.data).dataLength + 1399) / 1400
  checksum_eq : ∀ header, node.headerSubpiece = some header →
    ∀ p, PieceComplete node.slot node.getSubPiecesCount p →
      header.getPieceChecksum p = D.checkSumNew (node.pieceBytes p)
  complete : node.isComplete = true → node.hasHeaderSubPiece = true ∧
    ∀ p, 16 * p + 1 < node.getSubPiecesCount → p ∈ node.validatedPieces
  kept : ∀ (packet : Packet) (p : Nat), p ∈ node.validatedPieces →
    p ∈ (node.addSubPiece D packet.index packet.buffer).1.validatedPieces ∧
      ∀ j, InPiece p j → j < node.getSubPiecesCount → (node.slot j).isSome = true ∧
        (node.addSubPiece D packet.index packet.buffer).1.slot j = node.slot j

theorem Headless.intact (h : Headless node) : Intact D node where
  hasHeader_iff := by
    simp [hasHeaderSubPiece, h.header_eq, h.first_eq]
  count_eq buffer hFirst := by
    rw [h.first_eq] at hFirst
    cases hFirst
  checksum_eq header hHeader := by
    rw [h.header_eq] at hHeader
    cases hHeader
  complete hComplete := by
    simp [isComplete, hasHeaderSubPiece, h.header_eq] at hComplete
  kept packet p hMem := by
    rw [h.validated_eq] at hMem
    cases hMem

/-- A complete block has all subpieces of all pieces. -/
theorem CheckedUpTo.mem_of_isComplete (h : CheckedUpTo D header (pieceCount header) node)
    (hComplete : node.isComplete = true) {p : Nat} (hp : 16 * p + 1 < node.subpieces.length) :
    p ∈ node.validatedPieces := by
  unfold isComplete at hComplete
  rw [h.hasHeader] at hComplete
  simp only [Bool.not_true, Bool.false_eq_true, if_false, List.all_eq_true] at hComplete
  rw [h.mem_iff, lt_pieceCount_iff h.describes.1, ← h.length_eq]
  refine ⟨hp, hp, fun j _ hLt => ?_⟩
  have hSome := hComplete _ (List.getElem_mem hLt)
  simpa [slot, hLt] using hSome

theorem CheckedUpTo.intact (h : CheckedUpTo D header (pieceCount header) node) :
    Intact D node := by
  have hCount : node.getSubPiecesCount = node.subpieces.length := by
    rw [getSubPiecesCount, h.hasHeader, if_pos rfl]
  obtain ⟨arrived, hFirst, hLength, hLoad⟩ := h.buffer
  have hHeader : HeaderBuffer D node arrived := ⟨hLength, hLoad ▸ h.describes⟩
  refine ⟨?_, ?_, ?_, ?_, ?_⟩
  · exact ⟨fun _ => ⟨arrived, hFirst, hHeader⟩, fun _ => h.hasHeader⟩
  · intro buffer hBuffer _
    obtain rfl : arrived = buffer := Option.some.inj (hFirst.symm.trans hBuffer)
    rw [hCount, h.length_eq, hLoad]
    rfl
  · intro other hOther p hComplete
    obtain rfl : header = other := Option.some.inj (h.header_eq.symm.trans hOther)
    rw [hCount] at hComplete
    refine h.good p ((h.mem_iff p).mpr ⟨?_, hComplete⟩)
    rw [lt_pieceCount_iff h.describes.1, ← h.length_eq]
    exact hComplete.1
  · intro hComplete
    refine ⟨h.hasHeader, fun p hp => ?_⟩
    exact h.mem_of_isComplete hComplete (hCount ▸ hp)
  · intro packet p hMem
    have hSome := ((h.mem_iff p).mp hMem).2.2
    rw [hCount]
    by_cases hPos : 0 < packet.index
    · obtain ⟨hStays, hKept⟩ := h.kept hPos (addSubPiece_added h hPos packet.buffer) hMem
      exact ⟨hStays, fun j hIn hLt => ⟨hSome j hIn hLt, hKept j hIn hLt⟩⟩
    · have hZero : packet.index = 0 := by omega
      rw [hZero, h.addSubPiece_zero]
      exact ⟨hMem, fun j hIn hLt => ⟨hSome j hIn hLt, rfl⟩⟩

/-- After any calls of `AddSubPiece` the block is intact, and a valid header that arrives
now leaves the same block as if the gathered packets came after it, in any order. -/
theorem intact_of_run (D : Digests) (blockId : Nat) (rid : Guid) (packets : List Packet) :
    Intact D ((create blockId rid).receive D packets) ∧
      ∀ (arrived : LiveSubPieceBuffer) (later : List Packet),
        ((create blockId rid).receive D packets).hasHeaderSubPiece = false →
        HeaderBuffer D ((create blockId rid).receive D packets) arrived →
        Gathered ((create blockId rid).receive D packets) later →
        (((create blockId rid).receive D packets).addSubPiece D 0 (some arrived)).1 =
          receive D ((create blockId rid).addSubPiece D 0 (some arrived)).1 later := by
  obtain ⟨hSound, hId, hRid⟩ :=
    Sound.receive (D := D) (Or.inl (create_headless blockId rid)) packets
  generalize (create blockId rid).receive D packets = node at hSound hId hRid ⊢
  rcases hSound with hHeadless | ⟨header, hChecked⟩
  · refine ⟨hHeadless.intact, fun arrived later _ hHeader hGathered => ?_⟩
    have hCommutes := hHeadless.header_commutes hHeader hGathered
    rw [hId, hRid] at hCommutes
    exact hCommutes
  · refine ⟨hChecked.intact, fun _ _ hNone => ?_⟩
    rw [hChecked.hasHeader] at hNone
    cases hNone

section Runs

private def sumDigests : Digests := ⟨fun _ => Guid.zero, fun bytes => (bytes.map (·.toNat)).sum⟩

/-- The header of a block of one subpiece with the byte 1 in it. -/
private def oneByteHeader : LiveSubPieceBuffer where
  data := List.replicate 32 0 ++ leBytes 4 48 ++ leBytes 4 48 ++ leBytes 4 0 ++ leBytes 4 0 ++
    leBytes 4 1 ++ List.replicate 1348 0
  length_le := by decide +kernel

private def headerPacket : Packet := ⟨0, by decide, some oneByteHeader⟩

private def bytePacket (byte : UInt8) : Packet :=
  ⟨1, by decide, some ⟨[byte], LiveSubPieceBuffer.length_single_le byte⟩⟩

private theorem gathered_byte :
    Gathered ((create 0 Guid.zero).receive sumDigests [bytePacket 1]) [bytePacket 1] where
  nodup := by decide
  mem_iff packet := by
    obtain ⟨i, hi, buffer⟩ := packet
    have hNode : ((create 0 Guid.zero).receive sumDigests [bytePacket 1]).subpieces =
        [none, (bytePacket 1).buffer] := by decide +kernel
    unfold slot
    rw [hNode, List.mem_singleton]
    match i with
    | 0 =>
        simp only [bytePacket, Packet.mk.injEq, List.getD_cons_zero]
        constructor
        · rintro ⟨hEq, -⟩
          cases hEq
        · rintro ⟨hSome, rfl⟩
          cases hSome
    | 1 =>
        simp only [bytePacket, Packet.mk.injEq, List.getD_cons_succ, List.getD_cons_zero]
        constructor
        · rintro ⟨-, rfl⟩
          exact ⟨by trivial, rfl⟩
        · rintro ⟨-, rfl⟩
          exact ⟨by trivial, rfl⟩
    | i + 2 =>
        simp only [bytePacket, Packet.mk.injEq, List.getD_cons_succ, List.getD_nil]
        constructor
        · rintro ⟨hEq, -⟩
          omega
        · rintro ⟨hSome, rfl⟩
          cases hSome

/-- The right subpiece is validated by a header that comes after it. -/
theorem intact_of_late_header :
    Intact sumDigests ((create 0 Guid.zero).receive sumDigests [bytePacket 1]) ∧
      (((create 0 Guid.zero).receive sumDigests [bytePacket 1]).addSubPiece sumDigests 0
          (some oneByteHeader)).1 =
        receive sumDigests ((create 0 Guid.zero).addSubPiece sumDigests 0 (some oneByteHeader)).1
          [bytePacket 1] := by
  have hHeader : HeaderBuffer sumDigests ((create 0 Guid.zero).receive sumDigests [bytePacket 1])
      oneByteHeader := ⟨by decide +kernel, by decide +kernel⟩
  have hRun := intact_of_run sumDigests 0 Guid.zero [bytePacket 1]
  exact ⟨hRun.1, hRun.2 oneByteHeader [bytePacket 1] (by decide +kernel) hHeader gathered_byte⟩

/-- A wrong subpiece is kept until the header comes, and the right one is not taken in
its place; after the header the wrong one is dropped at once. -/
theorem header_order_matters :
    ¬ ∀ (D : Digests) (blockId : Nat) (rid : Guid) (packets : List Packet) (header : Packet),
      header.index = 0 → (∀ packet ∈ packets, 0 < packet.index) →
      ((create blockId rid).receive D (packets ++ [header])).subpieces =
        ((create blockId rid).receive D (header :: packets)).subpieces := by
  intro h
  have hSame := h sumDigests 0 Guid.zero [bytePacket 0, bytePacket 1] headerPacket rfl
    (by decide +kernel)
  have hDiffer : (((create 0 Guid.zero).receive sumDigests
      ([bytePacket 0, bytePacket 1] ++ [headerPacket])).slot 1).isSome ≠
      (((create 0 Guid.zero).receive sumDigests
        (headerPacket :: [bytePacket 0, bytePacket 1])).slot 1).isSome := by decide +kernel
  apply hDiffer
  unfold slot
  rw [hSame]

end Runs

end LiveBlockNode

end Live
