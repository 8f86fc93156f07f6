import Peer.P2P.PieceTask
import Peer.Storage.Agreement

/-! When the requests for a piece task and the check of its completion speak of the same
subpieces: those from the start of the task to its end that the file has. -/
namespace P2P

open Storage

variable {g : ProtocolPieces} {r : RidInfo} {v : AssignerView} {x : Pieces} {t : PieceInfoEx}
  {counted countedEnd : Bool} {held : Nat → Nat → Prop} {s : SubPieceInfo}

/-- What the library computes. Whether `PieceInfoEx::GetPosition` counts the first
subpiece and `PieceInfoEx::GetEndPosition` the last one is left open. -/
structure ProtocolPieces.Computes (g : ProtocolPieces) (counted countedEnd : Bool) : Prop where
  position_eq : ∀ p blockSize, g.getPosition p blockSize =
    u32 (p.blockIndex * blockSize + p.pieceIndex * pieceSize)
  endPosition_eq : ∀ p blockSize, g.getEndPosition p blockSize =
    u32 (g.getPosition p blockSize + pieceSize)
  positionEx_eq : ∀ t blockSize, g.getPositionEx t blockSize =
    u32 (g.getPosition t.getPieceInfo blockSize +
      if counted then t.subpieceIndex * bytesNumPerSubpiece else 0)
  endPositionEx_eq : ∀ t blockSize, g.getEndPositionEx t blockSize =
    u32 (g.getPosition t.getPieceInfo blockSize +
      if countedEnd then (t.subpieceIndexEnd + 1) * bytesNumPerSubpiece else pieceSize)

/-- The task is for a piece of the file, and its two indexes are those of subpieces. -/
structure TaskOf (r : RidInfo) (t : PieceInfoEx) : Prop where
  blockIndex_lt : t.blockIndex < r.blockCount
  pieceIndex_lt : t.pieceIndex * subpieceNumPerPiece < r.capacity t.blockIndex
  start_lt : t.subpieceIndex < subpieceNumPerPiece
  end_lt : t.subpieceIndexEnd < subpieceNumPerPiece

/-- The subpieces of the file from the start of a task to its end: subpiece `k` of block
`b` is one of them. The numbers are not cut to those of a `SubPieceInfo`. -/
def Wanted (r : RidInfo) (t : PieceInfoEx) (b k : Nat) : Prop :=
  b = t.blockIndex ∧ k < r.capacity t.blockIndex ∧ ∃ i, t.subpieceIndex ≤ i ∧
    i ≤ t.subpieceIndexEnd ∧ k = t.pieceIndex * subpieceNumPerPiece + i

/-- The instance answers from what it holds. -/
structure AnswersFrom (r : RidInfo) (held : Nat → Nat → Prop) (x : Pieces) : Prop where
  hasPiece_iff : ∀ p, p.blockIndex < r.blockCount →
    p.pieceIndex * subpieceNumPerPiece < r.capacity p.blockIndex →
    (x.hasPiece p = true ↔ ∀ s < r.capacity p.blockIndex,
      s / subpieceNumPerPiece = p.pieceIndex → held p.blockIndex s)
  hasSubPiece_iff : ∀ info, r.Inside info →
    (x.hasSubPiece info = true ↔ held info.blockIndex info.subpieceIndex)

/-- A store in which every block agrees answers so. -/
theorem answersFrom_of_blocksAgree {μ : Type} [BlockMap μ] {m : SubPieceManager μ}
    (h : SubPieceManager.BlocksAgree r m) (hr : r.Addressable) :
    AnswersFrom r m.Held ⟨fun p => m.hasPiece p.blockIndex p.pieceIndex, m.hasSubPiece⟩ where
  hasPiece_iff _ hBlock hPiece := h.hasPiece_iff hr hBlock hPiece
  hasSubPiece_iff _ hInside := h.hasSubPiece_iff hr hInside

/-- The requests for a task are for the wanted subpieces, and it is complete when these
are held. -/
structure Matches (g : ProtocolPieces) (r : RidInfo) (t : PieceInfoEx) : Prop where
  requested_iff : ∀ b k, (∃ v driver, ∃ s ∈ caclSubPieceAssignMap g r v [(t, driver)],
    s.blockIndex = b ∧ s.subpieceIndex = k) ↔ Wanted r t b k
  complete_iff : ∀ held x, AnswersFrom r held x → ∀ tasks driver, (t, driver) ∈ tasks →
    ((t, driver) ∈ (checkPieceComplete g r x tasks).1 ↔ ∀ b k, Wanted r t b k → held b k) ∧
    ((t, driver) ∈ (checkPieceComplete g r x tasks).2 ↔ ¬ ∀ b k, Wanted r t b k → held b k)

section Loops

theorem mem_subPiecesTo {subpieceEnd : Nat} : s ∈ subPiecesTo t subpieceEnd ↔
    ∃ i, t.subpieceIndex ≤ i ∧ i ≤ subpieceEnd ∧
      s = SubPieceInfo.make t.blockIndex (t.pieceIndex * subpieceNumPerPiece + i) := by
  unfold subPiecesTo
  rw [List.mem_map]
  constructor
  · rintro ⟨i, hRange, rfl⟩
    rw [List.mem_range'_1] at hRange
    exact ⟨i, by omega, by omega, rfl⟩
  · rintro ⟨i, hLo, hHi, rfl⟩
    exact ⟨i, by rw [List.mem_range'_1]; omega, rfl⟩

theorem mem_checkPieceComplete {tasks : List (PieceInfoEx × Nat)} {driver : Nat}
    (h : (t, driver) ∈ tasks) :
    ((t, driver) ∈ (checkPieceComplete g r x tasks).1 ↔ isComplete g r x t = true) ∧
    ((t, driver) ∈ (checkPieceComplete g r x tasks).2 ↔ isComplete g r x t = false) := by
  simp [checkPieceComplete, List.partition_eq_filter_filter, h]

theorem mem_of_redundantFirst {few more need : Nat} {s' : SubPieceInfo}
    (h : s ∈ redundantFirst v few more need s') : s = s' := by
  unfold redundantFirst at h
  split at h
  · cases h
  · split at h
    · simpa using h
    · split at h
      · simpa using h
      · split at h
        · simpa using h
        · cases h

/-- Redundant requests are for subpieces of the loop. -/
theorem mem_of_redundant {index need : Nat} {eofFile : Bool} {subpieces : List SubPieceInfo}
    (h : s ∈ redundant v index eofFile need subpieces) : s ∈ subpieces := by
  have hFirst : ∀ few more, s ∈ subpieces.flatMap (redundantFirst v few more need) →
      s ∈ subpieces := by
    intro few more hMem
    obtain ⟨s', hIn, hEq⟩ := List.mem_flatMap.mp hMem
    rwa [mem_of_redundantFirst hEq]
  have hAll : s ∈ redundantAll v subpieces → s ∈ subpieces := fun hMem => List.mem_of_mem_filter hMem
  have hFilter : ∀ (c : Prop) [Decidable c] (q : SubPieceInfo → Bool),
      s ∈ (if c then subpieces.filter q else []) → s ∈ subpieces := by
    intro c _ q hMem
    split at hMem
    · exact List.mem_of_mem_filter hMem
    · cases hMem
  unfold redundant at h
  dsimp only at h
  split at h
  · split at h
    · split at h
      · exact hAll h
      · split at h
        · exact hFirst 3 10 h
        · exact hFilter _ _ h
    · cases h
  · split at h
    · exact hFirst 5 15 h
    · split at h
      · exact hAll h
      · exact hFilter _ _ h
  · split at h
    · exact hAll h
    · cases h
  · cases h

/-- What can be requested for a task is what the loop visits. -/
theorem requestable_iff : (∃ v driver, s ∈ caclSubPieceAssignMap g r v [(t, driver)]) ↔
    s ∈ subPiecesTo t (assignedEnd g r t) := by
  constructor
  · rintro ⟨v, driver, hMem⟩
    have hOnce : s ∈ (assignTasks g r v (eofOf g r [t]) 0 [] [t]).1 := by
      simp only [caclSubPieceAssignMap, List.map_cons, List.map_nil, List.mem_append,
        List.mem_flatten, List.mem_replicate] at hMem
      rcases hMem with hMem | ⟨l, ⟨-, rfl⟩, hMem⟩
      · exact hMem
      · exact hMem
    simp only [assignTasks, List.any_nil, Bool.false_eq_true, if_false, assignTask,
      List.append_nil, List.mem_append] at hOnce
    rcases hOnce with hNormal | hExtra
    · exact List.mem_of_mem_filter (List.mem_of_mem_filter hNormal)
    · exact mem_of_redundant hExtra
  · intro hMem
    -- Nothing is held and nothing is requested.
    refine ⟨⟨.default, .other, fun _ => false, fun _ => false, fun _ _ => false, fun _ => 0⟩, 0, ?_⟩
    simp only [caclSubPieceAssignMap, List.map_cons, List.map_nil]
    apply List.mem_append_left
    simp [assignTasks, assignTask, hMem]

end Loops

section Place

/-- The subpieces of a file begin before its end. -/
theorem subpiece_lt_fileLength (hr : r.Valid) {b i : Nat} (hb : b < r.blockCount)
    (hi : i < r.capacity b) : b * r.blockSize + i * bytesNumPerSubpiece < r.fileLength := by
  have hLength := hr.fileLength_pos (by omega)
  have hCount := hr.blockCount_sub_one hLength
  have hSplit := Nat.div_add_mod (r.fileLength - 1) r.blockSize
  have hSize := hr.blockSize_eq
  unfold RidInfo.capacity at hi
  split at hi
  · rename_i hLast
    have hIndex : i * bytesNumPerSubpiece ≤ (r.fileLength - 1) % r.blockSize := by
      unfold RidInfo.lastSubpiece at hi
      exact (Nat.mul_le_mul_right _ (by omega)).trans (Nat.div_mul_le_self _ _)
    rw [show b = (r.fileLength - 1) / r.blockSize by omega, Nat.mul_comm]
    omega
  · have hIndex : (i + 1) * bytesNumPerSubpiece ≤ r.blockSize := by
      rw [Nat.mul_comm] at hSize
      exact (Nat.mul_le_mul_right _ hi).trans hSize.le
    have hNext : (b + 1) * r.blockSize ≤ (r.fileLength - 1) / r.blockSize * r.blockSize :=
      Nat.mul_le_mul_right _ (by omega)
    rw [Nat.mul_comm ((r.fileLength - 1) / r.blockSize)] at hNext
    simp only [bytesNumPerSubpiece] at hIndex ⊢
    rw [Nat.add_mul] at hNext
    omega

/-- Where the piece of a task begins in the file. -/
def piecePosition (r : RidInfo) (t : PieceInfoEx) : Nat :=
  t.blockIndex * r.blockSize + t.pieceIndex * pieceSize

/-- The last subpiece of the file, counted from the start of the piece. -/
def eofIndex (r : RidInfo) (t : PieceInfoEx) : Nat :=
  (r.fileLength - piecePosition r t - 1) / bytesNumPerSubpiece

/-- The last subpiece that the piece has in its block. -/
def lastIndex (r : RidInfo) (t : PieceInfoEx) : Nat :=
  min 127 (r.capacity t.blockIndex - t.pieceIndex * subpieceNumPerPiece - 1)

/-- What the arithmetic of the positions rests on. -/
structure Placed (r : RidInfo) (t : PieceInfoEx) : Prop where
  position_lt : piecePosition r t < r.fileLength
  last_le : lastIndex r t ≤ 127
  last_le_eof : lastIndex r t ≤ eofIndex r t
  inside_iff : ∀ i ≤ 127,
    t.pieceIndex * subpieceNumPerPiece + i < r.capacity t.blockIndex ↔ i ≤ lastIndex r t

theorem TaskOf.placed (h : TaskOf r t) (hr : r.Valid) : Placed r t := by
  have hPiece := h.pieceIndex_lt
  have hFirst := subpiece_lt_fileLength hr h.blockIndex_lt hPiece
  have hLast := subpiece_lt_fileLength hr h.blockIndex_lt
    (show t.pieceIndex * subpieceNumPerPiece + lastIndex r t < r.capacity t.blockIndex by
      unfold lastIndex
      omega)
  have hPosition : piecePosition r t = t.blockIndex * r.blockSize +
      t.pieceIndex * subpieceNumPerPiece * bytesNumPerSubpiece := by
    rw [piecePosition, pieceSize, Nat.mul_assoc, Nat.mul_comm bytesNumPerSubpiece]
  refine ⟨by omega, Nat.min_le_left _ _, ?_, fun i hi => by unfold lastIndex; omega⟩
  unfold eofIndex
  rw [Nat.le_div_iff_mul_le (by decide), hPosition]
  rw [Nat.add_mul] at hLast
  omega

/-- The block and the subpieces of the piece have a `boost::uint16_t` each as their name. -/
def Named (t : PieceInfoEx) : Prop :=
  t.blockIndex < 2 ^ 16 ∧ t.pieceIndex * subpieceNumPerPiece < 2 ^ 16

instance (t : PieceInfoEx) : Decidable (Named t) := by
  unfold Named
  infer_instance

/-- A loop of the downloader looks at a subpiece under its own name. -/
theorem Named.make_eq (h : Named t) {i : Nat} (hi : i ≤ 127) :
    (SubPieceInfo.make t.blockIndex (t.pieceIndex * subpieceNumPerPiece + i)).blockIndex =
        t.blockIndex ∧
      (SubPieceInfo.make t.blockIndex (t.pieceIndex * subpieceNumPerPiece + i)).subpieceIndex =
        t.pieceIndex * subpieceNumPerPiece + i := by
  obtain ⟨hBlock, hPiece⟩ := h
  refine ⟨u16_of_lt hBlock, u16_of_lt ?_⟩
  simp only [subpieceNumPerPiece] at hPiece ⊢
  omega

/-- The names of the subpieces of a piece are different. -/
theorem Named.make_inj (h : Named t) {i j : Nat} (hi : i ≤ 127) (hj : j ≤ 127)
    (hEq : SubPieceInfo.make t.blockIndex (t.pieceIndex * subpieceNumPerPiece + i) =
      SubPieceInfo.make t.blockIndex (t.pieceIndex * subpieceNumPerPiece + j)) : i = j := by
  have hSub := congrArg SubPieceInfo.subpieceIndex hEq
  rw [(h.make_eq hi).2, (h.make_eq hj).2] at hSub
  omega

/-- What is wanted ends with the task and with the block. -/
theorem wanted_iff (hr : r.Valid) (h : TaskOf r t) {b k : Nat} : Wanted r t b k ↔
    b = t.blockIndex ∧ ∃ i, t.subpieceIndex ≤ i ∧ i ≤ t.subpieceIndexEnd ∧ i ≤ lastIndex r t ∧
      k = t.pieceIndex * subpieceNumPerPiece + i := by
  have hPlaced := h.placed hr
  have hEnd := h.end_lt
  simp only [subpieceNumPerPiece] at hEnd
  constructor
  · rintro ⟨hBlock, hIn, i, hLo, hHi, rfl⟩
    exact ⟨hBlock, i, hLo, hHi, (hPlaced.inside_iff i (by omega)).mp hIn, rfl⟩
  · rintro ⟨hBlock, i, hLo, hHi, hLe, rfl⟩
    exact ⟨hBlock, (hPlaced.inside_iff i (by omega)).mpr hLe, i, hLo, hHi, rfl⟩

/-- The task wants a subpiece at all. -/
def Wants (r : RidInfo) (t : PieceInfoEx) : Prop :=
  t.subpieceIndex ≤ min t.subpieceIndexEnd (lastIndex r t)

instance (r : RidInfo) (t : PieceInfoEx) : Decidable (Wants r t) := by
  unfold Wants
  infer_instance

/-- A loop over a piece visits the wanted subpieces if they have names and it ends where
they do, or if there is nothing to visit and nothing wanted. -/
theorem visits_wanted_iff (hr : r.Valid) (h : TaskOf r t) {subpieceEnd : Nat}
    (hEnd : subpieceEnd ≤ 127) :
    (∀ b k, (∃ s ∈ subPiecesTo t subpieceEnd, s.blockIndex = b ∧ s.subpieceIndex = k) ↔
        Wanted r t b k) ↔
      (Wants r t → Named t) ∧
      (subpieceEnd = min t.subpieceIndexEnd (lastIndex r t) ∨
        (subpieceEnd < t.subpieceIndex ∧ ¬ Wants r t)) := by
  have hLast := (h.placed hr).last_le
  unfold Wants
  constructor
  · intro hSame
    have hNamed : t.subpieceIndex ≤ min t.subpieceIndexEnd (lastIndex r t) → Named t := by
      intro hLe
      obtain ⟨s, -, hBlock, hSub⟩ := (hSame _ _).mpr ((wanted_iff hr h).mpr
        ⟨rfl, t.subpieceIndex, Nat.le_refl _, by omega, by omega, rfl⟩)
      have hBlockLt := s.blockIndex_lt
      have hSubLt := s.subpieceIndex_lt
      exact ⟨by omega, by omega⟩
    -- Each of the two ends is reached by both loops.
    have hUp : t.subpieceIndex ≤ subpieceEnd →
        subpieceEnd ≤ min t.subpieceIndexEnd (lastIndex r t) := by
      intro hLe
      obtain ⟨-, i, hLo, hHi, hIn, hSub⟩ := (wanted_iff hr h).mp ((hSame _ _).mp
        ⟨_, mem_subPiecesTo.mpr ⟨subpieceEnd, hLe, Nat.le_refl _, rfl⟩, rfl, rfl⟩)
      rw [((hNamed (by omega)).make_eq hEnd).2] at hSub
      omega
    have hDown : t.subpieceIndex ≤ min t.subpieceIndexEnd (lastIndex r t) →
        min t.subpieceIndexEnd (lastIndex r t) ≤ subpieceEnd := by
      intro hLe
      obtain ⟨s, hMem, -, hSub⟩ := (hSame _ _).mpr ((wanted_iff hr h).mpr
        ⟨rfl, _, hLe, Nat.min_le_left _ _, Nat.min_le_right _ _, rfl⟩)
      obtain ⟨i, -, hHi, rfl⟩ := mem_subPiecesTo.mp hMem
      rw [((hNamed hLe).make_eq (by omega)).2] at hSub
      omega
    exact ⟨hNamed, by omega⟩
  · rintro ⟨hNamed, hEnds⟩ b k
    rw [wanted_iff hr h]
    constructor
    · rintro ⟨s, hMem, rfl, rfl⟩
      obtain ⟨i, hLo, hHi, rfl⟩ := mem_subPiecesTo.mp hMem
      obtain ⟨hBlock, hSub⟩ := (hNamed (by omega)).make_eq (show i ≤ 127 by omega)
      exact ⟨hBlock, i, hLo, by omega, by omega, hSub⟩
    · rintro ⟨rfl, i, hLo, hHi, hLe, rfl⟩
      obtain ⟨hBlock, hSub⟩ := (hNamed (by omega)).make_eq (show i ≤ 127 by omega)
      exact ⟨_, mem_subPiecesTo.mpr ⟨i, hLo, by omega, rfl⟩, hBlock, hSub⟩

end Place

section Ends

/-- When the loops agree with what is wanted of the task. -/
structure HoldsWhen (g : ProtocolPieces) (r : RidInfo) (counted : Bool) (t : PieceInfoEx) :
    Prop where
  named : Wants r t → Named t
  atEof : r.fileLength ≤ g.getEndPosition t.getPieceInfo r.blockSize →
    eofIndex r t < t.subpieceIndex ∨
      (lastIndex r t = eofIndex r t ∧ lastIndex r t ≤ t.subpieceIndexEnd)
  beforeEof : g.getEndPosition t.getPieceInfo r.blockSize < r.fileLength →
    t.subpieceIndexEnd < t.subpieceIndex ∨ t.subpieceIndexEnd ≤ lastIndex r t
  fromFirst : t.subpieceIndex = 0 → lastIndex r t ≤ t.subpieceIndexEnd
  fromLater : counted = true → t.subpieceIndex ≠ 0 →
    g.getEndPositionEx t r.blockSize ≤ r.fileLength

theorem getPosition_eq (hg : g.Computes counted countedEnd) (hp : Placed r t) :
    g.getPosition t.getPieceInfo r.blockSize = piecePosition r t := by
  rw [hg.position_eq]
  exact u32_of_lt (hp.position_lt.trans r.fileLength_lt)

theorem getEndPosition_eq (hg : g.Computes counted countedEnd) (hp : Placed r t) :
    g.getEndPosition t.getPieceInfo r.blockSize = u32 (piecePosition r t + pieceSize) := by
  rw [hg.endPosition_eq, getPosition_eq hg hp]

theorem getEndPositionEx_eq (hg : g.Computes counted countedEnd) (hp : Placed r t) :
    g.getEndPositionEx t r.blockSize = u32 (piecePosition r t +
      if countedEnd then (t.subpieceIndexEnd + 1) * bytesNumPerSubpiece else pieceSize) := by
  rw [hg.endPositionEx_eq, getPosition_eq hg hp]

/-- A sum that is past the end of the file did not wrap around. -/
theorem of_le_u32 {p k : Nat} (hp : p < r.fileLength) (hk : k ≤ pieceSize)
    (h : r.fileLength ≤ u32 (p + k)) : p + k < 2 ^ 32 ∧ u32 (p + k) = p + k := by
  have hLength := r.fileLength_lt
  have hLt : p + k < 2 ^ 32 := by
    by_contra hWrap
    have hRest : u32 (p + k) = p + k - 2 ^ 32 := by
      simp only [pieceSize, bytesNumPerSubpiece, subpieceNumPerPiece] at hk
      unfold u32
      omega
    simp only [pieceSize, bytesNumPerSubpiece, subpieceNumPerPiece] at hk
    omega
  exact ⟨hLt, u32_of_lt hLt⟩

theorem assignedEnd_eq (hg : g.Computes counted countedEnd) (hp : Placed r t) :
    (r.fileLength ≤ g.getEndPosition t.getPieceInfo r.blockSize ∧
      assignedEnd g r t = eofIndex r t ∧ eofIndex r t ≤ 127) ∨
    (g.getEndPosition t.getPieceInfo r.blockSize < r.fileLength ∧
      assignedEnd g r t = t.subpieceIndexEnd) := by
  have hLt := hp.position_lt
  have hLength := r.fileLength_lt
  unfold assignedEnd
  dsimp only
  split
  · rename_i hCut
    left
    refine ⟨hCut, ?_⟩
    rw [getEndPosition_eq hg hp] at hCut ⊢
    obtain ⟨hNoWrap, hEq⟩ := of_le_u32 hLt (Nat.le_refl _) hCut
    rw [hEq] at hCut ⊢
    rw [subU32_of_le hNoWrap (Nat.le_add_left _ _), Nat.add_sub_cancel,
      subU32_of_le hLength hLt.le, subU32_of_le (by omega) (by omega)]
    refine ⟨rfl, ?_⟩
    simp only [eofIndex, pieceSize, bytesNumPerSubpiece, subpieceNumPerPiece] at hCut ⊢
    omega
  · rename_i hUncut
    exact Or.inr ⟨by omega, rfl⟩

/-- The end of the check, where the position does not count the first subpiece. -/
theorem checkedEnd_eq (hg : g.Computes false countedEnd) (hp : Placed r t)
    (hEnd : t.subpieceIndexEnd ≤ 127) :
    (r.fileLength < g.getEndPositionEx t r.blockSize ∧ checkedEnd g r t = eofIndex r t ∧
      eofIndex r t ≤ 127) ∨
    (g.getEndPositionEx t r.blockSize ≤ r.fileLength ∧
      checkedEnd g r t = t.subpieceIndexEnd) := by
  have hLt := hp.position_lt
  have hLength := r.fileLength_lt
  unfold checkedEnd
  split
  · rename_i hCut
    left
    refine ⟨hCut, ?_⟩
    have hPosition : g.getPositionEx t r.blockSize = piecePosition r t := by
      rw [hg.positionEx_eq, getPosition_eq hg hp]
      exact u32_of_lt (by simpa using hLt.trans hLength)
    rw [getEndPositionEx_eq hg hp] at hCut
    have hSize : (if countedEnd then (t.subpieceIndexEnd + 1) * bytesNumPerSubpiece else pieceSize) ≤
        pieceSize := by
      simp only [pieceSize, bytesNumPerSubpiece, subpieceNumPerPiece]
      split <;> omega
    obtain ⟨-, hEq⟩ := of_le_u32 hLt hSize hCut.le
    rw [hEq] at hCut
    rw [hPosition, subU32_of_le hLength hLt.le, subU32_of_le (by omega) (by omega)]
    refine ⟨rfl, ?_⟩
    simp only [eofIndex, pieceSize, bytesNumPerSubpiece, subpieceNumPerPiece] at hCut hSize ⊢
    omega
  · rename_i hUncut
    exact Or.inr ⟨by omega, rfl⟩

theorem requested_wanted_iff (hr : r.Valid) (hg : g.Computes counted countedEnd)
    (h : TaskOf r t) :
    (∀ b k, (∃ s ∈ subPiecesTo t (assignedEnd g r t), s.blockIndex = b ∧ s.subpieceIndex = k) ↔
        Wanted r t b k) ↔
      (Wants r t → Named t) ∧
      (r.fileLength ≤ g.getEndPosition t.getPieceInfo r.blockSize →
        eofIndex r t < t.subpieceIndex ∨
          (lastIndex r t = eofIndex r t ∧ lastIndex r t ≤ t.subpieceIndexEnd)) ∧
      (g.getEndPosition t.getPieceInfo r.blockSize < r.fileLength →
        t.subpieceIndexEnd < t.subpieceIndex ∨ t.subpieceIndexEnd ≤ lastIndex r t) := by
  have hp := h.placed hr
  have hLast := hp.last_le_eof
  have hEnd := h.end_lt
  simp only [subpieceNumPerPiece] at hEnd
  rcases assignedEnd_eq hg hp with ⟨hCut, hEq, hLe⟩ | ⟨hUncut, hEq⟩
  · rw [hEq, visits_wanted_iff hr h hLe, and_congr_right_iff]
    intro _
    unfold Wants
    constructor
    · intro hEnds
      exact ⟨fun _ => by omega, fun hNot => by omega⟩
    · rintro ⟨hAt, -⟩
      have := hAt hCut
      omega
  · rw [hEq, visits_wanted_iff hr h (by omega), and_congr_right_iff]
    intro _
    unfold Wants
    constructor
    · intro hEnds
      exact ⟨fun hNot => by omega, fun _ => by omega⟩
    · rintro ⟨-, hBefore⟩
      have := hBefore hUncut
      omega

/-- What the assigner can request for the task, by block and index. -/
theorem requestable_named_iff (b k : Nat) :
    (∃ v driver, ∃ s ∈ caclSubPieceAssignMap g r v [(t, driver)],
        s.blockIndex = b ∧ s.subpieceIndex = k) ↔
      ∃ s ∈ subPiecesTo t (assignedEnd g r t), s.blockIndex = b ∧ s.subpieceIndex = k := by
  constructor
  · rintro ⟨v, driver, s, hRequested, hName⟩
    exact ⟨s, requestable_iff.mp ⟨v, driver, hRequested⟩, hName⟩
  · rintro ⟨s, hMem, hName⟩
    obtain ⟨v, driver, hRequested⟩ := requestable_iff.mpr hMem
    exact ⟨v, driver, s, hRequested, hName⟩

theorem Matches.visits (h : Matches g r t) (b k : Nat) :
    (∃ s ∈ subPiecesTo t (assignedEnd g r t), s.blockIndex = b ∧ s.subpieceIndex = k) ↔
      Wanted r t b k := by
  rw [← requestable_named_iff, h.requested_iff]

end Ends

section Completion

/-- The subpieces of the piece of a task are the first ones up to its last index. -/
theorem AnswersFrom.hasPiece_iff' (hx : AnswersFrom r held x) (hr : r.Valid)
    (h : TaskOf r t) : x.hasPiece t.getPieceInfo = true ↔
      ∀ i ≤ lastIndex r t, held t.blockIndex (t.pieceIndex * subpieceNumPerPiece + i) := by
  have hp := h.placed hr
  rw [hx.hasPiece_iff t.getPieceInfo h.blockIndex_lt h.pieceIndex_lt]
  simp only [PieceInfoEx.getPieceInfo]
  constructor
  · intro hAll i hi
    have hLe := hp.last_le
    apply hAll _ ((hp.inside_iff i (by omega)).mpr hi)
    simp only [subpieceNumPerPiece]
    omega
  · intro hAll j hj hPiece
    have hSplit : j = t.pieceIndex * subpieceNumPerPiece + j % subpieceNumPerPiece := by
      rw [← hPiece, Nat.mul_comm]
      exact (Nat.div_add_mod j subpieceNumPerPiece).symm
    have hMod : j % subpieceNumPerPiece ≤ 127 := by
      simp only [subpieceNumPerPiece]
      omega
    rw [hSplit] at hj ⊢
    exact hAll _ ((hp.inside_iff _ hMod).mp hj)

theorem held_of_hasPiece (hx : AnswersFrom r held x) (hr : r.Valid) (h : TaskOf r t)
    (hPiece : x.hasPiece t.getPieceInfo = true) {b k : Nat} (hWanted : Wanted r t b k) :
    held b k := by
  obtain ⟨rfl, i, -, -, hLe, rfl⟩ := (wanted_iff hr h).mp hWanted
  exact (hx.hasPiece_iff' hr h).mp hPiece i hLe

/-- The check of a task that begins with the first subpiece of its piece. -/
theorem isComplete_of_first (h : t.subpieceIndex = 0) :
    isComplete g r x t = x.hasPiece t.getPieceInfo := by
  simp [isComplete, h]

theorem isComplete_of_later (h : t.subpieceIndex ≠ 0) : isComplete g r x t = true ↔
    x.hasPiece t.getPieceInfo = true ∨
      ∀ s ∈ subPiecesTo t (checkedEnd g r t), x.hasSubPiece s = true := by
  simp [isComplete, h]

/-- Where the condition holds, the loop of a task that begins later visits what is wanted. -/
theorem checks_wanted (hr : r.Valid) (hg : g.Computes counted countedEnd) (h : TaskOf r t)
    (hWhen : HoldsWhen g r counted t) (hLater : t.subpieceIndex ≠ 0) (b k : Nat) :
    (∃ s ∈ subPiecesTo t (checkedEnd g r t), s.blockIndex = b ∧ s.subpieceIndex = k) ↔
      Wanted r t b k := by
  revert b k
  have hp := h.placed hr
  have hLt := hp.position_lt
  have hLast := hp.last_le_eof
  have hEnd := h.end_lt
  have hAt := hWhen.atEof
  have hBefore := hWhen.beforeEof
  rw [getEndPosition_eq hg hp] at hAt hBefore
  have hExact : eofIndex r t = (r.fileLength - piecePosition r t - 1) / 1024 := rfl
  have hEx := getEndPositionEx_eq hg hp
  have hUncut : g.getEndPositionEx t r.blockSize ≤ r.fileLength →
      t.subpieceIndexEnd ≤ lastIndex r t ∨ t.subpieceIndexEnd < t.subpieceIndex := by
    intro hLe
    rcases Nat.lt_or_ge (u32 (piecePosition r t + pieceSize)) r.fileLength with hOut | hIn
    · exact (hBefore hOut).symm
    · obtain ⟨hNoWrap, hEq⟩ := of_le_u32 hLt (Nat.le_refl _) hIn
      have hCases := hAt hIn
      rw [hEq] at hIn
      simp only [pieceSize, bytesNumPerSubpiece, subpieceNumPerPiece] at hEx hIn hNoWrap hEnd
      rw [hEx, u32_of_lt (by split <;> omega)] at hLe
      split at hLe <;> omega
  by_cases hCutEx : r.fileLength < g.getEndPositionEx t r.blockSize
  · have hNotCounted : counted = false := by
      by_contra hCounted
      have := hWhen.fromLater (by simpa using hCounted) hLater
      omega
    subst hNotCounted
    rcases checkedEnd_eq hg hp (Nat.le_of_lt_succ hEnd) with ⟨-, hEq, hLe⟩ | ⟨hNot, -⟩
    · rw [hEq, visits_wanted_iff hr h hLe]
      refine ⟨hWhen.named, ?_⟩
      unfold Wants
      have hSize : (if countedEnd then (t.subpieceIndexEnd + 1) * bytesNumPerSubpiece
          else pieceSize) ≤ pieceSize := by
        simp only [pieceSize, bytesNumPerSubpiece, subpieceNumPerPiece] at hEnd ⊢
        split <;> omega
      rw [hEx] at hCutEx
      obtain ⟨hNoWrap, hEqEx⟩ := of_le_u32 hLt hSize hCutEx.le
      rw [hEqEx] at hCutEx
      rcases Nat.lt_or_ge (u32 (piecePosition r t + pieceSize)) r.fileLength with hOut | hIn
      · have hCases := hBefore hOut
        cases countedEnd with
        | true =>
            simp only [if_true, bytesNumPerSubpiece] at hCutEx
            omega
        | false =>
            simp only [Bool.false_eq_true, if_false] at hCutEx hNoWrap
            rw [u32_of_lt hNoWrap] at hOut
            omega
      · have hCases := hAt hIn
        omega
    · omega
  · have hEq : checkedEnd g r t = t.subpieceIndexEnd := if_neg hCutEx
    have hCases := hUncut (by omega)
    simp only [subpieceNumPerPiece] at hEnd
    rw [hEq, visits_wanted_iff hr h (by omega)]
    refine ⟨hWhen.named, ?_⟩
    unfold Wants
    omega

/-- The check is right where the condition holds. -/
theorem isComplete_iff (hr : r.Valid) (hg : g.Computes counted countedEnd) (h : TaskOf r t)
    (hWhen : HoldsWhen g r counted t) (hx : AnswersFrom r held x) :
    isComplete g r x t = true ↔ ∀ b k, Wanted r t b k → held b k := by
  by_cases hFirst : t.subpieceIndex = 0
  · have hLast := hWhen.fromFirst hFirst
    rw [isComplete_of_first hFirst]
    refine ⟨fun hPiece b k hWanted => held_of_hasPiece hx hr h hPiece hWanted, fun hAll => ?_⟩
    rw [hx.hasPiece_iff' hr h]
    intro i hi
    exact hAll _ _ ((wanted_iff hr h).mpr ⟨rfl, i, by omega, by omega, hi, rfl⟩)
  · have hChecks := checks_wanted hr hg h hWhen hFirst
    have hInside {s : SubPieceInfo} (hWanted : Wanted r t s.blockIndex s.subpieceIndex) :
        r.Inside s := by
      obtain ⟨hBlock, hIn, -⟩ := hWanted
      exact ⟨hBlock ▸ h.blockIndex_lt, hBlock ▸ hIn⟩
    rw [isComplete_of_later hFirst]
    constructor
    · rintro (hPiece | hAll) b k hWanted
      · exact held_of_hasPiece hx hr h hPiece hWanted
      · obtain ⟨s, hMem, rfl, rfl⟩ := (hChecks b k).mpr hWanted
        exact (hx.hasSubPiece_iff s (hInside hWanted)).mp (hAll s hMem)
    · intro hAll
      right
      intro s hMem
      have hWanted := (hChecks _ _).mp ⟨s, hMem, rfl, rfl⟩
      exact (hx.hasSubPiece_iff s (hInside hWanted)).mpr (hAll _ _ hWanted)

end Completion

section Failures

/-- The answers of an instance that holds exactly these subpieces. -/
def answersOf (r : RidInfo) (holds : Nat → Nat → Bool) : Pieces where
  hasPiece p := (List.range (r.capacity p.blockIndex)).all fun s =>
    s / subpieceNumPerPiece != p.pieceIndex || holds p.blockIndex s
  hasSubPiece info := holds info.blockIndex info.subpieceIndex

theorem answersOf_answersFrom (r : RidInfo) (holds : Nat → Nat → Bool) :
    AnswersFrom r (fun b s => holds b s = true) (answersOf r holds) where
  hasPiece_iff p _ _ := by
    simp only [answersOf, List.all_eq_true, List.mem_range, Bool.or_eq_true, bne_iff_ne, ne_eq]
    exact forall₂_congr fun s _ => Decidable.imp_iff_not_or.symm
  hasSubPiece_iff _ _ := Iff.rfl

theorem Matches.isComplete_iff (h : Matches g r t) (holds : Nat → Nat → Bool) :
    isComplete g r (answersOf r holds) t = true ↔
      ∀ b k, Wanted r t b k → holds b k = true := by
  have hTask := (h.complete_iff _ _ (answersOf_answersFrom r holds) [(t, 0)] 0
    (List.mem_singleton.mpr rfl)).1
  rwa [(mem_checkPieceComplete (List.mem_singleton.mpr rfl)).1] at hTask

/-- A task from the first subpiece whose end is before the last one waits for the whole
piece. -/
theorem Matches.fromFirst (h : Matches g r t) (hr : r.Valid) (hTask : TaskOf r t)
    (hFirst : t.subpieceIndex = 0) : lastIndex r t ≤ t.subpieceIndexEnd := by
  by_contra hEarly
  have hComplete := (h.isComplete_iff fun _ s =>
    s != t.pieceIndex * subpieceNumPerPiece + lastIndex r t).mpr (by
      intro b k hWanted
      obtain ⟨-, i, -, hEnd, -, rfl⟩ := (wanted_iff hr hTask).mp hWanted
      simp only [bne_iff_ne, ne_eq]
      omega)
  rw [isComplete_of_first hFirst, (answersOf_answersFrom r _).hasPiece_iff' hr hTask] at hComplete
  simpa using hComplete (lastIndex r t) (Nat.le_refl _)

/-- Where the position counts the first subpiece, the end of the loop at the end of the
file is too early, or wraps around. -/
theorem Matches.fromLater (h : Matches g r t) (hr : r.Valid)
    (hg : g.Computes true countedEnd) (hTask : TaskOf r t) (hLater : t.subpieceIndex ≠ 0) :
    g.getEndPositionEx t r.blockSize ≤ r.fileLength := by
  by_contra hCutEx
  have hp := hTask.placed hr
  have hLt := hp.position_lt
  have hLength := r.fileLength_lt
  have hLast := hp.last_le_eof
  have hStart := hTask.start_lt
  have hEnd := hTask.end_lt
  have hExact : eofIndex r t = (r.fileLength - piecePosition r t - 1) / 1024 := rfl
  obtain ⟨hNamed, hAt, hBefore⟩ := (requested_wanted_iff hr hg hTask).mp h.visits
  have hEx := getEndPositionEx_eq hg hp
  rw [getEndPosition_eq hg hp] at hAt hBefore
  -- Either nothing is wanted and the start is past the end of the file, or the file ends
  -- with the last wanted subpiece.
  have hCases : eofIndex r t < t.subpieceIndex ∨
      (t.subpieceIndex ≤ eofIndex r t ∧ eofIndex r t = lastIndex r t ∧
        lastIndex r t ≤ t.subpieceIndexEnd) := by
    have hSize : (if countedEnd then (t.subpieceIndexEnd + 1) * bytesNumPerSubpiece
        else pieceSize) ≤ pieceSize := by
      simp only [pieceSize, bytesNumPerSubpiece, subpieceNumPerPiece] at hEnd ⊢
      split <;> omega
    have hPast : r.fileLength ≤ g.getEndPositionEx t r.blockSize := by omega
    rw [hEx] at hPast hCutEx
    obtain ⟨hNoWrap, hEqEx⟩ := of_le_u32 hLt hSize hPast
    rw [hEqEx] at hCutEx
    rcases Nat.lt_or_ge (u32 (piecePosition r t + pieceSize)) r.fileLength with hOut | hIn
    · have hChoice := hBefore hOut
      cases countedEnd with
      | true =>
          simp only [if_true, bytesNumPerSubpiece] at hCutEx
          omega
      | false =>
          simp only [Bool.false_eq_true, if_false] at hCutEx hNoWrap
          rw [u32_of_lt hNoWrap] at hOut
          omega
    · have hChoice := hAt hIn
      omega
  have hPosition : g.getPositionEx t r.blockSize =
      u32 (piecePosition r t + t.subpieceIndex * bytesNumPerSubpiece) := by
    rw [hg.positionEx_eq, getPosition_eq hg hp]
    rfl
  have hCheckedEnd : checkedEnd g r t = subU32 (subU32 r.fileLength
      (u32 (piecePosition r t + t.subpieceIndex * bytesNumPerSubpiece))) 1 / bytesNumPerSubpiece := by
    unfold checkedEnd
    rw [if_pos (by omega), hPosition]
  simp only [subpieceNumPerPiece] at hStart hEnd
  rcases hCases with hBeyond | ⟨hReached, hEof, hEndEof⟩
  · -- Nothing is wanted, but the loop asks for the first subpiece.
    have hComplete := (h.isComplete_iff fun _ _ => false).mpr (by
      intro b k hWanted
      obtain ⟨-, i, hLo, -, hLe, -⟩ := (wanted_iff hr hTask).mp hWanted
      omega)
    rw [isComplete_of_later hLater, (answersOf_answersFrom r _).hasPiece_iff' hr hTask] at hComplete
    rcases hComplete with hPiece | hAll
    · exact Bool.false_ne_true (hPiece 0 (Nat.zero_le _))
    · refine Bool.false_ne_true (hAll _ (mem_subPiecesTo.mpr ⟨t.subpieceIndex, Nat.le_refl _, ?_, rfl⟩))
      rw [hCheckedEnd]
      simp only [subU32, u32, bytesNumPerSubpiece] at hExact ⊢
      omega
  · -- The loop ends before the last wanted subpiece.
    have hComplete : isComplete g r (answersOf r fun _ s =>
        s != t.pieceIndex * subpieceNumPerPiece + lastIndex r t) t = true := by
      rw [isComplete_of_later hLater]
      right
      intro s hs
      obtain ⟨i, -, hHi, rfl⟩ := mem_subPiecesTo.mp hs
      rw [hCheckedEnd, u32_of_lt (by simp only [bytesNumPerSubpiece]; omega),
        subU32_of_le hLength (by simp only [bytesNumPerSubpiece]; omega),
        subU32_of_le (by omega) (by simp only [bytesNumPerSubpiece]; omega)] at hHi
      simp only [bytesNumPerSubpiece] at hHi
      have hName := ((hNamed (by unfold Wants; omega)).make_eq (show i ≤ 127 by omega)).2
      simp only [answersOf, hName, bne_iff_ne, ne_eq]
      omega
    have hHeld := (h.isComplete_iff _).mp hComplete _ _ ((wanted_iff hr hTask).mpr
      ⟨rfl, lastIndex r t, by omega, hEndEof, Nat.le_refl _, rfl⟩)
    simp at hHeld

end Failures

/-- Requests and check match the task exactly under the condition, whichever way the
library counts. -/
theorem matches_iff (hr : r.Valid) (hg : g.Computes counted countedEnd) (h : TaskOf r t) :
    Matches g r t ↔ HoldsWhen g r counted t := by
  constructor
  · intro hMatches
    obtain ⟨hNamed, hAt, hBefore⟩ := (requested_wanted_iff hr hg h).mp hMatches.visits
    refine ⟨hNamed, hAt, hBefore, hMatches.fromFirst hr h, fun hCounted => ?_⟩
    subst hCounted
    exact hMatches.fromLater hr hg h
  · intro hWhen
    have hVisits := (requested_wanted_iff hr hg h).mpr
      ⟨hWhen.named, hWhen.atEof, hWhen.beforeEof⟩
    refine ⟨fun b k => (requestable_named_iff b k).trans (hVisits b k), ?_⟩
    intro held x hx tasks driver hMem
    obtain ⟨hDone, hPending⟩ := mem_checkPieceComplete (g := g) (r := r) (x := x) hMem
    have hIff := isComplete_iff hr hg h hWhen hx
    rw [hDone, hPending, ← hIff]
    simp

section Instances

/-- The positions as a library would compute them; both readings of the two open ones. -/
def protocolPieces (counted countedEnd : Bool) : ProtocolPieces where
  getPosition p blockSize := u32 (p.blockIndex * blockSize + p.pieceIndex * pieceSize)
  getEndPosition p blockSize :=
    u32 (u32 (p.blockIndex * blockSize + p.pieceIndex * pieceSize) + pieceSize)
  getPositionEx t blockSize := u32 (u32 (t.blockIndex * blockSize + t.pieceIndex * pieceSize) +
    if counted then t.subpieceIndex * bytesNumPerSubpiece else 0)
  getEndPositionEx t blockSize := u32 (u32 (t.blockIndex * blockSize + t.pieceIndex * pieceSize) +
    if countedEnd then (t.subpieceIndexEnd + 1) * bytesNumPerSubpiece else pieceSize)
  sameKey t t' := t == t'

theorem protocolPieces_computes (counted countedEnd : Bool) :
    (protocolPieces counted countedEnd).Computes counted countedEnd :=
  ⟨fun _ _ => rfl, fun _ _ => rfl, fun _ _ => rfl, fun _ _ => rfl⟩

/-- A file of one block and sixteen pieces. -/
def oneBlock : RidInfo := 
  ⟨Guid.zero, 2097152, 2097152, 1, [], twoMib_lt_uint32, twoMib_lt_uint32, one_lt_uint32⟩

theorem oneBlock_addressable : oneBlock.Addressable where
  blockSize_pos := by decide
  subpiece_dvd := by decide
  blockCount_eq := by decide
  blockCount_le := by decide
  blockSize_le := by decide

/-- A task that begins inside a piece and ends with it. -/
theorem matches_of_rest :
    Matches (protocolPieces true false) oneBlock ⟨0, 3, 5, 127⟩ :=
  (matches_iff oneBlock_addressable.toValid (protocolPieces_computes true false)
    ⟨by decide, by decide, by decide, by decide⟩).mpr
    ⟨by decide +kernel, by decide +kernel, by decide +kernel, by decide +kernel,
      by decide +kernel⟩

/-- The piece in which the wanted range ends is not complete when its wanted subpieces
are. -/
theorem matches_of_range_fails :
    ¬ ∀ (g : ProtocolPieces) (counted countedEnd : Bool) (r : RidInfo) (t : PieceInfoEx),
      r.Addressable → g.Computes counted countedEnd → TaskOf r t → Matches g r t := by
  intro h
  have hTask : TaskOf oneBlock (rangedTask ⟨0, 0, 0, 127⟩ 65535) :=
    ⟨by decide, by decide, by decide, by decide +kernel⟩
  have hMatches := h (protocolPieces true false) true false oneBlock _ oneBlock_addressable
    (protocolPieces_computes true false) hTask
  have hEnd : ¬ lastIndex oneBlock (rangedTask ⟨0, 0, 0, 127⟩ 65535) ≤
      (rangedTask ⟨0, 0, 0, 127⟩ 65535).subpieceIndexEnd := by decide +kernel
  exact hEnd (hMatches.fromFirst oneBlock_addressable.toValid hTask rfl)

end Instances

end P2P
