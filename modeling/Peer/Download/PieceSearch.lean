import Peer.Basis.Rounds
import Peer.Download.PieceRequestManager
import Peer.P2P.PieceTaskAgreement
import Peer.Storage.Agreement
import Peer.Storage.PositionWalk

/-! The search for a piece ends and hands out wanted pieces. Both loops look at the same
piece at each position and go on behind it, so that they are taken together. -/
namespace Download

open Basis Storage P2P

section Positions

variable {r : RidInfo} {p b s : Nat}

/-- The subpiece at a position of the file. -/
theorem inside_of_position (hr : r.Valid) (hp : p < r.fileLength) :
    p / r.blockSize < r.blockCount ∧
      p % r.blockSize / bytesNumPerSubpiece < r.capacity (p / r.blockSize) := by
  have hLength : 0 < r.fileLength := by omega
  have hBlock : p / r.blockSize < r.blockCount := by
    rw [hr.blockCount_sub_one hLength, Nat.lt_succ_iff]
    apply Nat.div_le_div_right
    omega
  have hDiv : p / bytesNumPerSubpiece / r.perBlock = p / r.blockSize := by
    rw [Nat.div_div_eq_div_mul, Nat.mul_comm, hr.perBlock_mul]
  have hMod : p / bytesNumPerSubpiece % r.perBlock = p % r.blockSize / bytesNumPerSubpiece := by
    rw [← hr.perBlock_mul, Nat.mul_comm, Nat.mod_mul_right_div_self]
  have hCount : p / bytesNumPerSubpiece < r.subpieceCount := by
    rw [RidInfo.subpieceCount_eq hLength, Nat.lt_succ_iff]
    apply Nat.div_le_div_right
    omega
  have hRange := ((hr.div_eq_iff hLength hBlock).mp ⟨hCount, hDiv⟩).2
  have hSplit := Nat.div_add_mod (p / bytesNumPerSubpiece) r.perBlock
  rw [hDiv, hMod] at hSplit
  exact ⟨hBlock, by omega⟩

/-- A subpiece of the file begins before its end. -/
theorem position_lt (hr : r.Valid) (hb : b < r.blockCount) (hs : s < r.capacity b) :
    b * r.blockSize + s * bytesNumPerSubpiece < r.fileLength := by
  have hLength := hr.fileLength_pos (by omega)
  have hSub : s < r.perBlock := Nat.lt_of_lt_of_le hs (RidInfo.capacity_le hr b)
  have hk := (hr.div_eq_iff hLength (k := r.perBlock * b + s) hb).mpr ⟨by omega, by omega⟩
  have hLt := RidInfo.mul_lt_of_lt_subpieceCount hk.1
  have hMod : (r.perBlock * b + s) % r.perBlock = s := by
    rw [Nat.mul_add_mod, Nat.mod_eq_of_lt hSub]
  have hOffset := hr.offset_eq (r.perBlock * b + s)
  rw [hk.2, hMod] at hOffset
  omega

end Positions

/-- The first byte of a piece, and the first one behind it. -/
def pieceFrom (r : RidInfo) (piece : PieceInfoEx) : Nat :=
  piece.blockIndex * r.blockSize + piece.pieceIndex * pieceSize

def pieceTo (r : RidInfo) (piece : PieceInfoEx) : Nat := pieceFrom r piece + pieceSize

/-- The first byte behind the first subpiece of a task. -/
def firstTo (r : RidInfo) (piece : PieceInfoEx) : Nat :=
  pieceFrom r piece + (piece.subpieceIndex + 1) * bytesNumPerSubpiece

/-- The piece is one of the file, and its first subpiece is not held. -/
structure Missing {μ : Type} [BlockMap μ] (r : RidInfo) (m : SubPieceManager μ)
    (piece : PieceInfoEx) : Prop where
  task : TaskOf r piece
  inside : piece.pieceIndex * subpieceNumPerPiece + piece.subpieceIndex < r.capacity piece.blockIndex
  notHeld : ¬ m.Held piece.blockIndex (piece.pieceIndex * subpieceNumPerPiece + piece.subpieceIndex)

section Search

variable {μ : Type} [BlockMap μ] {r : RidInfo} {m : SubPieceManager μ} {piece : PieceInfoEx}

theorem Missing.pieceFrom_lt (h : Missing r m piece) (hr : r.Valid) :
    pieceFrom r piece + piece.subpieceIndex * bytesNumPerSubpiece < r.fileLength := by
  have hLt := position_lt hr h.task.blockIndex_lt h.inside
  unfold pieceFrom pieceSize
  rw [Nat.add_mul] at hLt
  unfold bytesNumPerSubpiece subpieceNumPerPiece at *
  omega

/-- The piece that an answer of the search stands for. -/
theorem missing_of_firstMissing {start info : SubPieceInfo}
    (h : m.FirstMissingAt r start info.blockIndex info.subpieceIndex) :
    Missing r m (subPieceInfoToPieceInfoEx info) := by
  have hSplit := Nat.div_add_mod info.subpieceIndex subpieceNumPerPiece
  have hMod := Nat.mod_lt info.subpieceIndex (show 0 < subpieceNumPerPiece by decide)
  have hIndex : (subPieceInfoToPieceInfoEx info).pieceIndex * subpieceNumPerPiece +
      (subPieceInfoToPieceInfoEx info).subpieceIndex = info.subpieceIndex := by
    show info.subpieceIndex / subpieceNumPerPiece * subpieceNumPerPiece +
      info.subpieceIndex % subpieceNumPerPiece = info.subpieceIndex
    rw [Nat.mul_comm]
    exact hSplit
  have hSub := h.subpiece_lt
  constructor
  · constructor
    · exact h.block_lt
    · show info.subpieceIndex / subpieceNumPerPiece * subpieceNumPerPiece < _
      exact Nat.lt_of_le_of_lt (Nat.div_mul_le_self _ _) hSub
    · exact hMod
    · exact Nat.sub_lt (by decide) (by decide)
  · rw [hIndex]
    exact hSub
  · rw [hIndex]
    exact h.missing

/-- A position of the file is in one subpiece, which the search starts at. -/
theorem posToPieceInfoEx_inside (hr : r.Addressable) (hStore : m.BlocksAgree r) {position : Nat}
    (hp : position < r.fileLength) : ∃ piece, posToPieceInfoEx m position = some piece ∧
      (pieceInfoExToSubPieceInfo piece).blockIndex = position / r.blockSize ∧
      (pieceInfoExToSubPieceInfo piece).subpieceIndex =
        position % r.blockSize / bytesNumPerSubpiece := by
  obtain ⟨hBlock, hSub⟩ := inside_of_position hr.toValid hp
  have hSize := hr.blockSize_le
  have hCount := hr.blockCount_le
  have hCap := RidInfo.capacity_le hr.toValid (position / r.blockSize)
  have hIn : position % r.blockSize / pieceSize * subpieceNumPerPiece +
      position % r.blockSize % pieceSize / bytesNumPerSubpiece =
      position % r.blockSize / bytesNumPerSubpiece := by
    unfold pieceSize bytesNumPerSubpiece subpieceNumPerPiece
    omega
  have hPiece : position % r.blockSize / pieceSize < 2 ^ 16 := by
    have hLe := hIn ▸ Nat.le_add_right (position % r.blockSize / pieceSize * subpieceNumPerPiece) _
    unfold subpieceNumPerPiece at hLe
    omega
  have hFirst : position % r.blockSize % pieceSize / bytesNumPerSubpiece < 2 ^ 16 := by
    have hLe := hIn ▸ Nat.le_add_left (position % r.blockSize % pieceSize / bytesNumPerSubpiece) _
    omega
  unfold posToPieceInfoEx
  rw [hStore.builtFor.fileLength_eq, hStore.builtFor.blockSize_eq, if_neg (Nat.not_le.mpr hp),
    u16_of_lt (show position / r.blockSize < 2 ^ 16 by omega), u16_of_lt hPiece, u16_of_lt hFirst]
  refine ⟨_, rfl, ?_, ?_⟩
  · show u16 (position / r.blockSize) = _
    exact u16_of_lt (by omega)
  · show u16 (position % r.blockSize / pieceSize * subpieceNumPerPiece +
      position % r.blockSize % pieceSize / bytesNumPerSubpiece) = _
    rw [hIn]
    exact u16_of_lt (by omega)

/-- What is found from a position on ends behind the position. -/
theorem lt_firstTo_of_after (hr : r.Valid) {start info : SubPieceInfo} {position : Nat}
    (hBlock : start.blockIndex = position / r.blockSize)
    (hSub : start.subpieceIndex = position % r.blockSize / bytesNumPerSubpiece)
    (hAfter : SubPieceManager.After start info.blockIndex info.subpieceIndex) :
    position < firstTo r (subPieceInfoToPieceInfoEx info) := by
  have hSplit := Nat.div_add_mod position r.blockSize
  have hMod := Nat.mod_lt position hr.blockSize_pos
  show position < info.blockIndex * r.blockSize +
    info.subpieceIndex / subpieceNumPerPiece * pieceSize +
    (info.subpieceIndex % subpieceNumPerPiece + 1) * bytesNumPerSubpiece
  unfold SubPieceManager.After at hAfter
  rw [hBlock, hSub] at hAfter
  obtain hLater | ⟨hSame, hFrom⟩ := hAfter
  · have hLe : (position / r.blockSize + 1) * r.blockSize ≤ info.blockIndex * r.blockSize :=
      Nat.mul_le_mul_right _ hLater
    rw [Nat.add_mul, Nat.one_mul, Nat.mul_comm] at hLe
    omega
  · rw [← hSame, Nat.mul_comm (position / r.blockSize)]
    unfold pieceSize bytesNumPerSubpiece subpieceNumPerPiece at *
    omega

/-- The answer of the instance is a missing piece that begins at the position or behind it,
up to whole subpieces. -/
theorem Instance.getNextPieceForDownload_missing {inst : Instance μ} (hr : r.Addressable)
    (hStore : m.BlocksAgree r) (hKnown : inst.subpieceManager = some m) (position : Nat) :
    ∃ found, inst.getNextPieceForDownload position = some found ∧
      ∀ piece, found = some piece → position < r.fileLength ∧ Missing r m piece ∧
        piece.subpieceIndexEnd = subpieceNumPerPiece - 1 ∧ position < firstTo r piece := by
  unfold Instance.getNextPieceForDownload
  cases hRunning : inst.isRunning with
  | false => exact ⟨none, rfl, fun piece h => by cases h⟩
  | true =>
      simp only [hKnown, Bool.not_true, Bool.false_eq_true, if_false]
      by_cases hEnd : position < r.fileLength
      · obtain ⟨start, hStart, hBlock, hSub⟩ := posToPieceInfoEx_inside hr hStore hEnd
        have hInside : r.Inside (pieceInfoExToSubPieceInfo start) := by
          unfold RidInfo.Inside
          rw [hBlock, hSub]
          exact inside_of_position hr.toValid hEnd
        obtain ⟨found, hFound, hExact⟩ :=
          hStore.getNextNullSubPiece_exact hr.toValid hInside (SubPieceManager.searchable_of_addressable hr _)
        refine ⟨found.map subPieceInfoToPieceInfoEx, by simp only [hStart, hFound, Option.map_some], ?_⟩
        intro piece hPiece
        obtain ⟨info, rfl, rfl⟩ := Option.map_eq_some_iff.mp hPiece
        have hAt : m.FirstMissingAt r (pieceInfoExToSubPieceInfo start) info.blockIndex
          info.subpieceIndex := hExact
        exact ⟨hEnd, missing_of_firstMissing hAt, rfl,
          lt_firstTo_of_after hr.toValid hBlock hSub hAt.after⟩
      · have hNone : posToPieceInfoEx m position = none := by
          unfold posToPieceInfoEx
          rw [hStore.builtFor.fileLength_eq, if_pos (Nat.not_lt.mp hEnd)]
        exact ⟨none, by simp only [hNone], fun piece h => by cases h⟩

end Search

/-- Where the library sees the start of a task. -/
def seenFrom (counted : Bool) (r : RidInfo) (piece : PieceInfoEx) : Nat :=
  pieceFrom r piece + if counted then piece.subpieceIndex * bytesNumPerSubpiece else 0

/-- The range and the bytes from `first` to `last`, both ends counted, have a byte in common
or one is an end of the other. A range that ends at 0 is open. -/
def Overlaps (range : Nat × Nat) (first last : Nat) : Prop :=
  if range.2 = 0 then range.1 < last
  else ∃ x, first ≤ x ∧ x ≤ last ∧ (range.1 ≤ x ∧ x ≤ range.2 ∨ x = range.1 ∨ x = range.2)

theorem overlaps_of_goodFor {range : Nat × Nat} {first last : Nat} (hLe : first ≤ last)
    (h : goodFor first last range = true) : Overlaps range first last := by
  unfold goodFor at h
  unfold Overlaps
  split at h
  · rename_i hOpen
    rw [if_pos hOpen]
    exact of_decide_eq_true h
  · rename_i hEnd
    rw [if_neg hEnd]
    simp only [overlapped, Bool.or_eq_true, Bool.and_eq_true, decide_eq_true_eq] at h
    obtain ((⟨hLo, hHi⟩ | ⟨hLo, hHi⟩) | ⟨hLo, hHi⟩) | ⟨hLo, hHi⟩ := h
    · exact ⟨first, Nat.le_refl _, hLe, Or.inl ⟨hLo, hHi⟩⟩
    · exact ⟨last, hLe, Nat.le_refl _, Or.inl ⟨hLo, hHi⟩⟩
    · exact ⟨range.1, hLo, hHi, Or.inr (Or.inl rfl)⟩
    · exact ⟨range.2, hLo, hHi, Or.inr (Or.inr rfl)⟩

/-- A range that ends inside a piece is good for it. -/
theorem goodFor_of_inside {range : Nat × Nat} {first last : Nat} (hLo : first < range.2)
    (hHi : range.2 < last) : goodFor first last range = true := by
  have hEnd : range.2 ≠ 0 := by omega
  rw [goodFor, if_neg hEnd]
  simp only [overlapped, Bool.or_eq_true, Bool.and_eq_true, decide_eq_true_eq]
  exact Or.inr ⟨by omega, by omega⟩

/-- The loop over the ranges finds what the other one finds, and cuts only pieces that are
wanted. -/
theorem checkRanges_eq (first last : Nat) (ranges : List (Nat × Nat)) (piece : PieceInfoEx) :
    (checkRanges first last ranges piece).2 = ranges.any (goodFor first last) ∧
      ((checkRanges first last ranges piece).1 = piece ∨
        (checkRanges first last ranges piece).2 = true ∧ ∃ rangeEnd, first < rangeEnd ∧
          rangeEnd < last ∧ (checkRanges first last ranges piece).1 = rangedTask piece rangeEnd) := by
  induction ranges with
  | nil => exact ⟨rfl, Or.inl rfl⟩
  | cons range rest ih =>
      unfold checkRanges
      rw [List.any_cons]
      by_cases hCut : range.2 ≠ 0 ∧ first < range.2 ∧ range.2 < last
      · simp only [if_pos hCut, goodFor_of_inside hCut.2.1 hCut.2.2, if_true, Bool.true_or]
        exact ⟨trivial, Or.inr ⟨trivial, range.2, hCut.2.1, hCut.2.2, rfl⟩⟩
      · simp only [if_neg hCut]
        cases hGood : goodFor first last range with
        | true => exact ⟨rfl, Or.inl rfl⟩
        | false => simpa using ih

section Positions

variable {g : ProtocolPieces} {counted countedEnd : Bool} {r : RidInfo} {μ : Type} [BlockMap μ]
  {m : SubPieceManager μ} {piece : PieceInfoEx}

/-- No position of a piece of the file leaves the 32-bit numbers. -/
theorem Missing.positions (h : Missing r m piece) (hr : r.Valid)
    (hLength : r.fileLength + pieceSize ≤ 2 ^ 32) (hg : g.Computes counted countedEnd) :
    g.getPositionEx piece r.blockSize = seenFrom counted r piece ∧
      g.getEndPositionEx piece r.blockSize = pieceFrom r piece +
        if countedEnd then (piece.subpieceIndexEnd + 1) * bytesNumPerSubpiece else pieceSize := by
  have hFrom := h.pieceFrom_lt hr
  have hEnd := h.task.end_lt
  have hSeen : seenFrom counted r piece < 2 ^ 32 := by
    unfold seenFrom
    unfold pieceSize bytesNumPerSubpiece subpieceNumPerPiece at *
    split <;> omega
  have hBehind : pieceFrom r piece + (if countedEnd then
      (piece.subpieceIndexEnd + 1) * bytesNumPerSubpiece else pieceSize) < 2 ^ 32 := by
    have hBegins : pieceFrom r piece < r.fileLength := Nat.lt_of_le_of_lt (Nat.le_add_right _ _) hFrom
    clear hSeen hFrom
    unfold pieceSize bytesNumPerSubpiece subpieceNumPerPiece at *
    split <;> omega
  have hBase : g.getPosition piece.getPieceInfo r.blockSize = pieceFrom r piece := by
    rw [hg.position_eq]
    exact u32_of_lt (show pieceFrom r piece < 2 ^ 32 from
      Nat.lt_of_le_of_lt (Nat.le_add_right _ _) hSeen)
  rw [hg.positionEx_eq, hg.endPositionEx_eq, hBase]
  exact ⟨u32_of_lt hSeen, u32_of_lt hBehind⟩

theorem seenFrom_le (piece : PieceInfoEx) (hStart : piece.subpieceIndex < subpieceNumPerPiece) :
    seenFrom counted r piece ≤ pieceTo r piece := by
  unfold seenFrom pieceTo pieceSize subpieceNumPerPiece bytesNumPerSubpiece at *
  split <;> omega

/-- Behind a whole piece the search is further on. -/
theorem Missing.endPosition (h : Missing r m piece) (hr : r.Valid)
    (hLength : r.fileLength + pieceSize ≤ 2 ^ 32) (hg : g.Computes counted countedEnd)
    (hWhole : piece.subpieceIndexEnd = subpieceNumPerPiece - 1) :
    g.getEndPositionEx piece r.blockSize = pieceTo r piece := by
  rw [(h.positions hr hLength hg).2, hWhole]
  unfold pieceTo pieceSize bytesNumPerSubpiece subpieceNumPerPiece
  split <;> rfl

theorem Missing.rangedTask (h : Missing r m piece) (rangeEnd : Nat) :
    Missing r m (rangedTask piece rangeEnd) := by
  have hEnd : u16 (rangeEnd % pieceSize / bytesNumPerSubpiece) < subpieceNumPerPiece := by
    have hLe := u16_le (rangeEnd % pieceSize / bytesNumPerSubpiece)
    unfold pieceSize bytesNumPerSubpiece subpieceNumPerPiece at *
    omega
  exact ⟨⟨h.task.blockIndex_lt, h.task.pieceIndex_lt, h.task.start_lt, hEnd⟩, h.inside, h.notHeld⟩

/-- Behind a piece that is cut off at the end of a range, too. -/
theorem Missing.lt_endPosition (h : Missing r m piece) (hr : r.Valid)
    (hLength : r.fileLength + pieceSize ≤ 2 ^ 32) (hg : g.Computes counted countedEnd)
    (hEnds : countedEnd = true → counted = true ∧ pieceSize ∣ r.blockSize) {rangeEnd : Nat}
    (hLo : seenFrom counted r piece < rangeEnd) (hHi : rangeEnd < pieceTo r piece) :
    firstTo r piece ≤ g.getEndPositionEx (P2P.rangedTask piece rangeEnd) r.blockSize := by
  have hStart := h.task.start_lt
  rw [((h.rangedTask rangeEnd).positions hr hLength hg).2]
  show pieceFrom r piece + _ ≤ pieceFrom r piece + _
  apply Nat.add_le_add_left
  cases hCounted : countedEnd with
  | false =>
      show _ ≤ pieceSize
      unfold pieceSize bytesNumPerSubpiece subpieceNumPerPiece at *
      omega
  | true =>
      obtain ⟨rfl, hAligned⟩ := hEnds hCounted
      have hBase : pieceSize ∣ pieceFrom r piece :=
        Nat.dvd_add (hAligned.mul_left _) (Nat.dvd_mul_left _ _)
      obtain ⟨base, hBase⟩ := hBase
      unfold seenFrom at hLo
      unfold pieceTo at hHi
      rw [hBase] at hLo hHi
      apply Nat.mul_le_mul_right
      apply Nat.succ_le_succ
      show piece.subpieceIndex ≤ u16 (rangeEnd % pieceSize / bytesNumPerSubpiece)
      have hMod : rangeEnd % pieceSize = rangeEnd - pieceSize * base := by
        rw [← Nat.mod_eq_of_lt (show rangeEnd - pieceSize * base < pieceSize by omega)]
        exact (Nat.sub_mul_mod (by omega)).symm
      rw [hMod, u16_of_lt]
      · rw [if_pos rfl] at hLo
        unfold bytesNumPerSubpiece at *
        omega
      · unfold pieceSize bytesNumPerSubpiece subpieceNumPerPiece at *
        omega

end Positions

namespace PieceRequestManager

variable {μ : Type} [BlockMap μ] {g : ProtocolPieces} {env : Downloaders} {r : RidInfo}
  {counted countedEnd : Bool} {q : PieceRequestManager μ} {inst : Instance μ}
  {downloader : Nat} {piece : PieceInfoEx} {answer : Option PieceInfoEx}

/-- There are no ranges, or one from 0, as the driver sets them, or nothing is requested. -/
def RangesKept (q : PieceRequestManager μ) : Prop :=
  q.taskRangeMap = [] ∨ ¬ q.taskRangeMap.Absent 0 ∨ q.requestingMap = []

/-- A piece that the downloader gets. -/
structure HandedOut (g : ProtocolPieces) (env : Downloaders) (r : RidInfo) (counted : Bool)
    (q : PieceRequestManager μ) (inst : Instance μ) (downloader : Nat) (piece : PieceInfoEx) :
    Prop where
  missing : ∀ m, inst.subpieceManager = some m → Missing r m piece
  expired : ∀ task, q.requestingMap.find? piece.getPieceInfo = some task →
    task.expired env downloader piece = true
  wanted : ∀ m, inst.subpieceManager = some m →
    q.requestingMap.find? piece.getPieceInfo = none → q.taskRangeMap ≠ [] →
    (∃ range ∈ q.taskRangeMap, Overlaps range (seenFrom counted r piece) (pieceTo r piece)) ∧
      (q.headPending g r.blockSize = true → pieceTo r piece ≤ q.lastStart)

/-- The two lookups together: what `HasNextPieceForDownload` answers and what
`GetNextPieceForDownload` leaves and answers. -/
structure Lookups (g : ProtocolPieces) (env : Downloaders) (r : RidInfo) (counted : Bool)
    (q : PieceRequestManager μ) (downloader : Nat) (answer : Option PieceInfoEx)
    (taken : Taken μ) : Prop where
  ranges_eq : taken.manager.taskRangeMap = q.taskRangeMap
  handedOut : ∀ piece, taken.piece = some piece → ∃ inst, q.inst = some inst ∧
    HandedOut g env r counted q inst downloader piece
  notRequesting : ∀ piece, taken.piece = some piece →
    taken.manager.isRequesting piece.getPieceInfo = false
  has_of_get : taken.piece.isSome = true → answer.isSome = true
  get_of_has : q.headPending g r.blockSize = false → answer.isSome = true →
    taken.piece.isSome = true

omit [BlockMap μ] in
/-- Reading the entry for 0 leaves the ranges as they are. -/
theorem RangesKept.indexZero (h : RangesKept q) (hRanges : q.taskRangeMap ≠ []) :
    (if q.requestingMap.isEmpty then q else q.indexZero) = q := by
  obtain hNone | hZero | hIdle := h
  · exact absurd hNone hRanges
  · split
    · rfl
    · unfold PieceRequestManager.indexZero
      rw [OrderedMap.update_id 0 hZero]
  · rw [hIdle]
    rfl

omit [BlockMap μ] in
theorem removePieceTask_sublist (q : PieceRequestManager μ) (piece : PieceInfo) :
    (q.removePieceTask downloader piece).requestingMap.Sublist q.requestingMap ∧
      (q.removePieceTask downloader piece).taskRangeMap = q.taskRangeMap := by
  unfold removePieceTask
  split
  · exact ⟨List.Sublist.refl _, rfl⟩
  · split
    · exact ⟨List.Sublist.refl _, rfl⟩
    · split
      · exact ⟨List.Sublist.refl _, rfl⟩
      · exact ⟨OrderedMap.erase_sublist _ _, rfl⟩

omit [BlockMap μ] in
theorem foldl_removePieceTask (pieces : List PieceInfo) (q : PieceRequestManager μ) :
    (pieces.foldl (fun q piece => q.removePieceTask downloader piece) q).requestingMap.Sublist
        q.requestingMap ∧
      (pieces.foldl (fun q piece => q.removePieceTask downloader piece) q).taskRangeMap =
        q.taskRangeMap := by
  induction pieces generalizing q with
  | nil => exact ⟨List.Sublist.refl _, rfl⟩
  | cons piece rest ih =>
      have hFirst : (q.removePieceTask downloader piece).requestingMap.Sublist q.requestingMap ∧
          (q.removePieceTask downloader piece).taskRangeMap = q.taskRangeMap :=
        removePieceTask_sublist q piece
      obtain ⟨hMap, hRanges⟩ := hFirst
      rw [List.foldl_cons]
      obtain ⟨hRest, hRestRanges⟩ := ih (q.removePieceTask downloader piece)
      exact ⟨hRest.trans hMap, hRestRanges.trans hRanges⟩

omit [BlockMap μ] in
theorem isRequesting_eq_false : q.isRequesting piece.getPieceInfo = false ↔
    q.requestingMap.Absent piece.getPieceInfo := by
  unfold isRequesting
  rw [Option.isSome_eq_false_iff, Option.isNone_iff_eq_none, OrderedMap.find?_eq_none]

omit [BlockMap μ] in
/-- A timed out piece is free for the downloader that takes it over. -/
theorem takeOver_notRequesting (task : PieceTask) :
    (q.takeOver env task downloader piece).manager.isRequesting piece.getPieceInfo = false := by
  rw [isRequesting_eq_false]
  intro entry hMem
  have hIn := (foldl_removePieceTask (env.failed task.downloader piece)
    { q with requestingMap := q.requestingMap.erase piece.getPieceInfo }).1.subset hMem
  have hErased : entry ∈ q.requestingMap.filter fun entry =>
      !equivalent entry.1 piece.getPieceInfo := hIn
  simpa using (List.mem_filter.mp hErased).2

omit [BlockMap μ] in
theorem takeOver_ranges (task : PieceTask) :
    (q.takeOver env task downloader piece).manager.taskRangeMap = q.taskRangeMap :=
  (foldl_removePieceTask (env.failed task.downloader piece) _).2

/-- Neither lookup finds a piece. -/
theorem Lookups.none : Lookups g env r counted q downloader none ⟨q, none, []⟩ where
  ranges_eq := rfl
  handedOut _ h := by cases h
  notRequesting _ h := by cases h
  has_of_get h := by cases h
  get_of_has _ h := by cases h

/-- Both loops end from a position on, with what the lookups promise. -/
def Together (g : ProtocolPieces) (env : Downloaders) (r : RidInfo) (counted : Bool)
    (q : PieceRequestManager μ) (inst : Instance μ) (downloader position : Nat) : Prop :=
  Settles (fun rounds => q.hasNextFrom g env inst downloader rounds position) fun answer =>
    Settles (fun rounds => getNextFrom g env inst downloader rounds q position)
      (Lookups g env r counted q downloader answer)

section Rounds

variable {position position' : Nat} {taken : Taken μ}

theorem Together.of_round
    (hHas : ∀ rounds, q.hasNextFrom g env inst downloader (rounds + 1) position = some answer)
    (hGet : ∀ rounds, getNextFrom g env inst downloader (rounds + 1) q position = some taken)
    (h : Lookups g env r counted q downloader answer taken) :
    Together g env r counted q inst downloader position :=
  Settles.of_add 1 hHas (Settles.of_add 1 hGet h)

theorem Together.of_nothing
    (hHas : ∀ rounds, q.hasNextFrom g env inst downloader (rounds + 1) position = some none)
    (hGet : ∀ rounds, getNextFrom g env inst downloader (rounds + 1) q position =
      some ⟨q, none, []⟩) :
    Together g env r counted q inst downloader position :=
  .of_round hHas hGet Lookups.none

theorem Together.of_next
    (hHas : ∀ rounds, q.hasNextFrom g env inst downloader (rounds + 1) position =
      q.hasNextFrom g env inst downloader rounds position')
    (hGet : ∀ rounds, getNextFrom g env inst downloader (rounds + 1) q position =
      getNextFrom g env inst downloader rounds q position')
    (h : Together g env r counted q inst downloader position') :
    Together g env r counted q inst downloader position :=
  Settles.of_succ 1 (Settles.mono h fun _ hInner => hInner.of_succ 1 hGet) hHas

/-- Only the search for a piece to take goes on while the header is pending. -/
theorem Together.of_pending
    (hHas : ∀ rounds, q.hasNextFrom g env inst downloader (rounds + 1) position = some (some piece))
    (hGet : ∀ rounds, getNextFrom g env inst downloader (rounds + 1) q position =
      getNextFrom g env inst downloader rounds q position')
    (hPending : q.headPending g r.blockSize = true)
    (h : Together g env r counted q inst downloader position') :
    Together g env r counted q inst downloader position := by
  obtain ⟨answer, -, hInner⟩ := h
  apply Settles.of_add 1 hHas
  apply Settles.of_succ 1 (hInner.mono _) hGet
  intro taken hLookups
  constructor
  · exact hLookups.ranges_eq
  · exact hLookups.handedOut
  · exact hLookups.notRequesting
  · exact fun _ => rfl
  · intro hIdle
    rw [hPending] at hIdle
    cases hIdle

end Rounds

section Known

variable {m : SubPieceManager μ} {position : Nat}

/-- The request has timed out for the downloader, or its downloader pauses. -/
theorem together_of_expired (hInst : q.inst = some inst)
    (hMissing : ∀ m, inst.subpieceManager = some m → Missing r m piece)
    (hFound : inst.getNextPieceForDownload position = some (some piece)) {task : PieceTask}
    (hTask : q.requestingMap.find? piece.getPieceInfo = some task)
    (hExpired : task.expired env downloader piece = true) :
    Together g env r counted q inst downloader position := by
  have hHas : ∀ rounds,
      q.hasNextFrom g env inst downloader (rounds + 1) position = some (some piece) := by
    intro rounds
    simp only [hasNextFrom, hFound, hTask, hExpired, if_true]
  have hGet : ∀ rounds, getNextFrom g env inst downloader (rounds + 1) q position =
      some (q.takeOver env task downloader piece) := by
    intro rounds
    simp only [getNextFrom, hFound, hTask, hExpired, if_true]
  apply Together.of_round hHas hGet
  · constructor
    · exact takeOver_ranges task
    · rintro _ ⟨⟩
      refine ⟨inst, hInst, hMissing, ?_, ?_⟩
      · intro other hOther
        obtain rfl : task = other := Option.some.inj (hTask.symm.trans hOther)
        exact hExpired
      · intro m _ hNone
        rw [hTask] at hNone
        cases hNone
    · rintro _ ⟨⟩
      exact takeOver_notRequesting task
    · exact fun _ => rfl
    · exact fun _ _ => rfl

/-- Nobody requests the piece. -/
theorem together_of_fresh (hInst : q.inst = some inst)
    (hMissing : ∀ m, inst.subpieceManager = some m → Missing r m piece)
    (hNone : q.requestingMap.find? piece.getPieceInfo = none)
    (hWanted : ∀ m, inst.subpieceManager = some m → q.taskRangeMap ≠ [] →
      (∃ range ∈ q.taskRangeMap, Overlaps range (seenFrom counted r piece) (pieceTo r piece)) ∧
        (q.headPending g r.blockSize = true → pieceTo r piece ≤ q.lastStart))
    (found : PieceInfoEx)
    (hHas : ∀ rounds, q.hasNextFrom g env inst downloader (rounds + 1) position = some (some found))
    (hGet : ∀ rounds, getNextFrom g env inst downloader (rounds + 1) q position =
      some ⟨q, some piece, []⟩) :
    Together g env r counted q inst downloader position := by
  apply Together.of_round hHas hGet
  constructor
  · rfl
  · rintro _ ⟨⟩
    refine ⟨inst, hInst, hMissing, ?_, fun m hKnown _ => hWanted m hKnown⟩
    intro task hTask
    rw [hNone] at hTask
    cases hTask
  · rintro _ ⟨⟩
    exact isRequesting_eq_false.mpr (OrderedMap.find?_eq_none.mp hNone)
  · exact fun _ => rfl
  · exact fun _ _ => rfl

variable (hr : r.Addressable) (hLength : r.fileLength + pieceSize ≤ 2 ^ 32)
  (hg : g.Computes counted countedEnd)
  (hEnds : countedEnd = true → counted = true ∧ pieceSize ∣ r.blockSize) (hStore : m.BlocksAgree r)
  (hInst : q.inst = some inst) (hKnown : inst.subpieceManager = some m) (hKept : RangesKept q)

include hr hLength hg hEnds hStore hInst hKnown hKept

/-- A missing piece that nobody requests: it is wanted and taken, or the search goes on
behind it, the one for a piece to take also while the header is pending. -/
theorem together_of_unrequested (hMissing : Missing r m piece)
    (hWhole : piece.subpieceIndexEnd = subpieceNumPerPiece - 1) (hBehind : position < firstTo r piece)
    (hFound : inst.getNextPieceForDownload position = some (some piece))
    (hNone : q.requestingMap.find? piece.getPieceInfo = none)
    (ih : ∀ position', position < position' →
      Together g env r counted q inst downloader position') :
    Together g env r counted q inst downloader position := by
  have hOnly : ∀ piece, Missing r m piece → ∀ m', inst.subpieceManager = some m' →
      Missing r m' piece := by
    intro piece hPiece m' hOther
    obtain rfl : m = m' := Option.some.inj (hKnown.symm.trans hOther)
    exact hPiece
  have hSize : inst.getBlockSize = r.blockSize := by
    unfold Instance.getBlockSize
    rw [hKnown]
    exact hStore.builtFor.blockSize_eq
  have hSizePos : r.blockSize ≠ 0 := Nat.ne_of_gt hr.blockSize_pos
  have hSeen := (hMissing.positions hr.toValid hLength hg).1
  have hEnd := hMissing.endPosition hr.toValid hLength hg hWhole
  have hOrder : seenFrom counted r piece ≤ pieceTo r piece :=
    seenFrom_le piece hMissing.task.start_lt
  have hNext : position < pieceTo r piece := by
    apply Nat.lt_of_lt_of_le hBehind
    exact Nat.add_le_add_left (Nat.mul_le_mul_right _ hMissing.task.start_lt) _
  by_cases hRanges : q.taskRangeMap = []
  · have hEmpty : q.taskRangeMap.isEmpty = true := by rw [hRanges]; rfl
    apply together_of_fresh hInst (hOnly piece hMissing) hNone _ piece
    · intro rounds
      simp only [hasNextFrom, hFound, hNone, hEmpty, if_true]
    · intro rounds
      simp only [getNextFrom, hFound, hNone, hEmpty, if_true]
    · intro m' _ hSome
      exact absurd hRanges hSome
  have hNotEmpty : q.taskRangeMap.isEmpty = false := by
    rw [List.isEmpty_eq_false_iff]
    exact hRanges
  obtain ⟨hGood, hCut⟩ :=
    checkRanges_eq (seenFrom counted r piece) (pieceTo r piece) q.taskRangeMap piece
  have hHas : ∀ rounds, q.hasNextFrom g env inst downloader (rounds + 1) position =
      if q.taskRangeMap.any (goodFor (seenFrom counted r piece) (pieceTo r piece)) then
        some (some piece)
      else q.hasNextFrom g env inst downloader rounds (pieceTo r piece) := by
    intro rounds
    simp only [hasNextFrom, hFound, hNone, hNotEmpty, hSize, hSizePos, hSeen, hEnd,
      Bool.false_eq_true, if_false]
  have hGet : ∀ rounds, getNextFrom g env inst downloader (rounds + 1) q position =
      if (checkRanges (seenFrom counted r piece) (pieceTo r piece) q.taskRangeMap piece).2 &&
          !(q.headPending g r.blockSize && q.lastStart < pieceTo r piece) then
        some ⟨q, some (checkRanges (seenFrom counted r piece) (pieceTo r piece)
          q.taskRangeMap piece).1, []⟩
      else getNextFrom g env inst downloader rounds q (g.getEndPositionEx (checkRanges
        (seenFrom counted r piece) (pieceTo r piece) q.taskRangeMap piece).1 r.blockSize) := by
    intro rounds
    simp only [getNextFrom, hFound, hNone, hNotEmpty, hSize, hSizePos, hSeen, hEnd,
      hKept.indexZero hRanges, Bool.false_eq_true, if_false]
  generalize checkRanges (seenFrom counted r piece) (pieceTo r piece) q.taskRangeMap piece = result
    at hGood hCut hGet
  cases hAny : q.taskRangeMap.any (goodFor (seenFrom counted r piece) (pieceTo r piece)) with
  | false =>
      rw [hAny] at hGood
      have hSame : result.1 = piece := by
        obtain hSame | ⟨hTrue, -⟩ := hCut
        · exact hSame
        · rw [hGood] at hTrue
          cases hTrue
      apply Together.of_next _ _ (ih _ hNext)
      · intro rounds
        rw [hHas, hAny]
        rfl
      · intro rounds
        rw [hGet, hGood, hSame, hEnd]
        rfl
  | true =>
      rw [hAny] at hGood
      have hTakes : ∀ rounds, q.hasNextFrom g env inst downloader (rounds + 1) position =
          some (some piece) := by
        intro rounds
        rw [hHas, hAny]
        rfl
      -- The cut changes neither where the piece is nor where it begins.
      have hResult : Missing r m result.1 ∧ result.1.getPieceInfo = piece.getPieceInfo ∧
          pieceTo r result.1 = pieceTo r piece ∧
          seenFrom counted r result.1 = seenFrom counted r piece ∧
          position < g.getEndPositionEx result.1 r.blockSize := by
        obtain hSame | ⟨-, rangeEnd, hLo, hHi, hSame⟩ := hCut
        · rw [hSame, hEnd]
          exact ⟨hMissing, rfl, rfl, rfl, hNext⟩
        · rw [hSame]
          exact ⟨hMissing.rangedTask rangeEnd, rfl, rfl, rfl, Nat.lt_of_lt_of_le hBehind
            (hMissing.lt_endPosition hr.toValid hLength hg hEnds hLo hHi)⟩
      obtain ⟨hStays, hInfo, hTo, hFrom, hFurther⟩ := hResult
      cases hBack : q.headPending g r.blockSize && decide (q.lastStart < pieceTo r piece) with
      | true =>
          have hPending := (Bool.and_eq_true_iff.mp hBack).1
          apply Together.of_pending hTakes _ hPending (ih _ hFurther)
          intro rounds
          rw [hGet, hGood, hBack]
          rfl
      | false =>
          have hAsked : q.requestingMap.find? result.1.getPieceInfo = none := by
            rw [hInfo]
            exact hNone
          apply together_of_fresh hInst (hOnly _ hStays) hAsked _ _ hTakes
          · intro rounds
            rw [hGet, hGood, hBack]
            rfl
          · intro _ _ _
            rw [hTo, hFrom]
            constructor
            · obtain ⟨range, hMem, hRange⟩ := List.any_eq_true.mp hAny
              exact ⟨range, hMem, overlaps_of_goodFor hOrder hRange⟩
            · intro hPending
              rw [hPending, Bool.true_and, decide_eq_false_iff_not] at hBack
              exact Nat.not_lt.mp hBack

/-- Both loops end: each round goes on behind the piece it looks at. -/
theorem together_from (position : Nat) : Together g env r counted q inst downloader position := by
  induction hLeft : r.fileLength - position using Nat.strong_induction_on generalizing position with
  | _ left ih =>
      obtain ⟨found, hFound, hFacts⟩ :=
        Instance.getNextPieceForDownload_missing hr hStore hKnown position
      cases found with
      | none =>
          apply Together.of_nothing
          · intro rounds
            simp only [hasNextFrom, hFound]
          · intro rounds
            simp only [getNextFrom, hFound]
      | some piece =>
          obtain ⟨hIn, hMissing, hWhole, hBehind⟩ := hFacts piece rfl
          have hFurther : ∀ position', position < position' →
              Together g env r counted q inst downloader position' :=
            fun position' hLt => ih _ (by omega) position' rfl
          cases hTask : q.requestingMap.find? piece.getPieceInfo with
          | none =>
              exact together_of_unrequested hr hLength hg hEnds hStore hInst hKnown hKept hMissing
                hWhole hBehind hFound hTask hFurther
          | some task =>
              have hSize : inst.getBlockSize = r.blockSize := by
                unfold Instance.getBlockSize
                rw [hKnown]
                exact hStore.builtFor.blockSize_eq
              have hSizePos : r.blockSize ≠ 0 := Nat.ne_of_gt hr.blockSize_pos
              have hEnd := hMissing.endPosition hr.toValid hLength hg hWhole
              have hNext : position < pieceTo r piece := by
                apply Nat.lt_of_lt_of_le hBehind
                exact Nat.add_le_add_left (Nat.mul_le_mul_right _ hMissing.task.start_lt) _
              cases hExpired : task.expired env downloader piece with
              | true =>
                  apply together_of_expired hInst _ hFound hTask hExpired
                  intro m' hOther
                  obtain rfl : m = m' := Option.some.inj (hKnown.symm.trans hOther)
                  exact hMissing
              | false =>
                  apply Together.of_next _ _ (hFurther _ hNext)
                  · intro rounds
                    simp only [hasNextFrom, hFound, hTask, hExpired, hSize, hSizePos, hEnd,
                      Bool.false_eq_true, if_false]
                  · intro rounds
                    simp only [getNextFrom, hFound, hTask, hExpired, hSize, hSizePos, hEnd,
                      Bool.false_eq_true, if_false]

end Known

/-- While the file is not known the first piece stands for all. -/
theorem together_unknown {position : Nat} (hInst : q.inst = some inst)
    (hUnknown : inst.subpieceManager = none) :
    Together g env r counted q inst downloader position := by
  have hMissing : ∀ m, inst.subpieceManager = some m → Missing r m newPieceInfoEx := by
    intro m hKnown
    rw [hUnknown] at hKnown
    cases hKnown
  have hSize : inst.getBlockSize = 0 := by
    unfold Instance.getBlockSize
    rw [hUnknown]
  cases hRunning : inst.isRunning with
  | false =>
      have hFound : inst.getNextPieceForDownload position = some none := by
        unfold Instance.getNextPieceForDownload
        rw [hRunning]
        rfl
      apply Together.of_nothing
      · intro rounds
        simp only [hasNextFrom, hFound]
      · intro rounds
        simp only [getNextFrom, hFound]
  | true =>
      have hFound : inst.getNextPieceForDownload position = some (some newPieceInfoEx) := by
        unfold Instance.getNextPieceForDownload
        rw [hRunning, hUnknown]
        rfl
      cases hTask : q.requestingMap.find? newPieceInfoEx.getPieceInfo with
      | none =>
          apply together_of_fresh hInst hMissing hTask _ newPieceInfoEx
          · intro rounds
            simp only [hasNextFrom, hFound, hTask, hSize, if_true, ite_self]
          · intro rounds
            simp only [getNextFrom, hFound, hTask, hSize, if_true, ite_self]
          · intro m hKnown
            rw [hUnknown] at hKnown
            cases hKnown
      | some task =>
          cases hExpired : task.expired env downloader newPieceInfoEx with
          | true => exact together_of_expired hInst hMissing hFound hTask hExpired
          | false =>
              apply Together.of_nothing
              · intro rounds
                simp only [hasNextFrom, hFound, hTask, hExpired, hSize, Bool.false_eq_true,
                  if_false, if_true]
              · intro rounds
                simp only [getNextFrom, hFound, hTask, hExpired, hSize, Bool.false_eq_true,
                  if_false, if_true]

/-- Both lookups end, at every playing position and for every downloader: a piece that is
taken begins at a missing subpiece of the file and is wanted, or its request may be taken
over; the ranges stay; and with no header pending both find a piece or neither does. -/
theorem lookups_agree (hr : r.Addressable) (hLength : r.fileLength + pieceSize ≤ 2 ^ 32)
    (hg : g.Computes counted countedEnd)
    (hEnds : countedEnd = true → counted = true ∧ pieceSize ∣ r.blockSize)
    (hStore : ∀ inst, q.inst = some inst → ∀ m, inst.subpieceManager = some m → m.BlocksAgree r)
    (hKept : RangesKept q) (downloader position : Nat) :
    Settles (q.hasNextPieceForDownload g env downloader position) fun answer =>
      Settles (q.getNextPieceForDownload g env downloader position)
        (Lookups g env r counted q downloader answer) := by
  unfold hasNextPieceForDownload getNextPieceForDownload
  cases hRunning : q.isRunning with
  | false => exact Settles.const (Settles.const Lookups.none)
  | true =>
      cases hInst : q.inst with
      | none => exact Settles.const (Settles.const Lookups.none)
      | some inst =>
          simp only [Bool.not_true, Bool.false_eq_true, if_false]
          cases hKnown : inst.subpieceManager with
          | none => exact together_unknown hInst hKnown
          | some m =>
              exact together_from hr hLength hg hEnds (hStore inst hInst m hKnown) hInst hKnown
                hKept position

section Instances

/-- A manager of a running instance. -/
def asking (m : SubPieceManager (List Bool)) (requested : List (PieceInfo × PieceTask))
    (ranges : List (Nat × Nat)) : PieceRequestManager (List Bool) :=
  ⟨true, some ⟨true, some m⟩, requested, ranges⟩

/-- Downloaders over HTTP that are fast enough; one of them pauses. -/
def overHttp : Downloaders where
  isP2PDownloader _ := false
  isPausing downloader := downloader = 9
  secondDownloadSpeed _ := 102400
  nowDownloadSpeed _ := 102400
  canPreemptive _ _ := false
  failed _ _ := []

/-- A fresh store of sixteen pieces, with a header and a part behind it wanted. -/
theorem lookups_agree_fresh : ∃ m, SubPieceManager.new oneBlock false false = some m ∧
    Settles ((asking m [(⟨0, 0⟩, ⟨7, 10, 8000, true⟩)]
        [(0, 200000), (1000000, 0)]).hasNextPieceForDownload (protocolPieces true false) overHttp 8 0)
      fun answer => Settles ((asking m [(⟨0, 0⟩, ⟨7, 10, 8000, true⟩)]
          [(0, 200000), (1000000, 0)]).getNextPieceForDownload (protocolPieces true false) overHttp 8 0)
        (Lookups (protocolPieces true false) overHttp oneBlock true
          (asking m [(⟨0, 0⟩, ⟨7, 10, 8000, true⟩)] [(0, 200000), (1000000, 0)]) 8 answer) := by
  obtain ⟨m, hNew⟩ := SubPieceManager.exists_new (List Bool)
    (show oneBlock.blockSize ≠ 0 by decide) false false
  obtain ⟨-, hBuilt, hNone, -⟩ := SubPieceManager.new_eq_some hNew
  have hFresh : m.BlocksAgree oneBlock :=
    ⟨hBuilt, fun b _ => hNone b ▸ SubPieceManager.BlockOk.none _ _⟩
  refine ⟨m, hNew, lookups_agree oneBlock_addressable (by decide)
    (protocolPieces_computes true false) (fun h => by cases h) ?_ ?_ 8 0⟩
  · intro inst hInst m' hKnown
    cases hInst
    cases hKnown
    exact hFresh
  · right
    left
    intro hAbsent
    exact absurd (hAbsent (0, 200000) (List.mem_cons_self ..)) (by decide)

/-- A file of 64 blocks and one subpiece behind them, which ends in the last piece before
2^32. -/
def nearLimit : RidInfo where
  rid := Guid.zero
  fileLength := 4294902784
  blockSize := 67107840
  blockCount := 65
  blockMd5s := []

/-- Of that file only the last piece is missing, and it is requested: the position behind it
is one at the start of the file again. -/
theorem hasNext_endless : ∃ m, ((SubPieceManager.new nearLimit true false).bind fun m =>
      m.onReportBlockReadFailed (.make 64 0)) = some m ∧
    ∀ rounds, (asking m [(⟨64, 0⟩, ⟨8, 10, 8000, true⟩)] []).hasNextPieceForDownload
      (protocolPieces true false) overHttp 8 65536 rounds = none := by
  have hTest : ((SubPieceManager.new nearLimit true false :
      Option (SubPieceManager (List Bool))).bind fun m =>
        m.onReportBlockReadFailed (.make 64 0)).any (fun m => decide
          ((⟨true, some m⟩ : Instance (List Bool)).getNextPieceForDownload 65536 =
            some (some ⟨64, 0, 0, 127⟩) ∧
          (⟨true, some m⟩ : Instance (List Bool)).getBlockSize = 67107840)) = true := by
    decide +kernel
  obtain ⟨m, hStore, hState⟩ := (Option.any_eq_true _ _).mp hTest
  obtain ⟨hFound, hSize⟩ := of_decide_eq_true hState
  refine ⟨m, hStore, fun rounds => ?_⟩
  have hTask : (asking m [(⟨64, 0⟩, ⟨8, 10, 8000, true⟩)] []).requestingMap.find?
      (⟨64, 0, 0, 127⟩ : PieceInfoEx).getPieceInfo = some ⟨8, 10, 8000, true⟩ := rfl
  have hExpired : PieceTask.expired overHttp ⟨8, 10, 8000, true⟩ 8 ⟨64, 0, 0, 127⟩ = false := rfl
  have hEnd : (protocolPieces true false).getEndPositionEx ⟨64, 0, 0, 127⟩ 67107840 = 65536 := by
    decide +kernel
  show hasNextFrom (protocolPieces true false) overHttp _ ⟨true, some m⟩ 8 rounds 65536 = none
  induction rounds with
  | zero => rfl
  | succ rounds ih =>
      simp only [hasNextFrom, hFound, hTask, hExpired, hSize, hEnd, Bool.false_eq_true, if_false]
      exact ih

/-- A paused piece is handed out whatever the ranges are; a lookup makes a range from 0;
with the header pending only `HasNextPieceForDownload` finds a piece; and near 2^32 a search
does not end. -/
theorem pieceLookups_fail :
    (∃ m, SubPieceManager.new oneBlock false false = some m ∧
      (∃ taken, (asking m [(⟨0, 0⟩, ⟨9, 10, 8000, true⟩)]
            [(1000000, 0)]).getNextPieceForDownload (protocolPieces true false) overHttp 8 0 1 =
          some taken ∧ taken.piece = some ⟨0, 0, 0, 127⟩ ∧
        ¬ ∃ range ∈ [(1000000, 0)], Overlaps range (seenFrom true oneBlock ⟨0, 0, 0, 127⟩)
          (pieceTo oneBlock ⟨0, 0, 0, 127⟩)) ∧
      (∃ taken, (asking m [(⟨0, 7⟩, ⟨7, 10, 8000, true⟩)]
            [(1000000, 0)]).getNextPieceForDownload (protocolPieces true false) overHttp 8 1050000 1 =
          some taken ∧ taken.manager.taskRangeMap = [(0, 0), (1000000, 0)]) ∧
      (asking m [(⟨0, 0⟩, ⟨7, 10, 8000, true⟩)] [(0, 65536), (1000000, 0)]).hasNextPieceForDownload
          (protocolPieces true false) overHttp 8 1050000 1 = some (some ⟨0, 8, 1, 127⟩) ∧
      ∃ taken, (asking m [(⟨0, 0⟩, ⟨7, 10, 8000, true⟩)]
            [(0, 65536), (1000000, 0)]).getNextPieceForDownload (protocolPieces true false) overHttp 8
            1050000 9 = some taken ∧ taken.piece = none) ∧
    ∃ m, ((SubPieceManager.new nearLimit true false).bind fun m =>
        m.onReportBlockReadFailed (.make 64 0)) = some m ∧
      ∀ rounds, (asking m [(⟨64, 0⟩, ⟨8, 10, 8000, true⟩)] []).hasNextPieceForDownload
        (protocolPieces true false) overHttp 8 65536 rounds = none := by
  refine ⟨?_, hasNext_endless⟩
  have hTest : (SubPieceManager.new oneBlock false false :
      Option (SubPieceManager (List Bool))).any (fun m =>
        ((asking m [(⟨0, 0⟩, ⟨9, 10, 8000, true⟩)] [(1000000, 0)]).getNextPieceForDownload
          (protocolPieces true false) overHttp 8 0 1).any
            (fun taken => decide (taken.piece = some ⟨0, 0, 0, 127⟩)) &&
        (((asking m [(⟨0, 7⟩, ⟨7, 10, 8000, true⟩)] [(1000000, 0)]).getNextPieceForDownload
          (protocolPieces true false) overHttp 8 1050000 1).any
            (fun taken => decide (taken.manager.taskRangeMap = [(0, 0), (1000000, 0)])) &&
        (decide ((asking m [(⟨0, 0⟩, ⟨7, 10, 8000, true⟩)]
            [(0, 65536), (1000000, 0)]).hasNextPieceForDownload (protocolPieces true false) overHttp 8
            1050000 1 = some (some ⟨0, 8, 1, 127⟩)) &&
        ((asking m [(⟨0, 0⟩, ⟨7, 10, 8000, true⟩)]
            [(0, 65536), (1000000, 0)]).getNextPieceForDownload (protocolPieces true false) overHttp 8
            1050000 9).any (fun taken => decide (taken.piece = none))))) = true := by
    decide +kernel
  obtain ⟨m, hNew, hRuns⟩ := (Option.any_eq_true _ _).mp hTest
  simp only [Bool.and_eq_true, decide_eq_true_eq] at hRuns
  obtain ⟨hPaused, hRange, hHas, hPending⟩ := hRuns
  obtain ⟨paused, hTaken, hPiece⟩ := (Option.any_eq_true _ _).mp hPaused
  obtain ⟨ranged, hRanged, hRanges⟩ := (Option.any_eq_true _ _).mp hRange
  obtain ⟨idle, hIdle, hNothing⟩ := (Option.any_eq_true _ _).mp hPending
  refine ⟨m, hNew, ⟨paused, hTaken, of_decide_eq_true hPiece, ?_⟩,
    ⟨ranged, hRanged, of_decide_eq_true hRanges⟩, hHas, idle, hIdle, of_decide_eq_true hNothing⟩
  rintro ⟨range, hMem, hOver⟩
  rw [List.mem_singleton] at hMem
  subst hMem
  have hLt : 1000000 < pieceTo oneBlock ⟨0, 0, 0, 127⟩ := hOver
  exact absurd hLt (by decide)

end Instances

end PieceRequestManager

end Download
