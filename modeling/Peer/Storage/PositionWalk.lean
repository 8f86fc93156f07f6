import Peer.Storage.Pipeline
import Mathlib.Data.Nat.Count
import Mathlib.Order.Interval.Finset.Nat

/-! Positions of a file and the walk over its subpieces. A subpiece number `k` has
the quotient and the remainder by the subpieces of a block as its name; the walk
stays on these names as long as the position past the end has one. -/
namespace Storage

open Basis

namespace RidInfo

variable {r : RidInfo}

/-- The number of subpieces of the file, rounded up. -/
def subpieceCount (r : RidInfo) : Nat :=
  (r.fileLength + bytesNumPerSubpiece - 1) / bytesNumPerSubpiece

/-- `total_subpiece_count_`, in 32-bit arithmetic. -/
def totalSubpieceCount (r : RidInfo) : Nat :=
  subU32 (u32 (r.fileLength + bytesNumPerSubpiece)) 1 / bytesNumPerSubpiece

/-- The number of subpieces of a full block. -/
def perBlock (r : RidInfo) : Nat := r.blockSize / bytesNumPerSubpiece

/-- The name of subpiece number `k`. -/
def subpieceAt (r : RidInfo) (k : Nat) : SubPieceInfo :=
  SubPieceInfo.make (k / r.perBlock) (k % r.perBlock)

/-- Both indices of subpiece number `k` fit their `boost::uint16_t`. -/
def Named (r : RidInfo) (k : Nat) : Prop := k / r.perBlock < 2 ^ 16 ∧ k % r.perBlock < 2 ^ 16

/-- The file ends early enough for the rounding up of its length, and the
position just past its end has a name. -/
structure NextNamed (r : RidInfo) : Prop where
  roundUp_lt : r.fileLength + bytesNumPerSubpiece < 2 ^ 32
  block_lt : r.subpieceCount / r.perBlock < 2 ^ 16
  subpiece_lt : r.perBlock ≤ 2 ^ 16 ∨ r.subpieceCount < 2 ^ 16

theorem subpieceCount_eq (h : 0 < r.fileLength) :
    r.subpieceCount = (r.fileLength - 1) / bytesNumPerSubpiece + 1 := by
  unfold subpieceCount bytesNumPerSubpiece
  omega

theorem subpieceCount_pos (h : 0 < r.fileLength) : 0 < r.subpieceCount :=
  subpieceCount_eq h ▸ Nat.succ_pos _

theorem Valid.blockCount_pos (h : r.Valid) (hLength : 0 < r.fileLength) : 0 < r.blockCount :=
  h.blockCount_sub_one hLength ▸ Nat.succ_pos _

theorem totalSubpieceCount_eq (h : r.fileLength + bytesNumPerSubpiece < 2 ^ 32) :
    r.totalSubpieceCount = r.subpieceCount := by
  have hOne : 1 ≤ r.fileLength + bytesNumPerSubpiece := Nat.le_add_left 1 _
  rw [totalSubpieceCount, subpieceCount, u32_of_lt h, subU32_of_le h hOne]

theorem Valid.perBlock_mul (h : r.Valid) : r.perBlock * bytesNumPerSubpiece = r.blockSize :=
  Nat.div_mul_cancel h.subpiece_dvd

theorem perBlock_lt (r : RidInfo) : r.perBlock < 2 ^ 32 :=
  Nat.lt_of_le_of_lt (Nat.div_le_self _ _) r.blockSize_lt

theorem Valid.perBlock_pos (h : r.Valid) : 0 < r.perBlock := h.subpieces_pos

/-- The bytes before subpiece number `k`, from its two indices. -/
theorem Valid.offset_eq (h : r.Valid) (k : Nat) :
    k / r.perBlock * r.blockSize + k % r.perBlock * bytesNumPerSubpiece =
      bytesNumPerSubpiece * k := by
  calc k / r.perBlock * r.blockSize + k % r.perBlock * bytesNumPerSubpiece
      = bytesNumPerSubpiece * (k % r.perBlock + r.perBlock * (k / r.perBlock)) := by
        rw [← h.perBlock_mul]
        ring
    _ = bytesNumPerSubpiece * k := by rw [Nat.mod_add_div]

theorem Valid.succ_of_last (h : r.Valid) {k : Nat} (hk : k % r.perBlock = r.perBlock - 1) :
    (k + 1) / r.perBlock = k / r.perBlock + 1 ∧ (k + 1) % r.perBlock = 0 := by
  have hPos := h.perBlock_pos
  have hNext : k + 1 = r.perBlock * (k / r.perBlock + 1) := by
    have hSplit := Nat.div_add_mod k r.perBlock
    rw [Nat.mul_succ]
    omega
  rw [hNext, Nat.mul_div_right _ hPos, Nat.mul_mod_right]
  exact ⟨rfl, rfl⟩

theorem Valid.succ_of_inner (h : r.Valid) {k : Nat} (hk : k % r.perBlock ≠ r.perBlock - 1) :
    (k + 1) / r.perBlock = k / r.perBlock ∧ (k + 1) % r.perBlock = k % r.perBlock + 1 := by
  have hPos := h.perBlock_pos
  have hLt : k % r.perBlock + 1 < r.perBlock := by
    have := Nat.mod_lt k hPos
    omega
  have hNext : k + 1 = r.perBlock * (k / r.perBlock) + (k % r.perBlock + 1) := by
    have hSplit := Nat.div_add_mod k r.perBlock
    omega
  rw [hNext, Nat.mul_add_div hPos, Nat.div_eq_of_lt hLt, Nat.mul_add_mod, Nat.mod_eq_of_lt hLt]
  exact ⟨rfl, rfl⟩

theorem subpieceAt_of_named {k : Nat} (h : r.Named k) :
    (r.subpieceAt k).blockIndex = k / r.perBlock ∧
      (r.subpieceAt k).subpieceIndex = k % r.perBlock :=
  ⟨u16_of_lt h.1, u16_of_lt h.2⟩

/-- Two named numbers with one name are one. -/
theorem subpieceAt_injective {a b : Nat} (ha : r.Named a) (hb : r.Named b)
    (hEq : r.subpieceAt a = r.subpieceAt b) : a = b := by
  obtain ⟨hDivA, hModA⟩ := subpieceAt_of_named ha
  obtain ⟨hDivB, hModB⟩ := subpieceAt_of_named hb
  have hDiv : a / r.perBlock = b / r.perBlock := by rw [← hDivA, ← hDivB, hEq]
  have hMod : a % r.perBlock = b % r.perBlock := by rw [← hModA, ← hModB, hEq]
  rw [← Nat.div_add_mod a r.perBlock, ← Nat.div_add_mod b r.perBlock, hDiv, hMod]

/-- With the position past the end every subpiece of the file has a name. -/
theorem NextNamed.named (h : r.NextNamed) (hr : r.Valid) {k : Nat} (hk : k ≤ r.subpieceCount) :
    r.Named k := by
  constructor
  · exact Nat.lt_of_le_of_lt (Nat.div_le_div_right hk) h.block_lt
  · obtain hBlock | hCount := h.subpiece_lt
    · exact Nat.lt_of_lt_of_le (Nat.mod_lt k hr.perBlock_pos) hBlock
    · exact Nat.lt_of_le_of_lt (Nat.mod_le k r.perBlock) (Nat.lt_of_le_of_lt hk hCount)

/-- Names for all positions up to the end need no more than a name for the end. -/
theorem nextNamed_of_named (hRound : r.fileLength + bytesNumPerSubpiece < 2 ^ 32)
    (h : ∀ k ≤ r.subpieceCount, r.Named k) : r.NextNamed := by
  constructor
  · exact hRound
  · exact (h r.subpieceCount (Nat.le_refl _)).1
  · by_contra hLarge
    rw [not_or, Nat.not_le, Nat.not_lt] at hLarge
    have hSub := (h (2 ^ 16) hLarge.2).2
    rw [Nat.mod_eq_of_lt hLarge.1] at hSub
    exact Nat.lt_irrefl _ hSub

/-- The bytes of the file end inside its last subpiece. -/
theorem subpieceCount_mul_ge (r : RidInfo) : r.fileLength ≤ bytesNumPerSubpiece * r.subpieceCount := by
  unfold subpieceCount bytesNumPerSubpiece
  omega

theorem mul_lt_of_lt_subpieceCount {k : Nat} (h : k < r.subpieceCount) :
    bytesNumPerSubpiece * k < r.fileLength := by
  unfold subpieceCount bytesNumPerSubpiece at h
  unfold bytesNumPerSubpiece
  omega

theorem mul_subpieceCount_lt (h : r.fileLength + bytesNumPerSubpiece < 2 ^ 32) :
    bytesNumPerSubpiece * r.subpieceCount < 2 ^ 32 :=
  Nat.lt_of_le_of_lt (Nat.mul_div_le _ _) (Nat.lt_of_le_of_lt (Nat.sub_le _ 1) h)

/-- The last subpiece of the file is the last one of its last block. -/
theorem Valid.last_eq (h : r.Valid) (hLength : 0 < r.fileLength) :
    (r.subpieceCount - 1) / r.perBlock = r.blockCount - 1 ∧
      (r.subpieceCount - 1) % r.perBlock = r.lastSubpiece := by
  have hMul := h.perBlock_mul
  rw [subpieceCount_eq hLength, h.blockCount_sub_one hLength, Nat.add_sub_cancel,
    Nat.add_sub_cancel]
  constructor
  · rw [Nat.div_div_eq_div_mul, Nat.mul_comm, hMul]
  · rw [lastSubpiece, ← hMul, Nat.mul_comm, Nat.mod_mul_right_div_self]

/-- The number of subpieces is that of the full blocks and of the last one. -/
theorem Valid.subpieceCount_split (h : r.Valid) (hLength : 0 < r.fileLength) :
    r.subpieceCount = r.perBlock * (r.blockCount - 1) + (r.lastSubpiece + 1) := by
  obtain ⟨hBlock, hSub⟩ := h.last_eq hLength
  have hSplit := Nat.div_add_mod (r.subpieceCount - 1) r.perBlock
  rw [hBlock, hSub] at hSplit
  have hCount := subpieceCount_pos hLength
  omega

/-- The capacities of the blocks sum to the subpieces of the file. -/
theorem sum_capacity (h : r.Valid) (hLength : 0 < r.fileLength) :
    ∑ b ∈ Finset.range r.blockCount, r.capacity b = r.subpieceCount := by
  have hInner : ∀ b ∈ Finset.range (r.blockCount - 1), r.capacity b = r.perBlock :=
    fun b hb => if_neg (Nat.ne_of_lt (Finset.mem_range.mp hb))
  have hCount : r.blockCount = r.blockCount - 1 + 1 :=
    (Nat.sub_add_cancel (h.blockCount_pos hLength)).symm
  rw [h.subpieceCount_split hLength]
  rw [hCount, Finset.sum_range_succ, ← hCount, Finset.sum_congr rfl hInner]
  simp only [Finset.sum_const, Finset.card_range, smul_eq_mul]
  rw [capacity, if_pos rfl, Nat.mul_comm]

/-- A block has the subpieces whose number has the block as its quotient. -/
theorem Valid.div_eq_iff (h : r.Valid) (hLength : 0 < r.fileLength) {b k : Nat}
    (hb : b < r.blockCount) : k < r.subpieceCount ∧ k / r.perBlock = b ↔
      r.perBlock * b ≤ k ∧ k < r.perBlock * b + r.capacity b := by
  have hPos := h.perBlock_pos
  have hSplit := h.subpieceCount_split hLength
  have hLast := h.lastSubpiece_lt
  have hLe : r.perBlock * b ≤ r.perBlock * (r.blockCount - 1) :=
    Nat.mul_le_mul_left _ (by omega)
  rw [Nat.div_eq_iff hPos, Nat.mul_comm b r.perBlock]
  unfold capacity
  change r.lastSubpiece < r.perBlock at hLast
  change _ ↔ _ ∧ _ < _ + if b = r.blockCount - 1 then r.lastSubpiece + 1 else r.perBlock
  split
  · rename_i hEq
    rw [hEq]
    omega
  · rename_i hNe
    have hNext : r.perBlock * (b + 1) ≤ r.perBlock * (r.blockCount - 1) :=
      Nat.mul_le_mul_left _ (by omega)
    rw [Nat.mul_succ] at hNext
    omega

/-- The names of the subpieces of a file are those of its numbers. -/
theorem NextNamed.mem_names_iff (hn : r.NextNamed) (hr : r.Valid) (hLength : 0 < r.fileLength)
    {info : SubPieceInfo} : info ∈ (List.range r.subpieceCount).map r.subpieceAt ↔ r.Inside info := by
  rw [List.mem_map]
  constructor
  · rintro ⟨k, hk, rfl⟩
    rw [List.mem_range] at hk
    obtain ⟨hBlock, hSub⟩ := subpieceAt_of_named (hn.named hr (Nat.le_of_lt hk))
    have hLt : k / r.perBlock < r.blockCount := by
      have hLe : k / r.perBlock ≤ r.blockCount - 1 := by
        rw [← (hr.last_eq hLength).1]
        exact Nat.div_le_div_right (by omega)
      have hPos := hr.blockCount_pos hLength
      omega
    have hRange := ((hr.div_eq_iff hLength hLt).mp ⟨hk, rfl⟩).2
    have hSplit := Nat.div_add_mod k r.perBlock
    rw [Inside, hBlock, hSub]
    exact ⟨hLt, by omega⟩
  · rintro ⟨hb, hs⟩
    have hSub : info.subpieceIndex < r.perBlock := Nat.lt_of_lt_of_le hs (capacity_le hr _)
    have hk := (hr.div_eq_iff hLength (k := r.perBlock * info.blockIndex + info.subpieceIndex)
      hb).mpr ⟨by omega, by omega⟩
    refine ⟨r.perBlock * info.blockIndex + info.subpieceIndex, List.mem_range.mpr hk.1, ?_⟩
    rw [subpieceAt, hk.2, Nat.mul_add_mod, Nat.mod_eq_of_lt hSub]
    exact SubPieceInfo.ext (u16_of_lt info.blockIndex_lt) (u16_of_lt info.subpieceIndex_lt)

/-- The walk visits as many subpieces in a block as the block has. -/
theorem NextNamed.countP_names (hn : r.NextNamed) (hr : r.Valid) (hLength : 0 < r.fileLength)
    {b : Nat} (hb : b < r.blockCount) :
    ((List.range r.subpieceCount).map r.subpieceAt).countP (fun info => info.blockIndex = b) =
      r.capacity b := by
  have hNames : ∀ k ∈ List.range r.subpieceCount,
      decide ((r.subpieceAt k).blockIndex = b) = true ↔ decide (k / r.perBlock = b) = true := by
    intro k hk
    rw [(subpieceAt_of_named (hn.named hr (Nat.le_of_lt (List.mem_range.mp hk)))).1]
  have hInterval : (Finset.range r.subpieceCount).filter (fun k => k / r.perBlock = b) =
      Finset.Ico (r.perBlock * b) (r.perBlock * b + r.capacity b) := by
    ext k
    rw [Finset.mem_filter, Finset.mem_range, Finset.mem_Ico]
    exact hr.div_eq_iff hLength hb
  rw [List.countP_map]
  calc (List.range r.subpieceCount).countP
        ((fun info => decide (info.blockIndex = b)) ∘ r.subpieceAt)
      = Nat.count (fun k => k / r.perBlock = b) r.subpieceCount := List.countP_congr hNames
    _ = (Finset.Ico (r.perBlock * b) (r.perBlock * b + r.capacity b)).card := by
        rw [Nat.count_eq_card_filter_range, hInterval]
    _ = r.capacity b := by rw [Nat.card_Ico, Nat.add_sub_cancel_left]

end RidInfo

namespace SubPieceManager

variable {μ : Type} [BlockMap μ] {r : RidInfo} {m : SubPieceManager μ}

/-- `PosToSubPieceInfo`, which answers false for a position past the file. -/
def posToSubPieceInfo (m : SubPieceManager μ) (position : Nat) : Option SubPieceInfo :=
  if position ≥ m.ridInfo.fileLength then none
  else some (SubPieceInfo.make (position / m.ridInfo.blockSize)
    (position % m.ridInfo.blockSize / bytesNumPerSubpiece))

/-- The names a loop over `IncSubPieceInfo` visits from `info` on, until the
answer is false. -/
inductive Walks (m : SubPieceManager μ) : SubPieceInfo → List SubPieceInfo → Prop
  | last {info : SubPieceInfo} (h : (m.incSubPieceInfo info).2 = false) : Walks m info [info]
  | next {info : SubPieceInfo} {rest : List SubPieceInfo}
      (h : (m.incSubPieceInfo info).2 = true)
      (hRest : Walks m (m.incSubPieceInfo info).1 rest) : Walks m info (info :: rest)

/-- The offset of a name, before it is assigned to a `boost::uint32_t`. -/
def rawOffset (m : SubPieceManager μ) (info : SubPieceInfo) : Nat :=
  info.blockIndex * m.ridInfo.blockSize + info.subpieceIndex * bytesNumPerSubpiece

/-- No addition or multiplication of the helpers leaves the 32-bit numbers, and
no subtraction goes below zero. -/
structure NoWrap (r : RidInfo) (m : SubPieceManager μ) (visits : List SubPieceInfo) : Prop where
  roundUp : r.fileLength + bytesNumPerSubpiece < 2 ^ 32
  lastByte : 1 ≤ r.fileLength
  lastBlock : 1 ≤ r.blockCount
  lastSubpiece : 1 ≤ r.perBlock
  ranges : ∀ info ∈ visits, m.rawOffset info + (m.getSubPiecePosition info).2 < 2 ^ 32
  next : ∀ info ∈ visits, m.rawOffset (m.incSubPieceInfo info).1 < 2 ^ 32

/-- The position helpers agree on the file: the walk from its start visits every
subpiece once, in order, and stops; the ranges of the subpieces are disjoint and
make up the file; names and positions are inverse; and the counts of the blocks
are those of the walk. -/
structure CoversBy (r : RidInfo) (m : SubPieceManager μ) (visits : List SubPieceInfo) : Prop where
  walks : m.Walks (SubPieceInfo.make 0 0) visits
  mem_iff : ∀ info, info ∈ visits ↔ r.Inside info
  positions : visits.map m.subPieceInfoToPosition =
    (List.range r.subpieceCount).map (bytesNumPerSubpiece * ·)
  disjoint : visits.Pairwise fun a b =>
    (m.getSubPiecePosition a).1 + (m.getSubPiecePosition a).2 ≤ (m.getSubPiecePosition b).1
  union : ∀ p, p < r.fileLength ↔ ∃ info ∈ visits, (m.getSubPiecePosition info).1 ≤ p ∧
    p < (m.getSubPiecePosition info).1 + (m.getSubPiecePosition info).2
  info_iff : ∀ p info, m.posToSubPieceInfo p = some info ↔ info ∈ visits ∧
    (m.getSubPiecePosition info).1 ≤ p ∧
      p < (m.getSubPiecePosition info).1 + (m.getSubPiecePosition info).2
  inverse : ∀ info ∈ visits, m.posToSubPieceInfo (m.subPieceInfoToPosition info) = some info
  counts : ∀ b < r.blockCount,
    visits.countP (fun info => info.blockIndex = b) = m.newBlockCapacity b ∧
      m.getBlockSubPieceCount b = m.newBlockCapacity b
  sum_counts : ∑ b ∈ Finset.range r.blockCount, m.newBlockCapacity b = r.subpieceCount
  total : r.totalSubpieceCount = r.subpieceCount
  noWrap : NoWrap r m visits

/-- Some walk covers the file. -/
def Covers (r : RidInfo) (m : SubPieceManager μ) : Prop := ∃ visits, CoversBy r m visits

/-- A file of two blocks of two subpieces, with a last subpiece of one byte. -/
def threeSubpieces : RidInfo where
  rid := Guid.zero
  fileLength := 2049
  blockSize := 2048
  blockCount := 2
  blockMd5s := []
  blockSize_lt := twoKib_lt_uint32
  blockCount_lt := two_lt_uint32

/-- A file of 65536 blocks of one subpiece. -/
def walkAround : RidInfo where
  rid := Guid.zero
  fileLength := 67108864
  blockSize := 1024
  blockCount := 65536
  blockMd5s := []
  blockSize_lt := oneKib_lt_uint32

variable (hm : BuiltFor r m) (hr : r.Valid)

include hm hr

theorem BuiltFor.rawOffset_subpieceAt {k : Nat} (hk : r.Named k) :
    m.rawOffset (r.subpieceAt k) = bytesNumPerSubpiece * k := by
  obtain ⟨hBlock, hSub⟩ := RidInfo.subpieceAt_of_named hk
  rw [rawOffset, hBlock, hSub, hm.blockSize_eq, hr.offset_eq]

theorem BuiltFor.position_subpieceAt {k : Nat} (hk : r.Named k)
    (hLt : bytesNumPerSubpiece * k < 2 ^ 32) :
    m.subPieceInfoToPosition (r.subpieceAt k) = bytesNumPerSubpiece * k := by
  change u32 (m.rawOffset (r.subpieceAt k)) = _
  rw [hm.rawOffset_subpieceAt hr hk, u32_of_lt hLt]

/-- From a named subpiece the increment goes to the next number. -/
theorem BuiltFor.incSubPieceInfo_subpieceAt {k : Nat} (hk : r.Named k) :
    (m.incSubPieceInfo (r.subpieceAt k)).1 = r.subpieceAt (k + 1) := by
  obtain ⟨hBlock, hSub⟩ := RidInfo.subpieceAt_of_named hk
  have hLast : subU32 (m.ridInfo.blockSize / bytesNumPerSubpiece) 1 = r.perBlock - 1 := by
    rw [hm.blockSize_eq]
    exact subU32_of_le r.perBlock_lt hr.perBlock_pos
  simp only [incSubPieceInfo, hBlock, hSub, hLast]
  split
  · rename_i hEq
    obtain ⟨hDiv, hMod⟩ := hr.succ_of_last hEq
    rw [RidInfo.subpieceAt, hDiv, hMod]
  · rename_i hNe
    obtain ⟨hDiv, hMod⟩ := hr.succ_of_inner hNe
    rw [RidInfo.subpieceAt, hDiv, hMod]

omit hr in
theorem BuiltFor.incSubPieceInfo_snd (info : SubPieceInfo) :
    (m.incSubPieceInfo info).2 = true ↔
      m.subPieceInfoToPosition (m.incSubPieceInfo info).1 < r.fileLength := by
  rw [← hm.fileLength_eq]
  exact decide_eq_true_iff

/-- A name that is truncated goes back to a position not past the one before. -/
theorem BuiltFor.position_of_not_named {k : Nat} (hk : r.Named k) (hNext : ¬ r.Named (k + 1)) :
    m.subPieceInfoToPosition (r.subpieceAt (k + 1)) ≤ bytesNumPerSubpiece * k := by
  have hRaw : m.rawOffset (r.subpieceAt (k + 1)) ≤ bytesNumPerSubpiece * k := by
    rw [rawOffset, hm.blockSize_eq, RidInfo.subpieceAt]
    by_cases hLast : k % r.perBlock = r.perBlock - 1
    · obtain ⟨hDiv, hMod⟩ := hr.succ_of_last hLast
      have hBlock : k / r.perBlock + 1 = 2 ^ 16 := by
        have hLt := hk.1
        rw [RidInfo.Named, hDiv, hMod] at hNext
        omega
      rw [hDiv, hMod, hBlock]
      simp [u16]
    · obtain ⟨hDiv, hMod⟩ := hr.succ_of_inner hLast
      have hSub : k % r.perBlock + 1 = 2 ^ 16 := by
        have hLt := hk
        rw [RidInfo.Named] at hLt
        rw [RidInfo.Named, hDiv, hMod] at hNext
        omega
      rw [hDiv, hMod, hSub, ← hr.offset_eq k]
      simp only [SubPieceInfo.make_blockIndex, SubPieceInfo.make_subpieceIndex, u16_of_lt hk.1]
      simp [u16]
  exact Nat.le_trans (u32_le _) hRaw

/-- `last_subpiece_info_` is the name of the last subpiece. -/
theorem BuiltFor.lastSubpieceInfo_eq (hLength : 0 < r.fileLength) :
    m.lastSubpieceInfo = r.subpieceAt (r.subpieceCount - 1) := by
  obtain ⟨hBlock, hSub⟩ := hr.last_eq hLength
  rw [hm.lastInfo_eq, lastInfoOf, RidInfo.subpieceAt, hBlock, hSub,
    subU32_of_le r.fileLength_lt hLength, subU32_of_le r.blockCount_lt (hr.blockCount_pos hLength)]
  rfl

section Named

variable (hLength : 0 < r.fileLength) (hn : r.NextNamed)

include hLength hn

omit hLength in
theorem BuiltFor.position_of_le {k : Nat} (hk : k ≤ r.subpieceCount) :
    m.subPieceInfoToPosition (r.subpieceAt k) = bytesNumPerSubpiece * k := by
  apply hm.position_subpieceAt hr (hn.named hr hk)
  exact Nat.lt_of_le_of_lt (Nat.mul_le_mul_left _ hk) (RidInfo.mul_subpieceCount_lt hn.roundUp_lt)

theorem BuiltFor.length_subpieceAt {k : Nat} (hk : k < r.subpieceCount) :
    (m.getSubPiecePosition (r.subpieceAt k)).2 =
      if k = r.subpieceCount - 1 then (r.fileLength - 1) % bytesNumPerSubpiece + 1
      else bytesNumPerSubpiece := by
  have hEq : r.subpieceAt k = m.lastSubpieceInfo ↔ k = r.subpieceCount - 1 := by
    rw [hm.lastSubpieceInfo_eq hr hLength]
    exact ⟨RidInfo.subpieceAt_injective (hn.named hr (by omega)) (hn.named hr (by omega)),
      congrArg r.subpieceAt⟩
  simp only [getSubPiecePosition, hEq, hm.fileLength_eq, subU32_of_le r.fileLength_lt hLength]

/-- The bytes of a subpiece are those of the file with its number as quotient. -/
theorem BuiltFor.range_iff {k p : Nat} (hk : k < r.subpieceCount) :
    (m.getSubPiecePosition (r.subpieceAt k)).1 ≤ p ∧
      p < (m.getSubPiecePosition (r.subpieceAt k)).1 + (m.getSubPiecePosition (r.subpieceAt k)).2 ↔
    p < r.fileLength ∧ p / bytesNumPerSubpiece = k := by
  have hCount := RidInfo.subpieceCount_eq hLength
  have hPosition := hm.position_of_le hr hn (Nat.le_of_lt hk)
  change m.subPieceInfoToPosition (r.subpieceAt k) ≤ p ∧
    p < m.subPieceInfoToPosition (r.subpieceAt k) + _ ↔ _
  rw [hPosition, hm.length_subpieceAt hr hLength hn hk]
  simp only [bytesNumPerSubpiece] at hCount ⊢
  split <;> omega

omit hLength hn in
theorem BuiltFor.posToSubPieceInfo_eq {p : Nat} (hp : p < r.fileLength) :
    m.posToSubPieceInfo p = some (r.subpieceAt (p / bytesNumPerSubpiece)) := by
  have hNot : ¬ p ≥ m.ridInfo.fileLength := by
    rw [hm.fileLength_eq]
    omega
  rw [posToSubPieceInfo, if_neg hNot, hm.blockSize_eq, RidInfo.subpieceAt, ← hr.perBlock_mul,
    Nat.div_div_eq_div_mul, Nat.mul_comm r.perBlock, Nat.mod_mul_right_div_self]

omit hLength in
/-- Inside the file the increment goes to the next number, and says whether that is
still one of the file. -/
theorem BuiltFor.incSubPieceInfo_of_lt {k : Nat} (hk : k < r.subpieceCount) :
    m.incSubPieceInfo (r.subpieceAt k) =
      (r.subpieceAt (k + 1), decide (k + 1 < r.subpieceCount)) := by
  have hNext := hm.incSubPieceInfo_subpieceAt hr (hn.named hr (Nat.le_of_lt hk))
  apply Prod.ext hNext
  rw [Bool.eq_iff_iff, hm.incSubPieceInfo_snd, hNext, hm.position_of_le hr hn hk, decide_eq_true_iff]
  constructor
  · intro hPosition
    by_contra hEnd
    have hLe := r.subpieceCount_mul_ge
    exact Nat.not_lt.mpr (hLe.trans (Nat.mul_le_mul_left _ (Nat.not_lt.mp hEnd))) hPosition
  · exact RidInfo.mul_lt_of_lt_subpieceCount

omit hLength in
/-- The walk from subpiece `k` to the end of the file. -/
theorem BuiltFor.walks_from {k rest : Nat} (hk : k + rest + 1 = r.subpieceCount) :
    m.Walks (r.subpieceAt k) ((List.range' k (rest + 1)).map r.subpieceAt) := by
  have hNext := hm.incSubPieceInfo_of_lt hr hn (k := k) (by omega)
  induction rest generalizing k with
  | zero =>
    apply Walks.last
    rw [hNext]
    exact decide_eq_false (by omega)
  | succ rest ih =>
    rw [List.range'_succ, List.map_cons]
    apply Walks.next
    · rw [hNext]
      exact decide_eq_true (by omega)
    · rw [hNext]
      exact ih (by omega) (hm.incSubPieceInfo_of_lt hr hn (by omega))

/-- A new block node gets the subpieces of its block. -/
theorem BuiltFor.newBlockCapacity_of_named (b : Nat) :
    m.newBlockCapacity b = r.capacity b ∧ m.getBlockSubPieceCount b = r.capacity b := by
  have hCount := RidInfo.subpieceCount_pos hLength
  obtain ⟨hBlock, hSub⟩ := RidInfo.subpieceAt_of_named
    (hn.named hr (k := r.subpieceCount - 1) (by omega))
  obtain ⟨hLastBlock, hLastSub⟩ := hr.last_eq hLength
  have hInfo := hm.lastSubpieceInfo_eq hr hLength
  have hCapacity : m.lastBlockCapacity = r.lastSubpiece + 1 := by
    rw [hm.capacity_eq, ← hm.lastInfo_eq, hInfo, hSub, hLastSub]
  constructor
  · simp only [SubPieceManager.newBlockCapacity, RidInfo.capacity, hm.length_eq, hm.blockSize_eq, hCapacity]
    split <;> simp_all
  · rw [SubPieceManager.getBlockSubPieceCount, RidInfo.capacity, hInfo, hBlock, hSub, hLastBlock, hLastSub,
      hm.blockSize_eq]

end Named

omit hm hr in
/-- A file whose end has a name is covered. -/
theorem BuiltFor.coversBy (hm : BuiltFor r m) (hr : r.Valid) (hLength : 0 < r.fileLength)
    (hn : r.NextNamed) : CoversBy r m ((List.range r.subpieceCount).map r.subpieceAt) := by
  have hPos := RidInfo.subpieceCount_pos hLength
  have hOffset : ∀ k < r.subpieceCount,
      (m.getSubPiecePosition (r.subpieceAt k)).1 = bytesNumPerSubpiece * k :=
    fun k hk => hm.position_of_le hr hn (Nat.le_of_lt hk)
  have hRaw : ∀ k ≤ r.subpieceCount, m.rawOffset (r.subpieceAt k) = bytesNumPerSubpiece * k :=
    fun k hk => hm.rawOffset_subpieceAt hr (hn.named hr hk)
  have hLast : ∀ k < r.subpieceCount, bytesNumPerSubpiece * k +
      (m.getSubPiecePosition (r.subpieceAt k)).2 ≤ min r.fileLength (bytesNumPerSubpiece * (k + 1)) := by
    intro k hk
    have hCount := RidInfo.subpieceCount_eq hLength
    rw [hm.length_subpieceAt hr hLength hn hk]
    simp only [bytesNumPerSubpiece] at hCount ⊢
    split <;> omega
  have hNumber : ∀ p < r.fileLength, p / bytesNumPerSubpiece < r.subpieceCount := by
    intro p hp
    have hCount := RidInfo.subpieceCount_eq hLength
    simp only [bytesNumPerSubpiece] at hCount ⊢
    omega
  have hInfo : ∀ p info, m.posToSubPieceInfo p = some info ↔
      info ∈ (List.range r.subpieceCount).map r.subpieceAt ∧
        (m.getSubPiecePosition info).1 ≤ p ∧
          p < (m.getSubPiecePosition info).1 + (m.getSubPiecePosition info).2 := by
    intro p info
    constructor
    · intro h
      have hp : p < r.fileLength := by
        by_contra hNot
        rw [posToSubPieceInfo, hm.fileLength_eq, if_pos (by omega)] at h
        cases h
      rw [hm.posToSubPieceInfo_eq hr hp, Option.some.injEq] at h
      subst h
      exact ⟨List.mem_map_of_mem (List.mem_range.mpr (hNumber p hp)),
        (hm.range_iff hr hLength hn (hNumber p hp)).mpr ⟨hp, rfl⟩⟩
    · rintro ⟨hMem, hRange⟩
      obtain ⟨k, hk, rfl⟩ := List.mem_map.mp hMem
      obtain ⟨hp, rfl⟩ := (hm.range_iff hr hLength hn (List.mem_range.mp hk)).mp hRange
      exact hm.posToSubPieceInfo_eq hr hp
  constructor
  case walks =>
    have hWhole : 0 + (r.subpieceCount - 1) + 1 = r.subpieceCount := by omega
    have hWalk := hm.walks_from hr hn hWhole
    rw [Nat.sub_add_cancel hPos, ← List.range_eq_range'] at hWalk
    rwa [RidInfo.subpieceAt, Nat.zero_div, Nat.zero_mod] at hWalk
  case mem_iff => exact fun info => hn.mem_names_iff hr hLength
  case positions =>
    rw [List.map_map]
    exact List.map_congr_left fun k hk => hOffset k (List.mem_range.mp hk)
  case disjoint =>
    rw [List.pairwise_map]
    apply List.Pairwise.imp_of_mem _ List.pairwise_lt_range
    intro a b ha hb hLt
    rw [List.mem_range] at ha hb
    rw [hOffset a ha, hOffset b hb]
    exact Nat.le_trans (Nat.le_trans (hLast a ha) (Nat.min_le_right _ _))
      (Nat.mul_le_mul_left _ hLt)
  case union =>
    intro p
    constructor
    · intro hp
      exact ⟨_, (hInfo p _).mp (hm.posToSubPieceInfo_eq hr hp)⟩
    · rintro ⟨info, hMem, hRange⟩
      obtain ⟨k, hk, rfl⟩ := List.mem_map.mp hMem
      exact ((hm.range_iff hr hLength hn (List.mem_range.mp hk)).mp hRange).1
  case info_iff => exact hInfo
  case inverse =>
    intro info hMem
    obtain ⟨k, hk, rfl⟩ := List.mem_map.mp hMem
    rw [List.mem_range] at hk
    change m.posToSubPieceInfo (m.getSubPiecePosition (r.subpieceAt k)).1 = _
    rw [hOffset k hk, hm.posToSubPieceInfo_eq hr (RidInfo.mul_lt_of_lt_subpieceCount hk),
      Nat.mul_div_cancel_left _ (by decide)]
  case counts =>
    intro b hb
    obtain ⟨hNew, hGet⟩ := hm.newBlockCapacity_of_named hr hLength hn b
    exact ⟨(hn.countP_names hr hLength hb).trans hNew.symm, hGet.trans hNew.symm⟩
  case sum_counts =>
    rw [← RidInfo.sum_capacity hr hLength]
    exact Finset.sum_congr rfl fun b _ => (hm.newBlockCapacity_of_named hr hLength hn b).1
  case total => exact RidInfo.totalSubpieceCount_eq hn.roundUp_lt
  case noWrap =>
    refine ⟨hn.roundUp_lt, hLength, hr.blockCount_pos hLength, hr.perBlock_pos, ?_, ?_⟩
    · intro info hMem
      obtain ⟨k, hk, rfl⟩ := List.mem_map.mp hMem
      rw [List.mem_range] at hk
      rw [hRaw k (Nat.le_of_lt hk)]
      exact Nat.lt_of_le_of_lt (Nat.le_trans (hLast k hk) (Nat.min_le_left _ _)) r.fileLength_lt
    · intro info hMem
      obtain ⟨k, hk, rfl⟩ := List.mem_map.mp hMem
      rw [List.mem_range] at hk
      rw [hm.incSubPieceInfo_subpieceAt hr (hn.named hr (Nat.le_of_lt hk)), hRaw _ hk]
      exact Nat.lt_of_le_of_lt (Nat.mul_le_mul_left _ hk) (RidInfo.mul_subpieceCount_lt hn.roundUp_lt)

/-- A walk that meets the positions in order and stops only meets names. The
induction is on the walk: a truncated name would be a position it has passed. -/
theorem BuiltFor.named_of_walks {visits : List SubPieceInfo} {info : SubPieceInfo} {k : Nat}
    (h : m.Walks info visits) (hInfo : info = r.subpieceAt k) (hk : k < r.subpieceCount)
    (hNamed : r.Named k) (hPositions : visits.map m.subPieceInfoToPosition =
      (List.range' k (r.subpieceCount - k)).map (bytesNumPerSubpiece * ·)) :
    ∀ j, k ≤ j → j ≤ r.subpieceCount → r.Named j := by
  have hSpan : r.subpieceCount - k = r.subpieceCount - (k + 1) + 1 := by omega
  induction h generalizing k with
  | @last info hAnswer =>
    subst hInfo
    have hEnd : k + 1 = r.subpieceCount := by
      have hLengths := congrArg List.length hPositions
      rw [List.length_map, List.length_map, List.length_range', List.length_singleton] at hLengths
      omega
    have hNext : r.Named (k + 1) := by
      by_contra hNot
      have hBack := hm.position_of_not_named hr hNamed hNot
      have hInside := RidInfo.mul_lt_of_lt_subpieceCount hk
      rw [Bool.eq_false_iff, ne_eq, hm.incSubPieceInfo_snd,
        hm.incSubPieceInfo_subpieceAt hr hNamed] at hAnswer
      omega
    intro j hFrom hTo
    obtain hEq | hEq : j = k ∨ j = k + 1 := by omega
    · exact hEq ▸ hNamed
    · exact hEq ▸ hNext
  | @next info rest hAnswer hRest ih =>
    subst hInfo
    rw [hSpan, List.range'_succ, List.map_cons, List.map_cons] at hPositions
    obtain ⟨-, hPositions⟩ := List.cons.inj hPositions
    have hStep := hm.incSubPieceInfo_subpieceAt hr hNamed
    -- the walk goes on, so there is a next position to compare with
    have hMore : k + 1 < r.subpieceCount := by
      by_contra hNot
      rw [show r.subpieceCount - (k + 1) = 0 by omega] at hPositions
      cases hRest <;> simp at hPositions
    have hHead : m.subPieceInfoToPosition (r.subpieceAt (k + 1)) = bytesNumPerSubpiece * (k + 1) := by
      rw [show r.subpieceCount - (k + 1) = r.subpieceCount - (k + 1 + 1) + 1 by omega,
        List.range'_succ, List.map_cons] at hPositions
      rw [hStep] at hRest
      cases hRest <;> exact (List.cons.inj hPositions).1
    have hNext : r.Named (k + 1) := by
      by_contra hNot
      have hBack := hm.position_of_not_named hr hNamed hNot
      rw [hHead, Nat.mul_succ] at hBack
      simp only [bytesNumPerSubpiece] at hBack
      omega
    intro j hFrom hTo
    obtain hEq | hLt := Nat.eq_or_lt_of_le hFrom
    · exact hEq ▸ hNamed
    · exact ih hStep hMore hNext hPositions (by omega) j hLt hTo

/-- A covered file has an end with a name. -/
theorem BuiltFor.nextNamed (hLength : 0 < r.fileLength) (h : Covers r m) : r.NextNamed := by
  obtain ⟨visits, hCovers⟩ := h
  apply RidInfo.nextNamed_of_named hCovers.noWrap.roundUp
  have hStart : SubPieceInfo.make 0 0 = r.subpieceAt 0 := by
    rw [RidInfo.subpieceAt, Nat.zero_div, Nat.zero_mod]
  have hZero : r.Named 0 := by simp [RidInfo.Named]
  have hPositions := hCovers.positions
  rw [List.range_eq_range'] at hPositions
  intro k hk
  exact hm.named_of_walks hr hCovers.walks hStart (RidInfo.subpieceCount_pos hLength) hZero
    hPositions k (Nat.zero_le k) hk

omit hm hr in
/-- The position helpers cover the file exactly when the position past its end
has a name and its length can be rounded up in 32 bits. -/
theorem covers_iff {full verify : Bool} (hNew : new r full verify = some m) (hr : r.Valid)
    (hLength : 0 < r.fileLength) : Covers r m ↔ r.NextNamed := by
  have hm := (new_eq_some hNew).2.1
  exact ⟨hm.nextNamed hr hLength, fun hn => ⟨_, hm.coversBy hr hLength hn⟩⟩

omit hm hr in
/-- Three subpieces in two blocks, the last of them short. -/
theorem covers_iff_threeSubpieces :
    ∃ m : SubPieceManager (List Bool), new threeSubpieces false false = some m ∧
      (Covers threeSubpieces m ↔ threeSubpieces.NextNamed) := by
  obtain ⟨m, hNew⟩ := exists_new (r := threeSubpieces) (List Bool) (by decide) false false
  exact ⟨m, hNew, covers_iff hNew ⟨by decide, by decide, by decide⟩ (by decide)⟩

omit hm hr in
/-- With as many blocks as block indices, the last increment truncates the index:
it answers true and the walk is back at the start of the file. -/
theorem walkAround_not_covers : walkAround.Valid ∧ 0 < walkAround.fileLength ∧
    walkAround.blockCount ≤ 2 ^ 16 ∧
    ∃ m : SubPieceManager (List Bool), new walkAround false false = some m ∧
      m.incSubPieceInfo (.make 65535 0) = (.make 0 0, true) ∧ ¬ Covers walkAround m := by
  have hr : walkAround.Valid := ⟨by decide, by decide, by decide⟩
  have hLength : 0 < walkAround.fileLength := by decide
  obtain ⟨m, hNew⟩ := exists_new (r := walkAround) (List Bool) (by decide) false false
  have hm := (new_eq_some hNew).2.1
  have hNamed : walkAround.Named 65535 := by
    unfold RidInfo.Named
    decide
  have hLast : SubPieceInfo.make 65535 0 = walkAround.subpieceAt 65535 := by decide +kernel
  have hStart : walkAround.subpieceAt (65535 + 1) = .make 0 0 := by decide +kernel
  have hFst := hm.incSubPieceInfo_subpieceAt hr hNamed
  refine ⟨hr, hLength, by decide, m, hNew, ?_, ?_⟩
  · have hSnd : (m.incSubPieceInfo (walkAround.subpieceAt 65535)).2 = true := by
      rw [hm.incSubPieceInfo_snd, hFst, hStart, subPieceInfoToPosition]
      simp [u16, u32, walkAround]
    rw [hLast]
    exact Prod.ext (hFst.trans hStart) hSnd
  · intro hCovers
    have hBlock := (hm.nextNamed hr hLength hCovers).block_lt
    revert hBlock
    decide

end SubPieceManager

end Storage
