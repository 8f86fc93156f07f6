import Peer.Storage.ManagerStep
import Mathlib.Algebra.BigOperators.Group.Finset.Basic
import Mathlib.Algebra.BigOperators.Intervals
import Mathlib.Algebra.BigOperators.Ring.Finset
import Mathlib.Algebra.Group.Action.Defs

/-! The geometry of a file: how many subpieces each block has and how long each
subpiece is, and what a store built for a file keeps of it. -/
namespace Storage

open Basis

namespace RidInfo

variable {r : RidInfo}

/-- The index of the last subpiece inside the last block. -/
def lastSubpiece (r : RidInfo) : Nat := (r.fileLength - 1) % r.blockSize / bytesNumPerSubpiece

/-- The number of subpieces of block `b`. -/
def capacity (r : RidInfo) (b : Nat) : Nat :=
  if b = r.blockCount - 1 then r.lastSubpiece + 1 else r.blockSize / bytesNumPerSubpiece

/-- The subpiece is one of its block. -/
def Inside (r : RidInfo) (info : SubPieceInfo) : Prop :=
  info.blockIndex < r.blockCount ∧ info.subpieceIndex < r.capacity info.blockIndex

instance (r : RidInfo) (info : SubPieceInfo) : Decidable (Inside r info) := by
  unfold Inside
  infer_instance

/-- The number of bytes of subpiece `s` of block `b`. -/
def subpieceSize (r : RidInfo) (b s : Nat) : Nat :=
  if b = r.blockCount - 1 ∧ s = r.lastSubpiece then
    (r.fileLength - 1) % bytesNumPerSubpiece + 1
  else bytesNumPerSubpiece

/-- The number of bytes of block `b`. -/
def blockBytes (r : RidInfo) (b : Nat) : Nat :=
  ∑ s ∈ Finset.range (r.capacity b), r.subpieceSize b s

/-- Every subpiece has a pair of `boost::uint16_t` as its name, and so has the
first position past a block. -/
structure Addressable (r : RidInfo) : Prop extends Valid r where
  blockCount_le : r.blockCount ≤ 2 ^ 16
  blockSize_le : r.blockSize / bytesNumPerSubpiece < 2 ^ 16

theorem Valid.blockSize_eq (h : r.Valid) :
    bytesNumPerSubpiece * (r.blockSize / bytesNumPerSubpiece) = r.blockSize :=
  Nat.mul_div_cancel' h.subpiece_dvd

theorem Valid.subpieces_pos (h : r.Valid) : 0 < r.blockSize / bytesNumPerSubpiece := by
  have hEq := h.blockSize_eq
  have hPos := h.blockSize_pos
  by_contra hZero
  rw [Nat.eq_zero_of_not_pos hZero] at hEq
  omega

theorem Valid.fileLength_pos (h : r.Valid) (hCount : 0 < r.blockCount) : 0 < r.fileLength := by
  by_contra hZero
  have hLength := Nat.eq_zero_of_not_pos hZero
  have hBlocks := h.blockCount_eq
  rw [hLength, Nat.zero_add, Nat.div_eq_of_lt (by have := h.blockSize_pos; omega)] at hBlocks
  omega

/-- The index of the last block. -/
theorem Valid.blockCount_sub_one (h : r.Valid) (hLength : 0 < r.fileLength) :
    r.blockCount = (r.fileLength - 1) / r.blockSize + 1 := by
  have hPos := h.blockSize_pos
  rw [h.blockCount_eq, show r.fileLength + r.blockSize - 1 = r.fileLength - 1 + r.blockSize by omega,
    Nat.add_div_right _ hPos]

theorem Valid.lastSubpiece_lt (h : r.Valid) :
    r.lastSubpiece < r.blockSize / bytesNumPerSubpiece := by
  have hMod := Nat.mod_lt (r.fileLength - 1) h.blockSize_pos
  have hEq := h.blockSize_eq
  unfold lastSubpiece
  apply Nat.div_lt_of_lt_mul
  omega

theorem capacity_pos (h : r.Valid) (b : Nat) : 0 < r.capacity b := by
  unfold capacity
  split
  · omega
  · exact h.subpieces_pos

theorem capacity_le (h : r.Valid) (b : Nat) :
    r.capacity b ≤ r.blockSize / bytesNumPerSubpiece := by
  unfold capacity
  split
  · exact h.lastSubpiece_lt
  · exact Nat.le_refl _

theorem capacity_lt (h : r.Valid) (b : Nat) : r.capacity b < 2 ^ 31 := by
  have hLe := capacity_le h b
  have hLt := r.blockSize_lt
  simp only [bytesNumPerSubpiece] at hLe
  omega

theorem subpieceSize_pos (b s : Nat) : 0 < r.subpieceSize b s := by
  unfold subpieceSize bytesNumPerSubpiece
  split <;> omega

theorem subpieceSize_le (b s : Nat) : r.subpieceSize b s ≤ bytesNumPerSubpiece := by
  unfold subpieceSize
  split
  · exact Nat.mod_lt _ (by decide)
  · exact Nat.le_refl _

/-- A block other than the last one is full of whole subpieces. -/
theorem blockBytes_of_ne (h : r.Valid) {b : Nat} (hb : b ≠ r.blockCount - 1) :
    r.blockBytes b = r.blockSize := by
  simp only [blockBytes, capacity, subpieceSize, hb, false_and, if_false, Finset.sum_const,
    Finset.card_range, smul_eq_mul]
  rw [Nat.mul_comm]
  exact h.blockSize_eq

/-- The last block has the bytes that are left. -/
theorem blockBytes_last (h : r.Valid) :
    r.blockBytes (r.blockCount - 1) = (r.fileLength - 1) % r.blockSize + 1 := by
  have hInner : ∀ s ∈ Finset.range r.lastSubpiece,
      r.subpieceSize (r.blockCount - 1) s = bytesNumPerSubpiece := by
    intro s hs
    have hNe : s ≠ r.lastSubpiece := Nat.ne_of_lt (Finset.mem_range.mp hs)
    simp [subpieceSize, hNe]
  have hSplit := Nat.div_add_mod ((r.fileLength - 1) % r.blockSize) bytesNumPerSubpiece
  rw [Nat.mod_mod_of_dvd _ h.subpiece_dvd] at hSplit
  simp only [blockBytes, capacity, if_true, Finset.sum_range_succ]
  rw [Finset.sum_congr rfl hInner]
  simp only [Finset.sum_const, Finset.card_range, smul_eq_mul, subpieceSize, and_self, if_true]
  rw [lastSubpiece, Nat.mul_comm]
  omega

/-- The blocks make up the file. -/
theorem sum_blockBytes (h : r.Valid) :
    ∑ b ∈ Finset.range r.blockCount, r.blockBytes b = r.fileLength := by
  by_cases hLength : 0 < r.fileLength
  · have hCount := h.blockCount_sub_one hLength
    have hInner : ∀ b ∈ Finset.range (r.blockCount - 1), r.blockBytes b = r.blockSize :=
      fun b hb => blockBytes_of_ne h (Nat.ne_of_lt (Finset.mem_range.mp hb))
    have hSplit := Nat.div_add_mod (r.fileLength - 1) r.blockSize
    have hLast : r.blockCount - 1 = (r.fileLength - 1) / r.blockSize := by
      rw [hCount, Nat.add_sub_cancel]
    have hRange : Finset.range r.blockCount = Finset.range (r.blockCount - 1 + 1) := by
      rw [hLast, ← hCount]
    rw [hRange, Finset.sum_range_succ, Finset.sum_congr rfl hInner, blockBytes_last h]
    simp only [Finset.sum_const, Finset.card_range, smul_eq_mul]
    rw [hLast, Nat.mul_comm]
    omega
  · have hZero := Nat.eq_zero_of_not_pos hLength
    have hNone : ¬ 0 < r.blockCount := fun hCount => hLength (h.fileLength_pos hCount)
    rw [Nat.eq_zero_of_not_pos hNone, hZero]
    rfl

end RidInfo

namespace SubPieceManager

variable {μ : Type} [BlockMap μ] {r : RidInfo} {m m' : SubPieceManager μ}

/-- What a store keeps of the RID information it was built from. -/
structure BuiltFor (r : RidInfo) (m : SubPieceManager μ) : Prop where
  blockSize_eq : m.ridInfo.blockSize = r.blockSize
  fileLength_eq : m.ridInfo.fileLength = r.fileLength
  length_eq : m.blocks.length = r.blockCount
  lastInfo_eq : m.lastSubpieceInfo = lastInfoOf r
  capacity_eq : m.lastBlockCapacity = (lastInfoOf r).subpieceIndex + 1
  lastSize_eq : m.lastSubpieceSize = subU32 r.fileLength 1 % bytesNumPerSubpiece + 1
  sized : Sized m

theorem exists_new (μ : Type) [BlockMap μ] (h : r.blockSize ≠ 0) (full verify : Bool) :
    ∃ m : SubPieceManager μ, new r full verify = some m :=
  ⟨_, if_neg h⟩

theorem new_eq_some {full verify : Bool} (h : new r full verify = some m) :
    r.blockSize ≠ 0 ∧ BuiltFor r m ∧ (∀ b, m.nodeAt b = none) ∧
      (∀ b < r.blockCount, m.hasFullBlock b = full) ∧
      m.blocksCount = (if full then r.blockCount else 0) ∧
      m.downloadBytes = (if full then r.fileLength else 0) := by
  unfold new at h
  split at h
  · cases h
  · rename_i hSize
    have h := Option.some.inj h
    subst h
    refine ⟨hSize, ⟨rfl, rfl, by simp, rfl, rfl, rfl, ?_⟩, ?_, ?_, rfl, rfl⟩
    · simp [Sized, BlockMap.size_create]
    · intro b
      simp only [nodeAt, List.getD_eq_getElem?_getD, List.getElem?_replicate]
      split <;> rfl
    · intro b hb
      exact BlockMap.hasBlock_setAll _ _ _ (by simpa [BlockMap.size_create] using hb)

theorem BuiltFor.becomes (h : BuiltFor r m) {b : Nat} {node? : Option BlockNode} {bit : Bool}
    {count bytes : Nat} (hStep : Becomes m b node? bit count bytes m') : BuiltFor r m' :=
  ⟨hStep.ridInfo_eq ▸ h.blockSize_eq, hStep.ridInfo_eq ▸ h.fileLength_eq,
    hStep.length_eq.trans h.length_eq, hStep.lastInfo_eq.trans h.lastInfo_eq,
    hStep.capacity_eq.trans h.capacity_eq, hStep.lastSize_eq.trans h.lastSize_eq, hStep.sized⟩

theorem BuiltFor.initRidInfo (h : BuiltFor r m) {r' : RidInfo}
    (hSize : r'.blockSize = r.blockSize) (hLength : r'.fileLength = r.fileLength) :
    BuiltFor r (m.initRidInfo r') :=
  ⟨hSize, hLength, h.length_eq, h.lastInfo_eq, h.capacity_eq, h.lastSize_eq, h.sized⟩

section Indices

variable {b : Nat}

/-- The capacity that `GetBlockSubPieceCount` derives from RID information. -/
def subPieceCountOf (r : RidInfo) (b : Nat) : Nat :=
  if b = (lastInfoOf r).blockIndex then (lastInfoOf r).subpieceIndex + 1
  else r.blockSize / bytesNumPerSubpiece

theorem BuiltFor.getBlockSubPieceCount (h : BuiltFor r m) (b : Nat) :
    m.getBlockSubPieceCount b = subPieceCountOf r b := by
  rw [SubPieceManager.getBlockSubPieceCount, subPieceCountOf, h.lastInfo_eq, h.blockSize_eq]

theorem lastInfoOf_blockIndex_lt (h : 0 < r.blockCount) :
    (lastInfoOf r).blockIndex < r.blockCount := by
  rw [lastInfoOf, SubPieceInfo.make_blockIndex, subU32_of_le r.blockCount_lt h]
  exact Nat.lt_of_le_of_lt (u16_le _) (by omega)

/-- In a file whose subpieces are addressable no index is truncated. -/
theorem lastInfoOf_eq (hr : r.Addressable) (hLength : 0 < r.fileLength) :
    (lastInfoOf r).blockIndex = r.blockCount - 1 ∧
      (lastInfoOf r).subpieceIndex = r.lastSubpiece := by
  have hCount := hr.blockCount_sub_one hLength
  have hCount' := hr.blockCount_le
  have hLast := hr.lastSubpiece_lt
  have hSize := hr.blockSize_le
  have hPos : 1 ≤ r.blockCount := hCount ▸ Nat.succ_pos _
  simp only [lastInfoOf, SubPieceInfo.make_blockIndex, SubPieceInfo.make_subpieceIndex,
    subU32_of_le r.fileLength_lt hLength, subU32_of_le r.blockCount_lt hPos]
  exact ⟨u16_of_lt (by omega), u16_of_lt (Nat.lt_trans hLast hSize)⟩

theorem BuiltFor.newBlockCapacity_eq (h : BuiltFor r m) (hr : r.Addressable)
    (hb : b < r.blockCount) : m.newBlockCapacity b = r.capacity b := by
  obtain ⟨-, hLast⟩ := lastInfoOf_eq hr (hr.fileLength_pos (by omega))
  unfold newBlockCapacity RidInfo.capacity
  rw [h.length_eq, h.blockSize_eq, h.capacity_eq, hLast]
  by_cases hEq : b = r.blockCount - 1
  · rw [if_neg (not_not.mpr hEq), if_pos hEq]
  · rw [if_pos hEq, if_neg hEq]

theorem BuiltFor.getBlockSubPieceCount_eq (h : BuiltFor r m) (hr : r.Addressable)
    (hb : b < r.blockCount) : m.getBlockSubPieceCount b = r.capacity b := by
  obtain ⟨hBlock, hLast⟩ := lastInfoOf_eq hr (hr.fileLength_pos (by omega))
  rw [h.getBlockSubPieceCount, subPieceCountOf, RidInfo.capacity, hBlock, hLast]

/-- The length `GetSubPiecePosition` gives is the size of the subpiece. -/
theorem BuiltFor.position_length (h : BuiltFor r m) (hr : r.Addressable) {info : SubPieceInfo}
    (hb : info.blockIndex < r.blockCount) :
    (m.getSubPiecePosition info).2 = r.subpieceSize info.blockIndex info.subpieceIndex := by
  have hLength := hr.fileLength_pos (by omega)
  obtain ⟨hBlock, hLast⟩ := lastInfoOf_eq hr hLength
  have hEq : info = lastInfoOf r ↔
      info.blockIndex = r.blockCount - 1 ∧ info.subpieceIndex = r.lastSubpiece := by
    rw [SubPieceInfo.ext_iff, hBlock, hLast]
  simp only [getSubPiecePosition, RidInfo.subpieceSize, h.lastInfo_eq, h.fileLength_eq, hEq,
    subU32_of_le r.fileLength_lt hLength]

end Indices

end SubPieceManager

end Storage
