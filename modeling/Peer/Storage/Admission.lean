import Peer.Storage.BlockMapParse
import Peer.Storage.BlockNodeFits
import Peer.Storage.ManagerInvariant

/-! What `Instance::AsyncAddSubPiece` lets into the store. The test compares the
pair of indices with the last subpiece of the file, so that inside a block that
is not the last one nothing bounds the subpiece index. -/
namespace Storage

open Basis

namespace RidInfo

end RidInfo

namespace SubPieceManager

variable {μ : Type} [BlockMap μ] {r : RidInfo} {build : Build} {m : SubPieceManager μ}
  {info : SubPieceInfo} {buf : SubPieceBuffer}

/-- `Instance::AsyncAddSubPiece` on the store of a running instance. -/
def asyncAddSubPiece (m : SubPieceManager μ) (info : SubPieceInfo) (buf : SubPieceBuffer) :
    Option (SubPieceManager μ × Bool) :=
  if !m.isSubPieceValid info buf then some (m, false)
  else if m.hasSubPiece info then some (m, false)
  else m.addSubPiece info buf

section Geometry

/-- The position of a subpiece of a block is in that block. -/
theorem BuiltFor.position_in_block (hm : BuiltFor r m) (hr : r.Valid) (h : r.Inside info) :
    m.subPieceInfoToPosition info / r.blockSize = info.blockIndex ∧
      m.subPieceInfoToPosition info < r.fileLength := by
  obtain ⟨hBlock, hSub⟩ := h
  have hLength := hr.fileLength_pos (by omega)
  have hSize := hr.blockSize_eq
  have hCap := RidInfo.capacity_le hr info.blockIndex
  have hLt := r.fileLength_lt
  have hPos := hr.blockSize_pos
  have hSplit := Nat.div_add_mod (r.fileLength - 1) r.blockSize
  have hLast := hr.blockCount_sub_one hLength
  -- The bytes in front of the subpiece, in its block and in the file.
  have hInner : info.subpieceIndex * bytesNumPerSubpiece < r.blockSize := by
    have hMul := Nat.mul_le_mul_left bytesNumPerSubpiece (Nat.le_trans hSub hCap)
    rw [hSize, Nat.succ_eq_add_one, Nat.mul_add, Nat.mul_comm] at hMul
    simp only [bytesNumPerSubpiece] at hMul ⊢
    omega
  have hFile : info.blockIndex * r.blockSize + info.subpieceIndex * bytesNumPerSubpiece <
      r.fileLength := by
    by_cases hEq : info.blockIndex = r.blockCount - 1
    · have hQuot : info.blockIndex = (r.fileLength - 1) / r.blockSize := by omega
      rw [RidInfo.capacity, if_pos hEq, RidInfo.lastSubpiece] at hSub
      have hMod : info.subpieceIndex * bytesNumPerSubpiece ≤ (r.fileLength - 1) % r.blockSize :=
        Nat.le_trans (Nat.mul_le_mul_right _ (Nat.le_of_lt_succ hSub)) (Nat.div_mul_le_self _ _)
      rw [← hQuot, Nat.mul_comm] at hSplit
      omega
    · have hNext : (info.blockIndex + 1) * r.blockSize ≤
          (r.fileLength - 1) / r.blockSize * r.blockSize :=
        Nat.mul_le_mul_right _ (by omega)
      rw [Nat.mul_comm ((r.fileLength - 1) / r.blockSize), Nat.add_mul, Nat.one_mul] at hNext
      omega
  have hPosition : m.subPieceInfoToPosition info =
      info.blockIndex * r.blockSize + info.subpieceIndex * bytesNumPerSubpiece := by
    rw [subPieceInfoToPosition, hm.blockSize_eq, u32_of_lt (by omega)]
  rw [hPosition]
  refine ⟨?_, hFile⟩
  rw [Nat.mul_comm, Nat.mul_add_div hPos, Nat.div_eq_of_lt hInner, Nat.add_zero]

end Geometry

/-- The stores an instance starts with: a fresh one, or one parsed from a block map
whose nodes have a capacity that the store itself gives their blocks. -/
inductive Loaded (r : RidInfo) (m : SubPieceManager μ) : Prop where
  | fresh (full verify : Bool) (h : SubPieceManager.new r full verify = some m)
  | parsed (buf : Bytes) (verify : Bool)
      (hTotals : ∀ b node, m.nodeAt b = some node →
        node.totalSubpieceCount = newCapacityOf r b ∨ node.totalSubpieceCount = subPieceCountOf r b)
      (h : parse buf r verify = .ok (some m))

theorem Loaded.shaped (h : Loaded r m) : Shaped r m := by
  cases h with
  | fresh full verify h => exact Shaped.new h
  | parsed buf verify hTotals h =>
      exact ⟨builtFor_of_parse h, fun b node hNode =>
        ⟨hTotals b node hNode, (node_of_parse h hNode).1.2⟩⟩

theorem Shaped.of_run {start : SubPieceManager μ} (hLoaded : Loaded r start)
    (run : Reaches (Step build) (fun _ op => op.KeepsGeometry r) start m) : Shaped r m :=
  run.invariant hLoaded.shaped fun _ _ _ h hKeeps hStep => h.step hKeeps hStep

section Files

end Files

end SubPieceManager

end Storage
