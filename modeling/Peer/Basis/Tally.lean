import Mathlib.Algebra.BigOperators.Group.Finset.Basic
import Mathlib.Algebra.Order.BigOperators.Group.Finset
import Mathlib.Algebra.Order.Group.Nat

/-! Sums over an interval of indices of which one entry changes. -/
namespace Basis

variable {n i : Nat} {f g : Nat → Nat}

/-- Two tallies that differ in one entry differ by the change of that entry. -/
theorem sum_range_change (hi : i < n) (h : ∀ j < n, j ≠ i → g j = f j) :
    ∑ j ∈ Finset.range n, g j + f i = ∑ j ∈ Finset.range n, f j + g i := by
  have hMem : i ∈ Finset.range n := Finset.mem_range.mpr hi
  have hRest : ∑ j ∈ (Finset.range n).erase i, g j = ∑ j ∈ (Finset.range n).erase i, f j := by
    refine Finset.sum_congr rfl fun j hj => ?_
    obtain ⟨hNe, hj⟩ := Finset.mem_erase.mp hj
    exact h j (Finset.mem_range.mp hj) hNe
  rw [← Finset.add_sum_erase _ g hMem, ← Finset.add_sum_erase _ f hMem, hRest]
  omega

/-- An entry is at most the tally. -/
theorem le_sum_range (hi : i < n) : f i ≤ ∑ j ∈ Finset.range n, f j :=
  Finset.single_le_sum (fun _ _ => Nat.zero_le _) (Finset.mem_range.mpr hi)

end Basis
