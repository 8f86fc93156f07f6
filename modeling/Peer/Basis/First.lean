import Mathlib.Order.Defs.LinearOrder
import Mathlib.Order.Nat

/-! Searching an interval of indices for the first one with a property. -/
namespace Basis

/-- `r` is the answer of a search of `[lo, hi)` for the first index with `p`. -/
def FirstFrom (p : Nat → Prop) (lo hi : Nat) (r : Option Nat) : Prop :=
  match r with
  | none => ∀ i, lo ≤ i → i < hi → ¬ p i
  | some x => lo ≤ x ∧ x < hi ∧ p x ∧ ∀ i, lo ≤ i → i < x → ¬ p i

variable {p : Nat → Prop} {lo mid hi : Nat} {r : Option Nat}

theorem FirstFrom.here (hlo : lo < hi) (hp : p lo) : FirstFrom p lo hi (some lo) :=
  ⟨Nat.le_refl lo, hlo, hp, fun i h h' => by omega⟩

theorem FirstFrom.empty (h : hi ≤ lo) : FirstFrom p lo hi none :=
  fun i h h' => by omega

/-- A search may start later when nothing was skipped. -/
theorem FirstFrom.of_skip (h : FirstFrom p mid hi r) (hle : lo ≤ mid)
    (hSkip : ∀ i, lo ≤ i → i < mid → i < hi → ¬ p i) : FirstFrom p lo hi r := by
  cases r with
  | none =>
      intro i hlo hhi
      by_cases hi' : i < mid
      · exact hSkip i hlo hi' hhi
      · exact h i (by omega) hhi
  | some x =>
      obtain ⟨hmid, hx, hpx, hFirst⟩ := h
      refine ⟨by omega, hx, hpx, fun i hlo hix => ?_⟩
      by_cases hi' : i < mid
      · exact hSkip i hlo hi' (by omega)
      · exact hFirst i (by omega) hix

end Basis
