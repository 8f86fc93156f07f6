import Mathlib.Algebra.Order.Floor.Ring
import Mathlib.Data.Rat.Floor
import Mathlib.Tactic.Positivity

/-! Shares in proportion to needs, rounded down to whole units. -/
namespace Basis

variable {ratio : ℚ} {need left total : Nat} {needs : List Nat}

/-- What a ratio grants of a need. -/
def share (ratio : ℚ) (need : Nat) : Nat := ⌊ratio * need⌋₊

@[simp] theorem share_zero (need : Nat) : share 0 need = 0 := by
  simp [share]

@[simp] theorem share_one (need : Nat) : share 1 need = need := by
  simp [share]

theorem share_le (h : ratio ≤ 1) : share ratio need ≤ need := by
  apply Nat.floor_le_of_le
  calc ratio * need ≤ 1 * need := mul_le_mul_of_nonneg_right h (Nat.cast_nonneg need)
    _ = need := one_mul _

/-- The shares of several needs are together at most the share of their sum. -/
theorem sum_share_le (h : 0 ≤ ratio) (needs : List Nat) :
    ((needs.map (share ratio)).sum : ℚ) ≤ ratio * needs.sum := by
  induction needs with
  | nil => simp
  | cons need rest ih =>
      have hFirst : (share ratio need : ℚ) ≤ ratio * need :=
        Nat.floor_le (mul_nonneg h (Nat.cast_nonneg need))
      simp only [List.map_cons, List.sum_cons, Nat.cast_add, mul_add]
      exact add_le_add hFirst ih

/-- The needs share no more than there is. -/
theorem sum_share_le_left (h : needs.sum = total) (hPos : 0 < total) :
    (needs.map (share ((left : ℚ) / total))).sum ≤ left := by
  have hTotal : (total : ℚ) ≠ 0 := Nat.cast_ne_zero.mpr (Nat.ne_of_gt hPos)
  have hSum := sum_share_le (show (0 : ℚ) ≤ left / total by positivity) needs
  rw [h, div_mul_cancel₀ _ hTotal] at hSum
  exact Nat.cast_le.mp hSum

end Basis
