import Mathlib.Data.Nat.Init

/-! Calls that are bounded by a number of rounds and return nothing when it does not
suffice. What such a call computes is what it returns from some number on. -/
namespace Basis

universe u v

variable {α : Type u} {β : Type v} {f : Nat → Option α} {P Q : α → Prop} {value : α}

/-- From some number of rounds on the call returns one value, and the value has the
property. -/
def Settles (f : Nat → Option α) (P : α → Prop) : Prop :=
  ∃ value, (∃ enough, ∀ rounds, enough ≤ rounds → f rounds = some value) ∧ P value

namespace Settles

theorem of_add (enough : Nat) (h : ∀ rounds, f (rounds + enough) = some value) (hValue : P value) :
    Settles f P := by
  refine ⟨value, ⟨enough, fun rounds hRounds => ?_⟩, hValue⟩
  obtain ⟨more, rfl⟩ := Nat.exists_eq_add_of_le' hRounds
  exact h more

/-- A call that needs no rounds. -/
theorem const (hValue : P value) : Settles (fun _ => some value) P :=
  of_add 0 (fun _ => rfl) hValue

/-- A call that spends rounds before it is the other call. -/
theorem of_succ {g : Nat → Option α} (depth : Nat) (h : Settles f P)
    (hEq : ∀ rounds, g (rounds + depth) = f rounds) : Settles g P := by
  obtain ⟨result, ⟨enough, hReturns⟩, hResult⟩ := h
  apply of_add (enough + depth) _ hResult
  intro rounds
  rw [← Nat.add_assoc, hEq]
  exact hReturns _ (Nat.le_add_left enough rounds)

theorem mono (h : Settles f P) (hImp : ∀ a, P a → Q a) : Settles f Q := by
  obtain ⟨result, hReturns, hResult⟩ := h
  exact ⟨result, hReturns, hImp result hResult⟩

theorem map {R : β → Prop} {k : α → β} (h : Settles f P) (hImp : ∀ a, P a → R (k a)) :
    Settles (fun rounds => (f rounds).map k) R := by
  obtain ⟨result, ⟨enough, hReturns⟩, hResult⟩ := h
  refine ⟨k result, ⟨enough, fun rounds hRounds => ?_⟩, hImp result hResult⟩
  simp [hReturns rounds hRounds]

theorem bind {R : β → Prop} {k : Nat → α → Option β} (h : Settles f P)
    (hNext : ∀ a, P a → Settles (fun rounds => k rounds a) R) :
    Settles (fun rounds => (f rounds).bind (k rounds)) R := by
  obtain ⟨middle, ⟨enough, hReturns⟩, hMiddle⟩ := h
  obtain ⟨result, ⟨enough', hReturns'⟩, hResult⟩ := hNext middle hMiddle
  refine ⟨result, ⟨max enough enough', fun rounds hRounds => ?_⟩, hResult⟩
  show (f rounds).bind (k rounds) = some result
  rw [hReturns rounds (by omega)]
  exact hReturns' rounds (by omega)

/-- A call settles on one value only. -/
theorem elim (h : Settles f P) (hValue : Settles f (· = value)) : P value := by
  obtain ⟨result, ⟨enough, hReturns⟩, hResult⟩ := h
  obtain ⟨_, ⟨enough', hReturns'⟩, rfl⟩ := hValue
  have hEq := hReturns (max enough enough') (by omega)
  rw [hReturns' _ (by omega)] at hEq
  cases hEq
  exact hResult

/-- What is known of the value is what is said of the call. -/
theorem iff_of_eq (h : Settles f (· = value)) : Settles f P ↔ P value := by
  constructor
  · intro hP
    exact hP.elim h
  · intro hP
    apply h.mono
    rintro result rfl
    exact hP

end Settles

end Basis
