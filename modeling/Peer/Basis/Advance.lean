import Mathlib.Data.List.Basic

/-! An iterator that is moved a number of times. It stands for what comes behind it, and
must not be moved from the end. -/
namespace Basis

universe u

variable {α : Type u}

/-- Moved `n` times; none if it would leave the list. -/
def advance : Nat → List α → Option (List α)
  | 0, rest => some rest
  | _ + 1, [] => none
  | n + 1, _ :: rest => advance n rest

theorem advance_eq (n : Nat) (rest : List α) :
    advance n rest = if n ≤ rest.length then some (rest.drop n) else none := by
  induction n generalizing rest with
  | zero => simp [advance]
  | succ n ih =>
      cases rest with
      | nil => simp [advance]
      | cons x rest => simp [advance, ih]

/-- What stays when everything from an iterator to the end is erased. -/
def eraseToEnd (list rest : List α) : List α := list.take (list.length - rest.length)

theorem eraseToEnd_drop {n : Nat} {list : List α} (h : n ≤ list.length) :
    eraseToEnd list (list.drop n) = list.take n := by
  unfold eraseToEnd
  rw [List.length_drop, Nat.sub_sub_self h]

end Basis
