import Mathlib.Data.List.Basic

/-! The latest pending item of a queue, for instance the last job in line that
writes to one place. Items enter at the end and leave at the head. -/
namespace Basis

universe u v

variable {α : Type u} {β : Type v} {f : α → Option β} {queue more : List α} {x : α} {y : β}

/-- The item closest to the end of the queue among those that `f` picks. -/
def latest (f : α → Option β) (queue : List α) : Option β := (queue.filterMap f).getLast?

theorem latest_append_of_none (h : ∀ x ∈ more, f x = none) :
    latest f (queue ++ more) = latest f queue := by
  have hNone : more.filterMap f = [] := List.filterMap_eq_nil_iff.mpr h
  rw [latest, List.filterMap_append, hNone, List.append_nil, latest]

/-- What enters last is the latest. -/
theorem latest_append_cons (hPick : f x = some y) (h : ∀ x ∈ more, f x = none) :
    latest f (queue ++ x :: more) = some y := by
  have hNone : more.filterMap f = [] := List.filterMap_eq_nil_iff.mpr h
  rw [latest, List.filterMap_append, List.filterMap_cons_some hPick, hNone,
    List.getLast?_concat]

theorem latest_cons_of_none (h : f x = none) : latest f (x :: queue) = latest f queue := by
  rw [latest, List.filterMap_cons_none h, latest]

/-- Taking the head leaves the latest, unless the head was it. -/
theorem latest_cons_some (hPick : f x = some y) :
    latest f (x :: queue) = some ((latest f queue).getD y) := by
  rw [latest, List.filterMap_cons_some hPick, latest]
  cases hRest : (queue.filterMap f).getLast? with
  | none =>
      rw [List.getLast?_eq_none_iff] at hRest
      rw [hRest]
      rfl
  | some z =>
      rw [List.getLast?_cons, hRest]

end Basis
