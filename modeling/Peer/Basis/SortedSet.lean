import Mathlib.Data.Finset.Basic
import Mathlib.Order.SymmDiff
import Mathlib.Data.List.Sort

/-! Finite sets as increasing lists, which is the order in which they are walked. -/
namespace Basis

universe u

/-- An increasing list of elements. -/
structure SortedSet (α : Type u) [LinearOrder α] where
  elements : List α
  sorted : elements.Pairwise (· < ·)
deriving DecidableEq

namespace SortedSet

variable {α : Type u} [LinearOrder α]

instance : Membership α (SortedSet α) where
  mem s x := x ∈ s.elements

instance (x : α) (s : SortedSet α) : Decidable (x ∈ s) :=
  inferInstanceAs (Decidable (x ∈ s.elements))

theorem mem_def {x : α} {s : SortedSet α} : x ∈ s ↔ x ∈ s.elements := Iff.rfl

instance : EmptyCollection (SortedSet α) where
  emptyCollection := ⟨[], List.Pairwise.nil⟩

@[simp] theorem not_mem_empty (x : α) : x ∉ (∅ : SortedSet α) := List.not_mem_nil

variable (s : SortedSet α) (x : α)

def card : Nat := s.elements.length

def insert : SortedSet α where
  elements := s.elements.filter (· < x) ++ x :: s.elements.filter (x < ·)
  sorted := by
    apply List.pairwise_append.mpr
    refine ⟨s.sorted.filter _, List.pairwise_cons.mpr ⟨?_, s.sorted.filter _⟩, ?_⟩
    · intro y hy
      exact of_decide_eq_true (List.mem_filter.mp hy).2
    · intro y hy z hz
      have hLess : y < x := of_decide_eq_true (List.mem_filter.mp hy).2
      obtain rfl | hz := List.mem_cons.mp hz
      · exact hLess
      · exact hLess.trans (of_decide_eq_true (List.mem_filter.mp hz).2)

def erase : SortedSet α := ⟨s.elements.filter (· ≠ x), s.sorted.filter _⟩

/-- The elements of a list. -/
def ofList (list : List α) : SortedSet α := list.foldl insert ∅

variable {s x} {t : SortedSet α} {y : α}

@[simp] theorem mem_insert : y ∈ s.insert x ↔ y = x ∨ y ∈ s := by
  simp only [mem_def, insert, List.mem_append, List.mem_filter, List.mem_cons, decide_eq_true_eq]
  obtain hLess | rfl | hMore := lt_trichotomy y x
  · simp [hLess, hLess.ne, hLess.not_gt]
  · simp
  · simp [hMore, hMore.ne', hMore.not_gt]

@[simp] theorem mem_erase : y ∈ s.erase x ↔ y ≠ x ∧ y ∈ s := by
  simp [mem_def, erase, and_comm]

theorem nodup (s : SortedSet α) : s.elements.Nodup :=
  s.sorted.imp fun hLess => hLess.ne

/-- Sets with the same elements are equal. -/
theorem ext (h : ∀ x, x ∈ s ↔ x ∈ t) : s = t := by
  have hPerm : s.elements.Perm t.elements :=
    (List.perm_ext_iff_of_nodup s.nodup t.nodup).mpr h
  have hElements : s.elements = t.elements :=
    hPerm.eq_of_pairwise (fun _ _ _ _ hab hba => absurd hba hab.not_gt) s.sorted t.sorted
  cases s
  cases t
  cases hElements
  rfl

theorem eq_empty_of_card (h : s.card = 0) : s = ∅ := by
  apply ext
  intro x
  rw [mem_def, List.eq_nil_of_length_eq_zero h]
  simp

/-- The elements as a finite set, for counting differences. -/
def toFinset (s : SortedSet α) : Finset α := s.elements.toFinset

@[simp] theorem mem_toFinset : x ∈ s.toFinset ↔ x ∈ s := List.mem_toFinset

end SortedSet

end Basis
