import Mathlib.Data.List.Sort

/-! Lists that are kept in the order of a priority and, within one priority, of arrival. -/
namespace Basis

universe u

variable {α : Type u} {priority arrival : α → Nat} {l : List α} {a b : α}

/-- `a` comes before `b`: by priority, the lower number first, and then by arrival. -/
def Earlier (priority arrival : α → Nat) (a b : α) : Prop :=
  priority a < priority b ∨ (priority a = priority b ∧ arrival a < arrival b)

/-- `std::multiset::insert`: behind everything of the same priority. -/
def insertByPriority (priority : α → Nat) (a : α) (l : List α) : List α :=
  l.orderedInsert (fun a b => priority a < priority b) a

theorem insertByPriority_perm (priority : α → Nat) (a : α) (l : List α) :
    (insertByPriority priority a l).Perm (a :: l) :=
  List.perm_orderedInsert _ a l

theorem mem_insertByPriority : b ∈ insertByPriority priority a l ↔ b = a ∨ b ∈ l := by
  rw [(insertByPriority_perm priority a l).mem_iff, List.mem_cons]

theorem length_insertByPriority (priority : α → Nat) (a : α) (l : List α) :
    (insertByPriority priority a l).length = l.length + 1 :=
  (insertByPriority_perm priority a l).length_eq

/-- A newcomer finds its place. -/
theorem insertByPriority_sorted (h : l.Pairwise (Earlier priority arrival))
    (hNew : ∀ b ∈ l, arrival b < arrival a) :
    (insertByPriority priority a l).Pairwise (Earlier priority arrival) := by
  induction l with
  | nil => exact List.pairwise_singleton _ a
  | cons b l ih =>
      obtain ⟨hFirst, hRest⟩ := List.pairwise_cons.mp h
      unfold insertByPriority
      rw [List.orderedInsert_cons]
      split
      · rename_i hLess
        apply List.pairwise_cons.mpr
        refine ⟨?_, h⟩
        intro c hc
        rcases List.mem_cons.mp hc with rfl | hc
        · exact Or.inl hLess
        · rcases hFirst c hc with hMore | ⟨hSame, -⟩
          · exact Or.inl (hLess.trans hMore)
          · exact Or.inl (hSame ▸ hLess)
      · rename_i hNotLess
        apply List.pairwise_cons.mpr
        refine ⟨?_, ih hRest fun c hc => hNew c (List.mem_cons_of_mem _ hc)⟩
        intro c hc
        rcases mem_insertByPriority.mp hc with rfl | hc
        · rcases Nat.lt_or_eq_of_le (Nat.not_lt.mp hNotLess) with hLess | hSame
          · exact Or.inl hLess
          · exact Or.inr ⟨hSame, hNew b List.mem_cons_self⟩
        · exact hFirst c hc

/-- Without its last entry, everything that is left comes before it. -/
theorem earlier_getLast {R : α → α → Prop} (h : l.Pairwise R) (hSome : l ≠ []) (hb : b ∈ l.dropLast) :
    R b (l.getLast hSome) := by
  rw [← List.dropLast_append_getLast hSome] at h
  exact (List.pairwise_append.mp h).2.2 b hb _ (List.mem_singleton.mpr rfl)

end Basis
