import Mathlib.Data.Finset.Card
import Mathlib.Data.List.Count
import Mathlib.Order.BoundedOrder.Basic

/-! A table with a fixed number of places that keeps the largest of the values it is shown:
a new value takes the place of the smallest one. Places that are still free hold the least
value of all. -/
namespace Basis

universe u

variable {α : Type u} [LinearOrder α] [OrderBot α] {k pos : Nat} {shown : Finset α}
  {kept : List α} {x least : α}

/-- `kept` holds the `k` largest of the values shown, and the least value in free places. -/
structure KeepsLargest (k : Nat) (shown : Finset α) (kept : List α) : Prop where
  length : kept.length = k
  known : ∀ x ∈ kept, x ≠ ⊥ → x ∈ shown
  distinct : ∀ x, x ≠ ⊥ → kept.count x ≤ 1
  largest : ∀ x ∈ shown, x ∉ kept → ∀ y ∈ kept, x < y

namespace KeepsLargest

theorem start (k : Nat) : KeepsLargest k (∅ : Finset α) (List.replicate k ⊥) where
  length := List.length_replicate
  known := fun _ hMem hNe => absurd (List.eq_of_mem_replicate hMem) hNe
  distinct := fun x hNe => by
    rw [List.count_eq_zero_of_not_mem fun hMem => hNe (List.eq_of_mem_replicate hMem)]
    exact Nat.zero_le 1
  largest := fun _ hMem => by simp at hMem

/-- The values above a kept one are kept too. -/
theorem above_subset (h : KeepsLargest k shown kept) (hMem : x ∈ kept) :
    shown.filter (x < ·) ⊆ kept.toFinset.erase x := by
  intro y hy
  obtain ⟨hShown, hLess⟩ := Finset.mem_filter.mp hy
  refine Finset.mem_erase.mpr ⟨hLess.ne', List.mem_toFinset.mpr ?_⟩
  by_contra hAway
  exact lt_asymm hLess (h.largest y hShown hAway x hMem)

/-- Above a value that was shown and is not kept, or above the least value where no place
is free, stands the whole table. -/
theorem subset_above (h : KeepsLargest k shown kept) (hAway : x ∉ kept)
    (hShown : x ∈ shown ∨ x = ⊥) : kept.Nodup ∧ kept.toFinset ⊆ shown.filter (x < ·) := by
  have hAbove : ∀ y ∈ kept, x < y := by
    intro y hy
    rcases hShown with hShown | rfl
    · exact h.largest x hShown hAway y hy
    · exact bot_lt_iff_ne_bot.mpr fun hBot => hAway (hBot ▸ hy)
  have hUsed : ∀ y ∈ kept, y ≠ ⊥ := fun y hy => ((bot_le (a := x)).trans_lt (hAbove y hy)).ne'
  constructor
  · refine List.nodup_iff_count_le_one.mpr fun y => ?_
    by_cases hy : y ∈ kept
    · exact h.distinct y (hUsed y hy)
    · rw [List.count_eq_zero_of_not_mem hy]
      exact Nat.zero_le 1
  · intro y hy
    have hy : y ∈ kept := List.mem_toFinset.mp hy
    exact Finset.mem_filter.mpr ⟨h.known y hy (hUsed y hy), hAbove y hy⟩

/-- What is kept: the values shown of which fewer than `k` others are larger. -/
theorem mem_iff (h : KeepsLargest k shown kept) :
    x ∈ kept ↔ (x ∈ shown ∨ x = ⊥) ∧ (shown.filter (x < ·)).card < k := by
  constructor
  · intro hMem
    refine ⟨or_iff_not_imp_right.mpr (h.known x hMem), ?_⟩
    have hFinset : x ∈ kept.toFinset := List.mem_toFinset.mpr hMem
    calc (shown.filter (x < ·)).card ≤ (kept.toFinset.erase x).card :=
          Finset.card_le_card (h.above_subset hMem)
      _ < kept.toFinset.card := Finset.card_erase_lt_of_mem hFinset
      _ ≤ k := h.length ▸ kept.toFinset_card_le
  · rintro ⟨hShown, hFew⟩
    by_contra hAway
    obtain ⟨hNodup, hAll⟩ := h.subset_above hAway hShown
    have hCard := Finset.card_le_card hAll
    rw [List.toFinset_card_of_nodup hNodup, h.length] at hCard
    omega

/-- A value below all that are kept is forgotten at once. -/
theorem skip (h : KeepsLargest k shown kept) (hBelow : ∀ y ∈ kept, x < y) :
    KeepsLargest k (insert x shown) kept where
  length := h.length
  known := fun y hy hNe => Finset.mem_insert_of_mem (h.known y hy hNe)
  distinct := h.distinct
  largest := fun y hy hAway => by
    rcases Finset.mem_insert.mp hy with rfl | hOld
    · exact hBelow
    · exact h.largest y hOld hAway

/-- Another value takes the place of the smallest. -/
theorem replace (h : KeepsLargest k shown kept) (hFresh : x ∉ kept)
    (hPos : kept[pos]? = some least) (hLeast : ∀ y ∈ kept, least ≤ y) (hLess : least < x) :
    KeepsLargest k (insert x shown) (kept.set pos x) := by
  obtain ⟨hBound, hGet⟩ := List.getElem?_eq_some_iff.mp hPos
  have hNew : x ∈ kept.set pos x := List.mem_set hBound x
  have hSplit : ∀ {y}, y ∈ kept.set pos x → y = x ∨ y ∈ kept := fun hy =>
    (List.mem_or_eq_of_mem_set hy).symm
  have hStays : ∀ {y}, y ∈ kept → y ∉ kept.set pos x → y = least := by
    intro y hy hAway
    obtain ⟨i, hi, rfl⟩ := List.getElem_of_mem hy
    by_cases hSame : pos = i
    · subst hSame
      exact hGet
    · refine absurd ?_ hAway
      rw [← List.getElem_set_ne hSame (by simpa using hi)]
      exact List.getElem_mem _
  refine ⟨by rw [List.length_set, h.length], ?_, ?_, ?_⟩
  · intro y hy hNe
    rcases hSplit hy with rfl | hy
    · exact Finset.mem_insert_self _ _
    · exact Finset.mem_insert_of_mem (h.known y hy hNe)
  · intro y hNe
    rw [List.count_set hBound]
    by_cases hSame : x = y
    · subst hSame
      rw [List.count_eq_zero_of_not_mem hFresh]
      simp
    · have hCount := h.distinct y hNe
      simp only [beq_iff_eq, hSame, if_false]
      omega
  · intro y hy hAway z hz
    have hy : y ∈ shown := by
      rcases Finset.mem_insert.mp hy with rfl | hy
      · exact absurd hNew hAway
      · exact hy
    by_cases hKept : y ∈ kept
    · obtain rfl := hStays hKept hAway
      rcases hSplit hz with rfl | hOld
      · exact hLess
      · exact lt_of_le_of_ne (hLeast z hOld) fun hSame => hAway (hSame ▸ hz)
    · have hBelow := h.largest y hy hKept
      rcases hSplit hz with rfl | hOld
      · exact (hBelow least (hGet ▸ List.getElem_mem hBound)).trans hLess
      · exact hBelow z hOld

end KeepsLargest

end Basis
