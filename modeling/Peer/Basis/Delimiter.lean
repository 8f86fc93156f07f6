import Mathlib.Data.List.Find
import Mathlib.Data.List.Infix

/-! The first place in a text where one of several delimiters ends, as a search
for the leftmost match gives it. When no delimiter can begin inside another one,
what follows the text does not move that place. -/
namespace Basis

universe u

variable {α : Type u} [DecidableEq α] {patterns : List (List α)} {xs ys : List α} {n : Nat}

/-- The end of the leftmost match; at one place the first pattern of the list counts. -/
def matchEnd (patterns : List (List α)) : List α → Option Nat
  | [] => none
  | x :: rest =>
      match patterns.find? fun pattern => pattern.isPrefixOf (x :: rest) with
      | some pattern => some pattern.length
      | none => (matchEnd patterns rest).map (· + 1)

/-- No pattern is empty, and none ends in a text that another one could go on from. -/
structure Separate (patterns : List (List α)) : Prop where
  ne_nil : ∀ pattern ∈ patterns, pattern ≠ []
  inner : ∀ pattern ∈ patterns, ∀ k < pattern.length, matchEnd patterns (pattern.take k) = none

theorem matchEnd_le (h : matchEnd patterns xs = some n) : n ≤ xs.length := by
  induction xs generalizing n with
  | nil => cases h
  | cons x rest ih =>
      rw [matchEnd] at h
      split at h
      · rename_i pattern hFind
        obtain rfl := Option.some.inj h
        have hPrefix := List.find?_some hFind
        exact (List.isPrefixOf_iff_prefix.mp hPrefix).length_le
      · obtain ⟨m, hRest, rfl⟩ := Option.map_eq_some_iff.mp h
        exact Nat.succ_le_succ (ih hRest)

theorem matchEnd_pos (hSeparate : Separate patterns) (h : matchEnd patterns xs = some n) :
    0 < n := by
  cases xs with
  | nil => cases h
  | cons x rest =>
      rw [matchEnd] at h
      split at h
      · rename_i pattern hFind
        obtain rfl := Option.some.inj h
        exact List.length_pos_iff.mpr (hSeparate.ne_nil _ (List.mem_of_find?_eq_some hFind))
      · obtain ⟨m, -, rfl⟩ := Option.map_eq_some_iff.mp h
        exact Nat.succ_pos m

/-- A text with a match is not the beginning of a longer pattern. -/
theorem prefix_append_iff (hSeparate : Separate patterns) (h : matchEnd patterns xs = some n)
    (ys : List α) {pattern : List α} (hMem : pattern ∈ patterns) :
    pattern <+: xs ++ ys ↔ pattern <+: xs := by
  constructor
  · intro hPrefix
    by_contra hNot
    have hLt : xs.length < pattern.length := by
      by_contra hGe
      exact hNot (List.prefix_of_prefix_length_le hPrefix (List.prefix_append xs ys) (by omega))
    have hTake : xs = pattern.take xs.length :=
      List.prefix_iff_eq_take.mp
        (List.prefix_of_prefix_length_le (List.prefix_append xs ys) hPrefix hLt.le)
    have hNone := hSeparate.inner pattern hMem xs.length hLt
    rw [← hTake, h] at hNone
    cases hNone
  · intro hPrefix
    exact hPrefix.trans (List.prefix_append xs ys)

/-- What follows does not move the first match. -/
theorem matchEnd_append (hSeparate : Separate patterns) (h : matchEnd patterns xs = some n)
    (ys : List α) : matchEnd patterns (xs ++ ys) = some n := by
  induction xs generalizing n with
  | nil => cases h
  | cons x rest ih =>
      have hSame : patterns.find? (fun pattern => pattern.isPrefixOf (x :: rest ++ ys)) =
          patterns.find? (fun pattern => pattern.isPrefixOf (x :: rest)) := by
        apply List.find?_congr
        intro pattern hMem
        rw [Bool.eq_iff_iff, List.isPrefixOf_iff_prefix, List.isPrefixOf_iff_prefix]
        exact prefix_append_iff hSeparate h ys hMem
      rw [List.cons_append] at hSame ⊢
      rw [matchEnd] at h ⊢
      rw [hSame]
      cases hFind : patterns.find? fun pattern => pattern.isPrefixOf (x :: rest) with
      | some pattern =>
          rw [hFind] at h
          exact h
      | none =>
          rw [hFind] at h
          obtain ⟨m, hRest, rfl⟩ := Option.map_eq_some_iff.mp h
          simp only [ih hRest, Option.map_some]

/-- A text that ends with a pattern has a match. -/
theorem exists_matchEnd {pattern : List α} (hMem : pattern ∈ patterns) (hNe : pattern ≠ [])
    (xs : List α) : ∃ n, matchEnd patterns (xs ++ pattern) = some n := by
  induction xs with
  | nil =>
      cases pattern with
      | nil => exact absurd rfl hNe
      | cons x rest =>
          rw [List.nil_append, matchEnd]
          split
          · exact ⟨_, rfl⟩
          · rename_i hNone
            have hFail := List.find?_eq_none.mp hNone _ hMem
            exact absurd (List.isPrefixOf_iff_prefix.mpr (List.prefix_refl _)) hFail
  | cons x rest ih =>
      obtain ⟨n, hRest⟩ := ih
      rw [List.cons_append, matchEnd]
      split
      · exact ⟨_, rfl⟩
      · exact ⟨n + 1, by rw [hRest]; rfl⟩

end Basis
