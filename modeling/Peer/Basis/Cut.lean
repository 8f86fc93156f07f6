import Mathlib.Data.List.TakeWhile
import Mathlib.Data.List.Infix

/-! Texts cut at a delimiter: at its first place, at its last place, or behind the first
place of a longer pattern. -/
namespace Basis

universe u

variable {α : Type u} [DecidableEq α] {c : α} {xs before back : List α}

/-- What comes before the first `c`; everything if there is none. -/
def upTo (c : α) (xs : List α) : List α := xs.takeWhile (· ≠ c)

/-- What comes behind the first `c`; nothing if there is none. -/
def behind (c : α) (xs : List α) : List α := (xs.dropWhile (· ≠ c)).tail

/-- What comes before the last `c`; everything if there is none. -/
def upToLast (c : α) (xs : List α) : List α :=
  if c ∈ xs then (behind c xs.reverse).reverse else xs

/-- What comes behind the last `c`; everything if there is none. -/
def behindLast (c : α) (xs : List α) : List α := (upTo c xs.reverse).reverse

theorem upTo_append (h : c ∉ before) (back : List α) :
    upTo c (before ++ back) = before ++ upTo c back := by
  unfold upTo
  rw [List.takeWhile_append_of_pos]
  intro x hx
  simpa using fun hEq : x = c => h (hEq ▸ hx)

theorem behind_append (h : c ∉ before) (back : List α) :
    behind c (before ++ back) = behind c back := by
  unfold behind
  rw [List.dropWhile_append_of_pos]
  intro x hx
  simpa using fun hEq : x = c => h (hEq ▸ hx)

@[simp] theorem upTo_nil : upTo c [] = [] := rfl

@[simp] theorem behind_nil : behind c [] = [] := rfl

@[simp] theorem upTo_cons_self : upTo c (c :: back) = [] := by simp [upTo]

@[simp] theorem behind_cons_self : behind c (c :: back) = back := by simp [behind]

theorem upTo_of_notMem (h : c ∉ xs) : upTo c xs = xs := by
  simpa using upTo_append h []

theorem behind_of_notMem (h : c ∉ xs) : behind c xs = [] := by
  simpa using behind_append h []

theorem upTo_split (h : c ∉ before) : upTo c (before ++ c :: back) = before := by
  rw [upTo_append h, upTo_cons_self, List.append_nil]

theorem behind_split (h : c ∉ before) : behind c (before ++ c :: back) = back := by
  rw [behind_append h, behind_cons_self]

theorem upTo_isPrefix (c : α) (xs : List α) : upTo c xs <+: xs := List.takeWhile_prefix _

theorem notMem_upTo (c : α) (xs : List α) : c ∉ upTo c xs := by
  intro h
  simpa using List.mem_takeWhile_imp h

/-- Both parts and the delimiter between them. -/
theorem upTo_append_behind (h : c ∈ xs) : upTo c xs ++ c :: behind c xs = xs := by
  obtain ⟨before, back, rfl, hNotMem⟩ := List.eq_append_cons_of_mem h
  rw [upTo_split hNotMem, behind_split hNotMem]

omit [DecidableEq α] in
theorem last_split_unique {before' back' : List α} (h : c ∉ back) (h' : c ∉ back')
    (hEq : before ++ c :: back = before' ++ c :: back') : before = before' ∧ back = back' := by
  rcases List.append_eq_append_iff.mp hEq with ⟨inside, hBefore, hBack⟩ | ⟨inside, hBefore, hBack⟩
  · cases inside with
    | nil => exact ⟨by simpa using hBefore.symm, by simpa using hBack⟩
    | cons x inside =>
        obtain ⟨rfl, rfl⟩ := List.cons.inj hBack
        simp at h
  · cases inside with
    | nil => exact ⟨by simpa using hBefore, by simpa using hBack.symm⟩
    | cons x inside =>
        obtain ⟨rfl, rfl⟩ := List.cons.inj hBack
        simp at h'

omit [DecidableEq α] in
theorem exists_last_split (h : c ∈ xs) : ∃ before back, xs = before ++ c :: back ∧ c ∉ back := by
  obtain ⟨back, before, hSplit, hNotMem⟩ :=
    List.eq_append_cons_of_mem (List.mem_reverse.mpr h)
  refine ⟨before.reverse, back.reverse, ?_, by simpa using hNotMem⟩
  rw [← List.reverse_reverse xs, hSplit]
  simp

/-- A text is what comes before and behind, or has no delimiter. -/
theorem mem_iff_of_cut {x : α} (hNe : x ≠ c) (xs : List α) :
    x ∈ xs ↔ x ∈ upTo c xs ∨ x ∈ behind c xs := by
  by_cases h : c ∈ xs
  · conv_lhs => rw [← upTo_append_behind h]
    simp [hNe]
  · simp [upTo_of_notMem h, behind_of_notMem h]

theorem behind_length_le (c : α) (xs : List α) : (behind c xs).length ≤ xs.length := by
  unfold behind
  rw [List.length_tail]
  exact (Nat.sub_le _ 1).trans (List.length_dropWhile_le _ _)

theorem upToLast_of_notMem (h : c ∉ xs) : upToLast c xs = xs := if_neg h

theorem upToLast_split (h : c ∉ back) : upToLast c (before ++ c :: back) = before := by
  unfold upToLast
  rw [if_pos (by simp), List.reverse_append, List.reverse_cons, List.append_assoc,
    List.singleton_append, behind_split (by simpa using h), List.reverse_reverse]

theorem behindLast_split (h : c ∉ back) : behindLast c (before ++ c :: back) = back := by
  unfold behindLast
  rw [List.reverse_append, List.reverse_cons, List.append_assoc, List.singleton_append,
    upTo_split (by simpa using h), List.reverse_reverse]

theorem upToLast_isPrefix (c : α) (xs : List α) : upToLast c xs <+: xs := by
  by_cases h : c ∈ xs
  · obtain ⟨before, back, rfl, hNotMem⟩ := exists_last_split h
    rw [upToLast_split hNotMem]
    exact List.prefix_append _ _
  · rw [upToLast_of_notMem h]

/-- A text that is cut at a later place keeps what comes before. -/
theorem upToLast_append (h : c ∈ back) :
    upToLast c (before ++ back) = before ++ upToLast c back := by
  obtain ⟨inside, rest, rfl, hNotMem⟩ := exists_last_split h
  rw [upToLast_split hNotMem, ← List.append_assoc, upToLast_split hNotMem]

/-- The last place is not in what comes behind. -/
theorem upToLast_append_of_notMem (hBack : c ∉ back) (hMem : c ∈ before) :
    upToLast c (before ++ back) = upToLast c before := by
  obtain ⟨inside, rest, rfl, hNotMem⟩ := exists_last_split hMem
  rw [upToLast_split hNotMem, List.append_assoc, List.cons_append,
    upToLast_split (by simp [hNotMem, hBack])]

/-- What comes behind the first place of a pattern. -/
def behindPattern (pattern : List α) : List α → Option (List α)
  | [] => if pattern.isPrefixOf [] then some [] else none
  | x :: xs =>
    if pattern.isPrefixOf (x :: xs) then some ((x :: xs).drop pattern.length)
    else behindPattern pattern xs

section Pairs

variable {sep : α} {key : List α}

/-- A part without the separator has no place for a pattern that begins with it. -/
theorem behindPattern_skip (h : sep ∉ before) (key back : List α) :
    behindPattern (sep :: key) (before ++ back) = behindPattern (sep :: key) back := by
  induction before with
  | nil => rfl
  | cons x rest ih =>
      simp only [List.mem_cons, not_or] at h
      rw [List.cons_append, behindPattern, if_neg, ih h.2]
      simp [h.1]

/-- A key without the separator is before the separator that follows. -/
theorem isPrefixOf_append_cons (hKey : sep ∉ key) :
    key.isPrefixOf (before ++ sep :: back) = key.isPrefixOf before := by
  rw [Bool.eq_iff_iff, List.isPrefixOf_iff_prefix, List.isPrefixOf_iff_prefix]
  constructor
  · intro h
    by_cases hLe : key.length ≤ before.length
    · exact List.prefix_of_prefix_length_le h (List.prefix_append _ _) hLe
    · have hTake := List.prefix_iff_eq_take.mp h
      rw [List.take_append, List.take_of_length_le (by omega),
        List.take_cons (by omega)] at hTake
      exact absurd (hTake ▸ by simp) hKey
  · exact fun h => h.trans (List.prefix_append _ _)

/-- The first pattern behind a separator is in the first of the parts that begins with it. -/
theorem behindPattern_eq_find (hKey : sep ∉ key) (xs : List α) :
    (behindPattern (sep :: key) (sep :: xs)).map (upTo sep) =
      ((xs.splitOn sep).find? fun part => key.isPrefixOf part).map (List.drop key.length) := by
  induction hLength : xs.length using Nat.strong_induction_on generalizing xs with
  | _ n ih =>
      by_cases hMem : sep ∈ xs
      · obtain ⟨before, back, rfl, hNotMem⟩ := List.eq_append_cons_of_mem hMem
        rw [List.splitOn_append_cons_self, List.splitOn_eq_singleton hNotMem,
          List.singleton_append, List.find?_cons, behindPattern, List.isPrefixOf_cons_cons,
          isPrefixOf_append_cons hKey, beq_self_eq_true, Bool.true_and]
        cases hHere : key.isPrefixOf before with
        | true =>
            obtain ⟨value, rfl⟩ := List.isPrefixOf_iff_prefix.mp hHere
            have hValue : sep ∉ value := fun h => hNotMem (List.mem_append_right _ h)
            simp [upTo_split hValue]
        | false =>
            rw [if_neg (by simp), behindPattern_skip hNotMem]
            exact ih back.length (by rw [← hLength]; simp; omega) back rfl
      · rw [List.splitOn_eq_singleton hMem, List.find?_cons, List.find?_nil, behindPattern,
          List.isPrefixOf_cons_cons, beq_self_eq_true, Bool.true_and]
        cases hHere : key.isPrefixOf xs with
        | true =>
            obtain ⟨value, rfl⟩ := List.isPrefixOf_iff_prefix.mp hHere
            have hValue : sep ∉ value := fun h => hMem (List.mem_append_right _ h)
            simp [upTo_of_notMem hValue]
        | false =>
            have hSkip := behindPattern_skip hMem key []
            rw [List.append_nil] at hSkip
            rw [if_neg (by simp), hSkip]
            rfl

end Pairs

end Basis
