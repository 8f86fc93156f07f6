import Mathlib.Data.List.Sort

/-! Lists in the order of a time, of which one entry is taken out, given a new time and put
back behind those that are not later. -/
namespace Basis

universe u

variable {α : Type u} {time : α → Nat} {p : α → Bool} {l before after : List α} {a b : α}

/-- The first entry that meets a test, with those before it and those after it. -/
def splitFirst (p : α → Bool) : List α → Option (List α × α × List α)
  | [] => none
  | a :: rest =>
      if p a then some ([], a, rest)
      else (splitFirst p rest).map fun found => (a :: found.1, found.2)

theorem splitFirst_eq_some (h : splitFirst p l = some (before, a, after)) :
    l = before ++ a :: after ∧ p a = true ∧ ∀ b ∈ before, p b = false := by
  induction l generalizing before with
  | nil => cases h
  | cons first rest ih =>
      unfold splitFirst at h
      split at h
      · rename_i hFirst
        cases h
        exact ⟨rfl, hFirst, fun b hb => absurd hb List.not_mem_nil⟩
      · rename_i hFirst
        obtain ⟨⟨before', a', after'⟩, hFound, hSame⟩ := Option.map_eq_some_iff.mp h
        cases hSame
        obtain ⟨hList, hTest, hBefore⟩ := ih hFound
        refine ⟨by rw [hList, List.cons_append], hTest, ?_⟩
        intro b hb
        rcases List.mem_cons.mp hb with rfl | hb
        · simpa using hFirst
        · exact hBefore b hb

theorem splitFirst_eq_none : splitFirst p l = none ↔ ∀ a ∈ l, p a = false := by
  induction l with
  | nil => simp [splitFirst]
  | cons first rest ih =>
      unfold splitFirst
      split
      · rename_i hFirst
        simp [hFirst]
      · rename_i hFirst
        rw [Option.map_eq_none_iff, ih]
        simp [hFirst]

/-- Put an entry back: in front of the first one that is later. -/
def putBack (time : α → Nat) (a : α) (l : List α) : List α :=
  l.takeWhile (fun b => !decide (time a < time b)) ++
    a :: l.dropWhile fun b => !decide (time a < time b)

theorem putBack_perm (time : α → Nat) (a : α) (l : List α) : (putBack time a l).Perm (a :: l) := by
  unfold putBack
  refine List.perm_middle.trans ?_
  rw [List.takeWhile_append_dropWhile]

/-- The entries in the order of their times. -/
def Timely (time : α → Nat) (l : List α) : Prop := l.Pairwise fun a b => time a ≤ time b

theorem Timely.putBack (h : Timely time l) (a : α) : Timely time (putBack time a l) := by
  induction l with
  | nil => exact List.pairwise_singleton _ a
  | cons first rest ih =>
      obtain ⟨hFirst, hRest⟩ := List.pairwise_cons.mp h
      by_cases hLater : time a < time first
      · have hFront : Basis.putBack time a (first :: rest) = a :: first :: rest := by
          simp [Basis.putBack, hLater]
        rw [hFront]
        apply List.pairwise_cons.mpr
        refine ⟨?_, h⟩
        intro b hb
        rcases List.mem_cons.mp hb with rfl | hb
        · exact Nat.le_of_lt hLater
        · exact (Nat.le_of_lt hLater).trans (hFirst b hb)
      · have hBehind : Basis.putBack time a (first :: rest) =
            first :: Basis.putBack time a rest := by
          simp [Basis.putBack, hLater]
        rw [hBehind]
        apply List.pairwise_cons.mpr
        refine ⟨?_, ih hRest⟩
        intro b hb
        rcases List.mem_cons.mp ((putBack_perm time a rest).mem_iff.mp hb) with rfl | hb
        · exact Nat.not_lt.mp hLater
        · exact hFirst b hb

/-- An entry that is put back with a new time keeps the order if none before it is later. -/
theorem timely_putBack_iff (h : Timely time (before ++ a :: after)) :
    Timely time (before ++ putBack time b after) ↔ ∀ c ∈ before, time c ≤ time b := by
  obtain ⟨hBefore, hRest, hAcross⟩ := List.pairwise_append.mp h
  unfold Timely
  rw [List.pairwise_append]
  constructor
  · rintro ⟨-, -, hCross⟩ c hc
    exact hCross c hc b ((putBack_perm time b after).mem_iff.mpr List.mem_cons_self)
  · intro hEarlier
    refine ⟨hBefore, Timely.putBack (List.pairwise_cons.mp hRest).2 b, ?_⟩
    intro c hc d hd
    rcases List.mem_cons.mp ((putBack_perm time b after).mem_iff.mp hd) with rfl | hd
    · exact hEarlier c hc
    · exact hAcross c hc d (List.mem_cons_of_mem _ hd)

/-- The first entry that meets a test is the earliest that does. -/
theorem Timely.le_of_split (h : Timely time (before ++ a :: after))
    (hBefore : ∀ b ∈ before, p b = false) (hMem : b ∈ before ++ a :: after) (hTest : p b = true) :
    time a ≤ time b := by
  rcases List.mem_append.mp hMem with hb | hb
  · rw [hBefore b hb] at hTest
    cases hTest
  · rcases List.mem_cons.mp hb with rfl | hb
    · exact Nat.le_refl _
    · exact (List.pairwise_cons.mp (List.pairwise_append.mp h).2.1).1 b hb

end Basis
