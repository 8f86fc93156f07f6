import Mathlib.Data.Finset.Sort

/-! Taking the least of a list by a score. -/
namespace Basis

universe u

variable {α : Type u} {f : α → Nat} {l : List α} {n score : Nat} {a b : α}

/-- The list by growing score; what scores the same keeps its order. -/
def leastFirst (f : α → Nat) (l : List α) : List α :=
  l.mergeSort fun a b => decide (f a ≤ f b)

theorem leastFirst_perm (f : α → Nat) (l : List α) : (leastFirst f l).Perm l :=
  List.mergeSort_perm _ _

theorem leastFirst_sorted (f : α → Nat) (l : List α) :
    (leastFirst f l).Pairwise fun a b => f a ≤ f b := by
  have hTrans : ∀ a b c : α, decide (f a ≤ f b) = true → decide (f b ≤ f c) = true →
      decide (f a ≤ f c) = true := by
    simpa using fun a b c => Nat.le_trans
  have hTotal : ∀ a b : α, (decide (f a ≤ f b) || decide (f b ≤ f a)) = true := by
    simpa using fun a b => Nat.le_total _ _
  have hSorted := List.pairwise_mergeSort hTrans hTotal l
  simpa [leastFirst] using hSorted

/-- What is taken scores no more than what stays. -/
theorem take_le_drop (ha : a ∈ (leastFirst f l).take n) (hb : b ∈ (leastFirst f l).drop n) :
    f a ≤ f b := by
  have hSorted := leastFirst_sorted f l
  rw [← List.take_append_drop n (leastFirst f l)] at hSorted
  exact (List.pairwise_append.mp hSorted).2.2 a ha b hb

theorem countP_leastFirst (p : α → Bool) :
    l.countP p = ((leastFirst f l).take n).countP p + ((leastFirst f l).drop n).countP p := by
  rw [← List.countP_append, List.take_append_drop, (leastFirst_perm f l).countP_eq]

/-- The taken score at most so much just if enough of the list do. -/
theorem take_le_iff (hn : n ≤ l.length) :
    (∀ a ∈ (leastFirst f l).take n, f a ≤ score) ↔ n ≤ l.countP fun a => decide (f a ≤ score) := by
  have hLength : ((leastFirst f l).take n).length = n := by
    rw [List.length_take, (leastFirst_perm f l).length_eq]
    exact Nat.min_eq_left hn
  rw [countP_leastFirst (f := f) (n := n)]
  constructor
  · intro hAll
    have hCount : ((leastFirst f l).take n).countP (fun a => decide (f a ≤ score)) = n := by
      rw [List.countP_eq_length.mpr, hLength]
      intro a ha
      exact decide_eq_true (hAll a ha)
    omega
  · intro hEnough a ha
    by_contra hMore
    -- Nothing that stays scores so little, and of what is taken one does not.
    have hNone : ((leastFirst f l).drop n).countP (fun a => decide (f a ≤ score)) = 0 := by
      rw [List.countP_eq_zero]
      intro b hb
      have hLe := take_le_drop ha hb
      simp only [decide_eq_true_eq]
      omega
    have hFew : ((leastFirst f l).take n).countP (fun a => decide (f a ≤ score)) <
        ((leastFirst f l).take n).length := by
      apply lt_of_le_of_ne List.countP_le_length
      intro hEq
      have hAll := List.countP_eq_length.mp hEq a ha
      exact hMore (of_decide_eq_true hAll)
    omega

/-- Scores that are kept beside the values order them alike. -/
theorem leastFirst_map {β : Type u} {g : β → Nat} {k : α → β} (h : ∀ a, g (k a) = f a) :
    leastFirst g (l.map k) = (leastFirst f l).map k := by
  unfold leastFirst
  rw [List.map_mergeSort]
  intro a _ b _
  rw [h, h]

section Finset

variable [LinearOrder α] {s : Finset α}

theorem le_isTrans (α : Type u) [LinearOrder α] : IsTrans α fun a b => a ≤ b := inferInstance

theorem le_antisymmetric (α : Type u) [LinearOrder α] : Std.Antisymm fun a b : α => a ≤ b :=
  inferInstance

theorem le_isTotal (α : Type u) [LinearOrder α] : Std.Total fun a b : α => a ≤ b := inferInstance

/-- The `n` least of a finite set, all of it if there are not so many. -/
def leastOf (f : α → Nat) (s : Finset α) (n : Nat) : Finset α :=
  ((leastFirst f (@Finset.sort α s (fun a b => a ≤ b) _ (le_isTrans α) (le_antisymmetric α)
    (le_isTotal α))).take n).toFinset

theorem mem_leastOf : a ∈ leastOf f s n ↔ a ∈ (leastFirst f s.sort).take n := List.mem_toFinset

theorem leastOf_subset (f : α → Nat) (s : Finset α) (n : Nat) : leastOf f s n ⊆ s := by
  intro a ha
  have hMem := (leastFirst_perm f s.sort).mem_iff.mp (List.mem_of_mem_take (mem_leastOf.mp ha))
  exact (Finset.mem_sort _).mp hMem

theorem card_leastOf (f : α → Nat) (s : Finset α) (n : Nat) :
    (leastOf f s n).card = min n s.card := by
  have hNodup := ((leastFirst_perm f s.sort).nodup_iff.mpr (Finset.sort_nodup _ _)).sublist
    (List.take_sublist n _)
  rw [leastOf, List.toFinset_card_of_nodup hNodup, List.length_take,
    (leastFirst_perm f _).length_eq, Finset.length_sort]

/-- What is among the least scores no more than the rest. -/
theorem leastOf_le (ha : a ∈ leastOf f s n) (hb : b ∈ s) (hStays : b ∉ leastOf f s n) :
    f a ≤ f b := by
  rw [mem_leastOf] at ha hStays
  have hMem : b ∈ leastFirst f s.sort :=
    (leastFirst_perm f _).mem_iff.mpr ((Finset.mem_sort _).mpr hb)
  have hSplit := List.take_append_drop n (leastFirst f (s.sort (· ≤ ·)))
  rw [← hSplit, List.mem_append] at hMem
  exact take_le_drop ha (hMem.resolve_left hStays)

/-- The least score at most so much just if enough of the set do. -/
theorem leastOf_le_iff : (∀ a ∈ leastOf f s n, f a ≤ score) ↔
    min n s.card ≤ (s.filter fun a => f a ≤ score).card := by
  have hCount : s.sort.countP (fun a => decide (f a ≤ score)) =
      (s.filter fun a => f a ≤ score).card := by
    rw [← Multiset.coe_countP, Finset.sort_eq, Multiset.countP_eq_card_filter]
    rfl
  have hLength : (leastFirst f (s.sort (· ≤ ·))).length = s.card := by
    rw [(leastFirst_perm f _).length_eq, Finset.length_sort]
  simp only [mem_leastOf]
  rw [List.take_eq_take_min, hLength, take_le_iff, hCount]
  rw [Finset.length_sort]
  exact Nat.min_le_right n _

end Finset

end Basis
