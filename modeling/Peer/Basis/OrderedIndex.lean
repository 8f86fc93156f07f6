import Peer.Basis.OrderedMap

/-! Indexes that are kept by their keys: a value is moved from its old key to its new one,
and the first entry is the one whose key comes before all others. -/
namespace Basis

open OrderedMap

universe u v w

variable {K : Type u} {V : Type v} {J : Type w} [Before J]

section Rekey

variable {key key' : V → J} {table : List V} {index : OrderedMap J V} {value : V}

theorem exists_perm_cons (hMem : value ∈ table) : ∃ rest, table.Perm (value :: rest) := by
  obtain ⟨left, right, rfl⟩ := List.append_of_mem hMem
  exact ⟨left ++ right, List.perm_middle⟩

/-- What other values of a table there are than one of them. -/
theorem ne_of_perm_cons (hNodup : table.Nodup) {rest : List V} (hPerm : table.Perm (value :: rest))
    {other : V} (hOther : other ∈ rest) : other ∈ table ∧ other ≠ value := by
  refine ⟨hPerm.mem_iff.mpr (List.mem_cons_of_mem _ hOther), ?_⟩
  rintro rfl
  exact (List.nodup_cons.mp (hPerm.nodup_iff.mp hNodup)).1 hOther

/-- A value leaves the index under its old key. -/
theorem IsIndex.remove (h : IsIndex key table index) (hNodup : table.Nodup) {rest : List V}
    (hPerm : table.Perm (value :: rest))
    (hApart : ∀ other ∈ table, other ≠ value → equivalent (key other) (key value) = false) :
    IsIndex key rest (OrderedMap.erase index (key value)) := by
  apply (h.perm hPerm).erase
  intro other hOther
  obtain ⟨hMem, hNe⟩ := ne_of_perm_cons hNodup hPerm hOther
  exact hApart other hMem hNe

/-- A value is moved to its new key. -/
theorem IsIndex.rekey (h : IsIndex key table index) (hNodup : table.Nodup) (hMem : value ∈ table)
    (hApart : ∀ other ∈ table, other ≠ value → equivalent (key other) (key value) = false)
    (hSame : ∀ other ∈ table, other ≠ value → key' other = key other)
    (hApart' : ∀ other ∈ table, other ≠ value → equivalent (key' other) (key' value) = false) :
    IsIndex key' table
      (OrderedMap.insert (OrderedMap.erase index (key value)) (key' value) value) := by
  obtain ⟨rest, hPerm⟩ := exists_perm_cons hMem
  have hOthers : ∀ other ∈ rest, other ∈ table ∧ other ≠ value :=
    fun other hOther => ne_of_perm_cons hNodup hPerm hOther
  have hRest : IsIndex key' rest (OrderedMap.erase index (key value)) := by
    apply (h.remove hNodup hPerm hApart).congr
    intro other hOther
    exact hSame other (hOthers other hOther).1 (hOthers other hOther).2
  apply IsIndex.perm _ hPerm.symm
  apply hRest.insert
  intro other hOther
  exact hApart' other (hOthers other hOther).1 (hOthers other hOther).2

end Rekey

section Sorted

variable {m : OrderedMap J V} {k : J} {v : V}

/-- Every entry comes before those behind it. -/
def Sorted (m : OrderedMap J V) : Prop := m.Pairwise fun a b => Before.before a.1 b.1 = true

theorem Sorted.erase (h : Sorted m) (k : J) : Sorted (OrderedMap.erase m k) :=
  h.sublist (erase_sublist m k)

/-- An entry finds its place. -/
theorem Sorted.insert
    (hTrans : ∀ a b c : J, Before.before a b = true → Before.before b c = true →
      Before.before a c = true)
    (h : Sorted m) (k : J) (v : V) : Sorted (OrderedMap.insert m k v) := by
  unfold OrderedMap.insert
  split
  · exact h
  rename_i hNone
  have hApart : ∀ entry ∈ m, equivalent entry.1 k = false := by simpa using hNone
  clear hNone
  induction m with
  | nil => exact List.pairwise_singleton _ _
  | cons first rest ih =>
      obtain ⟨hFirst, hRest⟩ := List.pairwise_cons.mp h
      rw [List.orderedInsert_cons]
      split
      · rename_i hBefore
        apply List.pairwise_cons.mpr
        refine ⟨?_, h⟩
        intro entry hMem
        rcases List.mem_cons.mp hMem with rfl | hMem
        · exact hBefore
        · exact hTrans _ _ _ hBefore (hFirst entry hMem)
      · rename_i hNotBefore
        have hAfter : Before.before first.1 k = true := by
          have hNotSame := hApart first List.mem_cons_self
          simp only [Bool.not_eq_true] at hNotBefore
          simpa [equivalent, hNotBefore] using hNotSame
        apply List.pairwise_cons.mpr
        refine ⟨?_, ih hRest fun entry hMem => hApart entry (List.mem_cons_of_mem _ hMem)⟩
        intro entry hMem
        rcases List.mem_cons.mp ((List.perm_orderedInsert _ _ _).mem_iff.mp hMem) with rfl | hMem
        · exact hAfter
        · exact hFirst entry hMem

end Sorted

section Lexicographic

variable {A : Type u}

/-- A strict comparison of different values. -/
structure Strict (lt : A → A → Bool) : Prop where
  asymm : ∀ a b, a ≠ b → lt a b = true → lt b a = true → False
  trans : ∀ a b c, lt a b = true → lt b c = true → lt a c = true

/-- One link of a chain of comparisons: it is transitive when what follows is. -/
theorem Strict.chain_trans [DecidableEq A] {lt : A → A → Bool} (h : Strict lt) {x y z : A}
    {rest rest' rest'' : Bool} (hRest : rest = true → rest' = true → rest'' = true)
    (hLeft : (if x ≠ y then lt x y else rest) = true)
    (hRight : (if y ≠ z then lt y z else rest') = true) :
    (if x ≠ z then lt x z else rest'') = true := by
  by_cases hxy : x = y
  · subst hxy
    rw [if_neg (by simp)] at hLeft
    by_cases hxz : x = z
    · rw [if_neg (by simpa using hxz)] at hRight ⊢
      exact hRest hLeft hRight
    · rw [if_pos hxz] at hRight ⊢
      exact hRight
  · rw [if_pos hxy] at hLeft
    by_cases hyz : y = z
    · subst hyz
      rw [if_pos hxy]
      exact hLeft
    · rw [if_pos hyz] at hRight
      by_cases hxz : x = z
      · subst hxz
        exact (h.asymm _ _ hxy hLeft hRight).elim
      · rw [if_pos hxz]
        exact h.trans _ _ _ hLeft hRight

theorem strict_true : Strict fun a _ : Bool => a :=
  ⟨fun _ _ hNe ha hb => hNe (ha.trans hb.symm), fun _ _ _ ha _ => ha⟩

theorem strict_gt {B : Type v} [Preorder B] [DecidableLT B] (f : A → B) :
    Strict fun a b : A => decide (f b < f a) :=
  ⟨fun _ _ _ hab hba => lt_asymm (of_decide_eq_true hab) (of_decide_eq_true hba),
    fun _ _ _ hab hbc => decide_eq_true ((of_decide_eq_true hbc).trans (of_decide_eq_true hab))⟩

end Lexicographic

end Basis
