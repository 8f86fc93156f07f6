import Mathlib.Data.List.Sort

/-! Ordered maps as lists of entries. Keys are told apart by a comparison alone, so that
keys of which neither comes first are one key. An index of a table is a map from a key
computed from each value; it is kept by erasing under the old key and inserting under the
new one. -/
namespace Basis

universe u v w

/-- A comparison of keys. -/
class Before (K : Type u) where
  before : K → K → Bool
  irrefl : ∀ a, before a a = false

/-- Keys of a linear order, compared by it. -/
instance (priority := low) Before.ofLinearOrder (K : Type u) [LinearOrder K] : Before K where
  before a b := a < b
  irrefl a := by simp

/-- Neither key comes before the other. -/
def equivalent {K : Type u} [Before K] (a b : K) : Bool :=
  !Before.before a b && !Before.before b a

variable {K : Type u} {V : Type v} {J : Type w} [Before K] [Before J]

@[simp] theorem equivalent_self (a : K) : equivalent a a = true := by
  simp [equivalent, Before.irrefl]

theorem equivalent_comm (a b : K) : equivalent a b = equivalent b a := by
  unfold equivalent
  exact Bool.and_comm _ _

theorem eq_of_equivalent {K : Type u} [LinearOrder K] (a b : K) (h : equivalent a b = true) :
    a = b := by
  simp only [equivalent, Before.before, Bool.and_eq_true, Bool.not_eq_true',
    decide_eq_false_iff_not, not_lt] at h
  exact le_antisymm h.2 h.1

/-- The entries, those of earlier keys first. -/
abbrev OrderedMap (K : Type u) (V : Type v) := List (K × V)

namespace OrderedMap

variable (m : OrderedMap K V) (k : K) (v : V)

def find? : Option V := (List.find? (fun entry => equivalent entry.1 k) m).map Prod.snd

/-- An entry that has the key already stays. -/
def insert : OrderedMap K V :=
  if m.any fun entry => equivalent entry.1 k then m
  else List.orderedInsert (fun a b => Before.before a.1 b.1) (k, v) m

def erase : OrderedMap K V := m.filter fun entry => !equivalent entry.1 k

/-- What writing through the reference `m[k]` leaves: a key that is not there gets
an entry with a default first. -/
def update (fresh : V) (f : V → V) : OrderedMap K V :=
  (insert m k fresh).map fun entry => if equivalent entry.1 k then (entry.1, f entry.2) else entry

omit [Before K] in
/-- The keys in order. -/
def keys : List K := m.map Prod.fst

variable {m k v}

/-- No entry has the key. -/
def Absent (m : OrderedMap K V) (k : K) : Prop := ∀ entry ∈ m, equivalent entry.1 k = false

theorem find?_eq_none : find? m k = none ↔ Absent m k := by
  simp [find?, Absent]

theorem mem_of_find? (h : find? m k = some v) : ∃ j, (j, v) ∈ m ∧ equivalent j k = true := by
  obtain ⟨entry, hFind, rfl⟩ := Option.map_eq_some_iff.mp h
  exact ⟨entry.1, List.mem_of_find?_eq_some hFind, by simpa using List.find?_some hFind⟩

theorem any_iff : (m.any fun entry => equivalent entry.1 k) = true ↔ ¬ Absent m k := by
  simp [Absent]

theorem insert_perm (h : Absent m k) : (insert m k v).Perm ((k, v) :: m) := by
  unfold insert
  rw [if_neg fun hAny => any_iff.mp hAny h]
  exact List.perm_orderedInsert _ _ _

theorem erase_eq_self (h : Absent m k) : erase m k = m := by
  apply List.filter_eq_self.mpr
  intro entry hMem
  simp [h entry hMem]

theorem erase_sublist (m : OrderedMap K V) (k : K) : (erase m k).Sublist m :=
  List.filter_sublist

/-- Keys of different entries differ. -/
def Distinct (m : OrderedMap K V) : Prop :=
  m.Pairwise fun a b => equivalent a.1 b.1 = false

theorem Distinct.perm {m' : OrderedMap K V} (h : Distinct m) (hPerm : m.Perm m') :
    Distinct m' :=
  List.Pairwise.perm h hPerm fun hApart => by rwa [equivalent_comm]

theorem Distinct.erase (h : Distinct m) (k : K) : Distinct (erase m k) :=
  h.sublist (erase_sublist m k)

theorem Distinct.insert (h : Distinct m) (k : K) (v : V) : Distinct (insert m k v) := by
  by_cases hAbsent : Absent m k
  · apply Distinct.perm _ (insert_perm hAbsent).symm
    apply List.pairwise_cons.mpr
    refine ⟨fun entry hMem => ?_, h⟩
    rw [equivalent_comm]
    exact hAbsent entry hMem
  · unfold OrderedMap.insert
    rwa [if_pos (any_iff.mpr hAbsent)]

theorem absent_of_distinct {rest : OrderedMap K V} (h : Distinct ((k, v) :: rest)) :
    Absent rest k := by
  intro entry hMem
  rw [equivalent_comm]
  exact (List.pairwise_cons.mp h).1 entry hMem

/-- Any entry, and the others, which have other keys. -/
theorem Distinct.exists_perm (h : Distinct m) (hMem : (k, v) ∈ m) :
    ∃ rest, m.Perm ((k, v) :: rest) ∧ Absent rest k := by
  obtain ⟨left, right, rfl⟩ := List.append_of_mem hMem
  exact ⟨left ++ right, List.perm_middle, absent_of_distinct (Distinct.perm h List.perm_middle)⟩

theorem erase_perm {rest : OrderedMap K V} (hPerm : m.Perm ((k, v) :: rest))
    (hAbsent : Absent rest k) : (erase m k).Perm rest := by
  have hErase := hPerm.filter fun entry => !equivalent entry.1 k
  rw [List.filter_cons_of_neg (by simp)] at hErase
  exact hErase.trans (List.Perm.of_eq (erase_eq_self hAbsent))

theorem keys_update (fresh : V) (f : V → V) : keys (update m k fresh f) = keys (insert m k fresh) := by
  unfold keys update
  rw [List.map_map]
  apply List.map_congr_left
  intro entry _
  show (if equivalent entry.1 k then (entry.1, f entry.2) else entry).1 = entry.1
  split <;> rfl

theorem insert_of_not_absent (h : ¬ Absent m k) : insert m k v = m := by
  unfold insert
  rw [if_pos (any_iff.mpr h)]

theorem find?_insert_self : find? (insert m k v) k = some ((find? m k).getD v) := by
  by_cases hAbsent : Absent m k
  · rw [find?_eq_none.mpr hAbsent, Option.getD_none]
    have hPerm := insert_perm (v := v) hAbsent
    cases hFind : find? (insert m k v) k with
    | none =>
        have hNew := find?_eq_none.mp hFind (k, v) (hPerm.mem_iff.mpr List.mem_cons_self)
        rw [equivalent_self] at hNew
        cases hNew
    | some w =>
        obtain ⟨j, hMem, hSame⟩ := mem_of_find? hFind
        rcases List.mem_cons.mp (hPerm.mem_iff.mp hMem) with hNew | hOld
        · rw [(Prod.mk.inj hNew).2]
        · rw [hAbsent _ hOld] at hSame
          cases hSame
  · rw [insert_of_not_absent hAbsent]
    cases hFind : find? m k with
    | none => exact absurd (find?_eq_none.mp hFind) hAbsent
    | some w => rfl

/-- What the reference `m[k]` reads after it was written through. -/
theorem find?_update_self (fresh : V) (f : V → V) :
    find? (update m k fresh f) k = some (f ((find? m k).getD fresh)) := by
  have hInsert := find?_insert_self (m := m) (k := k) (v := fresh)
  unfold find? at hInsert ⊢
  obtain ⟨entry, hFind, hValue⟩ := Option.map_eq_some_iff.mp hInsert
  have hSame : equivalent entry.1 k = true := by simpa using List.find?_some hFind
  have hKey : ((fun e : K × V => equivalent e.1 k) ∘
      fun e : K × V => if equivalent e.1 k then (e.1, f e.2) else e) =
      fun e => equivalent e.1 k := by
    funext e
    show equivalent (if equivalent e.1 k then (e.1, f e.2) else e).1 k = equivalent e.1 k
    split <;> rfl
  rw [update, List.find?_map, hKey, hFind]
  simp [hSame, hValue]

/-- Reading through the reference of a key that is there changes nothing. -/
theorem update_id (fresh : V) (h : ¬ Absent m k) : update m k fresh id = m := by
  unfold update
  rw [insert_of_not_absent h]
  apply List.map_id''
  intro entry
  split <;> rfl

theorem Distinct.update (h : Distinct m) (fresh : V) (f : V → V) :
    Distinct (update m k fresh f) := by
  unfold OrderedMap.update
  apply List.pairwise_map.mpr
  apply List.Pairwise.imp _ (h.insert k fresh)
  intro a b hApart
  split <;> split <;> exact hApart

/-- Inserting entries of new and different keys one after the other keeps them all. -/
theorem foldl_insert_perm {entries : List (K × V)} (hEntries : Distinct entries)
    (hAbsent : ∀ entry ∈ entries, Absent m entry.1) :
    (entries.foldl (fun map entry => insert map entry.1 entry.2) m).Perm (m ++ entries) := by
  induction entries generalizing m with
  | nil => rw [List.append_nil, List.foldl_nil]
  | cons entry rest ih =>
      obtain ⟨hApart, hRest⟩ := List.pairwise_cons.mp hEntries
      have hInsert : (insert m entry.1 entry.2).Perm ((entry.1, entry.2) :: m) :=
        insert_perm (hAbsent entry List.mem_cons_self)
      rw [List.foldl_cons]
      apply (ih hRest _).trans
      · exact (hInsert.append_right rest).trans List.perm_middle.symm
      · intro other hOther old hOld
        obtain rfl | hOld := List.mem_cons.mp (hInsert.mem_iff.mp hOld)
        · exact hApart other hOther
        · exact hAbsent other (List.mem_cons_of_mem _ hOther) old hOld

theorem length_insert_le (m : OrderedMap K V) (k : K) (v : V) :
    (insert m k v).length ≤ m.length + 1 := by
  by_cases h : Absent m k
  · rw [(insert_perm h).length_eq, List.length_cons]
  · rw [insert_of_not_absent h]
    exact Nat.le_succ _

section Lawful

/-! Where only equal keys are equivalent, entries are found by membership. -/

variable (hEq : ∀ a b : K, equivalent a b = true → a = b)

include hEq

theorem absent_iff : Absent m k ↔ k ∉ keys m := by
  constructor
  · intro h hMem
    obtain ⟨entry, hEntry, hKey⟩ := List.mem_map.mp hMem
    have hApart := h entry hEntry
    rw [hKey, equivalent_self] at hApart
    cases hApart
  · intro h entry hEntry
    by_contra hSame
    rw [Bool.not_eq_false] at hSame
    exact h (List.mem_map.mpr ⟨entry, hEntry, hEq _ _ hSame⟩)

theorem mem_keys_insert {j : K} : j ∈ keys (insert m k v) ↔ j = k ∨ j ∈ keys m := by
  by_cases h : Absent m k
  · have hPerm : (keys (insert m k v)).Perm (k :: keys m) := (insert_perm h).map Prod.fst
    rw [hPerm.mem_iff, List.mem_cons]
  · rw [insert_of_not_absent h]
    have hMem : k ∈ keys m := by
      by_contra hNot
      exact h ((absent_iff hEq).mpr hNot)
    constructor
    · exact Or.inr
    · rintro (rfl | hj)
      · exact hMem
      · exact hj

theorem mem_keys_erase {j : K} : j ∈ keys (erase m k) ↔ j ∈ keys m ∧ j ≠ k := by
  unfold keys erase
  simp only [List.mem_map, List.mem_filter, Bool.not_eq_true']
  constructor
  · rintro ⟨entry, ⟨hEntry, hApart⟩, rfl⟩
    refine ⟨⟨entry, hEntry, rfl⟩, ?_⟩
    intro hSame
    rw [hSame, equivalent_self] at hApart
    cases hApart
  · rintro ⟨⟨entry, hEntry, rfl⟩, hNe⟩
    refine ⟨entry, ⟨hEntry, ?_⟩, rfl⟩
    by_contra hSame
    rw [Bool.not_eq_false] at hSame
    exact hNe (hEq _ _ hSame)

omit hEq in
theorem Distinct.nodup_keys (h : Distinct m) : (keys m).Nodup := by
  apply List.pairwise_map.mpr
  apply List.Pairwise.imp _ h
  intro a b hApart hSame
  rw [hSame, equivalent_self] at hApart
  cases hApart

omit hEq in
/-- An entry that is there is all that erasing takes. -/
theorem Distinct.length_erase (h : Distinct m) (hMem : k ∈ keys m) :
    (OrderedMap.erase m k).length + 1 = m.length := by
  obtain ⟨entry, hEntry, rfl⟩ := List.mem_map.mp hMem
  obtain ⟨rest, hPerm, hAbsent⟩ := h.exists_perm hEntry
  rw [(erase_perm hPerm hAbsent).length_eq, hPerm.length_eq, List.length_cons]

theorem find?_eq_some (h : Distinct m) : find? m k = some v ↔ (k, v) ∈ m := by
  constructor
  · intro hFind
    obtain ⟨j, hMem, hKey⟩ := mem_of_find? hFind
    rwa [← hEq j k hKey]
  · intro hMem
    cases hFind : find? m k with
    | none =>
        have hApart := find?_eq_none.mp hFind (k, v) hMem
        rw [equivalent_self] at hApart
        cases hApart
    | some w =>
        obtain ⟨j, hOther, hKey⟩ := mem_of_find? hFind
        obtain rfl := hEq j k hKey
        obtain ⟨rest, hPerm, hAbsent⟩ := h.exists_perm hMem
        obtain hHead | hRest := List.mem_cons.mp (hPerm.mem_iff.mp hOther)
        · cases hHead
          rfl
        · have hApart := hAbsent _ hRest
          rw [equivalent_self] at hApart
          cases hApart

end Lawful

end OrderedMap

open OrderedMap

/-- `index` has one entry for each value of the table, under the key computed from it. -/
def IsIndex (key : V → J) (table : List V) (index : OrderedMap J V) : Prop :=
  index.Perm (table.map fun value => (key value, value))

section Index

variable {key key' : V → J} {table rest : List V} {index : OrderedMap J V} {value : V}

omit [Before J] in
theorem IsIndex.mem_iff (h : IsIndex key table index) {j : J} :
    (j, value) ∈ index ↔ value ∈ table ∧ j = key value := by
  rw [List.Perm.mem_iff h, List.mem_map]
  constructor
  · rintro ⟨other, hMem, hEq⟩
    cases hEq
    exact ⟨hMem, rfl⟩
  · rintro ⟨hMem, rfl⟩
    exact ⟨value, hMem, rfl⟩

omit [Before J] in
theorem IsIndex.perm (h : IsIndex key table index) (hPerm : table.Perm rest) :
    IsIndex key rest index :=
  List.Perm.trans h (hPerm.map _)

omit [Before J] in
/-- Keys that are the same for the values of the table make the same index. -/
theorem IsIndex.congr (h : IsIndex key table index)
    (hSame : ∀ other ∈ table, key' other = key other) : IsIndex key' table index := by
  have hMap : table.map (fun value => (key' value, value)) =
      table.map fun value => (key value, value) := by
    apply List.map_congr_left
    intro other hMem
    rw [hSame other hMem]
  unfold IsIndex
  rw [hMap]
  exact h

theorem IsIndex.absent (h : IsIndex key table index) {j : J}
    (hApart : ∀ other ∈ table, equivalent (key other) j = false) : Absent index j := by
  rintro ⟨i, other⟩ hMem
  obtain ⟨hOther, rfl⟩ := h.mem_iff.mp hMem
  exact hApart other hOther

/-- Erase what is not there. -/
theorem IsIndex.erase_absent (h : IsIndex key table index) {j : J}
    (hApart : ∀ other ∈ table, equivalent (key other) j = false) :
    IsIndex key table (OrderedMap.erase index j) := by
  rw [erase_eq_self (h.absent hApart)]
  exact h

theorem IsIndex.erase (h : IsIndex key (value :: rest) index)
    (hApart : ∀ other ∈ rest, equivalent (key other) (key value) = false) :
    IsIndex key rest (OrderedMap.erase index (key value)) := by
  apply erase_perm h
  rintro ⟨i, other⟩ hMem
  obtain ⟨third, hThird, hEq⟩ := List.mem_map.mp hMem
  cases hEq
  exact hApart _ hThird

theorem IsIndex.insert (h : IsIndex key rest index)
    (hApart : ∀ other ∈ rest, equivalent (key other) (key value) = false) :
    IsIndex key (value :: rest) (OrderedMap.insert index (key value) value) :=
  (insert_perm (h.absent hApart)).trans (List.Perm.cons _ h)

end Index

end Basis
