import Mathlib.Data.List.Basic

/-! `protocol::BlockMap` belongs to another library, so it is a parameter: any
type with the operations the storage layer calls and the bitmap laws it relies
on for indices below the size given to `Create`. -/
namespace Storage

class BlockMap (μ : Type) where
  create : Nat → μ
  size : μ → Nat
  hasBlock : μ → Nat → Bool
  set : μ → Nat → μ
  reset : μ → Nat → μ
  setAll : μ → Bool → μ
  isFull : μ → Bool
  size_create : ∀ n, size (create n) = n
  size_set : ∀ m i, size (set m i) = size m
  size_reset : ∀ m i, size (reset m i) = size m
  size_setAll : ∀ m v, size (setAll m v) = size m
  hasBlock_set : ∀ m i j, i < size m → j < size m →
    hasBlock (set m i) j = if j = i then true else hasBlock m j
  hasBlock_reset : ∀ m i j, i < size m → j < size m →
    hasBlock (reset m i) j = if j = i then false else hasBlock m j
  hasBlock_setAll : ∀ m v j, j < size m → hasBlock (setAll m v) j = v
  isFull_iff : ∀ m, isFull m = true ↔ ∀ j < size m, hasBlock m j = true

namespace BlockMap

attribute [simp] size_create size_set size_reset size_setAll

variable {μ : Type} [BlockMap μ] {m : μ} {i j : Nat}

theorem hasBlock_set_self (h : i < size m) : hasBlock (set m i) i = true := by
  simp [hasBlock_set m i i h h]

theorem hasBlock_set_of_ne (hi : i < size m) (hj : j < size m) (h : j ≠ i) :
    hasBlock (set m i) j = hasBlock m j := by
  simp [hasBlock_set m i j hi hj, h]

theorem hasBlock_reset_self (h : i < size m) : hasBlock (reset m i) i = false := by
  simp [hasBlock_reset m i i h h]

theorem hasBlock_reset_of_ne (hi : i < size m) (hj : j < size m) (h : j ≠ i) :
    hasBlock (reset m i) j = hasBlock m j := by
  simp [hasBlock_reset m i j hi hj, h]

end BlockMap

/-- A list of booleans is such a map. Runs on concrete inputs use it. -/
instance : BlockMap (List Bool) where
  create n := List.replicate n false
  size := List.length
  hasBlock m i := m.getD i false
  set m i := List.set m i true
  reset m i := List.set m i false
  setAll m v := m.map fun _ => v
  isFull m := m.all id
  size_create n := by simp
  size_set m i := by simp
  size_reset m i := by simp
  size_setAll m v := by simp
  hasBlock_set m i j hi hj := by
    by_cases h : j = i
    · simp [List.getD_eq_getElem?_getD, h, hi]
    · simp [List.getD_eq_getElem?_getD, List.getElem?_set_ne (Ne.symm h), h]
  hasBlock_reset m i j hi hj := by
    by_cases h : j = i
    · simp [List.getD_eq_getElem?_getD, h, hi]
    · simp [List.getD_eq_getElem?_getD, List.getElem?_set_ne (Ne.symm h), h]
  hasBlock_setAll m v j hj := by simp [List.getD_eq_getElem?_getD, hj]
  isFull_iff m := by
    simp only [List.all_eq_true, id_eq, List.getD_eq_getElem?_getD]
    constructor
    · intro h j hj
      simpa [hj] using h m[j] (List.getElem_mem hj)
    · intro h b hb
      obtain ⟨j, hj, rfl⟩ := List.mem_iff_getElem.mp hb
      simpa [hj] using h j hj

end Storage
