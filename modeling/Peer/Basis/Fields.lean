import Mathlib.Data.List.Basic

/-! Fields read one after the other until one is malformed. The last field is read in its own
way, whatever it is. -/
namespace Basis

universe u v

variable {α : Type u} {β : Type v}

/-- The values up to the first malformed field before the last; `last` has the value read
before it. -/
def readUntilBad (read : α → Option β) (last : β → α → β) : β → List α → List β
  | _, [] => []
  | prev, [field] => [last prev field]
  | _, field :: next :: fields =>
    match read field with
    | none => []
    | some value => value :: readUntilBad read last value (next :: fields)

/-- How many fields are read: those before the first malformed one, or all if only the last
is malformed. -/
def fieldsRead (read : α → Option β) (fields : List α) : Nat :=
  if ∀ field ∈ fields.dropLast, (read field).isSome then fields.length
  else (fields.dropLast.takeWhile fun field => (read field).isSome).length

variable {read : α → Option β} {last : β → α → β}

theorem length_readUntilBad (prev : β) (fields : List α) :
    (readUntilBad read last prev fields).length = fieldsRead read fields := by
  induction fields generalizing prev with
  | nil => rfl
  | cons field fields ih =>
      cases fields with
      | nil => rfl
      | cons next fields =>
          rw [readUntilBad]
          unfold fieldsRead at ih ⊢
          rw [List.dropLast_cons_cons]
          cases hRead : read field with
          | none => simp [hRead]
          | some value =>
              dsimp only
              rw [List.length_cons, ih, List.takeWhile_cons_of_pos (by simp [hRead])]
              simp only [List.forall_mem_cons, hRead, Option.isSome_some, true_and,
                List.length_cons]
              split <;> rfl

/-- Fields without a malformed one are read as they are. -/
theorem readUntilBad_eq {value : α → Option β} (prev : β) {fields : List α}
    (hRead : ∀ field ∈ fields, (value field).isSome → read field = value field)
    (hLast : ∀ prev, ∀ field ∈ fields, (value field).isSome → value field = some (last prev field))
    (hAll : ∀ field ∈ fields, (value field).isSome) :
    fields.map value = (readUntilBad read last prev fields).map some := by
  induction fields generalizing prev with
  | nil => rfl
  | cons field fields ih =>
      have hField := hAll field (List.mem_cons_self ..)
      cases fields with
      | nil => simp [readUntilBad, hLast prev field (List.mem_cons_self ..) hField]
      | cons next fields =>
          obtain ⟨v, hValue⟩ := Option.isSome_iff_exists.mp hField
          rw [readUntilBad, hRead field (List.mem_cons_self ..) hField, hValue]
          have hRest := ih v (fun f hf => hRead f (List.mem_cons_of_mem _ hf))
            (fun p f hf => hLast p f (List.mem_cons_of_mem _ hf))
            (fun f hf => hAll f (List.mem_cons_of_mem _ hf))
          show value field :: (next :: fields).map value = some v :: List.map some _
          rw [hValue, hRest]

end Basis
