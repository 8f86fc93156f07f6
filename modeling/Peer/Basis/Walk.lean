import Mathlib.Logic.Relation

/-! Walks of a partial successor function: which points are visited from a start,
and how a statement about all of them splits at the first one. -/
namespace Basis

universe u

variable {α : Type u}

/-- `b` is visited by the walk that starts at `a`. -/
def Visits (next : α → Option α) (a b : α) : Prop :=
  Relation.ReflTransGen (fun x y => next x = some y) a b

variable {next : α → Option α} {a b c : α}

theorem Visits.refl (a : α) : Visits next a a := Relation.ReflTransGen.refl

theorem Visits.head (h : next a = some b) (hRest : Visits next b c) : Visits next a c :=
  Relation.ReflTransGen.head h hRest

theorem visits_iff : Visits next a b ↔ a = b ∨ ∃ c, next a = some c ∧ Visits next c b := by
  unfold Visits
  rw [Relation.ReflTransGen.cases_head_iff]

theorem visits_of_stop (h : next a = none) : Visits next a b ↔ b = a := by
  rw [visits_iff]
  simp [h, eq_comm]

theorem visits_of_step (h : next a = some c) :
    Visits next a b ↔ b = a ∨ Visits next c b := by
  rw [visits_iff]
  simp [h, eq_comm]

/-- What holds of every visited point, at a point where the walk ends. -/
theorem forall_visits_of_stop {P : α → Prop} (h : next a = none) :
    (∀ b, Visits next a b → P b) ↔ P a := by
  simp [visits_of_stop h]

/-- What holds of every visited point, at a point where the walk goes on. -/
theorem forall_visits_of_step {P : α → Prop} (h : next a = some c) :
    (∀ b, Visits next a b → P b) ↔ P a ∧ ∀ b, Visits next c b → P b := by
  simp only [visits_of_step h]
  constructor
  · exact fun hAll => ⟨hAll a (Or.inl rfl), fun b hb => hAll b (Or.inr hb)⟩
  · rintro ⟨hHere, hRest⟩ b (rfl | hb)
    · exact hHere
    · exact hRest b hb

/-- A walk has one end. -/
theorem Visits.end_unique {e e' : α} (h : Visits next a e) (hEnd : next e = none)
    (h' : Visits next a e') (hEnd' : next e' = none) : e = e' := by
  induction h using Relation.ReflTransGen.head_induction_on with
  | refl => exact ((visits_of_stop hEnd).mp h').symm
  | head hStep _ ih =>
      rcases (visits_of_step hStep).mp h' with rfl | hRest
      · rw [hEnd'] at hStep
        cases hStep
      · exact ih hRest

end Basis
