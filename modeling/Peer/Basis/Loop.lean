import Peer.Basis.Rounds
import Peer.Basis.Walk

/-! Loops of which a round either goes on with another state or leaves with a result. A
loop is a walk of its states, and what it returns is decided where the walk ends. -/
namespace Basis

universe u v w

variable {σ : Type u} {τ : Type v} {ρ : Type w}

/-- The loop for a number of rounds; none when they do not suffice. -/
def loop (round : σ → σ ⊕ ρ) : Nat → σ → Option ρ
  | 0, _ => none
  | rounds + 1, s =>
      match round s with
      | .inl t => loop round rounds t
      | .inr r => some r

/-- The state with which a round goes on. -/
def proceed (round : σ → σ ⊕ ρ) (s : σ) : Option σ := (round s).getLeft?

variable {round : σ → σ ⊕ ρ} {s t a x e : σ} {r : ρ}

theorem proceed_eq_some : proceed round s = some t ↔ round s = .inl t := by
  unfold proceed
  rw [Sum.getLeft?_eq_some_iff]

theorem proceed_of_result (h : round s = .inr r) : proceed round s = none := by
  unfold proceed
  rw [h]
  rfl

/-- A loop that returned has walked to the state it left in. -/
theorem exists_of_loop {rounds : Nat} (h : loop round rounds s = some r) :
    ∃ e, Visits (proceed round) s e ∧ round e = .inr r := by
  induction rounds generalizing s with
  | zero => cases h
  | succ rounds ih =>
      unfold loop at h
      cases hRound : round s with
      | inl t =>
          rw [hRound] at h
          obtain ⟨e, hVisits, hEnd⟩ := ih h
          exact ⟨e, hVisits.head (proceed_eq_some.mpr hRound), hEnd⟩
      | inr q =>
          rw [hRound] at h
          cases h
          exact ⟨s, Visits.refl s, hRound⟩

theorem settles_of_visits {P : ρ → Prop} (hVisits : Visits (proceed round) s e)
    (hEnd : round e = .inr r) (hP : P r) : Settles (fun rounds => loop round rounds s) P := by
  induction hVisits using Relation.ReflTransGen.head_induction_on with
  | refl =>
      apply Settles.of_add 1 _ hP
      intro rounds
      simp only [loop, hEnd]
  | head hStep _ ih =>
      apply ih.of_succ 1
      intro rounds
      simp only [loop, proceed_eq_some.mp hStep]

/-- A loop settles where its walk ends. -/
theorem settles_loop_iff {P : ρ → Prop} :
    Settles (fun rounds => loop round rounds s) P ↔
      ∃ e r, Visits (proceed round) s e ∧ round e = .inr r ∧ P r := by
  constructor
  · rintro ⟨r, ⟨enough, hReturns⟩, hP⟩
    obtain ⟨e, hVisits, hEnd⟩ := exists_of_loop (hReturns enough (Nat.le_refl _))
    exact ⟨e, r, hVisits, hEnd, hP⟩
  · rintro ⟨e, r, hVisits, hEnd, hP⟩
    exact settles_of_visits hVisits hEnd hP

/-- What a loop returns does not depend on the rounds it was given. -/
theorem loop_unique {n k : Nat} {r' : ρ} (h : loop round n s = some r)
    (h' : loop round k s = some r') : r = r' := by
  induction n generalizing s k with
  | zero => cases h
  | succ n ih =>
      cases k with
      | zero => cases h'
      | succ k =>
          unfold loop at h h'
          cases hRound : round s with
          | inl t =>
              rw [hRound] at h h'
              exact ih h h'
          | inr q =>
              rw [hRound] at h h'
              exact Option.some.inj (h.symm.trans h')

/-- A loop that keeps an invariant while a rank falls returns within as many rounds, and
returns the same however many more it is given. -/
theorem loop_of_rank {I : σ → Prop} {P : ρ → Prop} {rank : σ → Nat}
    (hGoes : ∀ x y, I x → round x = .inl y → I y ∧ rank y < rank x)
    (hEnds : ∀ x r, I x → round x = .inr r → P r) (hStart : I s) :
    ∃ r, (∀ rounds, rank s < rounds → loop round rounds s = some r) ∧ P r := by
  generalize hRank : rank s = n
  induction n using Nat.strong_induction_on generalizing s with
  | _ n ih =>
      cases hRound : round s with
      | inr r =>
          refine ⟨r, fun rounds hEnough => ?_, hEnds s r hStart hRound⟩
          obtain ⟨more, rfl⟩ := Nat.exists_eq_add_of_lt hEnough
          simp only [loop, hRound]
      | inl t =>
          obtain ⟨hKept, hLess⟩ := hGoes s t hStart hRound
          obtain ⟨r, hReturns, hP⟩ := ih (rank t) (hRank ▸ hLess) hKept rfl
          refine ⟨r, fun rounds hEnough => ?_, hP⟩
          obtain ⟨more, rfl⟩ := Nat.exists_eq_add_of_lt hEnough
          simp only [loop, hRound]
          exact hReturns _ (by omega)

section Ends

variable {next : σ → Option σ} {next' : τ → Option τ}

/-- A walk that comes to an end comes to it from every state it visits. -/
theorem Visits.to_end (hx : Visits next a x) (he : Visits next a e) (hEnd : next e = none) :
    Visits next x e := by
  induction hx using Relation.ReflTransGen.head_induction_on with
  | refl => exact he
  | head hStep _ ih =>
      rcases (visits_of_step hStep).mp he with rfl | hRest
      · rw [hEnd] at hStep
        cases hStep
      · exact ih hRest

/-- A walk that comes to an end visits no state that it would not leave. -/
theorem Visits.moves (hx : Visits next a x) (he : Visits next a e) (hEnd : next e = none) :
    next x ≠ some x := by
  intro hStay
  have hOnly : ∀ y, Visits next x y → y = x := by
    intro y hy
    induction hy with
    | refl => rfl
    | tail _ hLast ih =>
        subst ih
        exact (Option.some.inj (hStay.symm.trans hLast)).symm
  rw [hOnly e (hx.to_end he hEnd), hStay] at hEnd
  cases hEnd

/-- A walk along which a measure falls comes to an end. -/
theorem exists_end_of_measure {μ : σ → Nat}
    (h : ∀ x y, Visits next a x → next x = some y → μ y < μ x) :
    ∃ e, Visits next a e ∧ next e = none := by
  generalize hMeasure : μ a = n
  induction n using Nat.strong_induction_on generalizing a with
  | _ n ih =>
      cases hNext : next a with
      | none => exact ⟨a, Visits.refl a, hNext⟩
      | some b =>
          have hLess := h a b (Visits.refl a) hNext
          obtain ⟨e, hVisits, hEnd⟩ := ih (μ b) (hMeasure ▸ hLess)
            (fun x y hx => h x y (hx.head hNext)) rfl
          exact ⟨e, hVisits.head hNext, hEnd⟩

/-- Two walks whose states stay related step by step visit related states. -/
theorem Visits.simulate {R : σ → τ → Prop} {b : τ}
    (hStep : ∀ x y x', R x y → next x = some x' → ∃ y', next' y = some y' ∧ R x' y')
    (hx : Visits next a x) (hR : R a b) : ∃ y, Visits next' b y ∧ R x y := by
  induction hx with
  | refl => exact ⟨b, Visits.refl b, hR⟩
  | tail _ hLast ih =>
      obtain ⟨y, hy, hRelated⟩ := ih
      obtain ⟨y', hNext, hRelated'⟩ := hStep _ _ _ hRelated hLast
      exact ⟨y', hy.tail hNext, hRelated'⟩

end Ends

end Basis
