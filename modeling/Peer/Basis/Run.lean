import Mathlib.Logic.Basic

/-! Finite runs of labelled transition relations. A guard restricts which
labels may be taken in which states. Nothing here knows what a state is. -/
namespace Basis

universe u v

variable {State : Type u} {Action : Type v}

/-- `Reaches step guard s t`: a finite sequence of steps leads from `s` to `t`
and each of them met the guard in the state it started from. -/
inductive Reaches (step : State → Action → State → Prop) (guard : State → Action → Prop) :
    State → State → Prop where
  | refl (s : State) : Reaches step guard s s
  | tail {s t u : State} {a : Action} (prior : Reaches step guard s t)
      (met : guard t a) (last : step t a u) : Reaches step guard s u

variable {step : State → Action → State → Prop} {guard : State → Action → Prop}

theorem Reaches.head {s t u : State} {a : Action} (met : guard s a) (first : step s a t)
    (rest : Reaches step guard t u) : Reaches step guard s u := by
  induction rest with
  | refl => exact (Reaches.refl s).tail met first
  | tail _ hMet hLast ih => exact ih.tail hMet hLast

theorem Reaches.single {s t : State} (a : Action) (met : guard s a) (last : step s a t) :
    Reaches step guard s t :=
  (Reaches.refl s).tail met last

theorem Reaches.trans {s t u : State} (left : Reaches step guard s t)
    (right : Reaches step guard t u) : Reaches step guard s u := by
  induction right with
  | refl => exact left
  | tail _ hMet hLast ih => exact ih.tail hMet hLast

/-- A property that holds initially and survives every guarded step holds in
every state a guarded run reaches. -/
theorem Reaches.invariant {P : State → Prop} {s t : State} (run : Reaches step guard s t)
    (hInit : P s)
    (hStep : ∀ x a y, P x → guard x a → step x a y → P y) : P t := by
  induction run with
  | refl => exact hInit
  | tail _ hMet hLast ih => exact hStep _ _ _ ih hMet hLast

/-- Weakening the guard keeps every run. -/
theorem Reaches.mono {guard' : State → Action → Prop} {s t : State}
    (run : Reaches step guard s t) (h : ∀ x a, guard x a → guard' x a) :
    Reaches step guard' s t := by
  induction run with
  | refl => exact Reaches.refl _
  | tail _ hMet hLast ih => exact ih.tail (h _ _ hMet) hLast

/-- Folding a total step function over a list of actions is a run. -/
theorem Reaches.of_foldl (next : State → Action → State) (s : State) (actions : List Action) :
    Reaches (fun x a y => next x a = y) (fun _ _ => True) s (actions.foldl next s) := by
  induction actions generalizing s with
  | nil => exact Reaches.refl s
  | cons a rest ih => exact Reaches.head trivial rfl (ih (next s a))

/-- Execute a list of actions of a partial step function. -/
def execute (next : State → Action → Option State) : State → List Action → Option State
  | s, [] => some s
  | s, a :: rest => (next s a).bind fun t => execute next t rest

/-- Every action of the list meets the guard where its turn comes. -/
def AllMet (next : State → Action → Option State) (guard : State → Action → Prop) :
    State → List Action → Prop
  | _, [] => True
  | s, a :: rest => guard s a ∧ ∀ t, next s a = some t → AllMet next guard t rest

/-- A successful execution is a run. -/
theorem Reaches.of_execute {next : State → Action → Option State}
    {guard : State → Action → Prop} {s t : State} {actions : List Action}
    (h : execute next s actions = some t) (hMet : AllMet next guard s actions) :
    Reaches (fun x a y => next x a = some y) guard s t := by
  induction actions generalizing s with
  | nil =>
      cases h
      exact Reaches.refl _
  | cons a rest ih =>
      obtain ⟨middle, hFirst, hRest⟩ := Option.bind_eq_some_iff.mp h
      exact Reaches.head hMet.1 hFirst (ih hRest (hMet.2 middle hFirst))

/-- A step that is taken only when its check passes. -/
def checked (next : State → Action → Option State) (check : State → Action → Bool)
    (s : State) (a : Action) : Option State :=
  if check s a then next s a else none

/-- An execution whose checks all passed is a run guarded by them. -/
theorem Reaches.of_checked {next : State → Action → Option State}
    {check : State → Action → Bool} {s t : State} {actions : List Action}
    (h : execute (checked next check) s actions = some t) :
    Reaches (fun x a y => next x a = some y) (fun x a => check x a = true) s t := by
  induction actions generalizing s with
  | nil =>
      cases h
      exact Reaches.refl _
  | cons a rest ih =>
      obtain ⟨middle, hFirst, hRest⟩ := Option.bind_eq_some_iff.mp h
      unfold checked at hFirst
      split at hFirst
      · rename_i hMet
        exact Reaches.head hMet hFirst (ih hRest)
      · cases hFirst

/-- Such an execution ends in a state that passes a test. -/
theorem Reaches.exists_of_checked (next : State → Action → Option State)
    (check : State → Action → Bool) (s : State) (actions : List Action) (test : State → Bool)
    (h : (execute (checked next check) s actions).any test = true) :
    ∃ t, Reaches (fun x a y => next x a = some y) (fun x a => check x a = true) s t ∧
      test t = true := by
  obtain ⟨t, hRun, hTest⟩ := (Option.any_eq_true _ _).mp h
  exact ⟨t, .of_checked hRun, hTest⟩

end Basis
