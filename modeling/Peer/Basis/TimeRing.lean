import Mathlib.Algebra.BigOperators.Intervals
import Mathlib.Data.Nat.ModEq
import Mathlib.Order.Interval.Finset.Nat

/-! Amounts of the last units of time in a ring of slots, one for each unit. A slot serves
again after a full turn and is emptied when time reaches it. -/
namespace Basis

variable {n now later : Nat} {amount slots slots' : Nat → Nat}

/-- The ring holds the amounts of the last `n` units up to `now`, after which nothing came. -/
structure TimeRing (n now : Nat) (amount slots : Nat → Nat) : Prop where
  recent : ∀ s ≤ now, now < s + n → slots (s % n) = amount s
  unused : ∀ slot < n, now < slot → slots slot = 0
  future : ∀ s, now < s → amount s = 0

namespace TimeRing

theorem start (n now : Nat) : TimeRing n now (fun _ => 0) fun _ => 0 where
  recent := fun _ _ _ => rfl
  unused := fun _ _ _ => rfl
  future := fun _ _ => rfl

/-- Two units less than a turn apart have different slots. -/
theorem mod_ne {s t : Nat} (hLess : s < t) (hTurn : t < s + n) : t % n ≠ s % n := by
  intro hSame
  have hDvd := (Nat.modEq_iff_dvd' hLess.le).mp hSame.symm
  have hLe := Nat.le_of_dvd (by omega) hDvd
  omega

/-- Time goes on, and the slots of the units it reaches are emptied. -/
theorem advance (h : TimeRing n now amount slots) (hLe : now ≤ later)
    (hKept : ∀ s ≤ now, later < s + n → slots' (s % n) = slots (s % n))
    (hReached : ∀ s, now < s → s ≤ later → slots' (s % n) = 0)
    (hLess : ∀ slot, slots' slot = slots slot ∨ slots' slot = 0) :
    TimeRing n later amount slots' where
  recent := fun s hs hTurn => by
    by_cases hOld : s ≤ now
    · rw [hKept s hOld hTurn]
      exact h.recent s hOld (by omega)
    · rw [hReached s (by omega) hs, h.future s (by omega)]
  unused := fun slot hSlot hLater => by
    rcases hLess slot with hSame | hZero
    · rw [hSame]
      exact h.unused slot hSlot (by omega)
    · exact hZero
  future := fun s hs => h.future s (by omega)

/-- An amount is added to the present unit. -/
theorem add (h : TimeRing n now amount slots) (hPos : 0 < n) {amount' : Nat → Nat} {more : Nat}
    (hSlot : slots' (now % n) = slots (now % n) + more)
    (hSlots : ∀ slot, slot ≠ now % n → slots' slot = slots slot)
    (hNow : amount' now = amount now + more) (hAmount : ∀ s, s ≠ now → amount' s = amount s) :
    TimeRing n now amount' slots' where
  recent := fun s hs hTurn => by
    by_cases hSame : s = now
    · rw [hSame, hSlot, hNow, h.recent now le_rfl (Nat.lt_add_of_pos_right hPos)]
    · rw [hSlots _ fun hMod => mod_ne (by omega) hTurn hMod.symm, hAmount s hSame]
      exact h.recent s hs hTurn
  unused := fun slot hSlot hLater => by
    rw [hSlots slot fun hMod => ?_]
    · exact h.unused slot hSlot hLater
    · rw [Nat.mod_eq_of_lt (by omega)] at hMod
      omega
  future := fun s hs => by
    rw [hAmount s (by omega)]
    exact h.future s hs

/-- The slots of less than a turn hold the amounts of these units. -/
theorem sum_slots (h : TimeRing n now amount slots) {first count : Nat}
    (hFirst : now < first + n) (hLast : first + count ≤ now + 1) :
    ∑ k ∈ Finset.range count, slots ((first + k) % n) =
      ∑ s ∈ Finset.Ico first (first + count), amount s := by
  rw [Finset.sum_Ico_eq_sum_range, Nat.add_sub_cancel_left]
  refine Finset.sum_congr rfl fun k hk => ?_
  have hk := Finset.mem_range.mp hk
  exact h.recent (first + k) (by omega) (by omega)

end TimeRing

end Basis
