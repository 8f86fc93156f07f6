import Mathlib.Data.List.Range
import Mathlib.Data.Nat.Find
import Peer.Basis.Rounds
import Peer.Basis.Walk

/-! Loops that count in steps through the numbers below a size, where the increment may
wrap: `for (id = first; id <= last; id += step)`. -/
namespace Basis

universe u

section Orderly

variable {α : Type u} {next : α → Option α} {key : α → Nat} {a x y : α}

/-- The walk ends, its key grows with every step, and no key comes twice. -/
structure Orderly (next : α → Option α) (key : α → Nat) (a : α) : Prop where
  ends : ∃ b, Visits next a b ∧ next b = none
  rises : ∀ x y, Visits next a x → next x = some y → key x < key y
  once : ∀ x y, Visits next a x → Visits next a y → key x = key y → x = y

/-- Of two points of a walk one comes behind the other. -/
theorem Visits.total (hx : Visits next a x) (hy : Visits next a y) :
    Visits next x y ∨ Visits next y x := by
  induction hx using Relation.ReflTransGen.head_induction_on with
  | refl => exact Or.inl hy
  | head hStep hRest ih =>
      rcases (visits_of_step hStep).mp hy with rfl | hy
      · exact Or.inr (Visits.head hStep hRest)
      · exact ih hy

theorem Visits.trans {b c : α} (h : Visits next a b) (h' : Visits next b c) : Visits next a c :=
  Relation.ReflTransGen.trans h h'

/-- A walk whose key grows below a bound ends. -/
theorem exists_end {bound : Nat} (hLt : ∀ x, Visits next a x → key x < bound)
    (hRises : ∀ x y, Visits next a x → next x = some y → key x < key y) :
    ∃ b, Visits next a b ∧ next b = none := by
  have hFrom : ∀ room x, Visits next a x → bound - key x ≤ room →
      ∃ b, Visits next a b ∧ next b = none := by
    intro room
    induction room with
    | zero =>
        intro x hx hRoom
        have hBelow := hLt x hx
        omega
    | succ room ih =>
        intro x hx hRoom
        cases hNext : next x with
        | none => exact ⟨x, hx, hNext⟩
        | some y =>
            have hMore := hRises x y hx hNext
            exact ih y (hx.tail hNext) (by omega)
  exact hFrom _ a (Visits.refl a) (Nat.le_refl _)

/-- Keys that grow below a bound make a walk orderly. -/
theorem Orderly.of_rises {bound : Nat} (hLt : ∀ x, Visits next a x → key x < bound)
    (hRises : ∀ x y, Visits next a x → next x = some y → key x < key y) : Orderly next key a := by
  have hLater : ∀ x y, Visits next a x → Visits next x y → key x = key y → x = y := by
    intro x y hx hy hKey
    induction hy with
    | refl => rfl
    | @tail z y hz hLast ih =>
        have hLess := hRises z y (hx.trans hz) hLast
        have hUp : key x ≤ key z := by
          clear ih hKey hLess hLast
          induction hz with
          | refl => exact Nat.le_refl _
          | @tail v z hv hLast ih => exact ih.trans (hRises v z (hx.trans hv) hLast).le
        omega
  refine ⟨exists_end hLt hRises, hRises, ?_⟩
  intro x y hx hy hKey
  rcases hx.total hy with hAfter | hBefore
  · exact hLater x y hx hAfter hKey
  · exact (hLater y x hy hBefore hKey.symm).symm

/-- A loop over rounds returns when its walk is orderly. -/
theorem Orderly.settles {β : Type u} {result : α → β} (h : Orderly next key a)
    (loop : Nat → α → Option β) (hRound : ∀ rounds a,
      loop (rounds + 1) a = (next a).elim (some (result a)) (loop rounds)) :
    Settles (fun rounds => loop rounds a) fun _ => True := by
  obtain ⟨b, hVisits, hEnd⟩ := h.ends
  clear h
  induction hVisits using Relation.ReflTransGen.head_induction_on with
  | refl =>
      apply Settles.of_add 1 (fun rounds => ?_) trivial
      · exact result b
      · rw [hRound, hEnd]
        rfl
  | head hStep _ ih =>
      apply ih.of_succ 1
      intro rounds
      rw [hRound, hStep]
      rfl

end Orderly

section Loop

variable {σ : Type u} {size step first n : Nat} {last : σ → Nat} {body : σ → Nat → σ} {s : σ}

/-- One round: the body and the increment, unless the number is behind the last one. -/
def strideRound (size step : Nat) (last : σ → Nat) (body : σ → Nat → σ) (x : Nat × σ) :
    Option (Nat × σ) :=
  if last x.2 < x.1 then none else some ((x.1 + step) % size, body x.2 x.1)

/-- The loop; `none` when it does not end within the rounds. -/
def strideLoop (size step : Nat) (last : σ → Nat) (body : σ → Nat → σ) : Nat → Nat × σ → Option σ
  | 0, _ => none
  | rounds + 1, x =>
      match strideRound size step last body x with
      | none => some x.2
      | some y => strideLoop size step last body rounds y

theorem strideLoop_succ (rounds : Nat) (x : Nat × σ) :
    strideLoop size step last body (rounds + 1) x =
      (strideRound size step last body x).elim (some x.2) (strideLoop size step last body rounds) := by
  show (match strideRound size step last body x with
    | none => _
    | some y => strideLoop size step last body rounds y) = _
  cases strideRound size step last body x <;> rfl

/-- The number of the `k`th round. -/
def strideNumber (size step first k : Nat) : Nat := (first + k * step) % size

/-- The numbers of the first `n` rounds. -/
def strideNumbers (size step first n : Nat) : List Nat :=
  (List.range n).map (strideNumber size step first)

/-- The state before the `n`th round. -/
def strideState (size step first : Nat) (body : σ → Nat → σ) (s : σ) (n : Nat) : σ :=
  (strideNumbers size step first n).foldl body s

/-- The loop does `n` rounds and ends. -/
def StridesFor (size step first : Nat) (last : σ → Nat) (body : σ → Nat → σ) (s : σ) (n : Nat) :
    Prop :=
  last (strideState size step first body s n) < strideNumber size step first n ∧
    ∀ k < n, strideNumber size step first k ≤ last (strideState size step first body s k)

theorem strideNumber_zero (h : first < size) : strideNumber size step first 0 = first := by
  rw [strideNumber, Nat.zero_mul, Nat.add_zero, Nat.mod_eq_of_lt h]

theorem strideNumber_succ (k : Nat) :
    (strideNumber size step first k + step) % size = strideNumber size step first (k + 1) := by
  unfold strideNumber
  rw [Nat.mod_add_mod, Nat.add_mul, Nat.one_mul, Nat.add_assoc]

theorem strideState_succ (k : Nat) : strideState size step first body s (k + 1) =
    body (strideState size step first body s k) (strideNumber size step first k) := by
  simp [strideState, strideNumbers, List.range_succ]

theorem strideRound_of_le (k : Nat)
    (h : strideNumber size step first k ≤ last (strideState size step first body s k)) :
    strideRound size step last body
        (strideNumber size step first k, strideState size step first body s k) =
      some (strideNumber size step first (k + 1), strideState size step first body s (k + 1)) := by
  unfold strideRound
  rw [if_neg (Nat.not_lt.mpr h), strideNumber_succ, strideState_succ]

/-- After `n` rounds the loop stands where the `n`th round begins. -/
theorem strideLoop_add (rounds : Nat)
    (h : ∀ k < n, strideNumber size step first k ≤ last (strideState size step first body s k)) :
    strideLoop size step last body (rounds + n) (strideNumber size step first 0, s) =
      strideLoop size step last body rounds
        (strideNumber size step first n, strideState size step first body s n) := by
  induction n generalizing rounds with
  | zero => rfl
  | succ n ih =>
      have hFirst := ih (rounds + 1) fun k hk => h k (Nat.lt_succ_of_lt hk)
      rw [Nat.add_assoc, Nat.add_comm 1 n] at hFirst
      rw [hFirst]
      show (match strideRound size step last body _ with
        | none => _
        | some y => strideLoop size step last body rounds y) = _
      rw [strideRound_of_le n (h n (Nat.lt_succ_self n))]

/-- Some number of rounds is the last one, or there is no end. -/
theorem stridesFor_or_goes (size step first : Nat) (last : σ → Nat) (body : σ → Nat → σ) (s : σ) :
    (∃ n, StridesFor size step first last body s n) ∨
      ∀ k, strideNumber size step first k ≤ last (strideState size step first body s k) := by
  by_cases hGoes : ∀ k, strideNumber size step first k ≤
      last (strideState size step first body s k)
  · exact Or.inr hGoes
  · simp only [not_forall, not_le] at hGoes
    exact Or.inl ⟨Nat.find hGoes, Nat.find_spec hGoes,
      fun k hk => Nat.not_lt.mp (Nat.find_min hGoes hk)⟩

/-- A loop without an end returns nothing. -/
theorem strideLoop_eq_none (hFirst : first < size)
    (hGoes : ∀ k, strideNumber size step first k ≤ last (strideState size step first body s k))
    (rounds : Nat) : strideLoop size step last body rounds (first, s) = none := by
  have hNone := strideLoop_add (n := rounds) 0 fun k _ => hGoes k
  rwa [Nat.zero_add, strideNumber_zero hFirst] at hNone

/-- A loop that ends returns what its rounds leave. -/
theorem StridesFor.settles (h : StridesFor size step first last body s n) (hFirst : first < size) :
    Settles (fun rounds => strideLoop size step last body rounds (first, s))
      (· = strideState size step first body s n) := by
  have hStart : (first, s) = (strideNumber size step first 0, s) := by rw [strideNumber_zero hFirst]
  have hReturns : ∀ rounds, strideLoop size step last body (rounds + (n + 1)) (first, s) =
      some (strideState size step first body s n) := by
    intro rounds
    rw [hStart, ← Nat.add_assoc, Nat.add_right_comm, strideLoop_add (rounds + 1) h.2]
    simp [strideLoop, strideRound, h.1]
  exact Settles.of_add (n + 1) hReturns rfl

/-- The loop returns what some number of rounds leaves, if it ends at all. -/
theorem strideLoop_settles_iff {P : σ → Prop} (hFirst : first < size) :
    Settles (fun rounds => strideLoop size step last body rounds (first, s)) P ↔
      ∃ n, StridesFor size step first last body s n ∧
        P (strideState size step first body s n) := by
  constructor
  · intro h
    rcases stridesFor_or_goes size step first last body s with ⟨n, hEnds⟩ | hGoes
    · exact ⟨n, hEnds, h.elim (hEnds.settles hFirst)⟩
    · obtain ⟨value, ⟨enough, hReturns⟩, -⟩ := h
      have hSome := hReturns enough (Nat.le_refl _)
      dsimp only at hSome
      rw [strideLoop_eq_none hFirst hGoes] at hSome
      cases hSome
  · rintro ⟨n, hEnds, hP⟩
    apply (hEnds.settles hFirst).mono
    rintro result rfl
    exact hP

/-- The points of the loop are the beginnings of its rounds. -/
theorem visits_strideRound {x : Nat × σ} (hFirst : first < size) :
    Visits (strideRound size step last body) (first, s) x ↔
      ∃ k, x = (strideNumber size step first k, strideState size step first body s k) ∧
        ∀ j < k, strideNumber size step first j ≤ last (strideState size step first body s j) := by
  have hStart : (first, s) = (strideNumber size step first 0, strideState size step first body s 0) := by
    rw [strideNumber_zero hFirst]
    rfl
  constructor
  · intro h
    induction h with
    | refl => exact ⟨0, hStart, fun j hj => absurd hj (Nat.not_lt_zero j)⟩
    | tail _ hLast ih =>
        obtain ⟨k, rfl, hBefore⟩ := ih
        by_cases hGoes : strideNumber size step first k ≤
            last (strideState size step first body s k)
        · rw [strideRound_of_le k hGoes] at hLast
          refine ⟨k + 1, (Option.some.inj hLast).symm, ?_⟩
          intro j hj
          rcases Nat.lt_succ_iff_lt_or_eq.mp hj with hj | rfl
          · exact hBefore j hj
          · exact hGoes
        · simp [strideRound, Nat.not_le.mp hGoes] at hLast
  · rintro ⟨k, rfl, hBefore⟩
    rw [hStart]
    induction k with
    | zero => exact Visits.refl _
    | succ k ih =>
        apply (ih fun j hj => hBefore j (Nat.lt_succ_of_lt hj)).tail
        exact strideRound_of_le k (hBefore k (Nat.lt_succ_self k))

end Loop

section Break

variable {σ : Type u} {size step first bound : Nat} {stop : σ → Nat} {body : σ → Nat → Option σ}
  {s : σ}

/-- One round of a loop that the body may break off. -/
def breakRound (size step : Nat) (stop : σ → Nat) (body : σ → Nat → Option σ) (x : Nat × σ) :
    Option (Nat × σ) :=
  if x.1 < stop x.2 then (body x.2 x.1).map fun s => ((x.1 + step) % size, s) else none

/-- The number of rounds until the bound, when nothing wraps. -/
def strideCount (step first bound : Nat) : Nat :=
  if first < bound then (bound - 1 - first) / step + 1 else 0

theorem foldlM_strideNumbers_succ (k : Nat) :
    (strideNumbers size step first (k + 1)).foldlM body s =
      ((strideNumbers size step first k).foldlM body s).bind fun s' =>
        body s' (strideNumber size step first k) := by
  simp [strideNumbers, List.range_succ]

theorem foldlM_strideNumbers_of_le {j k : Nat} {s' : σ} (hjk : j ≤ k)
    (h : (strideNumbers size step first k).foldlM body s = some s') :
    ∃ before, (strideNumbers size step first j).foldlM body s = some before := by
  induction k generalizing s' with
  | zero =>
      rw [Nat.le_zero.mp hjk]
      exact ⟨s', h⟩
  | succ k ih =>
      rcases Nat.lt_or_eq_of_le hjk with hLess | rfl
      · rw [foldlM_strideNumbers_succ, Option.bind_eq_some_iff] at h
        obtain ⟨before, hBefore, -⟩ := h
        exact ih (Nat.le_of_lt_succ hLess) hBefore
      · exact ⟨s', h⟩

theorem strideNumber_of_lt {k : Nat} (h : first + k * step < size) :
    strideNumber size step first k = first + k * step :=
  Nat.mod_eq_of_lt h

theorem stride_le_stride {j k : Nat} (h : j ≤ k) : first + j * step ≤ first + k * step :=
  Nat.add_le_add_left (Nat.mul_le_mul_right step h) first

/-- The strides before the last one are below the bound, and no others. -/
theorem stride_lt_iff {k : Nat} (hStep : 0 < step) :
    first + k * step < bound ↔ k < strideCount step first bound := by
  unfold strideCount
  split
  · rename_i hLess
    rw [Nat.lt_succ_iff, Nat.le_div_iff_mul_le hStep]
    omega
  · rename_i hMore
    have hLe := Nat.le_add_right first (k * step)
    omega

variable (hStop : ∀ x, Visits (breakRound size step stop body) (first, s) x → stop x.2 = bound)

include hStop in
/-- The points of the loop are the beginnings of its rounds. -/
theorem visits_breakRound {x : Nat × σ} (hFirst : first < size) :
    Visits (breakRound size step stop body) (first, s) x ↔
      ∃ k s', (strideNumbers size step first k).foldlM body s = some s' ∧
        x = (strideNumber size step first k, s') ∧
        ∀ j < k, strideNumber size step first j < bound := by
  constructor
  · intro h
    induction h with
    | refl =>
        exact ⟨0, s, rfl, by rw [strideNumber_zero hFirst], fun j hj => absurd hj (Nat.not_lt_zero j)⟩
    | tail hHere hLast ih =>
        have hBound := hStop _ hHere
        obtain ⟨k, s', hFold, rfl, hBefore⟩ := ih
        unfold breakRound at hLast
        dsimp only at hBound hLast
        split at hLast
        · rename_i hGoes
          obtain ⟨after, hBody, rfl⟩ := Option.map_eq_some_iff.mp hLast
          refine ⟨k + 1, after, ?_, by rw [strideNumber_succ], ?_⟩
          · rw [foldlM_strideNumbers_succ, hFold]
            exact hBody
          · intro j hj
            rcases Nat.lt_succ_iff_lt_or_eq.mp hj with hj | rfl
            · exact hBefore j hj
            · rwa [hBound] at hGoes
        · cases hLast
  · rintro ⟨k, s', hFold, rfl, hBefore⟩
    induction k generalizing s' with
    | zero =>
        obtain rfl := Option.some.inj hFold
        rw [strideNumber_zero hFirst]
        exact Visits.refl _
    | succ k ih =>
        rw [foldlM_strideNumbers_succ, Option.bind_eq_some_iff] at hFold
        obtain ⟨before, hRest, hBody⟩ := hFold
        have hHere := ih before hRest fun j hj => hBefore j (Nat.lt_succ_of_lt hj)
        have hBound := hStop _ hHere
        have hGoes := hBefore k (Nat.lt_succ_self k)
        apply hHere.tail
        unfold breakRound
        dsimp only at hBound ⊢
        rw [hBound, if_pos hGoes, hBody, Option.map_some, strideNumber_succ]

include hStop in
/-- A round whose number is below the bound and whose body goes on leads to the next one. -/
theorem breakRound_of_fold {k : Nat} {s' : σ} (hFirst : first < size)
    (hBefore : ∀ j ≤ k, strideNumber size step first j < bound)
    (hFold : (strideNumbers size step first (k + 1)).foldlM body s = some s') :
    ∃ before, Visits (breakRound size step stop body) (first, s)
        (strideNumber size step first k, before) ∧
      breakRound size step stop body (strideNumber size step first k, before) =
        some (strideNumber size step first (k + 1), s') := by
  rw [foldlM_strideNumbers_succ, Option.bind_eq_some_iff] at hFold
  obtain ⟨before, hRest, hBody⟩ := hFold
  have hHere : Visits (breakRound size step stop body) (first, s)
      (strideNumber size step first k, before) :=
    (visits_breakRound hStop hFirst).mpr ⟨k, before, hRest, rfl, fun j hj => hBefore j hj.le⟩
  have hBound := hStop _ hHere
  refine ⟨before, hHere, ?_⟩
  unfold breakRound
  dsimp only at hBound ⊢
  rw [hBound, if_pos (hBefore k (Nat.le_refl k)), hBody, Option.map_some, strideNumber_succ]

include hStop in
/-- A loop whose numbers only grow has not wrapped where it is broken off or ends. -/
theorem Orderly.stride_lt (h : Orderly (breakRound size step stop body) Prod.fst (first, s))
    (hFirst : first < size) (hPos : 0 < step) (hStep : step < size) {s' : σ}
    (hWhole : (strideNumbers size step first (strideCount step first bound)).foldlM body s =
      some s') : ∀ k ≤ strideCount step first bound, first + k * step < size := by
  intro k hk
  induction k with
  | zero => simpa using hFirst
  | succ k ih =>
      have hHere := ih (by omega)
      obtain ⟨after, hFold⟩ := foldlM_strideNumbers_of_le hk hWhole
      have hBefore : ∀ j ≤ k, strideNumber size step first j < bound := by
        intro j hj
        rw [strideNumber_of_lt ((stride_le_stride hj).trans_lt hHere), stride_lt_iff hPos]
        omega
      obtain ⟨before, hVisits, hNext⟩ := breakRound_of_fold hStop hFirst hBefore hFold
      have hRises := h.rises _ _ hVisits hNext
      dsimp only at hRises
      rw [← strideNumber_succ, strideNumber_of_lt hHere] at hRises
      rw [Nat.add_mul, Nat.one_mul, ← Nat.add_assoc]
      by_contra hWraps
      rw [Nat.mod_eq_sub_mod (by omega), Nat.mod_eq_of_lt (by omega)] at hRises
      omega

/-- Nothing wraps in a loop that is broken off before, or ends where nothing wraps. -/
theorem stride_lt_of_fits (hFirst : first < size) (hPos : 0 < step) (hBound : bound ≤ size)
    (hFits : ((strideNumbers size step first (strideCount step first bound)).foldlM body s).isSome →
      first + strideCount step first bound * step < size) :
    ∀ k s', (strideNumbers size step first k).foldlM body s = some s' →
      (∀ j < k, strideNumber size step first j < bound) → first + k * step < size := by
  intro k
  induction k with
  | zero => exact fun _ _ _ => by simpa using hFirst
  | succ k ih =>
      intro s' hFold hBefore
      obtain ⟨before, hRest⟩ := foldlM_strideNumbers_of_le (Nat.le_succ k) hFold
      have hHere := ih before hRest fun j hj => hBefore j (Nat.lt_succ_of_lt hj)
      have hGoes := hBefore k (Nat.lt_succ_self k)
      rw [strideNumber_of_lt hHere, stride_lt_iff hPos] at hGoes
      rcases Nat.lt_or_eq_of_le (Nat.succ_le_of_lt hGoes) with hInner | hLast
      · exact ((stride_lt_iff hPos).mpr hInner).trans_le hBound
      · rw [Nat.succ_eq_add_one] at hLast
        rw [hLast]
        apply hFits
        rw [← hLast, hFold]
        rfl

include hStop in
/-- With one bound all along, the loop is orderly exactly if it is broken off before the
first number behind the bound is counted, or that number is below the size. -/
theorem orderly_breakRound_iff (hFirst : first < size) (hPos : 0 < step) (hStep : step < size)
    (hBound : bound ≤ size) :
    Orderly (breakRound size step stop body) Prod.fst (first, s) ↔
      (((strideNumbers size step first (strideCount step first bound)).foldlM body s).isSome →
        first + strideCount step first bound * step < size) := by
  constructor
  · intro h hWhole
    obtain ⟨s', hWhole⟩ := Option.isSome_iff_exists.mp hWhole
    exact h.stride_lt hStop hFirst hPos hStep hWhole _ (Nat.le_refl _)
  · intro hFits
    have hSmall := stride_lt_of_fits hFirst hPos hBound hFits
    have hLt : ∀ x, Visits (breakRound size step stop body) (first, s) x → x.1 < size := by
      intro x hx
      obtain ⟨k, s', -, rfl, -⟩ := (visits_breakRound hStop hFirst).mp hx
      exact Nat.mod_lt _ (by omega)
    apply Orderly.of_rises hLt
    intro x y hx hNext
    obtain ⟨k, before, hFold, rfl, hBefore⟩ := (visits_breakRound hStop hFirst).mp hx
    have hHereStop := hStop _ hx
    unfold breakRound at hNext
    dsimp only at hNext hHereStop
    split at hNext
    · rename_i hGoes
      obtain ⟨after, hBody, rfl⟩ := Option.map_eq_some_iff.mp hNext
      have hUpTo : ∀ j < k + 1, strideNumber size step first j < bound := by
        intro j hj
        rcases Nat.lt_succ_iff_lt_or_eq.mp hj with hj | rfl
        · exact hBefore j hj
        · rwa [hHereStop] at hGoes
      have hAfter := hSmall (k + 1) after
        (by rw [foldlM_strideNumbers_succ, hFold]; exact hBody) hUpTo
      rw [strideNumber_succ, strideNumber_of_lt hAfter,
        strideNumber_of_lt (hSmall k before hFold hBefore), Nat.add_mul]
      omega
    · cases hNext

end Break

section Whole

variable {σ : Type u} {size step first bound : Nat} {last : σ → Nat} {body : σ → Nat → σ} {s : σ}

/-- A loop that nothing breaks off. -/
theorem strideRound_eq_breakRound (size step : Nat) (last : σ → Nat) (body : σ → Nat → σ) :
    strideRound size step last body =
      breakRound size step (fun s => last s + 1) fun s k => some (body s k) := by
  funext x
  unfold strideRound breakRound
  by_cases h : last x.2 < x.1
  · rw [if_pos h, if_neg (Nat.not_lt.mpr h)]
  · rw [if_neg h, if_pos (Nat.lt_succ_of_le (Nat.not_lt.mp h)), Option.map_some]

/-- With one last number all along, the loop is orderly exactly if the first number behind
the last one is below the size. -/
theorem orderly_strideRound_iff
    (hLast : ∀ x, Visits (strideRound size step last body) (first, s) x → last x.2 = bound)
    (hFirst : first < size) (hPos : 0 < step) (hStep : step < size) (hBound : bound < size) :
    Orderly (strideRound size step last body) Prod.fst (first, s) ↔
      first + strideCount step first (bound + 1) * step < size := by
  rw [strideRound_eq_breakRound] at hLast ⊢
  have hWhole : ∀ (ids : List Nat) (s : σ), (ids.foldlM (fun s k => some (body s k)) s).isSome := by
    intro ids
    induction ids with
    | nil => exact fun _ => rfl
    | cons id ids ih => exact fun s => ih (body s id)
  rw [orderly_breakRound_iff (fun x hx => by rw [hLast x hx]) hFirst hPos hStep hBound]
  simp only [hWhole, true_implies]

end Whole

end Basis
