import Mathlib.Algebra.Order.Group.Nat
import Mathlib.Algebra.BigOperators.Group.List.Basic
import Mathlib.Data.List.Perm.Basic
import Peer.Storage.MemoryQuota

/-! What the assigner tells the consumers: each gets its minimum and one ratio of a
priority, as long as no sum of needs wraps. -/
namespace Storage

open Basis

namespace MemoryQuotaAssigner

variable {w : Nat} {consumers : List (MemoryUsageDescription w × Nat)} {left : Nat}

section Build

/-- The entry of a consumer before the quota left is assigned. -/
def freshEntry (consumer : MemoryUsageDescription w × Nat) : MemoryConsumptionEntry w :=
  ⟨consumer.2, consumer.1, if consumer.1.priority = .none then 0 else consumer.1.minimumSize⟩

def ofPriority (consumers : List (MemoryUsageDescription w × Nat)) (p : MemoryUsagePriority) :
    List (MemoryConsumptionEntry w) :=
  (consumers.filter fun consumer => consumer.1.priority = p).map freshEntry

/-- The entries of a priority that some consumer has. -/
def group (consumers : List (MemoryUsageDescription w × Nat)) (p : MemoryUsagePriority) :
    Option (MemoryUsagePriority × List (MemoryConsumptionEntry w)) :=
  if (ofPriority consumers p).isEmpty then none else some (p, ofPriority consumers p)

/-- The minima that are taken from the overall quota. -/
def minima (consumers : List (MemoryUsageDescription w × Nat)) : Nat :=
  ((consumers.filter fun consumer => consumer.1.priority ≠ .none).map (·.1.minimumSize)).sum

/-- What is built for the consumers so far. -/
def built (consumers : List (MemoryUsageDescription w × Nat)) (overall : Nat) :
    MemoryQuotaAssigner w where
  consumptionEntries := [.low, .normal, .high].filterMap (group consumers)
  quotaLeft := overall - minima consumers
  told := ofPriority consumers .none

theorem ofPriority_append (c : MemoryUsageDescription w × Nat) (p : MemoryUsagePriority) :
    ofPriority (consumers ++ [c]) p =
      ofPriority consumers p ++ if c.1.priority = p then [freshEntry c] else [] := by
  unfold ofPriority
  rw [List.filter_append, List.map_append]
  by_cases hp : c.1.priority = p <;> simp [hp]

/-- An entry is put at the end of its priority's list. -/
theorem update_groups (consumers : List (MemoryUsageDescription w × Nat))
    (c : MemoryUsageDescription w × Nat) (hUsed : c.1.priority ≠ .none) :
    OrderedMap.update ([MemoryUsagePriority.low, .normal, .high].filterMap (group consumers))
        c.1.priority [] (· ++ [freshEntry c]) =
      [MemoryUsagePriority.low, .normal, .high].filterMap (group (consumers ++ [c])) := by
  simp only [List.filterMap_cons, List.filterMap_nil, group, ofPriority_append]
  generalize ofPriority consumers .low = low
  generalize ofPriority consumers .normal = normal
  generalize ofPriority consumers .high = high
  cases hp : c.1.priority with
  | none => exact absurd hp hUsed
  | low =>
      simp only [reduceCtorEq, if_true, if_false, List.append_nil]
      cases low <;> cases normal <;> cases high <;> rfl
  | normal =>
      simp only [reduceCtorEq, if_true, if_false, List.append_nil]
      cases low <;> cases normal <;> cases high <;> rfl
  | high =>
      simp only [reduceCtorEq, if_true, if_false, List.append_nil]
      cases low <;> cases normal <;> cases high <;> rfl

theorem addConsumer_built (c : MemoryUsageDescription w × Nat) (overall : Nat) :
    (built consumers overall).addConsumer c = built (consumers ++ [c]) overall := by
  by_cases hp : c.1.priority = .none
  · have hGroups : group (consumers ++ [c]) = fun p =>
        if p = .none then group (consumers ++ [c]) p else group consumers p := by
      funext p
      by_cases hNone : p = .none
      · simp [hNone]
      · simp [group, ofPriority_append, hp, hNone, Ne.symm hNone]
    have hFresh : freshEntry c = ⟨c.2, c.1, 0⟩ := by simp [freshEntry, hp]
    unfold addConsumer
    rw [if_pos hp]
    unfold built
    rw [hGroups, ofPriority_append, if_pos hp, hFresh]
    simp [minima, hp, List.filterMap_cons]
  · have hUpdate := update_groups consumers c hp
    have hFresh : freshEntry c = ⟨c.2, c.1, c.1.minimumSize⟩ := by simp [freshEntry, hp]
    have hMinima : minima (consumers ++ [c]) = minima consumers + c.1.minimumSize := by
      simp [minima, hp]
    rw [hFresh] at hUpdate
    unfold addConsumer
    rw [if_neg hp]
    unfold built
    simp only [hUpdate, ofPriority_append, if_neg hp, List.append_nil, hMinima,
      MemoryQuotaAssigner.mk.injEq, true_and, and_true]
    split <;> omega

/-- `BuildConsumptionEntries` groups the consumers by their priority. -/
theorem foldl_addConsumer (overall : Nat) :
    consumers.foldl addConsumer ⟨[], overall, []⟩ = built consumers overall := by
  induction consumers using List.reverseRecOn with
  | nil => rfl
  | append_singleton done c ih =>
      rw [List.foldl_append, ih]
      exact addConsumer_built c overall

end Build

section Sums

/-- What the entries still need together. -/
def needs (entries : List (MemoryConsumptionEntry w)) : Nat :=
  (entries.map (·.additional)).sum

/-- The sum of `AssignQuotaUpToDesirableBytes` is exact in every group that is reached. -/
def SumsExact : Nat → ConsumptionEntries w → Prop
  | _, [] => True
  | quotaLeft, (_, entries) :: rest => quotaLeft ≠ 0 →
      additionalBytesNeeded entries = needs entries ∧ SumsExact (assignGroup quotaLeft entries).1 rest

theorem additionalBytesNeeded_eq (entries : List (MemoryConsumptionEntry w)) :
    additionalBytesNeeded entries = u32 (needs entries) := by
  have hFold : ∀ sum, entries.foldl (fun sum entry => u32 (sum + entry.additional)) (u32 sum) =
      u32 (sum + needs entries) := by
    induction entries with
    | nil => simp [needs]
    | cons entry rest ih =>
        intro sum
        rw [List.foldl_cons, u32_add_left, ih]
        simp [needs, Nat.add_assoc]
  have hZero : u32 0 = 0 := u32_of_lt (by omega)
  have hAll := hFold 0
  rwa [hZero, Nat.zero_add] at hAll

theorem additionalBytesNeeded_exact {entries : List (MemoryConsumptionEntry w)} :
    additionalBytesNeeded entries = needs entries ↔ needs entries < 2 ^ 32 := by
  rw [additionalBytesNeeded_eq]
  constructor
  · intro h
    rw [← h]
    exact u32_lt _
  · exact u32_of_lt

theorem assignGroup_left {entries : List (MemoryConsumptionEntry w)}
    (h : additionalBytesNeeded entries = needs entries) :
    (assignGroup left entries).1 = left - needs entries := by
  unfold assignGroup
  rw [h]
  split
  · exact (Nat.sub_eq_zero_of_le (by omega)).symm
  · rfl

/-- The sums are exact if and only if the needs of a priority fit whenever something is
left behind the priorities above it. -/
theorem sumsExact_iff (ps : List MemoryUsagePriority) :
    SumsExact left (ps.filterMap (group consumers)) ↔ ∀ done p rest, ps = done ++ p :: rest →
      (done.map fun q => needs (ofPriority consumers q)).sum < left →
        needs (ofPriority consumers p) < 2 ^ 32 := by
  induction ps generalizing left with
  | nil => simp [SumsExact]
  | cons first ps ih =>
      -- What is asked of the first priority, and of the others behind it.
      have hSplit : (∀ done p rest, first :: ps = done ++ p :: rest →
          (done.map fun q => needs (ofPriority consumers q)).sum < left →
            needs (ofPriority consumers p) < 2 ^ 32) ↔
          (0 < left → needs (ofPriority consumers first) < 2 ^ 32) ∧
            ∀ done p rest, ps = done ++ p :: rest →
              (done.map fun q => needs (ofPriority consumers q)).sum <
                left - needs (ofPriority consumers first) →
                needs (ofPriority consumers p) < 2 ^ 32 := by
        constructor
        · intro h
          refine ⟨h [] first ps rfl, ?_⟩
          intro done p rest hEq hLeft
          apply h (first :: done) p rest (by rw [hEq]; rfl)
          rw [List.map_cons, List.sum_cons]
          omega
        · rintro ⟨hFirst, hRest⟩ done p rest hEq hLeft
          cases done with
          | nil =>
              obtain ⟨rfl, -⟩ := List.cons.inj hEq
              exact hFirst hLeft
          | cons q done =>
              obtain ⟨rfl, hTail⟩ := List.cons.inj hEq
              apply hRest done p rest hTail
              rw [List.map_cons, List.sum_cons] at hLeft
              omega
      rw [hSplit, ← ih, List.filterMap_cons]
      cases hGroup : group consumers first with
      | none =>
          have hEmpty : ofPriority consumers first = [] := by
            by_contra hSome
            simp [group, hSome] at hGroup
          simp [hEmpty, needs]
      | some entries =>
          obtain rfl : (first, ofPriority consumers first) = entries := by
            unfold group at hGroup
            split at hGroup
            · cases hGroup
            · exact Option.some.inj hGroup
          show (left ≠ 0 → _) ↔ _
          rw [additionalBytesNeeded_exact, ← Nat.pos_iff_ne_zero]
          by_cases hLeft : 0 < left
          · simp only [hLeft, true_implies]
            apply and_congr_right
            intro hFits
            rw [assignGroup_left (additionalBytesNeeded_exact.mpr hFits)]
          · have hZero : left - needs (ofPriority consumers first) = 0 := by omega
            have hNone : ∀ gs : ConsumptionEntries w, SumsExact 0 gs := by
              intro gs
              cases gs <;> simp [SumsExact]
            simp [hLeft, hZero, hNone]

end Sums

section Loop

/-- The quotas of an entry that keeps what it has. -/
theorem grant_zero {entry : MemoryConsumptionEntry w} (h : entry.quota < 2 ^ w) :
    grant 0 entry = entry := by
  have hZero : u32 0 = 0 := u32_of_lt (by omega)
  unfold grant
  rw [share_zero, hZero, Nat.add_zero, sizeT, Nat.mod_eq_of_lt h]

/-- What the loop grants: one ratio to a priority, and nothing behind a priority that does
not get all it needs. -/
structure Granted (left : Nat) (gs : ConsumptionEntries w) (ratio : MemoryUsagePriority → ℚ) :
    Prop where
  nonneg : ∀ p, 0 ≤ ratio p
  le_one : ∀ p, ratio p ≤ 1
  first : ∀ g ∈ gs, ∀ g' ∈ gs, g.1 < g'.1 → ratio g.1 ≠ 0 → ratio g'.1 = 1
  sum_le : (gs.map fun g => (g.2.map fun entry => share (ratio g.1) entry.additional).sum).sum ≤ left
  loop_eq : assignQuotaUpToDesirableBytes left gs = gs.map fun g => (g.1, g.2.map (grant (ratio g.1)))

theorem granted_nothing {gs : ConsumptionEntries w}
    (hKept : ∀ g ∈ gs, ∀ entry ∈ g.2, entry.quota < 2 ^ w) : Granted 0 gs fun _ => 0 where
  nonneg _ := le_refl _
  le_one _ := zero_le_one
  first _ _ _ _ _ h := absurd rfl h
  sum_le := by simp
  loop_eq := by
    have hSame : gs.map (fun g => (g.1, g.2.map (grant 0))) = gs := by
      calc gs.map (fun g => (g.1, g.2.map (grant 0))) = gs.map id := by
            apply List.map_congr_left
            intro g hg
            have hEntries : g.2.map (grant 0) = g.2.map id :=
              List.map_congr_left fun entry hEntry => grant_zero (hKept g hg entry hEntry)
            rw [hEntries, List.map_id]
            rfl
        _ = gs := List.map_id gs
    cases gs <;> simp [assignQuotaUpToDesirableBytes, hSame]

/-- A priority above the others gets a ratio of its own; where it is not served fully,
nothing is left for them. -/
theorem Granted.cons {p : MemoryUsagePriority} {entries : List (MemoryConsumptionEntry w)}
    {rest : ConsumptionEntries w} {ratio : MemoryUsagePriority → ℚ} {r : ℚ}
    (h : Granted (left - needs entries) rest ratio) (hBelow : ∀ g ∈ rest, g.1 < p)
    (hLeft : left ≠ 0) (hNonneg : 0 ≤ r) (hOne : r ≤ 1) (hFull : r = 1 ∨ ∀ q, ratio q = 0)
    (hShares : (entries.map fun entry => share r entry.additional).sum + (left - needs entries) ≤ left)
    (hGroup : assignGroup left entries = (left - needs entries, entries.map (grant r))) :
    Granted left ((p, entries) :: rest) (Function.update ratio p r) := by
  have hOther : ∀ g ∈ rest, Function.update ratio p r g.1 = ratio g.1 :=
    fun g hg => Function.update_of_ne (hBelow g hg).ne _ _
  constructor
  · intro q
    by_cases hq : q = p
    · rw [hq, Function.update_self]
      exact hNonneg
    · rw [Function.update_of_ne hq]
      exact h.nonneg q
  · intro q
    by_cases hq : q = p
    · rw [hq, Function.update_self]
      exact hOne
    · rw [Function.update_of_ne hq]
      exact h.le_one q
  · intro g hg g' hg' hLt hSome
    rcases List.mem_cons.mp hg with rfl | hg
    · rcases List.mem_cons.mp hg' with rfl | hg'
      · exact absurd hLt (lt_irrefl _)
      · exact absurd (hBelow g' hg') (not_lt_of_gt hLt)
    · rw [hOther g hg] at hSome
      rcases List.mem_cons.mp hg' with rfl | hg'
      · rw [Function.update_self]
        exact hFull.resolve_right fun hNone => hSome (hNone _)
      · rw [hOther g' hg']
        exact h.first g hg g' hg' hLt hSome
  · have hSame : (rest.map fun g => (g.2.map fun entry =>
          share (Function.update ratio p r g.1) entry.additional).sum) =
        rest.map fun g => (g.2.map fun entry => share (ratio g.1) entry.additional).sum :=
      List.map_congr_left fun g hg => by rw [hOther g hg]
    have hRest := h.sum_le
    rw [List.map_cons, List.sum_cons, hSame, Function.update_self]
    exact (Nat.add_le_add_left hRest _).trans hShares
  · have hSame : (rest.map fun g => (g.1, g.2.map (grant (Function.update ratio p r g.1)))) =
        rest.map fun g => (g.1, g.2.map (grant (ratio g.1))) :=
      List.map_congr_left fun g hg => by rw [hOther g hg]
    rw [List.map_cons, hSame, Function.update_self, ← h.loop_eq]
    simp [assignQuotaUpToDesirableBytes, hLeft, hGroup]

/-- The loop serves the priorities from the highest down. -/
theorem exists_granted {gs : ConsumptionEntries w} (hDown : gs.Pairwise fun g g' => g'.1 < g.1)
    (hKept : ∀ g ∈ gs, ∀ entry ∈ g.2, entry.quota < 2 ^ w) (hExact : SumsExact left gs) :
    ∃ ratio, Granted left gs ratio := by
  induction gs generalizing left with
  | nil =>
      have hNone : ∀ g ∈ ([] : ConsumptionEntries w), ∀ entry ∈ g.2, entry.quota < 2 ^ w := by
        simp
      exact ⟨_, { granted_nothing hNone with sum_le := by simp, loop_eq := rfl }⟩
  | cons g rest ih =>
      obtain ⟨p, entries⟩ := g
      obtain ⟨hBelow, hDown⟩ := List.pairwise_cons.mp hDown
      have hKeptRest := fun g hg => hKept g (List.mem_cons_of_mem _ hg)
      by_cases hLeft : left = 0
      · subst hLeft
        exact ⟨_, granted_nothing hKept⟩
      obtain ⟨hSum, hRest⟩ := hExact hLeft
      rw [assignGroup_left hSum] at hRest
      by_cases hShort : left < needs entries
      · have hPos : 0 < needs entries := by omega
        have hZero : left - needs entries = 0 := by omega
        have hNothing : Granted (left - needs entries) rest fun _ => 0 := by
          rw [hZero]
          exact granted_nothing hKeptRest
        have hShares : ((entries.map (·.additional)).map
            (share ((left : ℚ) / needs entries))).sum ≤ left := sum_share_le_left rfl hPos
        rw [List.map_map] at hShares
        have hLe : (left : ℚ) ≤ needs entries := Nat.cast_le.mpr hShort.le
        have hNonneg : (0 : ℚ) ≤ left / needs entries := by positivity
        refine ⟨_, hNothing.cons hBelow hLeft hNonneg ?_ (Or.inr fun _ => rfl) ?_ ?_⟩
        · exact (div_le_one (Nat.cast_pos.mpr hPos)).mpr hLe
        · rw [hZero]
          exact hShares
        · unfold assignGroup
          rw [hSum, if_pos hShort, hZero]
      · obtain ⟨ratio, hGranted⟩ := ih hDown hKeptRest hRest
        refine ⟨_, hGranted.cons hBelow hLeft zero_le_one (le_refl 1) (Or.inl rfl) ?_ ?_⟩
        · have hAll : (entries.map fun entry => share 1 entry.additional).sum = needs entries := by
            simp [needs]
          omega
        · unfold assignGroup
          rw [hSum, if_neg hShort]

end Loop

section Told

/-- The priorities that take part, from the highest down. -/
theorem groups_down (consumers : List (MemoryUsageDescription w × Nat)) :
    (([.high, .normal, .low] : List MemoryUsagePriority).filterMap (group consumers)).Pairwise
      fun g g' => g'.1 < g.1 := by
  rw [List.pairwise_filterMap]
  have hGroup : ∀ p g, group consumers p = some g → g.1 = p := by
    intro p g h
    unfold group at h
    split at h
    · cases h
    · rw [← Option.some.inj h]
  have hDown : ([.high, .normal, .low] : List MemoryUsagePriority).Pairwise fun p q => q < p := by
    decide
  apply hDown.imp
  intro p q hLt g hg g' hg'
  rw [hGroup p g hg, hGroup q g' hg']
  exact hLt

theorem mem_groups {ps : List MemoryUsagePriority}
    {g : MemoryUsagePriority × List (MemoryConsumptionEntry w)}
    (h : g ∈ ps.filterMap (group consumers)) : g.1 ∈ ps ∧ g.2 = ofPriority consumers g.1 := by
  obtain ⟨p, hp, hGroup⟩ := List.mem_filterMap.mp h
  unfold group at hGroup
  split at hGroup
  · cases hGroup
  · obtain rfl := Option.some.inj hGroup
    exact ⟨hp, rfl⟩

theorem sum_groups {f : MemoryUsagePriority → MemoryConsumptionEntry w → Nat}
    (ps : List MemoryUsagePriority) :
    ((ps.filterMap (group consumers)).map fun g => (g.2.map (f g.1)).sum).sum =
      (ps.map fun p => ((ofPriority consumers p).map (f p)).sum).sum := by
  induction ps with
  | nil => rfl
  | cons p ps ih =>
      by_cases hEmpty : ofPriority consumers p = []
      · simpa [List.filterMap_cons, group, hEmpty] using ih
      · simpa [List.filterMap_cons, group, hEmpty] using ih

theorem flatMap_groups {f : MemoryUsagePriority → MemoryConsumptionEntry w → MemoryConsumptionEntry w}
    (ps : List MemoryUsagePriority) :
    (ps.filterMap (group consumers)).flatMap (fun g => g.2.map (f g.1)) =
      ps.flatMap fun p => (ofPriority consumers p).map (f p) := by
  induction ps with
  | nil => rfl
  | cons p ps ih =>
      by_cases hEmpty : ofPriority consumers p = []
      · simpa [List.filterMap_cons, group, hEmpty] using ih
      · simpa [List.filterMap_cons, group, hEmpty] using ih

/-- The consumers, one priority behind the other. -/
theorem perm_of_priorities {α : Type} (consumers : List (MemoryUsageDescription w × Nat))
    (f : MemoryUsageDescription w × Nat → α) :
    (([.none, .low, .normal, .high] : List MemoryUsagePriority).flatMap fun p =>
      (consumers.filter fun c => c.1.priority = p).map f).Perm (consumers.map f) := by
  induction consumers with
  | nil => rfl
  | cons c rest ih =>
      simp only [List.flatMap_cons, List.flatMap_nil, List.append_nil] at ih ⊢
      cases hp : c.1.priority with
      | none => simpa [hp] using ih
      | low =>
          simp only [List.filter_cons, hp, reduceCtorEq, decide_false, decide_true, if_true,
            Bool.false_eq_true, if_false, List.map_cons, List.cons_append]
          exact List.perm_middle.trans (ih.cons _)
      | normal =>
          simp only [List.filter_cons, hp, reduceCtorEq, decide_false, decide_true, if_true,
            Bool.false_eq_true, if_false, List.map_cons, List.cons_append]
          rw [← List.append_assoc] at ih ⊢
          exact List.perm_middle.trans (ih.cons _)
      | high =>
          simp only [List.filter_cons, hp, reduceCtorEq, decide_false, decide_true, if_true,
            Bool.false_eq_true, if_false, List.map_cons]
          rw [← List.append_assoc, ← List.append_assoc] at ih ⊢
          exact List.perm_middle.trans (ih.cons _)

end Told

end MemoryQuotaAssigner

end Storage
