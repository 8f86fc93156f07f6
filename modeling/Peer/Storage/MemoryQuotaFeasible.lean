import Peer.Storage.MemoryQuotaShares

/-! When the quotas are feasible and served by priority: exactly if the consumers are
described consistently and the needs of every priority that is reached fit 32 bits. -/
namespace Storage

open Basis

namespace MemoryQuotaAssigner

variable {w : Nat} {consumers : List (MemoryUsageDescription w)} {overallBytes : UInt32}

/-- What the consumers of a priority need beyond their minima. -/
def needOf (consumers : List (MemoryUsageDescription w)) (p : MemoryUsagePriority) : Nat :=
  ((consumers.filter fun c => c.priority = p).map fun c => c.desirableSize - c.minimumSize).sum

def needAbove (consumers : List (MemoryUsageDescription w)) (p : MemoryUsagePriority) : Nat :=
  ((([.high, .normal, .low] : List MemoryUsagePriority).filter fun q => p < q).map
    (needOf consumers)).sum

/-- The consumers are told feasible quotas, the higher priorities first. -/
structure QuotasFeasible (consumers : List (MemoryUsageDescription w)) (overallBytes : UInt32) :
    Prop where
  told_once : ((assignQuota consumers overallBytes).map fun e => (e.usage, e.consumer)).Perm
    consumers.zipIdx
  minimum_le : ∀ e ∈ assignQuota consumers overallBytes, e.usage.minimumSize ≤ e.quota
  le_desirable : ∀ e ∈ assignQuota consumers overallBytes, e.quota ≤ e.usage.desirableSize
  sum_le : ((assignQuota consumers overallBytes).map (·.quota)).sum ≤
    max overallBytes.toNat (consumers.map (·.minimumSize)).sum
  prioritised : ∀ e ∈ assignQuota consumers overallBytes,
    ∀ e' ∈ assignQuota consumers overallBytes, e.usage.priority < e'.usage.priority →
      e.usage.minimumSize < e.quota → e'.quota = e'.usage.desirableSize
  /-- One ratio for the consumers of a priority. -/
  shared : ∀ p, ∃ ratio : ℚ, 0 ≤ ratio ∧ ∀ e ∈ assignQuota consumers overallBytes,
    e.usage.priority = p →
      e.quota = e.usage.minimumSize + share ratio (e.usage.desirableSize - e.usage.minimumSize)
  sums_exact : SumsExact (buildConsumptionEntries consumers overallBytes).quotaLeft
    (buildConsumptionEntries consumers overallBytes).consumptionEntries.reverse

/-- The descriptions are consistent, and the needs of a priority fit 32 bits if the overall
quota reaches it. -/
structure NeedsFit (consumers : List (MemoryUsageDescription w)) (overallBytes : UInt32) :
    Prop where
  ordered : ∀ c ∈ consumers, c.minimumSize ≤ c.desirableSize
  unused : ∀ c ∈ consumers, c.priority = .none → c.minimumSize = 0
  fits : ∀ p, p ≠ .none →
    (consumers.map (·.minimumSize)).sum + needAbove consumers p < overallBytes.toNat →
      needOf consumers p < 2 ^ 32

section Sums

theorem build_eq : buildConsumptionEntries consumers overallBytes =
    built consumers.zipIdx overallBytes.toNat :=
  foldl_addConsumer overallBytes.toNat

theorem map_zipIdx_filter {α : Type} (consumers : List (MemoryUsageDescription w))
    (P : MemoryUsageDescription w → Bool)
    (f : MemoryUsageDescription w → α) :
    (consumers.zipIdx.filter fun c => P c.1).map (fun c => f c.1) = (consumers.filter P).map f := by
  have hFst : consumers.zipIdx.map Prod.fst = consumers := List.zipIdx_map_fst 0 consumers
  calc (consumers.zipIdx.filter fun c => P c.1).map (fun c => f c.1)
      = ((consumers.zipIdx.map Prod.fst).filter P).map f := by
        rw [List.filter_map, List.map_map]
        rfl
    _ = (consumers.filter P).map f := by rw [hFst]

theorem additional_of_ordered {entry : MemoryConsumptionEntry w}
    (h : entry.usage.minimumSize ≤ entry.usage.desirableSize) :
    entry.additional = entry.usage.desirableSize - entry.usage.minimumSize := by
  have hLt := entry.usage.desirableSize_lt
  unfold MemoryConsumptionEntry.additional sizeT
  rw [show entry.usage.desirableSize + 2 ^ w - entry.usage.minimumSize =
      entry.usage.desirableSize - entry.usage.minimumSize + 2 ^ w by omega, Nat.add_mod_right]
  exact Nat.mod_eq_of_lt (by omega)

theorem needs_ofPriority (h : ∀ c ∈ consumers, c.minimumSize ≤ c.desirableSize)
    (p : MemoryUsagePriority) : needs (ofPriority consumers.zipIdx p) = needOf consumers p := by
  unfold needs ofPriority needOf
  rw [← map_zipIdx_filter _ (fun c => decide (c.priority = p)), List.map_map]
  congr 1
  apply List.map_congr_left
  intro c hc
  have hMem := List.fst_mem_of_mem_zipIdx (List.mem_filter.mp hc).1
  exact additional_of_ordered (h c.1 hMem)

theorem minima_eq (h : ∀ c ∈ consumers, c.priority = .none → c.minimumSize = 0) :
    minima consumers.zipIdx = (consumers.map (·.minimumSize)).sum := by
  unfold minima
  rw [map_zipIdx_filter _ (fun c => decide (c.priority ≠ .none)) (·.minimumSize)]
  induction consumers with
  | nil => rfl
  | cons c rest ih =>
      have hRest := ih fun c hc => h c (List.mem_cons_of_mem _ hc)
      by_cases hp : c.priority = .none
      · have hZero := h c List.mem_cons_self hp
        simpa [hp, hZero] using hRest
      · simpa [hp] using hRest

theorem needAbove_eq (consumers : List (MemoryUsageDescription w)) :
    needAbove consumers .high = 0 ∧ needAbove consumers .normal = needOf consumers .high ∧
      needAbove consumers .low = needOf consumers .high + needOf consumers .normal :=
  ⟨rfl, Nat.add_zero _, rfl⟩

/-- The sums are exact just if the needs of the priorities that are reached fit. -/
theorem sumsExact_built (h : ∀ c ∈ consumers, c.minimumSize ≤ c.desirableSize) :
    SumsExact (buildConsumptionEntries consumers overallBytes).quotaLeft
        (buildConsumptionEntries consumers overallBytes).consumptionEntries.reverse ↔
      ∀ p, p ≠ .none → minima consumers.zipIdx + needAbove consumers p < overallBytes.toNat →
        needOf consumers p < 2 ^ 32 := by
  have hDown : (built consumers.zipIdx overallBytes.toNat).consumptionEntries.reverse =
      ([.high, .normal, .low] : List MemoryUsagePriority).filterMap (group consumers.zipIdx) :=
    (List.filterMap_reverse).symm
  obtain ⟨hHigh, hNormal, hLow⟩ := needAbove_eq consumers
  rw [build_eq, hDown, sumsExact_iff]
  simp only [needs_ofPriority h, built]
  constructor
  · intro hFits p hp hReached
    cases p with
    | none => exact absurd rfl hp
    | high =>
        apply hFits [] .high [.normal, .low] rfl
        simp only [List.map_nil, List.sum_nil]
        omega
    | normal =>
        apply hFits [.high] .normal [.low] rfl
        simp only [List.map_cons, List.map_nil, List.sum_cons, List.sum_nil]
        omega
    | low =>
        apply hFits [.high, .normal] .low [] rfl
        simp only [List.map_cons, List.map_nil, List.sum_cons, List.sum_nil]
        omega
  · intro hFits done p rest hEq hReached
    -- At most two priorities stand before one of the three.
    rcases done with _ | ⟨a, _ | ⟨b, _ | ⟨c, done⟩⟩⟩
    · obtain ⟨rfl, -⟩ := List.cons.inj hEq
      apply hFits _ (by decide)
      simp only [List.map_nil, List.sum_nil] at hReached
      omega
    · simp only [List.cons_append, List.nil_append, List.cons.injEq] at hEq
      obtain ⟨rfl, rfl, -⟩ := hEq
      apply hFits _ (by decide)
      simp only [List.map_cons, List.map_nil, List.sum_cons, List.sum_nil] at hReached
      omega
    · simp only [List.cons_append, List.nil_append, List.cons.injEq] at hEq
      obtain ⟨rfl, rfl, rfl, -⟩ := hEq
      apply hFits _ (by decide)
      simp only [List.map_cons, List.map_nil, List.sum_cons, List.sum_nil] at hReached
      omega
    · simp at hEq

end Sums

section Granted

variable {ratio : MemoryUsagePriority → ℚ}

/-- The entry that a consumer is told. -/
def granted (ratio : MemoryUsagePriority → ℚ) (c : MemoryUsageDescription w × Nat) :
    MemoryConsumptionEntry w :=
  grant (ratio c.1.priority) (freshEntry c)

theorem freshEntry_quota_lt (c : MemoryUsageDescription w × Nat) : (freshEntry c).quota < 2 ^ w := by
  unfold freshEntry
  split
  · exact Nat.two_pow_pos w
  · exact c.1.minimumSize_lt

theorem map_filter_priority {α : Type} (f : MemoryUsagePriority → MemoryConsumptionEntry w → α)
    (zs : List (MemoryUsageDescription w × Nat)) (p : MemoryUsagePriority) :
    (zs.filter fun c => c.1.priority = p).map (fun c => f c.1.priority (freshEntry c)) =
      (ofPriority zs p).map (f p) := by
  unfold ofPriority
  rw [List.map_map]
  apply List.map_congr_left
  intro c hc
  have hp : c.1.priority = p := by simpa using (List.mem_filter.mp hc).2
  simp [hp]

/-- The ratio of a priority; what is told the unused consumers is not changed. -/
structure Ratios (zs : List (MemoryUsageDescription w × Nat)) (left : Nat)
    (told : List (MemoryConsumptionEntry w)) (ratio : MemoryUsagePriority → ℚ) : Prop where
  nonneg : ∀ p, 0 ≤ ratio p
  le_one : ∀ p, ratio p ≤ 1
  none_eq : ratio .none = 0
  first : ∀ c ∈ zs, ∀ c' ∈ zs, c.1.priority < c'.1.priority → ratio c.1.priority ≠ 0 →
    ratio c'.1.priority = 1
  sum_le : (zs.map fun c => share (ratio c.1.priority) (freshEntry c).additional).sum ≤ left
  perm : told.Perm (zs.map (granted ratio))

theorem mem_group {zs : List (MemoryUsageDescription w × Nat)}
    {c : MemoryUsageDescription w × Nat} (hc : c ∈ zs) (hUsed : c.1.priority ≠ .none) :
    (c.1.priority, ofPriority zs c.1.priority) ∈
      ([.high, .normal, .low] : List MemoryUsagePriority).filterMap (group zs) := by
  have hMem : freshEntry c ∈ ofPriority zs c.1.priority := by
    apply List.mem_map_of_mem
    simp [hc]
  have hSome : group zs c.1.priority = some (c.1.priority, ofPriority zs c.1.priority) := by
    have hNonempty := List.ne_nil_of_mem hMem
    simp [group, hNonempty]
  apply List.mem_filterMap.mpr ⟨c.1.priority, _, hSome⟩
  cases hp : c.1.priority <;> simp_all

/-- With exact sums every priority has a ratio, and what all are granted is not more than
what is left behind the minima. -/
theorem exists_ratios (hExact : SumsExact (buildConsumptionEntries consumers overallBytes).quotaLeft
      (buildConsumptionEntries consumers overallBytes).consumptionEntries.reverse) :
    ∃ ratio, Ratios consumers.zipIdx (overallBytes.toNat - minima consumers.zipIdx)
      (assignQuota consumers overallBytes) ratio := by
  have hDown : (built consumers.zipIdx overallBytes.toNat).consumptionEntries.reverse =
      ([.high, .normal, .low] : List MemoryUsagePriority).filterMap (group consumers.zipIdx) :=
    (List.filterMap_reverse).symm
  have hUp : (([.high, .normal, .low] : List MemoryUsagePriority).filterMap
      (group consumers.zipIdx)).reverse =
      ([.low, .normal, .high] : List MemoryUsagePriority).filterMap (group consumers.zipIdx) :=
    (List.filterMap_reverse).symm
  rw [build_eq, hDown] at hExact
  generalize hzs : consumers.zipIdx = zs at *
  have hKept : ∀ g ∈ ([.high, .normal, .low] : List MemoryUsagePriority).filterMap (group zs),
      ∀ entry ∈ g.2, entry.quota < 2 ^ w := by
    intro g hg entry hEntry
    rw [(mem_groups hg).2] at hEntry
    obtain ⟨c, -, rfl⟩ := List.mem_map.mp hEntry
    exact freshEntry_quota_lt c
  obtain ⟨ratio, hGranted⟩ := exists_granted (groups_down zs) hKept hExact
  have hUsed : ∀ p, p ≠ .none → Function.update ratio .none 0 p = ratio p :=
    fun p hp => Function.update_of_ne hp _ _
  have hNone : Function.update ratio MemoryUsagePriority.none 0 .none = 0 :=
    Function.update_self _ _ _
  refine ⟨Function.update ratio .none 0, ?_, ?_, hNone, ?_, ?_, ?_⟩
  · intro p
    by_cases hp : p = .none
    · rw [hp, hNone]
    · rw [hUsed p hp]
      exact hGranted.nonneg p
  · intro p
    by_cases hp : p = .none
    · rw [hp, hNone]
      exact zero_le_one
    · rw [hUsed p hp]
      exact hGranted.le_one p
  · intro c hc c' hc' hLt hSome
    have hp : c.1.priority ≠ .none := fun h => hSome (h ▸ hNone)
    have hp' : c'.1.priority ≠ .none := by
      intro h
      rw [h] at hLt
      revert hLt
      cases c.1.priority <;> decide
    rw [hUsed _ hp] at hSome
    rw [hUsed _ hp']
    exact hGranted.first _ (mem_group hc hp) _ (mem_group hc' hp') hLt hSome
  · have hSum := hGranted.sum_le
    have hPerm := perm_of_priorities zs fun c =>
      share (Function.update ratio .none 0 c.1.priority) (freshEntry c).additional
    rw [sum_groups (f := fun p entry => share (ratio p) entry.additional)] at hSum
    rw [← hPerm.sum_eq]
    have hParts := fun p => map_filter_priority
      (fun p entry => share (Function.update ratio .none 0 p) entry.additional) zs p
    simp only [List.flatMap_cons, List.flatMap_nil, List.append_nil, List.sum_append, hParts,
      hNone, share_zero, hUsed _ (show MemoryUsagePriority.low ≠ .none by decide),
      hUsed _ (show MemoryUsagePriority.normal ≠ .none by decide),
      hUsed _ (show MemoryUsagePriority.high ≠ .none by decide)]
    simp only [List.map_cons, List.map_nil, List.sum_cons, List.sum_nil] at hSum
    have hZero : ((ofPriority zs .none).map fun _ => 0).sum = 0 := by simp
    have hLeft : (built zs overallBytes.toNat).quotaLeft = overallBytes.toNat - minima zs := rfl
    omega
  · have hTold : assignQuota consumers overallBytes = ofPriority zs .none ++
        ([.low, .normal, .high] : List MemoryUsagePriority).flatMap fun p =>
          (ofPriority zs p).map (grant (ratio p)) := by
      unfold assignQuota
      dsimp only
      rw [build_eq, hzs, hDown, show (built zs overallBytes.toNat).quotaLeft = _ from rfl,
        hGranted.loop_eq, ← List.map_reverse, hUp, List.flatMap_map, ← flatMap_groups]
      rfl
    have hParts := fun p => map_filter_priority
      (fun p entry => grant (Function.update ratio .none 0 p) entry) zs p
    have hUnused : (ofPriority zs .none).map (grant 0) = ofPriority zs .none := by
      calc (ofPriority zs .none).map (grant 0) = (ofPriority zs .none).map id := by
            apply List.map_congr_left
            intro entry hEntry
            obtain ⟨c, -, rfl⟩ := List.mem_map.mp hEntry
            exact grant_zero (freshEntry_quota_lt c)
        _ = ofPriority zs .none := List.map_id _
    have hPerm := perm_of_priorities zs fun c =>
      grant (Function.update ratio .none 0 c.1.priority) (freshEntry c)
    simp only [List.flatMap_cons, List.flatMap_nil, List.append_nil, hParts, hNone, hUnused,
      hUsed _ (show MemoryUsagePriority.low ≠ .none by decide),
      hUsed _ (show MemoryUsagePriority.normal ≠ .none by decide),
      hUsed _ (show MemoryUsagePriority.high ≠ .none by decide)] at hPerm
    rw [hTold]
    simp only [List.flatMap_cons, List.flatMap_nil, List.append_nil]
    exact hPerm

/-- The quota that a consumer is told. -/
theorem granted_quota {zs : List (MemoryUsageDescription w × Nat)} {told : List (MemoryConsumptionEntry w)}
    {left : Nat} {ratio : MemoryUsagePriority → ℚ} (h : Ratios zs left told ratio)
    (hLeft : left < 2 ^ 32) {c : MemoryUsageDescription w × Nat} (hc : c ∈ zs)
    (hOrdered : c.1.minimumSize ≤ c.1.desirableSize)
    (hUnused : c.1.priority = .none → c.1.minimumSize = 0) :
    (granted ratio c).quota = c.1.minimumSize +
      share (ratio c.1.priority) (c.1.desirableSize - c.1.minimumSize) := by
  have hAdditional : (freshEntry c).additional = c.1.desirableSize - c.1.minimumSize :=
    additional_of_ordered hOrdered
  have hFresh : (freshEntry c).quota = c.1.minimumSize := by
    show (if c.1.priority = .none then 0 else c.1.minimumSize) = c.1.minimumSize
    split
    · rename_i hNone
      exact (hUnused hNone).symm
    · rfl
  have hShare : share (ratio c.1.priority) (c.1.desirableSize - c.1.minimumSize) ≤
      c.1.desirableSize - c.1.minimumSize := share_le (h.le_one _)
  have hSmall : share (ratio c.1.priority) (c.1.desirableSize - c.1.minimumSize) ≤ left := by
    rw [← hAdditional]
    exact (List.single_le_sum (fun _ _ => Nat.zero_le _) _
      (List.mem_map_of_mem (f := fun c => share (ratio c.1.priority) (freshEntry c).additional)
        hc)).trans h.sum_le
  have hLt := c.1.desirableSize_lt
  show sizeT w ((freshEntry c).quota + u32 (share (ratio c.1.priority) (freshEntry c).additional)) = _
  rw [hAdditional, hFresh, u32_of_lt (by omega), sizeT, Nat.mod_eq_of_lt (by omega)]

end Granted

section Claim

theorem exists_place {c : MemoryUsageDescription w} (hc : c ∈ consumers) :
    ∃ i, (c, i) ∈ consumers.zipIdx := by
  have hFst : consumers.zipIdx.map Prod.fst = consumers := List.zipIdx_map_fst 0 consumers
  rw [← hFst] at hc
  obtain ⟨⟨_, i⟩, hMem, rfl⟩ := List.mem_map.mp hc
  exact ⟨i, hMem⟩

theorem mem_told (h : QuotasFeasible consumers overallBytes) {c : MemoryUsageDescription w}
    (hc : c ∈ consumers) : ∃ e ∈ assignQuota consumers overallBytes, e.usage = c := by
  obtain ⟨i, hi⟩ := exists_place hc
  obtain ⟨e, he, hEq⟩ := List.mem_map.mp (h.told_once.mem_iff.mpr hi)
  exact ⟨e, he, congrArg Prod.fst hEq⟩

/-- A consumer that is not used is told nothing. -/
theorem told_unused {c : MemoryUsageDescription w} (hc : c ∈ consumers) (hNone : c.priority = .none) :
    ∃ e ∈ assignQuota consumers overallBytes, e.usage = c ∧ e.quota = 0 := by
  obtain ⟨i, hi⟩ := exists_place hc
  refine ⟨freshEntry (c, i), ?_, rfl, by simp [freshEntry, hNone]⟩
  apply List.mem_append_left
  rw [build_eq]
  apply List.mem_map_of_mem
  simp [hi, hNone]

theorem NeedsFit.of_feasible (h : QuotasFeasible consumers overallBytes) :
    NeedsFit consumers overallBytes := by
  have hOrdered : ∀ c ∈ consumers, c.minimumSize ≤ c.desirableSize := by
    intro c hc
    obtain ⟨e, he, rfl⟩ := mem_told h hc
    exact (h.minimum_le e he).trans (h.le_desirable e he)
  have hUnused : ∀ c ∈ consumers, c.priority = .none → c.minimumSize = 0 := by
    intro c hc hNone
    obtain ⟨e, he, rfl, hZero⟩ := told_unused hc hNone
    have hLe := h.minimum_le e he
    omega
  refine ⟨hOrdered, hUnused, ?_⟩
  rw [← minima_eq hUnused]
  exact (sumsExact_built hOrdered).mp h.sums_exact

theorem NeedsFit.feasible (h : NeedsFit consumers overallBytes) :
    QuotasFeasible consumers overallBytes := by
  have hFits := h.fits
  rw [← minima_eq h.unused] at hFits
  have hExact := (sumsExact_built h.ordered).mpr hFits
  obtain ⟨ratio, hRatios⟩ := exists_ratios hExact
  have hLeft : overallBytes.toNat - minima consumers.zipIdx < 2 ^ 32 :=
    (Nat.sub_le _ _).trans_lt overallBytes.toNat_lt
  have hQuota : ∀ c ∈ consumers.zipIdx, (granted ratio c).quota = c.1.minimumSize +
      share (ratio c.1.priority) (c.1.desirableSize - c.1.minimumSize) := by
    intro c hc
    have hMem := List.fst_mem_of_mem_zipIdx hc
    exact granted_quota hRatios hLeft hc (h.ordered _ hMem) (h.unused _ hMem)
  have hTold : ∀ e ∈ assignQuota consumers overallBytes,
      ∃ c ∈ consumers.zipIdx, granted ratio c = e := fun e he =>
    List.mem_map.mp (hRatios.perm.mem_iff.mp he)
  constructor
  · have hNamed := hRatios.perm.map fun e => (e.usage, e.consumer)
    rw [List.map_map] at hNamed
    have hSame : consumers.zipIdx.map ((fun e => (e.usage, e.consumer)) ∘ granted ratio) =
        consumers.zipIdx := List.map_id _
    rwa [hSame] at hNamed
  · intro e he
    obtain ⟨c, hc, rfl⟩ := hTold e he
    rw [hQuota c hc]
    exact Nat.le_add_right _ _
  · intro e he
    obtain ⟨c, hc, rfl⟩ := hTold e he
    have hShare : share (ratio c.1.priority) (c.1.desirableSize - c.1.minimumSize) ≤
        c.1.desirableSize - c.1.minimumSize := share_le (hRatios.le_one _)
    have hOrdered := h.ordered _ (List.fst_mem_of_mem_zipIdx hc)
    rw [hQuota c hc]
    show _ ≤ c.1.desirableSize
    omega
  · have hSum : ((assignQuota consumers overallBytes).map (·.quota)).sum =
        (consumers.zipIdx.map (·.1.minimumSize)).sum + (consumers.zipIdx.map fun c =>
          share (ratio c.1.priority) (freshEntry c).additional).sum := by
      rw [(hRatios.perm.map _).sum_eq, List.map_map, ← List.sum_map_add]
      congr 1
      apply List.map_congr_left
      intro c hc
      have hAdditional : (freshEntry c).additional = c.1.desirableSize - c.1.minimumSize :=
        additional_of_ordered (h.ordered _ (List.fst_mem_of_mem_zipIdx hc))
      rw [hAdditional]
      exact hQuota c hc
    have hMinima : (consumers.zipIdx.map (·.1.minimumSize)).sum = minima consumers.zipIdx := by
      have hAll := map_zipIdx_filter consumers (fun _ => true) (·.minimumSize)
      rw [List.filter_true, List.filter_true] at hAll
      rw [minima_eq h.unused, hAll]
    have hGranted := hRatios.sum_le
    rw [← minima_eq h.unused, hSum, hMinima]
    omega
  · intro e he e' he' hLt hMore
    obtain ⟨c, hc, rfl⟩ := hTold e he
    obtain ⟨c', hc', rfl⟩ := hTold e' he'
    have hSome : ratio c.1.priority ≠ 0 := by
      intro hZero
      rw [hQuota c hc, hZero, share_zero] at hMore
      exact absurd hMore (lt_irrefl _)
    have hAll := hRatios.first c hc c' hc' hLt hSome
    have hOrdered := h.ordered _ (List.fst_mem_of_mem_zipIdx hc')
    rw [hQuota c' hc', hAll, share_one]
    show _ = c'.1.desirableSize
    omega
  · intro p
    refine ⟨ratio p, hRatios.nonneg p, ?_⟩
    intro e he hp
    obtain ⟨c, hc, rfl⟩ := hTold e he
    rw [← hp]
    exact hQuota c hc
  · exact hExact

/-- What is told is feasible and goes by priority exactly if the needs fit. -/
theorem quotasFeasible_iff :
    QuotasFeasible consumers overallBytes ↔ NeedsFit consumers overallBytes :=
  ⟨NeedsFit.of_feasible, NeedsFit.feasible⟩

/-- The needs of two consumers wrap to nothing, so both are granted all they need. -/
theorem quotasFeasible_fails : ∃ (consumers : List (MemoryUsageDescription 32)) (overallBytes : UInt32),
    (∀ c ∈ consumers, c.minimumSize ≤ c.desirableSize ∧ c.priority ≠ .none) ∧
      ¬ QuotasFeasible consumers overallBytes ∧
      ((assignQuota consumers overallBytes).map (·.quota)).sum = 2 ^ 32 ∧
      overallBytes.toNat = 100 := by
  let consumer : MemoryUsageDescription 32 := ⟨0, 2 ^ 31, .high, by decide, by decide⟩
  refine ⟨[consumer, consumer], 100, by decide, ?_, by decide +kernel, rfl⟩
  rw [quotasFeasible_iff]
  intro h
  have hFits := h.fits .high (by decide) (by decide)
  exact absurd hFits (by decide)

end Claim

end MemoryQuotaAssigner

end Storage
