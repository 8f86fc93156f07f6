import Peer.Live.AnnounceAgreement
import Peer.Live.MemoryConsumer

/-! When a live memory quota is respected: the loops over the block ids see only the blocks
that lie on the stride from the first one. -/
namespace Live

open Basis Storage

variable {c c' : LiveCacheManager} {x y : LiveInstance} {b n w quota blocksQuota : Nat}

section Ends

/-- Every block id is a `boost::uint32_t`, and the live interval a `boost::uint16_t`. -/
structure LiveCacheManager.Typed (c : LiveCacheManager) : Prop where
  id_lt : ∀ b ∈ c.blockNodes, b < 2 ^ 32
  liveInterval_lt : c.liveInterval < 2 ^ 16

theorem le_last_of_mem (h : b ∈ c.blockNodes) : b ≤ c.getCacheLastBlockId := by
  obtain ⟨node, hNode⟩ := Option.isSome_iff_exists.mp (Finmap.lookup_isSome.mpr h)
  exact le_getCacheLastBlockId hNode

theorem last_mem (h : c.blockNodes.keys ≠ ∅) : c.getCacheLastBlockId ∈ c.blockNodes := by
  obtain ⟨b, hb⟩ := Finset.nonempty_iff_ne_empty.mpr h
  have hMem := mem_keysInOrder.mpr (Finmap.mem_keys.mp hb)
  rw [← mem_keysInOrder]
  unfold LiveCacheManager.getCacheLastBlockId
  rw [List.getLastD_eq_getLast?, List.getLast?_eq_some_getLast (List.ne_nil_of_mem hMem)]
  exact List.getLast_mem _

theorem first_mem (h : c.blockNodes.keys ≠ ∅) : c.getCacheFirstBlockId ∈ c.blockNodes := by
  obtain ⟨b, hb⟩ := Finset.nonempty_iff_ne_empty.mpr h
  have hMem := mem_keysInOrder.mpr (Finmap.mem_keys.mp hb)
  rw [← mem_keysInOrder]
  unfold LiveCacheManager.getCacheFirstBlockId
  cases hKeys : keysInOrder c.blockNodes with
  | nil =>
      rw [hKeys] at hMem
      cases hMem
  | cons first rest => exact List.mem_cons_self

/-- The last id of a part of the cache that has its last block. -/
theorem last_eq_of_subset (hSubset : ∀ b ∈ c'.blockNodes, b ∈ c.blockNodes)
    (hMem : c.getCacheLastBlockId ∈ c'.blockNodes) :
    c'.getCacheLastBlockId = c.getCacheLastBlockId := by
  have hSome : c'.blockNodes.keys ≠ ∅ := Finset.ne_empty_of_mem (Finmap.mem_keys.mpr hMem)
  exact Nat.le_antisymm (le_last_of_mem (hSubset _ (last_mem hSome))) (le_last_of_mem hMem)

theorem keysInOrder_eq_nil {α : Type} {m : Finmap fun _ : Nat => α} (h : m.keys = ∅) :
    keysInOrder m = [] := by
  apply List.eq_nil_iff_forall_not_mem.mpr
  intro b hb
  have hKey := Finmap.mem_keys.mpr (mem_keysInOrder.mp hb)
  rw [h] at hKey
  cases hKey

theorem LiveCacheManager.Typed.first_lt (h : c.Typed) : c.getCacheFirstBlockId < 2 ^ 32 := by
  by_cases hSome : c.blockNodes.keys = ∅
  · simp [LiveCacheManager.getCacheFirstBlockId, keysInOrder_eq_nil hSome]
  · exact h.id_lt _ (first_mem hSome)

theorem LiveCacheManager.Typed.last_lt (h : c.Typed) : c.getCacheLastBlockId < 2 ^ 32 := by
  by_cases hSome : c.blockNodes.keys = ∅
  · simp [LiveCacheManager.getCacheLastBlockId, keysInOrder_eq_nil hSome]
  · exact h.id_lt _ (last_mem hSome)

end Ends

section Walk

/-- The ids of the first `n` rounds of a loop over the block ids. -/
def walked (c : LiveCacheManager) (n : Nat) : List Nat :=
  strideNumbers (2 ^ 32) c.liveInterval c.getCacheFirstBlockId n

/-- The loop does `n` rounds when the cache does not change. -/
def WalkEnds (c : LiveCacheManager) (n : Nat) : Prop :=
  StridesFor (2 ^ 32) c.liveInterval c.getCacheFirstBlockId
    (fun _ : Unit => c.getCacheLastBlockId) (fun s _ => s) () n

theorem forBlockIds_settles_iff {σ : Type} {body : σ → Nat → σ} {s : σ} {P : σ → Prop}
    (hTyped : c.Typed) :
    Settles (fun rounds => forBlockIds c (fun _ => c) body rounds s) P ↔
      ∃ n, WalkEnds c n ∧ P ((walked c n).foldl body s) :=
  strideLoop_settles_iff hTyped.first_lt

theorem WalkEnds.unique {m : Nat} (h : WalkEnds c n) (h' : WalkEnds c m) : n = m := by
  have hOrder : ∀ {i j}, WalkEnds c i → WalkEnds c j → ¬ i < j := by
    intro i j hi hj hLt
    have hEnd := hi.1
    have hGo := hj.2 i hLt
    exact absurd hEnd (Nat.not_lt.mpr hGo)
  rcases Nat.lt_trichotomy n m with hLt | hEq | hLt
  · exact absurd hLt (hOrder h h')
  · exact hEq
  · exact absurd hLt (hOrder h' h)

theorem WalkEnds.settles {σ : Type} (h : WalkEnds c n) (hTyped : c.Typed) (body : σ → Nat → σ)
    (s : σ) : Settles (fun rounds => forBlockIds c (fun _ => c) body rounds s)
      (· = (walked c n).foldl body s) :=
  (forBlockIds_settles_iff hTyped).mpr ⟨n, h, rfl⟩

end Walk

namespace LiveInstanceMemoryConsumer

section Scores

variable {scores : Scores} {ids : List Nat}

theorem foldl_scoreBlock (ids : List Nat) (scores : Scores) (b : Nat) :
    (ids.foldl (scoreBlock x) scores).lookup b =
      if b ∈ ids ∧ b ∈ x.cacheManager.blockNodes then some (importanceScore x b)
      else scores.lookup b := by
  induction ids using List.reverseRecOn with
  | nil => simp
  | append_singleton ids last ih =>
      rw [List.foldl_append, List.foldl_cons, List.foldl_nil]
      generalize ids.foldl (scoreBlock x) scores = soFar at ih ⊢
      unfold scoreBlock
      by_cases hb : b = last
      · subst hb
        by_cases hMem : b ∈ x.cacheManager.blockNodes
        · simp [hMem]
        · rw [if_neg hMem]
          simpa [hMem] using ih
      · split
        · rw [Finmap.lookup_insert_of_ne _ hb, ih]
          simp [hb]
        · rw [ih]
          simp [hb]

/-- The last block of the cache is always worth something. -/
theorem importanceScore_last_pos (x : LiveInstance) :
    0 < importanceScore x x.cacheManager.getCacheLastBlockId := by
  unfold importanceScore
  dsimp only
  rw [Nat.sub_self]
  apply Nat.add_pos_left
  decide

/-- What the first loop of `SetMemoryQuota` leaves behind the ids it has seen. -/
theorem foldl_removeUnimportant (ids : List Nat) (scores : Scores) (c : LiveCacheManager) : ∀ b,
    (ids.foldl removeUnimportant (scores, c)).1.lookup b =
        (if b ∈ ids ∧ scores.lookup b = some 0 then none else scores.lookup b) ∧
      (ids.foldl removeUnimportant (scores, c)).2.blockNodes.lookup b =
        (if b ∈ ids ∧ (scores.lookup b).getD 0 = 0 then none else c.blockNodes.lookup b) := by
  induction ids using List.reverseRecOn with
  | nil => simp
  | append_singleton ids last ih =>
      rw [List.foldl_append, List.foldl_cons, List.foldl_nil]
      generalize ids.foldl removeUnimportant (scores, c) = soFar at ih ⊢
      have hScore := (ih last).1
      intro b
      unfold removeUnimportant
      cases hLast : soFar.1.lookup last with
      | none =>
          have hNothing : scores.lookup last = none ∨ scores.lookup last = some 0 := by
            rw [hLast] at hScore
            split at hScore
            · rename_i hSeen
              exact Or.inr hSeen.2
            · exact Or.inl hScore.symm
          by_cases hb : b = last
          · subst hb
            rcases hNothing with hNone | hZero
            · simp [LiveCacheManager.removeBlock, hLast, hNone]
            · simp [LiveCacheManager.removeBlock, hLast, hZero]
          · simpa [LiveCacheManager.removeBlock, hb] using ih b
      | some score =>
          have hSame : scores.lookup last = some score := by
            rw [hLast] at hScore
            split at hScore
            · cases hScore
            · exact hScore.symm
          by_cases hZero : score = 0
          · subst hZero
            by_cases hb : b = last
            · subst hb
              simp [LiveCacheManager.removeBlock, hSame]
            · simpa [LiveCacheManager.removeBlock, hb] using ih b
          · by_cases hb : b = last
            · subst hb
              simpa [hZero, hSame] using ih b
            · simpa [hZero, hb] using ih b

/-- The ids of the cache. -/
def cached (x : LiveInstance) : Finset Nat := x.cacheManager.blockNodes.keys

/-- The cached blocks that the first loop keeps. -/
def keptFirst (x : LiveInstance) (ids : List Nat) : Finset Nat :=
  (cached x).filter fun b => ¬ (b ∈ ids ∧ importanceScore x b = 0)

/-- The cached blocks that have a score after it. -/
def important (x : LiveInstance) (ids : List Nat) : Finset Nat :=
  (cached x).filter fun b => b ∈ ids ∧ importanceScore x b ≠ 0

theorem mem_cached : b ∈ cached x ↔ b ∈ x.cacheManager.blockNodes := Finmap.mem_keys

/-- The scores of all the ids of a walk. -/
def allScores (x : LiveInstance) (ids : List Nat) : Scores := ids.foldl (scoreBlock x) ∅

theorem allScores_lookup (ids : List Nat) (b : Nat) :
    (allScores x ids).lookup b =
      if b ∈ ids ∧ b ∈ cached x then some (importanceScore x b) else none := by
  rw [allScores, foldl_scoreBlock, Finmap.lookup_empty]
  simp only [mem_cached]

/-- What the first loop leaves of the cache when it runs over some ids of the walk. -/
theorem removed_mem_iff {seen : List Nat} (hSeen : seen ⊆ ids) :
    b ∈ (seen.foldl removeUnimportant (allScores x ids, x.cacheManager)).2.blockNodes ↔
      b ∈ keptFirst x seen := by
  rw [← Finmap.lookup_isSome, (foldl_removeUnimportant seen _ _ b).2, allScores_lookup]
  simp only [keptFirst, Finset.mem_filter, mem_cached]
  by_cases hMem : b ∈ x.cacheManager.blockNodes
  · have hSome := Finmap.lookup_isSome.mpr hMem
    by_cases hIn : b ∈ seen
    · by_cases hZero : importanceScore x b = 0
      · simp [hMem, hIn, hSeen hIn, hZero]
      · simp [hMem, hIn, hSeen hIn, hZero, hSome]
    · simp [hMem, hIn, hSome]
  · have hNone := Finmap.lookup_eq_none.mpr hMem
    by_cases hIn : b ∈ seen
    · simp [hMem, hIn, hSeen hIn]
    · simp [hMem, hIn, hNone]

/-- Blocks that stay are not changed. -/
theorem removed_lookup (seen : List Nat) (scores : Scores)
    (h : b ∈ (seen.foldl removeUnimportant (scores, x.cacheManager)).2.blockNodes) :
    (seen.foldl removeUnimportant (scores, x.cacheManager)).2.blockNodes.lookup b =
      x.cacheManager.blockNodes.lookup b := by
  rw [← Finmap.lookup_isSome] at h
  rw [(foldl_removeUnimportant seen scores _ b).2] at h ⊢
  split
  · rename_i hGone
    rw [if_pos hGone] at h
    cases h
  · rfl

/-- The last block has a score, so the end of the first loop does not move. -/
theorem removal_last (hSome : cached x ≠ ∅) {k : Nat} (hk : k ≤ n) :
    (strideState (2 ^ 32) x.cacheManager.liveInterval x.cacheManager.getCacheFirstBlockId
      removeUnimportant (allScores x (walked x.cacheManager n), x.cacheManager) k).2.getCacheLastBlockId =
        x.cacheManager.getCacheLastBlockId := by
  have hSeen : walked x.cacheManager k ⊆ walked x.cacheManager n := by
    apply List.map_subset
    exact List.range_subset.mpr hk
  apply last_eq_of_subset
  · intro b hb
    exact mem_cached.mp (Finset.mem_filter.mp ((removed_mem_iff hSeen).mp hb)).1
  · apply (removed_mem_iff hSeen).mpr
    refine Finset.mem_filter.mpr ⟨mem_cached.mpr (last_mem hSome), ?_⟩
    exact fun h => Nat.ne_of_gt (importanceScore_last_pos x) h.2

/-- The first loop runs over the same ids as the loop that scores the blocks. -/
theorem removal_settles (hTyped : x.cacheManager.Typed) (hSome : cached x ≠ ∅)
    (hEnds : WalkEnds x.cacheManager n) :
    Settles (fun rounds => forBlockIds x.cacheManager Prod.snd removeUnimportant rounds
      (allScores x (walked x.cacheManager n), x.cacheManager))
      (· = (walked x.cacheManager n).foldl removeUnimportant
        (allScores x (walked x.cacheManager n), x.cacheManager)) := by
  apply (strideLoop_settles_iff hTyped.first_lt).mpr
  refine ⟨n, ⟨?_, fun k hk => ?_⟩, rfl⟩
  · dsimp only
    rw [removal_last hSome (Nat.le_refl n)]
    exact hEnds.1
  · dsimp only
    rw [removal_last hSome hk.le]
    exact hEnds.2 k hk

end Scores

section Evict

variable {ids : List Nat}

/-- What the first loop leaves of the scores, in the order of the ids. -/
theorem entries_scores (x : LiveInstance) (ids : List Nat) :
    entries (ids.foldl removeUnimportant (allScores x ids, x.cacheManager)).1 =
      (important x ids).sort.map fun b => (b, importanceScore x b) := by
  apply entries_eq
  · exact Finset.sortedLT_sort _ |>.pairwise
  · intro b
    rw [(foldl_removeUnimportant ids _ _ b).1, allScores_lookup]
    simp only [Finset.mem_sort, important, Finset.mem_filter]
    by_cases hIn : b ∈ ids <;> by_cases hMem : b ∈ cached x <;>
      by_cases hZero : importanceScore x b = 0 <;> simp [hIn, hMem, hZero]

theorem foldl_removeBlock (gone : List (Nat × Nat)) (c : LiveCacheManager) (b : Nat) :
    (gone.foldl (fun c entry => c.removeBlock entry.1) c).blockNodes.lookup b =
      if b ∈ gone.map Prod.fst then none else c.blockNodes.lookup b := by
  induction gone generalizing c with
  | nil => simp
  | cons entry gone ih =>
      rw [List.foldl_cons, ih]
      unfold LiveCacheManager.removeBlock
      by_cases hb : b = entry.1
      · subst hb
        rw [Finmap.lookup_erase]
        simp
      · rw [Finmap.lookup_erase_ne hb]
        simp only [List.map_cons, List.mem_cons, hb, false_or]

/-- What `SetMemoryQuota` leaves of the cache. -/
def remaining (x : LiveInstance) (ids : List Nat) (blocksQuota : Nat) : Finset Nat :=
  if blocksQuota < u16 (keptFirst x ids).card then
    keptFirst x ids \ leastOf (importanceScore x) (important x ids)
      (u16 (keptFirst x ids).card - blocksQuota)
  else keptFirst x ids

/-- The cache behind both loops. -/
def evict (x : LiveInstance) (ids : List Nat) (blocksQuota : Nat) : LiveCacheManager :=
  removeLeast blocksQuota (ids.foldl removeUnimportant (allScores x ids, x.cacheManager))

theorem removed_keys (x : LiveInstance) (ids : List Nat) :
    (ids.foldl removeUnimportant (allScores x ids, x.cacheManager)).2.blockNodes.keys =
      keptFirst x ids := by
  ext b
  rw [Finmap.mem_keys]
  exact removed_mem_iff (List.Subset.refl ids)

theorem evict_spec (x : LiveInstance) (ids : List Nat) (blocksQuota : Nat) :
    (evict x ids blocksQuota).blockNodes.keys = remaining x ids blocksQuota ∧
      ∀ b ∈ (evict x ids blocksQuota).blockNodes,
        (evict x ids blocksQuota).blockNodes.lookup b = x.cacheManager.blockNodes.lookup b := by
  have hKeys := removed_keys x ids
  have hKept := fun b => removed_lookup (x := x) (b := b) ids (allScores x ids)
  have hScores : scoreToBlockId (ids.foldl removeUnimportant (allScores x ids, x.cacheManager)).1 =
      (leastFirst (importanceScore x) (important x ids).sort).map fun b => (b, importanceScore x b) := by
    rw [scoreToBlockId, entries_scores]
    exact leastFirst_map fun b => rfl
  unfold evict removeLeast remaining LiveCacheManager.getCacheSize
  rw [hScores]
  generalize ids.foldl removeUnimportant (allScores x ids, x.cacheManager) = s at hKeys hKept ⊢
  rw [hKeys]
  split
  · have hGone : ∀ gone : Nat, (((leastFirst (importanceScore x) (important x ids).sort).map
        fun b => (b, importanceScore x b)).take gone).map Prod.fst =
          (leastFirst (importanceScore x) (important x ids).sort).take gone := by
      intro gone
      rw [← List.map_take, List.map_map]
      exact List.map_id _
    constructor
    · ext b
      have hIff : (s.2.blockNodes.lookup b).isSome = true ↔ b ∈ keptFirst x ids := by
        rw [Finmap.lookup_isSome, ← Finmap.mem_keys, hKeys]
      rw [Finmap.mem_keys, ← Finmap.lookup_isSome, foldl_removeBlock, hGone, Finset.mem_sdiff,
        mem_leastOf, ← hIff]
      split <;> simp [*]
    · intro b hb
      rw [← Finmap.lookup_isSome, foldl_removeBlock] at hb
      rw [foldl_removeBlock]
      split
      · rename_i hIn
        rw [if_pos hIn] at hb
        cases hb
      · rename_i hOut
        rw [if_neg hOut, Finmap.lookup_isSome] at hb
        exact hKept b hb
  · exact ⟨hKeys, hKept⟩

end Evict

section Quota

/-- What is promised of a call that the quota allows so many blocks. -/
structure QuotaRespected (x y : LiveInstance) (blocksQuota : Nat) : Prop where
  size_le : (cached y).card ≤ blocksQuota
  kept : ∀ b ∈ cached y, y.cacheManager.node b = x.cacheManager.node b
  least : ∀ b ∈ cached y, ∀ gone ∈ cached x, gone ∉ cached y →
    importanceScore x gone ≤ importanceScore x b
  untouched : (cached x).card ≤ blocksQuota → y = x

/-- The mean size of the cached blocks of which the size is known. -/
def averageBlockSize (x : LiveInstance) : Nat :=
  (∑ b ∈ cached x, x.cacheManager.getBlockSizeInBytes b) /
    ((cached x).filter fun b => 0 < x.cacheManager.getBlockSizeInBytes b).card

/-- The mean over the blocks of a walk, where the sums are `size_t`. -/
def averageOnWalk (w : Nat) (x : LiveInstance) (ids : List Nat) : Nat :=
  sizeT w (ids.map x.cacheManager.getBlockSizeInBytes).sum /
    sizeT w (ids.countP fun b => 0 < x.cacheManager.getBlockSizeInBytes b)

/-- How many blocks the second loop evicts where it takes the quota for `granted` blocks. -/
def evictions (x : LiveInstance) (ids : List Nat) (granted : Nat) : Nat :=
  min (u16 (keptFirst x ids).card - granted) (important x ids).card

/-- When a quota of `q` blocks is kept by evicting blocks of the walk until `granted` are
left: the cache is within both, or above both and few enough blocks stay, none of them beside
the walk with a score below that of an evicted one. -/
def EvictionFits (x : LiveInstance) (ids : List Nat) (granted q : Nat) : Prop :=
  ((cached x).card ≤ q ∧ u16 (cached x).card ≤ granted) ∨
    (q < (cached x).card ∧ granted < u16 (cached x).card ∧
      (keptFirst x ids).card ≤ q + evictions x ids granted ∧
        ∀ b ∈ cached x, b ∉ ids → evictions x ids granted ≤
          ((important x ids).filter fun a => importanceScore x a ≤ importanceScore x b).card)

section Counts

variable {ids : List Nat}

theorem important_subset (x : LiveInstance) (ids : List Nat) : important x ids ⊆ keptFirst x ids := by
  intro b hb
  obtain ⟨hMem, -, hSome⟩ := Finset.mem_filter.mp hb
  exact Finset.mem_filter.mpr ⟨hMem, fun h => hSome h.2⟩

/-- The first loops sum up the sizes of the blocks of the walk. -/
theorem foldl_addBlockSize (w : Nat) (c : LiveCacheManager) (ids : List Nat) :
    ids.foldl (addBlockSize w c) (0, 0) =
      (sizeT w (ids.map c.getBlockSizeInBytes).sum,
        sizeT w (ids.countP fun b => 0 < c.getBlockSizeInBytes b)) := by
  induction ids using List.reverseRecOn with
  | nil => simp [sizeT]
  | append_singleton ids last ih =>
      rw [List.foldl_append, List.foldl_cons, List.foldl_nil, ih]
      unfold addBlockSize
      by_cases hSize : 0 < c.getBlockSizeInBytes last
      · simp [hSize, sizeT]
      · simp [Nat.eq_zero_of_not_pos hSize]

/-- Where every block lies on the walk and `GetCacheSize` tells the size, the eviction fits. -/
theorem evictionFits_of_walked (hWalked : ∀ b ∈ cached x, b ∈ ids)
    (hSmall : (cached x).card < 2 ^ 16) (q : Nat) : EvictionFits x ids q q := by
  have hKept : keptFirst x ids ⊆ important x ids := by
    intro b hb
    obtain ⟨hMem, hWorth⟩ := Finset.mem_filter.mp hb
    exact Finset.mem_filter.mpr ⟨hMem, hWalked b hMem, fun h => hWorth ⟨hWalked b hMem, h⟩⟩
  have hLe := Finset.card_le_card hKept
  have hFew : (keptFirst x ids).card ≤ (cached x).card := Finset.card_filter_le _ _
  unfold EvictionFits evictions
  rw [u16_of_lt hSmall, u16_of_lt (by omega : (keptFirst x ids).card < 2 ^ 16)]
  by_cases hWithin : (cached x).card ≤ q
  · exact Or.inl ⟨hWithin, hWithin⟩
  · refine Or.inr ⟨by omega, by omega, by omega, ?_⟩
    exact fun b hb hOut => absurd (hWalked b hb) hOut

end Counts

section Respected

variable {ids : List Nat}

theorem remaining_subset (x : LiveInstance) (ids : List Nat) (blocksQuota : Nat) :
    remaining x ids blocksQuota ⊆ keptFirst x ids := by
  unfold remaining
  split
  · exact Finset.sdiff_subset
  · exact Finset.Subset.refl _

theorem card_remaining (x : LiveInstance) (ids : List Nat) (granted : Nat) :
    (remaining x ids granted).card + evictions x ids granted = (keptFirst x ids).card := by
  have hImportant := Finset.card_le_card (important_subset x ids)
  have hWrap := u16_le (keptFirst x ids).card
  unfold remaining evictions
  split
  · have hSubset := (leastOf_subset (importanceScore x) (important x ids)
      (u16 (keptFirst x ids).card - granted)).trans (important_subset x ids)
    rw [Finset.card_sdiff_of_subset hSubset, card_leastOf]
    omega
  · omega

/-- Of what the loops evict nothing scores more than what stays exactly if this is so for
the blocks beside the walk. -/
theorem evicted_le_iff (x : LiveInstance) (ids : List Nat) (blocksQuota : Nat) :
    (∀ b ∈ remaining x ids blocksQuota, ∀ gone ∈ cached x, gone ∉ remaining x ids blocksQuota →
      importanceScore x gone ≤ importanceScore x b) ↔
    ∀ b ∈ cached x, b ∉ ids → ∀ gone ∈ leastOf (importanceScore x) (important x ids)
      (u16 (keptFirst x ids).card - blocksQuota), importanceScore x gone ≤ importanceScore x b := by
  have hImportant : ∀ {b}, b ∈ important x ids ↔
      b ∈ cached x ∧ b ∈ ids ∧ importanceScore x b ≠ 0 := Finset.mem_filter
  have hKept : ∀ {b}, b ∈ keptFirst x ids ↔ b ∈ cached x ∧ ¬ (b ∈ ids ∧ importanceScore x b = 0) :=
    Finset.mem_filter
  have hRemaining : ∀ {b}, b ∈ remaining x ids blocksQuota ↔ b ∈ keptFirst x ids ∧
      b ∉ leastOf (importanceScore x) (important x ids)
        (u16 (keptFirst x ids).card - blocksQuota) := by
    intro b
    unfold remaining
    split
    · exact Finset.mem_sdiff
    · rename_i hWithin
      rw [Nat.sub_eq_zero_of_le (Nat.not_lt.mp hWithin)]
      simp [leastOf]
  constructor
  · intro h b hb hOut gone hGone
    obtain ⟨hMem, hIn, hSome⟩ := hImportant.mp (leastOf_subset _ _ _ hGone)
    apply h b _ gone hMem _
    · refine hRemaining.mpr ⟨hKept.mpr ⟨hb, fun h => hOut h.1⟩, fun hLeast => ?_⟩
      exact hOut (hImportant.mp (leastOf_subset _ _ _ hLeast)).2.1
    · exact fun hStays => (hRemaining.mp hStays).2 hGone
  · intro h b hb gone hGone hEvicted
    obtain ⟨hStays, hNotLeast⟩ := hRemaining.mp hb
    obtain ⟨hMem, hWorth⟩ := hKept.mp hStays
    by_cases hZero : gone ∈ ids ∧ importanceScore x gone = 0
    · omega
    have hLeast : gone ∈ leastOf (importanceScore x) (important x ids)
        (u16 (keptFirst x ids).card - blocksQuota) := by
      by_contra hNot
      exact hEvicted (hRemaining.mpr ⟨hKept.mpr ⟨hGone, hZero⟩, hNot⟩)
    by_cases hIn : b ∈ ids
    · have hHere : b ∈ important x ids := hImportant.mpr ⟨hMem, hIn, fun h => hWorth ⟨hIn, h⟩⟩
      exact leastOf_le hLeast hHere hNotLeast
    · exact h b hMem hIn gone hLeast

/-- A loop that has a cached block before it evicts something. -/
theorem remaining_ne {granted first : Nat} (hExcess : granted < u16 (cached x).card)
    (hFirst : first ∈ cached x) (hOn : first ∈ ids) : remaining x ids granted ≠ cached x := by
  intro hAll
  have hKept : keptFirst x ids = cached x :=
    (Finset.filter_subset _ _).antisymm (hAll.symm.subset.trans (remaining_subset x ids granted))
  have hWorth : importanceScore x first ≠ 0 := by
    have hMem : first ∈ keptFirst x ids := hKept.symm ▸ hFirst
    exact fun hZero => (Finset.mem_filter.mp hMem).2 ⟨hOn, hZero⟩
  have hSome : 0 < (important x ids).card :=
    Finset.card_pos.mpr ⟨first, Finset.mem_filter.mpr ⟨hFirst, hOn, hWorth⟩⟩
  have hCount := card_remaining x ids granted
  unfold evictions at hCount
  rw [hAll, hKept] at hCount
  omega

/-- A cache above the quota that is granted is evicted rightly exactly if the eviction fits. -/
theorem respected_iff_of_excess {granted q first : Nat} (hExcess : granted < u16 (cached x).card)
    (hFirst : first ∈ cached x) (hOn : first ∈ ids) :
    QuotaRespected x { x with cacheManager := evict x ids granted } q ↔
      EvictionFits x ids granted q := by
  obtain ⟨hKeys, hNodes⟩ := evict_spec x ids granted
  have hCached : cached { x with cacheManager := evict x ids granted } =
      remaining x ids granted := hKeys
  have hCount := card_remaining x ids granted
  have hLeast := evicted_le_iff x ids granted
  unfold EvictionFits
  rw [or_iff_right fun h => absurd hExcess (Nat.not_lt.mpr h.2)]
  constructor
  · intro hRespected
    have hLe := hRespected.size_le
    have hOrder := hRespected.least
    rw [hCached] at hLe hOrder
    refine ⟨?_, hExcess, by omega, ?_⟩
    · by_contra hWithin
      have hSame := hRespected.untouched (Nat.not_lt.mp hWithin)
      exact remaining_ne hExcess hFirst hOn (hCached.symm.trans (congrArg cached hSame))
    · intro b hb hOut
      exact leastOf_le_iff.mp (hLeast.mp hOrder b hb hOut)
  · rintro ⟨hAbove, -, hFew, hBeside⟩
    have hOrder := hLeast.mpr fun b hb hOut => leastOf_le_iff.mpr (hBeside b hb hOut)
    rw [← hCached] at hCount hOrder
    refine ⟨by omega, ?_, hOrder, fun hWithin => absurd hAbove (Nat.not_lt.mpr hWithin)⟩
    intro b hb
    exact hNodes b (Finmap.mem_keys.mp hb)

end Respected

section Calls

theorem getCacheSize_eq_zero (h : cached x = ∅) : x.cacheManager.getCacheSize = 0 := by
  rw [LiveCacheManager.getCacheSize, show x.cacheManager.blockNodes.keys = ∅ from h,
    Finset.card_empty, u16_of_lt (by decide)]

/-- A cache that tells size 0 is allowed no block. -/
theorem getBlocksQuota_of_size (h : x.cacheManager.getCacheSize = 0) (w quota rounds : Nat) :
    getBlocksQuota w x quota rounds = some 0 := by
  unfold getBlocksQuota getAverageBlockSize
  simp [h]

/-- A loop whose walk has no end returns nothing. -/
theorem forBlockIds_eq_none {σ : Type} {body : σ → Nat → σ} {s : σ} {c : LiveCacheManager}
    (hTyped : c.Typed) (hNever : ¬ ∃ n, WalkEnds c n) (rounds : Nat) :
    forBlockIds c (fun _ => c) body rounds s = none := by
  apply strideLoop_eq_none hTyped.first_lt
  rcases stridesFor_or_goes (2 ^ 32) c.liveInterval c.getCacheFirstBlockId
    (fun _ : Unit => c.getCacheLastBlockId) (fun s _ => s) () with hEnds | hGoes
  · exact absurd hEnds hNever
  · exact hGoes

/-- `GetBlocksQuota` returns when the walk ends. -/
theorem getBlocksQuota_settles (hTyped : x.cacheManager.Typed) (hEnds : WalkEnds x.cacheManager n)
    (hSize : x.cacheManager.getCacheSize ≠ 0) (w quota : Nat) :
    Settles (getBlocksQuota w x quota)
      (· = blocksGranted w (averageOnWalk w x (walked x.cacheManager n)) quota) := by
  have hAverage : Settles (getAverageBlockSize w x)
      (· = averageOnWalk w x (walked x.cacheManager n)) := by
    unfold getAverageBlockSize
    simp only [if_neg hSize]
    apply (hEnds.settles hTyped (addBlockSize w x.cacheManager) (0, 0)).map
    rintro sums rfl
    rw [foldl_addBlockSize, averageOnWalk]
    split
    · rename_i hNone
      rw [show sizeT w _ = 0 from hNone, Nat.div_zero]
    · rfl
  unfold getBlocksQuota
  by_cases hQuota : quota = 0
  · simp only [if_pos hQuota]
    rw [hQuota, blocksGranted_zero]
    exact Settles.const rfl
  · simp only [if_neg hQuota]
    apply hAverage.map
    rintro size rfl
    split
    · rename_i hNone
      rw [hNone, blocksGranted, Nat.div_zero]
    · rfl

/-- What `SetMemoryQuota` returns when the walk ends. -/
theorem setMemoryQuota_settles (hTyped : x.cacheManager.Typed) (hEnds : WalkEnds x.cacheManager n)
    (hQuota : Settles (getBlocksQuota w x quota) (· = blocksQuota)) :
    Settles (setMemoryQuota w x quota) (· =
      if blocksQuota < u16 (cached x).card then
        { x with cacheManager := evict x (walked x.cacheManager n) blocksQuota }
      else x) := by
  apply hQuota.bind
  rintro blocksQuota rfl
  show Settles (fun rounds => if u16 (cached x).card ≤ blocksQuota then some x else _) _
  by_cases hWithin : u16 (cached x).card ≤ blocksQuota
  · rw [if_neg (Nat.not_lt.mpr hWithin)]
    simp only [if_pos hWithin]
    exact Settles.const rfl
  · rw [if_pos (Nat.not_le.mp hWithin)]
    simp only [if_neg hWithin]
    have hSize : x.cacheManager.getCacheSize ≠ 0 := by
      show u16 (cached x).card ≠ 0
      omega
    have hSome : cached x ≠ ∅ := fun hNone => hSize (getCacheSize_eq_zero hNone)
    have hScores : Settles (buildBlocksImportanceScore x)
        (· = allScores x (walked x.cacheManager n)) := by
      unfold buildBlocksImportanceScore
      simp only [if_neg hSize]
      exact hEnds.settles hTyped (scoreBlock x) ∅
    apply hScores.bind
    rintro scores rfl
    apply (removal_settles hTyped hSome hEnds).bind
    rintro s rfl
    exact Settles.const rfl

/-- A walk without an end stops the call, unless the size it reads is 0. -/
theorem setMemoryQuota_stuck (w quota : Nat) (hTyped : x.cacheManager.Typed)
    (hNever : ¬ ∃ n, WalkEnds x.cacheManager n) (hSize : x.cacheManager.getCacheSize ≠ 0)
    (rounds : Nat) : setMemoryQuota w x quota rounds = none := by
  have hLoop {σ : Type} (body : σ → Nat → σ) (s : σ) :=
    (forBlockIds_eq_none hTyped hNever rounds : forBlockIds _ _ body rounds s = none)
  unfold setMemoryQuota
  by_cases hZero : quota = 0
  · have hQuota : getBlocksQuota w x quota rounds = some 0 := by
      rw [getBlocksQuota, if_pos hZero]
    have hScores : buildBlocksImportanceScore x rounds = none := by
      rw [buildBlocksImportanceScore, if_neg hSize, hLoop]
    simp [hQuota, hSize, hScores]
  · have hQuota : getBlocksQuota w x quota rounds = none := by
      rw [getBlocksQuota, if_neg hZero, getAverageBlockSize, if_neg hSize, hLoop]
      rfl
    rw [hQuota]
    rfl

/-- The first id of the cache is the first of its walk. -/
theorem first_mem_walked (hTyped : x.cacheManager.Typed) (hSome : cached x ≠ ∅)
    (hEnds : WalkEnds x.cacheManager n) :
    x.cacheManager.getCacheFirstBlockId ∈ cached x ∧
      x.cacheManager.getCacheFirstBlockId ∈ walked x.cacheManager n := by
  have hFirst := first_mem hSome
  have hStart : strideNumber (2 ^ 32) x.cacheManager.liveInterval
      x.cacheManager.getCacheFirstBlockId 0 = _ := strideNumber_zero hTyped.first_lt
  refine ⟨mem_cached.mpr hFirst, ?_⟩
  have hPos : 0 < n := by
    by_contra hNone
    obtain rfl := Nat.eq_zero_of_not_pos hNone
    have hEnd := hEnds.1
    rw [hStart] at hEnd
    exact absurd hEnd (Nat.not_lt.mpr (le_last_of_mem hFirst))
  exact List.mem_map.mpr ⟨0, List.mem_range.mpr hPos, hStart⟩

/-- A quota is respected exactly if the cache tells size 0 and is within it, or the stride ends
before it wraps and the blocks on it are enough to evict the excess by score. -/
theorem liveQuotaRespected_iff (w quota : Nat) (x : LiveInstance) (hTyped : x.cacheManager.Typed) :
    Settles (setMemoryQuota w x quota) (QuotaRespected x · (blocksAllowed (averageBlockSize x) quota)) ↔
      (u16 (cached x).card = 0 ∧ (cached x).card ≤ blocksAllowed (averageBlockSize x) quota) ∨
        ∃ n, WalkEnds x.cacheManager n ∧ EvictionFits x (walked x.cacheManager n)
          (blocksGranted w (averageOnWalk w x (walked x.cacheManager n)) quota)
          (blocksAllowed (averageBlockSize x) quota) := by
  generalize blocksAllowed (averageBlockSize x) quota = q
  have hStays : QuotaRespected x x q ↔ (cached x).card ≤ q :=
    ⟨fun hRespected => hRespected.size_le, fun hWithin =>
      ⟨hWithin, fun b _ => rfl, fun b _ gone hGone hOut => absurd hGone hOut, fun _ => rfl⟩⟩
  by_cases hSize : x.cacheManager.getCacheSize = 0
  · have hReturns : ∀ rounds, setMemoryQuota w x quota rounds = some x := by
      intro rounds
      unfold setMemoryQuota
      simp [getBlocksQuota_of_size hSize, hSize]
    have hCall : Settles (setMemoryQuota w x quota) (· = x) :=
      Settles.of_add 0 hReturns rfl
    have hZero : u16 (cached x).card = 0 := hSize
    rw [hCall.iff_of_eq, hStays]
    constructor
    · exact fun hWithin => Or.inl ⟨hZero, hWithin⟩
    · rintro (⟨-, hWithin⟩ | ⟨n, -, ⟨hWithin, -⟩ | ⟨-, hMore, -⟩⟩)
      · exact hWithin
      · exact hWithin
      · rw [hZero] at hMore
        exact absurd hMore (Nat.not_lt_zero _)
  have hNonzero : u16 (cached x).card ≠ 0 := hSize
  rw [or_iff_right fun h => hNonzero h.1]
  by_cases hNever : ∃ n, WalkEnds x.cacheManager n
  · obtain ⟨n, hEnds⟩ := hNever
    have hQuota := getBlocksQuota_settles hTyped hEnds hSize w quota
    have hWalk : (∃ m, WalkEnds x.cacheManager m ∧ EvictionFits x (walked x.cacheManager m)
        (blocksGranted w (averageOnWalk w x (walked x.cacheManager m)) quota) q) ↔
          EvictionFits x (walked x.cacheManager n)
            (blocksGranted w (averageOnWalk w x (walked x.cacheManager n)) quota) q := by
      constructor
      · rintro ⟨m, hEnds', hFits⟩
        rwa [hEnds.unique hEnds']
      · exact fun hFits => ⟨n, hEnds, hFits⟩
    rw [hWalk, (setMemoryQuota_settles hTyped hEnds hQuota).iff_of_eq]
    split
    · rename_i hExcess
      have hSome : cached x ≠ ∅ := fun hNone => hSize (getCacheSize_eq_zero hNone)
      obtain ⟨hFirst, hOn⟩ := first_mem_walked hTyped hSome hEnds
      exact respected_iff_of_excess hExcess hFirst hOn
    · rename_i hWithin
      rw [hStays]
      unfold EvictionFits
      rw [or_iff_left fun h => hWithin h.2.1, and_iff_left (Nat.not_lt.mp hWithin)]
  · refine iff_of_false ?_ ?_
    · rintro ⟨y, ⟨enough, hReturns⟩, -⟩
      have hNone := setMemoryQuota_stuck w quota hTyped hNever hSize enough
      rw [hReturns enough (Nat.le_refl enough)] at hNone
      cases hNone
    · rintro ⟨n, hEnds, -⟩
      exact hNever ⟨n, hEnds⟩

/-- A cache of one block that nothing is known of, with an interval of ten seconds. -/
private def oneBlock (blockId : Nat) : LiveInstance where
  cacheManager := ⟨Guid.zero, Finmap.singleton blockId (.create blockId Guid.zero), 10, ten_pos⟩
  liveStreams := []

private theorem mem_oneBlock {blockId : Nat} :
    b ∈ (oneBlock blockId).cacheManager.blockNodes ↔ b = blockId := Finmap.mem_singleton _ _ _

private theorem oneBlock_typed {blockId : Nat} (h : blockId < 2 ^ 32) :
    (oneBlock blockId).cacheManager.Typed := by
  constructor
  · intro b hb
    rwa [mem_oneBlock.mp hb]
  · show 10 < 2 ^ 16
    decide

private theorem oneBlock_last (blockId : Nat) :
    (oneBlock blockId).cacheManager.getCacheLastBlockId = blockId := by
  apply mem_oneBlock.mp
  apply last_mem
  exact Finset.ne_empty_of_mem (Finmap.mem_keys.mpr (mem_oneBlock.mpr rfl))

/-- The only block of a cache is evicted when no block is allowed. -/
theorem liveQuotaRespected_of_oneBlock :
    Settles (setMemoryQuota 32 (oneBlock 0) 0)
      (QuotaRespected (oneBlock 0) · (blocksAllowed (averageBlockSize (oneBlock 0)) 0)) := by
  apply (liveQuotaRespected_iff 32 0 (oneBlock 0) (oneBlock_typed (by decide))).mpr
  refine Or.inr ⟨1, ⟨by decide +kernel, by decide +kernel⟩, ?_⟩
  have hNothing : blocksAllowed (averageBlockSize (oneBlock 0)) 0 = 0 := by decide +kernel
  rw [blocksGranted_zero, hNothing]
  apply evictionFits_of_walked
  · intro b hb
    rw [mem_oneBlock.mp (mem_cached.mp hb)]
    decide +kernel
  · decide +kernel

/-- Behind the greatest block id the loops begin anew. -/
theorem liveQuotaRespected_fails : ¬ ∀ (w quota : Nat) (x : LiveInstance), x.cacheManager.Typed →
    Settles (setMemoryQuota w x quota)
      (QuotaRespected x · (blocksAllowed (averageBlockSize x) quota)) := by
  intro h
  have hTyped : (oneBlock (2 ^ 32 - 1)).cacheManager.Typed := oneBlock_typed (by decide)
  obtain ⟨y, ⟨enough, hReturns⟩, -⟩ := h 32 1024 (oneBlock (2 ^ 32 - 1)) hTyped
  have hNever : ¬ ∃ n, WalkEnds (oneBlock (2 ^ 32 - 1)).cacheManager n := by
    rintro ⟨n, hEnd, -⟩
    rw [oneBlock_last] at hEnd
    have hLt := Nat.mod_lt
      ((oneBlock (2 ^ 32 - 1)).cacheManager.getCacheFirstBlockId + n * 10) (Nat.two_pow_pos 32)
    have hBelow : strideNumber (2 ^ 32) 10
        (oneBlock (2 ^ 32 - 1)).cacheManager.getCacheFirstBlockId n < 2 ^ 32 := hLt
    exact absurd hEnd (Nat.not_lt.mpr (Nat.le_sub_one_of_lt hBelow))
  have hSize : (oneBlock (2 ^ 32 - 1)).cacheManager.getCacheSize ≠ 0 := by
    have hOne : (cached (oneBlock (2 ^ 32 - 1))).card = 1 := rfl
    show u16 (cached (oneBlock (2 ^ 32 - 1))).card ≠ 0
    rw [hOne, u16_of_lt (by decide)]
    exact Nat.one_ne_zero
  have hNone := setMemoryQuota_stuck 32 1024 hTyped hNever hSize enough
  rw [hReturns enough (Nat.le_refl enough)] at hNone
  cases hNone

end Calls

end Quota

end LiveInstanceMemoryConsumer

end Live
