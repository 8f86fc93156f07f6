import Peer.Storage.BlockAgreement
import Peer.Storage.BlockRemoval
import Peer.Storage.MemoryConsumer

/-! When the memory quota of a file is respected. The blocks that a call clears are told by
their scores, and clearing one does not touch the others. -/
namespace Storage

open Basis

namespace InstanceMemoryConsumer

open SubPieceManager

variable {μ : Type} {build : Build} {x : InstanceMemoryConsumer μ}
  {m m' : SubPieceManager μ} {jobs jobs' : List SaveJob} {ids : List Nat} {w q quota b : Nat}

section Clearing

variable [BlockMap μ]

/-- What calls for different blocks leave: of each block what the call for it leaves. -/
theorem clearBlocks_spec (hSized : Sized m) (hNodup : ids.Nodup)
    (h : ids.foldlM (clearBlock build) (m, jobs) = some (m', jobs')) :
    Sized m' ∧ (∀ b ∈ ids, removal build m b = some (m'.nodeAt b)) ∧
      ∀ b ∉ ids, Alike m m' b := by
  induction ids generalizing m jobs with
  | nil =>
      obtain ⟨rfl, -⟩ := Prod.mk.inj (Option.some.inj h)
      exact ⟨hSized, fun b hb => absurd hb List.not_mem_nil, fun b _ => ⟨rfl, rfl, rfl, rfl, rfl⟩⟩
  | cons first ids ih =>
      obtain ⟨hFirst, hRest⟩ := List.nodup_cons.mp hNodup
      rw [List.foldlM_cons] at h
      obtain ⟨⟨middle, posted⟩, hClear, hFold⟩ := Option.bind_eq_some_iff.mp h
      obtain ⟨⟨middle', posted'⟩, hRemove, hEq⟩ := Option.map_eq_some_iff.mp hClear
      obtain ⟨rfl, rfl⟩ := Prod.mk.inj hEq
      have hAlike : ∀ j ≠ first, Sized middle' ∧ Alike m middle' j :=
        fun j hj => remove_alike hSized hRemove hj
      have hSized' : Sized middle' := (removeBlockDataFromMemCache_step hSized hRemove).sized hSized
      obtain ⟨hSized'', hRemoved, hKept⟩ := ih hSized' hRest hFold
      refine ⟨hSized'', ?_, ?_⟩
      · intro b hb
        rcases List.mem_cons.mp hb with rfl | hb
        · rw [(hKept b hFirst).nodeAt_eq]
          show Option.map _ _ = _
          rw [hRemove]
          rfl
        · have hNe : b ≠ first := fun hEq => hFirst (hEq ▸ hb)
          rw [← hRemoved b hb, (hAlike b hNe).2.removal_eq]
      · intro b hb
        have hNe : b ≠ first := fun hEq => hb (hEq ▸ List.mem_cons_self)
        have hOut : b ∉ ids := fun hMem => hb (List.mem_cons_of_mem _ hMem)
        exact (hAlike b hNe).2.trans (hKept b hOut)

/-- Calls for different blocks return if each of them does. -/
theorem clearBlocks_isSome (hSized : Sized m) (hNodup : ids.Nodup)
    (h : ∀ b ∈ ids, (removal build m b).isSome) :
    ∃ m' jobs', ids.foldlM (clearBlock build) (m, jobs) = some (m', jobs') := by
  induction ids generalizing m jobs with
  | nil => exact ⟨m, jobs, rfl⟩
  | cons first ids ih =>
      obtain ⟨hFirst, hRest⟩ := List.nodup_cons.mp hNodup
      have hHere := h first List.mem_cons_self
      unfold removal at hHere
      rw [Option.isSome_map] at hHere
      obtain ⟨⟨middle, posted⟩, hRemove⟩ := Option.isSome_iff_exists.mp hHere
      have hSized' : Sized middle := (removeBlockDataFromMemCache_step hSized hRemove).sized hSized
      have hLater : ∀ b ∈ ids, (removal build middle b).isSome := by
        intro b hb
        have hNe : b ≠ first := fun hEq => hFirst (hEq ▸ hb)
        rw [(remove_alike hSized hRemove hNe).2.removal_eq]
        exact h b (List.mem_cons_of_mem _ hb)
      rw [List.foldlM_cons, clearBlock, hRemove]
      exact ih hSized' hRest hLater

end Clearing

section Targets

/-- The blocks in memory, as `IsBlockDataInMemCache` tells. -/
def inMemory (m : SubPieceManager μ) : Finset Nat :=
  (Finset.range m.blocks.length).filter fun b => m.isBlockDataInMemCache b = true

/-- Those that score something. -/
def important (x : InstanceMemoryConsumer μ) : Finset Nat :=
  (inMemory x.subpieceManager).filter fun b => 0 < importanceScore x b

/-- The blocks that the call clears: those that score nothing, and as many of the others as
these are fewer than the quota, by score. -/
def targets (x : InstanceMemoryConsumer μ) (q : Nat) : Finset Nat :=
  if x.hasResource then
    (inMemory x.subpieceManager).filter (fun b => importanceScore x b = 0) ∪
      leastOf (importanceScore x) (important x) (q - (important x).card)
  else ∅

/-- The blocks that score nothing, in the order of the first loop. -/
def unimportantIds (x : InstanceMemoryConsumer μ) (ids : List Nat) : List Nat :=
  if x.hasResource then ids.filter fun b => blocksImportanceScore x b = some 0 else []

/-- The other blocks with their scores. -/
def scoredIds (x : InstanceMemoryConsumer μ) (ids : List Nat) : List (Nat × Nat) :=
  (ids.filter fun b => 0 < (blocksImportanceScore x b).getD 0).map fun b => (importanceScore x b, b)

/-- The blocks that the call clears, in its order. -/
def targetIds (x : InstanceMemoryConsumer μ) (q : Nat) : List Nat :=
  if x.hasResource then
    ((inMemory x.subpieceManager).filter fun b => importanceScore x b = 0).sort ++
      (leastFirst (importanceScore x) (important x).sort).take (q - (important x).card)
  else []

theorem mem_inMemory : b ∈ inMemory m ↔ m.isBlockDataInMemCache b = true := by
  simp only [inMemory, Finset.mem_filter, Finset.mem_range, and_iff_right_iff_imp]
  intro h
  unfold isBlockDataInMemCache at h
  cases hNode : m.nodeAt b with
  | none =>
      rw [hNode] at h
      cases h
  | some node => exact lt_of_nodeAt hNode

variable (hCount : x.subpieceManager.ridInfo.blockCount = x.subpieceManager.blocks.length)

include hCount in
theorem blocksImportanceScore_eq (b : Nat) : blocksImportanceScore x b =
    if b ∈ inMemory x.subpieceManager then some (importanceScore x b) else none := by
  unfold blocksImportanceScore
  simp only [hCount, inMemory, Finset.mem_filter, Finset.mem_range]

include hCount in
/-- A part of the blocks in memory, as the loop sees it. -/
theorem filter_eq_sort {p : Nat → Bool} {s : Finset Nat} (hSubset : s ⊆ inMemory x.subpieceManager)
    (h : ∀ b, p b = true ↔ b ∈ s) :
    (List.range x.subpieceManager.ridInfo.blockCount).filter p = s.sort := by
  have hSorted : ((List.range x.subpieceManager.ridInfo.blockCount).filter p).Pairwise (· < ·) :=
    List.pairwise_lt_range.filter _
  apply hSorted.eq_of_mem_iff (Finset.sortedLT_sort s).pairwise
  intro b
  rw [List.mem_filter, List.mem_range, h, Finset.mem_sort, hCount, and_iff_right_iff_imp]
  intro hb
  exact Finset.mem_range.mp (Finset.mem_filter.mp (hSubset hb)).1

include hCount in
theorem unimportantIds_eq : unimportantIds x (List.range x.subpieceManager.ridInfo.blockCount) =
    if x.hasResource then
      ((inMemory x.subpieceManager).filter fun b => importanceScore x b = 0).sort
    else [] := by
  unfold unimportantIds
  split
  · apply filter_eq_sort hCount (Finset.filter_subset _ _)
    intro b
    rw [decide_eq_true_eq, blocksImportanceScore_eq hCount, Finset.mem_filter]
    split <;> simp [*]
  · rfl

include hCount in
theorem scoredIds_eq : scoredIds x (List.range x.subpieceManager.ridInfo.blockCount) =
    (important x).sort.map fun b => (importanceScore x b, b) := by
  unfold scoredIds
  rw [filter_eq_sort hCount (s := important x) (Finset.filter_subset _ _)]
  intro b
  rw [decide_eq_true_eq, blocksImportanceScore_eq hCount, important, Finset.mem_filter]
  split <;> simp [*]

end Targets

section Loops

variable [BlockMap μ]

/-- The first loop clears the blocks that score nothing and gathers the others. -/
theorem scoreOrClear_loop (hNodup : ids.Nodup) (hIn : ∀ b ∈ ids, b < x.subpieceManager.ridInfo.blockCount)
    (hSized : Sized m) (hAlike : ∀ b ∈ ids, m.nodeAt b = x.subpieceManager.nodeAt b)
    (jobs : List SaveJob) (scored : List (Nat × Nat)) :
    ids.foldlM (scoreOrClear build x) ((m, jobs), scored) =
      ((unimportantIds x ids).foldlM (clearBlock build) (m, jobs)).map fun s =>
        (s, scored ++ scoredIds x ids) := by
  induction ids generalizing m jobs scored with
  | nil => simp [unimportantIds, scoredIds]
  | cons first ids ih =>
      obtain ⟨hFirst, hRest⟩ := List.nodup_cons.mp hNodup
      have hHere : m.isBlockDataInMemCache first = x.subpieceManager.isBlockDataInMemCache first := by
        unfold isBlockDataInMemCache
        rw [hAlike first List.mem_cons_self]
      have hLater : ∀ b ∈ ids, b < x.subpieceManager.ridInfo.blockCount :=
        fun b hb => hIn b (List.mem_cons_of_mem _ hb)
      have hOthers : ∀ b ∈ ids, m.nodeAt b = x.subpieceManager.nodeAt b :=
        fun b hb => hAlike b (List.mem_cons_of_mem _ hb)
      have hStay := ih hRest hLater hSized hOthers jobs
      rw [List.foldlM_cons]
      by_cases hMem : x.subpieceManager.isBlockDataInMemCache first = true
      · have hScore : blocksImportanceScore x first = some (importanceScore x first) :=
          if_pos ⟨hIn first List.mem_cons_self, hMem⟩
        by_cases hPos : 0 < importanceScore x first
        · have hBody : scoreOrClear build x ((m, jobs), scored) first =
              some ((m, jobs), scored ++ [(importanceScore x first, first)]) := by
            unfold scoreOrClear
            rw [hScore]
            simp [hPos]
          rw [hBody]
          show ids.foldlM (scoreOrClear build x) _ = _
          rw [hStay]
          simp [unimportantIds, scoredIds, hScore, hPos, Nat.ne_of_gt hPos]
        · have hZero := Nat.eq_zero_of_not_pos hPos
          have hScored : scoredIds x (first :: ids) = scoredIds x ids := by
            simp [scoredIds, hScore, hZero]
          cases hResource : x.hasResource with
          | false =>
              have hBody : scoreOrClear build x ((m, jobs), scored) first =
                  some ((m, jobs), scored) := by
                unfold scoreOrClear
                rw [hScore, hZero]
                simp [hResource]
              rw [hBody, hScored]
              show ids.foldlM (scoreOrClear build x) _ = _
              rw [hStay]
              simp [unimportantIds, hResource]
          | true =>
              have hBody : scoreOrClear build x ((m, jobs), scored) first =
                  (clearBlock build (m, jobs) first).map fun cleared => (cleared, scored) := by
                unfold scoreOrClear
                rw [hScore, hZero]
                simp [hResource, hHere, hMem]
              have hIds : unimportantIds x (first :: ids) = first :: unimportantIds x ids := by
                simp [unimportantIds, hResource, hScore, hZero]
              rw [hBody, hScored, hIds, List.foldlM_cons]
              cases hClear : clearBlock build (m, jobs) first with
              | none => rfl
              | some cleared =>
                  obtain ⟨⟨middle, posted⟩, hRemove, hEq⟩ := Option.map_eq_some_iff.mp hClear
                  subst hEq
                  have hSized' := (removeBlockDataFromMemCache_step hSized hRemove).sized hSized
                  apply ih hRest hLater hSized'
                  intro b hb
                  have hNe : b ≠ first := fun hEq => hFirst (hEq ▸ hb)
                  rw [(remove_alike hSized hRemove hNe).2.nodeAt_eq]
                  exact hOthers b hb
      · have hScore : blocksImportanceScore x first = none := if_neg fun h => hMem h.2
        have hBody : scoreOrClear build x ((m, jobs), scored) first = some ((m, jobs), scored) := by
          unfold scoreOrClear
          rw [hScore]
          simp [hHere, hMem]
        rw [hBody]
        show ids.foldlM (scoreOrClear build x) _ = _
        rw [hStay]
        simp [unimportantIds, scoredIds, hScore]

/-- The call clears its targets and nothing else. -/
theorem setMemoryQuota_eq
    (hCount : x.subpieceManager.ridInfo.blockCount = x.subpieceManager.blocks.length)
    (hSized : Sized x.subpieceManager) :
    setMemoryQuota build w x quota =
      (targetIds x (getBlocksQuota w x quota)).foldlM (clearBlock build) (x.subpieceManager, []) := by
  have hFirst : (List.range x.subpieceManager.ridInfo.blockCount).foldlM (scoreOrClear build x)
      ((x.subpieceManager, []), []) = _ :=
    scoreOrClear_loop List.nodup_range (fun b hb => List.mem_range.mp hb) hSized (fun b _ => rfl) [] []
  have hSecond : ∀ (n : Nat) (s : SubPieceManager μ × List SaveJob), ((leastFirst Prod.fst (scoredIds x
      (List.range x.subpieceManager.ridInfo.blockCount))).take n).foldlM
        (fun s entry => clearBlock build s entry.2) s =
      ((leastFirst (importanceScore x) (important x).sort).take n).foldlM (clearBlock build) s := by
    intro n s
    have hMap : leastFirst Prod.fst ((important x).sort.map fun b => (importanceScore x b, b)) =
        (leastFirst (importanceScore x) (important x).sort).map fun b => (importanceScore x b, b) :=
      leastFirst_map fun b => rfl
    rw [scoredIds_eq hCount, hMap, ← List.map_take, List.foldlM_map]
  have hLength : (scoredIds x (List.range x.subpieceManager.ridInfo.blockCount)).length =
      (important x).card := by
    rw [scoredIds_eq hCount, List.length_map, Finset.length_sort]
  unfold setMemoryQuota targetIds
  rw [hFirst, unimportantIds_eq hCount, List.nil_append]
  cases hResource : x.hasResource with
  | false => simp
  | true =>
      rw [if_pos rfl, if_pos rfl, List.foldlM_append]
      cases List.foldlM (clearBlock build) (x.subpieceManager, [])
        ((inMemory x.subpieceManager).filter fun b => importanceScore x b = 0).sort with
      | none => rfl
      | some s =>
          show (if _ ∧ _ then _ else _) = _
          rw [hLength, hSecond]
          by_cases hFew : (important x).card < getBlocksQuota w x quota
          · rw [if_pos ⟨hFew, rfl⟩]
            rfl
          · rw [if_neg fun h => hFew h.1, Nat.sub_eq_zero_of_le (Nat.not_lt.mp hFew)]
            rfl

end Loops

section Respected

theorem getBlocksQuota_eq (w : Nat) (x : InstanceMemoryConsumer μ) (quota : Nat) :
    getBlocksQuota w x quota = blocksGranted w x.subpieceManager.ridInfo.blockSize quota := by
  unfold getBlocksQuota
  dsimp only
  split
  · rename_i hNone
    rw [hNone, blocksGranted_zero]
  split
  · rename_i hNone
    rw [hNone, blocksGranted, Nat.div_zero]
  · rfl

theorem mem_targetIds : b ∈ targetIds x q ↔ b ∈ targets x q := by
  unfold targetIds targets
  split
  · rw [List.mem_append, Finset.mem_union, Finset.mem_sort, mem_leastOf]
  · simp

theorem targets_subset (x : InstanceMemoryConsumer μ) (q : Nat) :
    targets x q ⊆ inMemory x.subpieceManager := by
  unfold targets
  split
  · apply Finset.union_subset (Finset.filter_subset _ _)
    exact (leastOf_subset _ _ _).trans (Finset.filter_subset _ _)
  · exact Finset.empty_subset _

theorem targetIds_nodup (x : InstanceMemoryConsumer μ) (q : Nat) : (targetIds x q).Nodup := by
  unfold targetIds
  split
  · apply List.nodup_append.mpr
    refine ⟨Finset.sort_nodup _ _, ?_, ?_⟩
    · exact ((leastFirst_perm _ _).nodup_iff.mpr (Finset.sort_nodup _ _)).sublist
        (List.take_sublist _ _)
    · intro b hb c hc hEq
      subst hEq
      have hZero := (Finset.mem_filter.mp ((Finset.mem_sort _).mp hb)).2
      have hPos := (Finset.mem_filter.mp (leastOf_subset _ _ _ (mem_leastOf.mpr hc))).2
      omega
  · exact List.nodup_nil

/-- Nothing that scores less than a target is left out. -/
theorem score_le_of_target {kept : Nat} (hb : b ∈ targets x q)
    (hKept : kept ∈ inMemory x.subpieceManager) (hOut : kept ∉ targets x q) :
    importanceScore x b ≤ importanceScore x kept := by
  unfold targets at hb hOut
  split at hb
  · rename_i hResource
    rw [if_pos hResource, Finset.mem_union, not_or] at hOut
    rcases Finset.mem_union.mp hb with hZero | hLeast
    · rw [(Finset.mem_filter.mp hZero).2]
      exact Nat.zero_le _
    · have hImportant : kept ∈ important x := by
        refine Finset.mem_filter.mpr ⟨hKept, Nat.pos_of_ne_zero fun hNone => ?_⟩
        exact hOut.1 (Finset.mem_filter.mpr ⟨hKept, hNone⟩)
      exact leastOf_le hLeast hImportant hOut.2
  · exact absurd hb (Finset.notMem_empty b)

theorem card_targets (hResource : x.hasResource = true) : (targets x q).card + (important x).card =
    (inMemory x.subpieceManager).card + min (q - (important x).card) (important x).card := by
  have hDisjoint : Disjoint ((inMemory x.subpieceManager).filter fun b => importanceScore x b = 0)
      (leastOf (importanceScore x) (important x) (q - (important x).card)) := by
    rw [Finset.disjoint_left]
    intro b hZero hLeast
    have hPos := (Finset.mem_filter.mp (leastOf_subset _ _ _ hLeast)).2
    have hNone := (Finset.mem_filter.mp hZero).2
    omega
  have hSplit := Finset.card_filter_add_card_filter_not (s := inMemory x.subpieceManager)
    fun b => importanceScore x b = 0
  have hImportant : ((inMemory x.subpieceManager).filter fun b => ¬ importanceScore x b = 0) =
      important x := by
    apply Finset.filter_congr
    intro b _
    rw [Nat.pos_iff_ne_zero]
  rw [hImportant] at hSplit
  rw [targets, if_pos hResource, Finset.card_union_of_disjoint hDisjoint, card_leastOf]
  omega

theorem isBlockDataInMemCache_eq (m : SubPieceManager μ) (b : Nat) :
    m.isBlockDataInMemCache b = !(m.nodeAt b).all BlockNode.isEmpty := by
  unfold isBlockDataInMemCache
  cases m.nodeAt b <;> rfl

/-- The blocks in memory that may be evicted. -/
def evictable (build : Build) (m : SubPieceManager μ) : Finset Nat :=
  (inMemory m).filter fun b => (m.nodeAt b).any (mayEvict build m)

/-- The blocks in memory that a removal takes out whole. -/
def vanishing (build : Build) (m : SubPieceManager μ) : Finset Nat :=
  (inMemory m).filter fun b => (m.nodeAt b).any (vanishes build m b)

/-- The blocks in memory that a removal leaves as they are. -/
def staying (build : Build) (m : SubPieceManager μ) : Finset Nat :=
  (inMemory m).filter fun b => (m.nodeAt b).any (stays build m b)

/-- What is promised of a call that leaves the store `m'`, where `q` blocks are allowed. -/
structure QuotaRespected (build : Build) (x : InstanceMemoryConsumer μ) (q : Nat)
    (m' : SubPieceManager μ) : Prop where
  size_le : (inMemory m').card ≤
    max q (inMemory x.subpieceManager \ evictable build x.subpieceManager).card
  excess : (inMemory x.subpieceManager \ inMemory m').card ≤ (inMemory x.subpieceManager).card - q
  least : ∀ b ∈ inMemory x.subpieceManager, b ∉ inMemory m' → ∀ kept ∈ inMemory m',
    kept ∈ evictable build x.subpieceManager → importanceScore x b ≤ importanceScore x kept
  buffers : ∀ b ∈ inMemory m',
    buffersIn (m'.nodeAt b) = buffersIn (x.subpieceManager.nodeAt b)
  untouched : (inMemory x.subpieceManager).card ≤ q → inMemory m' = inMemory x.subpieceManager

/-- When the blocks that the call clears are the right ones, where it takes the quota for
`granted` blocks and it is one of `q`: each of them goes whole or stays as it is; a store
within the quota loses none; of a store above it as many go as the excess is, or as may be
evicted; and none of those that stay and could go scores less than one that goes. -/
structure TargetsFit (build : Build) (x : InstanceMemoryConsumer μ) (granted q : Nat) : Prop where
  whole : ∀ b ∈ targets x granted,
    b ∈ vanishing build x.subpieceManager ∨ b ∈ staying build x.subpieceManager
  within : (inMemory x.subpieceManager).card ≤ q →
    targets x granted ⊆ staying build x.subpieceManager
  above : q < (inMemory x.subpieceManager).card →
    (targets x granted ∩ vanishing build x.subpieceManager).card =
      min (evictable build x.subpieceManager).card ((inMemory x.subpieceManager).card - q)
  least : ∀ b ∈ targets x granted ∩ vanishing build x.subpieceManager,
    ∀ kept ∈ targets x granted ∩ staying build x.subpieceManager,
      kept ∈ evictable build x.subpieceManager → importanceScore x b ≤ importanceScore x kept

theorem exists_of_inMemory (hb : b ∈ inMemory m) :
    ∃ node, m.nodeAt b = some node ∧ node.isEmpty = false := by
  rw [mem_inMemory, isBlockDataInMemCache] at hb
  cases hNode : m.nodeAt b with
  | none =>
      rw [hNode] at hb
      cases hb
  | some node =>
      rw [hNode] at hb
      exact ⟨node, rfl, by simpa using hb⟩

theorem vanishing_subset (build : Build) (m : SubPieceManager μ) :
    vanishing build m ⊆ evictable build m := by
  intro b hb
  obtain ⟨hMem, hVanishes⟩ := Finset.mem_filter.mp hb
  obtain ⟨node, hNode, hSome⟩ := exists_of_inMemory hMem
  rw [hNode, Option.any_some] at hVanishes
  refine Finset.mem_filter.mpr ⟨hMem, ?_⟩
  rw [hNode, Option.any_some]
  exact mayEvict_of_vanishes hSome hVanishes

variable [BlockMap μ]

/-- A store as it is kept: its bitmap and its RID information have the length of its vector of
nodes, and what a node has in memory lies in its block. -/
structure Standing (m : SubPieceManager μ) : Prop where
  sized : Sized m
  count_eq : m.ridInfo.blockCount = m.blocks.length
  placed : ∀ b node, m.nodeAt b = some node → node.Placed
  whole : ∀ b node, m.nodeAt b = some node →
    node.totalSubpieceCount ≤ m.ridInfo.blockSize / bytesNumPerSubpiece + 1

theorem Standing.of_blocksAgree {r : RidInfo} (hr : r.Valid) (h : BlocksAgree r m)
    (hInfo : m.ridInfo.Valid) : Standing m where
  sized := h.builtFor.sized
  count_eq := by
    rw [hInfo.blockCount_eq, h.builtFor.fileLength_eq, h.builtFor.blockSize_eq,
      ← hr.blockCount_eq, h.builtFor.length_eq]
  placed b node hNode := by
    have hFits := (h.node (h.builtFor.length_eq ▸ lt_of_nodeAt hNode) hNode).1
    have hCap := RidInfo.capacity_lt hr b
    refine ⟨?_, ?_, ?_⟩
    · rw [hFits.total_eq]
      exact RidInfo.capacity_pos hr b
    · rw [hFits.total_eq]
      exact hFits.keys_lt
    · intro k hk
      have hLt := hFits.keys_lt k hk
      rw [hFits.pieces_eq, BlockNode.piecesOf_eq (by omega)]
      simp only [subpieceNumPerPiece]
      omega
  whole b node hNode := by
    have hFits := (h.node (h.builtFor.length_eq ▸ lt_of_nodeAt hNode) hNode).1
    rw [hFits.total_eq, h.builtFor.blockSize_eq]
    exact (RidInfo.capacity_le hr b).trans (Nat.le_succ _)

/-- So is every store that calls lead to from one whose blocks agree, if the calls keep the
blocks. -/
theorem standing_of_run {r : RidInfo} {start : SubPieceManager μ} (hr : r.Addressable)
    (hStart : BlocksAgree r start)
    (run : Reaches (Step build) (fun m op => op.KeepsBlocks r m) start m)
    (hInfo : m.ridInfo.Valid) : Standing m := by
  apply Standing.of_blocksAgree hr.toValid _ hInfo
  exact run.invariant hStart fun _ _ _ h hMet hStep => h.step hr hMet hStep

theorem removal_of_node {node : BlockNode} (hNode : m.nodeAt b = some node) :
    removal build m b = nodeRemoved build m b node := by
  rw [removal, remove_nodeAt (lt_of_nodeAt hNode), hNode]
  rfl

theorem mem_vanishing_iff (hm : Standing m) (hb : b ∈ inMemory m) :
    b ∈ vanishing build m ↔ TakenOut (removal build m b) := by
  obtain ⟨node, hNode, hSome⟩ := exists_of_inMemory hb
  rw [removal_of_node hNode, takenOut_iff (hm.placed b node hNode) (hm.whole b node hNode) hSome,
    vanishing, Finset.mem_filter, hNode]
  simp [hb]

theorem mem_staying_iff (hm : Standing m) (hb : b ∈ inMemory m) :
    b ∈ staying build m ↔ ∃ left, removal build m b = some left ∧
      left.all BlockNode.isEmpty = false ∧ buffersIn left = buffersIn (m.nodeAt b) := by
  obtain ⟨node, hNode, hSome⟩ := exists_of_inMemory hb
  have hAlone : LeftAlone node (nodeRemoved build m b node) ↔ stays build m b node = true :=
    leftAlone_iff (hm.placed b node hNode) (hm.whole b node hNode) hSome
  rw [removal_of_node hNode, staying, Finset.mem_filter, hNode]
  simp only [hb, true_and, Option.any_some]
  exact hAlone.symm

/-- What the calls leave of a target. -/
theorem target_cleared (hm : Standing x.subpieceManager)
    (h : (targetIds x q).foldlM (clearBlock build) (x.subpieceManager, []) = some (m', jobs))
    (hb : b ∈ targets x q) :
    (b ∈ vanishing build x.subpieceManager ↔ b ∉ inMemory m') ∧
      (b ∈ staying build x.subpieceManager ↔ b ∈ inMemory m' ∧
        buffersIn (m'.nodeAt b) = buffersIn (x.subpieceManager.nodeAt b)) := by
  have hMem := targets_subset x q hb
  obtain ⟨-, hCleared, -⟩ := clearBlocks_spec hm.sized (targetIds_nodup x q) h
  rw [mem_vanishing_iff hm hMem, mem_staying_iff hm hMem, hCleared b (mem_targetIds.mpr hb),
    mem_inMemory, isBlockDataInMemCache_eq]
  simp [TakenOut]

/-- What stays in memory when the targets are cleared. -/
theorem inMemory_cleared (hm : Standing x.subpieceManager)
    (h : (targetIds x q).foldlM (clearBlock build) (x.subpieceManager, []) = some (m', jobs)) :
    inMemory m' =
      inMemory x.subpieceManager \ (targets x q ∩ vanishing build x.subpieceManager) := by
  obtain ⟨-, -, hKept⟩ := clearBlocks_spec hm.sized (targetIds_nodup x q) h
  ext b
  rw [Finset.mem_sdiff, Finset.mem_inter]
  by_cases hb : b ∈ targets x q
  · have hMem := targets_subset x q hb
    rw [(target_cleared hm h hb).1]
    simp [hb, hMem]
  · rw [mem_inMemory, isBlockDataInMemCache_eq, (hKept b (mt mem_targetIds.mp hb)).nodeAt_eq,
      mem_inMemory, isBlockDataInMemCache_eq]
    simp [hb]

theorem respected_iff {granted : Nat} (hm : Standing x.subpieceManager)
    (h : (targetIds x granted).foldlM (clearBlock build) (x.subpieceManager, []) =
      some (m', jobs)) :
    QuotaRespected build x q m' ↔ TargetsFit build x granted q := by
  obtain ⟨-, -, hKept⟩ := clearBlocks_spec hm.sized (targetIds_nodup x granted) h
  have hTarget := fun {b} => target_cleared (b := b) hm h
  have hMemory := inMemory_cleared hm h
  have hEvictable : evictable build x.subpieceManager ⊆ inMemory x.subpieceManager :=
    Finset.filter_subset _ _
  have hVanishing := vanishing_subset build x.subpieceManager
  have hGone : targets x granted ∩ vanishing build x.subpieceManager ⊆
      inMemory x.subpieceManager :=
    Finset.inter_subset_left.trans (targets_subset x granted)
  have hFew := Finset.card_le_card ((Finset.inter_subset_right :
    targets x granted ∩ vanishing build x.subpieceManager ⊆ _).trans hVanishing)
  have hSize : (inMemory m').card + (targets x granted ∩ vanishing build x.subpieceManager).card =
      (inMemory x.subpieceManager).card := by
    rw [hMemory]
    exact Finset.card_sdiff_add_card_eq_card hGone
  have hFixed := Finset.card_sdiff_add_card_eq_card hEvictable
  have hExcess : inMemory x.subpieceManager \ inMemory m' =
      targets x granted ∩ vanishing build x.subpieceManager := by
    rw [hMemory]
    exact Finset.sdiff_sdiff_eq_self hGone
  constructor
  · intro hRespected
    have hLe := hRespected.size_le
    have hOnly := hRespected.excess
    rw [hExcess] at hOnly
    have hStays : ∀ b ∈ targets x granted, b ∈ inMemory m' →
        b ∈ staying build x.subpieceManager :=
      fun b hb hHere => (hTarget hb).2.mpr ⟨hHere, hRespected.buffers b hHere⟩
    refine ⟨fun b hb => ?_, fun hWithin b hb => ?_, fun hAbove => by omega, ?_⟩
    · by_cases hHere : b ∈ inMemory m'
      · exact Or.inr (hStays b hb hHere)
      · exact Or.inl ((hTarget hb).1.mpr hHere)
    · apply hStays b hb
      rw [hRespected.untouched hWithin]
      exact targets_subset x granted hb
    · intro b hb kept hStay hCould
      obtain ⟨hGoes, hVanishes⟩ := Finset.mem_inter.mp hb
      obtain ⟨hKeptTarget, hKeptStays⟩ := Finset.mem_inter.mp hStay
      exact hRespected.least b (targets_subset x granted hGoes) ((hTarget hGoes).1.mp hVanishes)
        kept ((hTarget hKeptTarget).2.mp hKeptStays).1 hCould
  · intro hFit
    have hStays : ∀ b ∈ targets x granted, b ∈ inMemory m' →
        b ∈ staying build x.subpieceManager :=
      fun b hb hHere => (hFit.whole b hb).resolve_left fun hOut => (hTarget hb).1.mp hOut hHere
    have hNothing : (inMemory x.subpieceManager).card ≤ q →
        targets x granted ∩ vanishing build x.subpieceManager = ∅ := by
      intro hWithin
      apply Finset.eq_empty_of_forall_notMem
      intro b hb
      obtain ⟨hGoes, hVanishes⟩ := Finset.mem_inter.mp hb
      exact (hTarget hGoes).1.mp hVanishes ((hTarget hGoes).2.mp (hFit.within hWithin hGoes)).1
    have hCount : (targets x granted ∩ vanishing build x.subpieceManager).card =
        min (evictable build x.subpieceManager).card ((inMemory x.subpieceManager).card - q) := by
      by_cases hWithin : (inMemory x.subpieceManager).card ≤ q
      · rw [hNothing hWithin, Finset.card_empty]
        omega
      · exact hFit.above (Nat.not_le.mp hWithin)
    refine ⟨by omega, by rw [hExcess]; omega, ?_, ?_, ?_⟩
    · intro b hb hEvicted kept hHere hCould
      have hGoes : b ∈ targets x granted ∩ vanishing build x.subpieceManager := by
        rw [← hExcess]
        exact Finset.mem_sdiff.mpr ⟨hb, hEvicted⟩
      by_cases hKeptTarget : kept ∈ targets x granted
      · exact hFit.least b hGoes kept
          (Finset.mem_inter.mpr ⟨hKeptTarget, hStays kept hKeptTarget hHere⟩) hCould
      · exact score_le_of_target (Finset.mem_inter.mp hGoes).1 (hEvictable hCould) hKeptTarget
    · intro b hHere
      by_cases hb : b ∈ targets x granted
      · exact ((hTarget hb).2.mp (hStays b hb hHere)).2
      · rw [(hKept b (mt mem_targetIds.mp hb)).nodeAt_eq]
    · intro hWithin
      rw [hMemory, hNothing hWithin, Finset.sdiff_empty]

/-- The quota is respected exactly if the blocks that the call clears are the right ones. -/
theorem vodQuotaRespected_iff (build : Build) (w quota : Nat) (x : InstanceMemoryConsumer μ)
    (hm : Standing x.subpieceManager) :
    (∃ m' jobs, setMemoryQuota build w x quota = some (m', jobs) ∧
      QuotaRespected build x (blocksAllowed x.subpieceManager.ridInfo.blockSize quota) m') ↔
    TargetsFit build x (blocksGranted w x.subpieceManager.ridInfo.blockSize quota)
      (blocksAllowed x.subpieceManager.ridInfo.blockSize quota) := by
  rw [setMemoryQuota_eq hm.count_eq hm.sized, getBlocksQuota_eq]
  constructor
  · rintro ⟨m', jobs, hCall, hRespected⟩
    exact (respected_iff hm hCall).mp hRespected
  · intro hFit
    obtain ⟨m', jobs, hCall⟩ : ∃ m' jobs,
        (targetIds x (blocksGranted w x.subpieceManager.ridInfo.blockSize quota)).foldlM
          (clearBlock build) (x.subpieceManager, []) = some (m', jobs) := by
      apply clearBlocks_isSome hm.sized (targetIds_nodup x _)
      intro b hb
      have hTarget := mem_targetIds.mp hb
      have hMem := targets_subset x _ hTarget
      rcases hFit.whole b hTarget with hGoes | hStays
      · obtain ⟨left, hLeft, -⟩ := (mem_vanishing_iff hm hMem).mp hGoes
        rw [hLeft]
        rfl
      · obtain ⟨left, hLeft, -⟩ := (mem_staying_iff hm hMem).mp hStays
        rw [hLeft]
        rfl
    exact ⟨m', jobs, hCall, (respected_iff hm hCall).mpr hFit⟩

/-- Where a removal takes every block out of memory and the sum of the quota does not wrap, the
call is right exactly for the empty store and for the quota that the blocks which score
something just meet. -/
theorem targetsFit_iff_of_vanishing (hResource : x.hasResource = true)
    (hAll : inMemory x.subpieceManager ⊆ vanishing build x.subpieceManager)
    (hm : Standing x.subpieceManager)
    (hSum : quota + x.subpieceManager.ridInfo.blockSize - 1 < 2 ^ w) :
    TargetsFit build x (blocksGranted w x.subpieceManager.ridInfo.blockSize quota)
        (blocksAllowed x.subpieceManager.ridInfo.blockSize quota) ↔
      inMemory x.subpieceManager = ∅ ∨
        (important x).card = blocksAllowed x.subpieceManager.ridInfo.blockSize quota := by
  rw [blocksGranted_of_lt hSum]
  generalize blocksAllowed x.subpieceManager.ridInfo.blockSize quota = q
  have hTargets := targets_subset x q
  have hEvictable : evictable build x.subpieceManager = inMemory x.subpieceManager :=
    Finset.Subset.antisymm (Finset.filter_subset _ _) (hAll.trans (vanishing_subset build _))
  have hGone : targets x q ∩ vanishing build x.subpieceManager = targets x q :=
    Finset.inter_eq_left.mpr (hTargets.trans hAll)
  have hNever : ∀ b ∈ targets x q, b ∉ staying build x.subpieceManager := by
    intro b hb hStays
    have hMem := hTargets hb
    obtain ⟨left, hLeft, hOut⟩ := (mem_vanishing_iff hm hMem).mp (hAll hMem)
    obtain ⟨left', hLeft', hIn, -⟩ := (mem_staying_iff hm hMem).mp hStays
    cases hLeft.symm.trans hLeft'
    rw [hOut] at hIn
    cases hIn
  have hCard := card_targets (q := q) hResource
  have hImportant : (important x).card ≤ (inMemory x.subpieceManager).card :=
    Finset.card_le_card (Finset.filter_subset _ _)
  rw [← Finset.card_eq_zero]
  constructor
  · intro hFit
    by_cases hWithin : (inMemory x.subpieceManager).card ≤ q
    · have hZero : (targets x q).card = 0 := by
        rw [Finset.card_eq_zero]
        apply Finset.eq_empty_of_forall_notMem
        exact fun b hb => hNever b hb (hFit.within hWithin hb)
      omega
    · have hAbove := hFit.above (Nat.not_le.mp hWithin)
      rw [hGone, hEvictable] at hAbove
      omega
  · intro hRight
    refine ⟨fun b hb => Or.inl (hAll (hTargets hb)), fun hWithin b hb => ?_, fun hAbove => ?_, ?_⟩
    · have hSome : 0 < (targets x q).card := Finset.card_pos.mpr ⟨b, hb⟩
      omega
    · rw [hGone, hEvictable]
      omega
    · intro b _ kept hStay
      obtain ⟨hKept, hStays⟩ := Finset.mem_inter.mp hStay
      exact absurd hStays (hNever kept hKept)

end Respected

section Runs

/-- A file of two blocks of one subpiece, both of them in memory, played from its start. -/
private def twoBlocks : InstanceMemoryConsumer (List Bool) where
  subpieceManager :=
    { ridInfo := ⟨Guid.zero, 2048, 1024, 2, [Guid.zero, Guid.zero], twoKib_lt_uint32,
                   oneKib_lt_uint32, two_lt_uint32⟩
      lastBlockCapacity := 1
      lastSubpieceInfo := .make 1 0
      lastSubpieceSize := 1024
      blocks := (List.range 2).map fun b =>
        some ⟨Finmap.singleton 0 ⟨List.replicate 1024 0, true⟩, [1], .mem, 1, 1, b, true⟩
      blockBitMap := [true, true]
      blocksCount := 2
      downloadBytes := 2048
      md5HashFailed := 0
      needVerifyBlock := false }
  hasResource := true
  playingPositions := [0]
  accessTimedOut := fun _ => false

private def noDisk : Build := ⟨false, fun _ => Guid.zero⟩

private theorem twoBlocks_nodes {node : BlockNode}
    (h : twoBlocks.subpieceManager.nodeAt b = some node) :
    node.totalSubpieceCount = 1 ∧ node.keys = {0} ∧ node.pieceCount = [1] := by
  have hLt : b < 2 := lt_of_nodeAt h
  obtain rfl | rfl : b = 0 ∨ b = 1 := by omega
  · cases h
    exact ⟨rfl, rfl, rfl⟩
  · cases h
    exact ⟨rfl, rfl, rfl⟩

private theorem twoBlocks_standing : Standing twoBlocks.subpieceManager where
  sized := rfl
  count_eq := rfl
  placed b node h := by
    obtain ⟨hTotal, hKeys, hPieces⟩ := twoBlocks_nodes h
    refine ⟨by omega, ?_, ?_⟩
    · simp [hKeys, hTotal]
    · simp [hKeys, hPieces, subpieceNumPerPiece]
  whole b node h := by
    rw [(twoBlocks_nodes h).1]
    exact Nat.le_add_left 1 _

/-- A quota of two blocks leaves two blocks. -/
theorem vodQuotaRespected_of_twoBlocks : ∃ m' jobs,
    setMemoryQuota noDisk 32 twoBlocks 2048 = some (m', jobs) ∧
      QuotaRespected noDisk twoBlocks (blocksAllowed 1024 2048) m' := by
  apply (vodQuotaRespected_iff noDisk 32 2048 twoBlocks twoBlocks_standing).mpr
  have hNone : targets twoBlocks (blocksGranted 32 1024 2048) = ∅ := by decide +kernel
  have hSize : (inMemory twoBlocks.subpieceManager).card ≤ blocksAllowed 1024 2048 := by
    decide +kernel
  have hTargets : targets twoBlocks (blocksGranted 32
      twoBlocks.subpieceManager.ridInfo.blockSize 2048) = ∅ := hNone
  refine ⟨?_, fun _ => ?_, fun hAbove => absurd hSize (Nat.not_le.mpr hAbove), ?_⟩
  · rw [hTargets]
    exact fun b hb => absurd hb (Finset.notMem_empty b)
  · rw [hTargets]
    exact Finset.empty_subset _
  · rw [hTargets, Finset.empty_inter]
    exact fun b hb => absurd hb (Finset.notMem_empty b)

/-- A quota of one block leaves two blocks. -/
theorem vodQuotaRespected_fails : ¬ ∀ (build : Build) (w quota : Nat)
    (x : InstanceMemoryConsumer (List Bool)), Standing x.subpieceManager →
    ∃ m' jobs, setMemoryQuota build w x quota = some (m', jobs) ∧
      QuotaRespected build x (blocksAllowed x.subpieceManager.ridInfo.blockSize quota) m' := by
  intro h
  obtain ⟨m', jobs, hCall, hRespected⟩ := h noDisk 32 1024 twoBlocks twoBlocks_standing
  have hSize : ((setMemoryQuota noDisk 32 twoBlocks 1024).map fun s => (inMemory s.1).card) =
      some 2 := by decide +kernel
  have hBound : max (blocksAllowed 1024 1024) (inMemory twoBlocks.subpieceManager \
      evictable noDisk twoBlocks.subpieceManager).card = 1 := by decide +kernel
  have hLe : (inMemory m').card ≤ max (blocksAllowed 1024 1024) _ := hRespected.size_le
  rw [hCall, Option.map_some, Option.some_inj] at hSize
  rw [hBound, hSize] at hLe
  exact absurd hLe (by decide)

end Runs

end InstanceMemoryConsumer

end Storage
