import Mathlib.Data.List.Sort
import Peer.Live.AnnounceMap
import Peer.Live.DeliveryRuns

/-! What a peer keeps of an announce map is what the sender had when it built the map. -/
namespace Live

open Basis Storage HeaderSubPiece LiveBlockNode

variable {D : Digests} {c : LiveCacheManager} {node : LiveBlockNode} {m : LiveAnnounceMap}
  {x x' : AnnounceReceiver} {b first n : Nat} {α : Type}

section Order

theorem keysInOrder_pairwise (m : Finmap fun _ : Nat => α) :
    (keysInOrder m).Pairwise (· < ·) := List.pairwise_lt_range.filter _

theorem mem_keysInOrder {m : Finmap fun _ : Nat => α} : b ∈ keysInOrder m ↔ b ∈ m := by
  unfold keysInOrder
  rw [List.mem_filter, List.mem_range, decide_eq_true_eq, and_iff_right_iff_imp]
  intro hMem
  have hLe : id b ≤ m.keys.sup id := Finset.le_sup (Finmap.mem_keys.mpr hMem)
  exact Nat.lt_succ_of_le hLe

/-- The entries of a map whose keys are the members of a strictly sorted list. -/
theorem entries_eq {m : Finmap fun _ : Nat => α} {ids : List Nat} {f : Nat → α}
    (hSorted : ids.Pairwise (· < ·))
    (h : ∀ b, m.lookup b = if b ∈ ids then some (f b) else none) :
    entries m = ids.map fun b => (b, f b) := by
  have hMem : ∀ b, b ∈ keysInOrder m ↔ b ∈ ids := by
    intro b
    rw [mem_keysInOrder, ← Finmap.lookup_isSome, h]
    split <;> simp [*]
  have hKeys : keysInOrder m = ids := (keysInOrder_pairwise m).eq_of_mem_iff hSorted hMem
  unfold entries
  rw [hKeys, ← List.filterMap_eq_map]
  apply List.filterMap_congr
  intro b hb
  rw [h, if_pos hb]
  rfl

theorem le_getCacheLastBlockId (h : c.node b = some node) : b ≤ c.getCacheLastBlockId := by
  have hMem : b ∈ keysInOrder c.blockNodes := by
    rw [mem_keysInOrder, ← Finmap.lookup_isSome]
    exact Option.isSome_iff_exists.mpr ⟨node, h⟩
  have hSorted := keysInOrder_pairwise c.blockNodes
  unfold LiveCacheManager.getCacheLastBlockId
  generalize keysInOrder c.blockNodes = keys at hMem hSorted
  induction keys using List.reverseRecOn with
  | nil => cases hMem
  | append_singleton rest last _ =>
      rw [List.getLastD_concat]
      rw [List.mem_append, List.mem_singleton] at hMem
      rcases hMem with hOld | rfl
      · exact (List.pairwise_append.mp hSorted).2.2 b hOld last (by simp) |>.le
      · exact Nat.le_refl _

theorem blockIds_pairwise {liveInterval : Nat} (h : 0 < liveInterval) (first n : Nat) :
    (blockIds first liveInterval n).Pairwise (· < ·) := by
  unfold blockIds
  rw [List.pairwise_map]
  apply List.pairwise_lt_range.imp
  intro i j hLt
  have := Nat.mul_lt_mul_of_pos_right hLt h
  omega

end Order

section Receive

theorem setSubPieceCountMap_lookup (counts : LiveSubPieceCountManager) (first n : Nat)
    (hFit : ∀ b ∈ blockIds first counts.liveInterval n, b < 2 ^ 32) (hPos : 0 < counts.liveInterval)
    (f : Nat → Nat) (b : Nat) :
    (counts.setSubPieceCountMap first
      ((blockIds first counts.liveInterval n).map f)).subpieceCountMap.lookup b =
      (counts.subpieceCountMap.lookup b).or
        (if b ∈ blockIds first counts.liveInterval n then some (f b) else none) := by
  unfold LiveSubPieceCountManager.setSubPieceCountMap
  dsimp only
  induction n with
  | zero => simp [blockIds]
  | succ n ih =>
      have hIds := blockIds_succ first counts.liveInterval n
      have hNew := not_mem_blockIds hPos first n
      have hLength : (blockIds first counts.liveInterval n).length = n := by simp [blockIds]
      have hLt : first + n * counts.liveInterval < 2 ^ 32 := hFit _ (by rw [hIds]; simp)
      have hPrior := ih fun b hMem => hFit b (by rw [hIds]; exact List.mem_append_left _ hMem)
      rw [hIds, List.map_append, List.zipIdx_append, List.foldl_append]
      simp only [List.map_singleton, List.zipIdx_singleton, List.foldl_cons, List.foldl_nil,
        List.length_map, hLength, Nat.zero_add, u32_of_lt hLt, List.mem_append, List.mem_singleton]
      rw [insertNew_lookup, hPrior]
      by_cases hb : b = first + n * counts.liveInterval
      · subst hb
        simp [hNew]
      · simp [hb]

/-- A block at interval steps from the requested one, before the first of the map. -/
def Forgotten (request first liveInterval b : Nat) : Prop :=
  request ≤ b ∧ b < first ∧ liveInterval ∣ b - request

instance (request first liveInterval b : Nat) : Decidable (Forgotten request first liveInterval b) :=
  inferInstanceAs (Decidable (_ ∧ _ ∧ _))

theorem Forgotten.step_iff {liveInterval b' : Nat} (hPos : 0 < liveInterval) (hb : b' ≠ b) :
    Forgotten (b + liveInterval) first liveInterval b' ↔ Forgotten b first liveInterval b' := by
  unfold Forgotten
  constructor
  · rintro ⟨hLe, hLt, hDvd⟩
    refine ⟨by omega, hLt, ?_⟩
    rw [show b' - b = b' - (b + liveInterval) + liveInterval by omega]
    exact Nat.dvd_add hDvd (Nat.dvd_refl _)
  · rintro ⟨hLe, hLt, hDvd⟩
    have hFar := Nat.le_of_dvd (by omega) hDvd
    refine ⟨by omega, hLt, ?_⟩
    rw [show b' - (b + liveInterval) = b' - b - liveInterval by omega]
    exact Nat.dvd_sub hDvd (Nat.dvd_refl _)

/-- The blocks between the requested one and the first of the map are forgotten. -/
theorem forget_spec (rounds : Nat) {liveInterval : Nat} (hPos : 0 < liveInterval)
    (hFit : first + liveInterval < 2 ^ 32) (hRounds : first ≤ b + rounds * liveInterval)
    (bitmap : Finmap fun _ : Nat => List Bool) :
    ∃ bitmap', AnnounceReceiver.forget first liveInterval (rounds + 1) b bitmap = some bitmap' ∧
      ∀ b', bitmap'.lookup b' =
        if Forgotten b first liveInterval b' then none else bitmap.lookup b' := by
  induction rounds generalizing b bitmap with
  | zero =>
      refine ⟨bitmap, by rw [AnnounceReceiver.forget, if_neg (by omega)], fun b' => ?_⟩
      rw [if_neg fun hForgotten => ?_]
      have := hForgotten.1
      have := hForgotten.2.1
      omega
  | succ rounds ih =>
      rw [AnnounceReceiver.forget]
      by_cases hBefore : b < first
      · rw [if_pos hBefore, u32_of_lt (by omega)]
        obtain ⟨bitmap', hForget, hLookup⟩ := ih (b := b + liveInterval)
          (by rw [Nat.add_mul] at hRounds; omega) (bitmap.erase b)
        refine ⟨bitmap', hForget, fun b' => ?_⟩
        rw [hLookup]
        by_cases hb : b' = b
        · subst hb
          rw [Finmap.lookup_erase, ite_self, if_pos ⟨Nat.le_refl _, hBefore, by simp⟩]
        · simp only [Finmap.lookup_erase_ne hb, Forgotten.step_iff hPos hb]
      · rw [if_neg hBefore]
        refine ⟨bitmap, rfl, fun b' => ?_⟩
        rw [if_neg fun hForgotten => ?_]
        have := hForgotten.1
        have := hForgotten.2.1
        omega

theorem foldl_insert_lookup (entries : List Nat) (f : Nat → List Bool)
    (bitmap : Finmap fun _ : Nat => List Bool) (b : Nat) :
    ((entries.map fun b => (b, f b)).foldl (fun m entry => m.insert entry.1 entry.2) bitmap).lookup b =
      if b ∈ entries then some (f b) else bitmap.lookup b := by
  induction entries generalizing bitmap with
  | nil => simp
  | cons first rest ih =>
      rw [List.map_cons, List.foldl_cons, ih]
      by_cases hRest : b ∈ rest
      · simp [hRest]
      · by_cases hb : b = first
        · subst hb
          simp [hRest]
        · simp [hRest, hb, Finmap.lookup_insert_of_ne]

end Receive

section Agreement

/-- The sender holds the subpiece as its header or in a validated piece. -/
def Offered (node : LiveBlockNode) (index : Nat) : Prop :=
  (node.slot index).isSome = true ∧ (index = 0 ∨ (index - 1) / 16 ∈ node.validatedPieces)

/-- The answer of the receiver from the bits of a block. -/
theorem hasSubPieceInBitmap_iff (h : Headed D c b node)
    (hBits : x.blockBitmap.lookup b = some (announcedBits node)) {index : Nat}
    (hIndex : index < node.getSubPiecesCount) :
    x.hasSubPieceInBitmap ⟨b, index⟩ = true ↔ Offered node index := by
  obtain ⟨-, header, hChecked⟩ := h
  have hCount := hChecked.count_eq
  have hLength := hChecked.length_eq
  unfold AnnounceReceiver.hasSubPieceInBitmap Offered
  dsimp only
  rw [hBits]
  dsimp only
  by_cases hZero : index = 0
  · subst hZero
    obtain ⟨buffer, hFirst, -⟩ := hChecked.buffer
    simp [announcedBits, hFirst]
  · have hPiece : (index - 1) / 16 < (node.getSubPiecesCount + 14) / 16 := by omega
    have hInBits : (index - 1) / 16 + 1 < (announcedBits node).length := by
      simpa [announcedBits] using hPiece
    rw [if_neg hZero, if_pos hInBits, announcedBits_getD node _ hPiece, decide_eq_true_eq]
    constructor
    · intro hMem
      exact ⟨((hChecked.mem_iff _).mp hMem).2.2 index (InPiece.of_pos (by omega)) (by omega),
        Or.inr hMem⟩
    · rintro ⟨-, hNone | hMem⟩
      · exact absurd hNone hZero
      · exact hMem

/-- What a peer has kept of a map, compared with the cache it was built from. -/
structure Received (c : LiveCacheManager) (request first n : Nat) (x x' : AnnounceReceiver) :
    Prop where
  inMap : ∀ b ∈ blockIds first c.liveInterval n, ∃ node, c.node b = some node ∧
    ∀ index < node.getSubPiecesCount,
      (x'.hasSubPieceInBitmap ⟨b, index⟩ = true ↔ Offered node index)
  notInMap : ∀ b, b ∉ blockIds first c.liveInterval n → ∀ index,
    x'.hasSubPieceInBitmap ⟨b, index⟩ =
      if n = 0 ∨ Forgotten request first c.liveInterval b then false
      else x.hasSubPieceInBitmap ⟨b, index⟩
  counts : ∀ b, x'.counts.subpieceCountMap.lookup b = (x.counts.subpieceCountMap.lookup b).or
    (if b ∈ blockIds first c.liveInterval n then some (c.getSubPiecesCount b) else none)

theorem hasSubPieceInBitmap_congr (h : x'.blockBitmap.lookup b = x.blockBitmap.lookup b)
    (index : Nat) : x'.hasSubPieceInBitmap ⟨b, index⟩ = x.hasSubPieceInBitmap ⟨b, index⟩ := by
  unfold AnnounceReceiver.hasSubPieceInBitmap
  dsimp only
  rw [h]

theorem hasSubPieceInBitmap_none (h : x.blockBitmap.lookup b = none) (index : Nat) :
    x.hasSubPieceInBitmap ⟨b, index⟩ = false := by
  unfold AnnounceReceiver.hasSubPieceInBitmap
  dsimp only
  rw [h]

theorem onAnnounce_spec {request rounds : Nat} (hBuilt : Built D c request first n m)
    (hBound : c.getCacheLastBlockId + c.liveInterval < 2 ^ 32)
    (hInterval : x.liveInterval = c.liveInterval)
    (hCounts : x.counts.liveInterval = c.liveInterval) (hRounds : 2 ^ 32 ≤ rounds) :
    ∃ x', x.onAnnounce rounds m = some x' ∧ Received c request first n x x' := by
  have hPos := c.liveInterval_pos
  have hMap := hBuilt.announces
  unfold AnnounceReceiver.onAnnounce
  rw [hMap.count_eq]
  by_cases hZero : n = 0
  · rw [if_neg (by omega)]
    subst hZero
    refine ⟨_, rfl, fun b hMem => (List.not_mem_nil hMem).elim, fun b _ index => ?_, fun b => ?_⟩
    · rw [if_pos (Or.inl rfl)]
      exact hasSubPieceInBitmap_none (Finmap.lookup_empty b) index
    · simp [blockIds]
  rw [if_pos (by omega)]
  have hSorted := blockIds_pairwise hPos first n
  -- Every block of the map is in the cache.
  have hNode : ∀ b ∈ blockIds first c.liveInterval n, Headed D c b (c.nodeOrNew b) := by
    intro b hMem
    obtain ⟨node, hHeaded⟩ := hMap.headed b hMem
    have hEq : c.nodeOrNew b = node := by
      simp [LiveCacheManager.nodeOrNew, hHeaded.1]
    exact hEq ▸ hHeaded
  have hMaps := entries_eq (m := m.subpieceMap) (f := fun b => announcedBits (c.nodeOrNew b)) hSorted (by
    intro b
    rw [hMap.subpieceMap_eq]
    split
    · rename_i hMem
      simp [(hNode b hMem).1]
    · rfl)
  have hNos := entries_eq (m := m.subpieceNos) (f := fun b => c.getSubPiecesCount b) hSorted (by
    intro b
    rw [hMap.subpieceNos_eq]
    split
    · rename_i hMem
      simp [LiveCacheManager.getSubPiecesCount, (hNode b hMem).1]
    · rfl)
  have hHead : ((blockIds first c.liveInterval n).map fun b =>
      (b, announcedBits (c.nodeOrNew b))).head? = some (first, announcedBits (c.nodeOrNew first)) := by
    obtain ⟨k, rfl⟩ := Nat.exists_eq_succ_of_ne_zero hZero
    simp [blockIds, List.range_succ_eq_map]
  have hIn : ∀ b ∈ blockIds first c.liveInterval n, b + c.liveInterval < 2 ^ 32 := by
    intro b hMem
    have := le_getCacheLastBlockId (hNode b hMem).1
    omega
  have hFirst : first ∈ blockIds first c.liveInterval n := by
    obtain ⟨k, rfl⟩ := Nat.exists_eq_succ_of_ne_zero hZero
    simp [blockIds, List.range_succ_eq_map]
  have hFit := hIn first hFirst
  obtain ⟨bitmap', hForget, hLookup⟩ := forget_spec (b := m.requestBlockId) (rounds - 1)
    hPos hFit (by
      have hMul := Nat.le_mul_of_pos_right (rounds - 1) hPos
      omega) x.blockBitmap
  rw [hMaps, hHead, hNos, hInterval]
  rw [show rounds - 1 + 1 = rounds by omega] at hForget
  dsimp only
  rw [hForget]
  refine ⟨_, rfl, ?_, ?_, ?_⟩
  · intro b hMem
    refine ⟨c.nodeOrNew b, (hNode b hMem).1, fun index hIndex => ?_⟩
    apply hasSubPieceInBitmap_iff (hNode b hMem) _ hIndex
    dsimp only
    rw [foldl_insert_lookup _ (fun b => announcedBits (c.nodeOrNew b)), if_pos hMem]
  · intro b hOut index
    have hSame := foldl_insert_lookup (blockIds first c.liveInterval n)
      (fun b => announcedBits (c.nodeOrNew b)) bitmap' b
    rw [if_neg hOut, hLookup, hBuilt.requestBlockId_eq (by omega)] at hSame
    by_cases hForgotten : Forgotten request first c.liveInterval b
    · rw [if_pos (Or.inr hForgotten)]
      rw [if_pos hForgotten] at hSame
      exact hasSubPieceInBitmap_none hSame index
    · rw [if_neg (by simp [hZero, hForgotten])]
      rw [if_neg hForgotten] at hSame
      exact hasSubPieceInBitmap_congr hSame index
  · intro b
    dsimp only
    have hFiled := setSubPieceCountMap_lookup x.counts first n
      (by rw [hCounts]; exact fun b hMem => by have := hIn b hMem; omega) (hCounts ▸ hPos)
      c.getSubPiecesCount b
    rw [hCounts] at hFiled
    rw [List.map_map]
    exact hFiled

end Agreement

namespace LiveInstance

section Runs

variable {s t : LiveInstance} {a : LiveAction} {rid : Guid} {liveInterval : Nat}

theorem pushDataToDownloaderDrivers_cacheManager {jumps : Nat → Option Nat}
    (h : s.pushDataToDownloaderDrivers jumps = some t) : t.cacheManager = s.cacheManager := by
  unfold pushDataToDownloaderDrivers at h
  obtain ⟨streams, -, rfl⟩ := Option.map_eq_some_iff.mp h
  rfl

/-- Whatever happens, the nodes of the cache stay sound. -/
theorem next_cacheSound (h : CacheSound D s.cacheManager) (hStep : Step D s a t) :
    CacheSound D t.cacheManager := by
  unfold Step at hStep
  cases a with
  | addSubPiece jumps subpiece buffer =>
      have hAdded := h.addSubPiece subpiece buffer
      unfold next LiveInstance.addSubPiece at hStep
      dsimp only at hStep
      split at hStep
      · cases hStep
        exact hAdded
      · rw [pushDataToDownloaderDrivers_cacheManager hStep]
        exact hAdded
  | playTimer jumps =>
      rw [pushDataToDownloaderDrivers_cacheManager hStep]
      exact h
  | removeBlock b =>
      cases hStep
      exact h.removeBlock b
  | attachStream id start b =>
      cases hStep
      exact h
  | detachStream id =>
      cases hStep
      exact h
  | jumpTo id target =>
      cases hStep
      exact h

/-- What one peer builds from its cache and another one keeps of it, in any state of the
two; the cache ends before the ids of blocks wrap around. -/
theorem announce_agrees
    (run : Reaches (Step D) (fun _ _ => True) (create rid liveInterval) s)
    (hBound : s.cacheManager.getCacheLastBlockId + s.cacheManager.liveInterval < 2 ^ 32)
    (hInterval : x.liveInterval = s.cacheManager.liveInterval)
    (hCounts : x.counts.liveInterval = s.cacheManager.liveInterval)
    (request : Nat) (announceMap : LiveAnnounceMap) {rounds : Nat} (hRounds : 2 ^ 32 ≤ rounds) :
    ∃ m first n x', buildAnnounceMap D s.cacheManager rounds request announceMap = some m ∧
      Built D s.cacheManager request first n m ∧
      x.onAnnounce rounds m = some x' ∧ Received s.cacheManager request first n x x' := by
  have hSound : CacheSound D s.cacheManager := by
    apply run.invariant (create_inOrder D rid liveInterval).sound
    intro before action after hBefore _ hStep
    exact next_cacheSound hBefore hStep
  have hPos := s.cacheManager.liveInterval_pos
  obtain ⟨m, first, n, hBuild, hBuilt⟩ := buildAnnounceMap_spec hSound hBound request announceMap
    rounds (by omega)
  obtain ⟨x', hReceive, hReceived⟩ := onAnnounce_spec hBuilt hBound hInterval hCounts hRounds
  exact ⟨m, first, n, x', hBuild, hBuilt, hReceive, hReceived⟩

/-- Two blocks, one live interval of ten seconds apart. -/
private def cacheTwoBlocks : List LiveAction := blockArrives 0 1 ++ blockArrives 10 2

private def freshReceiver (liveInterval : Nat) : AnnounceReceiver := ⟨∅, ⟨∅, liveInterval⟩, liveInterval⟩

private def noMap : LiveAnnounceMap := ⟨0, 0, 0, ∅, ∅⟩

private theorem exists_sender {P : LiveInstance → Bool}
    (h : (execute (next constantDigests) (create Guid.zero 10) cacheTwoBlocks).any P = true) :
    ∃ s, Reaches (Step constantDigests) (fun _ _ => True) (create Guid.zero 10) s ∧ P s = true := by
  obtain ⟨s, hRun, hs⟩ := exists_run (by simp [cacheTwoBlocks, blockArrives]) h
  exact ⟨s, hRun.mono fun _ _ _ => trivial, hs⟩

/-- A fresh peer learns of two blocks. -/
theorem announce_agrees_for_two_blocks : ∃ s : LiveInstance,
    (s.cacheManager.node 0).isSome = true ∧
    ∃ m first n x', buildAnnounceMap constantDigests s.cacheManager (2 ^ 32) 0 noMap = some m ∧
      Built constantDigests s.cacheManager 0 first n m ∧
      (freshReceiver 10).onAnnounce (2 ^ 32) m = some x' ∧
      Received s.cacheManager 0 first n (freshReceiver 10) x' := by
  obtain ⟨s, hRun, hs⟩ := exists_sender (P := fun s => (s.cacheManager.node 0).isSome &&
    decide (s.cacheManager.liveInterval = 10) && decide (s.cacheManager.getCacheLastBlockId = 10))
    (by decide +kernel)
  simp only [Bool.and_eq_true, decide_eq_true_eq] at hs
  obtain ⟨⟨hNode, hInterval⟩, hLast⟩ := hs
  exact ⟨s, hNode, announce_agrees hRun (by omega) hInterval.symm hInterval.symm 0 noMap
    (Nat.le_refl _)⟩

/-- Without a valid header the builder goes on around the circle of ids when none of them
lies behind the last block. -/
private theorem addBlocks_endless {c : LiveCacheManager} (hInterval : c.liveInterval = 16)
    (hHeaders : ∀ b, c.isBlockHeaderValid constantDigests b = false) {x : LiveAnnounceMapBuilder}
    (hEmpty : x.announceMap.blockInfoCount = 0) (rounds : Nat) {b : Nat} (hb : b % 16 = 0)
    (hLt : b < 2 ^ 32) :
    x.addBlocks constantDigests c 4294967280 rounds b = none := by
  induction rounds generalizing b with
  | zero => rfl
  | succ rounds ih =>
      have hNext : u32 (b + c.liveInterval) % 16 = 0 := by
        rw [hInterval]
        unfold u32
        omega
      unfold LiveAnnounceMapBuilder.addBlocks
      rw [if_neg (by omega), hHeaders b, if_neg Bool.false_ne_true, hEmpty, if_neg (Nat.lt_irrefl 0)]
      exact ih hNext (u32_lt _)

/-- The bits of a last piece answer for subpieces that the block does not have, blocks
announced before stay, counts are filed at the steps of the receiver, and near the end of
the ids `Build` goes round for ever. -/
theorem announce_agreement_fails :
    (¬ ∀ (D : Digests) (rid : Guid) (liveInterval : Nat) (s : LiveInstance) (request : Nat)
      (announceMap : LiveAnnounceMap),
      Reaches (Step D) (fun _ _ => True) (create rid liveInterval) s →
      ∀ m x', buildAnnounceMap D s.cacheManager (2 ^ 32) request announceMap = some m →
        (freshReceiver s.cacheManager.liveInterval).onAnnounce (2 ^ 32) m = some x' →
        ∀ b index, x'.hasSubPieceInBitmap ⟨b, index⟩ = true ↔
          b ∈ m.subpieceMap ∧ ∃ node, s.cacheManager.node b = some node ∧ Offered node index) ∧
    (¬ ∀ (D : Digests) (rid : Guid) (liveInterval : Nat) (s : LiveInstance) (request : Nat)
      (announceMap : LiveAnnounceMap) (x : AnnounceReceiver),
      Reaches (Step D) (fun _ _ => True) (create rid liveInterval) s →
      x.liveInterval = s.cacheManager.liveInterval →
      x.counts.liveInterval = s.cacheManager.liveInterval →
      ∀ m x', buildAnnounceMap D s.cacheManager (2 ^ 32) request announceMap = some m →
        x.onAnnounce (2 ^ 32) m = some x' → ∀ b,
        x'.hasSubPieceInBitmap ⟨b, 0⟩ = true ↔
          b ∈ m.subpieceMap ∧ ∃ node, s.cacheManager.node b = some node ∧ Offered node 0) ∧
    (¬ ∀ (D : Digests) (rid : Guid) (liveInterval : Nat) (s : LiveInstance) (request : Nat)
      (announceMap : LiveAnnounceMap) (receiverInterval : Nat),
      Reaches (Step D) (fun _ _ => True) (create rid liveInterval) s →
      ∀ m x', buildAnnounceMap D s.cacheManager (2 ^ 32) request announceMap = some m →
        (freshReceiver receiverInterval).onAnnounce (2 ^ 32) m = some x' → ∀ b,
        x'.counts.getSubPieceCount b = (m.subpieceNos.lookup b).getD 0) ∧
    ¬ ∀ (D : Digests) (rid : Guid) (liveInterval : Nat) (s : LiveInstance) (request : Nat)
      (announceMap : LiveAnnounceMap),
      Reaches (Step D) (fun _ _ => True) (create rid liveInterval) s →
      ∃ rounds m, buildAnnounceMap D s.cacheManager rounds request announceMap = some m := by
  refine ⟨fun h => ?_, fun h => ?_, fun h => ?_, fun h => ?_⟩
  · obtain ⟨s, hRun, hs⟩ := exists_sender (P := fun s =>
      decide (s.cacheManager.liveInterval = 10) &&
      ((s.cacheManager.node 0).all fun node => (node.slot 5).isNone) &&
      (buildAnnounceMap constantDigests s.cacheManager (2 ^ 32) 0 noMap).any fun m =>
        ((freshReceiver 10).onAnnounce (2 ^ 32) m).any fun x' => x'.hasSubPieceInBitmap ⟨0, 5⟩)
      (by decide +kernel)
    simp only [Bool.and_eq_true, decide_eq_true_eq, Option.any_eq_true] at hs
    obtain ⟨⟨hInterval, hSlot⟩, m, hBuild, x', hReceive, hHas⟩ := hs
    rw [← hInterval] at hReceive
    obtain ⟨-, node, hNode, hSome, -⟩ := (h _ _ _ s 0 noMap hRun m x' hBuild hReceive 0 5).mp hHas
    rw [hNode, Option.all_some, Option.isNone_iff_eq_none] at hSlot
    rw [hSlot] at hSome
    cases hSome
  · obtain ⟨s, hRun, hs⟩ := exists_sender (P := fun s =>
      decide (s.cacheManager.liveInterval = 10) && (s.cacheManager.node 30).isNone &&
      (buildAnnounceMap constantDigests s.cacheManager (2 ^ 32) 0 noMap).any fun m =>
        ({ freshReceiver 10 with blockBitmap := Finmap.singleton 30 [true] } :
          AnnounceReceiver).onAnnounce (2 ^ 32) m |>.any fun x' => x'.hasSubPieceInBitmap ⟨30, 0⟩)
      (by decide +kernel)
    simp only [Bool.and_eq_true, decide_eq_true_eq, Option.any_eq_true] at hs
    obtain ⟨⟨hInterval, hNone⟩, m, hBuild, x', hReceive, hHas⟩ := hs
    obtain ⟨-, node, hNode, -⟩ := (h _ _ _ s 0 noMap _ hRun hInterval.symm hInterval.symm m x'
      hBuild hReceive 30).mp hHas
    rw [hNode] at hNone
    cases hNone
  · obtain ⟨s, hRun, hs⟩ := exists_sender (P := fun s =>
      (buildAnnounceMap constantDigests s.cacheManager (2 ^ 32) 0 noMap).any fun m =>
        (m.subpieceNos.lookup 5).isNone &&
        ((freshReceiver 5).onAnnounce (2 ^ 32) m).any fun x' =>
          x'.counts.getSubPieceCount 5 == 2) (by decide +kernel)
    simp only [Bool.and_eq_true, beq_iff_eq, Option.any_eq_true, Option.isNone_iff_eq_none] at hs
    obtain ⟨m, hBuild, hNone, x', hReceive, hCount⟩ := hs
    have hZero := h _ _ _ s 0 noMap 5 hRun m x' hBuild hReceive 5
    rw [hNone, hCount] at hZero
    cases hZero
  · obtain ⟨s, hRun, hs⟩ := Reaches.exists_of_checked (next constantDigests) (fun _ _ => true)
      (create Guid.zero 16)
      [.addSubPiece (fun _ => none) ⟨4294967280, 1⟩ (some (byteOf 1))]
      (fun s => decide (s.cacheManager.liveInterval = 16) &&
        decide (s.cacheManager.blockNodes.keys = {4294967280}) &&
        !s.cacheManager.isBlockHeaderValid constantDigests 4294967280) (by decide +kernel)
    simp only [Bool.and_eq_true, decide_eq_true_eq, Bool.not_eq_true'] at hs
    obtain ⟨⟨hInterval, hKeys⟩, hHeader⟩ := hs
    have hOrder : keysInOrder s.cacheManager.blockNodes = [4294967280] := by
      refine (keysInOrder_pairwise _).eq_of_mem_iff (List.pairwise_singleton _ _) fun b => ?_
      rw [mem_keysInOrder, ← Finmap.mem_keys, hKeys, Finset.mem_singleton, List.mem_singleton]
    have hFirst : s.cacheManager.getCacheFirstBlockId = 4294967280 := by
      rw [LiveCacheManager.getCacheFirstBlockId, hOrder]
      rfl
    have hLast : s.cacheManager.getCacheLastBlockId = 4294967280 := by
      rw [LiveCacheManager.getCacheLastBlockId, hOrder]
      rfl
    have hHeaders : ∀ b, s.cacheManager.isBlockHeaderValid constantDigests b = false := by
      intro b
      by_cases hb : b = 4294967280
      · rw [hb, hHeader]
      · have hNone : s.cacheManager.node b = none := by
          rw [LiveCacheManager.node, Finmap.lookup_eq_none, ← Finmap.mem_keys, hKeys,
            Finset.mem_singleton]
          exact hb
        rw [LiveCacheManager.isBlockHeaderValid, hNone]
    obtain ⟨rounds, m, hBuild⟩ := h _ _ _ s 0 noMap (hRun.mono fun _ _ _ => trivial)
    have hLoop := addBlocks_endless hInterval hHeaders
      (x := ⟨⟨0, s.cacheManager.liveInterval, 0, ∅, ∅⟩, 4 + 2 + 4 + 2 + 2, 0⟩) rfl rounds
      (b := 4294967280) (by omega) (by omega)
    have hNotEmpty : s.cacheManager.blockNodes.keys ≠ ∅ := by
      rw [hKeys]
      exact Finset.singleton_ne_empty _
    unfold buildAnnounceMap LiveAnnounceMapBuilder.resetState at hBuild
    simp only [if_neg hNotEmpty, hLast, hFirst, Nat.not_lt_zero, if_false] at hBuild
    rw [if_pos (by omega), hLoop] at hBuild
    cases hBuild

end Runs

end LiveInstance

end Live
