import Mathlib.Order.Bounds.Basic
import Peer.Live.BlockOwnership

/-! The search of `RequestNextBlock` ends at the least block that may be taken, as long as
there is one at or behind the playing position. -/
namespace Live.Requests

open Basis Storage

namespace LiveStream

/-- The blocks of the live interval stride from the playing position on. -/
def strideId (s : LiveStream) (k : Nat) : Nat := s.playingBlockId + k * s.cacheManager.liveInterval

def OnStride (s : LiveStream) (blockId : Nat) : Prop :=
  blockId < 2 ^ 32 ∧ ∃ k, blockId = s.strideId k

/-- An incomplete block that nobody has, or that another downloader has which is late with it
or pauses. -/
def Free (s : LiveStream) (g blockId : Nat) : Prop :=
  s.cacheManager.hasCompleteBlock blockId = false ∧
    ∀ task, s.liveBlockRequestingMap blockId = some task → task.download ≠ g ∧
      (8000 < s.now - task.madeAt ∨ (s.downloaders task.download).isPausing = true)

/-- The memory pool is nearly used up. -/
def IsOutOfContents (s : LiveStream) : Prop := s.useMemoryPool = true ∧ s.leftCapacity < 2048

/-- A block is the downloader's now and nobody else's, and all other blocks are whose they
were. -/
structure Assigned (s : LiveStream) (g blockId : Nat) (t : LiveStream) : Prop where
  map : t.liveBlockRequestingMap =
    Function.update s.liveBlockRequestingMap blockId (some ⟨g, s.now⟩)
  tasks : ∀ g' b, b ∈ (t.downloaders g').blockTasks ↔
    (b = blockId ∧ g' = g) ∨ (b ≠ blockId ∧ b ∈ (s.downloaders g').blockTasks)

/-- What a request results in. While the memory pool is nearly used up it is refused, unless
the block that is playing is free. -/
structure ChoiceRight (s : LiveStream) (g : Nat) (result : LiveStream × Bool) : Prop where
  refused : s.IsOutOfContents → ¬ s.Free g s.playingBlockId → result = (s, false)
  taken : (s.IsOutOfContents → s.Free g s.playingBlockId) →
    result.2 = true ∧ ∃ blockId, IsLeast {b | s.OnStride b ∧ s.Free g b} blockId ∧
      s.Assigned g blockId result.1

variable {s t : LiveStream} {g blockId i j k m rounds : Nat}

section Search

theorem mayTake_iff (hOpen : s.cacheManager.hasCompleteBlock blockId = false) :
    s.mayTake blockId g = true ↔ s.Free g blockId := by
  unfold mayTake Free
  cases hEntry : s.liveBlockRequestingMap blockId with
  | none => simp [hOpen]
  | some task => simp [hOpen, isTimeout]

theorem isShort_iff : s.isShort blockId = true ↔ s.IsOutOfContents ∧ s.playingBlockId < blockId := by
  simp [isShort, IsOutOfContents]

theorem strideId_succ (k : Nat) :
    s.strideId (k + 1) = s.strideId k + s.cacheManager.liveInterval := by
  unfold strideId
  ring

theorem strideId_lt : s.strideId i < s.strideId j ↔ i < j := by
  unfold strideId
  have hPos := s.cacheManager.liveInterval_pos
  rw [Nat.add_lt_add_iff_left, Nat.mul_lt_mul_right hPos]

theorem strideId_le : s.strideId i ≤ s.strideId j ↔ i ≤ j := by
  rw [← not_lt, strideId_lt, not_lt]

@[simp] theorem strideId_zero : s.strideId 0 = s.playingBlockId := by simp [strideId]

/-- `GetNextMissingSubPiece` skips complete blocks of the stride. -/
theorem getNextMissingSubPiece_eq (hLe : k ≤ j)
    (hSkip : ∀ i, k ≤ i → i < j → s.cacheManager.hasCompleteBlock (s.strideId i) = true)
    (hOpen : s.cacheManager.hasCompleteBlock (s.strideId j) = false)
    (hFit : s.strideId j < 2 ^ 32) (hRounds : j - k < rounds) :
    ∃ index, s.cacheManager.getNextMissingSubPiece rounds (s.strideId k) =
      some ⟨s.strideId j, index⟩ := by
  induction rounds generalizing k with
  | zero => omega
  | succ rounds ih =>
      unfold LiveCacheManager.getNextMissingSubPiece
      by_cases hEnd : k = j
      · subst hEnd
        cases hNode : s.cacheManager.node (s.strideId k) with
        | none => exact ⟨0, rfl⟩
        | some node =>
            have hIncomplete : node.isComplete = false := by
              simpa [LiveCacheManager.hasCompleteBlock, hNode] using hOpen
            refine ⟨node.getNextMissingSubPiece, ?_⟩
            simp [hIncomplete]
      · have hComplete := hSkip k (Nat.le_refl k) (by omega)
        cases hNode : s.cacheManager.node (s.strideId k) with
        | none => simp [LiveCacheManager.hasCompleteBlock, hNode] at hComplete
        | some node =>
            have hWhole : node.isComplete = true := by
              simpa [LiveCacheManager.hasCompleteBlock, hNode] using hComplete
            have hNext : s.strideId (k + 1) < 2 ^ 32 :=
              lt_of_le_of_lt (strideId_le.mpr (by omega)) hFit
            obtain ⟨index, hFound⟩ := ih (show k + 1 ≤ j by omega)
              (fun i hi => hSkip i (by omega)) (by omega)
            refine ⟨index, ?_⟩
            rw [strideId_succ] at hFound hNext
            simp only [hWhole, Bool.not_true, Bool.false_eq_true, if_false]
            rw [u32_of_lt hNext]
            exact hFound

/-- The first incomplete block at or behind a block of the stride. -/
theorem exists_first_open (hLe : k ≤ m)
    (hOpen : s.cacheManager.hasCompleteBlock (s.strideId m) = false) :
    ∃ j, k ≤ j ∧ j ≤ m ∧ s.cacheManager.hasCompleteBlock (s.strideId j) = false ∧
      ∀ i, k ≤ i → i < j → s.cacheManager.hasCompleteBlock (s.strideId i) = true := by
  have hExists : ∃ j, k ≤ j ∧ s.cacheManager.hasCompleteBlock (s.strideId j) = false :=
    ⟨m, hLe, hOpen⟩
  obtain ⟨hFrom, hFirst⟩ := Nat.find_spec hExists
  refine ⟨Nat.find hExists, hFrom, Nat.find_min' hExists ⟨hLe, hOpen⟩, hFirst, ?_⟩
  intro i hi hLess
  have hNot := Nat.find_min hExists hLess
  simpa [hi] using hNot

/-- One round of the search, which comes upon the first incomplete block. -/
theorem nextBlock_round (hLe : k ≤ m)
    (hOpen : s.cacheManager.hasCompleteBlock (s.strideId m) = false)
    (hFit : s.strideId m < 2 ^ 32) (hRounds : m - k < rounds) :
    ∃ j, k ≤ j ∧ j ≤ m ∧ s.cacheManager.hasCompleteBlock (s.strideId j) = false ∧
      s.nextBlock g (rounds + 1) (s.strideId k) =
        if s.isShort (s.strideId j) then some none
        else if s.mayTake (s.strideId j) g then some (some (s.strideId j))
        else s.nextBlock g rounds (u32 (s.strideId k + s.cacheManager.liveInterval)) := by
  obtain ⟨j, hFrom, hTo, hFirst, hSkip⟩ := exists_first_open hLe hOpen
  have hFitFirst : s.strideId j < 2 ^ 32 := lt_of_le_of_lt (strideId_le.mpr hTo) hFit
  obtain ⟨index, hMissing⟩ :=
    getNextMissingSubPiece_eq hFrom hSkip hFirst hFitFirst (show j - k < rounds by omega)
  refine ⟨j, hFrom, hTo, hFirst, ?_⟩
  rw [nextBlock, hMissing]

/-- With contents left the search ends at the least free block. -/
theorem nextBlock_eq (hFree : s.Free g (s.strideId m)) (hFit : s.strideId m < 2 ^ 32)
    (hLeast : ∀ i, i < m → ¬ s.Free g (s.strideId i)) (hContents : ¬ s.IsOutOfContents)
    (hLe : k ≤ m) (hRounds : m - k + 1 < rounds) :
    s.nextBlock g rounds (s.strideId k) = some (some (s.strideId m)) := by
  induction rounds generalizing k with
  | zero => omega
  | succ rounds ih =>
      obtain ⟨j, hFrom, hTo, hOpen, hRound⟩ :=
        nextBlock_round (g := g) hLe hFree.1 hFit (show m - k < rounds by omega)
      have hLong : s.isShort (s.strideId j) = false := by
        rw [Bool.eq_false_iff, ne_eq, isShort_iff]
        exact fun hShort => hContents hShort.1
      rw [hRound, hLong]
      by_cases hHere : j = m
      · subst hHere
        rw [(mayTake_iff hOpen).mpr hFree]
        rfl
      · have hNot : s.mayTake (s.strideId j) g = false := by
          rw [Bool.eq_false_iff, ne_eq, mayTake_iff hOpen]
          exact hLeast j (by omega)
        have hNext : s.strideId (k + 1) < 2 ^ 32 :=
          lt_of_le_of_lt (strideId_le.mpr (by omega)) hFit
        rw [hNot, ← strideId_succ, u32_of_lt hNext]
        exact ih (by omega) (by omega)

/-- Without contents nothing is taken behind the playing position. -/
theorem nextBlock_refused (hOpen : s.cacheManager.hasCompleteBlock (s.strideId m) = false)
    (hFit : s.strideId m < 2 ^ 32) (hContents : s.IsOutOfContents) (hPos : 0 < k) (hLe : k ≤ m)
    (hRounds : m - k < rounds) : s.nextBlock g (rounds + 1) (s.strideId k) = some none := by
  obtain ⟨j, hFrom, -, -, hRound⟩ := nextBlock_round (g := g) hLe hOpen hFit hRounds
  have hBehind : s.strideId 0 < s.strideId j := strideId_lt.mpr (by omega)
  rw [strideId_zero] at hBehind
  rw [hRound, isShort_iff.mpr ⟨hContents, hBehind⟩]
  rfl

/-- What the search comes to when a block of the stride is free. -/
theorem nextBlock_spec (hFree : s.Free g (s.strideId m)) (hFit : s.strideId m < 2 ^ 32)
    (hLeast : ∀ i, i < m → ¬ s.Free g (s.strideId i)) (hRounds : m + 2 < rounds) :
    (s.IsOutOfContents → ¬ s.Free g s.playingBlockId →
      s.nextBlock g rounds s.playingBlockId = some none) ∧
    ((s.IsOutOfContents → s.Free g s.playingBlockId) →
      s.nextBlock g rounds s.playingBlockId = some (some (s.strideId m))) := by
  obtain ⟨rounds, rfl⟩ : ∃ more, rounds = more + 2 := ⟨rounds - 2, by omega⟩
  obtain ⟨j, -, hTo, hOpen, hRound⟩ :=
    nextBlock_round (g := g) (Nat.zero_le m) hFree.1 hFit (show m - 0 < rounds + 1 by omega)
  rw [strideId_zero] at hRound
  constructor
  · intro hContents hTaken
    by_cases hPlaying : j = 0
    · -- The block that is playing is open but somebody's, and the next one is behind it.
      subst hPlaying
      rw [strideId_zero] at hRound hOpen
      have hLong : s.isShort s.playingBlockId = false := by
        rw [Bool.eq_false_iff, ne_eq, isShort_iff]
        exact fun hShort => absurd hShort.2 (Nat.lt_irrefl _)
      have hNot : s.mayTake s.playingBlockId g = false := by
        rw [Bool.eq_false_iff, ne_eq, mayTake_iff hOpen]
        exact hTaken
      have hMore : 1 ≤ m := by
        by_contra hZero
        obtain rfl : m = 0 := by omega
        rw [strideId_zero] at hFree
        exact hTaken hFree
      have hNext : s.strideId 1 < 2 ^ 32 := lt_of_le_of_lt (strideId_le.mpr hMore) hFit
      have hOne : s.strideId 1 = s.playingBlockId + s.cacheManager.liveInterval := by
        rw [strideId_succ, strideId_zero]
      rw [hRound, hLong, hNot, ← hOne, u32_of_lt hNext]
      exact nextBlock_refused hFree.1 hFit hContents Nat.one_pos hMore (by omega)
    · have hBehind : s.strideId 0 < s.strideId j := strideId_lt.mpr (by omega)
      rw [strideId_zero] at hBehind
      rw [hRound, isShort_iff.mpr ⟨hContents, hBehind⟩]
      rfl
  · intro hAllowed
    by_cases hContents : s.IsOutOfContents
    · have hPlaying := hAllowed hContents
      obtain rfl : m = 0 := by
        by_contra hMore
        apply hLeast 0 (by omega)
        rw [strideId_zero]
        exact hPlaying
      obtain rfl : j = 0 := by omega
      rw [strideId_zero] at hRound hOpen ⊢
      have hLong : s.isShort s.playingBlockId = false := by
        rw [Bool.eq_false_iff, ne_eq, isShort_iff]
        exact fun hShort => absurd hShort.2 (Nat.lt_irrefl _)
      rw [hRound, hLong, (mayTake_iff hOpen).mpr hPlaying]
      rfl
    · have hSearch := nextBlock_eq hFree hFit hLeast hContents (Nat.zero_le m)
        (show m - 0 + 1 < rounds + 2 by omega)
      rw [strideId_zero] at hSearch
      exact hSearch

end Search

section Requests

theorem Owned.assigned_of_none (h : s.Owned) (hFree : s.liveBlockRequestingMap blockId = none) :
    s.Assigned g blockId (s.addBlockTask blockId g) := by
  refine ⟨rfl, fun g' b => ?_⟩
  rw [mem_addBlockTask]
  have hNot : blockId ∉ (s.downloaders g').blockTasks := by
    intro hMem
    obtain ⟨task, hTask, -⟩ := (h.owned g' blockId).mp hMem
    rw [hFree] at hTask
    cases hTask
  by_cases hBlock : b = blockId
  · subst hBlock
    simp [hNot]
  · simp [hBlock]

theorem Removed.assigned (hRemoved : Removed s blockId t) (h : s.Owned) :
    s.Assigned g blockId (t.addBlockTask blockId g) := by
  refine ⟨?_, fun g' b => ?_⟩
  · rw [addBlockTask_map, hRemoved.map, Function.update_idem, hRemoved.now]
  · rw [mem_addBlockTask, (hRemoved.loses g').blockTasks, (h.nodup g').mem_erase_iff]

/-- Wherever tasks and entries agree, a request takes the least free block or is refused. -/
theorem Owned.choiceRight (h : s.Owned) (hFree : ∃ b, s.OnStride b ∧ s.Free g b) :
    Settles (fun rounds => s.requestNextBlock rounds g) (s.ChoiceRight g) := by
  classical
  have hExists : ∃ k, s.strideId k < 2 ^ 32 ∧ s.Free g (s.strideId k) := by
    obtain ⟨b, ⟨hFit, k, rfl⟩, hOpen⟩ := hFree
    exact ⟨k, hFit, hOpen⟩
  obtain ⟨m, ⟨hFit, hOpen⟩, hFirst⟩ : ∃ m, (s.strideId m < 2 ^ 32 ∧ s.Free g (s.strideId m)) ∧
      ∀ i, i < m → ¬ (s.strideId i < 2 ^ 32 ∧ s.Free g (s.strideId i)) :=
    ⟨Nat.find hExists, Nat.find_spec hExists, fun i => Nat.find_min hExists⟩
  have hLeast : ∀ i, i < m → ¬ s.Free g (s.strideId i) := fun i hi hBefore =>
    hFirst i hi ⟨(strideId_lt.mpr hi).trans hFit, hBefore⟩
  have hIsLeast : IsLeast {b | s.OnStride b ∧ s.Free g b} (s.strideId m) := by
    refine ⟨⟨⟨hFit, m, rfl⟩, hOpen⟩, ?_⟩
    rintro b ⟨⟨-, k, rfl⟩, hBefore⟩
    apply strideId_le.mpr
    by_contra hLess
    exact hLeast k (by omega) hBefore
  have hSearch := fun rounds =>
    nextBlock_spec hOpen hFit hLeast (show m + 2 < rounds + (m + 4) by omega)
  by_cases hRefused : s.IsOutOfContents ∧ ¬ s.Free g s.playingBlockId
  · have hReturns : ∀ rounds, s.requestNextBlock (rounds + (m + 4)) g = some (s, false) := by
      intro rounds
      rw [requestNextBlock, (hSearch rounds).1 hRefused.1 hRefused.2]
    apply Settles.of_add (m + 4) hReturns
    exact ⟨fun _ _ => rfl, fun hAllowed => absurd (hAllowed hRefused.1) hRefused.2⟩
  · have hAllowed : s.IsOutOfContents → s.Free g s.playingBlockId := fun hContents =>
      Classical.not_not.mp fun hTaken => hRefused ⟨hContents, hTaken⟩
    have hRight : ∀ t, s.Assigned g (s.strideId m) t → s.ChoiceRight g (t, true) :=
      fun t hAssigned => ⟨fun hContents hTaken => absurd ⟨hContents, hTaken⟩ hRefused,
        fun _ => ⟨rfl, s.strideId m, hIsLeast, hAssigned⟩⟩
    cases hEntry : s.liveBlockRequestingMap (s.strideId m) with
    | none =>
        apply Settles.of_add (m + 4) _ (hRight _ (h.assigned_of_none hEntry))
        intro rounds
        rw [requestNextBlock, (hSearch rounds).2 hAllowed]
        simp only [hEntry]
    | some task =>
        obtain ⟨removed, hRemove, hRemoved⟩ := h.removeBlockTask (s.strideId m)
        apply Settles.of_add (m + 4) _ (hRight _ (hRemoved.assigned h))
        intro rounds
        rw [requestNextBlock, (hSearch rounds).2 hAllowed]
        simp only [hEntry]
        rw [← Nat.add_assoc, hRemove, Option.map_some]

/-- Every block has at most one owner, and the manager and the downloaders agree on it. -/
structure OwnedOnce (s : LiveStream) : Prop where
  once : ∀ b g g', b ∈ (s.downloaders g).blockTasks → b ∈ (s.downloaders g').blockTasks → g = g'
  agree : ∀ g b, b ∈ (s.downloaders g).blockTasks ↔
    ∃ task, s.liveBlockRequestingMap b = some task ∧ task.download = g
  nodup : ∀ g, (s.downloaders g).blockTasks.Nodup

theorem Owned.ownedOnce (h : s.Owned) : s.OwnedOnce := by
  refine ⟨fun b g g' hMem hOther => ?_, h.owned, h.nodup⟩
  obtain ⟨task, hTask, rfl⟩ := (h.owned g b).mp hMem
  obtain ⟨other, hOtherTask, rfl⟩ := (h.owned g' b).mp hOther
  rw [hTask] at hOtherTask
  cases hOtherTask
  rfl

/-- An HTTP and a P2P downloader. -/
def kindOf (g : Nat) : Kind := if g = 0 then .http else .p2p

/-- No block yet, and ten seconds to a block. -/
def fresh (useMemoryPool : Bool) : LiveStream :=
  initial kindOf ⟨Guid.zero, ∅, 10, ten_pos⟩ useMemoryPool

/-- The P2P downloader has asked for the block that is playing. -/
def asked (useMemoryPool : Bool) : LiveStream :=
  ((fresh useMemoryPool).modify 1 fun d => { d with isRunning := true, isPausing := false
    }).addBlockTask 0 1

/-- It pauses. -/
def askedAndPausing : LiveStream := (asked false).modify 1 fun d => { d with isPausing := true }

/-- It is late. -/
def askedAndLate : LiveStream := { asked false with now := 9000 }

/-- It has all the blocks of a stride of 32768 seconds. -/
def allAsked : LiveStream :=
  let start := initial kindOf ⟨Guid.zero, ∅, 32768, by decide⟩ false
  { start with
    liveBlockRequestingMap := fun b => if b < 2 ^ 32 ∧ b % 32768 = 0 then some ⟨1, 0⟩ else none
    downloaders := Function.update start.downloaders 1
      ⟨.p2p, true, true, false, true, (List.range 131072).map (32768 * ·)⟩ }

theorem run_to_asked : Reaches Step (fun _ _ => True) (fresh false) (asked false) := by
  have hTook : ∀ {x y : LiveStream} (a : Action), Reaches Step (fun _ _ => True) (fresh false) x →
      (∀ rounds, x.next (rounds + 8) a = some y) →
      Reaches Step (fun _ _ => True) (fresh false) y :=
    fun a run h => run.tail trivial (.of_add 8 h rfl)
  have hStarted := hTook (.start 1) (.refl (fresh false)) fun _ => rfl
  have hResumed := hTook (.p2pPausing 1 false) hStarted fun _ => rfl
  have hAsked := hTook (.p2pRequest 1) hResumed fun _ => rfl
  have hSame : ∀ f f' : Downloader → Downloader, ∀ x : LiveStream,
      (x.modify 1 f).modify 1 f' = x.modify 1 fun d => f' (f d) := fun f f' x => modify_modify
  rw [hSame] at hAsked
  exact hAsked

theorem run_to_askedAndPausing : Reaches Step (fun _ _ => True) (fresh false) askedAndPausing :=
  run_to_asked.tail (a := .p2pPausing 1 true) trivial (.of_add 8 (fun _ => rfl) rfl)

/-- The search goes around the circle for ever when everything is asked for, for the owner of the
blocks as for the others. -/
theorem nextBlock_allAsked {startBlockId : Nat} (hLt : startBlockId < 2 ^ 32)
    (hStride : startBlockId % 32768 = 0) : allAsked.nextBlock g rounds startBlockId = none := by
  induction rounds generalizing startBlockId with
  | zero => rfl
  | succ rounds ih =>
      cases rounds with
      | zero => rfl
      | succ rounds =>
          have hMissing : allAsked.cacheManager.getNextMissingSubPiece (rounds + 1) startBlockId =
              some ⟨startBlockId, 0⟩ := rfl
          have hEntry : allAsked.liveBlockRequestingMap startBlockId = some ⟨1, 0⟩ :=
            if_pos ⟨hLt, hStride⟩
          have hTaken : allAsked.mayTake startBlockId g = false := by
            simp only [mayTake, hEntry]
            exact Bool.and_false _
          have hNext : u32 (startBlockId + 32768) % 32768 = 0 := by
            unfold u32
            omega
          rw [nextBlock, hMissing]
          show (if allAsked.mayTake startBlockId g = true then _ else _) = none
          rw [hTaken]
          exact ih (u32_lt _) hNext

/-- In every run the manager and the downloaders agree, and a request takes the least free
block at or behind the playing position, if there is one. -/
theorem requests_of_run {kinds : Nat → Kind} {cacheManager : LiveCacheManager}
    {useMemoryPool : Bool}
    (run : Reaches Step (fun _ _ => True) (initial kinds cacheManager useMemoryPool) s) :
    s.OwnedOnce ∧ ∀ g, (∃ b, s.OnStride b ∧ s.Free g b) →
      Settles (fun rounds => s.requestNextBlock rounds g) (s.ChoiceRight g) := by
  have hInvariant : s.Invariant := by
    apply run.invariant (invariant_initial kinds cacheManager useMemoryPool)
    intro x a y hx _ hStep
    exact hx.step hStep
  exact ⟨hInvariant.toOwned.ownedOnce, fun g hFree => hInvariant.toOwned.choiceRight hFree⟩

/-- The HTTP downloader may take over the block of the P2P downloader that pauses. -/
theorem requests_of_pause : askedAndPausing.liveBlockRequestingMap 0 = some ⟨1, 0⟩ ∧
    askedAndPausing.OwnedOnce ∧
      Settles (fun rounds => askedAndPausing.requestNextBlock rounds 0)
        (askedAndPausing.ChoiceRight 0) := by
  obtain ⟨hOwned, hChoice⟩ := requests_of_run run_to_askedAndPausing
  refine ⟨rfl, hOwned, hChoice 0 ⟨0, ⟨by decide, 0, rfl⟩, rfl, ?_⟩⟩
  intro task hTask
  cases hTask
  exact ⟨by decide, Or.inr rfl⟩

/-- An incomplete block that nobody has had for less than eight seconds. -/
def Untaken (s : LiveStream) (blockId : Nat) : Prop :=
  s.cacheManager.hasCompleteBlock blockId = false ∧
    ∀ task, s.liveBlockRequestingMap blockId = some task → 8000 < s.now - task.madeAt

/-- A request takes the least untaken block. -/
def TakesLeastUntaken (s : LiveStream) (g : Nat) : Prop :=
  Settles (fun rounds => s.requestNextBlock rounds g) fun result =>
    ∃ blockId, IsLeast {b | s.OnStride b ∧ s.Untaken b} blockId ∧ s.Assigned g blockId result.1

/-- A request does not: when the owner of an untaken block pauses, when the owner asks again
for what it is late with, when the memory pool is nearly used up, and when all is taken. -/
theorem takesLeastUntaken_fails : ¬ askedAndPausing.TakesLeastUntaken 0 ∧
    ¬ askedAndLate.TakesLeastUntaken 1 ∧
    ¬ (asked true).TakesLeastUntaken 0 ∧
    ∀ rounds, allAsked.requestNextBlock rounds 0 = none := by
  have hResult : ∀ {s t : LiveStream} {g : Nat} {result : Bool},
      (∀ rounds, s.requestNextBlock (rounds + 8) g = some (t, result)) → s.TakesLeastUntaken g →
      ∃ b, IsLeast {b | s.OnStride b ∧ s.Untaken b} b ∧ s.Assigned g b t := by
    rintro s t g result hReturns ⟨value, ⟨enough, hValue⟩, hLeast⟩
    have hSame := (hReturns enough).symm.trans (hValue (enough + 8) (Nat.le_add_right _ _))
    cases hSame
    exact hLeast
  refine ⟨fun hTakes => ?_, fun hTakes => ?_, fun hTakes => ?_, fun rounds => ?_⟩
  · obtain ⟨b, ⟨⟨-, hUntaken⟩, -⟩, hAssigned⟩ := hResult (fun _ => rfl) hTakes
    have hZero := congrFun hAssigned.map 0
    by_cases hBlock : b = 0
    · subst hBlock
      exact absurd (hUntaken.2 ⟨1, 0⟩ rfl) (by decide)
    · rw [Function.update_of_ne (Ne.symm hBlock)] at hZero
      cases hZero
  · have hReturns : ∀ rounds, askedAndLate.requestNextBlock (rounds + 8) 1 =
        some (askedAndLate.addBlockTask 10 1, true) := by
      intro rounds
      have hRound : askedAndLate.nextBlock 1 (rounds + 8) 0 =
          askedAndLate.nextBlock 1 (rounds + 7) (u32 10) := rfl
      rw [u32_of_lt (by decide)] at hRound
      rw [requestNextBlock, show askedAndLate.playingBlockId = 0 from rfl, hRound]
      rfl
    obtain ⟨b, ⟨-, hLeast⟩, hAssigned⟩ := hResult hReturns hTakes
    have hTen := congrFun hAssigned.map 10
    have hLe : b ≤ 0 := by
      refine hLeast ⟨⟨by decide, 0, rfl⟩, rfl, ?_⟩
      intro task hTask
      cases hTask
      decide
    rw [Function.update_of_ne (by omega)] at hTen
    cases hTen
  · have hReturns : ∀ rounds, (asked true).requestNextBlock (rounds + 8) 0 =
        some (asked true, false) := by
      intro rounds
      have hRound : (asked true).nextBlock 0 (rounds + 8) 0 =
          (asked true).nextBlock 0 (rounds + 7) (u32 10) := rfl
      rw [u32_of_lt (by decide)] at hRound
      rw [requestNextBlock, show (asked true).playingBlockId = 0 from rfl, hRound]
      rfl
    obtain ⟨b, -, hAssigned⟩ := hResult hReturns hTakes
    have hSame := congrFun hAssigned.map b
    rw [Function.update_self] at hSame
    by_cases hBlock : b = 0
    · subst hBlock
      cases hSame
    · have hNone : (asked true).liveBlockRequestingMap b = none := by
        unfold asked
        rw [addBlockTask_map, Function.update_of_ne hBlock]
        rfl
      rw [hNone] at hSame
      cases hSame
  · rw [requestNextBlock, nextBlock_allAsked (by decide) rfl]

end Requests

end LiveStream

end Live.Requests
