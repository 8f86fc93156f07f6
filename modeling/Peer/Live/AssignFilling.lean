import Mathlib.Data.Finset.Card
import Peer.Live.AssignList
import Peer.Live.BlockChoice

/-! The filling of the assign list: what is in it at the end, and when the end comes. -/
namespace Live.Requests

open Basis Storage

namespace Readings

variable {r : Readings} {c : LiveCacheManager}

/-- The missing subpieces of a block that nobody has been asked for. -/
def freshSubPieces (r : Readings) (c : LiveCacheManager) (blockId : Nat) : List LivePosition :=
  (r.missingSubPieces c blockId).filter fun x => r.requestingCount x == 0

/-- The missing subpieces of a block that may be asked for again. -/
def againSubPieces (r : Readings) (c : LiveCacheManager) (blockId : Nat) : List LivePosition :=
  (r.missingSubPieces c blockId).filter (r.mayAssign true)

theorem mem_missingSubPieces {blockId : Nat} {x : LivePosition} :
    x ∈ r.missingSubPieces c blockId ↔ x.blockId = blockId ∧
      (∃ count, r.subPieceCount blockId = some count ∧ x.subPieceIndex < count) ∧
        c.hasSubPiece x = false := by
  unfold missingSubPieces
  cases hCount : r.subPieceCount blockId with
  | none => simp
  | some count =>
      obtain ⟨b, i⟩ := x
      simp only [List.mem_filter, List.mem_map, List.mem_range, LivePosition.mk.injEq,
        Bool.not_eq_true', Option.some.injEq, exists_eq_left']
      constructor
      · rintro ⟨⟨j, hj, rfl, rfl⟩, hMissing⟩
        exact ⟨rfl, hj, hMissing⟩
      · rintro ⟨rfl, hi, hMissing⟩
        exact ⟨⟨i, hi, rfl, rfl⟩, hMissing⟩

theorem mem_freshSubPieces {blockId : Nat} {x : LivePosition} :
    x ∈ r.freshSubPieces c blockId ↔
      x ∈ r.missingSubPieces c blockId ∧ r.requestingCount x = 0 := by
  simp [freshSubPieces]

theorem mem_againSubPieces {blockId : Nat} {x : LivePosition} :
    x ∈ r.againSubPieces c blockId ↔
      x ∈ r.missingSubPieces c blockId ∧ r.requestingCount x < 3 := by
  simp only [againSubPieces, List.mem_filter, mayAssign, Bool.true_and, Bool.or_eq_true,
    beq_iff_eq, decide_eq_true_eq]
  exact and_congr_right fun _ => by omega

/-- A round of the loop over the tasks. -/
theorem assignTasks_cons (index : Nat) (flag : Bool) (blockId : Nat) (tasks : List Nat)
    (list : AssignList) (total : Nat) :
    ∃ total', r.assignTasks c index flag (blockId :: tasks) (list, total) =
      r.assignTasks c (index + 1) (flag || r.firstUrgent c index blockId) tasks
        (⟨list.subpieceAssignDeque ++ (r.freshSubPieces c blockId ++
            if r.reassigns c flag index blockId then r.againSubPieces c blockId else []),
          list.subpieceReassignSet ∪
            if r.reassigns c flag index blockId then (r.againSubPieces c blockId).toFinset
            else ∅⟩, total') := by
  have hFresh : r.mayAssign false = fun x => r.requestingCount x == 0 := by
    funext x
    simp [mayAssign]
  rw [assignTasks]
  unfold assignForMissingSubPieces
  dsimp only
  rw [hFresh, ← freshSubPieces, ← againSubPieces]
  refine ⟨u32 (total + (r.freshSubPieces c blockId).length), ?_⟩
  cases hReassign : r.reassigns c flag index blockId with
  | false => simp
  | true => simp

/-- When everything is asked for, the loop counts nothing. -/
theorem assignTasks_of_requested (hRequested : ∀ x, r.requestingCount x ≠ 0) {index : Nat}
    {flag : Bool} {tasks : List Nat} {list : AssignList} :
    (r.assignTasks c index flag tasks (list, 0)).2 = 0 := by
  induction tasks generalizing index flag list with
  | nil => rfl
  | cons blockId tasks ih =>
      have hNone : (r.missingSubPieces c blockId).filter (r.mayAssign false) = [] := by
        apply List.filter_eq_nil_iff.mpr
        intro x _
        simp [mayAssign, hRequested x]
      rw [assignTasks]
      unfold assignForMissingSubPieces
      rw [hNone]
      have hZero : u32 (0 + 0) = 0 := u32_of_lt (by decide)
      dsimp only [List.length_nil]
      rw [hZero]
      exact ih

theorem firstUrgent_succ (index blockId : Nat) : r.firstUrgent c (index + 1) blockId = false := by
  simp [firstUrgent]

/-- What the loop has added to the list: every fresh subpiece in order, and others only where a
block is assigned again. -/
theorem assignTasks_spec (index : Nat) (flag : Bool) (tasks : List Nat) (list : AssignList)
    (total : Nat) :
    ∃ added marks,
      (r.assignTasks c index flag tasks (list, total)).1 =
        ⟨list.subpieceAssignDeque ++ added, list.subpieceReassignSet ∪ marks⟩ ∧
      (tasks.flatMap (r.freshSubPieces c)).Sublist added ∧
      ∀ x ∈ added, ∃ j blockId, tasks[j]? = some blockId ∧ x ∈ r.missingSubPieces c blockId ∧
        (r.requestingCount x ≠ 0 → x ∈ marks ∧ r.requestingCount x < 3 ∧
          ∃ flag', r.reassigns c flag' (index + j) blockId = true ∧
            (flag' = true → flag = true ∨ (0 < j ∧
              ∃ first, tasks[0]? = some first ∧ r.firstUrgent c index first = true))) := by
  induction tasks generalizing index flag list total with
  | nil => exact ⟨[], ∅, by simp [assignTasks], List.Sublist.refl _, by simp⟩
  | cons blockId tasks ih =>
      obtain ⟨total', hRound⟩ := assignTasks_cons (r := r) (c := c) index flag blockId tasks list total
      obtain ⟨added, marks, hRest, hSublist, hAdded⟩ := ih (index + 1)
        (flag || r.firstUrgent c index blockId) _ total'
      rw [hRound, hRest]
      refine ⟨_, _, by rw [List.append_assoc, Finset.union_assoc], ?_, ?_⟩
      · rw [List.flatMap_cons, List.append_assoc]
        exact (List.Sublist.refl _).append (hSublist.trans (List.sublist_append_right _ _))
      · intro x hx
        obtain (hx | hx) | hx := by simpa only [List.mem_append] using hx
        · obtain ⟨hMissing, hNone⟩ := mem_freshSubPieces.mp hx
          exact ⟨0, blockId, rfl, hMissing, fun hSome => absurd hNone hSome⟩
        · cases hReassign : r.reassigns c flag index blockId with
          | false =>
              rw [hReassign, if_neg Bool.false_ne_true] at hx
              cases hx
          | true =>
              rw [hReassign, if_pos rfl] at hx
              obtain ⟨hMissing, hFew⟩ := mem_againSubPieces.mp hx
              refine ⟨0, blockId, rfl, hMissing, fun _ => ⟨?_, hFew, flag, hReassign, Or.inl⟩⟩
              rw [if_pos rfl]
              exact Finset.mem_union_left _ (List.mem_toFinset.mpr hx)
        · obtain ⟨j, other, hOther, hMissing, hAgain⟩ := hAdded x hx
          refine ⟨j + 1, other, hOther, hMissing, fun hSome => ?_⟩
          obtain ⟨hMark, hFew, flag', hReassign, hFlag⟩ := hAgain hSome
          refine ⟨Finset.mem_union_right _ hMark, hFew, flag', ?_, fun hTrue => ?_⟩
          · rw [← Nat.add_assoc, Nat.add_right_comm]
            exact hReassign
          · obtain hEither | ⟨-, first, -, hFirst⟩ := hFlag hTrue
            · obtain hBefore | hHere := Bool.or_eq_true_iff.mp hEither
              · exact .inl hBefore
              · exact .inr ⟨Nat.succ_pos j, blockId, rfl, hHere⟩
            · rw [firstUrgent_succ] at hFirst
              cases hFirst

end Readings

/-- The order of `protocol::LiveSubPieceInfo`. -/
def Before (x y : LivePosition) : Prop :=
  x.blockId < y.blockId ∨ x.blockId = y.blockId ∧ x.subPieceIndex < y.subPieceIndex

namespace LiveStream

variable {s t : LiveStream} {r : Readings} {g : Nat}

/-- The missing subpieces of all tasks that nobody has been asked for. -/
def freshSubPieces (s : LiveStream) (r : Readings) (g : Nat) : List LivePosition :=
  (s.tasksInOrder g).flatMap (r.freshSubPieces s.cacheManager)

/-- The block is one of the first two and is to be assigned again. -/
def Marked (s : LiveStream) (r : Readings) (g blockId : Nat) : Prop :=
  ((s.tasksInOrder g)[0]? = some blockId ∧
    (r.countMissingSubPieces s.cacheManager blockId ≤ 2 ∨
      r.urgent = true ∧ r.countMissingSubPieces s.cacheManager blockId < 32)) ∨
  ((s.tasksInOrder g)[1]? = some blockId ∧
    (r.countMissingSubPieces s.cacheManager blockId ≤ 1 ∨
      r.urgent = true ∧ r.countMissingSubPieces s.cacheManager blockId < 16 ∧
        ∃ first, (s.tasksInOrder g)[0]? = some first ∧
          r.countMissingSubPieces s.cacheManager first < 32))

/-- What the list has to be for the tasks and the cache as they are. -/
structure Listed (s : LiveStream) (r : Readings) (g : Nat) (list : AssignList) : Prop where
  fresh : (s.freshSubPieces r g).Sublist list.subpieceAssignDeque
  inOrder : (s.freshSubPieces r g).Pairwise Before
  entries : ∀ x ∈ list.subpieceAssignDeque, x.blockId ∈ (s.downloaders g).blockTasks ∧
    (∃ count, r.subPieceCount x.blockId = some count ∧ x.subPieceIndex < count) ∧
    s.cacheManager.hasSubPiece x = false ∧
    (r.requestingCount x ≠ 0 → s.Marked r g x.blockId ∧ x ∈ list.subpieceReassignSet ∧
      r.requestingCount x < 3)

theorem mem_tasksInOrder {blockId : Nat} :
    blockId ∈ s.tasksInOrder g ↔ blockId ∈ (s.downloaders g).blockTasks := List.mem_mergeSort

theorem Owned.tasksInOrder_pairwise (h : s.Owned) :
    (s.tasksInOrder g).Pairwise (· < ·) := by
  have hSorted : (s.tasksInOrder g).Pairwise fun a b => decide (a ≤ b) = true :=
    List.pairwise_mergeSort (by simpa using fun a b c => Nat.le_trans)
      (by simpa using Nat.le_total) _
  have hNodup : (s.tasksInOrder g).Pairwise (· ≠ ·) :=
    (List.mergeSort_perm _ _).nodup_iff.mpr (h.nodup g)
  exact (hSorted.and hNodup).imp fun hBoth => Nat.lt_of_le_of_ne (of_decide_eq_true hBoth.1) hBoth.2

theorem Owned.freshSubPieces_pairwise (h : s.Owned) :
    (s.freshSubPieces r g).Pairwise Before := by
  unfold LiveStream.freshSubPieces
  rw [List.pairwise_flatMap]
  constructor
  · intro blockId _
    unfold Readings.freshSubPieces Readings.missingSubPieces
    cases r.subPieceCount blockId with
    | none => exact List.Pairwise.nil
    | some count =>
        apply List.Pairwise.filter
        apply List.Pairwise.filter
        exact List.pairwise_lt_range.map _ fun i j hLess => .inr ⟨rfl, hLess⟩
  · apply h.tasksInOrder_pairwise.imp
    intro a b hLess x hx y hy
    have hBlock := fun {blockId z} (hz : z ∈ r.freshSubPieces s.cacheManager blockId) =>
      (Readings.mem_missingSubPieces.mp (Readings.mem_freshSubPieces.mp hz).1).1
    left
    rw [hBlock hx, hBlock hy]
    exact hLess

theorem marked_of_reassigns {j blockId : Nat} {flag : Bool}
    (hTask : (s.tasksInOrder g)[j]? = some blockId)
    (h : r.reassigns s.cacheManager flag (0 + j) blockId = true)
    (hFlag : flag = true → 0 < j ∧ ∃ first, (s.tasksInOrder g)[0]? = some first ∧
      r.firstUrgent s.cacheManager 0 first = true) : s.Marked r g blockId := by
  simp only [Readings.reassigns, Readings.firstUrgent, Bool.or_eq_true, Bool.and_eq_true,
    beq_iff_eq, decide_eq_true_eq, Nat.zero_add] at h hFlag
  obtain ((⟨⟨hUrgent, rfl⟩, hFew⟩ | ⟨⟨⟨hUrgent, hTrue⟩, rfl⟩, hFew⟩) | ⟨rfl, hFew⟩) | ⟨rfl, hFew⟩ := h
  · exact .inl ⟨hTask, .inr ⟨hUrgent, hFew⟩⟩
  · obtain ⟨-, first, hFirst, -, hFirstFew⟩ := hFlag hTrue
    exact .inr ⟨hTask, .inr ⟨hUrgent, hFew, first, hFirst, hFirstFew⟩⟩
  · exact .inl ⟨hTask, .inl hFew⟩
  · exact .inr ⟨hTask, .inl hFew⟩

/-- The list for the tasks as they are. -/
theorem Owned.listed (h : s.Owned) : s.Listed r g (s.caclSubPieceAssignMap r g).1 := by
  obtain ⟨added, marks, hResult, hSublist, hAdded⟩ := Readings.assignTasks_spec (r := r)
    (c := s.cacheManager) 0 false (s.tasksInOrder g) ⟨[], ∅⟩ 0
  unfold caclSubPieceAssignMap
  rw [hResult, List.nil_append, Finset.empty_union]
  refine ⟨hSublist, h.freshSubPieces_pairwise, fun x hx => ?_⟩
  obtain ⟨j, blockId, hTask, hMissing, hAgain⟩ := hAdded x hx
  obtain ⟨rfl, hCount, hAbsent⟩ := Readings.mem_missingSubPieces.mp hMissing
  refine ⟨mem_tasksInOrder.mp (List.mem_of_getElem? hTask), hCount, hAbsent, fun hSome => ?_⟩
  obtain ⟨hMark, hFew, flag, hReassign, hFlag⟩ := hAgain hSome
  exact ⟨marked_of_reassigns hTask hReassign fun hTrue =>
    (hFlag hTrue).resolve_left Bool.false_ne_true, hMark, hFew⟩

/-- The loop goes on and asks for a block. -/
def WantsMore (s : LiveStream) (r : Readings) (g : Nat) : Prop :=
  (s.caclSubPieceAssignMap r g).2 < 150 ∧ s.lastUnknown r g = false

/-- A round of the loop in which a block is granted. -/
def Granted (r : Readings) (g : Nat) (s t : LiveStream) : Prop :=
  s.WantsMore r g ∧ Settles (fun rounds => s.requestNextBlock rounds g) (· = (t, true))

/-- What the loop leaves: a list for its tasks, and a reason to stop. -/
structure Filled (r : Readings) (g : Nat) (s : LiveStream) (result : LiveStream × AssignList) :
    Prop where
  granted : Relation.ReflTransGen (Granted r g) s result.1
  listed : result.1.Listed r g result.2
  stops : 150 ≤ (result.1.caclSubPieceAssignMap r g).2 ∨ result.1.lastUnknown r g = true ∨
    Settles (fun rounds => result.1.requestNextBlock rounds g) (· = (result.1, false))

/-- A block that is granted is put to the tasks and was not there. -/
theorem Owned.granted (h : s.Owned) {rounds : Nat}
    (hReturns : s.requestNextBlock (rounds + 4) g = some (t, true)) :
    ∃ blockId, blockId ∉ (s.downloaders g).blockTasks ∧
      t.downloaders g = (s.downloaders g).putBlockTask blockId := by
  unfold LiveStream.requestNextBlock at hReturns
  split at hReturns
  · cases hReturns
  · cases hReturns
  · rename_i blockId hNext
    have hNot := h.not_mem_of_mayTake (nextBlock_mayTake hNext)
    refine ⟨blockId, hNot, ?_⟩
    split at hReturns
    · cases hReturns
      exact addBlockTask_self
    · obtain ⟨removed, hRemove, hRemoved⟩ := h.removeBlockTask blockId
      rw [hRemove, Option.map_some] at hReturns
      cases hReturns
      rw [addBlockTask_self, hRemoved.others g hNot]

/-- A round keeps what holds in every run, and adds a task. -/
theorem Granted.step (hStep : Granted r g s t) (h : s.Invariant)
    (hP2P : (s.downloaders g).kind = .p2p) :
    t.Invariant ∧ (t.downloaders g).kind = .p2p ∧
      ∃ blockId, blockId ∉ (s.downloaders g).blockTasks ∧
        ∀ b, b ∈ (t.downloaders g).blockTasks ↔ b = blockId ∨ b ∈ (s.downloaders g).blockTasks := by
  obtain ⟨-, _, ⟨enough, hReturns⟩, rfl⟩ := hStep
  have hMay : s.MayRequest g := by
    intro hHttp
    rw [hP2P] at hHttp
    cases hHttp
  have hGranted := hReturns (enough + 4) (Nat.le_add_right _ _)
  obtain ⟨blockId, hNot, hPut⟩ := h.toOwned.granted hGranted
  refine ⟨h.requestNextBlock hMay hGranted, ?_, blockId, hNot, fun b => ?_⟩
  · rw [hPut, putBlockTask_kind, hP2P]
  · rw [hPut, mem_putBlockTask]

theorem invariant_of_granted (hRounds : Relation.ReflTransGen (Granted r g) s t) (h : s.Invariant)
    (hP2P : (s.downloaders g).kind = .p2p) :
    t.Invariant ∧ (t.downloaders g).kind = .p2p := by
  induction hRounds with
  | refl => exact ⟨h, hP2P⟩
  | tail _ hLast ih =>
      obtain ⟨hInvariant, hKind, -⟩ := hLast.step ih.1 ih.2
      exact ⟨hInvariant, hKind⟩

/-- No block is free at or behind the playing position when one is asked for. -/
def ComesToNothing (r : Readings) (g : Nat) (s : LiveStream) : Prop :=
  ∃ t, Relation.ReflTransGen (Granted r g) s t ∧ t.WantsMore r g ∧
    ¬ ∃ blockId, t.OnStride blockId ∧ t.Free g blockId

/-- The blocks that are not tasks. -/
def outside (s : LiveStream) (g bound : Nat) : Finset Nat :=
  (Finset.range bound).filter fun b => b ∉ (s.downloaders g).blockTasks

theorem outside_lt {bound blockId : Nat} (hLt : blockId < bound)
    (hNot : blockId ∉ (s.downloaders g).blockTasks)
    (hTasks : ∀ b, b ∈ (t.downloaders g).blockTasks ↔
      b = blockId ∨ b ∈ (s.downloaders g).blockTasks) :
    (t.outside g bound).card < (s.outside g bound).card := by
  apply Finset.card_lt_card
  refine Finset.ssubset_iff_subset_ne.mpr ⟨fun b hb => ?_, fun hEq => ?_⟩
  · obtain ⟨hb, hOut⟩ := Finset.mem_filter.mp hb
    exact Finset.mem_filter.mpr ⟨hb, fun hMem => hOut ((hTasks b).mpr (.inr hMem))⟩
  · have hMem : blockId ∈ s.outside g bound :=
      Finset.mem_filter.mpr ⟨Finset.mem_range.mpr hLt, hNot⟩
    rw [← hEq] at hMem
    exact (Finset.mem_filter.mp hMem).2 ((hTasks blockId).mpr (.inl rfl))

/-- A round of the loop. -/
theorem calcSubpieceTillCapacity_succ (rounds : Nat) :
    calcSubpieceTillCapacity r g (rounds + 1) s =
      if 150 ≤ (s.caclSubPieceAssignMap r g).2 then some (s, (s.caclSubPieceAssignMap r g).1)
      else if s.lastUnknown r g then some (s, (s.caclSubPieceAssignMap r g).1)
      else (s.requestNextBlock rounds g).bind fun (t, granted) =>
        if granted then calcSubpieceTillCapacity r g rounds t
        else some (t, (s.caclSubPieceAssignMap r g).1) := by
  rw [calcSubpieceTillCapacity]

theorem WantsMore.settles {P : LiveStream × AssignList → Prop} {granted : Bool}
    (h : s.WantsMore r g)
    (hRequest : Settles (fun rounds => s.requestNextBlock rounds g) (· = (t, granted)))
    (hNext : Settles (fun rounds => if granted then calcSubpieceTillCapacity r g rounds t
      else some (t, (s.caclSubPieceAssignMap r g).1)) P) :
    Settles (fun rounds => calcSubpieceTillCapacity r g rounds s) P := by
  apply Settles.of_succ 1 (f := fun rounds =>
    (s.requestNextBlock rounds g).bind fun (t, granted) =>
      if granted then calcSubpieceTillCapacity r g rounds t
      else some (t, (s.caclSubPieceAssignMap r g).1))
  · apply hRequest.bind
    rintro _ rfl
    exact hNext
  · intro rounds
    rw [calcSubpieceTillCapacity_succ, if_neg (Nat.not_le.mpr h.1), h.2,
      if_neg Bool.false_ne_true]

theorem ChoiceRight.of_false {g : Nat} (h : s.ChoiceRight g (t, false)) : t = s := by
  by_cases hAllowed : s.IsOutOfContents → s.Free g s.playingBlockId
  · cases (h.taken hAllowed).1
  · obtain ⟨hShort, hNot⟩ := Classical.not_imp.mp hAllowed
    exact congrArg Prod.fst (h.refused hShort hNot)

theorem ChoiceRight.of_true {g : Nat} (h : s.ChoiceRight g (t, true)) :
    ∃ blockId, (s.OnStride blockId ∧ s.Free g blockId) ∧ s.Assigned g blockId t := by
  have hAllowed : s.IsOutOfContents → s.Free g s.playingBlockId := by
    intro hShort
    by_contra hNot
    cases h.refused hShort hNot
  obtain ⟨-, blockId, hLeast, hAssigned⟩ := h.taken hAllowed
  exact ⟨blockId, hLeast.1, hAssigned⟩

theorem Owned.not_mem_of_free (h : s.Owned) {blockId : Nat} (hFree : s.Free g blockId) :
    blockId ∉ (s.downloaders g).blockTasks := by
  intro hMem
  obtain ⟨task, hTask, hMine⟩ := (h.owned g blockId).mp hMem
  exact (hFree.2 task hTask).1 hMine

/-- The loop ends, as every round adds a task, unless there is no block left to ask for. -/
theorem Invariant.fills (h : s.Invariant) (hP2P : (s.downloaders g).kind = .p2p) :
    ComesToNothing r g s ∨
      Settles (fun rounds => calcSubpieceTillCapacity r g rounds s) (Filled r g s) := by
  generalize hLeft : (s.outside g (2 ^ 32)).card = left
  induction left using Nat.strong_induction_on generalizing s with
  | _ left ih =>
      have hListed : s.Listed r g (s.caclSubPieceAssignMap r g).1 := h.toOwned.listed
      by_cases hEnough : 150 ≤ (s.caclSubPieceAssignMap r g).2
      · right
        apply Settles.of_add 1 _ (⟨.refl, hListed, .inl hEnough⟩ : Filled r g s (s, _))
        intro rounds
        rw [calcSubpieceTillCapacity_succ, if_pos hEnough]
      · cases hLast : s.lastUnknown r g with
        | true =>
            right
            apply Settles.of_add 1 _ (⟨.refl, hListed, .inr (.inl hLast)⟩ : Filled r g s (s, _))
            intro rounds
            rw [calcSubpieceTillCapacity_succ, if_neg hEnough, if_pos hLast]
        | false =>
            have hWants : s.WantsMore r g := ⟨Nat.lt_of_not_le hEnough, hLast⟩
            by_cases hFree : ∃ blockId, s.OnStride blockId ∧ s.Free g blockId
            · obtain ⟨⟨t, granted⟩, hReturns, hChoice⟩ := h.toOwned.choiceRight hFree
              have hRequest : Settles (fun rounds => s.requestNextBlock rounds g)
                  (· = (t, granted)) := ⟨_, hReturns, rfl⟩
              cases granted with
              | false =>
                  obtain rfl := hChoice.of_false
                  exact .inr (hWants.settles hRequest
                    (.const ⟨.refl, hListed, .inr (.inr hRequest)⟩))
              | true =>
                  have hGranted : Granted r g s t := ⟨hWants, hRequest⟩
                  obtain ⟨hInvariant, hKind, blockId, hNot, hTasks⟩ := hGranted.step h hP2P
                  obtain ⟨taken, ⟨⟨hLt, -⟩, hTaken⟩, hAssigned⟩ := hChoice.of_true
                  have hSame : taken = blockId := by
                    have hMem := (hAssigned.tasks g taken).mpr (.inl ⟨rfl, rfl⟩)
                    exact ((hTasks taken).mp hMem).resolve_right (h.toOwned.not_mem_of_free hTaken)
                  subst hSame
                  obtain ⟨u, hRounds, hNothing⟩ | hRest :=
                    ih _ (hLeft ▸ outside_lt hLt hNot hTasks) hInvariant hKind rfl
                  · exact .inl ⟨u, hRounds.head hGranted, hNothing⟩
                  · refine .inr (hWants.settles hRequest (hRest.mono fun result hFilled => ?_))
                    exact ⟨hFilled.granted.head hGranted, hFilled.listed, hFilled.stops⟩
            · exact .inl ⟨s, .refl, hWants, hFree⟩

/-- In every run, whatever the sizes of the blocks and the outstanding requests: every further
round of the loop adds a task that was not there. The loop ends with a right list, unless it asks
for a block when none is free. -/
theorem fills_of_run {kinds : Nat → Kind} {cacheManager : LiveCacheManager} {useMemoryPool : Bool}
    (run : Reaches Step (fun _ _ => True) (initial kinds cacheManager useMemoryPool) s)
    (hP2P : (s.downloaders g).kind = .p2p) :
    (∀ t u, Relation.ReflTransGen (Granted r g) s t → Granted r g t u →
      ∃ blockId, blockId ∉ (t.downloaders g).blockTasks ∧ ∀ b,
        b ∈ (u.downloaders g).blockTasks ↔ b = blockId ∨ b ∈ (t.downloaders g).blockTasks) ∧
    (ComesToNothing r g s ∨
      Settles (fun rounds => calcSubpieceTillCapacity r g rounds s) (Filled r g s)) := by
  have hInvariant : s.Invariant := by
    apply run.invariant (invariant_initial kinds cacheManager useMemoryPool)
    intro x a y hx _ hStep
    exact hx.step hStep
  refine ⟨fun t u hRounds hLast => ?_, hInvariant.fills hP2P⟩
  obtain ⟨hAt, hKind⟩ := invariant_of_granted hRounds hInvariant hP2P
  exact (hLast.step hAt hKind).2.2

/-- Block 0 has three subpieces, and its first one is requested. -/
def firstRequested : Readings :=
  ⟨false, fun b => if b = 0 then some 3 else none, fun x => if x = ⟨0, 0⟩ then 1 else 0⟩

/-- Of block 0, which the P2P downloader has asked for, the other two are left. -/
theorem fills_of_asked :
    (caclSubPieceAssignMap (asked false) firstRequested 1).1.subpieceAssignDeque =
      [⟨0, 1⟩, ⟨0, 2⟩] ∧
    (∀ t u, Relation.ReflTransGen (Granted firstRequested 1) (asked false) t →
      Granted firstRequested 1 t u →
      ∃ blockId, blockId ∉ (t.downloaders 1).blockTasks ∧ ∀ b,
        b ∈ (u.downloaders 1).blockTasks ↔ b = blockId ∨ b ∈ (t.downloaders 1).blockTasks) ∧
    (ComesToNothing firstRequested 1 (asked false) ∨
      Settles (fun rounds => calcSubpieceTillCapacity firstRequested 1 rounds (asked false))
        (Filled firstRequested 1 (asked false))) :=
  ⟨by decide +kernel, fills_of_run run_to_asked rfl⟩

theorem lastUnknown_of_known (hKnown : ∀ blockId, (r.subPieceCount blockId).isNone = false) :
    s.lastUnknown r g = false := by
  unfold lastUnknown
  cases (s.tasksInOrder g).getLast? with
  | none => rfl
  | some blockId => exact hKnown blockId

/-- Every block has one subpiece, and it is requested. -/
def allRequested : Readings := ⟨false, fun _ => some 1, fun _ => 1⟩

/-- The loop does not end when the downloader has all the blocks of the stride and waits for
them. -/
theorem fills_fails : (allAsked.downloaders 1).kind = .p2p ∧
    ¬ Settles (fun rounds => calcSubpieceTillCapacity allRequested 1 rounds allAsked)
      (fun _ => True) := by
  refine ⟨rfl, ?_⟩
  rintro ⟨result, ⟨enough, hReturns⟩, -⟩
  have hResult : calcSubpieceTillCapacity allRequested 1 (enough + 1) allAsked = some result :=
    hReturns (enough + 1) (Nat.le_add_right _ _)
  have hRequest : allAsked.requestNextBlock enough 1 = none := by
    have hNext : allAsked.nextBlock 1 enough allAsked.playingBlockId = none :=
      nextBlock_allAsked (Nat.two_pow_pos 32) rfl
    unfold LiveStream.requestNextBlock
    rw [hNext]
  have hCount : (allAsked.caclSubPieceAssignMap allRequested 1).2 = 0 := by
    unfold caclSubPieceAssignMap
    exact Readings.assignTasks_of_requested fun _ => Nat.one_ne_zero
  have hLast : allAsked.lastUnknown allRequested 1 = false := lastUnknown_of_known fun _ => rfl
  rw [calcSubpieceTillCapacity_succ, hCount, if_neg (by decide), hLast, if_neg Bool.false_ne_true,
    hRequest] at hResult
  cases hResult

end LiveStream

end Live.Requests
