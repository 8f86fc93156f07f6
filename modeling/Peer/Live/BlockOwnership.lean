import Peer.Live.BlockRequests

/-! The request manager and the downloaders name the same owner of every block, whatever
happens to the stream. -/
namespace Live.Requests

open Basis Storage

/-- What may become of a downloader that loses a task. -/
structure Downloader.Loses (d : Downloader) (blockId : Nat) (d' : Downloader) : Prop where
  kind : d'.kind = d.kind
  isRunning : d'.isRunning = d.isRunning
  blockTasks : d'.blockTasks = d.blockTasks.erase blockId
  quiet : d.isClosed = true → d'.isPausing = d.isPausing
  pausing : d'.isPausing = true → d.isPausing = true ∨ d'.blockTasks = []

namespace LiveStream

variable {s t u : LiveStream} {g g' blockId b : Nat} {f : Downloader → Downloader}

@[simp] theorem modify_self : (s.modify g f).downloaders g = f (s.downloaders g) :=
  Function.update_self ..

theorem modify_of_ne (h : g' ≠ g) : (s.modify g f).downloaders g' = s.downloaders g' :=
  Function.update_of_ne h ..

@[simp] theorem modify_map : (s.modify g f).liveBlockRequestingMap = s.liveBlockRequestingMap := rfl

@[simp] theorem modify_modify {f' : Downloader → Downloader} :
    (s.modify g f).modify g f' = s.modify g fun d => f' (f d) := by
  simp [modify]

/-- The tasks of the downloaders are the entries of the manager that name them, and no HTTP
downloader has two. -/
structure Owned (s : LiveStream) : Prop where
  owned : ∀ g b, b ∈ (s.downloaders g).blockTasks ↔
    ∃ task, s.liveBlockRequestingMap b = some task ∧ task.download = g
  nodup : ∀ g, (s.downloaders g).blockTasks.Nodup
  single : ∀ g, (s.downloaders g).kind = .http → (s.downloaders g).blockTasks.length ≤ 1

/-- An HTTP downloader that pauses has no task. -/
def Rests (s : LiveStream) (g : Nat) : Prop :=
  (s.downloaders g).kind = .http → (s.downloaders g).isPausing = true →
    (s.downloaders g).blockTasks = []

section Removal

/-- A block is taken from whom it was requested. Nobody else changes. -/
structure Removed (s : LiveStream) (blockId : Nat) (t : LiveStream) : Prop where
  now : t.now = s.now
  map : t.liveBlockRequestingMap = Function.update s.liveBlockRequestingMap blockId none
  loses : ∀ g, (s.downloaders g).Loses blockId (t.downloaders g)
  others : ∀ g, blockId ∉ (s.downloaders g).blockTasks → t.downloaders g = s.downloaders g

/-- An HTTP downloader that owns a block has no other task. -/
theorem Owned.tasks_eq (h : s.Owned) {task : BlockTask}
    (hEntry : s.liveBlockRequestingMap blockId = some task)
    (hHttp : (s.downloaders task.download).kind = .http) :
    (s.downloaders task.download).blockTasks = [blockId] := by
  have hMem := (h.owned task.download blockId).mpr ⟨task, hEntry, rfl⟩
  have hSingle := h.single task.download hHttp
  cases hTasks : (s.downloaders task.download).blockTasks with
  | nil =>
      rw [hTasks] at hMem
      cases hMem
  | cons first rest =>
      rw [hTasks] at hMem hSingle
      rw [List.length_cons] at hSingle
      obtain rfl : rest = [] := List.eq_nil_of_length_eq_zero (by omega)
      rw [List.mem_singleton.mp hMem]

/-- The owner loses the block, and then the entry goes. -/
theorem Owned.removed_of_update (h : s.Owned) {task : BlockTask}
    (hEntry : s.liveBlockRequestingMap blockId = some task)
    (hLoses : (s.downloaders task.download).Loses blockId (f (s.downloaders task.download))) :
    Removed s blockId ((s.modify task.download f).eraseEntry blockId) := by
  have hOther : ∀ g, blockId ∉ (s.downloaders g).blockTasks →
      (s.modify task.download f).downloaders g = s.downloaders g := by
    intro g hNot
    apply modify_of_ne
    rintro rfl
    exact hNot ((h.owned _ _).mpr ⟨task, hEntry, rfl⟩)
  refine ⟨rfl, rfl, fun g => ?_, hOther⟩
  by_cases hSame : g = task.download
  · subst hSame
    show (s.downloaders task.download).Loses blockId
      ((s.modify task.download f).downloaders task.download)
    rw [modify_self]
    exact hLoses
  · have hNot : blockId ∉ (s.downloaders g).blockTasks := by
      rintro hMem
      obtain ⟨other, hOtherEntry, rfl⟩ := (h.owned g blockId).mp hMem
      rw [hEntry] at hOtherEntry
      cases hOtherEntry
      exact hSame rfl
    show (s.downloaders g).Loses blockId ((s.modify task.download f).downloaders g)
    rw [hOther g hNot]
    exact ⟨rfl, rfl, (List.erase_of_not_mem hNot).symm, fun _ => rfl, Or.inl⟩

theorem Owned.removed_of_none (h : s.Owned) (hEntry : s.liveBlockRequestingMap blockId = none) :
    Removed s blockId s := by
  have hNot : ∀ g, blockId ∉ (s.downloaders g).blockTasks := by
    intro g hMem
    obtain ⟨task, hTask, -⟩ := (h.owned g blockId).mp hMem
    rw [hEntry] at hTask
    cases hTask
  refine ⟨rfl, ?_, fun g => ?_, fun _ _ => rfl⟩
  · rw [← hEntry, Function.update_eq_self]
  · exact ⟨rfl, rfl, (List.erase_of_not_mem (hNot g)).symm, fun _ => rfl, Or.inl⟩

/-- Removing a task needs few rounds, also when its downloader pauses. -/
theorem Owned.removeBlockTask (h : s.Owned) (blockId : Nat) :
    ∃ t, (∀ rounds, removeBlockTask (rounds + 4) s blockId = some t) ∧ Removed s blockId t := by
  cases hEntry : s.liveBlockRequestingMap blockId with
  | none =>
      refine ⟨s, fun rounds => ?_, h.removed_of_none hEntry⟩
      simp only [LiveStream.removeBlockTask, hEntry]
  | some task =>
      have hMem : blockId ∈ (s.downloaders task.download).blockTasks :=
        (h.owned _ _).mpr ⟨task, hEntry, rfl⟩
      cases hKind : (s.downloaders task.download).kind with
      | p2p =>
          refine ⟨(s.modify task.download (·.eraseTask blockId)).eraseEntry blockId,
            fun rounds => ?_, ?_⟩
          · simp only [LiveStream.removeBlockTask, hEntry, onBlockTimeout, hKind, Option.map_some]
          · exact h.removed_of_update hEntry ⟨rfl, rfl, rfl, fun _ => rfl, Or.inl⟩
      | http =>
          have hTasks := h.tasks_eq hEntry hKind
          have hNone : ((s.downloaders task.download).eraseTask blockId).blockTasks = [] := by
            simp [Downloader.eraseTask, hTasks]
          by_cases hPauses : (s.downloaders task.download).isPausing = false ∧
              (s.downloaders task.download).isClosed = false
          · -- The downloader was busy with the block and pauses; it has nothing else.
            refine ⟨(s.modify task.download fun d =>
              { d.eraseTask blockId with isPausing := true, isClosed := true }).eraseEntry blockId,
              fun rounds => ?_, ?_⟩
            · simp only [LiveStream.removeBlockTask, hEntry, onBlockTimeout, hKind, hMem, if_true,
                hPauses, and_self, pause, modify_self, Downloader.eraseTask, Bool.false_eq_true,
                if_false, removeBlockTasks, modify_modify]
              rw [hTasks, List.erase_cons_head]
              simp
            · apply h.removed_of_update hEntry
              refine ⟨rfl, rfl, rfl, fun hClosed => ?_, fun _ => Or.inr hNone⟩
              rw [hPauses.2] at hClosed
              cases hClosed
          · refine ⟨(s.modify task.download (·.eraseTask blockId)).eraseEntry blockId,
              fun rounds => ?_, ?_⟩
            · simp only [LiveStream.removeBlockTask, hEntry, onBlockTimeout, hKind, hMem, if_true,
                hPauses, if_false, Option.map_some]
            · exact h.removed_of_update hEntry ⟨rfl, rfl, rfl, fun _ => rfl, Or.inl⟩

/-- Without the block the two still agree. -/
theorem Removed.owned (hRemoved : Removed s blockId t) (h : s.Owned) : t.Owned where
  owned g b := by
    rw [(hRemoved.loses g).blockTasks, (h.nodup g).mem_erase_iff, h.owned, hRemoved.map]
    by_cases hSame : b = blockId
    · subst hSame
      simp
    · rw [Function.update_of_ne hSame]
      simp [hSame]
  nodup g := by
    rw [(hRemoved.loses g).blockTasks]
    exact (h.nodup g).erase blockId
  single g hHttp := by
    rw [(hRemoved.loses g).blockTasks]
    rw [(hRemoved.loses g).kind] at hHttp
    exact (List.length_erase_le ..).trans (h.single g hHttp)

theorem Removed.rests (hRemoved : Removed s blockId t) (h : s.Rests g) : t.Rests g := by
  have hLoses := hRemoved.loses g
  intro hHttp hPausing
  rw [hLoses.kind] at hHttp
  rcases hLoses.pausing hPausing with hBefore | hNone
  · rw [hLoses.blockTasks, h hHttp hBefore]
    rfl
  · exact hNone

end Removal

section Assignment

/-- `PutBlockTask` adds the block to what is there, in the list and in the map. -/
theorem mem_putBlockTask {d : Downloader} :
    b ∈ (d.putBlockTask blockId).blockTasks ↔ b = blockId ∨ b ∈ d.blockTasks := by
  unfold Downloader.putBlockTask
  split
  · simp [or_comm]
  · split
    · rename_i hMem
      constructor
      · exact Or.inr
      · rintro (rfl | hTask)
        · exact hMem
        · exact hTask
    · exact List.mem_orderedInsert _

@[simp] theorem putBlockTask_kind (d : Downloader) : (d.putBlockTask blockId).kind = d.kind := by
  unfold Downloader.putBlockTask
  split
  · rfl
  · split <;> rfl

@[simp] theorem putBlockTask_isPausing (d : Downloader) :
    (d.putBlockTask blockId).isPausing = d.isPausing := by
  unfold Downloader.putBlockTask
  split
  · rfl
  · split <;> rfl

theorem nodup_putBlockTask {d : Downloader} (h : d.blockTasks.Nodup) (hNot : blockId ∉ d.blockTasks) :
    (d.putBlockTask blockId).blockTasks.Nodup := by
  unfold Downloader.putBlockTask
  split
  · exact List.nodup_append.mpr ⟨h, List.nodup_singleton _, by
      rintro a ha b hb rfl
      rw [List.mem_singleton.mp hb] at ha
      exact hNot ha⟩
  · rw [if_neg hNot]
    exact (List.perm_orderedInsert _ _ _).nodup_iff.mpr (List.nodup_cons.mpr ⟨hNot, h⟩)

theorem addBlockTask_self :
    (s.addBlockTask blockId g).downloaders g = (s.downloaders g).putBlockTask blockId :=
  Function.update_self ..

theorem addBlockTask_of_ne (h : g' ≠ g) :
    (s.addBlockTask blockId g).downloaders g' = s.downloaders g' :=
  Function.update_of_ne h ..

/-- Of all tasks only the new one is added. -/
theorem mem_addBlockTask : b ∈ ((s.addBlockTask blockId g).downloaders g').blockTasks ↔
    (b = blockId ∧ g' = g) ∨ b ∈ (s.downloaders g').blockTasks := by
  by_cases hSame : g' = g
  · subst hSame
    rw [addBlockTask_self, mem_putBlockTask]
    simp
  · rw [addBlockTask_of_ne hSame]
    simp [hSame]

theorem addBlockTask_map : (s.addBlockTask blockId g).liveBlockRequestingMap =
    Function.update s.liveBlockRequestingMap blockId (some ⟨g, s.now⟩) := rfl

/-- Who may ask for a block: an HTTP downloader only while it does not pause and has none. -/
def MayRequest (s : LiveStream) (g : Nat) : Prop :=
  (s.downloaders g).kind = .http →
    (s.downloaders g).isPausing = false ∧ (s.downloaders g).blockTasks = []

/-- A free block gets one owner. -/
theorem Owned.addBlockTask (h : s.Owned) (hFree : s.liveBlockRequestingMap blockId = none)
    (hMay : s.MayRequest g) : (s.addBlockTask blockId g).Owned := by
  have hNot : ∀ g', blockId ∉ (s.downloaders g').blockTasks := by
    intro g' hMem
    obtain ⟨task, hTask, -⟩ := (h.owned g' blockId).mp hMem
    rw [hFree] at hTask
    cases hTask
  refine ⟨fun g' b => ?_, fun g' => ?_, fun g' hHttp => ?_⟩
  · rw [mem_addBlockTask, addBlockTask_map, h.owned]
    by_cases hBlock : b = blockId
    · subst hBlock
      simp [hFree, eq_comm]
    · rw [Function.update_of_ne hBlock]
      simp [hBlock]
  · by_cases hSame : g' = g
    · subst hSame
      rw [addBlockTask_self]
      exact nodup_putBlockTask (h.nodup g') (hNot g')
    · rw [addBlockTask_of_ne hSame]
      exact h.nodup g'
  · by_cases hSame : g' = g
    · subst hSame
      rw [addBlockTask_self] at hHttp ⊢
      rw [putBlockTask_kind] at hHttp
      simp [Downloader.putBlockTask, hHttp, (hMay hHttp).2]
    · rw [addBlockTask_of_ne hSame] at hHttp ⊢
      exact h.single g' hHttp

theorem Rests.addBlockTask (h : s.Rests g') (hMay : s.MayRequest g) :
    (s.addBlockTask blockId g).Rests g' := by
  by_cases hSame : g' = g
  · subst hSame
    unfold Rests
    rw [addBlockTask_self, putBlockTask_kind, putBlockTask_isPausing]
    intro hHttp hPausing
    rw [(hMay hHttp).1] at hPausing
    cases hPausing
  · unfold Rests
    rw [addBlockTask_of_ne hSame]
    exact h

/-- What holds of a stream in every run. -/
structure Invariant (s : LiveStream) : Prop extends s.Owned where
  rests : ∀ g, s.Rests g

theorem Invariant.addBlockTask (h : s.Invariant) (hFree : s.liveBlockRequestingMap blockId = none)
    (hMay : s.MayRequest g) : (s.addBlockTask blockId g).Invariant :=
  ⟨h.toOwned.addBlockTask hFree hMay, fun g' => (h.rests g').addBlockTask hMay⟩

theorem Removed.invariant (hRemoved : Removed s blockId t) (h : s.Invariant) : t.Invariant :=
  ⟨hRemoved.owned h.toOwned, fun g => hRemoved.rests (h.rests g)⟩

/-- The request for a block is too late only for those who do not have it. -/
theorem Owned.not_mem_of_mayTake (h : s.Owned) (hTake : s.mayTake blockId g = true) :
    blockId ∉ (s.downloaders g).blockTasks := by
  intro hMem
  obtain ⟨task, hTask, rfl⟩ := (h.owned g blockId).mp hMem
  simp [mayTake, hTask, isTimeout] at hTake

/-- Who has not lost the block may still ask. -/
theorem Removed.mayRequest (hRemoved : Removed s blockId t)
    (hNot : blockId ∉ (s.downloaders g).blockTasks) (h : s.MayRequest g) : t.MayRequest g := by
  unfold MayRequest
  rw [hRemoved.others g hNot]
  exact h

/-- The block that the search ends with may be taken. -/
theorem nextBlock_mayTake {rounds startBlockId : Nat}
    (h : s.nextBlock g rounds startBlockId = some (some blockId)) : s.mayTake blockId g = true := by
  induction rounds generalizing startBlockId with
  | zero => cases h
  | succ rounds ih =>
      unfold nextBlock at h
      split at h
      · cases h
      · split at h
        · cases h
        · split at h
          · rename_i hTake
            cases h
            exact hTake
          · exact ih h

/-- A request that returns keeps the invariant. -/
theorem Invariant.requestNextBlock (h : s.Invariant) (hMay : s.MayRequest g) {rounds : Nat}
    {result : Bool} (hReturns : s.requestNextBlock (rounds + 4) g = some (t, result)) :
    t.Invariant := by
  unfold LiveStream.requestNextBlock at hReturns
  split at hReturns
  · cases hReturns
  · cases hReturns
    exact h
  · rename_i blockId hNext
    split at hReturns
    · rename_i hFree
      cases hReturns
      exact h.addBlockTask hFree hMay
    · obtain ⟨removed, hRemove, hRemoved⟩ := h.toOwned.removeBlockTask blockId
      rw [hRemove, Option.map_some] at hReturns
      cases hReturns
      have hNot := h.toOwned.not_mem_of_mayTake (nextBlock_mayTake hNext)
      apply (hRemoved.invariant h).addBlockTask
      · rw [hRemoved.map, Function.update_self]
      · exact hRemoved.mayRequest hNot hMay

theorem Invariant.httpRequestNextBlock (h : s.Invariant) (hMay : s.MayRequest g) {rounds : Nat}
    (hReturns : s.httpRequestNextBlock (rounds + 4) g = some t) : t.Invariant := by
  unfold LiveStream.httpRequestNextBlock at hReturns
  split at hReturns
  · obtain ⟨⟨t, result⟩, hRequest, rfl⟩ := Option.map_eq_some_iff.mp hReturns
    exact h.requestNextBlock hMay hRequest
  · cases hReturns
    exact h

end Assignment

section Calls

/-- A change of a downloader that leaves its tasks alone keeps the owners. -/
theorem Owned.modify (h : s.Owned) (hKind : (f (s.downloaders g)).kind = (s.downloaders g).kind)
    (hTasks : (f (s.downloaders g)).blockTasks = (s.downloaders g).blockTasks) :
    (s.modify g f).Owned := by
  have hSame : ∀ g', ((s.modify g f).downloaders g').kind = (s.downloaders g').kind ∧
      ((s.modify g f).downloaders g').blockTasks = (s.downloaders g').blockTasks := by
    intro g'
    by_cases hEq : g' = g
    · subst hEq
      rw [modify_self]
      exact ⟨hKind, hTasks⟩
    · rw [modify_of_ne hEq]
      exact ⟨rfl, rfl⟩
  refine ⟨fun g' b => ?_, fun g' => ?_, fun g' hHttp => ?_⟩
  · rw [(hSame g').2]
    exact h.owned g' b
  · rw [(hSame g').2]
    exact h.nodup g'
  · rw [(hSame g').2]
    exact h.single g' ((hSame g').1 ▸ hHttp)

theorem Rests.modify (h : s.Rests g') (hRests : g' = g → (s.modify g f).Rests g) :
    (s.modify g f).Rests g' := by
  by_cases hEq : g' = g
  · subst hEq
    exact hRests rfl
  · unfold Rests
    rw [modify_of_ne hEq]
    exact h

theorem Invariant.modify (h : s.Invariant)
    (hKind : (f (s.downloaders g)).kind = (s.downloaders g).kind)
    (hTasks : (f (s.downloaders g)).blockTasks = (s.downloaders g).blockTasks)
    (hRests : (s.modify g f).Rests g) : (s.modify g f).Invariant :=
  ⟨h.toOwned.modify hKind hTasks, fun g' => (h.rests g').modify fun _ => hRests⟩

/-- A change of a downloader's fields other than its tasks and its pause. -/
theorem Invariant.modify_quiet (h : s.Invariant)
    (hKind : (f (s.downloaders g)).kind = (s.downloaders g).kind)
    (hTasks : (f (s.downloaders g)).blockTasks = (s.downloaders g).blockTasks)
    (hPausing : (f (s.downloaders g)).isPausing = (s.downloaders g).isPausing) :
    (s.modify g f).Invariant := by
  apply h.modify hKind hTasks
  unfold Rests
  rw [modify_self, hKind, hTasks, hPausing]
  exact h.rests g

/-- The loops that empty the tasks of an HTTP downloader, which has at most one. -/
theorem Owned.removeBlockTasks (h : s.Owned) (hHttp : (s.downloaders g).kind = .http)
    {rounds : Nat} (hReturns : removeBlockTasks (rounds + 6) s g = some t) :
    t.Owned ∧ (t.downloaders g).blockTasks = [] ∧ (t.downloaders g).kind = .http ∧
      ∀ g', g' ≠ g → s.Rests g' → t.Rests g' := by
  unfold LiveStream.removeBlockTasks at hReturns
  split at hReturns
  · rename_i hNone
    cases hReturns
    exact ⟨h, hNone, hHttp, fun _ _ hRests => hRests⟩
  · rename_i blockId rest hTasks
    split at hReturns
    · obtain ⟨removed, hRemove, hRemoved⟩ := h.removeBlockTask blockId
      obtain ⟨task, hEntry, hDownload⟩ := (h.owned g blockId).mp (by simp [hTasks])
      subst hDownload
      have hEmpty : (removed.downloaders task.download).blockTasks = [] := by
        rw [(hRemoved.loses _).blockTasks, h.tasks_eq hEntry hHttp]
        simp
      rw [show rounds + 5 = rounds + 1 + 4 from rfl, hRemove, Option.bind_some,
        LiveStream.removeBlockTasks, hEmpty] at hReturns
      cases hReturns
      refine ⟨hRemoved.owned h, hEmpty, ?_, fun g' _ hRests => hRemoved.rests hRests⟩
      rw [(hRemoved.loses _).kind, hHttp]
    · cases hReturns

/-- A pause gives back every task, and its timeouts find the downloader pausing. -/
theorem Invariant.pause (h : s.Invariant) (hHttp : (s.downloaders g).kind = .http) {rounds : Nat}
    (hReturns : pause (rounds + 7) s g = some t) : t.Invariant := by
  unfold LiveStream.pause at hReturns
  split at hReturns
  · cases hReturns
    exact h
  · obtain ⟨removed, hRemove, rfl⟩ := Option.map_eq_some_iff.mp hReturns
    have hOwned : (s.modify g fun d => { d with isPausing := true }).Owned :=
      h.toOwned.modify rfl rfl
    obtain ⟨hOwned', hNone, hKind, hRests⟩ := hOwned.removeBlockTasks (g := g)
      (by rw [modify_self]; exact hHttp) hRemove
    refine ⟨hOwned'.modify rfl rfl, fun g' => ?_⟩
    by_cases hSame : g' = g
    · subst hSame
      unfold Rests
      rw [modify_self]
      exact fun _ _ => hNone
    · unfold Rests
      rw [modify_of_ne hSame]
      apply hRests g' hSame
      unfold Rests
      rw [modify_of_ne hSame]
      exact h.rests g'

theorem Invariant.doClose (h : s.Invariant) (hHttp : (s.downloaders g).kind = .http) {rounds : Nat}
    (hReturns : s.doClose (rounds + 6) g = some t) : t.Invariant := by
  have hClosed : (s.modify g fun d => { d with isClosed := true }).Invariant :=
    h.modify_quiet rfl rfl rfl
  obtain ⟨hOwned, hNone, -, hRests⟩ := hClosed.toOwned.removeBlockTasks (g := g)
    (by rw [modify_self]; exact hHttp) hReturns
  refine ⟨hOwned, fun g' => ?_⟩
  by_cases hSame : g' = g
  · subst hSame
    exact fun _ _ => hNone
  · exact hRests g' hSame (hClosed.rests g')

theorem Invariant.resume (h : s.Invariant) {rounds : Nat}
    (hReturns : s.resume (rounds + 4) g = some t) : t.Invariant := by
  unfold LiveStream.resume at hReturns
  split at hReturns
  · rename_i hPausing
    apply Invariant.httpRequestNextBlock _ _ hReturns
    · apply h.modify rfl rfl
      unfold Rests
      rw [modify_self]
      intro _ hNot
      cases hNot
    · unfold MayRequest
      rw [modify_self]
      exact fun hHttp => ⟨rfl, h.rests g hHttp hPausing⟩
  · cases hReturns
    exact h

theorem Invariant.proceed (h : s.Invariant) (hAwake : (s.downloaders g).isPausing = false)
    {rounds : Nat} (hReturns : s.proceed (rounds + 4) g = some t) : t.Invariant := by
  have hRequest : (s.downloaders g).blockTasks = [] →
      s.httpRequestNextBlock (rounds + 4) g = some t → t.Invariant :=
    fun hNone => h.httpRequestNextBlock fun _ => ⟨hAwake, hNone⟩
  unfold LiveStream.proceed doConnect at hReturns
  by_cases hTasks : (s.downloaders g).blockTasks = []
  · simp only [hTasks, ne_eq, not_true_eq_false, if_false] at hReturns
    exact hRequest hTasks hReturns
  · simp only [hTasks, ne_eq, not_false_eq_true, if_true] at hReturns
    split at hReturns
    · cases hReturns
      exact h.modify_quiet rfl rfl rfl
    · cases hReturns
      exact h

theorem Invariant.onTimerElapsed (h : s.Invariant) {rounds : Nat}
    (hReturns : s.onTimerElapsed (rounds + 4) g = some t) : t.Invariant := by
  unfold LiveStream.onTimerElapsed at hReturns
  dsimp only at hReturns
  split at hReturns
  · cases hReturns
    exact h
  · rename_i hNot
    apply Invariant.proceed _ _ hReturns
    · exact h.modify_quiet rfl rfl rfl
    · rw [modify_self]
      simpa using fun hPausing => hNot (Or.inr hPausing)

/-- A block that is complete is given back before the next one is asked for. -/
theorem Invariant.onComplete (h : s.Invariant) (hHttp : (s.downloaders g).kind = .http)
    {rounds : Nat} (hReturns : s.onComplete (rounds + 4) g = some t) : t.Invariant := by
  unfold LiveStream.onComplete at hReturns
  split at hReturns
  · split at hReturns
    · cases hReturns
    · rename_i blockId rest hTasks
      have hClosed : (s.modify g fun d => { d with isClosed := true }).Invariant :=
        h.modify_quiet rfl rfl rfl
      obtain ⟨removed, hRemove, hRemoved⟩ := hClosed.toOwned.removeBlockTask blockId
      rw [hRemove, Option.bind_some] at hReturns
      apply (hRemoved.invariant hClosed).proceed _ hReturns
      rw [(hRemoved.loses g).quiet (by rw [modify_self]), modify_self]
      by_contra hPausing
      have hNone := h.rests g hHttp (by simpa using hPausing)
      rw [hTasks] at hNone
      cases hNone
  · cases hReturns
    exact h

/-- Every complete block is removed in turn. -/
theorem Invariant.checkBlockComplete (h : s.Invariant) {rounds : Nat}
    (hReturns : s.checkBlockComplete (rounds + 4) g = some t) : t.Invariant := by
  unfold LiveStream.checkBlockComplete at hReturns
  generalize (s.downloaders g).blockTasks.filter s.cacheManager.hasCompleteBlock = blocks at hReturns
  induction blocks generalizing s with
  | nil =>
      cases hReturns
      exact h
  | cons blockId rest ih =>
      obtain ⟨removed, hRemove, hRemoved⟩ := h.toOwned.removeBlockTask blockId
      rw [List.foldlM_cons, hRemove] at hReturns
      exact ih (hRemoved.invariant h) hReturns

end Calls

section Runs

/-- Every action keeps the invariant: one case for each. -/
theorem Invariant.next (h : s.Invariant) {a : Action} {rounds : Nat}
    (hReturns : s.next (rounds + 7) a = some t) : t.Invariant := by
  have hHttp : ∀ {g : Nat} {result : Option LiveStream}, s.whenHttp g result = some t →
      ((s.downloaders g).kind = .http → result = some t → t.Invariant) → t.Invariant := by
    intro g result hWhen hKeeps
    unfold whenHttp at hWhen
    split at hWhen
    · rename_i hKind
      exact hKeeps hKind hWhen
    · cases hWhen
      exact h
  have hP2P : ∀ {g : Nat} {result : Option LiveStream}, s.whenP2P g result = some t →
      ((s.downloaders g).kind = .p2p → result = some t → t.Invariant) → t.Invariant := by
    intro g result hWhen hKeeps
    unfold whenP2P at hWhen
    split at hWhen
    · rename_i hKind
      exact hKeeps hKind.1 hWhen
    · cases hWhen
      exact h
  cases a with
  | start g =>
      cases hReturns
      exact h.modify_quiet rfl rfl rfl
  | stop g =>
      cases hReturns
      exact h.modify_quiet rfl rfl rfl
  | pause g => exact hHttp hReturns fun hKind => h.pause hKind
  | resume g => exact hHttp hReturns fun _ => h.resume
  | timerElapsed g => exact hHttp hReturns fun _ => h.onTimerElapsed
  | complete g => exact hHttp hReturns fun hKind => h.onComplete hKind
  | close g => exact hHttp hReturns fun hKind => h.doClose hKind
  | status g isClosed =>
      apply hHttp hReturns
      intro _ hSame
      cases hSame
      exact h.modify_quiet rfl rfl rfl
  | p2pPausing g isPausing =>
      simp only [LiveStream.next] at hReturns
      split at hReturns
      · rename_i hKind
        cases hReturns
        apply h.modify rfl rfl
        unfold Rests
        rw [modify_self]
        intro hOther
        rw [hKind] at hOther
        cases hOther
      · cases hReturns
        exact h
  | p2pRequest g =>
      apply hP2P hReturns
      intro hKind hRequest
      split at hRequest
      · cases hRequest
        exact h
      · obtain ⟨⟨t, result⟩, hReturned, rfl⟩ := Option.map_eq_some_iff.mp hRequest
        refine h.requestNextBlock (fun hOther => ?_) hReturned
        rw [hKind] at hOther
        cases hOther
  | p2pCheck g => exact hP2P hReturns fun _ => h.checkBlockComplete
  | plays blockId =>
      cases hReturns
      exact ⟨⟨h.owned, h.nodup, h.single⟩, h.rests⟩
  | caches blockNodes =>
      cases hReturns
      exact ⟨⟨h.owned, h.nodup, h.single⟩, h.rests⟩
  | capacity left =>
      cases hReturns
      exact ⟨⟨h.owned, h.nodup, h.single⟩, h.rests⟩
  | elapses milliseconds =>
      cases hReturns
      exact ⟨⟨h.owned, h.nodup, h.single⟩, h.rests⟩

theorem Invariant.step (h : s.Invariant) {a : Action} (hStep : Step s a t) : t.Invariant := by
  obtain ⟨_, ⟨enough, hReturns⟩, rfl⟩ := hStep
  exact h.next (hReturns (enough + 7) (Nat.le_add_right _ _))

theorem invariant_initial (kinds : Nat → Kind) (cacheManager : LiveCacheManager)
    (useMemoryPool : Bool) : (initial kinds cacheManager useMemoryPool).Invariant where
  owned g b := by simp [initial, Downloader.create]
  nodup g := List.nodup_nil
  single g _ := Nat.zero_le _
  rests g _ _ := rfl

end Runs

end LiveStream

end Live.Requests
