import Peer.Basis.Rounds
import Peer.Live.HttpDownloader

/-! The tasks of the downloaders and the entries of the request manager, as blocks are
removed and searched for. -/
namespace Live.Http

open Basis

namespace LiveStream

variable {s t : LiveStream} {g g' blockId : Nat} {f : LiveHttpDownloader → LiveHttpDownloader}

@[simp] theorem modify_self : (s.modify g f).downloaders g = f (s.downloaders g) :=
  Function.update_self ..

theorem modify_of_ne (h : g' ≠ g) : (s.modify g f).downloaders g' = s.downloaders g' :=
  Function.update_of_ne h ..

@[simp] theorem modify_map : (s.modify g f).liveBlockRequestingMap = s.liveBlockRequestingMap := rfl

@[simp] theorem modify_current : (s.modify g f).liveHttpDownloader = s.liveHttpDownloader := rfl

@[simp] theorem modify_stored : (s.modify g f).stored = s.stored := rfl

@[simp] theorem modify_posted : (s.modify g f).posted = s.posted := rfl

@[simp] theorem modify_created : (s.modify g f).created = s.created := rfl

@[simp] theorem modify_isRunning : (s.modify g f).isRunning = s.isRunning := rfl

@[simp] theorem modify_modify {f' : LiveHttpDownloader → LiveHttpDownloader} :
    (s.modify g f).modify g f' = s.modify g fun d => f' (f d) := by
  simp [modify]

@[simp] theorem eraseEntry_downloaders : (s.eraseEntry blockId).downloaders = s.downloaders := rfl

@[simp] theorem eraseEntry_self : (s.eraseEntry blockId).liveBlockRequestingMap blockId = none :=
  Function.update_self ..

end LiveStream

/-- The tasks of the downloaders and the entries of the manager are the same, and no
downloader has two. Only the present downloader of the stream runs. -/
structure LiveStream.Linked (s : LiveStream) : Prop where
  owned : ∀ g blockId, blockId ∈ (s.downloaders g).blockTasks ↔
    s.liveBlockRequestingMap blockId = some (.http g)
  single : ∀ g, (s.downloaders g).blockTasks.length ≤ 1
  running : ∀ g, (s.downloaders g).isRunning = true ↔ s.liveHttpDownloader = some g
  idle : s.isRunning = false ↔ s.liveHttpDownloader = none
  bounded : ∀ g, s.liveHttpDownloader = some g → g < s.created
  fresh : ∀ g, s.created ≤ g → (s.downloaders g).blockTasks = []
  streamed : ∀ g, (s.downloaders g).liveStream = (s.downloaders g).isRunning
  stored : ∀ entry ∈ s.stored, entry.1 = entry.2

/-- A running downloader between two callbacks. -/
structure LiveHttpDownloader.Shape (d : LiveHttpDownloader) : Prop where
  active : d.status.isActive = true →
    ∃ c, d.httpClient = some c ∧ c.phase ≠ .closed ∧ d.blockTasks = [c.blockId]
  busy : ∀ c, d.httpClient = some c → c.phase ≠ .idle → c.phase ≠ .closed →
    d.status.isActive = true
  pausing : d.isHttpPausing = true → d.status = .closed ∧ d.blockTasks = []
  numbered : ∀ c, d.httpClient = some c → c.id < d.clients

structure LiveStream.Invariant (s : LiveStream) : Prop extends s.Linked where
  shape : ∀ g, s.liveHttpDownloader = some g → (s.downloaders g).Shape

namespace LiveStream

variable {s t : LiveStream} {g g' blockId : Nat} {f : LiveHttpDownloader → LiveHttpDownloader}

/-- Nothing starts or stops and nothing is stored between the two states. -/
structure Keeps (s t : LiveStream) : Prop where
  isRunning : t.isRunning = s.isRunning
  current : t.liveHttpDownloader = s.liveHttpDownloader
  created : t.created = s.created
  stored : t.stored = s.stored
  running : ∀ g, (t.downloaders g).isRunning = (s.downloaders g).isRunning
  stream : ∀ g, (t.downloaders g).liveStream = (s.downloaders g).liveStream

theorem Keeps.trans {u : LiveStream} (h : s.Keeps t) (h' : t.Keeps u) : s.Keeps u where
  isRunning := h'.isRunning.trans h.isRunning
  current := h'.current.trans h.current
  created := h'.created.trans h.created
  stored := h'.stored.trans h.stored
  running g := (h'.running g).trans (h.running g)
  stream g := (h'.stream g).trans (h.stream g)

/-- What a step has to give anew when it keeps the rest. -/
theorem Linked.transfer (h : s.Linked) (hKeeps : s.Keeps t)
    (hOwned : ∀ g blockId, blockId ∈ (t.downloaders g).blockTasks ↔
      t.liveBlockRequestingMap blockId = some (.http g))
    (hSingle : ∀ g, (t.downloaders g).blockTasks.length ≤ 1)
    (hFresh : ∀ g, s.created ≤ g → (t.downloaders g).blockTasks = []) : t.Linked where
  owned := hOwned
  single := hSingle
  running g := by rw [hKeeps.running, hKeeps.current, h.running]
  idle := by
    rw [hKeeps.isRunning, hKeeps.current]
    exact h.idle
  bounded := by
    rw [hKeeps.current, hKeeps.created]
    exact h.bounded
  fresh g hCreated := hFresh g (hKeeps.created ▸ hCreated)
  streamed g := by rw [hKeeps.running, hKeeps.stream, h.streamed]
  stored := hKeeps.stored ▸ h.stored

theorem keeps_modify (hRunning : (f (s.downloaders g)).isRunning = (s.downloaders g).isRunning)
    (hStream : (f (s.downloaders g)).liveStream = (s.downloaders g).liveStream) :
    s.Keeps (s.modify g f) where
  isRunning := rfl
  current := rfl
  created := rfl
  stored := rfl
  running g' := by
    by_cases hEq : g' = g
    · subst hEq
      rw [modify_self, hRunning]
    · rw [modify_of_ne hEq]
  stream g' := by
    by_cases hEq : g' = g
    · subst hEq
      rw [modify_self, hStream]
    · rw [modify_of_ne hEq]

/-- A change of a downloader that leaves its tasks alone keeps the links. -/
theorem Linked.modify (h : s.Linked)
    (hTasks : (f (s.downloaders g)).blockTasks = (s.downloaders g).blockTasks)
    (hRunning : (f (s.downloaders g)).isRunning = (s.downloaders g).isRunning)
    (hStream : (f (s.downloaders g)).liveStream = (s.downloaders g).liveStream) :
    (s.modify g f).Linked := by
  have hSame : ∀ g', ((s.modify g f).downloaders g').blockTasks = (s.downloaders g').blockTasks := by
    intro g'
    by_cases hEq : g' = g
    · subst hEq
      rw [modify_self, hTasks]
    · rw [modify_of_ne hEq]
  apply h.transfer (keeps_modify hRunning hStream)
  · intro g' blockId
    rw [hSame]
    exact h.owned g' blockId
  · intro g'
    rw [hSame]
    exact h.single g'
  · intro g' hCreated
    rw [hSame]
    exact h.fresh g' hCreated

/-- The owner of a block has it as its only task. -/
theorem Linked.tasks_eq (h : s.Linked) (hEntry : s.liveBlockRequestingMap blockId = some (.http g)) :
    (s.downloaders g).blockTasks = [blockId] := by
  have hMem := (h.owned g blockId).mpr hEntry
  have hSingle := h.single g
  cases hTasks : (s.downloaders g).blockTasks with
  | nil => simp [hTasks] at hMem
  | cons first rest =>
      rw [hTasks] at hMem hSingle
      simp only [List.length_cons] at hSingle
      have hNil : rest = [] := List.eq_nil_of_length_eq_zero (by omega)
      subst hNil
      rw [List.mem_singleton.mp hMem]

end LiveStream

/-! ## Removing a task -/

/-- A downloader whose only task is taken away. Unless it is idle it pauses. -/
def LiveHttpDownloader.lose (d : LiveHttpDownloader) : LiveHttpDownloader :=
  let d := { d with blockTasks := [] }
  if d.isHttpPausing = false ∧ d.status ≠ .closed then d.beginPause.closeDown else d

namespace LiveStream

variable {s t : LiveStream} {g g' blockId : Nat} {f : LiveHttpDownloader → LiveHttpDownloader}

/-- What `RemoveBlockTask` makes of a stream with at most one task for each downloader. -/
def removed (s : LiveStream) (blockId : Nat) : LiveStream :=
  match s.liveBlockRequestingMap blockId with
  | none => s
  | some (.p2p _) => s.eraseEntry blockId
  | some (.http g) =>
    let d := s.downloaders g
    { (s.modify g .lose).eraseEntry blockId with
      posted := if d.isHttpPausing = false ∧ d.status ≠ .closed then s.posted ++ [g] else s.posted }

theorem modify_congr {f' : LiveHttpDownloader → LiveHttpDownloader}
    (h : f (s.downloaders g) = f' (s.downloaders g)) : s.modify g f = s.modify g f' := by
  simp [modify, h]

theorem removeBlockTasks_nil {rounds : Nat} (h : (s.downloaders g).blockTasks = []) :
    s.removeBlockTasks (rounds + 1) g = some s := by
  rw [removeBlockTasks, h]

theorem removeBlockTasks_cons {rounds : Nat} {rest : List Nat}
    (hTasks : (s.downloaders g).blockTasks = blockId :: rest)
    (hStream : (s.downloaders g).liveStream = true) :
    s.removeBlockTasks (rounds + 1) g =
      (s.removeBlockTask rounds blockId).bind fun s => s.removeBlockTasks rounds g := by
  rw [removeBlockTasks, hTasks]
  exact if_pos hStream

/-- `OnBlockTimeout` of a downloader that stays as it is. -/
theorem lose_of_neg {d : LiveHttpDownloader}
    (hStays : ¬(d.isHttpPausing = false ∧ d.status ≠ .closed)) (hTasks : d.blockTasks = [blockId]) :
    { d with blockTasks := d.blockTasks.erase blockId } = d.lose := by
  unfold LiveHttpDownloader.lose
  rw [if_neg hStays, hTasks, List.erase_cons_head]

/-- `OnBlockTimeout` of a downloader that pauses and closes. -/
theorem lose_of_pos {d : LiveHttpDownloader}
    (hStays : d.isHttpPausing = false ∧ d.status ≠ .closed) (hTasks : d.blockTasks = [blockId]) :
    LiveHttpDownloader.closeDown
      (LiveHttpDownloader.beginPause { d with blockTasks := d.blockTasks.erase blockId }) = d.lose := by
  unfold LiveHttpDownloader.lose
  rw [if_pos hStays, hTasks, List.erase_cons_head]

/-- The nested calls of `RemoveBlockTask` end with the owner losing the block. -/
theorem Linked.removeBlockTask_eq (h : s.Linked) (blockId rounds : Nat) :
    s.removeBlockTask (rounds + 4) blockId = some (s.removed blockId) := by
  unfold removed
  rw [removeBlockTask]
  cases hEntry : s.liveBlockRequestingMap blockId with
  | none => rfl
  | some owner =>
      cases owner with
      | p2p g => rfl
      | http g =>
          have hTasks := h.tasks_eq hEntry
          simp only [onBlockTimeout, hTasks, List.mem_singleton, if_true]
          by_cases hStays : (s.downloaders g).isHttpPausing = false ∧ (s.downloaders g).status ≠ .closed
          · rw [if_pos hStays, if_pos hStays, pause, modify_self, if_neg (by simp [hStays.1]),
              removeBlockTasks_nil (by simp [hTasks, LiveHttpDownloader.beginPause])]
            simp only [modify_modify, Option.map_some]
            rw [modify_congr (lose_of_pos hStays hTasks)]
            rfl
          · rw [if_neg hStays, if_neg hStays, modify_congr (lose_of_neg hStays hTasks)]
            rfl

theorem removed_of_http (hEntry : s.liveBlockRequestingMap blockId = some (.http g)) :
    (s.removed blockId).downloaders = (s.modify g .lose).downloaders ∧
      (s.removed blockId).liveBlockRequestingMap =
        (s.eraseEntry blockId).liveBlockRequestingMap := by
  simp [removed, hEntry, eraseEntry]

theorem removed_of_ne (hEntry : s.liveBlockRequestingMap blockId ≠ some (.http g)) :
    (s.removed blockId).downloaders g = s.downloaders g := by
  cases hOwner : s.liveBlockRequestingMap blockId with
  | none => simp [removed, hOwner]
  | some owner =>
      cases owner with
      | p2p k => simp [removed, hOwner]
      | http g' =>
          rw [(removed_of_http hOwner).1, modify_of_ne]
          intro hEq
          subst hEq
          exact hEntry hOwner

theorem removed_map (s : LiveStream) (blockId : Nat) :
    (s.removed blockId).liveBlockRequestingMap = (s.eraseEntry blockId).liveBlockRequestingMap := by
  cases hOwner : s.liveBlockRequestingMap blockId with
  | none =>
      simp only [removed, hOwner, eraseEntry]
      rw [← hOwner, Function.update_eq_self]
  | some owner =>
      cases owner with
      | p2p k => simp [removed, hOwner]
      | http g => exact (removed_of_http hOwner).2

theorem lose_tasks (d : LiveHttpDownloader) : d.lose.blockTasks = [] := by
  unfold LiveHttpDownloader.lose
  dsimp only
  split <;> rfl

theorem keeps_removed (s : LiveStream) (blockId : Nat) : s.Keeps (s.removed blockId) := by
  have hLose : ∀ d : LiveHttpDownloader, d.lose.isRunning = d.isRunning ∧
      d.lose.liveStream = d.liveStream := by
    intro d
    unfold LiveHttpDownloader.lose
    dsimp only
    split <;> exact ⟨rfl, rfl⟩
  cases hOwner : s.liveBlockRequestingMap blockId with
  | none => simp [removed, hOwner]; exact ⟨rfl, rfl, rfl, rfl, fun _ => rfl, fun _ => rfl⟩
  | some owner =>
      cases owner with
      | p2p k => simp [removed, hOwner]; exact ⟨rfl, rfl, rfl, rfl, fun _ => rfl, fun _ => rfl⟩
      | http g =>
          have hKeeps := keeps_modify (s := s) (hLose (s.downloaders g)).1 (hLose (s.downloaders g)).2
          simp only [removed, hOwner]
          exact ⟨rfl, rfl, rfl, rfl, hKeeps.running, hKeeps.stream⟩

/-- The block is gone from all tasks, and nothing else is. -/
theorem Linked.removed_tasks (h : s.Linked) (g blockId b : Nat) :
    b ∈ ((s.removed blockId).downloaders g).blockTasks ↔
      b ∈ (s.downloaders g).blockTasks ∧ b ≠ blockId := by
  by_cases hEntry : s.liveBlockRequestingMap blockId = some (.http g)
  · rw [(removed_of_http hEntry).1, modify_self, lose_tasks, h.tasks_eq hEntry]
    simp
  · rw [removed_of_ne hEntry]
    constructor
    · intro hMem
      refine ⟨hMem, ?_⟩
      intro hEq
      subst hEq
      exact hEntry ((h.owned g b).mp hMem)
    · exact And.left

theorem Linked.removed (h : s.Linked) (blockId : Nat) : (s.removed blockId).Linked := by
  have hLength : ∀ g, ((s.removed blockId).downloaders g).blockTasks.length ≤
      (s.downloaders g).blockTasks.length := by
    intro g
    by_cases hEntry : s.liveBlockRequestingMap blockId = some (.http g)
    · have hNone : ((s.removed blockId).downloaders g).blockTasks = [] := by
        rw [(removed_of_http hEntry).1, modify_self, lose_tasks]
      simp [hNone]
    · simp [removed_of_ne hEntry]
  apply h.transfer (keeps_removed s blockId)
  · intro g b
    rw [h.removed_tasks, h.owned, removed_map]
    by_cases hEq : b = blockId
    · subst hEq
      simp
    · simp [eraseEntry, hEq]
  · intro g
    exact Nat.le_trans (hLength g) (h.single g)
  · intro g hCreated
    have hNil := hLength g
    rw [h.fresh g hCreated] at hNil
    exact List.eq_nil_of_length_eq_zero (Nat.le_zero.mp hNil)

end LiveStream

theorem LiveHttpDownloader.Shape.lose {d : LiveHttpDownloader} (h : d.Shape) : d.lose.Shape := by
  unfold LiveHttpDownloader.lose
  dsimp only
  split
  · constructor
    · intro hActive
      cases hActive
    · intro c hClient _ hOpen
      obtain ⟨c', -, rfl⟩ := Option.map_eq_some_iff.mp hClient
      exact absurd rfl hOpen
    · intro _
      exact ⟨rfl, rfl⟩
    · intro c hClient
      obtain ⟨c', hFormer, rfl⟩ := Option.map_eq_some_iff.mp hClient
      exact h.numbered c' hFormer
  · rename_i hIdle
    have hClosed : d.status = .closed := by
      by_contra hStatus
      exact hIdle ⟨by
        cases hPausing : d.isHttpPausing with
        | false => rfl
        | true => exact absurd (h.pausing hPausing).1 hStatus, hStatus⟩
    constructor
    · intro hActive
      simp [hClosed, Status.isActive] at hActive
    · exact h.busy
    · intro _
      exact ⟨hClosed, rfl⟩
    · exact h.numbered

namespace LiveStream

variable {s t : LiveStream} {g g' blockId : Nat} {f : LiveHttpDownloader → LiveHttpDownloader}

/-- Removing a block keeps the invariant, whoever owns it. -/
theorem Invariant.removed (h : s.Invariant) (blockId : Nat) : (s.removed blockId).Invariant := by
  refine ⟨h.toLinked.removed blockId, fun g hCurrent => ?_⟩
  rw [(keeps_removed s blockId).current] at hCurrent
  by_cases hEntry : s.liveBlockRequestingMap blockId = some (.http g)
  · rw [(removed_of_http hEntry).1, modify_self]
    exact (h.shape g hCurrent).lose
  · rw [removed_of_ne hEntry]
    exact h.shape g hCurrent

theorem Invariant.removeBlockTask (h : s.Invariant) (blockId : Nat) :
    Settles (fun rounds => s.removeBlockTask rounds blockId) Invariant :=
  .of_add 4 (h.toLinked.removeBlockTask_eq blockId) (h.removed blockId)

/-! ## Emptying the tasks -/

/-- The stream once the only task of the downloader, if there is one, is removed. -/
def cleared (s : LiveStream) (g : Nat) : LiveStream :=
  match (s.downloaders g).blockTasks with
  | [] => s
  | blockId :: _ => s.removed blockId

theorem Linked.entry_of_tasks (h : s.Linked) {rest : List Nat}
    (hTasks : (s.downloaders g).blockTasks = blockId :: rest) :
    s.liveBlockRequestingMap blockId = some (.http g) :=
  (h.owned g blockId).mp (by simp [hTasks])

theorem Linked.cleared (h : s.Linked) (g : Nat) : (s.cleared g).Linked := by
  unfold LiveStream.cleared
  split
  · exact h
  · exact h.removed _

theorem keeps_cleared (s : LiveStream) (g : Nat) : s.Keeps (s.cleared g) := by
  unfold cleared
  split
  · exact ⟨rfl, rfl, rfl, rfl, fun _ => rfl, fun _ => rfl⟩
  · exact keeps_removed s _

/-- The loops run for a downloader that pauses or is closed, so nothing else changes. -/
theorem Linked.cleared_self (h : s.Linked)
    (hIdle : (s.downloaders g).isHttpPausing = true ∨ (s.downloaders g).status = .closed) :
    (s.cleared g).downloaders g = { s.downloaders g with blockTasks := [] } := by
  unfold LiveStream.cleared
  split
  · rename_i hTasks
    rw [← hTasks]
  · rename_i hTasks
    rw [(removed_of_http (h.entry_of_tasks hTasks)).1, modify_self, LiveHttpDownloader.lose]
    apply if_neg
    rintro ⟨hResumed, hStatus⟩
    obtain hPausing | hClosed := hIdle
    · simp [hPausing] at hResumed
    · exact hStatus hClosed

/-- The loop over the tasks ends after one round at most. -/
theorem Linked.removeBlockTasks_eq (h : s.Linked)
    (hStream : (s.downloaders g).liveStream = true) (rounds : Nat) :
    s.removeBlockTasks (rounds + 5) g = some (s.cleared g) := by
  unfold LiveStream.cleared
  cases hTasks : (s.downloaders g).blockTasks with
  | nil => rw [removeBlockTasks_nil hTasks]
  | cons blockId rest =>
      rw [removeBlockTasks_cons hTasks hStream, h.removeBlockTask_eq, Option.bind_some,
        removeBlockTasks_nil]
      rw [(removed_of_http (h.entry_of_tasks hTasks)).1, modify_self, lose_tasks]

end LiveStream

/-! ## The search for the next block -/

/-- A downloader that was given a block while it was closed. -/
def LiveHttpDownloader.opened (blockId : Nat) (d : LiveHttpDownloader) : LiveHttpDownloader :=
  openConnection false blockId { d with blockTasks := [blockId] }

theorem LiveHttpDownloader.Shape.opened {d : LiveHttpDownloader} (blockId : Nat)
    (hResumed : d.isHttpPausing = false) : (d.opened blockId).Shape := by
  constructor
  · intro _
    exact ⟨_, rfl, by simp, rfl⟩
  · intro _ _ _ _
    rfl
  · intro hPausing
    have hContra : d.isHttpPausing = true := hPausing
    simp [hResumed] at hContra
  · intro c hClient
    cases hClient
    exact Nat.lt_succ_self _

namespace LiveStream

variable {s t : LiveStream} {g g' blockId : Nat} {f : LiveHttpDownloader → LiveHttpDownloader}
  {answers : Answers}

theorem findBlock_other {request : Owner} (h : s.findBlock request answers = some blockId) :
    s.liveBlockRequestingMap blockId ≠ some request := by
  intro hOwn
  obtain ⟨candidate, hFound, rfl⟩ := Option.map_eq_some_iff.mp h
  have hTake := List.find?_some hFound
  simp [mayTake, hOwn, isTimeout] at hTake

/-- The block that is found is taken from whoever has it late and then put. -/
theorem requestNextBlock_eq {request : Owner} {rounds : Nat} (h : s.Linked)
    (hFound : s.findBlock request answers = some blockId) :
    s.requestNextBlock answers (rounds + 5) request =
      (s.removed blockId).addBlockTask answers (rounds + 4) blockId request := by
  rw [requestNextBlock, hFound]
  cases hEntry : s.liveBlockRequestingMap blockId with
  | none => simp [removed, hEntry]
  | some owner => simp [hEntry, h.removeBlockTask_eq]

/-- A block is entered for a closed downloader, which then connects. -/
def added (s : LiveStream) (g blockId : Nat) : LiveStream :=
  (s.addEntry blockId (.http g)).modify g (.opened blockId)

/-- A closed downloader that gets a block opens a connection. -/
theorem addBlockTask_eq {rounds : Nat} (hRunning : (s.downloaders g).isRunning = true)
    (hTasks : (s.downloaders g).blockTasks = []) (hStatus : (s.downloaders g).status = .closed)
    (hConnects : answers.connectFails = false) :
    s.addBlockTask answers (rounds + 3) blockId (.http g) = some (s.added g blockId) := by
  have hGet : (s.addEntry blockId (.http g)).downloaders g = s.downloaders g := rfl
  simp only [addBlockTask, putBlockTask, modify_self, hGet, hStatus, if_true]
  simp only [doConnect, modify_self, hGet, hRunning, if_true, hTasks, List.nil_append, hConnects,
    modify_modify]
  rw [added]
  congr 1
  apply modify_congr
  rw [hGet, hTasks]
  rfl

theorem keeps_added : s.Keeps (s.added g blockId) := by
  have hKeeps : (s.addEntry blockId (.http g)).Keeps (s.added g blockId) := keeps_modify rfl rfl
  exact ⟨rfl, rfl, rfl, rfl, hKeeps.running, hKeeps.stream⟩

theorem added_of_ne (h : g' ≠ g) : (s.added g blockId).downloaders g' = s.downloaders g' :=
  modify_of_ne h

theorem added_self : (s.added g blockId).downloaders g = (s.downloaders g).opened blockId :=
  modify_self

/-- The new owner of a free block has it alone. -/
theorem Linked.added (h : s.Linked) (hCurrent : s.liveHttpDownloader = some g)
    (hTasks : (s.downloaders g).blockTasks = [])
    (hFree : s.liveBlockRequestingMap blockId = none) : (s.added g blockId).Linked := by
  have hOpened : ((s.added g blockId).downloaders g).blockTasks = [blockId] := by
    rw [added_self]
    rfl
  apply h.transfer keeps_added
  · intro g' b
    show _ ↔ Function.update s.liveBlockRequestingMap blockId (some (.http g)) b = some (.http g')
    by_cases hG : g' = g
    · subst hG
      rw [hOpened]
      by_cases hB : b = blockId
      · simp [hB]
      · have hNone := h.owned g' b
        rw [hTasks] at hNone
        simpa [hB] using hNone
    · rw [added_of_ne hG, h.owned]
      by_cases hB : b = blockId
      · simp [hB, hFree, Ne.symm hG]
      · simp [hB]
  · intro g'
    by_cases hG : g' = g
    · subst hG
      rw [hOpened]
      exact Nat.le_refl 1
    · rw [added_of_ne hG]
      exact h.single g'
  · intro g' hCreated
    have hLt := h.bounded g hCurrent
    rw [added_of_ne (by omega)]
    exact h.fresh g' hCreated

/-- How a search for a closed downloader without tasks ends. -/
structure Searched (answers : Answers) (s : LiveStream) (g : Nat) (t : LiveStream) : Prop where
  linked : t.Linked
  keeps : s.Keeps t
  refused : s.findBlock (.http g) answers = none → t.downloaders g = s.downloaders g
  found : ∀ blockId, s.findBlock (.http g) answers = some blockId →
    t.downloaders g = (s.downloaders g).opened blockId

theorem Keeps.refl (s : LiveStream) : s.Keeps s :=
  ⟨rfl, rfl, rfl, rfl, fun _ => rfl, fun _ => rfl⟩

/-- A closed downloader without a task that asks ends with a block or as it was. -/
theorem Linked.httpRequestNextBlock (h : s.Linked) (hCurrent : s.liveHttpDownloader = some g)
    (hTasks : (s.downloaders g).blockTasks = []) (hStatus : (s.downloaders g).status = .closed)
    (hConnects : answers.connectFails = false) :
    Settles (fun rounds => s.httpRequestNextBlock answers rounds g) (Searched answers s g) := by
  have hRunning := (h.running g).mpr hCurrent
  have hStream : (s.downloaders g).liveStream = true := (h.streamed g).trans hRunning
  cases hFound : s.findBlock (.http g) answers with
  | none =>
      apply Settles.of_add 1
      · intro rounds
        rw [LiveStream.httpRequestNextBlock, if_pos hStream, requestNextBlock, hFound]
      · exact ⟨h, .refl s, fun _ => rfl, fun b hB => by simp [hFound] at hB⟩
  | some blockId =>
      have hSame := removed_of_ne (findBlock_other hFound)
      have hKeeps := keeps_removed s blockId
      apply Settles.of_add 5
      · intro rounds
        rw [LiveStream.httpRequestNextBlock, if_pos hStream, requestNextBlock_eq h hFound]
        apply addBlockTask_eq
        · rw [hSame, hRunning]
        · rw [hSame, hTasks]
        · rw [hSame, hStatus]
        · exact hConnects
      · constructor
        · apply (h.removed blockId).added
          · rw [hKeeps.current, hCurrent]
          · rw [hSame, hTasks]
          · rw [removed_map, eraseEntry_self]
        · exact hKeeps.trans keeps_added
        · intro hNone
          simp [hFound] at hNone
        · intro b hB
          rw [hFound] at hB
          cases hB
          rw [added_self, hSame]

/-- Either way the invariant holds. -/
theorem Searched.invariant (h : Searched answers s g t) (hCurrent : s.liveHttpDownloader = some g)
    (hShape : (s.downloaders g).Shape) (hResumed : (s.downloaders g).isHttpPausing = false) :
    t.Invariant := by
  refine ⟨h.linked, fun g' hCurrent' => ?_⟩
  rw [h.keeps.current, hCurrent] at hCurrent'
  cases hCurrent'
  cases hFound : s.findBlock (.http g) answers with
  | none =>
      rw [h.refused hFound]
      exact hShape
  | some blockId =>
      rw [h.found blockId hFound]
      exact .opened blockId hResumed

theorem Invariant.modify (h : s.Invariant)
    (hTasks : (f (s.downloaders g)).blockTasks = (s.downloaders g).blockTasks)
    (hRunning : (f (s.downloaders g)).isRunning = (s.downloaders g).isRunning)
    (hStream : (f (s.downloaders g)).liveStream = (s.downloaders g).liveStream)
    (hShape : s.liveHttpDownloader = some g → (f (s.downloaders g)).Shape) :
    (s.modify g f).Invariant := by
  refine ⟨h.toLinked.modify hTasks hRunning hStream, fun g' hCurrent => ?_⟩
  by_cases hEq : g' = g
  · subst hEq
    rw [modify_self]
    exact hShape hCurrent
  · rw [modify_of_ne hEq]
    exact h.shape g' hCurrent

end LiveStream

end Live.Http
