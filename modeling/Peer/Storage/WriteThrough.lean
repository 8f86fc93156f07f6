import Peer.Storage.PipelineInvariant

/-! Where the bytes of a block are once its node is dropped. The main thread drops the
node when it has posted the write, so that the bytes may still be in the queue. -/
namespace Storage

open Basis

variable {μ : Type} [BlockMap μ] {r : RidInfo} {md5 : Bytes → Guid}

theorem RidInfo.Valid.block_offset_lt {b : Nat} (hr : r.Valid) (hb : b < r.blockCount) :
    b * r.blockSize < r.fileLength := by
  have hLength := hr.fileLength_pos (by omega)
  have hCount := hr.blockCount_sub_one hLength
  have hMul : b * r.blockSize ≤ (r.fileLength - 1) / r.blockSize * r.blockSize :=
    Nat.mul_le_mul_right _ (by omega)
  have hDiv := Nat.div_mul_le_self (r.fileLength - 1) r.blockSize
  omega

/-- The first subpiece of a block is where the block starts. -/
theorem SubPieceManager.BuiltFor.block_offset {m : SubPieceManager μ} {b : Nat}
    (h : SubPieceManager.BuiltFor r m) (hr : r.Addressable) (hb : b < r.blockCount) :
    (m.getSubPiecePosition (.make b 0)).1 = b * r.blockSize := by
  have hCount := hr.blockCount_le
  have hOffset := hr.toValid.block_offset_lt hb
  have hLength := r.fileLength_lt
  rw [SubPieceManager.getSubPiecePosition, SubPieceManager.subPieceInfoToPosition, h.blockSize_eq,
    SubPieceInfo.make_blockIndex, SubPieceInfo.make_subpieceIndex, u16_of_lt (by omega),
    u16_of_lt (by decide), Nat.zero_mul, Nat.add_zero, u32_of_lt (by omega)]

namespace Pipeline

open SubPieceManager

variable {p p' : Pipeline μ} {a : PipelineAction μ} {b : Nat} {d : Bytes}

/-- The data waits in the queue and no write of the block waits behind it, or no write
of the block waits at all, and the data is in the file or its job ended without success. -/
def InHand (r : RidInfo) (p : Pipeline μ) (b : Nat) (d : Bytes) : Prop :=
  latest (StorageJob.writesTo b) p.jobs = some d ∨
    latest (StorageJob.writesTo b) p.jobs = none ∧
      (p.file (b * r.blockSize) = some d ∨ (b, d) ∈ p.history.failed)

/-- Every block that is held but not by memory was there when the resource was opened,
or a write of the whole block was posted, and the last one is in hand. -/
structure Persisted (r : RidInfo) (p : Pipeline μ) : Prop extends Underway r p where
  stored : ∀ b < r.blockCount, Stored p.manager b →
    p.history.opened b = true ∨ (p.history.posted b).isSome = true
  jobs_posted : ∀ b set, .save (.threadPendingHashBlock b set) ∈ p.jobs →
    (p.history.posted b).isSome = true
  tasks_posted : ∀ b startpos length, .threadPendingWriteBlockHelper b startpos length ∈ p.tasks →
    (p.history.posted b).isSome = true
  posted : ∀ b d, p.history.posted b = some d →
    b < r.blockCount ∧ d.length = r.blockBytes b ∧ InHand r p b d

section Steps

/-- Quiet calls make a block stored only when they end its write. -/
theorem QuietRun.stored {tasks : List MainTask} {m m' : SubPieceManager μ} {j : Nat}
    (hr : r.Addressable) (hm : BuiltFor r m) (hReady : NodesHave (WriteReady r) m)
    (hj : j < r.blockCount) (run : QuietRun r md5 tasks m m') (hStored : Stored m' j) :
    Stored m j ∨ ∃ startpos length, .threadPendingWriteBlockHelper j startpos length ∈ tasks := by
  refine (run.invariant (P := fun x => (BuiltFor r x ∧ NodesHave (WriteReady r) x) ∧
    (Stored x j → Stored m j ∨
      ∃ startpos length, .threadPendingWriteBlockHelper j startpos length ∈ tasks))
    ⟨⟨hm, hReady⟩, Or.inl⟩ ?_).2 hStored
  rintro x op y ⟨⟨hBuilt, hNodes⟩, hOld⟩ ⟨hOp, hQuiet⟩ hStep
  refine ⟨⟨hBuilt.step hOp.keepsGeometry hStep,
    SubPieceManager.Step.nodes (WriteReady.rules hr hBuilt hOp) hBuilt.sized hStep hNodes⟩,
    fun hNow => ?_⟩
  rcases SubPieceManager.Step.stored hBuilt hNodes hOp (fun b hEq => by subst hEq; exact hQuiet)
    (fun b hEq => by subst hEq; exact hQuiet) hStep hj hNow with hBefore | rfl
  · exact hOld hBefore
  · exact Or.inr hQuiet

theorem persisted_start {m : SubPieceManager μ} (h : Opens r m) (actualSize : Nat)
    (hasEncrypted : Bool) (file : Nat → Option Bytes) :
    Persisted r (start m actualSize hasEncrypted file) :=
  { underway_start h actualSize hasEncrypted file with
    stored := fun _ _ hStored => Or.inl hStored.1
    jobs_posted := fun _ _ hMem => by cases hMem
    tasks_posted := fun _ _ _ hMem => by cases hMem
    posted := fun _ _ hPosted => by cases hPosted }

theorem writesTo_of_isFileJob {job : StorageJob} (h : job.isFileJob = true) :
    job.writesTo b = none := by
  cases job with
  | save => cases h
  | _ => rfl

theorem writesTo_self (b : Nat) (set : List (SubPieceInfo × SubPieceBuffer)) :
    (StorageJob.save (.threadPendingHashBlock b set)).writesTo b = some (blockData set) := if_pos rfl

theorem writesTo_of_ne {c : Nat} (h : c ≠ b) (set : List (SubPieceInfo × SubPieceBuffer)) :
    (StorageJob.save (.threadPendingHashBlock c set)).writesTo b = none := if_neg h

omit [BlockMap μ] in
theorem Undisturbed.inHand (h : Undisturbed p p') (hOld : InHand r p b d) : InHand r p' b d := by
  obtain ⟨new, hJobs, hNew⟩ := h.jobs_eq
  unfold InHand
  rw [hJobs, latest_append_of_none fun job hMem => writesTo_of_isFileJob (hNew job hMem),
    h.file_eq, h.history_eq]
  exact hOld

/-- Quiet calls and what is posted with them keep the blocks in hand. -/
theorem Persisted.quiet (h : Persisted r p) (hr : r.Addressable) (hNext : Underway r p')
    (hRun : QuietRun r md5 p.tasks p.manager p'.manager) (hSame : Undisturbed p p')
    (hTasks : ∀ task ∈ p'.tasks, task ∈ p.tasks) : Persisted r p' := by
  refine { hNext with
    stored := fun b hb hStored => ?_
    jobs_posted := fun b set hMem => ?_
    tasks_posted := fun b startpos length hMem => ?_
    posted := fun b d hPosted => ?_ }
  · rw [hSame.history_eq]
    rcases hRun.stored hr h.builtFor h.ready hb hStored with hBefore | ⟨startpos, length, hTask⟩
    · exact h.stored b hb hBefore
    · exact Or.inr (h.tasks_posted b startpos length hTask)
  · rw [hSame.history_eq]
    exact h.jobs_posted b set (hSame.mem_jobs hMem rfl)
  · rw [hSame.history_eq]
    exact h.tasks_posted b startpos length (hTasks _ hMem)
  · rw [hSame.history_eq] at hPosted
    obtain ⟨hb, hLength, hHand⟩ := h.posted b d hPosted
    exact ⟨hb, hLength, hSame.inHand hHand⟩

/-- What the two jobs of a save write. -/
theorem latest_saves (b c : Nat) (set : List (SubPieceInfo × SubPieceBuffer)) :
    latest (StorageJob.writesTo b)
        ([SaveJob.threadPendingHashBlock c set, .secSaveResourceFileInfo].map .save) =
      if c = b then some (blockData set) else none := by
  by_cases h : c = b
  · rw [if_pos h]
    rw [← List.nil_append (List.map _ _), List.map_cons]
    exact latest_append_cons (if_pos h) fun job hMem => by
      cases List.mem_singleton.mp hMem
      rfl
  · rw [if_neg h]
    rw [← List.nil_append (List.map _ _)]
    exact latest_append_of_none fun job hMem => by
      rcases List.mem_cons.mp hMem with rfl | hSec
      · exact if_neg h
      · cases List.mem_singleton.mp hSec
        rfl

/-- An eviction posts the block that it drops. -/
theorem Persisted.evicted (h : Persisted r p) {c : Nat} {m : SubPieceManager μ}
    {saves : List SaveJob} (hEvict : EvictSaves r p.manager c m saves)
    (hNext : Underway r (p.postSaves m saves)) : Persisted r (p.postSaves m saves) := by
  cases hEvict with
  | nothing hOld =>
      have hSame : p.postSaves m [] = { p with manager := m } := by
        simp [postSaves, latest]
      rw [hSame] at hNext ⊢
      exact { hNext with
        stored := fun b hb hStored => h.stored b hb (hOld b hb hStored)
        jobs_posted := h.jobs_posted
        tasks_posted := h.tasks_posted
        posted := h.posted }
  | block set hFull hBlock hOld =>
      have hHere : (p.postSaves m [.threadPendingHashBlock c set,
          .secSaveResourceFileInfo]).history.posted c = some (blockData set) := by
        dsimp only [postSaves]
        rw [latest_saves, if_pos rfl, Option.some_or]
      have hThere : ∀ b, b ≠ c → (p.postSaves m [.threadPendingHashBlock c set,
          .secSaveResourceFileInfo]).history.posted b = p.history.posted b := by
        intro b hNe
        dsimp only [postSaves]
        rw [latest_saves, if_neg (Ne.symm hNe), Option.none_or]
      have hKeep : ∀ b, (p.history.posted b).isSome = true → ((p.postSaves m
          [.threadPendingHashBlock c set, .secSaveResourceFileInfo]).history.posted b).isSome =
            true := by
        intro b hPosted
        by_cases hEq : b = c
        · rw [hEq, hHere]
          rfl
        · rw [hThere b hEq]
          exact hPosted
      refine { hNext with
        stored := fun b hb hStored => ?_
        jobs_posted := fun b full hMem => ?_
        tasks_posted := fun b startpos length hMem =>
          hKeep b (h.tasks_posted b startpos length hMem)
        posted := fun b d hPosted => ?_ }
      · by_cases hEq : b = c
        · rw [hEq, hHere]
          exact Or.inr rfl
        · exact (h.stored b hb (hOld b hb hEq hStored)).imp id (hKeep b)
      · rcases List.mem_append.mp hMem with hBefore | hNew
        · exact hKeep b (h.jobs_posted b full hBefore)
        · rcases List.mem_cons.mp hNew with hEq | hSec
          · cases hEq
            rw [hHere]
            rfl
          · cases List.mem_singleton.mp hSec
      · by_cases hEq : b = c
        · subst hEq
          cases hHere.symm.trans hPosted
          refine ⟨hBlock, hFull.data_length, Or.inl ?_⟩
          refine latest_append_cons (writesTo_self b set) fun job hMem => ?_
          cases List.mem_singleton.mp hMem
          rfl
        · rw [hThere b hEq] at hPosted
          obtain ⟨hb, hLength, hHand⟩ := h.posted b d hPosted
          refine ⟨hb, hLength, ?_⟩
          unfold InHand
          have hJobs : latest (StorageJob.writesTo b) (p.postSaves m [.threadPendingHashBlock c set,
              .secSaveResourceFileInfo]).jobs = latest (StorageJob.writesTo b) p.jobs := by
            refine latest_append_of_none fun job hMem => ?_
            rcases List.mem_cons.mp hMem with rfl | hSec
            · exact if_neg (Ne.symm hEq)
            · cases List.mem_singleton.mp hSec
              rfl
          rw [hJobs]
          exact hHand

/-- The end of a write job leaves its block in the file or on the list of failures. -/
theorem Persisted.ran (h : Persisted r p) (hr : r.Addressable) {disk : DiskAnswers}
    {job : StorageJob} {rest : List StorageJob} (hJobs : p.jobs = job :: rest)
    (hNext : Underway r (runJob md5 { p with jobs := rest } disk job)) :
    Persisted r (runJob md5 { p with jobs := rest } disk job) := by
  have hRan := runJob_ran md5 { p with jobs := rest } disk job fun b set hSave =>
    h.set_ne_nil b set (by rw [hJobs, hSave]; exact List.mem_cons_self ..)
  have hHead : job ∈ p.jobs := hJobs ▸ List.mem_cons_self ..
  obtain ⟨new, hTasks, hNew⟩ := hRan.tasks_eq
  refine { hNext with
    stored := fun b hb hStored => ?_
    jobs_posted := fun b set hMem => ?_
    tasks_posted := fun b startpos length hMem => ?_
    posted := fun b d hPosted => ?_ }
  · rw [hRan.manager_eq] at hStored
    rw [hRan.opened_eq, hRan.posted_eq]
    exact h.stored b hb hStored
  · rw [hRan.jobs_eq] at hMem
    rw [hRan.posted_eq]
    exact h.jobs_posted b set (hJobs ▸ List.mem_cons_of_mem _ hMem)
  · rw [hRan.posted_eq]
    rw [hTasks] at hMem
    rcases List.mem_append.mp hMem with hOld | hIn
    · exact h.tasks_posted b startpos length hOld
    · have hAnswer := hNew _ hIn
      cases job with
      | save job =>
          cases job with
          | threadPendingHashBlock c set =>
              obtain rfl : b = c := hAnswer
              exact h.jobs_posted b set hHead
          | secSaveResourceFileInfo => cases hAnswer
      | _ => cases hAnswer
  · rw [hRan.posted_eq] at hPosted
    obtain ⟨hb, hLength, hHand⟩ := h.posted b d hPosted
    refine ⟨hb, hLength, ?_⟩
    unfold InHand at hHand ⊢
    rw [hRan.jobs_eq]
    rw [hJobs] at hHand
    by_cases hWrite : ∃ c set, job = .save (.threadPendingHashBlock c set)
    · obtain ⟨c, set, rfl⟩ := hWrite
      obtain ⟨hc, hFull⟩ := h.writes c set hHead
      obtain ⟨buf, others, hSet⟩ := hFull.first_eq
      have hWrote := (threadPendingHashBlock_ran md5 { p with jobs := rest } disk c hSet).2
      rw [h.builtFor.block_offset hr hc] at hWrote
      by_cases hEq : b = c
      · subst hEq
        rw [latest_cons_some (writesTo_self b set)] at hHand
        cases hLater : latest (StorageJob.writesTo b) rest with
        | some later =>
            rw [hLater] at hHand
            rcases hHand with hLast | ⟨hNone, -⟩
            · exact Or.inl hLast
            · cases hNone
        | none =>
            rw [hLater] at hHand
            rcases hHand with hLast | ⟨hNone, -⟩
            · cases hLast
              exact Or.inr ⟨rfl, hWrote.outcome⟩
            · cases hNone
      · have hOffset : b * r.blockSize ≠ c * r.blockSize := fun hSame =>
          hEq (Nat.eq_of_mul_eq_mul_right hr.blockSize_pos hSame)
        rw [latest_cons_of_none (writesTo_of_ne (Ne.symm hEq) set)] at hHand
        refine hHand.imp id fun hDone => ⟨hDone.1, hDone.2.imp (fun hFile => ?_) fun hFailed => ?_⟩
        · exact (hWrote.file_of_ne _ hOffset).trans hFile
        · exact hWrote.failed_subset _ hFailed
    · have hNone : job.writesTo b = none := by
        cases job with
        | save job =>
            cases job with
            | threadPendingHashBlock c set => exact absurd ⟨c, set, rfl⟩ hWrite
            | secSaveResourceFileInfo => rfl
        | _ => rfl
      obtain ⟨hFile, hFailed⟩ := runJob_sameFile md5 { p with jobs := rest } disk
        fun c set hEq => hWrite ⟨c, set, hEq⟩
      rw [latest_cons_of_none hNone] at hHand
      rw [hFile, hFailed]
      exact hHand

theorem Persisted.step (h : Persisted r p) (hr : r.Addressable) (hAdmits : a.Admits r p)
    (hStep : Step md5 p a p') : Persisted r p' := by
  have hNext := h.toUnderway.step hr hAdmits hStep
  cases h.toUnderway.cases hr hAdmits hStep with
  | called hRun hSame hTasks => exact h.quiet hr hNext hRun hSame fun _ hMem => hTasks ▸ hMem
  | task task hTasks _ hRun hSame =>
      exact h.quiet hr hNext hRun hSame fun _ hMem => hTasks ▸ List.mem_cons_of_mem _ hMem
  | evicted b m saves hSaves hEq =>
      subst hEq
      rcases hSaves with hEvict | hSave
      · exact h.evicted (removeBlockDataFromMemCache_saves hr h.builtFor h.ready hEvict) hNext
      · exact h.evicted (saveBlock_saves hr h.builtFor h.ready hSave) hNext
  | read start left allocated buffs m reading _ _ hRead _ hEq =>
      have hRead : SubPieceManager.Step ⟨true, md5⟩ p.manager
          (.setBlockReading start.blockIndex) m := Option.map_eq_some_iff.mpr ⟨_, hRead, rfl⟩
      have hOp : StoreOp.WholeSubpieces r (.setBlockReading start.blockIndex) := trivial
      have hStored : ∀ b < r.blockCount, Stored m b → Stored p.manager b := fun b hb hNow =>
        (SubPieceManager.Step.stored h.builtFor h.ready hOp (fun _ hEq => by cases hEq)
          (fun _ hEq => by cases hEq) hRead hb hNow).resolve_right fun hEq => by cases hEq
      split at hEq
      · subst hEq
        refine { hNext with
          stored := fun b hb hNow => h.stored b hb (hStored b hb hNow)
          jobs_posted := fun b set hMem => h.jobs_posted b set ?_
          tasks_posted := h.tasks_posted
          posted := fun b d hPosted => ?_ }
        · refine (List.mem_append.mp hMem).resolve_right fun hNew => ?_
          cases List.mem_singleton.mp hNew
        · obtain ⟨hb, hLength, hHand⟩ := h.posted b d hPosted
          refine ⟨hb, hLength, ?_⟩
          unfold InHand post
          rw [latest_append_of_none fun job hMem => by
            cases List.mem_singleton.mp hMem
            rfl]
          exact hHand
      · subst hEq
        exact { hNext with
          stored := fun b hb hNow => h.stored b hb (hStored b hb hNow)
          jobs_posted := h.jobs_posted
          tasks_posted := h.tasks_posted
          posted := h.posted }
  | ran disk job rest _ hJobs hEq =>
      subst hEq
      exact h.ran hr hJobs hNext
  | reopened m actualSize hasEncrypted hOpens hEq =>
      subst hEq
      exact persisted_start hOpens actualSize hasEncrypted p.file

end Steps

/-- In every run of the two threads, of a block that is held without a node: if no write
was posted for it, it was held when the resource was opened; the data last posted for it
is as long as the block and waits in the queue, or is in the file, or its job ended
without success. -/
theorem posted_of_run (hr : r.Addressable) {m : SubPieceManager μ} (hOpens : Opens r m)
    {actualSize : Nat} {hasEncrypted : Bool} {file : Nat → Option Bytes}
    (run : Reaches (Step md5) (fun p a => a.Admits r p) (start m actualSize hasEncrypted file) p)
    (hb : b < r.blockCount) (hNode : p.manager.nodeAt b = none)
    (hBit : p.manager.hasFullBlock b = true) :
    p.history.posted b = none ∧ p.history.opened b = true ∨
      ∃ d, p.history.posted b = some d ∧ d.length = r.blockBytes b ∧ InHand r p b d := by
  have h : Persisted r p := run.invariant (persisted_start hOpens actualSize hasEncrypted file)
    fun x a y hx hAdmits hStep => hx.step hr hAdmits hStep
  have hStored : Stored p.manager b := ⟨hBit, fun node hSome => by
    rw [hNode] at hSome
    cases hSome⟩
  cases hPosted : p.history.posted b with
  | none =>
      have hOr := h.stored b hb hStored
      rw [hPosted] at hOr
      exact Or.inl ⟨rfl, hOr.resolve_right Bool.false_ne_true⟩
  | some d =>
      obtain ⟨-, hLength, hHand⟩ := h.posted b d hPosted
      exact Or.inr ⟨d, rfl, hLength, hHand⟩

section Runs

/-- The actions `actions` on a fresh resource for `r` with an empty file. -/
def runFresh (r : RidInfo) (actions : List (PipelineAction (List Bool))) :
    Option (Pipeline (List Bool)) :=
  (SubPieceManager.new r false false).bind fun m =>
    execute (next fun _ => Guid.zero) (start m 0 false fun _ => none) actions

theorem runFresh_reaches (r : RidInfo) (actions : List (PipelineAction (List Bool)))
    (guard : Pipeline (List Bool) → PipelineAction (List Bool) → Prop)
    (h : (runFresh r actions).isSome = true)
    (hMet : ∀ m, SubPieceManager.new r false false = some m →
      AllMet (next fun _ => Guid.zero) guard (start m 0 false fun _ => none) actions) :
    ∃ m p, runFresh r actions = some p ∧ SubPieceManager.new r false false = some m ∧
      Reaches (Step fun _ => Guid.zero) guard (start m 0 false fun _ => none) p := by
  obtain ⟨p, hRun⟩ := Option.isSome_iff_exists.mp h
  obtain ⟨m, hNew, hExecute⟩ := Option.bind_eq_some_iff.mp hRun
  exact ⟨m, p, hRun, hNew, Reaches.of_execute hExecute (hMet m hNew)⟩

/-- A disk on which everything succeeds. -/
def goodDisk : DiskAnswers :=
  ⟨true, true, true, true, fun _ => ⟨List.replicate 1024 0, List.length_replicate⟩, true, true⟩

private def oneSubpieceFile : RidInfo := singleBlock 1024 oneKib_lt_uint32

private theorem oneSubpieceFile_addressable : oneSubpieceFile.Addressable :=
  ⟨⟨by decide, ⟨2048, by decide⟩, by decide⟩, by decide, by decide⟩

private def addAndEvict : List (PipelineAction (List Bool)) :=
  [.asyncAddSubPiece (.make 0 0) ⟨List.replicate 1024 0, true⟩, .removeBlockDataFromMemCache 0]

private theorem addAndEvict_met (m : SubPieceManager (List Bool))
    (more : List (PipelineAction (List Bool)))
    (hMore : ∀ p, AllMet (next fun _ => Guid.zero) (fun p a => a.Admits oneSubpieceFile p) p more) :
    AllMet (next fun _ => Guid.zero) (fun p a => a.Admits oneSubpieceFile p)
      (start m 0 false fun _ => none) (addAndEvict ++ more) :=
  ⟨fun _ => by decide +kernel, fun _ _ => ⟨trivial, fun _ _ => hMore _⟩⟩

/-- A block is downloaded, evicted and written. -/
theorem posted_of_written_run : ∃ p : Pipeline (List Bool),
    p.manager.nodeAt 0 = none ∧ p.manager.hasFullBlock 0 = true ∧ p.jobs.length = 1 ∧
      p.file 0 = some (List.replicate 1024 0) ∧
      (p.history.posted 0 = none ∧ p.history.opened 0 = true ∨
        ∃ d, p.history.posted 0 = some d ∧ d.length = oneSubpieceFile.blockBytes 0 ∧
          InHand oneSubpieceFile p 0 d) := by
  obtain ⟨m, p, hRun, hNew, run⟩ := runFresh_reaches oneSubpieceFile
    (addAndEvict ++ [.storageThread goodDisk]) (fun p a => a.Admits oneSubpieceFile p)
    (by decide +kernel) fun m _ =>
      addAndEvict_met m [.storageThread goodDisk] fun _ => ⟨trivial, fun _ _ => trivial⟩
  have hState : ((runFresh oneSubpieceFile (addAndEvict ++ [.storageThread goodDisk])).map fun p =>
      (p.manager.nodeAt 0, p.manager.hasFullBlock 0, p.jobs.length, p.file 0)) =
      some (none, true, 1, some (List.replicate 1024 0)) := by decide +kernel
  rw [hRun, Option.map_some, Option.some.injEq, Prod.mk.injEq, Prod.mk.injEq, Prod.mk.injEq] at hState
  obtain ⟨hNode, hBit, hJobs, hFile⟩ := hState
  exact ⟨p, hNode, hBit, hJobs, hFile, posted_of_run oneSubpieceFile_addressable
    (.fresh false false hNew) run (by decide) hNode hBit⟩

/-- After the eviction the node is gone and the bit is set, while the write is still in
the queue: the file does not have the block. -/
theorem written_of_run_fails :
    ¬ ∀ (md5 : Bytes → Guid) (r : RidInfo) (m : SubPieceManager (List Bool)) (actualSize : Nat)
      (hasEncrypted : Bool) (file : Nat → Option Bytes) (p : Pipeline (List Bool)) (b : Nat),
      r.Addressable → Opens r m →
      (∀ b < r.blockCount, m.hasFullBlock b = true →
        ∃ d, d.length = r.blockBytes b ∧ file (b * r.blockSize) = some d) →
      Reaches (Step md5) (fun p a => a.Admits r p) (start m actualSize hasEncrypted file) p →
      b < r.blockCount → p.manager.nodeAt b = none → p.manager.hasFullBlock b = true →
      ∃ d, d.length = r.blockBytes b ∧ p.file (b * r.blockSize) = some d := by
  intro h
  obtain ⟨m, p, hRun, hNew, run⟩ := runFresh_reaches oneSubpieceFile (addAndEvict ++ [])
    (fun p a => a.Admits oneSubpieceFile p) (by decide +kernel)
    fun m _ => addAndEvict_met m [] fun _ => trivial
  have hState : ((runFresh oneSubpieceFile (addAndEvict ++ [])).map fun p =>
      (p.manager.nodeAt 0, p.manager.hasFullBlock 0, p.file 0)) = some (none, true, none) := by
    decide +kernel
  rw [hRun, Option.map_some, Option.some.injEq, Prod.mk.injEq, Prod.mk.injEq] at hState
  obtain ⟨hNode, hBit, hFile⟩ := hState
  have hStart : ∀ b < oneSubpieceFile.blockCount, m.hasFullBlock b = true →
      ∃ d, d.length = oneSubpieceFile.blockBytes b ∧ (none : Option Bytes) = some d := by
    intro b hb hHeld
    rw [(SubPieceManager.new_eq_some hNew).2.2.2.1 b hb] at hHeld
    cases hHeld
  obtain ⟨d, -, hWritten⟩ := h _ oneSubpieceFile m 0 false (fun _ => none) p 0
    oneSubpieceFile_addressable (.fresh false false hNew) hStart run (by decide) hNode hBit
  rw [Nat.zero_mul, hFile] at hWritten
  cases hWritten

end Runs

end Pipeline

end Storage
