import Peer.Storage.WriteBack
import Peer.Storage.BlockMapParse

/-! What one step of the two threads does: a job leaves the store alone and answers
with tasks about its own block, everything else is a sequence of calls of the store. -/
namespace Storage

open Basis

variable {μ : Type} {r : RidInfo} {md5 : Bytes → Guid}

section Opening

variable [BlockMap μ]

/-- The stores a resource is opened with: a fresh one, or one parsed from a block map
whose nodes have the capacities of their blocks. -/
inductive Opens (r : RidInfo) (m : SubPieceManager μ) : Prop where
  | fresh (full verify : Bool) (h : SubPieceManager.new r full verify = some m)
  | parsed (buf : Bytes) (verify : Bool)
      (hTotals : ∀ b node, m.nodeAt b = some node → node.totalSubpieceCount = r.capacity b)
      (h : SubPieceManager.parse buf r verify = .ok (some m))

theorem Opens.builtFor {m : SubPieceManager μ} (h : Opens r m) : SubPieceManager.BuiltFor r m := by
  cases h with
  | fresh full verify h => exact (SubPieceManager.new_eq_some h).2.1
  | parsed buf verify _ h => exact SubPieceManager.builtFor_of_parse h

/-- The nodes of a store that was opened are those of listed blocks. -/
theorem Opens.node {m : SubPieceManager μ} (h : Opens r m) {b : Nat} {node : BlockNode}
    (hNode : m.nodeAt b = some node) :
    BlockNode.OnDiskOnly b node ∧ node.totalSubpieceCount = r.capacity b ∧
      m.hasFullBlock b = false := by
  cases h with
  | fresh full verify h =>
      rw [(SubPieceManager.new_eq_some h).2.2.1 b] at hNode
      cases hNode
  | parsed buf verify hTotals h =>
      obtain ⟨⟨hDisk, -⟩, hBit⟩ := SubPieceManager.node_of_parse h hNode
      exact ⟨hDisk, hTotals b node hNode, hBit⟩

end Opening

namespace Pipeline

section Answers

variable {p p' : Pipeline μ} {disk : DiskAnswers} {b : Nat}
  {set : List (SubPieceInfo × SubPieceBuffer)}

/-- The tasks that a job may post. -/
def Answers : StorageJob → MainTask → Prop
  | .save (.threadPendingHashBlock b _), .threadPendingWriteBlockHelper b' _ _ => b' = b
  | .save (.threadPendingHashBlock b _), .threadPendingHashBlockHelper b' _ => b' = b
  | .threadReadBufferForPlay info n _, .threadReadBufferForPlayHelper info' buffs _ =>
      info' = info ∧ buffs.length = n
  | .threadReadBufferForPlay info _ _, .onReportBlockReadFailed info' => info' = info
  | .threadRemoveBlock b, .onRemoveResourceBlockFinish b' => b' = b
  | _, _ => False

/-- A step of the storage thread: it leaves the main thread and the queue of jobs alone
and posts tasks that answer `job`. -/
structure Ran (job : StorageJob) (p p' : Pipeline μ) : Prop where
  manager_eq : p'.manager = p.manager
  jobs_eq : p'.jobs = p.jobs
  instance_eq : p'.instanceRunning = p.instanceRunning
  running_eq : p'.isRunning = p.isRunning ∨ job = .closeResource
  opened_eq : p'.history.opened = p.history.opened
  posted_eq : p'.history.posted = p.history.posted
  tasks_eq : ∃ new, p'.tasks = p.tasks ++ new ∧ ∀ task ∈ new, Answers job task

theorem Ran.refl (job : StorageJob) (p : Pipeline μ) : Ran job p p :=
  ⟨rfl, rfl, rfl, Or.inl rfl, rfl, rfl, [], (List.append_nil _).symm, fun _ h => by cases h⟩

theorem Ran.trans {job : StorageJob} {p p' p'' : Pipeline μ} (h : Ran job p p')
    (h' : Ran job p' p'') : Ran job p p'' := by
  obtain ⟨new, hTasks, hNew⟩ := h.tasks_eq
  obtain ⟨new', hTasks', hNew'⟩ := h'.tasks_eq
  refine ⟨h'.manager_eq.trans h.manager_eq, h'.jobs_eq.trans h.jobs_eq,
    h'.instance_eq.trans h.instance_eq, ?_, h'.opened_eq.trans h.opened_eq,
    h'.posted_eq.trans h.posted_eq, new ++ new', ?_, fun task hMem => ?_⟩
  · rcases h'.running_eq with hRunning | hClose
    · exact h.running_eq.imp hRunning.trans id
    · exact Or.inr hClose
  · rw [hTasks', hTasks, List.append_assoc]
  · exact (List.mem_append.mp hMem).elim (hNew task) (hNew' task)

theorem Ran.post {job : StorageJob} (h : Ran job p p') (task : MainTask)
    (hTask : Answers job task) : Ran job p (p'.postMain task) :=
  h.trans ⟨rfl, rfl, rfl, Or.inl rfl, rfl, rfl, [task], rfl,
    fun _ hMem => List.mem_singleton.mp hMem ▸ hTask⟩

theorem Ran.fail {job : StorageJob} (h : Ran job p p') : Ran job p (p'.failWrite b set) :=
  { h with }

/-- What a write job leaves of the file: the block is written at its offset, or the
job is on the list of those that failed; nothing is written elsewhere. -/
structure Wrote (p : Pipeline μ) (b offset : Nat) (data : Bytes) (p' : Pipeline μ) : Prop where
  file_of_ne : ∀ o, o ≠ offset → p'.file o = p.file o
  failed_subset : ∀ entry ∈ p.history.failed, entry ∈ p'.history.failed
  outcome : p'.file offset = some data ∨ (b, data) ∈ p'.history.failed

/-- The file is as before, and so are the failed jobs. -/
def SameFile (p p' : Pipeline μ) : Prop :=
  p'.file = p.file ∧ p'.history.failed = p.history.failed

theorem SameFile.wrote_of_fail (h : SameFile p p') (offset : Nat) :
    Wrote p b offset (blockData set) (p'.failWrite b set) := by
  refine ⟨fun o _ => congrFun h.1 o, fun entry hMem => ?_, Or.inr (List.mem_cons_self ..)⟩
  exact List.mem_cons_of_mem _ (h.2.symm ▸ hMem)

theorem reopenFile_eq_some (h : p.reopenFile disk = some p') (job : StorageJob) :
    Ran job p p' ∧ SameFile p p' := by
  unfold reopenFile at h
  split at h
  · cases h
    exact ⟨{ Ran.refl job p with }, rfl, rfl⟩
  · cases h

theorem extendFile_eq_some {stop : Nat} (h : p.extendFile disk stop = some p') (job : StorageJob) :
    Ran job p p' ∧ SameFile p p' := by
  unfold extendFile at h
  split at h
  · dsimp only at h
    split at h
    · cases h
      exact ⟨{ Ran.refl job p with }, rfl, rfl⟩
    · cases h
  · cases h
    exact ⟨Ran.refl job p, rfl, rfl⟩

theorem secSaveResourceFileInfo_ran (p : Pipeline μ) (disk : DiskAnswers) (job : StorageJob) :
    Ran job p (p.secSaveResourceFileInfo disk) ∧ SameFile p (p.secSaveResourceFileInfo disk) := by
  unfold secSaveResourceFileInfo
  split
  · exact ⟨Ran.refl job p, rfl, rfl⟩
  · exact ⟨{ Ran.refl job p with }, rfl, rfl⟩

theorem closeResource_ran (p : Pipeline μ) :
    Ran .closeResource p p.closeResource ∧ SameFile p p.closeResource := by
  unfold closeResource
  split
  · exact ⟨Ran.refl _ p, rfl, rfl⟩
  · exact ⟨{ Ran.refl _ p with running_eq := Or.inr rfl }, rfl, rfl⟩

end Answers

section StorageThread

variable {b : Nat} {set : List (SubPieceInfo × SubPieceBuffer)}

theorem writeBufferArray_ran (p : Pipeline μ) (disk : DiskAnswers) (startpos : Nat) (data : Bytes)
    (job : StorageJob) :
    Ran job p (p.writeBufferArray disk startpos data).1 ∧
      (SameFile p (p.writeBufferArray disk startpos data).1 ∧
          (p.writeBufferArray disk startpos data).2 = false ∨
        Wrote p b startpos data (p.writeBufferArray disk startpos data).1 ∧
          (p.writeBufferArray disk startpos data).2 = true) := by
  unfold writeBufferArray
  split
  · exact ⟨Ran.refl job p, Or.inl ⟨⟨rfl, rfl⟩, rfl⟩⟩
  · rename_i opened hOpen
    obtain ⟨hOpened, hFile⟩ := reopenFile_eq_some hOpen job
    dsimp only
    split
    · exact ⟨hOpened, Or.inl ⟨hFile, rfl⟩⟩
    · rename_i extended hExtend
      obtain ⟨hExtended, hFile'⟩ := extendFile_eq_some hExtend job
      have hRan := hOpened.trans hExtended
      have hSame : SameFile p extended := ⟨hFile'.1.trans hFile.1, hFile'.2.trans hFile.2⟩
      split
      · refine ⟨{ hRan with }, Or.inr ⟨⟨fun o ho => ?_, fun entry hMem => hSame.2.symm ▸ hMem,
          Or.inl (if_pos rfl)⟩, rfl⟩⟩
        exact (if_neg ho).trans (congrFun hSame.1 o)
      · exact ⟨hRan, Or.inl ⟨hSame, rfl⟩⟩

/-- A write job of a whole block. -/
theorem threadPendingHashBlock_ran (md5 : Bytes → Guid) (p : Pipeline μ) (disk : DiskAnswers)
    (b : Nat) {first : SubPieceInfo} {buf : SubPieceBuffer}
    {rest : List (SubPieceInfo × SubPieceBuffer)} (hSet : set = (first, buf) :: rest) :
    Ran (.save (.threadPendingHashBlock b set)) p (p.threadPendingHashBlock md5 disk b set) ∧
      Wrote p b (p.manager.getSubPiecePosition first).1 (blockData set)
        (p.threadPendingHashBlock md5 disk b set) := by
  have hSkip : Ran (.save (.threadPendingHashBlock b set)) p (p.failWrite b set) ∧
      Wrote p b (p.manager.getSubPiecePosition first).1 (blockData set) (p.failWrite b set) :=
    ⟨(Ran.refl _ p).fail, SameFile.wrote_of_fail ⟨rfl, rfl⟩ _⟩
  unfold threadPendingHashBlock
  split
  · exact hSkip
  split
  · exact hSkip
  rename_i opened hOpen
  obtain ⟨hOpened, hFile⟩ := reopenFile_eq_some hOpen (.save (.threadPendingHashBlock b set))
  split
  · have hPosition : opened.manager.getSubPiecePosition first = p.manager.getSubPiecePosition first := by
      rw [hOpened.manager_eq]
    obtain ⟨hRan, hWrite⟩ := opened.writeBufferArray_ran (b := b) disk
      (p.manager.getSubPiecePosition first).1 (blockData set) (.save (.threadPendingHashBlock b set))
    have hRan := hOpened.trans hRan
    subst hSet
    simp only [threadPendingWriteBlock, hPosition]
    rcases hWrite with ⟨hSame, hFalse⟩ | ⟨hWrote, hTrue⟩
    · simp only [hFalse, Bool.false_eq_true, if_false]
      refine ⟨hRan.fail.post (.threadPendingHashBlockHelper _ _) rfl, { SameFile.wrote_of_fail
        ⟨hSame.1.trans hFile.1, hSame.2.trans hFile.2⟩ _ with }⟩
    · simp only [hTrue, if_true]
      refine ⟨(hRan.post (.threadPendingWriteBlockHelper _ _ _) rfl).post
        (.threadPendingHashBlockHelper _ _) rfl, fun o ho => ?_, fun entry hMem => ?_, hWrote.outcome⟩
      · exact (hWrote.file_of_ne o ho).trans (congrFun hFile.1 o)
      · exact hWrote.failed_subset entry (hFile.2.symm ▸ hMem)
  · exact ⟨hOpened.fail, SameFile.wrote_of_fail hFile _⟩

/-- A read of a block answers with the contents or with a failure, unless the resource
is closed or its file cannot be opened again. -/
theorem threadReadBufferForPlay_ran (p : Pipeline μ) (disk : DiskAnswers) (info : SubPieceInfo)
    (buffs : Nat) (play : SubPieceInfo) :
    Ran (.threadReadBufferForPlay info buffs play) p
        (p.threadReadBufferForPlay disk info buffs play) ∧
      SameFile p (p.threadReadBufferForPlay disk info buffs play) := by
  unfold threadReadBufferForPlay
  split
  · exact ⟨Ran.refl _ p, rfl, rfl⟩
  split
  · exact ⟨Ran.refl _ p, rfl, rfl⟩
  rename_i opened hOpen
  obtain ⟨hOpened, hFile⟩ := reopenFile_eq_some hOpen (.threadReadBufferForPlay info buffs play)
  dsimp only
  split
  · exact ⟨hOpened.post (.threadReadBufferForPlayHelper _ _ _) ⟨rfl, by simp⟩, hFile⟩
  · exact ⟨hOpened.post (.onReportBlockReadFailed _) rfl, hFile⟩

theorem threadRemoveBlock_ran (p : Pipeline μ) (disk : DiskAnswers) (b : Nat) :
    Ran (.threadRemoveBlock b) p (p.threadRemoveBlock disk b) ∧
      SameFile p (p.threadRemoveBlock disk b) := by
  unfold threadRemoveBlock
  split
  · exact ⟨Ran.refl _ p, rfl, rfl⟩
  · obtain ⟨hRan, hFile⟩ := secSaveResourceFileInfo_ran
      ({ p with fileOpen := disk.leavesOpen, needSaveInfo := true }.postMain
        (.onRemoveResourceBlockFinish b)) disk (.threadRemoveBlock b)
    have hPost : Ran (.threadRemoveBlock b) p { p with
        fileOpen := disk.leavesOpen, needSaveInfo := true } := { Ran.refl _ p with }
    exact ⟨(hPost.post (.onRemoveResourceBlockFinish b) rfl).trans hRan, hFile⟩

/-- Every job leaves the store alone and answers for itself. -/
theorem runJob_ran (md5 : Bytes → Guid) (p : Pipeline μ) (disk : DiskAnswers) (job : StorageJob)
    (hFull : ∀ b set, job = .save (.threadPendingHashBlock b set) → set ≠ []) :
    Ran job p (runJob md5 p disk job) := by
  cases job with
  | save job =>
      cases job with
      | threadPendingHashBlock b set =>
          obtain ⟨⟨first, buf⟩, rest, hSet⟩ := List.exists_cons_of_ne_nil (hFull b set rfl)
          exact (threadPendingHashBlock_ran md5 p disk b hSet).1
      | secSaveResourceFileInfo => exact (p.secSaveResourceFileInfo_ran disk _).1
  | threadReadBufferForPlay info buffs play => exact (p.threadReadBufferForPlay_ran disk _ _ _).1
  | threadRemoveBlock b => exact (p.threadRemoveBlock_ran disk b).1
  | threadTryRenameToNormalFile => exact { Ran.refl _ p with }
  | useFile => exact { Ran.refl _ p with }
  | closeFileHandle => exact { Ran.refl _ p with }
  | closeResource => exact p.closeResource_ran.1

/-- Only write jobs touch the blocks of the file. -/
theorem runJob_sameFile (md5 : Bytes → Guid) (p : Pipeline μ) (disk : DiskAnswers)
    {job : StorageJob} (h : ∀ b set, job ≠ .save (.threadPendingHashBlock b set)) :
    SameFile p (runJob md5 p disk job) := by
  cases job with
  | save job =>
      cases job with
      | threadPendingHashBlock b set => exact absurd rfl (h b set)
      | secSaveResourceFileInfo => exact (p.secSaveResourceFileInfo_ran disk .useFile).2
  | threadReadBufferForPlay info buffs play => exact (p.threadReadBufferForPlay_ran disk _ _ _).2
  | threadRemoveBlock b => exact (p.threadRemoveBlock_ran disk b).2
  | threadTryRenameToNormalFile => exact ⟨rfl, rfl⟩
  | useFile => exact ⟨rfl, rfl⟩
  | closeFileHandle => exact ⟨rfl, rfl⟩
  | closeResource => exact p.closeResource_ran.2

end StorageThread

end Pipeline

namespace SubPieceManager

variable [BlockMap μ] {m m' : SubPieceManager μ} {info : SubPieceInfo}

/-- Inside a block the next subpiece is the one with the next index. -/
theorem BuiltFor.incSubPieceInfo (h : BuiltFor r m) (hr : r.Addressable)
    (hb : info.blockIndex < r.blockCount)
    (hs : info.subpieceIndex + 1 < r.capacity info.blockIndex) :
    m.incSubPieceInfo info = (.make info.blockIndex (info.subpieceIndex + 1), true) := by
  have hCap := RidInfo.capacity_le hr.toValid info.blockIndex
  have hSize := hr.blockSize_le
  have hNotLast : info.subpieceIndex ≠ subU32 (m.ridInfo.blockSize / bytesNumPerSubpiece) 1 := by
    rw [h.blockSize_eq, subU32_of_le (by omega) (by omega)]
    omega
  have hNext : r.Inside (.make info.blockIndex (info.subpieceIndex + 1)) := by
    rw [RidInfo.Inside, SubPieceInfo.make_blockIndex, SubPieceInfo.make_subpieceIndex,
      u16_of_lt info.blockIndex_lt, u16_of_lt (by omega)]
    exact ⟨hb, hs⟩
  have hPosition := (h.position_in_block hr.toValid hNext).2
  simp only [SubPieceManager.incSubPieceInfo, if_neg hNotLast, h.fileLength_eq, hPosition,
    decide_true]

/-- A load of a whole subpiece of block `b`. -/
def LoadsInto (r : RidInfo) (b : Nat) (op : StoreOp) : Prop :=
  ∃ info content, op = .loadSubPiece info content ∧ info.blockIndex = b ∧ op.WholeSubpieces r

/-- Loading contents that end inside their block is a run of such loads. -/
theorem loadContents_run (md5 : Bytes → Guid) (hr : r.Addressable) {contents : List SubPieceContent}
    {rounds : Nat} (hm : BuiltFor r m) (hb : info.blockIndex < r.blockCount)
    (hs : info.subpieceIndex + contents.length ≤ r.capacity info.blockIndex)
    (h : m.loadContents rounds info contents = some m') :
    Reaches (Step ⟨true, md5⟩) (fun _ op => LoadsInto r info.blockIndex op) m m' := by
  induction rounds generalizing m info contents with
  | zero => cases h
  | succ rounds ih =>
    cases contents with
    | nil =>
      cases h
      exact Reaches.refl _
    | cons content rest =>
      rw [List.length_cons] at hs
      obtain ⟨⟨loaded, flag⟩, hLoad, hRest⟩ := Option.bind_eq_some_iff.mp h
      have hStep : Step ⟨true, md5⟩ m (.loadSubPiece info content.bytes) loaded :=
        Option.map_eq_some_iff.mpr ⟨_, hLoad, rfl⟩
      have hOp : LoadsInto r info.blockIndex (.loadSubPiece info content.bytes) :=
        ⟨info, _, rfl, rfl, ⟨hb, by omega⟩, content.length_eq⟩
      have hKeeps : StoreOp.KeepsGeometry r (.loadSubPiece info content.bytes) := trivial
      have hBuilt := hm.step hKeeps hStep
      dsimp only at hRest
      cases rest with
      | nil =>
          have hDone : loaded = m' := by
            split at hRest
            · cases rounds with
              | zero => cases hRest
              | succ rounds => exact Option.some.inj hRest
            · exact Option.some.inj hRest
          exact hDone ▸ Reaches.head hOp hStep (Reaches.refl _)
      | cons next rest =>
          rw [List.length_cons] at hs
          rw [hBuilt.incSubPieceInfo hr hb (by omega), if_pos rfl] at hRest
          have hSize := hr.blockSize_le
          have hCap := RidInfo.capacity_le hr.toValid info.blockIndex
          have hBlock : (SubPieceInfo.make info.blockIndex (info.subpieceIndex + 1)).blockIndex =
              info.blockIndex := u16_of_lt info.blockIndex_lt
          have hIndex : (SubPieceInfo.make info.blockIndex (info.subpieceIndex + 1)).subpieceIndex =
              info.subpieceIndex + 1 := u16_of_lt (by omega)
          have hLater := ih hBuilt (by rw [hBlock]; exact hb)
            (by rw [hIndex, hBlock, List.length_cons]; omega) hRest
          rw [hBlock] at hLater
          exact Reaches.head hOp hStep hLater

end SubPieceManager

/-- The jobs that neither write nor read a block. -/
def StorageJob.isFileJob : StorageJob → Bool
  | .save _ => false
  | .threadReadBufferForPlay .. => false
  | _ => true

/-- A call on the main thread gets subpieces of the blocks of the file, and a resource
is opened with a store of the same file. -/
def PipelineAction.Admits [BlockMap μ] (r : RidInfo) (p : Pipeline μ) : PipelineAction μ → Prop
  | .asyncAddSubPiece info buf => p.manager.isSubPieceValid info buf = true → r.Inside info
  | .setRidInfo r' => r'.blockSize = r.blockSize ∧ r'.fileLength = r.fileLength
  | .reopen m _ _ => Opens r m
  | _ => True

namespace Pipeline

section Posts

variable {p p' : Pipeline μ}

/-- The file and the history stay, and no job is posted that writes or reads a block. -/
structure Undisturbed (p p' : Pipeline μ) : Prop where
  file_eq : p'.file = p.file
  history_eq : p'.history = p.history
  jobs_eq : ∃ new, p'.jobs = p.jobs ++ new ∧ ∀ job ∈ new, job.isFileJob = true

theorem Undisturbed.of_jobs_eq (hFile : p'.file = p.file) (hHistory : p'.history = p.history)
    (hJobs : p'.jobs = p.jobs) : Undisturbed p p' :=
  ⟨hFile, hHistory, [], hJobs.trans (List.append_nil _).symm, fun _ h => by cases h⟩

theorem Undisturbed.of_post {job : StorageJob} (hFile : p'.file = p.file)
    (hHistory : p'.history = p.history) (hJobs : p'.jobs = p.jobs ++ [job])
    (hJob : job.isFileJob = true) : Undisturbed p p' :=
  ⟨hFile, hHistory, [job], hJobs, fun _ hMem => List.mem_singleton.mp hMem ▸ hJob⟩

/-- The jobs of an undisturbed queue are old ones and file jobs. -/
theorem Undisturbed.mem_jobs (h : Undisturbed p p') {job : StorageJob} (hMem : job ∈ p'.jobs)
    (hJob : job.isFileJob = false) : job ∈ p.jobs := by
  obtain ⟨new, hJobs, hNew⟩ := h.jobs_eq
  rw [hJobs] at hMem
  refine (List.mem_append.mp hMem).resolve_right fun hIn => ?_
  rw [hNew job hIn] at hJob
  cases hJob

theorem Undisturbed.mem_jobs_of_mem (h : Undisturbed p p') {job : StorageJob}
    (hMem : job ∈ p.jobs) : job ∈ p'.jobs := by
  obtain ⟨new, hJobs, -⟩ := h.jobs_eq
  exact hJobs ▸ List.mem_append_left _ hMem

end Posts

section MainThread

variable [BlockMap μ] {p p' : Pipeline μ} {a : PipelineAction μ}

/-- A call of the store that neither evicts nor reads a block, and ends a write only
for the task that says so. -/
def Quiet (tasks : List MainTask) : StoreOp → Prop
  | .removeBlockDataFromMemCache _ => False
  | .saveBlock _ => False
  | .setBlockReading _ => False
  | .onWriteBlockFinish b => ∃ startpos length, .threadPendingWriteBlockHelper b startpos length ∈ tasks
  | _ => True

/-- A run of quiet calls with whole subpieces. -/
def QuietRun (r : RidInfo) (md5 : Bytes → Guid) (tasks : List MainTask) :
    SubPieceManager μ → SubPieceManager μ → Prop :=
  Reaches (SubPieceManager.Step ⟨true, md5⟩) fun _ op => op.WholeSubpieces r ∧ Quiet tasks op

/-- A read under way is one of a block from its first subpiece on. -/
def ReadOf (r : RidInfo) (info : SubPieceInfo) (buffs : Nat) : Prop :=
  info.blockIndex < r.blockCount ∧ info.subpieceIndex = 0 ∧ buffs ≤ r.capacity info.blockIndex

theorem QuietRun.one {tasks : List MainTask} {m m' : SubPieceManager μ} (op : StoreOp)
    (hOp : op.WholeSubpieces r) (hQuiet : Quiet tasks op)
    (hStep : SubPieceManager.Step ⟨true, md5⟩ m op m') : QuietRun r md5 tasks m m' :=
  Reaches.single op ⟨hOp, hQuiet⟩ hStep

/-- A task of the main thread makes quiet calls. -/
theorem runTask_quiet (hr : r.Addressable) {task : MainTask} {rest tasks : List MainTask}
    (hm : SubPieceManager.BuiltFor r p.manager) (hTask : task ∈ tasks)
    (hReads : ∀ info buffs play, task = .threadReadBufferForPlayHelper info buffs play →
      ReadOf r info buffs.length)
    (h : runTask { p with tasks := rest } task = some p') :
    QuietRun r md5 tasks p.manager p'.manager ∧ Undisturbed p p' ∧ p'.tasks = rest := by
  have hNone : QuietRun r md5 tasks p.manager p.manager := Reaches.refl _
  cases task with
  | threadPendingWriteBlockHelper b startpos length =>
      simp only [runTask, threadPendingWriteBlockHelper] at h
      split at h
      · cases h
        exact ⟨hNone, .of_jobs_eq rfl rfl rfl, rfl⟩
      · obtain ⟨m, hFinish, hEq⟩ := Option.map_eq_some_iff.mp h
        have hRun : QuietRun r md5 tasks p.manager m := by
          split at hFinish
          · exact .one (.onWriteBlockFinish b) trivial ⟨_, _, hTask⟩ hFinish
          · cases hFinish
            exact hNone
        split at hEq
        · cases hEq
          exact ⟨hRun, .of_post rfl rfl rfl rfl, rfl⟩
        · cases hEq
          exact ⟨hRun, .of_jobs_eq rfl rfl rfl, rfl⟩
  | threadPendingHashBlockHelper b hash =>
      simp only [runTask, onPendingHashBlockFinish] at h
      split at h
      · cases h
        exact ⟨hNone, .of_jobs_eq rfl rfl rfl, rfl⟩
      · obtain ⟨known, -, hEq⟩ := Option.map_eq_some_iff.mp h
        split at hEq
        · cases hEq
          exact ⟨.one (.initRidInfo { p.manager.ridInfo with
              blockMd5s := p.manager.ridInfo.blockMd5s.set b hash })
            ⟨hm.blockSize_eq, hm.fileLength_eq⟩ trivial rfl, .of_jobs_eq rfl rfl rfl, rfl⟩
        split at hEq
        · cases hEq
          exact ⟨hNone, .of_jobs_eq rfl rfl rfl, rfl⟩
        · cases hEq
          exact ⟨hNone, .of_post rfl rfl rfl rfl, rfl⟩
  | threadReadBufferForPlayHelper info buffs play =>
      obtain ⟨hb, hs, hCount⟩ := hReads info buffs play rfl
      obtain ⟨m, hLoad, hEq⟩ := Option.map_eq_some_iff.mp h
      cases hEq
      refine ⟨(SubPieceManager.loadContents_run md5 hr hm hb (by omega) hLoad).mono ?_,
        .of_jobs_eq rfl rfl rfl, rfl⟩
      rintro m op ⟨info, content, rfl, -, hOp⟩
      exact ⟨hOp, trivial⟩
  | onReportBlockReadFailed info =>
      obtain ⟨m, hFail, hEq⟩ := Option.map_eq_some_iff.mp h
      cases hEq
      exact ⟨.one (.onReportBlockReadFailed info) trivial trivial hFail,
        .of_jobs_eq rfl rfl rfl, rfl⟩
  | onRemoveResourceBlockFinish b =>
      simp only [runTask] at h
      split at h
      · cases h
        exact ⟨hNone, .of_jobs_eq rfl rfl rfl, rfl⟩
      · obtain ⟨m, hRemove, hEq⟩ := Option.map_eq_some_iff.mp h
        cases hEq
        exact ⟨.one (.removeBlockInfo b) trivial trivial hRemove,
          .of_jobs_eq rfl rfl rfl, rfl⟩

/-- What one step of the two threads is. -/
inductive StepCases (r : RidInfo) (md5 : Bytes → Guid) (p : Pipeline μ) (a : PipelineAction μ)
    (p' : Pipeline μ) : Prop where
  | called (hRun : QuietRun r md5 p.tasks p.manager p'.manager) (h : Undisturbed p p')
      (hTasks : p'.tasks = p.tasks)
  | task (task : MainTask) (hTasks : p.tasks = task :: p'.tasks)
      (hTask : runTask { p with tasks := p'.tasks } task = some p')
      (hRun : QuietRun r md5 p.tasks p.manager p'.manager) (h : Undisturbed p p')
  | evicted (b : Nat) (m : SubPieceManager μ) (saves : List SaveJob)
      (hSaves : p.manager.removeBlockDataFromMemCache ⟨true, md5⟩ b = some (m, saves) ∨
        p.manager.saveBlock ⟨true, md5⟩ b = some (m, saves))
      (h : p' = p.postSaves m saves)
  | read (start : SubPieceInfo) (left allocated buffs : Nat) (m : SubPieceManager μ)
      (reading : Bool) (hAction : a = .readFromDisk start left allocated) (hLeft : 100 ≤ left)
      (hRead : p.manager.setBlockReading start.blockIndex = some (m, reading))
      (hBuffs : buffs =
        if reading then min allocated (m.getTotalSubpieceCountInBlock start.blockIndex) else 0)
      (h : p' = if 0 < buffs then ({ p with manager := m } : Pipeline μ).post
          (.threadReadBufferForPlay (.make start.blockIndex 0) buffs start)
        else { p with manager := m })
  | ran (disk : DiskAnswers) (job : StorageJob) (rest : List StorageJob)
      (hAction : a = .storageThread disk) (hJobs : p.jobs = job :: rest)
      (h : p' = runJob md5 { p with jobs := rest } disk job)
  | reopened (m : SubPieceManager μ) (actualSize : Nat) (hasEncrypted : Bool) (hOpens : Opens r m)
      (h : p' = start m actualSize hasEncrypted p.file)

/-- The call of `AsyncAddSubPiece` adds a whole subpiece or does nothing. -/
theorem asyncAddSubPiece_quiet (hr : r.Addressable) {m m' : SubPieceManager μ}
    (hm : SubPieceManager.BuiltFor r m) {info : SubPieceInfo} {buf : SubPieceBuffer} {added : Bool}
    (hAdmits : m.isSubPieceValid info buf = true → r.Inside info) (tasks : List MainTask)
    (h : m.asyncAddSubPiece info buf = some (m', added)) : QuietRun r md5 tasks m m' := by
  unfold SubPieceManager.asyncAddSubPiece at h
  split at h
  · cases h
    exact Reaches.refl _
  rename_i hValid
  rw [Bool.not_eq_true', Bool.not_eq_false] at hValid
  split at h
  · cases h
    exact Reaches.refl _
  · have hInside := hAdmits hValid
    exact .one (.addSubPiece info buf) ⟨hInside, hm.length_of_valid hr hInside.1 hValid⟩ trivial
      (Option.map_eq_some_iff.mpr ⟨_, h, rfl⟩)

theorem Step.cases (hr : r.Addressable) (hm : SubPieceManager.BuiltFor r p.manager)
    (hReads : ∀ info buffs play, .threadReadBufferForPlayHelper info buffs play ∈ p.tasks →
      ReadOf r info buffs.length)
    (hAdmits : a.Admits r p) (hStep : Step md5 p a p') : StepCases r md5 p a p' := by
  have hNone : QuietRun r md5 p.tasks p.manager p.manager := Reaches.refl _
  unfold Step next at hStep
  cases a with
  | asyncAddSubPiece info buf =>
      dsimp only at hStep
      split at hStep
      · obtain ⟨⟨m, added⟩, hAdd, hEq⟩ := Option.map_eq_some_iff.mp hStep
        cases hEq
        exact .called (asyncAddSubPiece_quiet hr hm hAdmits p.tasks hAdd)
          (.of_jobs_eq rfl rfl rfl) rfl
      · cases hStep
  | removeBlockDataFromMemCache b =>
      dsimp only at hStep
      split at hStep
      · obtain ⟨⟨m, saves⟩, hEvict, hEq⟩ := Option.map_eq_some_iff.mp hStep
        exact .evicted b m saves (Or.inl hEvict) hEq.symm
      · cases hStep
  | saveBlock b =>
      dsimp only at hStep
      split at hStep
      · obtain ⟨⟨m, saves⟩, hSave, hEq⟩ := Option.map_eq_some_iff.mp hStep
        exact .evicted b m saves (Or.inr hSave) hEq.symm
      · cases hStep
  | readFromDisk start left allocated =>
      dsimp only at hStep
      split at hStep
      · dsimp only [readFromDisk] at hStep
        split at hStep
        · cases hStep
          exact .called hNone (.of_jobs_eq rfl rfl rfl) rfl
        · rename_i hLeft
          obtain ⟨⟨m, reading⟩, hRead, hEq⟩ := Option.map_eq_some_iff.mp hStep
          exact .read start left allocated _ m reading rfl (Nat.not_lt.mp hLeft) hRead rfl hEq.symm
      · cases hStep
  | setRidInfo r' =>
      cases hStep
      exact .called (.one (.initRidInfo r') hAdmits trivial rfl) (.of_jobs_eq rfl rfl rfl) rfl
  | postFileJob close =>
      cases hStep
      refine .called hNone (.of_post rfl rfl rfl ?_) rfl
      split <;> rfl
  | remove =>
      dsimp only at hStep
      split at hStep
      · cases hStep
        exact .called hNone (.of_post rfl rfl rfl rfl) rfl
      · cases hStep
  | storageThread disk =>
      dsimp only at hStep
      cases hJobs : p.jobs with
      | nil =>
          rw [hJobs] at hStep
          cases hStep
      | cons job rest =>
          rw [hJobs] at hStep
          exact .ran disk job rest rfl hJobs (Option.some.inj hStep).symm
  | mainThread =>
      dsimp only at hStep
      cases hTasks : p.tasks with
      | nil =>
          rw [hTasks] at hStep
          cases hStep
      | cons task rest =>
          rw [hTasks] at hStep
          have hHead : task ∈ p.tasks := hTasks ▸ List.mem_cons_self ..
          obtain ⟨hRun, h, hRest⟩ := runTask_quiet hr hm hHead
            (fun info buffs play hEq => hReads info buffs play (hEq ▸ hHead)) hStep
          exact .task task (hRest ▸ hTasks) (hRest ▸ hStep) hRun h
  | reopen m actualSize hasEncrypted =>
      dsimp only at hStep
      split at hStep
      · cases hStep
      · cases hStep
        exact .reopened m actualSize hasEncrypted hAdmits rfl

end MainThread

end Pipeline

end Storage
