import Peer.Storage.PipelineStep

/-! What holds of the store and of both queues in every state of the two threads. -/
namespace Storage

open Basis

variable {μ : Type} [BlockMap μ] {r : RidInfo} {md5 : Bytes → Guid}

/-- Whether the job reads a block for the player. -/
def StorageJob.isRead : StorageJob → Bool
  | .threadReadBufferForPlay .. => true
  | _ => false

namespace Pipeline

variable {p p' : Pipeline μ} {a : PipelineAction μ}

section Nodes

open SubPieceManager

/-- A run of calls keeps what every one of them keeps. -/
theorem nodes_of_calls {P : Nat → BlockNode → Bool → Prop} {G : StoreOp → Prop}
    (hKeeps : ∀ op, G op → op.KeepsGeometry r)
    (hRules : ∀ (m : SubPieceManager μ) (op : StoreOp), BuiltFor r m → G op →
      NodeRules ⟨true, md5⟩ m op P)
    {m m' : SubPieceManager μ} (hm : BuiltFor r m) (hOld : NodesHave P m)
    (run : Reaches (SubPieceManager.Step ⟨true, md5⟩) (fun _ op => G op) m m') :
    BuiltFor r m' ∧ NodesHave P m' := by
  refine run.invariant (P := fun m => BuiltFor r m ∧ NodesHave P m) ⟨hm, hOld⟩ ?_
  rintro x op y ⟨hBuilt, hNodes⟩ hOp hStep
  exact ⟨hBuilt.step (hKeeps op hOp) hStep,
    SubPieceManager.Step.nodes (hRules x op hBuilt hOp) hBuilt.sized hStep hNodes⟩

/-- A step changes the store by such calls, or opens another one. -/
theorem StepCases.calls (h : StepCases r md5 p a p')
    (hWrites : ∀ b set, .save (.threadPendingHashBlock b set) ∈ p.jobs → set ≠ []) :
    Reaches (SubPieceManager.Step ⟨true, md5⟩) (fun _ op => op.WholeSubpieces r) p.manager
      p'.manager ∨ Opens r p'.manager := by
  cases h with
  | called hRun => exact Or.inl (hRun.mono fun _ _ => And.left)
  | task _ _ _ hRun => exact Or.inl (hRun.mono fun _ _ => And.left)
  | evicted b m saves hSaves h =>
      rw [h]
      refine Or.inl ?_
      rcases hSaves with hEvict | hSave
      · have hStep : SubPieceManager.Step ⟨true, md5⟩ p.manager (.removeBlockDataFromMemCache b) m :=
          Option.map_eq_some_iff.mpr ⟨_, hEvict, rfl⟩
        exact Reaches.single (.removeBlockDataFromMemCache b) trivial hStep
      · have hStep : SubPieceManager.Step ⟨true, md5⟩ p.manager (.saveBlock b) m :=
          Option.map_eq_some_iff.mpr ⟨_, hSave, rfl⟩
        exact Reaches.single (.saveBlock b) trivial hStep
  | read start left allocated buffs m reading _ _ hRead _ h =>
      have hManager : p'.manager = m := by
        rw [h]
        split <;> rfl
      have hStep : SubPieceManager.Step ⟨true, md5⟩ p.manager
          (.setBlockReading start.blockIndex) m := Option.map_eq_some_iff.mpr ⟨_, hRead, rfl⟩
      rw [hManager]
      exact Or.inl (Reaches.single (.setBlockReading start.blockIndex) trivial hStep)
  | ran disk job rest _ hJobs h =>
      have hRan := runJob_ran md5 { p with jobs := rest } disk job fun b set hEq =>
        hWrites b set (by rw [hJobs, hEq]; exact List.mem_cons_self ..)
      rw [h, hRan.manager_eq]
      exact Or.inl (Reaches.refl _)
  | reopened m actualSize hasEncrypted hOpens h =>
      rw [h]
      exact Or.inr hOpens

theorem StepCases.nodes {P : Nat → BlockNode → Bool → Prop}
    (hRules : ∀ (m : SubPieceManager μ) (op : StoreOp), BuiltFor r m → op.WholeSubpieces r →
      NodeRules ⟨true, md5⟩ m op P)
    (hOpens : ∀ m : SubPieceManager μ, Opens r m → NodesHave P m)
    (h : StepCases r md5 p a p')
    (hWrites : ∀ b set, .save (.threadPendingHashBlock b set) ∈ p.jobs → set ≠ [])
    (hm : BuiltFor r p.manager) (hOld : NodesHave P p.manager) :
    BuiltFor r p'.manager ∧ NodesHave P p'.manager := by
  rcases h.calls hWrites with hRun | hOpen
  · exact nodes_of_calls (fun _ => StoreOp.WholeSubpieces.keepsGeometry) hRules hm hOld hRun
  · exact ⟨hOpen.builtFor, hOpens _ hOpen⟩

/-- The count that `ReadFromDisk` asks for is that of the block, if it has a node. -/
theorem total_of_ready {m : SubPieceManager μ} (hm : BuiltFor r m)
    (hReady : NodesHave (WriteReady r) m) (b : Nat) :
    m.getTotalSubpieceCountInBlock b = 0 ∨
      b < r.blockCount ∧ m.getTotalSubpieceCountInBlock b = r.capacity b := by
  unfold getTotalSubpieceCountInBlock
  cases hNode : m.nodeAt b with
  | none => exact Or.inl rfl
  | some node => exact Or.inr ⟨hm.length_eq ▸ lt_of_nodeAt hNode, (hReady b node hNode).total_eq⟩

theorem lookup_none_of_onDiskOnly {b : Nat} {node : BlockNode}
    (h : BlockNode.OnDiskOnly b node) (s : Nat) (buf : SubPieceBuffer) :
    node.subpieces.lookup s ≠ some buf := fun hSome => by
  have hMem : s ∈ node.keys :=
    BlockNode.mem_keys.mpr (Finmap.lookup_isSome.mp (Option.isSome_iff_exists.mpr ⟨buf, hSome⟩))
  rw [h.keys_eq] at hMem
  exact Finset.notMem_empty s hMem

theorem ready_of_opens {m : SubPieceManager μ} (h : Opens r m) : NodesHave (WriteReady r) m := by
  intro b node hNode
  obtain ⟨hDisk, hTotal, hBit⟩ := h.node hNode
  rw [hBit]
  refine ⟨hDisk.index_eq, hTotal, by rw [hDisk.keys_eq]; exact Finset.empty_subset _,
    fun s buf hs => absurd hs (lookup_none_of_onDiskOnly hDisk s buf), fun hWrite => ?_, fun hMem => ?_,
    fun hHeld => by cases hHeld⟩
  · rw [hDisk.needWrite_eq] at hWrite
    cases hWrite
  · rw [hDisk.state_eq] at hMem
    cases hMem

end Nodes

/-- Nodes are ready for their writes, queued writes are whole blocks, and queued reads
start at the first subpiece of a block and end inside it. -/
structure Underway (r : RidInfo) (p : Pipeline μ) : Prop where
  builtFor : SubPieceManager.BuiltFor r p.manager
  ready : SubPieceManager.NodesHave (SubPieceManager.WriteReady r) p.manager
  writes : ∀ b set, .save (.threadPendingHashBlock b set) ∈ p.jobs →
    b < r.blockCount ∧ SubPieceManager.FullSet r b set
  readJobs : ∀ info buffs play, .threadReadBufferForPlay info buffs play ∈ p.jobs →
    ReadOf r info buffs
  readTasks : ∀ info buffs play, .threadReadBufferForPlayHelper info buffs play ∈ p.tasks →
    ReadOf r info buffs.length

theorem Underway.set_ne_nil (h : Underway r p) (b : Nat)
    (set : List (SubPieceInfo × SubPieceBuffer))
    (hMem : .save (.threadPendingHashBlock b set) ∈ p.jobs) : set ≠ [] := by
  obtain ⟨buf, rest, rfl⟩ := (h.writes b set hMem).2.first_eq
  exact List.cons_ne_nil _ _

theorem underway_start {m : SubPieceManager μ} (h : Opens r m) (actualSize : Nat)
    (hasEncrypted : Bool) (file : Nat → Option Bytes) :
    Underway r (start m actualSize hasEncrypted file) where
  builtFor := h.builtFor
  ready := ready_of_opens h
  writes _ _ hMem := by cases hMem
  readJobs _ _ _ hMem := by cases hMem
  readTasks _ _ _ hMem := by cases hMem

theorem Underway.cases (h : Underway r p) (hr : r.Addressable) (hAdmits : a.Admits r p)
    (hStep : Step md5 p a p') : StepCases r md5 p a p' :=
  Step.cases hr h.builtFor h.readTasks hAdmits hStep

theorem Underway.step (h : Underway r p) (hr : r.Addressable) (hAdmits : a.Admits r p)
    (hStep : Step md5 p a p') : Underway r p' := by
  have hCases := h.cases hr hAdmits hStep
  obtain ⟨hBuilt, hReady⟩ := hCases.nodes
    (fun _ _ => SubPieceManager.WriteReady.rules hr) (fun _ => ready_of_opens) h.set_ne_nil
    h.builtFor h.ready
  cases hCases with
  | called _ hSame hTasks =>
      exact ⟨hBuilt, hReady, fun b set hMem => h.writes b set (hSame.mem_jobs hMem rfl),
        fun info buffs play hMem => h.readJobs info buffs play (hSame.mem_jobs hMem rfl),
        fun info buffs play hMem => h.readTasks info buffs play (hTasks ▸ hMem)⟩
  | task task hTasks _ _ hSame =>
      exact ⟨hBuilt, hReady, fun b set hMem => h.writes b set (hSame.mem_jobs hMem rfl),
        fun info buffs play hMem => h.readJobs info buffs play (hSame.mem_jobs hMem rfl),
        fun info buffs play hMem =>
          h.readTasks info buffs play (hTasks ▸ List.mem_cons_of_mem _ hMem)⟩
  | evicted b m saves hSaves hEq =>
      subst hEq
      have hEvict : SubPieceManager.EvictSaves r p.manager b m saves := by
        rcases hSaves with hEvict | hSave
        · exact SubPieceManager.removeBlockDataFromMemCache_saves hr h.builtFor h.ready hEvict
        · exact SubPieceManager.saveBlock_saves hr h.builtFor h.ready hSave
      refine ⟨hBuilt, hReady, fun c set hMem => ?_, fun info buffs play hMem => ?_, h.readTasks⟩
      · rcases List.mem_append.mp hMem with hOld | hNew
        · exact h.writes c set hOld
        · obtain ⟨job, hJob, hEq⟩ := List.mem_map.mp hNew
          cases hEq
          cases hEvict with
          | nothing => cases hJob
          | block full hFull hBlock =>
              rcases List.mem_cons.mp hJob with hEq | hRest
              · cases hEq
                exact ⟨hBlock, hFull⟩
              · cases List.mem_singleton.mp hRest
      · refine h.readJobs info buffs play ((List.mem_append.mp hMem).resolve_right fun hNew => ?_)
        obtain ⟨job, -, hEq⟩ := List.mem_map.mp hNew
        cases hEq
  | read start left allocated buffs m reading _ _ hRead hBuffs hEq =>
      split at hEq
      · rename_i hPos
        subst hEq
        have hRead : ReadOf r (.make start.blockIndex 0) buffs := by
          have hBlock : (SubPieceInfo.make start.blockIndex 0).blockIndex = start.blockIndex :=
            u16_of_lt start.blockIndex_lt
          have hZero : (SubPieceInfo.make start.blockIndex 0).subpieceIndex = 0 :=
            u16_of_lt (by decide)
          split at hBuffs
          · rw [ReadOf, hBlock, hZero]
            rcases total_of_ready (m := m) hBuilt hReady start.blockIndex with hNone | ⟨hLt, hTotal⟩
            · omega
            · exact ⟨hLt, rfl, by omega⟩
          · omega
        refine ⟨hBuilt, hReady, fun b set hMem => ?_, fun info n play hMem => ?_, h.readTasks⟩
        · refine h.writes b set ((List.mem_append.mp hMem).resolve_right fun hNew => ?_)
          cases List.mem_singleton.mp hNew
        · rcases List.mem_append.mp hMem with hOld | hNew
          · exact h.readJobs info n play hOld
          · cases List.mem_singleton.mp hNew
            exact hRead
      · subst hEq
        exact ⟨hBuilt, hReady, h.writes, h.readJobs, h.readTasks⟩
  | ran disk job rest _ hJobs hEq =>
      have hRan := runJob_ran md5 { p with jobs := rest } disk job fun b set hSave =>
        h.set_ne_nil b set (by rw [hJobs, hSave]; exact List.mem_cons_self ..)
      have hRest : ∀ x ∈ p'.jobs, x ∈ p.jobs := fun x hMem => by
        rw [hEq, hRan.jobs_eq] at hMem
        exact hJobs ▸ List.mem_cons_of_mem _ hMem
      refine ⟨hBuilt, hReady, fun b set hMem => h.writes b set (hRest _ hMem),
        fun info buffs play hMem => h.readJobs info buffs play (hRest _ hMem),
        fun info buffs play hMem => ?_⟩
      obtain ⟨new, hTasks, hNew⟩ := hRan.tasks_eq
      rw [hEq, hTasks] at hMem
      rcases List.mem_append.mp hMem with hOld | hIn
      · exact h.readTasks info buffs play hOld
      · have hAnswer := hNew _ hIn
        cases job with
        | threadReadBufferForPlay info' n play' =>
            obtain ⟨rfl, rfl⟩ := hAnswer
            exact h.readJobs _ _ play' (hJobs ▸ List.mem_cons_self ..)
        | save job => cases job <;> cases hAnswer
        | _ => cases hAnswer
  | reopened m actualSize hasEncrypted hOpens hEq =>
      rw [hEq]
      exact underway_start hOpens actualSize hasEncrypted p.file

section Closing

/-- The resource is closed after the instance, and no read is posted in between: a read
never runs on a closed resource. -/
structure ReadsBeforeClose (p : Pipeline μ) : Prop where
  running : p.instanceRunning = true → p.isRunning = true ∧ .closeResource ∉ p.jobs
  order : p.jobs.Pairwise fun job later => job = .closeResource → later.isRead = false
  closed : p.isRunning = false → ∀ job ∈ p.jobs, job.isRead = false

omit [BlockMap μ] in
theorem ReadsBeforeClose.isRunning (h : ReadsBeforeClose p) {job : StorageJob}
    {rest : List StorageJob} (hJobs : p.jobs = job :: rest) (hRead : job.isRead = true) :
    p.isRunning = true := by
  cases hRunning : p.isRunning with
  | true => rfl
  | false =>
      rw [h.closed hRunning job (hJobs ▸ List.mem_cons_self ..)] at hRead
      cases hRead

omit [BlockMap μ] in
theorem ReadsBeforeClose.same (h : ReadsBeforeClose p) (hJobs : p'.jobs = p.jobs)
    (hInstance : p'.instanceRunning = p.instanceRunning) (hRunning : p'.isRunning = p.isRunning) :
    ReadsBeforeClose p' := by
  refine ⟨?_, ?_, ?_⟩
  · rw [hJobs, hInstance, hRunning]
    exact h.running
  · rw [hJobs]
    exact h.order
  · rw [hJobs, hRunning]
    exact h.closed

omit [BlockMap μ] in
/-- Jobs other than reads may be posted at any time. -/
theorem ReadsBeforeClose.append (h : ReadsBeforeClose p) {new : List StorageJob}
    (hJobs : p'.jobs = p.jobs ++ new)
    (hInstance : p'.instanceRunning = true → p.instanceRunning = true ∧ .closeResource ∉ new)
    (hRunning : p'.isRunning = p.isRunning) (hNew : ∀ job ∈ new, job.isRead = false) :
    ReadsBeforeClose p' := by
  refine ⟨fun hRun => ?_, ?_, fun hClosed job hMem => ?_⟩
  · obtain ⟨hBefore, hNotNew⟩ := hInstance hRun
    obtain ⟨hOpen, hNotOld⟩ := h.running hBefore
    rw [hJobs, List.mem_append]
    exact ⟨hRunning.trans hOpen, fun hMem => hMem.elim hNotOld hNotNew⟩
  · rw [hJobs, List.pairwise_append]
    refine ⟨h.order, ?_, fun _ _ later hLater _ => hNew later hLater⟩
    exact List.Pairwise.imp_of_mem (fun _ hLater _ _ => hNew _ hLater)
      (List.pairwise_of_forall fun _ _ => trivial : new.Pairwise fun _ _ => True)
  · rw [hJobs] at hMem
    exact (List.mem_append.mp hMem).elim (h.closed (hRunning ▸ hClosed) job) (hNew job)

omit [BlockMap μ] in
/-- A read is posted only while the instance runs. -/
theorem ReadsBeforeClose.read (h : ReadsBeforeClose p) {job : StorageJob}
    (hJobs : p'.jobs = p.jobs ++ [job]) (hRun : p.instanceRunning = true)
    (hRunning : p'.isRunning = p.isRunning) (hJob : job ≠ .closeResource) :
    ReadsBeforeClose p' := by
  obtain ⟨hOpen, hNotOld⟩ := h.running hRun
  refine ⟨fun _ => ⟨hRunning.trans hOpen, ?_⟩, ?_, fun hClosed => ?_⟩
  · rw [hJobs, List.mem_append, List.mem_singleton]
    exact fun hMem => hMem.elim hNotOld (hJob ·.symm)
  · rw [hJobs, List.pairwise_append]
    refine ⟨h.order, List.pairwise_singleton _ _, fun old hOld _ _ hEq => ?_⟩
    exact absurd (hEq ▸ hOld) hNotOld
  · rw [hRunning, hOpen] at hClosed
    cases hClosed

theorem readsBeforeClose_start (m : SubPieceManager μ) (actualSize : Nat) (hasEncrypted : Bool)
    (file : Nat → Option Bytes) : ReadsBeforeClose (start m actualSize hasEncrypted file) where
  running _ := ⟨rfl, List.not_mem_nil⟩
  order := List.Pairwise.nil
  closed _ _ hMem := by cases hMem

theorem save_not_read (saves : List SaveJob) :
    ∀ job ∈ saves.map StorageJob.save, job.isRead = false ∧ job ≠ .closeResource := by
  intro job hMem
  obtain ⟨save, -, rfl⟩ := List.mem_map.mp hMem
  exact ⟨rfl, fun hEq => by cases hEq⟩

/-- A task posts the renaming of a complete file or the removal of a block. -/
theorem runTask_posts {task : MainTask} (h : runTask p task = some p') :
    p'.instanceRunning = p.instanceRunning ∧ p'.isRunning = p.isRunning ∧
      ∃ new, p'.jobs = p.jobs ++ new ∧ ∀ job ∈ new, job.isRead = false ∧ job ≠ .closeResource := by
  have hSame : ∀ m, ({ p with manager := m } : Pipeline μ).instanceRunning = p.instanceRunning ∧
      p.isRunning = p.isRunning ∧ ∃ new, p.jobs = p.jobs ++ new ∧
        ∀ job ∈ new, job.isRead = false ∧ job ≠ .closeResource :=
    fun m => ⟨rfl, rfl, [], (List.append_nil _).symm, fun _ hMem => by cases hMem⟩
  cases task with
  | threadPendingWriteBlockHelper b startpos length =>
      simp only [runTask, threadPendingWriteBlockHelper] at h
      split at h
      · cases h
        exact hSame p.manager
      · obtain ⟨m, -, hEq⟩ := Option.map_eq_some_iff.mp h
        split at hEq
        · cases hEq
          refine ⟨rfl, rfl, [.threadTryRenameToNormalFile], rfl, fun job hMem => ?_⟩
          rw [List.mem_singleton.mp hMem]
          exact ⟨rfl, fun hEq => by cases hEq⟩
        · cases hEq
          exact hSame m
  | threadPendingHashBlockHelper b hash =>
      simp only [runTask, onPendingHashBlockFinish] at h
      split at h
      · cases h
        exact hSame p.manager
      · obtain ⟨known, -, hEq⟩ := Option.map_eq_some_iff.mp h
        split at hEq
        · cases hEq
          exact hSame p.manager
        split at hEq
        · cases hEq
          exact hSame p.manager
        · cases hEq
          refine ⟨rfl, rfl, [.threadRemoveBlock b], rfl, fun job hMem => ?_⟩
          rw [List.mem_singleton.mp hMem]
          exact ⟨rfl, fun hEq => by cases hEq⟩
  | threadReadBufferForPlayHelper info buffs play =>
      obtain ⟨m, -, hEq⟩ := Option.map_eq_some_iff.mp h
      cases hEq
      exact hSame m
  | onReportBlockReadFailed info =>
      obtain ⟨m, -, hEq⟩ := Option.map_eq_some_iff.mp h
      cases hEq
      exact hSame m
  | onRemoveResourceBlockFinish b =>
      simp only [runTask] at h
      split at h
      · cases h
        exact hSame p.manager
      · obtain ⟨m, -, hEq⟩ := Option.map_eq_some_iff.mp h
        cases hEq
        exact hSame m

omit [BlockMap μ] in
/-- The storage thread takes the job at the head of the queue. -/
theorem ReadsBeforeClose.ran (h : ReadsBeforeClose p) {job : StorageJob} {rest : List StorageJob}
    (hJobs : p.jobs = job :: rest) (hRan : Ran job { p with jobs := rest } p') :
    ReadsBeforeClose p' := by
  have hOrder := h.order
  rw [hJobs, List.pairwise_cons] at hOrder
  refine ⟨fun hRun => ?_, ?_, fun hClosed later hMem => ?_⟩
  · rw [hRan.instance_eq] at hRun
    obtain ⟨hOpen, hNotIn⟩ := h.running hRun
    rw [hJobs, List.mem_cons, not_or] at hNotIn
    rw [hRan.jobs_eq]
    exact ⟨(hRan.running_eq.resolve_right (hNotIn.1 ·.symm)).trans hOpen, hNotIn.2⟩
  · rw [hRan.jobs_eq]
    exact hOrder.2
  · rw [hRan.jobs_eq] at hMem
    rcases hRan.running_eq with hSame | hClose
    · exact h.closed (hSame.symm.trans hClosed) later (hJobs ▸ List.mem_cons_of_mem _ hMem)
    · exact hOrder.1 later hMem hClose

theorem ReadsBeforeClose.step (h : ReadsBeforeClose p)
    (hWrites : ∀ b set, .save (.threadPendingHashBlock b set) ∈ p.jobs → set ≠ [])
    (hStep : Step md5 p a p') : ReadsBeforeClose p' := by
  unfold Step next at hStep
  cases a with
  | asyncAddSubPiece info buf =>
      dsimp only at hStep
      split at hStep
      · obtain ⟨_, -, hEq⟩ := Option.map_eq_some_iff.mp hStep
        cases hEq
        exact h.same rfl rfl rfl
      · cases hStep
  | removeBlockDataFromMemCache b =>
      dsimp only at hStep
      split at hStep
      · obtain ⟨⟨m, saves⟩, -, rfl⟩ := Option.map_eq_some_iff.mp hStep
        exact h.append rfl (fun hRun => ⟨hRun, fun hMem => (save_not_read saves _ hMem).2 rfl⟩) rfl
          fun job hMem => (save_not_read saves job hMem).1
      · cases hStep
  | saveBlock b =>
      dsimp only at hStep
      split at hStep
      · obtain ⟨⟨m, saves⟩, -, rfl⟩ := Option.map_eq_some_iff.mp hStep
        exact h.append rfl (fun hRun => ⟨hRun, fun hMem => (save_not_read saves _ hMem).2 rfl⟩) rfl
          fun job hMem => (save_not_read saves job hMem).1
      · cases hStep
  | readFromDisk start left allocated =>
      dsimp only at hStep
      split at hStep
      · rename_i hRun
        dsimp only [readFromDisk] at hStep
        split at hStep
        · cases hStep
          exact h
        · obtain ⟨⟨m, reading⟩, -, hEq⟩ := Option.map_eq_some_iff.mp hStep
          dsimp only at hEq
          generalize (if reading = true then
            min allocated (m.getTotalSubpieceCountInBlock start.blockIndex) else 0) = buffs at hEq
          split at hEq
          · subst hEq
            exact h.read rfl hRun rfl fun hEq => by cases hEq
          · subst hEq
            exact h.same rfl rfl rfl
      · cases hStep
  | setRidInfo r' =>
      cases hStep
      exact h.same rfl rfl rfl
  | postFileJob close =>
      cases hStep
      refine h.append rfl (fun hRun => ⟨hRun, ?_⟩) rfl ?_
      · cases close <;> exact fun hMem => by cases List.mem_singleton.mp hMem
      · cases close <;> exact fun job hMem => by rw [List.mem_singleton.mp hMem]; rfl
  | remove =>
      dsimp only at hStep
      split at hStep
      · cases hStep
        refine h.append rfl (fun hRun => by cases hRun) rfl ?_
        exact fun job hMem => by rw [List.mem_singleton.mp hMem]; rfl
      · cases hStep
  | storageThread disk =>
      dsimp only at hStep
      cases hJobs : p.jobs with
      | nil =>
          rw [hJobs] at hStep
          cases hStep
      | cons job rest =>
          rw [hJobs] at hStep
          cases hStep
          exact h.ran hJobs (runJob_ran md5 { p with jobs := rest } disk job fun b set hSave =>
            hWrites b set (by rw [hJobs, hSave]; exact List.mem_cons_self ..))
  | mainThread =>
      dsimp only at hStep
      split at hStep
      · cases hStep
      · obtain ⟨hInstance, hRunning, new, hJobs, hNew⟩ := runTask_posts hStep
        exact h.append hJobs (fun hRun => ⟨hInstance.symm.trans hRun, fun hMem => (hNew _ hMem).2 rfl⟩)
          hRunning fun job hMem => (hNew job hMem).1
  | reopen m actualSize hasEncrypted =>
      dsimp only at hStep
      split at hStep
      · cases hStep
      · cases hStep
        exact readsBeforeClose_start m actualSize hasEncrypted p.file

end Closing

end Pipeline

end Storage
