import Peer.Storage.WriteThrough

/-! When a block that is being read comes back. `ReadFromDisk` sets the state
`READING` before it knows whether a job will be posted, and the job may end without
a word to the main thread. -/
namespace Storage

open Basis

variable {μ : Type} [BlockMap μ] {r : RidInfo} {md5 : Bytes → Guid}

/-- The task ends a read of block `b`. -/
def MainTask.EndsReadOf (b : Nat) : MainTask → Prop
  | .threadReadBufferForPlayHelper info _ _ => info.blockIndex = b
  | .onReportBlockReadFailed info => info.blockIndex = b
  | _ => False

/-- Every read gets the memory for a whole block, and runs with a file that is open or
can be opened again. -/
def PipelineAction.ReadsWhole (r : RidInfo) (p : Pipeline μ) : PipelineAction μ → Prop
  | .readFromDisk start left allocated =>
      100 ≤ left → (∃ m, p.manager.setBlockReading start.blockIndex = some (m, true)) →
        r.capacity start.blockIndex ≤ allocated
  | .storageThread disk => ∀ info buffs play rest,
      p.jobs = .threadReadBufferForPlay info buffs play :: rest →
        p.fileOpen = true ∨ disk.canReopen = true
  | _ => True

namespace SubPieceManager

variable {m m' : SubPieceManager μ} {op : StoreOp} {b : Nat} {info : SubPieceInfo}

/-- A node whose memory is complete is not one that can be read. -/
def Rereadable (r : RidInfo) (b : Nat) (node : BlockNode) (_ : Bool) : Prop :=
  node.totalSubpieceCount = r.capacity b ∧
    (node.nodeState = .disk ∨ node.nodeState = .reading → node.keys.card ≠ r.capacity b)

theorem not_idle_of_not_onDisk {node : BlockNode} (h : node.isBlockSavedOnDisk = false) :
    ¬ (node.nodeState = .disk ∨ node.nodeState = .reading) := by
  rintro (hState | hState) <;> rw [BlockNode.isBlockSavedOnDisk, hState] at h <;> cases h

theorem Rereadable.loaded {node : BlockNode} {bit : Bool} (h : Rereadable r b node bit) {i : Nat}
    {buf : SubPieceBuffer} : Rereadable r b (node.loadSubPieceBuffer i buf).1 bit := by
  by_cases hIn : i ∈ node.keys
  · rw [BlockNode.loadSubPieceBuffer_of_mem hIn]
    exact h
  · have hLoaded := BlockNode.loadSubPieceBuffer_loaded node i buf
    obtain ⟨-, -, -, hState⟩ := BlockNode.loadSubPieceBuffer_of_notMem buf hIn
    refine ⟨hLoaded.shape.total_eq.trans h.1, fun hIdle => ?_⟩
    rw [hLoaded.keys_eq, ← h.1]
    intro hCard
    rw [hState, if_pos hCard] at hIdle
    rcases hIdle with hIdle | hIdle <;> cases hIdle

theorem Rereadable.rules (hr : r.Addressable) (hm : BuiltFor r m) :
    NodeRules ⟨true, md5⟩ m op (Rereadable r) where
  created info buf _ _ hLt := by
    refine ⟨hm.newBlockCapacity_eq hr (hm.length_eq ▸ hLt), fun hIdle => ?_⟩
    rcases hIdle with hIdle | hIdle <;> cases hIdle
  added info buf node node' flag _ h hFull hCall := by
    have hAdded := BlockNode.addSubpiece_added hFull hCall
    exact ⟨hAdded.shape.total_eq.trans h.1, fun hIdle =>
      absurd hIdle (not_idle_of_not_onDisk hAdded.onDisk)⟩
  loaded info content node bit _ _ h := h.loaded
  fromDisk b _ hLt := by
    refine ⟨hm.getBlockSubPieceCount_eq hr (hm.length_eq ▸ hLt), fun _ hCard => ?_⟩
    have hPos := RidInfo.capacity_pos hr.toValid b
    rw [BlockNode.create_keys, Finset.card_empty] at hCard
    omega
  reading b node bit _ h := by
    refine ⟨(BlockNode.setBlockReading_shape node).total_eq.trans h.1, fun hIdle => ?_⟩
    rw [BlockNode.setBlockReading_keys]
    refine h.2 ?_
    unfold BlockNode.setBlockReading at hIdle
    split at hIdle
    · rename_i hDisk
      exact Or.inl hDisk
    · exact hIdle
  taken _ _ _ _ hMode := by cases hMode
  evicted _ _ _ _ _ hMode := by cases hMode
  cleared b node node' bit play _ hFull h hClear := by
    have hCleared := BlockNode.clearBlockMemCache_cleared hClear
    refine ⟨hCleared.shape.total_eq.trans h.1, fun hIdle => absurd hIdle ?_⟩
    exact not_idle_of_not_onDisk
      (hCleared.onDisk_eq.trans (BlockNode.not_onDisk_of_not_full hFull))
  reset info node bit _ _ h := by
    refine ⟨h.1, fun hIdle => ?_⟩
    rcases hIdle with hIdle | hIdle <;> cases hIdle

omit [BlockMap μ] in
/-- Only `SetBlockReading` puts a node in the state `READING`. -/
theorem reading_rules (S : Nat → Prop) (hOp : ∀ b, op ≠ .setBlockReading b) :
    NodeRules ⟨true, md5⟩ m op fun b node _ => node.nodeState = .reading → S b where
  created _ _ _ _ _ hState := by cases hState
  added _ _ _ _ _ _ _ hFull hCall hState :=
    absurd (Or.inr hState) (not_idle_of_not_onDisk (BlockNode.addSubpiece_added hFull hCall).onDisk)
  loaded info content node bit _ _ h hState := by
    refine h ?_
    by_cases hIn : info.subpieceIndex ∈ node.keys
    · rwa [BlockNode.loadSubPieceBuffer_of_mem hIn] at hState
    · rw [(BlockNode.loadSubPieceBuffer_of_notMem _ hIn).2.2.2] at hState
      split at hState
      · cases hState
      · exact hState
  fromDisk b hEq := absurd hEq (hOp b)
  reading b _ _ hEq := absurd hEq (hOp b)
  taken _ _ _ _ hMode := by cases hMode
  evicted _ _ _ _ _ hMode := by cases hMode
  cleared _ _ _ _ _ _ hFull _ hClear hState :=
    absurd (Or.inr hState) (not_idle_of_not_onDisk
      ((BlockNode.clearBlockMemCache_cleared hClear).onDisk_eq.trans
        (BlockNode.not_onDisk_of_not_full hFull)))
  reset _ _ _ _ _ _ hState := by cases hState

theorem rereadable_of_opens (hr : r.Addressable) (h : Opens r m) : NodesHave (Rereadable r) m := by
  intro b node hNode
  obtain ⟨hDisk, hTotal, -⟩ := h.node hNode
  refine ⟨hTotal, fun _ hCard => ?_⟩
  have hPos := RidInfo.capacity_pos hr.toValid b
  rw [hDisk.keys_eq, Finset.card_empty] at hCard
  omega

theorem setBlockReading_true (hLt : b < m.blocks.length) {reading : Bool}
    (h : m.setBlockReading b = some (m', reading)) {node' : BlockNode}
    (hNode' : m'.nodeAt b = some node') (hState : node'.nodeState = .reading) :
    reading = true ∨ m.nodeAt b = some node' := by
  unfold setBlockReading at h
  rw [if_pos hLt] at h
  split at h
  · rename_i node hNode
    cases h
    rw [setNode_nodeAt_self hLt] at hNode'
    cases hNode'
    unfold BlockNode.setBlockReading at hState ⊢
    split
    · exact Or.inl rfl
    · exact Or.inr hNode
  · split at h
    · cases h
      exact Or.inl rfl
    · cases h
      exact Or.inr hNode'

section Load

/-- A load keeps what is in memory. -/
theorem LoadsInto.mem_keys (hSized : Sized m) (hOp : LoadsInto r b op)
    (hStep : Step ⟨true, md5⟩ m op m') {k : Nat}
    (h : ∀ node, m.nodeAt b = some node → k ∈ node.keys) :
    ∀ node, m'.nodeAt b = some node → k ∈ node.keys := by
  obtain ⟨info, content, rfl, rfl, -⟩ := hOp
  obtain ⟨⟨result, loaded⟩, hLoad, rfl⟩ := Option.map_eq_some_iff.mp hStep
  intro node' hNode'
  rcases loadSubPiece_step hSized hLoad with ⟨-, hSame⟩ | ⟨node, loaded, hNode, -, hLoaded, hBecomes⟩
  · exact h node' (hSame ▸ hNode')
  · cases hBecomes.nodeAt_self.symm.trans hNode'
    rw [hLoaded.keys_eq]
    exact Finset.mem_insert_of_mem (h node hNode)

/-- A node that is being read stays so under loads, until it is complete. -/
theorem LoadsInto.reading (hSized : Sized m) (hOp : LoadsInto r b op)
    (hStep : Step ⟨true, md5⟩ m op m')
    (h : ∃ node, m.nodeAt b = some node ∧ (node.nodeState = .reading ∨ node.nodeState = .all)) :
    ∃ node, m'.nodeAt b = some node ∧ (node.nodeState = .reading ∨ node.nodeState = .all) := by
  obtain ⟨info, content, rfl, rfl, -⟩ := hOp
  obtain ⟨⟨result, loaded⟩, hLoad, rfl⟩ := Option.map_eq_some_iff.mp hStep
  obtain ⟨node, hNode, hState⟩ := h
  rcases loadSubPiece_step hSized hLoad with ⟨hNone, -⟩ | ⟨node', loaded, hNode', rfl, -, hBecomes⟩
  · rw [hNode] at hNone
    cases hNone
  · cases hNode.symm.trans hNode'
    refine ⟨_, hBecomes.nodeAt_self, ?_⟩
    by_cases hIn : info.subpieceIndex ∈ node.keys
    · rw [BlockNode.loadSubPieceBuffer_of_mem hIn]
      exact hState
    · rw [(BlockNode.loadSubPieceBuffer_of_notMem _ hIn).2.2.2]
      split
      · exact Or.inr rfl
      · exact hState

/-- Contents that end inside their block are loaded, and are then in memory. -/
theorem loadContents_loads (hr : r.Addressable) {contents : List SubPieceContent} {rounds : Nat}
    (hRounds : contents.length < rounds) (hm : BuiltFor r m) (hb : info.blockIndex < r.blockCount)
    (hs : info.subpieceIndex + contents.length ≤ r.capacity info.blockIndex) :
    ∃ m', m.loadContents rounds info contents = some m' ∧
      ∀ node, m'.nodeAt info.blockIndex = some node →
        ∀ k, info.subpieceIndex ≤ k → k < info.subpieceIndex + contents.length → k ∈ node.keys := by
  induction contents generalizing m info rounds with
  | nil =>
      obtain ⟨rounds, rfl⟩ := Nat.exists_eq_add_one_of_ne_zero (Nat.ne_of_gt hRounds)
      refine ⟨m, rfl, fun node _ k hLo hHi => ?_⟩
      rw [List.length_nil] at hHi
      omega
  | cons content rest ih =>
      rw [List.length_cons] at hs hRounds
      obtain ⟨rounds, rfl⟩ := Nat.exists_eq_add_one_of_ne_zero (show rounds ≠ 0 by omega)
      obtain ⟨loaded, flag, hLoad⟩ : ∃ loaded flag,
          m.loadSubPiece info content.bytes = some (loaded, flag) := by
        unfold loadSubPiece
        rw [if_pos (hm.length_eq ▸ hb)]
        split <;> exact ⟨_, _, rfl⟩
      have hCases := loadSubPiece_step hm.sized hLoad
      have hBuilt : BuiltFor r loaded := by
        rcases hCases with ⟨-, hSame⟩ | ⟨_, _, _, -, -, hBecomes⟩
        · exact hSame ▸ hm
        · exact hm.becomes hBecomes
      have hFirst : ∀ node, loaded.nodeAt info.blockIndex = some node →
          info.subpieceIndex ∈ node.keys := by
        intro node hNode
        rcases hCases with ⟨hNone, hSame⟩ | ⟨_, _, _, -, hLoaded, hBecomes⟩
        · rw [hSame, hNone] at hNode
          cases hNode
        · cases hBecomes.nodeAt_self.symm.trans hNode
          rw [hLoaded.keys_eq]
          exact Finset.mem_insert_self _ _
      unfold loadContents
      rw [hLoad, Option.bind_some]
      dsimp only
      cases rest with
      | nil =>
          obtain ⟨rounds, rfl⟩ := Nat.exists_eq_add_one_of_ne_zero (show rounds ≠ 0 by
            rw [List.length_nil] at hRounds; omega)
          rw [loadContents, ite_self]
          refine ⟨loaded, rfl, fun node hNode k hLo hHi => ?_⟩
          rw [List.length_singleton] at hHi
          obtain rfl : k = info.subpieceIndex := by omega
          exact hFirst node hNode
      | cons next rest =>
          have hFew : (next :: rest).length < rounds := by omega
          rw [List.length_cons] at hs
          have hSize := hr.blockSize_le
          have hCap := RidInfo.capacity_le hr.toValid info.blockIndex
          rw [hBuilt.incSubPieceInfo hr hb (by omega), if_pos rfl]
          have hBlock : (SubPieceInfo.make info.blockIndex (info.subpieceIndex + 1)).blockIndex =
              info.blockIndex := u16_of_lt info.blockIndex_lt
          have hIndex : (SubPieceInfo.make info.blockIndex (info.subpieceIndex + 1)).subpieceIndex =
              info.subpieceIndex + 1 := u16_of_lt (by omega)
          have hInside : info.subpieceIndex + 1 + (next :: rest).length ≤
              r.capacity info.blockIndex := by
            rw [List.length_cons]
            omega
          obtain ⟨m', hRest, hKeys⟩ := ih hFew hBuilt (by rw [hBlock]; exact hb)
            (by rw [hIndex, hBlock]; exact hInside)
          refine ⟨m', hRest, fun node hNode k hLo hHi => ?_⟩
          rw [hBlock, hIndex] at hKeys
          by_cases hk : k = info.subpieceIndex
          · -- The loads after the first one keep what it brought.
            have run := loadContents_run (fun _ => Guid.zero) hr hBuilt (by rw [hBlock]; exact hb)
              (by rw [hIndex, hBlock]; exact hInside) hRest
            rw [hBlock] at run
            have hKept := run.invariant (P := fun x => BuiltFor r x ∧
              ∀ node, x.nodeAt info.blockIndex = some node → info.subpieceIndex ∈ node.keys)
              ⟨hBuilt, hFirst⟩ fun x op y hx hOp hStep => by
                refine ⟨?_, hOp.mem_keys hx.1.sized hStep hx.2⟩
                obtain ⟨_, _, -, -, hWhole⟩ := hOp
                exact hx.1.step hWhole.keepsGeometry hStep
            rw [hk]
            exact hKept.2 node hNode
          · refine hKeys node hNode k (by omega) ?_
            simp only [List.length_cons] at hHi ⊢
            omega

end Load

end SubPieceManager

namespace Pipeline

open SubPieceManager

variable {p p' : Pipeline μ} {a : PipelineAction μ} {b : Nat}

/-- Block `b` has a read job in the queue, or the task that ends one. -/
def Outstanding (p : Pipeline μ) (b : Nat) : Prop :=
  (∃ info buffs play, .threadReadBufferForPlay info buffs play ∈ p.jobs ∧ info.blockIndex = b) ∨
    ∃ task ∈ p.tasks, task.EndsReadOf b

omit [BlockMap μ] in
theorem Outstanding.mono (h : Outstanding p b) (hJobs : ∀ job ∈ p.jobs, job ∈ p'.jobs)
    (hTasks : ∀ task ∈ p.tasks, task ∈ p'.tasks) : Outstanding p' b := by
  rcases h with ⟨info, buffs, play, hMem, hBlock⟩ | ⟨task, hMem, hEnds⟩
  · exact Or.inl ⟨info, buffs, play, hJobs _ hMem, hBlock⟩
  · exact Or.inr ⟨task, hTasks _ hMem, hEnds⟩

/-- What is under way for the reads: every job and every answer is for a whole block,
and a block that is being read has one. -/
structure ReadsReturn (r : RidInfo) (p : Pipeline μ) : Prop extends Underway r p where
  rereadable : NodesHave (Rereadable r) p.manager
  wholeJobs : ∀ info buffs play, .threadReadBufferForPlay info buffs play ∈ p.jobs →
    buffs = r.capacity info.blockIndex
  wholeTasks : ∀ info buffs play, .threadReadBufferForPlayHelper info buffs play ∈ p.tasks →
    buffs.length = r.capacity info.blockIndex
  failedTasks : ∀ info, .onReportBlockReadFailed info ∈ p.tasks → info.blockIndex < r.blockCount
  outstanding : ∀ b node, p.manager.nodeAt b = some node → node.nodeState = .reading →
    Outstanding p b

section Ends

/-- The task at the end of a read runs, and the block is then in memory or empty. -/
theorem ReadsReturn.restores (h : ReadsReturn r p) (hr : r.Addressable) {task : MainTask}
    {rest : List MainTask} (hTasks : p.tasks = task :: rest) (hEnds : task.EndsReadOf b) :
    ∃ p', runTask { p with tasks := rest } task = some p' ∧
      ∀ node, p.manager.nodeAt b = some node → node.nodeState = .reading →
        ∃ node', p'.manager.nodeAt b = some node' ∧
          (node'.nodeState = .all ∨ node'.nodeState = .empty) := by
  have hHead : task ∈ p.tasks := hTasks ▸ List.mem_cons_self ..
  cases task with
  | threadReadBufferForPlayHelper info buffs play =>
      obtain rfl : info.blockIndex = b := hEnds
      obtain ⟨hb, hs, hCount⟩ := h.readTasks info buffs play hHead
      have hWhole := h.wholeTasks info buffs play hHead
      have hFew : buffs.length < 2 ^ 16 := by
        have hCap := RidInfo.capacity_le hr.toValid info.blockIndex
        have hSize := hr.blockSize_le
        omega
      obtain ⟨m, hLoad, hKeys⟩ := loadContents_loads hr hFew h.builtFor hb
        (show info.subpieceIndex + buffs.length ≤ r.capacity info.blockIndex by omega)
      have run := loadContents_run (fun _ => Guid.zero) hr h.builtFor hb
        (show info.subpieceIndex + buffs.length ≤ r.capacity info.blockIndex by omega) hLoad
      refine ⟨{ p with tasks := rest, manager := m }, by simp only [runTask, hLoad]; rfl,
        fun node hNode hState => ?_⟩
      obtain ⟨node', hNode', hState'⟩ := (run.invariant (P := fun x => BuiltFor r x ∧
        ∃ node, x.nodeAt info.blockIndex = some node ∧
          (node.nodeState = .reading ∨ node.nodeState = .all))
        ⟨h.builtFor, node, hNode, Or.inl hState⟩ fun x op y hx hOp hStep => by
          refine ⟨?_, hOp.reading hx.1.sized hStep hx.2⟩
          obtain ⟨_, _, -, -, hOp⟩ := hOp
          exact hx.1.step hOp.keepsGeometry hStep).2
      refine ⟨node', hNode', Or.inl (hState'.resolve_left fun hReading => ?_)⟩
      -- All subpieces are in memory now, which is not so while a node can be read.
      have hRun : Reaches (SubPieceManager.Step ⟨true, fun _ => Guid.zero⟩)
          (fun _ op => op.WholeSubpieces r) p.manager m :=
        run.mono fun _ _ hCall => by
          obtain ⟨_, _, -, -, hOp⟩ := hCall
          exact hOp
      have hReady := (nodes_of_calls (fun _ => StoreOp.WholeSubpieces.keepsGeometry)
        (fun _ _ => WriteReady.rules hr) h.builtFor h.ready hRun).2 _ _ hNode'
      have hReread := (nodes_of_calls (fun _ => StoreOp.WholeSubpieces.keepsGeometry)
        (fun _ _ hBuilt _ => Rereadable.rules hr hBuilt) h.builtFor h.rereadable hRun).2 _ _ hNode'
      refine hReread.2 (Or.inr hReading) ?_
      have hRange : Finset.range (r.capacity info.blockIndex) ⊆ node'.keys := fun k hk =>
        hKeys node' hNode' k (by omega) (by have := Finset.mem_range.mp hk; omega)
      rw [hReady.keys_subset.antisymm hRange, Finset.card_range]
  | onReportBlockReadFailed info =>
      obtain rfl : info.blockIndex = b := hEnds
      have hLt : info.blockIndex < p.manager.blocks.length := by
        rw [h.builtFor.length_eq]
        exact h.failedTasks info hHead
      obtain ⟨m, hFail⟩ : ∃ m, p.manager.onReportBlockReadFailed info = some m := by
        unfold onReportBlockReadFailed
        rw [if_pos hLt]
        dsimp only
        split <;> exact ⟨_, rfl⟩
      refine ⟨{ p with tasks := rest, manager := m }, by simp only [runTask, hFail]; rfl,
        fun node hNode _ => ?_⟩
      have hBecomes := onReportBlockReadFailed_step h.builtFor.sized hFail
      rw [hNode] at hBecomes
      exact ⟨node.resetForReDownload, hBecomes.nodeAt_self, Or.inr rfl⟩
  | _ => cases hEnds

omit [BlockMap μ] in
/-- A read job on an open resource posts the task that ends it. -/
theorem threadReadBufferForPlay_posts {disk : DiskAnswers} (info : SubPieceInfo) (buffs : Nat)
    (play : SubPieceInfo) (hRunning : p.isRunning = true)
    (hOpen : p.fileOpen = true ∨ disk.canReopen = true) :
    ∃ task : MainTask, (p.threadReadBufferForPlay disk info buffs play).tasks = p.tasks ++ [task] ∧
      task.EndsReadOf info.blockIndex := by
  have hReopen : p.reopenFile disk = some { p with fileOpen := true } := by
    rw [reopenFile, if_pos (by rw [Bool.or_eq_true]; exact hOpen)]
  unfold threadReadBufferForPlay
  rw [hRunning, Bool.not_true, if_neg Bool.false_ne_true, hReopen]
  dsimp only
  split
  · exact ⟨.threadReadBufferForPlayHelper _ _ _, rfl, rfl⟩
  · exact ⟨.onReportBlockReadFailed _, rfl, rfl⟩

end Ends

/-- No block stays in the state `READING`: it has a job or a task under way, the job
posts a task when it ends, and the task puts the block in memory or empties it. `guard`
restricts the steps of the storage thread. -/
structure ReadsEnd (md5 : Bytes → Guid) (guard : Pipeline μ → PipelineAction μ → Prop)
    (p : Pipeline μ) : Prop where
  outstanding : ∀ b node, p.manager.nodeAt b = some node → node.nodeState = .reading →
    Outstanding p b
  answers : ∀ disk info buffs play rest p', p.jobs = .threadReadBufferForPlay info buffs play :: rest →
    guard p (.storageThread disk) → Step md5 p (.storageThread disk) p' →
      ∃ task : MainTask, p'.tasks = p.tasks ++ [task] ∧ task.EndsReadOf info.blockIndex
  restores : ∀ b task rest, p.tasks = task :: rest → task.EndsReadOf b →
    ∃ p', Step md5 p .mainThread p' ∧
      ∀ node, p.manager.nodeAt b = some node → node.nodeState = .reading →
        ∃ node', p'.manager.nodeAt b = some node' ∧
          (node'.nodeState = .all ∨ node'.nodeState = .empty)

theorem ReadsReturn.readsEnd (h : ReadsReturn r p) (hr : r.Addressable)
    (hClose : ReadsBeforeClose p) : ReadsEnd md5 (fun p a => a.ReadsWhole r p) p where
  outstanding := h.outstanding
  answers disk info buffs play rest p' hJobs hWhole hStep := by
    have hRunning := hClose.isRunning hJobs rfl
    have hOpen := hWhole info buffs play rest hJobs
    unfold Step next at hStep
    dsimp only at hStep
    rw [hJobs] at hStep
    cases hStep
    exact threadReadBufferForPlay_posts (p := { p with jobs := rest }) info buffs play hRunning hOpen
  restores b task rest hTasks hEnds := by
    obtain ⟨p', hTask, hRestored⟩ := h.restores hr hTasks hEnds
    refine ⟨p', ?_, hRestored⟩
    unfold Step next
    dsimp only
    rw [hTasks]
    exact hTask

section Steps

theorem readsReturn_start {m : SubPieceManager μ} (hr : r.Addressable) (h : Opens r m)
    (actualSize : Nat) (hasEncrypted : Bool) (file : Nat → Option Bytes) :
    ReadsReturn r (start m actualSize hasEncrypted file) :=
  { underway_start h actualSize hasEncrypted file with
    rereadable := rereadable_of_opens hr h
    wholeJobs := fun _ _ _ hMem => by cases hMem
    wholeTasks := fun _ _ _ hMem => by cases hMem
    failedTasks := fun _ hMem => by cases hMem
    outstanding := fun b node hNode hState => by
      rw [(h.node hNode).1.state_eq] at hState
      cases hState }

/-- Quiet calls make no block one that is being read. -/
theorem QuietRun.reading {tasks : List MainTask} {m m' : SubPieceManager μ} {S : Nat → Prop}
    (hm : BuiltFor r m) (run : QuietRun r md5 tasks m m')
    (hOld : ∀ b node, m.nodeAt b = some node → node.nodeState = .reading → S b) :
    ∀ b node, m'.nodeAt b = some node → node.nodeState = .reading → S b := by
  refine (nodes_of_calls (P := fun b node _ => node.nodeState = .reading → S b)
    (G := fun op => op.WholeSubpieces r ∧ Quiet tasks op) (fun _ hOp => hOp.1.keepsGeometry)
    (fun _ _ _ hOp => reading_rules S fun b hEq => ?_) hm hOld run).2
  subst hEq
  exact hOp.2

theorem ReadsReturn.called (h : ReadsReturn r p) (hNext : Underway r p')
    (hReread : NodesHave (Rereadable r) p'.manager)
    (hRun : QuietRun r md5 p.tasks p.manager p'.manager) (hSame : Undisturbed p p')
    (hTasks : p'.tasks = p.tasks) : ReadsReturn r p' :=
  { hNext with
    rereadable := hReread
    wholeJobs := fun info buffs play hMem => h.wholeJobs info buffs play (hSame.mem_jobs hMem rfl)
    wholeTasks := fun info buffs play hMem => h.wholeTasks info buffs play (hTasks ▸ hMem)
    failedTasks := fun info hMem => h.failedTasks info (hTasks ▸ hMem)
    outstanding := fun b node hNode hState =>
      (hRun.reading h.builtFor h.outstanding b node hNode hState).mono
        (fun _ => hSame.mem_jobs_of_mem) fun _ hMem => hTasks ▸ hMem }

/-- A task that ends a read ends the state `READING` too, so that the reads that are
left have other tasks and jobs. -/
theorem ReadsReturn.task (h : ReadsReturn r p) (hr : r.Addressable) (hNext : Underway r p')
    (hReread : NodesHave (Rereadable r) p'.manager) {task : MainTask}
    (hTasks : p.tasks = task :: p'.tasks)
    (hTask : runTask { p with tasks := p'.tasks } task = some p')
    (hRun : QuietRun r md5 p.tasks p.manager p'.manager) (hSame : Undisturbed p p') :
    ReadsReturn r p' := by
  have hOld : ∀ t ∈ p'.tasks, t ∈ p.tasks := fun t hMem => hTasks ▸ List.mem_cons_of_mem _ hMem
  refine { hNext with
    rereadable := hReread
    wholeJobs := fun info buffs play hMem => h.wholeJobs info buffs play (hSame.mem_jobs hMem rfl)
    wholeTasks := fun info buffs play hMem => h.wholeTasks info buffs play (hOld _ hMem)
    failedTasks := fun info hMem => h.failedTasks info (hOld _ hMem)
    outstanding := fun b node hNode hState => ?_ }
  obtain ⟨hOut, before, hBefore, hReading⟩ := hRun.reading (S := fun b => Outstanding p b ∧
    ∃ node, p.manager.nodeAt b = some node ∧ node.nodeState = .reading) h.builtFor
    (fun b node hNode hState => ⟨h.outstanding b node hNode hState, node, hNode, hState⟩)
    b node hNode hState
  rcases hOut with ⟨info, buffs, play, hMem, hBlock⟩ | ⟨other, hMem, hEnds⟩
  · exact Or.inl ⟨info, buffs, play, hSame.mem_jobs_of_mem hMem, hBlock⟩
  · rw [hTasks] at hMem
    rcases List.mem_cons.mp hMem with rfl | hLater
    · obtain ⟨p'', hSome, hRestored⟩ := h.restores hr hTasks hEnds
      cases hTask.symm.trans hSome
      obtain ⟨node', hNode', hState'⟩ := hRestored before hBefore hReading
      cases hNode.symm.trans hNode'
      rw [hState] at hState'
      rcases hState' with hState' | hState' <;> cases hState'
    · exact Or.inr ⟨other, hLater, hEnds⟩

theorem ReadsReturn.evicted (h : ReadsReturn r p) {m : SubPieceManager μ} {saves : List SaveJob}
    {op : StoreOp} (hNext : Underway r (p.postSaves m saves)) (hReread : NodesHave (Rereadable r) m)
    (hOp : ∀ b, op ≠ .setBlockReading b)
    (hStep : SubPieceManager.Step ⟨true, md5⟩ p.manager op m) :
    ReadsReturn r (p.postSaves m saves) := by
  refine { hNext with
    rereadable := hReread
    wholeJobs := fun info buffs play hMem => h.wholeJobs info buffs play ?_
    wholeTasks := h.wholeTasks
    failedTasks := h.failedTasks
    outstanding := fun b node hNode hState => ?_ }
  · refine (List.mem_append.mp hMem).resolve_right fun hNew => ?_
    obtain ⟨job, -, hEq⟩ := List.mem_map.mp hNew
    cases hEq
  · have hOut := SubPieceManager.Step.nodes (reading_rules (Outstanding p) hOp) h.builtFor.sized
      hStep h.outstanding b node hNode hState
    exact hOut.mono (fun _ hMem => List.mem_append_left _ hMem) fun _ => id

/-- A read that is begun with memory for the whole block posts its job. -/
theorem ReadsReturn.read (h : ReadsReturn r p) (hr : r.Addressable) {start : SubPieceInfo}
    {allocated buffs : Nat} {m : SubPieceManager μ} {reading : Bool}
    (hWhole : reading = true → r.capacity start.blockIndex ≤ allocated)
    (hRead : p.manager.setBlockReading start.blockIndex = some (m, reading))
    (hBuffs : buffs =
      if reading then min allocated (m.getTotalSubpieceCountInBlock start.blockIndex) else 0)
    (hEq : p' = if 0 < buffs then ({ p with manager := m } : Pipeline μ).post
        (.threadReadBufferForPlay (.make start.blockIndex 0) buffs start)
      else { p with manager := m })
    (hNext : Underway r p') (hReread : NodesHave (Rereadable r) p'.manager) :
    ReadsReturn r p' := by
  have hManager : p'.manager = m := by
    rw [hEq]
    split <;> rfl
  have hTasks : p'.tasks = p.tasks := by
    rw [hEq]
    split <;> rfl
  have hJobs : p'.jobs = p.jobs ++
      if 0 < buffs then [.threadReadBufferForPlay (.make start.blockIndex 0) buffs start] else [] := by
    rw [hEq]
    split
    · rfl
    · exact (List.append_nil _).symm
  have hBlock : (SubPieceInfo.make start.blockIndex 0).blockIndex = start.blockIndex :=
    u16_of_lt start.blockIndex_lt
  have hBuilt : BuiltFor r m := hManager ▸ hNext.builtFor
  have hReady : NodesHave (WriteReady r) m := hManager ▸ hNext.ready
  have hCap : 0 < buffs → buffs = r.capacity start.blockIndex := by
    intro hPos
    rw [hBuffs] at hPos ⊢
    split at hPos
    · rename_i hReading
      have hEnough := hWhole hReading
      rcases total_of_ready hBuilt hReady start.blockIndex with hNone | ⟨-, hTotal⟩
      · omega
      · rw [if_pos hReading, hTotal]
        omega
    · omega
  refine { hNext with
    rereadable := hReread
    wholeJobs := fun info n play hMem => ?_
    wholeTasks := fun info n play hMem => h.wholeTasks info n play (hTasks ▸ hMem)
    failedTasks := fun info hMem => h.failedTasks info (hTasks ▸ hMem)
    outstanding := fun b node hNode hState => ?_ }
  · rw [hJobs] at hMem
    rcases List.mem_append.mp hMem with hOld | hNew
    · exact h.wholeJobs info n play hOld
    · split at hNew
      · rename_i hPos
        cases List.mem_singleton.mp hNew
        rw [hBlock]
        exact hCap hPos
      · cases hNew
  · rw [hManager] at hNode
    have hOld : p.manager.nodeAt b = some node → Outstanding p' b := fun hBefore =>
      (h.outstanding b node hBefore hState).mono
        (fun _ hMem => hJobs ▸ List.mem_append_left _ hMem) fun _ hMem => hTasks ▸ hMem
    rcases setBlockReading_step h.builtFor.sized hRead with ⟨-, -, hSame⟩ | ⟨_, -, hBecomes⟩
    · exact hOld (hSame ▸ hNode)
    by_cases hHere : b = start.blockIndex
    · subst hHere
      rcases setBlockReading_true hBecomes.block_lt hRead hNode hState with hReading | hBefore
      · have hTotal := (hReady _ node hNode).total_eq
        have hPos : 0 < buffs := by
          have hCapPos := RidInfo.capacity_pos hr.toValid start.blockIndex
          have hEnough := hWhole hReading
          rw [hBuffs, if_pos hReading, getTotalSubpieceCountInBlock, hNode]
          dsimp only
          omega
        refine Or.inl ⟨.make start.blockIndex 0, buffs, start, ?_, hBlock⟩
        rw [hJobs, if_pos hPos]
        exact List.mem_append_right _ (List.mem_singleton.mpr rfl)
      · exact hOld hBefore
    · exact hOld ((hBecomes.nodeAt_of_ne b hHere).symm.trans hNode)

/-- A job that runs on an open resource leaves the task that ends its read. -/
theorem ReadsReturn.ran (h : ReadsReturn r p) {disk : DiskAnswers} {job : StorageJob}
    {rest : List StorageJob} (hJobs : p.jobs = job :: rest)
    (hWhole : ∀ info buffs play, job = .threadReadBufferForPlay info buffs play →
      p.isRunning = true ∧ (p.fileOpen = true ∨ disk.canReopen = true))
    (hNext : Underway r (runJob md5 { p with jobs := rest } disk job))
    (hReread : NodesHave (Rereadable r) (runJob md5 { p with jobs := rest } disk job).manager) :
    ReadsReturn r (runJob md5 { p with jobs := rest } disk job) := by
  have hRan := runJob_ran md5 { p with jobs := rest } disk job fun b set hSave =>
    h.set_ne_nil b set (by rw [hJobs, hSave]; exact List.mem_cons_self ..)
  have hHead : job ∈ p.jobs := hJobs ▸ List.mem_cons_self ..
  obtain ⟨new, hTasks, hNew⟩ := hRan.tasks_eq
  refine { hNext with
    rereadable := hReread
    wholeJobs := fun info buffs play hMem => ?_
    wholeTasks := fun info buffs play hMem => ?_
    failedTasks := fun info hMem => ?_
    outstanding := fun b node hNode hState => ?_ }
  · rw [hRan.jobs_eq] at hMem
    exact h.wholeJobs info buffs play (hJobs ▸ List.mem_cons_of_mem _ hMem)
  · rw [hTasks] at hMem
    rcases List.mem_append.mp hMem with hOld | hIn
    · exact h.wholeTasks info buffs play hOld
    · have hAnswer := hNew _ hIn
      cases job with
      | threadReadBufferForPlay info' n play' =>
          obtain ⟨rfl, rfl⟩ := hAnswer
          exact h.wholeJobs _ _ play' hHead
      | save job => cases job <;> cases hAnswer
      | _ => cases hAnswer
  · rw [hTasks] at hMem
    rcases List.mem_append.mp hMem with hOld | hIn
    · exact h.failedTasks info hOld
    · have hAnswer := hNew _ hIn
      cases job with
      | threadReadBufferForPlay info' n play' =>
          obtain rfl : info = info' := hAnswer
          exact (h.readJobs _ _ play' hHead).1
      | save job => cases job <;> cases hAnswer
      | _ => cases hAnswer
  · rw [hRan.manager_eq] at hNode
    rcases h.outstanding b node hNode hState with ⟨info, buffs, play, hMem, hBlock⟩ |
      ⟨task, hMem, hEnds⟩
    · rw [hJobs] at hMem
      rcases List.mem_cons.mp hMem with rfl | hLater
      · obtain ⟨hRunning, hOpen⟩ := hWhole info buffs play rfl
        obtain ⟨task, hPosts, hEnds⟩ := threadReadBufferForPlay_posts
          (p := { p with jobs := rest }) info buffs play hRunning hOpen
        refine Or.inr ⟨task, ?_, hBlock ▸ hEnds⟩
        exact hPosts ▸ List.mem_append_right _ (List.mem_singleton.mpr rfl)
      · exact Or.inl ⟨info, buffs, play, hRan.jobs_eq ▸ hLater, hBlock⟩
    · exact Or.inr ⟨task, hTasks ▸ List.mem_append_left _ hMem, hEnds⟩

theorem ReadsReturn.step (h : ReadsReturn r p) (hr : r.Addressable)
    (hClose : ReadsBeforeClose p) (hAdmits : a.Admits r p) (hWhole : a.ReadsWhole r p)
    (hStep : Step md5 p a p') : ReadsReturn r p' := by
  have hNext := h.toUnderway.step hr hAdmits hStep
  have hCases := h.toUnderway.cases hr hAdmits hStep
  have hReread := (hCases.nodes (fun _ _ hBuilt _ => Rereadable.rules hr hBuilt)
    (fun _ => rereadable_of_opens hr) h.set_ne_nil h.builtFor h.rereadable).2
  cases hCases with
  | called hRun hSame hTasks => exact h.called hNext hReread hRun hSame hTasks
  | task task hTasks hTask hRun hSame => exact h.task hr hNext hReread hTasks hTask hRun hSame
  | evicted b m saves hSaves hEq =>
      subst hEq
      rcases hSaves with hEvict | hSave
      · have hEvict : SubPieceManager.Step ⟨true, md5⟩ p.manager
            (.removeBlockDataFromMemCache b) m := Option.map_eq_some_iff.mpr ⟨_, hEvict, rfl⟩
        exact h.evicted hNext hReread (fun _ hEq => by cases hEq) hEvict
      · have hSave : SubPieceManager.Step ⟨true, md5⟩ p.manager (.saveBlock b) m :=
          Option.map_eq_some_iff.mpr ⟨_, hSave, rfl⟩
        exact h.evicted hNext hReread (fun _ hEq => by cases hEq) hSave
  | read start left allocated buffs m reading hAction hLeft hRead hBuffs hEq =>
      subst hAction
      exact h.read hr (fun hReading => hWhole hLeft ⟨m, hReading ▸ hRead⟩) hRead hBuffs hEq hNext
        hReread
  | ran disk job rest hAction hJobs hEq =>
      subst hAction hEq
      refine h.ran hJobs (fun info buffs play hJob => ?_) hNext hReread
      exact ⟨hClose.isRunning hJobs (hJob ▸ rfl), hWhole info buffs play rest (hJob ▸ hJobs)⟩
  | reopened m actualSize hasEncrypted hOpens hEq =>
      subst hEq
      exact readsReturn_start hr hOpens actualSize hasEncrypted p.file

end Steps

/-- In every run whose reads get memory for whole blocks, and whose read jobs find the
file open or can open it, no block stays in the state `READING`. -/
theorem readsEnd_of_run (hr : r.Addressable) {m : SubPieceManager μ} (hOpens : Opens r m)
    {actualSize : Nat} {hasEncrypted : Bool} {file : Nat → Option Bytes}
    (run : Reaches (Step md5) (fun p a => a.Admits r p ∧ a.ReadsWhole r p)
      (start m actualSize hasEncrypted file) p) :
    ReadsEnd md5 (fun p a => a.ReadsWhole r p) p := by
  have h := run.invariant (P := fun p => ReadsReturn r p ∧ ReadsBeforeClose p)
    ⟨readsReturn_start hr hOpens actualSize hasEncrypted file,
      readsBeforeClose_start m actualSize hasEncrypted file⟩
    fun x a y hx hGuard hStep => ⟨hx.1.step hr hx.2 hGuard.1 hGuard.2 hStep,
      hx.2.step hx.1.set_ne_nil hStep⟩
  exact h.1.readsEnd hr h.2

section Runs

private def readableFile : RidInfo := singleBlock 1024 oneKib_lt_uint32

private theorem readableFile_addressable : readableFile.Addressable :=
  ⟨⟨by decide, ⟨2048, by decide⟩, by decide⟩, by decide, by decide⟩

/-- A block is downloaded, written and asked for again, after the file was closed. -/
private def writeAndRead : List (PipelineAction (List Bool)) :=
  [.asyncAddSubPiece (.make 0 0) ⟨List.replicate 1024 0, true⟩, .removeBlockDataFromMemCache 0,
    .storageThread goodDisk, .storageThread goodDisk, .mainThread, .mainThread,
    .storageThread goodDisk, .postFileJob true, .readFromDisk (.make 0 0) 100 1,
    .storageThread goodDisk]

/-- A disk on which the file cannot be opened again. -/
private def lostDisk : DiskAnswers := { goodDisk with canReopen := false }

private def readAgain : List (PipelineAction (List Bool)) :=
  writeAndRead ++ [.storageThread lostDisk]

private theorem writeAndRead_met (m : SubPieceManager (List Bool))
    (more : List (PipelineAction (List Bool)))
    (hMore : ∀ p, AllMet (next fun _ => Guid.zero)
      (fun p a => a.Admits readableFile p ∧ a.ReadsWhole readableFile p) p more) :
    AllMet (next fun _ => Guid.zero)
      (fun p a => a.Admits readableFile p ∧ a.ReadsWhole readableFile p)
      (start m 0 false fun _ => none) (writeAndRead ++ more) :=
  ⟨⟨fun _ => by decide +kernel, trivial⟩, fun _ _ => ⟨⟨trivial, trivial⟩, fun _ _ =>
    ⟨⟨trivial, fun _ _ _ _ _ => Or.inr rfl⟩, fun _ _ =>
    ⟨⟨trivial, fun _ _ _ _ _ => Or.inr rfl⟩, fun _ _ =>
    ⟨⟨trivial, trivial⟩, fun _ _ => ⟨⟨trivial, trivial⟩, fun _ _ =>
    ⟨⟨trivial, fun _ _ _ _ _ => Or.inr rfl⟩, fun _ _ => ⟨⟨trivial, trivial⟩, fun _ _ =>
    ⟨⟨trivial, fun _ _ => by decide +kernel⟩, fun _ _ =>
    ⟨⟨trivial, fun _ _ _ _ _ => Or.inr rfl⟩, fun _ _ => hMore _⟩⟩⟩⟩⟩⟩⟩⟩⟩⟩

/-- The block is being read, and its job is the only one in the queue. -/
theorem readsEnd_of_read_run : ∃ p : Pipeline (List Bool),
    ((p.manager.nodeAt 0).map (·.nodeState)) = some .reading ∧ p.jobs.length = 1 ∧
      ReadsEnd (fun _ => Guid.zero) (fun p a => a.ReadsWhole readableFile p) p := by
  obtain ⟨m, p, hRun, hNew, run⟩ := runFresh_reaches readableFile (writeAndRead ++ [])
    (fun p a => a.Admits readableFile p ∧ a.ReadsWhole readableFile p) (by decide +kernel)
    fun m _ => writeAndRead_met m [] fun _ => trivial
  have hState : ((runFresh readableFile (writeAndRead ++ [])).map fun p =>
      ((p.manager.nodeAt 0).map (·.nodeState), p.jobs.length)) = some (some .reading, 1) := by
    decide +kernel
  rw [hRun, Option.map_some, Option.some.injEq, Prod.mk.injEq] at hState
  exact ⟨p, hState.1, hState.2, readsEnd_of_run readableFile_addressable (.fresh false false hNew) run⟩

/-- When the file cannot be opened again the job ends without a word, and the block
stays in the state `READING` with nothing under way. -/
theorem readsEnd_of_reopen_fails :
    ¬ ∀ (md5 : Bytes → Guid) (r : RidInfo) (m : SubPieceManager (List Bool)) (actualSize : Nat)
      (hasEncrypted : Bool) (file : Nat → Option Bytes) (p : Pipeline (List Bool)),
      r.Addressable → Opens r m →
      Reaches (Step md5) (fun p a => a.Admits r p) (start m actualSize hasEncrypted file) p →
      ReadsEnd md5 (fun _ _ => True) p := by
  intro h
  obtain ⟨m, p, hRun, hNew, run⟩ := runFresh_reaches readableFile readAgain
    (fun p a => a.Admits readableFile p) (by decide +kernel)
    fun m _ => ⟨fun _ => by decide +kernel, fun _ _ => ⟨trivial, fun _ _ => ⟨trivial, fun _ _ =>
      ⟨trivial, fun _ _ => ⟨trivial, fun _ _ => ⟨trivial, fun _ _ => ⟨trivial, fun _ _ =>
      ⟨trivial, fun _ _ => ⟨trivial, fun _ _ => ⟨trivial, fun _ _ =>
      ⟨trivial, fun _ _ => trivial⟩⟩⟩⟩⟩⟩⟩⟩⟩⟩⟩
  have hState : ((runFresh readableFile readAgain).map fun p =>
      ((p.manager.nodeAt 0).map (·.nodeState), p.jobs.length, p.tasks.length)) =
      some (some .reading, 0, 0) := by decide +kernel
  rw [hRun, Option.map_some, Option.some.injEq, Prod.mk.injEq, Prod.mk.injEq] at hState
  obtain ⟨hNode, hJobs, hTasks⟩ := hState
  obtain ⟨node, hNode, hReading⟩ := Option.map_eq_some_iff.mp hNode
  rcases (h _ readableFile m 0 false (fun _ => none) p readableFile_addressable
      (.fresh false false hNew) run).outstanding 0 node hNode hReading with
    ⟨info, buffs, play, hMem, -⟩ | ⟨task, hMem, -⟩
  · rw [List.length_eq_zero_iff.mp hJobs] at hMem
    cases hMem
  · rw [List.length_eq_zero_iff.mp hTasks] at hMem
    cases hMem

end Runs

end Pipeline

end Storage
