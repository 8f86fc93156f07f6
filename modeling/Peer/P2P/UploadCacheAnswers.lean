import Peer.P2P.UploadCache

/-! Every request that was queued for an upload is answered once. The invariant keeps
one read for each block that is waited for; a running step holds the read of at most
one block in its hand. -/
namespace P2P

open Basis Storage

variable {μ : Type}

section Reading

/-- The subpiece lies in the block of which `block` are the bytes, and there is
memory for it. -/
def serves (store : Store μ) (rid : Guid) (info : SubPieceInfo) (block : Bytes)
    (allocated : Bool) : Bool :=
  match store.getInstanceByRID rid with
  | none => false
  | some i =>
      let (blockOffset, blockLen) := store.getBlockPosition i info.blockIndex
      let (subOffset, subLen) := store.getSubPiecePosition i info
      (store.managerOf i).isSome && allocated && blockLen == block.length &&
        blockOffset ≤ subOffset && subOffset - blockOffset + subLen ≤ block.length

theorem getSubPiecePosition_bounds (m : SubPieceManager μ) (info : SubPieceInfo) :
    (m.getSubPiecePosition info).1 < 2 ^ 32 ∧ 0 < (m.getSubPiecePosition info).2 := by
  constructor
  · exact u32_lt _
  · show 0 < if info = m.lastSubpieceInfo then _ else _
    split
    · exact Nat.succ_pos _
    · decide

/-- A block that serves the subpiece gives a buffer that is not empty. -/
theorem getSubPieceFromBlock_of_serves {store : Store μ} {rid : Guid} {info : SubPieceInfo}
    {block : Bytes} {allocated : Bool} (h : serves store rid info block allocated = true) :
    ∃ data, store.getSubPieceFromBlock info rid block allocated = some data ∧ data ≠ [] := by
  unfold serves at h
  unfold Store.getSubPieceFromBlock
  cases hInstance : store.getInstanceByRID rid with
  | none => simp [hInstance] at h
  | some i =>
      obtain ⟨m, hManager⟩ : ∃ m, store.managerOf i = some m := by
        apply Option.isSome_iff_exists.mp
        simp only [hInstance, Bool.and_eq_true] at h
        exact h.1.1.1.1
      obtain ⟨hLt, hPos⟩ := getSubPiecePosition_bounds m info
      simp only [hInstance, hManager, Store.getBlockPosition, Store.getSubPiecePosition,
        Option.isSome_some, Bool.true_and, Bool.and_eq_true, beq_iff_eq, decide_eq_true_eq] at h ⊢
      obtain ⟨⟨⟨hAllocated, hLength⟩, hBefore⟩, hRoom⟩ := h
      have hStart := subU32_of_le hLt hBefore
      have hSmall := u32_le (subU32 (m.getSubPiecePosition info).1
        (m.getBlockPosition info.blockIndex).1 + (m.getSubPiecePosition info).2)
      rw [if_neg (by rw [hStart] at hSmall; rw [hStart]; omega), if_pos hAllocated]
      refine ⟨_, rfl, ?_⟩
      intro hEmpty
      have hNone := congrArg List.length hEmpty
      rw [hStart, List.length_take, List.length_drop, List.length_nil] at hNone
      omega

/-- The stores agree on which instance has a RID and on where its subpieces lie. -/
structure SameGeometry (store store' : Store μ) : Prop where
  getInstanceByRID_eq : store'.getInstanceByRID = store.getInstanceByRID
  manager_eq : ∀ i, ∃ f : List Guid → List Guid, store'.managerOf i =
    (store.managerOf i).map fun m =>
      { m with ridInfo := { m.ridInfo with blockMd5s := f m.ridInfo.blockMd5s } }

theorem SameGeometry.serves_eq {store store' : Store μ} (h : SameGeometry store store')
    (rid : Guid) (info : SubPieceInfo) (block : Bytes) (allocated : Bool) :
    serves store' rid info block allocated = serves store rid info block allocated := by
  unfold serves
  rw [h.getInstanceByRID_eq]
  cases store.getInstanceByRID rid with
  | none => rfl
  | some i =>
      obtain ⟨f, hManager⟩ := h.manager_eq i
      cases hOld : store.managerOf i with
      | none =>
          rw [hOld, Option.map_none] at hManager
          simp only [Store.getBlockPosition, Store.getSubPiecePosition, hManager, hOld]
      | some m =>
          rw [hOld, Option.map_some] at hManager
          simp only [Store.getBlockPosition, Store.getSubPiecePosition, hManager, hOld]
          rfl

theorem SameGeometry.getRID_eq {store store' : Store μ} (h : SameGeometry store store') (i : Nat) :
    store'.getRID i = store.getRID i := by
  obtain ⟨f, hManager⟩ := h.manager_eq i
  unfold Store.getRID
  rw [hManager]
  cases store.managerOf i <;> rfl

theorem SameGeometry.refl (store : Store μ) : SameGeometry store store where
  getInstanceByRID_eq := rfl
  manager_eq i := ⟨id, by cases store.managerOf i <;> rfl⟩

theorem SameGeometry.trans {first second third : Store μ} (h : SameGeometry first second)
    (h' : SameGeometry second third) : SameGeometry first third where
  getInstanceByRID_eq := h'.getInstanceByRID_eq.trans h.getInstanceByRID_eq
  manager_eq i := by
    obtain ⟨f, hFirst⟩ := h.manager_eq i
    obtain ⟨g, hSecond⟩ := h'.manager_eq i
    refine ⟨g ∘ f, ?_⟩
    rw [hSecond, hFirst, Option.map_map]
    rfl

theorem setBlockMd5_geometry (store : Store μ) (i b : Nat) (hash : Guid) :
    SameGeometry store (store.setBlockMd5 i b hash) := by
  unfold Store.setBlockMd5
  cases hPointer : (store.instances i).subpieceManager with
  | none => exact .refl store
  | some k =>
      constructor
      · rfl
      · intro j
        show ∃ f : List Guid → List Guid, ((store.instances j).subpieceManager.map
          (Function.update store.managers k _)) = ((store.instances j).subpieceManager.map _).map _
        cases (store.instances j).subpieceManager with
        | none => exact ⟨id, rfl⟩
        | some k' =>
            by_cases hSame : k' = k
            · subst hSame
              refine ⟨fun md5s => md5s.set b hash, ?_⟩
              simp
            · refine ⟨id, ?_⟩
              simp [hSame]

theorem updateBlockHashTime_geometry {store store' : Store μ} {i b : Nat}
    (h : store.updateBlockHashTime i b = some store') : SameGeometry store store' := by
  unfold Store.updateBlockHashTime at h
  obtain ⟨resource, -, rfl⟩ := Option.map_eq_some_iff.mp h
  dsimp only
  split
  · exact .refl store
  · refine ⟨rfl, fun j => ⟨id, ?_⟩⟩
    have hPointer : (Function.update store.instances i { store.instances i with
        filesystemLastWriteTime := (store.resources resource).lastWriteTime
        blockHashTimeMap := Function.update
          (if (store.instances i).filesystemLastWriteTime =
              (store.resources resource).lastWriteTime then (store.instances i).blockHashTimeMap
            else fun _ => none) b (some store.time) } j).subpieceManager =
        (store.instances j).subpieceManager := by
      by_cases hSame : j = i
      · subst hSame
        simp
      · simp [hSame]
    show Option.map _ (Function.update store.instances i _ j).subpieceManager = _
    rw [hPointer]
    show _ = ((store.instances j).subpieceManager.map store.managers).map _
    cases (store.instances j).subpieceManager <;> rfl

/-- The read is about this block. -/
def ReadStage.IsOf (index : RBIndex) : ReadStage → Prop
  | .threadReadBlockForUpload _ rid b _ => rid = index.rid ∧ b = index.blockIndex
  | .onAsyncGetBlockFailed rid b _ => rid = index.rid ∧ b = index.blockIndex
  | .onReadBlockForUploadFinish _ b _ => b = index.blockIndex
  | .onReadBlockForUploadFinishWithHash _ b _ _ => b = index.blockIndex

/-- The instance runs, has its store and is registered under its own RID. -/
def readable (store : Store μ) (i : Nat) (rid : Guid) : Bool :=
  (store.instances i).isRunning && (store.managerOf i).isSome && store.getRID i == rid

/-- The MD5 of the block is not known yet or is this one. -/
def verifies (store : Store μ) (i b : Nat) (hash : Guid) : Bool :=
  (store.managerOf i).any fun m =>
    m.ridInfo.blockMd5s[b]? == some Guid.zero || m.ridInfo.blockMd5s[b]? == some hash

/-- What has to be so for a task to reach the listener, and whether it brings the block. -/
def answering (store : Store μ) (rid : Guid) : ReadStage → Bool
  | .onReadBlockForUploadFinish i _ _ => (store.instances i).isRunning && store.getRID i == rid
  | .onReadBlockForUploadFinishWithHash i _ _ _ => readable store i rid
  | _ => true

def blockOf (store : Store μ) : ReadStage → Option Bytes
  | .onReadBlockForUploadFinish _ _ buffer => some buffer
  | .onReadBlockForUploadFinishWithHash i b buffer hash =>
      if verifies store i b hash then some buffer else none
  | _ => none

/-- Such a task tells the listener about its block. -/
theorem runTask_of_answering {store store' : Store μ} {index : RBIndex} {stage : ReadStage}
    {answer : Option BlockAnswer} (h : answering store index.rid stage = true)
    (hStage : ReadStage.IsOf index stage) (hRun : store.runTask stage = some (store', answer)) :
    SameGeometry store store' ∧
      ((∃ code, answer = some (.failed index.rid index.blockIndex code)) ∨
        ∃ buffer, blockOf store stage = some buffer ∧
          answer = some (.succeeded index.rid index.blockIndex buffer)) := by
  cases stage with
  | threadReadBlockForUpload => cases hRun
  | onAsyncGetBlockFailed rid b code =>
      obtain ⟨rfl, rfl⟩ := hStage
      cases hRun
      exact ⟨.refl _, Or.inl ⟨code, rfl⟩⟩
  | onReadBlockForUploadFinish i b buffer =>
      obtain rfl : b = index.blockIndex := hStage
      simp only [answering, Bool.and_eq_true, beq_iff_eq] at h
      simp only [Store.runTask, Store.onReadBlockForUploadFinish, h.1, h.2, Bool.not_true,
        Bool.false_eq_true, if_false, Option.some.injEq, Prod.mk.injEq] at hRun
      obtain ⟨rfl, rfl⟩ := hRun
      exact ⟨.refl _, Or.inr ⟨buffer, rfl, rfl⟩⟩
  | onReadBlockForUploadFinishWithHash i b buffer hash =>
      obtain rfl : b = index.blockIndex := hStage
      simp only [answering, readable, Bool.and_eq_true, beq_iff_eq] at h
      obtain ⟨⟨hRunning, hSome⟩, hRid⟩ := h
      obtain ⟨m, hManager⟩ := Option.isSome_iff_exists.mp hSome
      simp only [Store.runTask, Store.onReadBlockForUploadFinishWithHash, hRunning, hManager,
        Bool.not_true, Bool.false_eq_true, if_false] at hRun
      cases hKnown : m.ridInfo.blockMd5s[index.blockIndex]? with
      | none => simp [hKnown] at hRun
      | some known =>
          simp only [hKnown] at hRun
          have hFirst : SameGeometry store (if known = Guid.zero then
              store.setBlockMd5 i index.blockIndex hash else store) := by
            split
            · exact setBlockMd5_geometry ..
            · exact .refl store
          split at hRun
          · rename_i hAccepted
            obtain ⟨store'', hUpdate, hEq⟩ := Option.map_eq_some_iff.mp hRun
            have hAll := hFirst.trans (updateBlockHashTime_geometry hUpdate)
            obtain ⟨rfl, rfl⟩ := Prod.mk.inj hEq
            refine ⟨hAll, Or.inr ⟨buffer, ?_, ?_⟩⟩
            · simp [blockOf, verifies, hManager, hKnown, hAccepted]
            · rw [hAll.getRID_eq, hRid]
          · obtain ⟨rfl, rfl⟩ := Prod.mk.inj (Option.some.inj hRun)
            refine ⟨hFirst, Or.inl ⟨.blockVerifyFailed, ?_⟩⟩
            rw [hFirst.getRID_eq, hRid]

variable [BlockMap μ]

/-- An instance that is readable refuses the block or posts the read. -/
theorem asyncGetBlock_of_readable {store : Store μ} {i : Nat} {index : RBIndex}
    (h : readable store i index.rid = true) :
    (∃ code, store.asyncGetBlock i index.blockIndex =
      .answered (.failed index.rid index.blockIndex code)) ∨
    ∃ job, store.asyncGetBlock i index.blockIndex = .posted job ∧ ReadStage.IsOf index job := by
  simp only [readable, Bool.and_eq_true, beq_iff_eq] at h
  obtain ⟨⟨hRunning, hSome⟩, hRid⟩ := h
  obtain ⟨m, hManager⟩ := Option.isSome_iff_exists.mp hSome
  unfold Store.asyncGetBlock
  rw [hRunning, hManager, hRid]
  dsimp only
  cases m.hasFullBlock index.blockIndex with
  | false => exact Or.inl ⟨_, rfl⟩
  | true =>
      cases (store.instances i).resource with
      | none => exact Or.inl ⟨_, rfl⟩
      | some resource => exact Or.inr ⟨_, rfl, rfl, rfl⟩

/-- The resource runs, and it has an instance unless the read fails. -/
def reportable (store : Store μ) (resource b : Nat) : Bool :=
  (store.resources resource).isRunning &&
    ((store.resources resource).instanceId.isSome || !(store.resources resource).isFileOpen ||
      ((store.resources resource).subpieceManager.map store.managers).any fun m =>
        !m.hasFullBlock b)

/-- A job whose resource is reportable ends in a task for the same block. -/
theorem threadReadBlockForUpload_of_reportable {md5 : Bytes → Guid} {store : Store μ}
    {resource : Nat} {index : RBIndex} {needHash : Bool} {fresh : Nat → UInt8} {disk : Bytes}
    {done : Option ReadStage} (h : reportable store resource index.blockIndex = true)
    (hRun : store.threadReadBlockForUpload md5 resource index.rid index.blockIndex needHash
      fresh disk = some done) :
    ∃ task, done = some task ∧ ReadStage.IsOf index task := by
  simp only [reportable, Bool.and_eq_true, Bool.or_eq_true] at h
  obtain ⟨hRunning, hWhy⟩ := h
  unfold Store.threadReadBlockForUpload at hRun
  dsimp only at hRun
  rw [hRunning] at hRun
  simp only [Bool.not_true, Bool.false_eq_true, if_false] at hRun
  cases hManager : (store.resources resource).subpieceManager.map store.managers with
  | none => simp [hManager] at hRun
  | some m =>
      simp only [hManager] at hRun
      split at hRun
      · obtain rfl := Option.some.inj hRun
        exact ⟨_, rfl, rfl, rfl⟩
      · rename_i hReads
        obtain ⟨buffer, -, rfl⟩ := Option.map_eq_some_iff.mp hRun
        have hInstance : (store.resources resource).instanceId.isSome = true := by
          rw [hManager] at hWhy
          simp only [Bool.or_eq_true, not_or, Bool.not_eq_true] at hReads
          rcases hWhy with (hInstance | hClosed) | hFull
          · exact hInstance
          · rw [hReads.2] at hClosed
            cases hClosed
          · rw [Option.any_some, hReads.1] at hFull
            cases hFull
        obtain ⟨i, hPointer⟩ := Option.isSome_iff_exists.mp hInstance
        rw [hPointer, Option.map_some]
        cases needHash
        · exact ⟨_, rfl, rfl⟩
        · exact ⟨_, rfl, rfl⟩

end Reading

namespace UploadSystem

section Consistent

/-- What every queued request is owed. `hand` is the block whose read the running step
holds: it has been taken out of the reads, or not put in yet. -/
structure Consistent (hand : Option RBIndex) (s : UploadSystem μ) : Prop where
  queued_eq : ∀ index, s.queued.filter (·.index = index) =
    (s.answers.map (·.apply)).filter (·.index = index) ++
      (s.cache.needResourceMap index).getD []
  reads_eq : ∀ index, s.reads.countP (·.index = index) =
    if (s.cache.needResourceMap index).isSome ∧ hand ≠ some index then 1 else 0
  own : ∀ index, ∀ applyList ∈ s.cache.needResourceMap index,
    ∀ apply ∈ applyList, apply.index = index
  reads_of : ∀ read ∈ s.reads, ReadStage.IsOf read.index read.stage
  nonempty : ∀ apply buffer, .succeeded apply buffer ∈ s.answers ++ s.served →
    ∃ data, buffer = some data ∧ data ≠ []

variable {s t : UploadSystem μ} {index : RBIndex}

theorem start_consistent (configs : UploadConfigs) (store : Store μ) :
    Consistent none (start configs store) where
  queued_eq _ := rfl
  reads_eq _ := rfl
  own _ _ hList := by cases hList
  reads_of _ hRead := by cases hRead
  nonempty _ _ hAnswer := by cases hAnswer

/-- The read `k` is taken out to be answered. -/
theorem Consistent.take_read (h : Consistent none s) {k : Nat} {read : BlockRead}
    (hRead : s.reads[k]? = some read) (store : Store μ) :
    Consistent (some read.index) { s with store := store, reads := s.reads.eraseIdx k } := by
  obtain ⟨hLt, rfl⟩ := List.getElem?_eq_some_iff.mp hRead
  have hPerm := List.getElem_cons_eraseIdx_perm hLt
  refine ⟨h.queued_eq, fun index => ?_, h.own, fun read' hMem => ?_, h.nonempty⟩
  · have hCount := hPerm.countP_eq (fun read : BlockRead => decide (read.index = index))
    have hOld := h.reads_eq index
    rw [List.countP_cons] at hCount
    show (s.reads.eraseIdx k).countP _ = if (s.cache.needResourceMap index).isSome ∧ _ then 1 else 0
    by_cases hSame : s.reads[k].index = index
    · simp only [hSame, decide_true, if_true] at hCount
      simp only [hSame, ne_eq, not_true_eq_false, and_false, if_false]
      split at hOld <;> omega
    · simp only [hSame, decide_false, Bool.false_eq_true, if_false, Nat.add_zero] at hCount
      rw [hCount, hOld]
      simp [hSame]
  · exact h.reads_of read' (List.mem_of_mem_eraseIdx hMem)

/-- Telling all that wait for the block in hand, with one answer each. -/
theorem Consistent.release (h : Consistent (some index) s)
    {answer : ApplySubPiece → Option UploadAnswer}
    (hAnswer : ∀ apply ∈ (s.cache.needResourceMap index).getD [], ∃ given,
      answer apply = some given ∧ given.apply = apply ∧
        ∀ buffer, given = .succeeded apply buffer → ∃ data, buffer = some data ∧ data ≠ []) :
    Consistent none (s.release index answer) := by
  unfold UploadSystem.release
  cases hNeed : s.cache.needResourceMap index with
  | none =>
      refine ⟨h.queued_eq, fun other => ?_, h.own, h.reads_of, h.nonempty⟩
      rw [h.reads_eq other]
      by_cases hSame : index = other
      · subst hSame
        simp [hNeed]
      · simp [hSame]
  | some applyList =>
      rw [hNeed, Option.getD_some] at hAnswer
      have hGiven : (applyList.filterMap answer).map (·.apply) = applyList := by
        clear hNeed
        induction applyList with
        | nil => rfl
        | cons apply rest ih =>
            obtain ⟨given, hSome, hApply, -⟩ := hAnswer apply List.mem_cons_self
            rw [List.filterMap_cons_some hSome, List.map_cons, hApply,
              ih fun other hMem => hAnswer other (List.mem_cons_of_mem _ hMem)]
      have hOwn := h.own index applyList hNeed
      constructor
      · intro other
        show s.queued.filter _ = ((s.answers ++ applyList.filterMap answer).map _).filter _ ++
          (Function.update s.cache.needResourceMap index none other).getD []
        rw [h.queued_eq other, List.map_append, hGiven, List.filter_append]
        by_cases hSame : other = index
        · subst hSame
          rw [Function.update_self, hNeed, Option.getD_some, Option.getD_none, List.append_nil]
          congr 1
          exact (List.filter_eq_self.mpr fun apply hMem => by simp [hOwn apply hMem]).symm
        · rw [Function.update_of_ne hSame]
          have hNone : applyList.filter (fun apply => decide (apply.index = other)) = [] := by
            apply List.filter_eq_nil_iff.mpr
            intro apply hMem
            simp [hOwn apply hMem, Ne.symm hSame]
          rw [hNone, List.append_nil]
      · intro other
        show s.reads.countP _ =
          if (Function.update s.cache.needResourceMap index none other).isSome ∧ _ then 1 else 0
        rw [h.reads_eq other]
        by_cases hSame : other = index
        · subst hSame
          simp
        · simp [hSame, Ne.symm hSame]
      · intro other otherList hList
        by_cases hSame : other = index
        · subst hSame
          simp at hList
        · simp only [Function.update_of_ne hSame] at hList
          exact h.own other otherList hList
      · exact h.reads_of
      · intro apply buffer hMem
        rcases List.mem_append.mp hMem with hMem | hServed
        · rcases List.mem_append.mp hMem with hOld | hNew
          · exact h.nonempty apply buffer (List.mem_append_left _ hOld)
          · obtain ⟨asked, hAsked, hSome⟩ := List.mem_filterMap.mp hNew
            obtain ⟨given, hGiven, hApply, hData⟩ := hAnswer asked hAsked
            rw [hGiven] at hSome
            obtain rfl := Option.some.inj hSome
            obtain rfl : apply = asked := hApply
            exact hData buffer rfl
        · exact h.nonempty apply buffer (List.mem_append_right _ hServed)

/-- The cached blocks and the counters are no part of what is owed. -/
theorem Consistent.with_cache {hand : Option RBIndex} (h : Consistent hand s)
    {cache : UploadCacheModule} (hMap : cache.needResourceMap = s.cache.needResourceMap) :
    Consistent hand { s with cache := cache } where
  queued_eq index := by
    rw [hMap]
    exact h.queued_eq index
  reads_eq index := by
    rw [hMap]
    exact h.reads_eq index
  own := by
    rw [hMap]
    exact h.own
  reads_of := h.reads_of
  nonempty := h.nonempty

/-- What waits for the block in hand can all be served from these bytes. -/
def servesAll (s : UploadSystem μ) (index : RBIndex) (buffer : Bytes)
    (allocates : ApplySubPiece → Bool) : Bool :=
  ((s.cache.needResourceMap index).getD []).all fun apply =>
    serves s.store index.rid apply.subpieceInfo buffer (allocates apply)

theorem Consistent.succeeded (h : Consistent (some index) s) {buffer : Bytes}
    {allocates : ApplySubPiece → Bool} (hAll : servesAll s index buffer allocates = true) :
    Consistent none (s.onAsyncGetBlockSucced index.rid index.blockIndex buffer allocates) := by
  have hReleased : Consistent none
      (s.release index (s.answerFrom index.rid buffer allocates)) := by
    apply h.release
    intro apply hMem
    obtain ⟨data, hGives, hData⟩ :=
      getSubPieceFromBlock_of_serves (List.all_eq_true.mp hAll apply hMem)
    refine ⟨.succeeded apply (some data), by simp [answerFrom, hGives], rfl, ?_⟩
    intro other hEq
    cases hEq
    exact ⟨data, rfl, hData⟩
  apply hReleased.with_cache
  unfold UploadCacheModule.addUploadCache UploadCacheModule.touch
  split <;> rfl

theorem Consistent.failed (h : Consistent (some index) s) :
    Consistent none (s.onAsyncGetBlockFailed index.rid index.blockIndex) := by
  apply h.release
  intro apply _
  refine ⟨.failed apply, rfl, rfl, ?_⟩
  intro buffer hEq
  cases hEq

/-- The read in hand is put among the reads. -/
theorem Consistent.put_read (h : Consistent (some index) s)
    (hWaits : (s.cache.needResourceMap index).isSome) {stage : ReadStage}
    (hStage : ReadStage.IsOf index stage) :
    Consistent none { s with reads := s.reads ++ [⟨index, stage⟩] } := by
  refine ⟨h.queued_eq, fun other => ?_, h.own, fun read hMem => ?_, h.nonempty⟩
  · rw [List.countP_append, h.reads_eq other, List.countP_singleton]
    by_cases hSame : index = other
    · subst hSame
      simp [hWaits]
    · simp [hSame]
  · rcases List.mem_append.mp hMem with hOld | hNew
    · exact h.reads_of read hOld
    · obtain rfl := List.mem_singleton.mp hNew
      exact hStage

/-- The stage of a read changes. -/
theorem Consistent.set_read (h : Consistent none s) {k : Nat} {read : BlockRead}
    (hRead : s.reads[k]? = some read) {stage : ReadStage}
    (hStage : ReadStage.IsOf read.index stage) :
    Consistent none { s with reads := s.reads.set k ⟨read.index, stage⟩ } := by
  obtain ⟨hLt, rfl⟩ := List.getElem?_eq_some_iff.mp hRead
  refine ⟨h.queued_eq, fun other => ?_, h.own, fun read hMem => ?_, h.nonempty⟩
  · rw [List.countP_set hLt, ← h.reads_eq other]
    by_cases hSame : s.reads[k].index = other
    · have hPos : 0 < s.reads.countP (fun read => decide (read.index = other)) :=
        List.countP_pos_iff.mpr ⟨s.reads[k], List.getElem_mem hLt, by simp [hSame]⟩
      simp only [hSame, decide_true, if_true]
      omega
    · simp [hSame]
  · rcases List.mem_or_eq_of_mem_set hMem with hOld | rfl
    · exact h.reads_of read hOld
    · exact hStage

/-- One more request waits. The read of a block nobody waited for is still to be asked for. -/
theorem Consistent.enqueue (h : Consistent none s) (apply : ApplySubPiece) :
    Consistent (if (s.cache.needResourceMap apply.index).isSome then none else some apply.index)
      { s with
        queued := s.queued ++ [apply]
        cache := { s.cache with
          needResourceMap := Function.update s.cache.needResourceMap apply.index
            (some ((s.cache.needResourceMap apply.index).getD [] ++ [apply])) } } := by
  refine ⟨fun other => ?_, fun other => ?_, fun other applyList hList => ?_, h.reads_of, h.nonempty⟩
  · show (s.queued ++ [apply]).filter _ = _ ++ (Function.update s.cache.needResourceMap
      apply.index _ other).getD []
    rw [List.filter_append, h.queued_eq other]
    by_cases hSame : other = apply.index
    · subst hSame
      simp
    · simp [hSame, Ne.symm hSame]
  · show s.reads.countP _ = if (Function.update s.cache.needResourceMap apply.index _ other).isSome ∧
      _ then 1 else 0
    rw [h.reads_eq other]
    by_cases hSame : other = apply.index
    · subst hSame
      cases s.cache.needResourceMap apply.index <;> simp
    · simp only [Function.update_of_ne hSame]
      cases s.cache.needResourceMap apply.index <;> simp [Ne.symm hSame]
  · by_cases hSame : other = apply.index
    · subst hSame
      simp only [Function.update_self, Option.mem_def, Option.some.injEq] at hList
      subst hList
      intro asked hMem
      rcases List.mem_append.mp hMem with hOld | hNew
      · cases hNeed : s.cache.needResourceMap apply.index with
        | none => simp [hNeed] at hOld
        | some applyList =>
            rw [hNeed, Option.getD_some] at hOld
            exact h.own _ applyList hNeed asked hOld
      · rw [List.mem_singleton.mp hNew]
    · simp only [Function.update_of_ne hSame] at hList
      exact h.own other applyList hList

variable [BlockMap μ]

/-- The cache asks a readable instance for the block in hand. -/
theorem Consistent.askBlock (h : Consistent (some index) s) {i : Nat}
    (hWaits : (s.cache.needResourceMap index).isSome)
    (hReadable : readable s.store i index.rid = true) (allocates : ApplySubPiece → Bool) :
    Consistent none (s.askBlock i index allocates) := by
  unfold UploadSystem.askBlock
  rcases asyncGetBlock_of_readable hReadable with ⟨code, hAnswered⟩ | ⟨job, hPosted, hStage⟩
  · rw [hAnswered]
    exact h.failed
  · rw [hPosted]
    exact h.put_read hWaits hStage

end Consistent

section Requests

variable {s t : UploadSystem μ} {a : UploadAction μ} {md5 : Bytes → Guid}

/-- A queued request was answered or still waits, and not both, in the order of the
requests for its block. -/
structure AnswersOnce (s : UploadSystem μ) : Prop where
  queued_eq : ∀ index, s.queued.filter (·.index = index) =
    (s.answers.map (·.apply)).filter (·.index = index) ++
      (s.cache.needResourceMap index).getD []
  answered_all : s.reads = [] → (s.answers.map (·.apply)).Perm s.queued
  one_read : ∀ index, s.reads.countP (·.index = index) ≤ 1
  waits_for_read : ∀ index, (∀ read ∈ s.reads, read.index ≠ index) →
    s.cache.needResourceMap index = none
  nonempty : ∀ apply buffer, .succeeded apply buffer ∈ s.answers ++ s.served →
    ∃ data, buffer = some data ∧ data ≠ []

theorem Consistent.waits_for_read (h : Consistent none s) {index : RBIndex}
    (hNone : ∀ read ∈ s.reads, read.index ≠ index) : s.cache.needResourceMap index = none := by
  have hReads := h.reads_eq index
  rw [List.countP_eq_zero.mpr fun read hMem => by simp [hNone read hMem]] at hReads
  cases hNeed : s.cache.needResourceMap index with
  | none => rfl
  | some applyList => simp [hNeed] at hReads

theorem Consistent.answersOnce (h : Consistent none s) : AnswersOnce s where
  queued_eq := h.queued_eq
  answered_all hEmpty := by
    apply List.perm_iff_count.mpr
    intro apply
    have hNone : s.cache.needResourceMap apply.index = none := h.waits_for_read (by simp [hEmpty])
    have hQueued := h.queued_eq apply.index
    rw [hNone, Option.getD_none, List.append_nil] at hQueued
    have hCount := congrArg (List.count apply) hQueued
    rwa [List.count_filter (by simp), List.count_filter (by simp), eq_comm] at hCount
  one_read index := by
    rw [h.reads_eq index]
    split <;> omega
  waits_for_read _ := h.waits_for_read
  nonempty := h.nonempty

variable [BlockMap μ]

/-- The condition of a step. A request that finds its block cached is for a subpiece in
it; one that starts a read finds an instance that is readable. The thread finds the
resource running and its instance there. A task finds the instance running, and what
waits for the block it brings is in it. -/
def admits (s : UploadSystem μ) : UploadAction μ → Bool
  | .request _ allocates apply =>
      match s.store.getInstanceByRID apply.index.rid with
      | none => true
      | some i =>
          s.store.isBehindFile s.configs.getPosition i apply.subpieceInfo ||
            match s.cache.findBlock apply.index with
            | some block =>
                serves s.store apply.index.rid apply.subpieceInfo block.buf (allocates apply)
            | none =>
                (s.cache.needResourceMap apply.index).isSome ||
                  readable s.store i apply.index.rid
  | .runJob k _ _ =>
      match s.reads[k]? with
      | some ⟨_, .threadReadBlockForUpload resource _ b _⟩ => reportable s.store resource b
      | _ => true
  | .runTask k allocates =>
      match s.reads[k]? with
      | some read =>
          answering s.store read.index.rid read.stage &&
            (blockOf s.store read.stage).all fun buffer =>
              s.servesAll read.index buffer allocates
      | none => true
  | _ => true

theorem onRequestSubPiece_consistent {remoteEndpoint : Nat → Option Nat}
    {allocates : ApplySubPiece → Bool} {apply : ApplySubPiece} (h : Consistent none s)
    (hMet : s.admits (.request remoteEndpoint allocates apply) = true) :
    Consistent none (s.onRequestSubPiece remoteEndpoint allocates apply) := by
  unfold onRequestSubPiece
  cases hInstance : s.store.getInstanceByRID apply.index.rid with
  | none => exact h
  | some i =>
      simp only [admits, hInstance, Bool.or_eq_true] at hMet
      dsimp only
      by_cases hBehind : s.store.isBehindFile s.configs.getPosition i apply.subpieceInfo = true
      · rwa [if_pos hBehind]
      rw [if_neg hBehind]
      have hMet := hMet.resolve_left hBehind
      unfold getSubPieceForUpload
      dsimp only
      have hFind : UploadCacheModule.findBlock { s.cache with
          applySubpieceNum := u32 (s.cache.applySubpieceNum + 1) } apply.index =
          s.cache.findBlock apply.index := rfl
      rw [hFind]
      cases hBlock : s.cache.findBlock apply.index with
      | some block =>
          simp only [hBlock] at hMet
          refine ⟨h.queued_eq, h.reads_eq, h.own, h.reads_of, ?_⟩
          intro other buffer hMem
          rw [← List.append_assoc] at hMem
          rcases List.mem_append.mp hMem with hOld | hNew
          · exact h.nonempty other buffer hOld
          · obtain ⟨data, hGives, hData⟩ := getSubPieceFromBlock_of_serves hMet
            obtain ⟨rfl, rfl⟩ : other = apply ∧ buffer = _ := by simpa using hNew
            exact ⟨data, hGives, hData⟩
      | none =>
          simp only [hBlock] at hMet
          dsimp only
          unfold addApplySubPiece
          have hCounted : Consistent none { s with cache := { s.cache with
              applySubpieceNum := u32 (s.cache.applySubpieceNum + 1) } } := h.with_cache rfl
          have hEnqueue := hCounted.enqueue apply
          dsimp only at hEnqueue ⊢
          cases hNeed : s.cache.needResourceMap apply.index with
          | none =>
              rw [hNeed] at hEnqueue hMet
              simp only [Option.isSome_none, Bool.false_eq_true, if_false,
                Option.getD_none, List.nil_append] at hEnqueue hMet
              exact hEnqueue.askBlock (by simp) hMet allocates
          | some applyList =>
              rw [hNeed] at hEnqueue
              simp only [Option.isSome_some, if_true, Option.getD_some] at hEnqueue
              dsimp only
              split
              · exact h.with_cache rfl
              · exact hEnqueue

/-- Every step that meets its condition keeps what is owed. -/
theorem next_consistent (h : Consistent none s) (hMet : s.admits a = true)
    (hStep : s.next md5 a = some t) : Consistent none t := by
  cases a with
  | request remoteEndpoint allocates apply =>
      obtain rfl := Option.some.inj hStep
      exact onRequestSubPiece_consistent h hMet
  | runJob k fresh disk =>
      simp only [next] at hStep
      split at hStep
      · rename_i index resource rid b needHash hRead
        have hStage : rid = index.rid ∧ b = index.blockIndex :=
          h.reads_of _ (List.mem_of_getElem? hRead)
        obtain ⟨rfl, rfl⟩ := hStage
        simp only [admits, hRead] at hMet
        obtain ⟨done, hRun, rfl⟩ := Option.map_eq_some_iff.mp hStep
        obtain ⟨task, rfl, hStage⟩ := threadReadBlockForUpload_of_reportable hMet hRun
        exact h.set_read hRead hStage
      · cases hStep
  | runTask k allocates =>
      obtain ⟨read, hRead, hStep⟩ := Option.bind_eq_some_iff.mp hStep
      obtain ⟨⟨store, answer⟩, hRun, rfl⟩ := Option.map_eq_some_iff.mp hStep
      simp only [admits, hRead, Bool.and_eq_true] at hMet
      have hTaken := h.take_read hRead store
      obtain ⟨hSame, hAnswer⟩ :=
        runTask_of_answering hMet.1 (h.reads_of _ (List.mem_of_getElem? hRead)) hRun
      rcases hAnswer with ⟨code, rfl⟩ | ⟨buffer, hBlock, rfl⟩
      · exact hTaken.failed
      · apply hTaken.succeeded
        have hAll := hMet.2
        rw [hBlock, Option.all_some] at hAll
        unfold servesAll at hAll ⊢
        simpa only [hSame.serves_eq] using hAll
  | onP2PTimer =>
      obtain rfl := Option.some.inj hStep
      exact h.with_cache rfl
  | others store now =>
      obtain rfl := Option.some.inj hStep
      exact ⟨h.queued_eq, h.reads_eq, h.own, h.reads_of, h.nonempty⟩

/-- In every run whose steps all meet their condition each queued request is answered
exactly once, by the one read of its block. -/
theorem answersOnce_of_run {configs : UploadConfigs} {store : Store μ}
    (run : Reaches (Step md5) (fun s a => s.admits a = true) (start configs store) s) :
    AnswersOnce s := by
  apply Consistent.answersOnce
  apply run.invariant (start_consistent configs store)
  intro before action after hBefore hMet hStep
  exact next_consistent hBefore hMet hStep

end Requests

section OneSubPiece

/-- The RID of a resource of one subpiece. -/
def smallRid : Guid := ⟨List.replicate 16 1, by decide⟩

/-- Its store, on disk and full. -/
def smallManager : SubPieceManager (List Bool) :=
  (SubPieceManager.new ⟨smallRid, 1024, 2097152, 1, [], oneKib_lt_uint32, twoMib_lt_uint32, one_lt_uint32⟩ true
    false).get rfl

def smallStore : Store (List Bool) where
  isRunning := true
  ridInstanceMap rid := if rid = smallRid then some 0 else none
  instances _ := ⟨true, some 0, some 0, 0, fun _ => none⟩
  resources _ := ⟨true, some 0, some 0, true, 7⟩
  managers _ := smallManager
  time := 0

/-- The request of the peer at `address` for a subpiece of block 0. -/
def asks (subpieceIndex address : Nat) : UploadAction (List Bool) :=
  .request (fun _ => none) (fun _ => true)
    ⟨SubPieceInfo.make 0 subpieceIndex, ⟨smallRid, address, .udpVod address 5041⟩, 0⟩

/-- The thread reads the block, and the main thread takes it. -/
def readsBlock : List (UploadAction (List Bool)) :=
  [.runJob 0 (fun _ => 0) (List.replicate 1024 9), .runTask 0 fun _ => true]

/-- Two peers that wait for the block are answered, and a third one from the cache. -/
theorem answersOnce_of_three_peers : ∃ s : UploadSystem (List Bool),
    (s.queued.map (·.packet.transactionId) = [1, 2] ∧ s.served.length = 1) ∧ AnswersOnce s := by
  obtain ⟨s, hRun, hs⟩ := Reaches.exists_of_checked (next fun _ => Guid.zero) (fun s a => s.admits a)
    (start {} smallStore) ([asks 0 1, asks 0 2] ++ readsBlock ++ [asks 0 3])
    (fun s => decide (s.queued.map (·.packet.transactionId) = [1, 2] ∧ s.served.length = 1))
    (by decide +kernel)
  exact ⟨s, by simpa using hs, answersOnce_of_run hRun⟩

/-- A request for the subpiece that would start where the file ends is queued and never
answered. -/
theorem answersOnce_behind_file_fails :
    ¬ ∀ (md5 : Bytes → Guid) (configs : UploadConfigs) (store : Store (List Bool))
      (s : UploadSystem (List Bool)),
      Reaches (Step md5) (fun _ _ => True) (start configs store) s → AnswersOnce s := by
  intro h
  obtain ⟨s, hRun, hs⟩ := Reaches.exists_of_checked (next fun _ => Guid.zero) (fun _ _ => true)
    (start {} smallStore) (asks 1 1 :: readsBlock)
    (fun s => decide (s.queued.length = 1 ∧ s.answers.length = 0) && s.reads.isEmpty)
    (by decide +kernel)
  simp only [Bool.and_eq_true, decide_eq_true_eq, List.isEmpty_iff] at hs
  obtain ⟨⟨hQueued, hAnswers⟩, hReads⟩ := hs
  have hOnce := h _ _ _ s (hRun.mono fun _ _ _ => trivial)
  have hLength := (hOnce.answered_all hReads).length_eq
  rw [List.length_map] at hLength
  omega

end OneSubPiece

end UploadSystem

end P2P
