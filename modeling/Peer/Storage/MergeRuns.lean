import Peer.Storage.Merge

/-! Every subpiece the source holds is on its way to the target: stored there, in a
task of the main thread, or in a job of the storage thread. The walk visits the
subpieces of the file once; the jobs run after the writes posted before them. -/
namespace Storage

open Basis

namespace MergeJob

/-- Writes come before reads, and the end of the resource comes last. -/
def rank : MergeJob → Nat
  | .threadPendingWriteBlock _ _ => 0
  | .threadMergeSubPieceToInstance _ => 1
  | .closeResource => 2

/-- The file after a job. -/
def apply (file : Nat → UInt8) : MergeJob → Nat → UInt8
  | .threadPendingWriteBlock position data => writeFile file position data
  | _ => file

theorem apply_of_rank {job : MergeJob} (h : 1 ≤ job.rank) (file : Nat → UInt8) :
    job.apply file = file := by
  cases job with
  | threadPendingWriteBlock position data => cases h
  | _ => rfl

theorem foldl_apply {jobs : List MergeJob} (h : ∀ job ∈ jobs, 1 ≤ job.rank)
    (file : Nat → UInt8) : jobs.foldl apply file = file := by
  induction jobs with
  | nil => rfl
  | cons job rest ih =>
      rw [List.foldl_cons, apply_of_rank (h job List.mem_cons_self)]
      exact ih fun later hLater => h later (List.mem_cons_of_mem _ hLater)

end MergeJob

namespace Merge

variable {μ : Type} [BlockMap μ]

/-- The resource file once the posted writes are done. -/
def settledFile (s : Merge μ) : Nat → UInt8 := s.jobs.foldl MergeJob.apply s.file

/-- The bytes of a subpiece of the source, in memory or on disk. -/
def bytesOf (s : Merge μ) (info : SubPieceInfo) : Bytes :=
  match s.source.bufferAt info with
  | some buffer => buffer.data
  | none =>
      readFile s.settledFile (s.source.getSubPiecePosition info).1
        (s.source.getSubPiecePosition info).2

/-- Two instances of one resource before the merge: their stores are in any state in
which the blocks agree and the buffers are whole, and the storage thread may still have
blocks of the source to write. -/
structure Prepared (r : RidInfo) (s : Merge μ) : Prop where
  source : SubPieceManager.Sound r s.source
  target : SubPieceManager.Sound r s.target
  resourceRunning : s.resourceRunning = true
  beingMerged : s.beingMerged = false
  jobs : ∀ job ∈ s.jobs, job.rank = 0
  tasks : s.tasks = []
  accessed : s.accessed = []

/-- Where a subpiece of the target is from: it was there before, or came from a
download, or has the bytes of the source. -/
def Origin (s t : Merge μ) (info : SubPieceInfo) : Prop :=
  s.target.hasSubPiece info = true ∨ (∃ buffer, (info, buffer) ∈ t.arrived) ∨
    ∃ buffer, t.target.bufferAt info = some buffer ∧ buffer.data = s.bytesOf info

/-- The walk can pass the subpiece on when it is in memory, or when a buffer of the
default length is a whole one for it. -/
def Carries (build : MergeBuild) (r : RidInfo) (s : Merge μ) (info : SubPieceInfo) : Prop :=
  s.source.hasSubPiece info = true → s.target.hasSubPiece info = false →
    (s.source.getSubPiece info).length ≠ 0 ∨ build.diskMode = true ∧
      min build.defaultLength bytesNumPerSubpiece =
        r.subpieceSize info.blockIndex info.subpieceIndex

/-- What surrounds the merge does its part: reads succeed, the source gets nothing
new, and the downloads of the target bring subpieces of the file. -/
def Undisturbed (r : RidInfo) (s : Merge μ) : MergeAction → Prop
  | .job reads _ => reads = true
  | .addToSource info _ => s.isRunning = true → s.source.hasSubPiece info = true
  | .addToTarget info _ => r.Inside info
  | _ => True

/-- Every subpiece can be carried when the walk starts. -/
def StartsCarrying (build : MergeBuild) (r : RidInfo) (s : Merge μ) : MergeAction → Prop
  | .beMergedTo _ => ∀ info, r.Inside info → s.Carries build r info
  | _ => True

/-- The timer does not elapse while the source is there. -/
def TimerStopped (s : Merge μ) : MergeAction → Prop
  | .mergeTimer _ => s.isRunning = false
  | _ => True

def Meets (build : MergeBuild) (r : RidInfo) (s : Merge μ) (a : MergeAction) : Prop :=
  s.Undisturbed r a ∧ s.StartsCarrying build r a ∧ s.TimerStopped a

def Step (build : MergeBuild) (s : Merge μ) (a : MergeAction) (t : Merge μ) : Prop :=
  s.next build a = some t

/-- What a merge promises: the walk stays inside the file and returns, the target
keeps what it held, and once both queues are empty it holds all of the source. -/
structure Merged (build : MergeBuild) (r : RidInfo) (s t : Merge μ) : Prop where
  inside : ∀ info ∈ t.accessed, r.Inside info
  keeps : SubPieceManager.Keeps r s.target t.target
  returns : ∀ rounds ≥ r.subpieceCount, t.StartsCarrying build r (.beMergedTo rounds) →
    (t.next build (.beMergedTo rounds)).isSome = true
  delivers : t.beingMerged = true → t.jobs = [] → t.tasks = [] →
    ∀ info, r.Inside info → t.source.hasSubPiece info = true →
      t.target.hasSubPiece info = true ∧ Origin s t info

/-- A subpiece is in the target or on its way. -/
def UnderWay (t : Merge μ) (info : SubPieceInfo) : Prop :=
  t.target.hasSubPiece info = true ∨ .threadMergeSubPieceToInstance info ∈ t.jobs ∨
    ∃ buffer, .onMergeSubPieceSuccess info buffer ∈ t.tasks

/-- The state `t` of a merge that started in `s`, of which the walk has visited the
positions `visited`. -/
structure Delivers (build : MergeBuild) (r : RidInfo) (s : Merge μ)
    (visited : SubPieceInfo → Prop) (t : Merge μ) : Prop where
  source_eq : t.source = s.source
  file_eq : t.settledFile = s.settledFile
  target : SubPieceManager.Sound r t.target
  keeps : SubPieceManager.Keeps r s.target t.target
  origin : ∀ info, r.Inside info → t.target.hasSubPiece info = true → Origin s t info
  inside : ∀ info ∈ t.accessed, r.Inside info
  ordered : t.jobs.Pairwise fun a b => a.rank ≤ b.rank
  running : t.isRunning = true → t.resourceRunning = true ∧ ∀ job ∈ t.jobs, job.rank ≤ 1
  closed : t.resourceRunning = false → ∀ job ∈ t.jobs, 2 ≤ job.rank
  reads : ∀ info, .threadMergeSubPieceToInstance info ∈ t.jobs → r.Inside info ∧
    s.source.hasSubPiece info = true ∧ s.source.bufferAt info = none ∧
    min build.defaultLength bytesNumPerSubpiece =
      r.subpieceSize info.blockIndex info.subpieceIndex
  answers : ∀ info buffer, .onMergeSubPieceSuccess info buffer ∈ t.tasks → r.Inside info ∧
    buffer.isValid = true ∧
    buffer.length = r.subpieceSize info.blockIndex info.subpieceIndex ∧
    buffer.data = s.bytesOf info
  underWay : ∀ info, r.Inside info → visited info → s.source.hasSubPiece info = true →
    t.UnderWay info

section Steps

variable {build : MergeBuild} {r : RidInfo} {s t : Merge μ} {visited : SubPieceInfo → Prop}
  {info : SubPieceInfo} {buffer : SubPieceBuffer}

theorem Delivers.mono {visited' : SubPieceInfo → Prop} (h : Delivers build r s visited t)
    (hLess : ∀ info, r.Inside info → visited' info → visited info) :
    Delivers build r s visited' t :=
  { h with underWay := fun info hIn hVisited => h.underWay info hIn (hLess info hIn hVisited) }

/-- The target gets a subpiece and keeps the rest. -/
theorem Delivers.stored (h : Delivers build r s visited t) {m : SubPieceManager μ}
    {arrived : List (SubPieceInfo × SubPieceBuffer)} (hSound : SubPieceManager.Sound r m)
    (hStores : SubPieceManager.Stores r info t.target m) (hArrived : t.arrived ⊆ arrived)
    (hNew : t.target.hasSubPiece info = false → m.hasSubPiece info = true →
      Origin s { t with target := m, arrived := arrived } info) :
    Delivers build r s visited { t with target := m, arrived := arrived } :=
  { h with
    target := hSound
    keeps := h.keeps.trans hStores.toKeeps
    origin := by
      intro other hIn hHas
      have hOld : t.target.hasSubPiece other = true →
          Origin s { t with target := m, arrived := arrived } other := by
        intro hOld
        obtain hHeld | ⟨buffer, hMem⟩ | ⟨buffer, hAt, hData⟩ := h.origin other hIn hOld
        · exact Or.inl hHeld
        · exact Or.inr (Or.inl ⟨buffer, hArrived hMem⟩)
        · exact Or.inr (Or.inr ⟨buffer, (hStores.bytes other hIn hOld).trans hAt, hData⟩)
      obtain hHeld | rfl := hStores.only other hIn hHas
      · exact hOld hHeld
      · cases hBefore : t.target.hasSubPiece other with
        | true => exact hOld hBefore
        | false => exact hNew hBefore hHas
    underWay := by
      intro other hIn hVisited hHas
      obtain hHeld | hPosted := h.underWay other hIn hVisited hHas
      · exact Or.inl (hStores.held other hIn hHeld)
      · exact Or.inr hPosted }

/-- A buffer with the bytes of the source is stored unless the target has the
subpiece. -/
theorem Delivers.onMergeSubPieceSuccess (h : Delivers build r s visited t) (hr : r.Addressable)
    (hIn : r.Inside info) (hValid : buffer.isValid = true)
    (hLength : buffer.length = r.subpieceSize info.blockIndex info.subpieceIndex)
    (hData : buffer.data = s.bytesOf info) :
    ∃ m, t.onMergeSubPieceSuccess info buffer = some { t with target := m } ∧
      Delivers build r s visited { t with target := m } ∧
      SubPieceManager.Keeps r t.target m ∧ m.hasSubPiece info = true := by
  obtain ⟨m, added, hAdd, hSound, hStores, -, hAdded, hWhole⟩ :=
    h.target.asyncAddSubPiece hr hIn buffer
  obtain ⟨hHas, hNew⟩ := hWhole hValid hLength
  refine ⟨m, ?_, ?_, hStores.toKeeps, hHas⟩
  · rw [Merge.onMergeSubPieceSuccess, hAdd, Option.map_some]
  · apply h.stored hSound hStores (List.Subset.refl _)
    intro hMissing _
    exact Or.inr (Or.inr ⟨buffer, (hAdded (hNew hMissing)).2, hData⟩)

/-- What a part of the walk leaves alone. -/
structure Walked (r : RidInfo) (t t' : Merge μ) : Prop where
  keeps : SubPieceManager.Keeps r t.target t'.target
  source_eq : t'.source = t.source
  isRunning_eq : t'.isRunning = t.isRunning
  beingMerged_eq : t'.beingMerged = t.beingMerged

theorem Walked.trans {t' t'' : Merge μ} (h : Walked r t t') (h' : Walked r t' t'') :
    Walked r t t'' :=
  ⟨h.keeps.trans h'.keeps, h'.source_eq.trans h.source_eq, h'.isRunning_eq.trans h.isRunning_eq,
    h'.beingMerged_eq.trans h.beingMerged_eq⟩

theorem Carries.walked {t' : Merge μ} (h : t.Carries build r info) (hIn : r.Inside info)
    (hWalked : Walked r t t') : t'.Carries build r info := by
  intro hHas hMissing
  rw [hWalked.source_eq] at hHas ⊢
  apply h hHas
  rw [← Bool.not_eq_true]
  intro hHeld
  rw [hWalked.keeps.held info hIn hHeld] at hMissing
  cases hMissing

/-- The storage thread gets the job to read a subpiece. -/
theorem Delivers.posted (h : Delivers build r s visited t) (hRunning : t.isRunning = true)
    (hIn : r.Inside info) (hHas : s.source.hasSubPiece info = true)
    (hOut : s.source.bufferAt info = none)
    (hWhole : min build.defaultLength bytesNumPerSubpiece =
      r.subpieceSize info.blockIndex info.subpieceIndex) :
    Delivers build r s (fun other => visited other ∨ other = info)
      { t with jobs := t.jobs ++ [.threadMergeSubPieceToInstance info] } := by
  obtain ⟨hResource, hRanks⟩ := h.running hRunning
  exact
    { h with
      file_eq := by
        rw [← h.file_eq, settledFile, settledFile, List.foldl_append]
        rfl
      ordered := by
        rw [List.pairwise_append]
        refine ⟨h.ordered, List.pairwise_singleton _ _, ?_⟩
        intro job hJob last hLast
        rw [List.mem_singleton] at hLast
        rw [hLast]
        exact hRanks job hJob
      running := by
        intro _
        refine ⟨hResource, ?_⟩
        intro job hJob
        rw [List.mem_append, List.mem_singleton] at hJob
        obtain hJob | rfl := hJob
        · exact hRanks job hJob
        · exact Nat.le_refl 1
      closed := by
        intro hClosed
        rw [hResource] at hClosed
        cases hClosed
      reads := by
        intro other hJob
        rw [List.mem_append, List.mem_singleton] at hJob
        obtain hJob | hEq := hJob
        · exact h.reads other hJob
        · cases hEq
          exact ⟨hIn, hHas, hOut, hWhole⟩
      underWay := by
        intro other hOther hVisited hHeld
        obtain hVisited | rfl := hVisited
        · obtain hHere | hJob | hTask := h.underWay other hOther hVisited hHeld
          · exact Or.inl hHere
          · exact Or.inr (Or.inl (List.mem_append_left _ hJob))
          · exact Or.inr (Or.inr hTask)
        · exact Or.inr (Or.inl (List.mem_append_right _ List.mem_cons_self)) }

/-- A subpiece that the target lacks and the walk can carry is put on its way. -/
theorem Delivers.mergeSubPiece (h : Delivers build r s visited t) (hr : r.Addressable)
    (hs : SubPieceManager.Sound r s.source) (hRunning : t.isRunning = true)
    (hIn : r.Inside info) (hHas : s.source.hasSubPiece info = true)
    (hCarried : (s.source.getSubPiece info).length ≠ 0 ∨ build.diskMode = true ∧
      min build.defaultLength bytesNumPerSubpiece =
        r.subpieceSize info.blockIndex info.subpieceIndex) :
    ∃ t', t.mergeSubPiece build info = some t' ∧ t'.mergingPos = t.mergingPos ∧ Walked r t t' ∧
      Delivers build r s (fun other => visited other ∨ other = info) t' := by
  have hGet : t.source.getSubPiece info = s.source.getSubPiece info := by rw [h.source_eq]
  rw [Merge.mergeSubPiece, hGet]
  by_cases hMemory : (s.source.getSubPiece info).length ≠ 0
  · rw [if_pos hMemory]
    have hAt := SubPieceManager.bufferAt_of_getSubPiece hMemory
    obtain ⟨hValid, hLength⟩ := hs.of_bufferAt hAt
    obtain ⟨m, hStep, hNext, hKeeps, hHeld⟩ := h.onMergeSubPieceSuccess hr hIn hValid hLength
      (by rw [bytesOf, hAt])
    refine ⟨_, hStep, rfl, ⟨hKeeps, rfl, rfl, rfl⟩, { hNext with underWay := ?_ }⟩
    intro other hInside hVisited hSource
    obtain hVisited | rfl := hVisited
    · exact hNext.underWay other hInside hVisited hSource
    · exact Or.inl hHeld
  · obtain ⟨hDisk, hWhole⟩ := hCarried.resolve_left hMemory
    rw [if_neg hMemory, hDisk, if_pos rfl]
    refine ⟨_, rfl, rfl, ⟨.refl _ _, rfl, rfl, rfl⟩, ?_⟩
    apply h.posted hRunning hIn hHas _ hWhole
    cases hAt : s.source.bufferAt info with
    | none => rfl
    | some buffer => exact absurd (hs.getSubPiece_of_bufferAt hAt).2 hMemory

/-- One round of the walk puts its position on the way to the target. -/
theorem Delivers.mergePosition (h : Delivers build r s visited t) (hr : r.Addressable)
    (hs : SubPieceManager.Sound r s.source) (hRunning : t.isRunning = true)
    (hIn : r.Inside t.mergingPos) (hCarries : t.Carries build r t.mergingPos) :
    ∃ t', t.mergePosition build = some t' ∧ t'.mergingPos = t.mergingPos ∧ Walked r t t' ∧
      Delivers build r s (fun info => visited info ∨ info = t.mergingPos) t' := by
  have hAccessed : Delivers build r s visited
      { t with accessed := t.accessed ++ [t.mergingPos] } :=
    { h with
      inside := by
        intro info hInfo
        rw [List.mem_append, List.mem_singleton] at hInfo
        obtain hOld | rfl := hInfo
        · exact h.inside info hOld
        · exact hIn }
  unfold Merge.mergePosition
  dsimp only
  split
  · rename_i hNeeded
    rw [Bool.and_eq_true, Bool.not_eq_true'] at hNeeded
    have hCarried := hCarries hNeeded.1 hNeeded.2
    rw [h.source_eq] at hNeeded hCarried
    obtain ⟨t', hStep, hPos, hWalked, hNext⟩ :=
      hAccessed.mergeSubPiece hr hs hRunning hIn hNeeded.1 hCarried
    exact ⟨t', hStep, hPos, ⟨hWalked.keeps, hWalked.source_eq, hWalked.isRunning_eq,
      hWalked.beingMerged_eq⟩, hNext⟩
  · rename_i hSkip
    refine ⟨_, rfl, rfl, ⟨.refl _ _, rfl, rfl, rfl⟩, { hAccessed with underWay := ?_ }⟩
    intro info hInside hVisited hHas
    obtain hVisited | rfl := hVisited
    · exact hAccessed.underWay info hInside hVisited hHas
    · rw [h.source_eq, hHas, Bool.true_and, Bool.not_eq_true', Bool.not_eq_false] at hSkip
      exact Or.inl hSkip

theorem Delivers.finishMerge (h : Delivers build r s visited t) :
    Walked r t t.finishMerge ∧ Delivers build r s visited t.finishMerge := by
  unfold Merge.finishMerge
  split
  · exact ⟨⟨.refl _ _, rfl, rfl, rfl⟩, { h with }⟩
  · refine ⟨⟨.refl _ _, rfl, rfl, rfl⟩, { h with answers := ?_, underWay := ?_ }⟩
    · intro info buffer hTask
      rw [List.mem_append, List.mem_singleton] at hTask
      exact h.answers info buffer (hTask.resolve_right MergeTask.noConfusion)
    · intro info hIn hVisited hHas
      obtain hHere | hJob | ⟨buffer, hTask⟩ := h.underWay info hIn hVisited hHas
      · exact Or.inl hHere
      · exact Or.inr (Or.inl hJob)
      · exact Or.inr (Or.inr ⟨buffer, List.mem_append_left _ hTask⟩)

section Walk

variable (h : Delivers build r s visited t) (hr : r.Addressable) (hLength : 0 < r.fileLength)
  (hn : r.NextNamed) (hs : SubPieceManager.Sound r s.source) (hRunning : t.isRunning = true)
  (hCarries : ∀ info, r.Inside info → t.Carries build r info)
include h hr hLength hn hs hRunning hCarries

/-- A round of the walk at subpiece `k`, and how the loop goes on. -/
theorem Delivers.round {k : Nat} (hk : k < r.subpieceCount) (hPos : t.mergingPos = r.subpieceAt k)
    (rounds : Nat) :
    ∃ t', Walked r t t' ∧ t'.mergingPos = r.subpieceAt (k + 1) ∧
      Delivers build r s (fun info => visited info ∨ info = r.subpieceAt k) t' ∧
      t.mergeResourceTo build (rounds + 1) =
        if k + 1 < r.subpieceCount then t'.mergeResourceTo build rounds
        else some t'.finishMerge := by
  have hIn : r.Inside (r.subpieceAt k) :=
    (hn.mem_names_iff hr.toValid hLength).mp (List.mem_map_of_mem (List.mem_range.mpr hk))
  obtain ⟨t', hStep, hSame, hWalked, hNext⟩ :=
    h.mergePosition hr hs hRunning (hPos ▸ hIn) (hPos ▸ hCarries _ hIn)
  have hInc := hs.agrees.builtFor.incSubPieceInfo_of_lt hr.toValid hn hk
  rw [← h.source_eq, ← hWalked.source_eq, ← hPos, ← hSame] at hInc
  refine ⟨{ t' with mergingPos := r.subpieceAt (k + 1) }, ⟨hWalked.keeps, hWalked.source_eq,
    hWalked.isRunning_eq, hWalked.beingMerged_eq⟩, rfl, ?_, ?_⟩
  · rw [← hPos]
    exact { hNext with }
  · simp only [Merge.mergeResourceTo, hStep, Option.bind_some, hInc, decide_eq_true_eq]

/-- The walk from subpiece `k` on returns when it has rounds enough, and has put the
rest of the file on its way. -/
theorem Delivers.mergeResourceTo {k rest : Nat} (hk : k + rest + 1 = r.subpieceCount)
    (hPos : t.mergingPos = r.subpieceAt k) (rounds : Nat) :
    (rest < rounds → (t.mergeResourceTo build rounds).isSome = true) ∧
      ∀ t', t.mergeResourceTo build rounds = some t' → Walked r t t' ∧
        Delivers build r s (fun info => visited info ∨
          ∃ j, k ≤ j ∧ j < r.subpieceCount ∧ info = r.subpieceAt j) t' := by
  induction rest generalizing k rounds t visited with
  | zero =>
      cases rounds with
      | zero => exact ⟨fun hLt => (Nat.lt_irrefl _ hLt).elim, fun t' hNone => by cases hNone⟩
      | succ rounds =>
          obtain ⟨t', hWalked, -, hNext, hLoop⟩ :=
            h.round hr hLength hn hs hRunning hCarries (by omega) hPos rounds
          obtain ⟨hEndWalked, hEnd⟩ := hNext.finishMerge
          rw [hLoop, if_neg (by omega)]
          refine ⟨fun _ => rfl, ?_⟩
          intro t'' hEq
          cases hEq
          refine ⟨hWalked.trans hEndWalked, hEnd.mono ?_⟩
          rintro info - (hVisited | ⟨j, hLe, hLt, rfl⟩)
          · exact Or.inl hVisited
          · exact Or.inr (congrArg r.subpieceAt (by omega))
  | succ rest ih =>
      cases rounds with
      | zero => exact ⟨fun hLt => (Nat.not_lt_zero _ hLt).elim, fun t' hNone => by cases hNone⟩
      | succ rounds =>
          obtain ⟨t', hWalked, hPos', hNext, hLoop⟩ :=
            h.round hr hLength hn hs hRunning hCarries (by omega) hPos rounds
          obtain ⟨hReturns, hRest⟩ := ih hNext (hWalked.isRunning_eq.trans hRunning)
            (fun info hIn => (hCarries info hIn).walked hIn hWalked) (by omega) hPos' rounds
          rw [hLoop, if_pos (by omega)]
          refine ⟨fun hLt => hReturns (by omega), ?_⟩
          intro t'' hEq
          obtain ⟨hRestWalked, hDelivers⟩ := hRest t'' hEq
          refine ⟨hWalked.trans hRestWalked, hDelivers.mono ?_⟩
          rintro info - (hVisited | ⟨j, hLe, hLt, rfl⟩)
          · exact Or.inl (Or.inl hVisited)
          · obtain hEq | hMore := Nat.eq_or_lt_of_le hLe
            · exact Or.inl (Or.inr (congrArg r.subpieceAt hEq.symm))
            · exact Or.inr ⟨j, hMore, hLt, rfl⟩

/-- The walk from the start of the file. -/
theorem Delivers.beMergedTo (rounds : Nat) :
    (r.subpieceCount ≤ rounds → (t.beMergedTo build rounds).isSome = true) ∧
      ∀ t', t.beMergedTo build rounds = some t' →
        Delivers build r s (fun _ => t'.beingMerged = true) t' := by
  have hCount := RidInfo.subpieceCount_pos hLength
  have hStart : Delivers build r s visited
      { t with timerStarted := true, beingMerged := true, mergingPos := .make 0 0 } := { h with }
  have hZero : SubPieceInfo.make 0 0 = r.subpieceAt 0 := by
    rw [RidInfo.subpieceAt, Nat.zero_div, Nat.zero_mod]
  have hWhole : 0 + (r.subpieceCount - 1) + 1 = r.subpieceCount := by omega
  have hNot : ¬ (!t.isRunning) = true := by
    rw [hRunning]
    exact Bool.false_ne_true
  obtain ⟨hReturns, hWalk⟩ :=
    hStart.mergeResourceTo hr hLength hn hs hRunning hCarries hWhole hZero rounds
  rw [Merge.beMergedTo, if_neg hNot]
  refine ⟨fun hLe => hReturns (by omega), ?_⟩
  intro t' hEq
  obtain ⟨-, hNext⟩ := hWalk t' hEq
  apply hNext.mono
  intro info hIn _
  obtain ⟨j, hj, rfl⟩ := List.mem_map.mp ((hn.mem_names_iff hr.toValid hLength).mpr hIn)
  exact Or.inr ⟨j, Nat.zero_le j, List.mem_range.mp hj, rfl⟩

end Walk

omit [BlockMap μ] in
/-- A buffer of the default length has the bytes of the file when that is the length
that was read. -/
theorem readBufferArray_take {file fresh : Nat → UInt8} {position length n : Nat}
    (h : min n bytesNumPerSubpiece = length) :
    (readBufferArray file position length fresh).take n = readFile file position length := by
  rw [readBufferArray, readFile, ← List.map_take, List.take_range, h]
  apply List.map_congr_left
  intro i hi
  rw [if_pos (List.mem_range.mp hi)]

/-- A read that succeeds posts a buffer of the default length. -/
theorem threadMergeSubPieceToInstance_reads (hResource : t.resourceRunning = true)
    (hHas : t.source.hasSubPiece info = true) (fresh : Nat → UInt8) :
    t.threadMergeSubPieceToInstance build info true fresh =
      { t with tasks := t.tasks ++ [.onMergeSubPieceSuccess info
        (.ofContent (readBufferArray t.file (t.source.getSubPiecePosition info).1
          (t.source.getSubPiecePosition info).2 fresh) build.defaultLength)] } := by
  have hOpen : ¬ (!t.resourceRunning) = true := by
    rw [hResource]
    exact Bool.false_ne_true
  have hThere : ¬ (!t.source.hasSubPiece info) = true := by
    rw [hHas]
    exact Bool.false_ne_true
  rw [threadMergeSubPieceToInstance, if_neg hOpen, if_neg hThere, Bool.not_true,
    if_neg Bool.false_ne_true]

theorem runJob_beingMerged (t : Merge μ) (reads : Bool) (fresh : Nat → UInt8) (job : MergeJob) :
    (t.runJob build reads fresh job).beingMerged = t.beingMerged := by
  cases job with
  | threadPendingWriteBlock position data => rfl
  | closeResource => rfl
  | threadMergeSubPieceToInstance info =>
      unfold runJob threadMergeSubPieceToInstance
      repeat' split
      all_goals rfl

/-- The job at the head of the queue is done. -/
theorem Delivers.job (h : Delivers build r s visited t) (hr : r.Addressable)
    (hs : SubPieceManager.Sound r s.source) {job : MergeJob} {rest : List MergeJob}
    (hJobs : t.jobs = job :: rest) (fresh : Nat → UInt8) :
    Delivers build r s visited (({ t with jobs := rest }).runJob build true fresh job) := by
  have hOrdered := h.ordered
  rw [hJobs, List.pairwise_cons] at hOrdered
  obtain ⟨hFirst, hRest⟩ := hOrdered
  have hLater : ∀ later ∈ rest, later ∈ t.jobs := fun later hMem => by
    rw [hJobs]
    exact List.mem_cons_of_mem _ hMem
  have hFile := h.file_eq
  rw [settledFile, hJobs, List.foldl_cons] at hFile
  -- what holds of the rest of the queue, up to the read that is done
  have hPopped : Delivers build r s
      (fun info => visited info ∧ job ≠ .threadMergeSubPieceToInstance info)
      { t with jobs := rest, file := job.apply t.file } :=
    { h with
      file_eq := hFile
      ordered := hRest
      running := fun hRunning =>
        ⟨(h.running hRunning).1, fun later hMem => (h.running hRunning).2 later (hLater later hMem)⟩
      closed := fun hClosed later hMem => h.closed hClosed later (hLater later hMem)
      reads := fun info hMem => h.reads info (hLater _ hMem)
      underWay := by
        rintro info hIn ⟨hVisited, hOther⟩ hHas
        obtain hHere | hJob | hTask := h.underWay info hIn hVisited hHas
        · exact Or.inl hHere
        · rw [hJobs, List.mem_cons] at hJob
          exact Or.inr (Or.inl (hJob.resolve_left fun hEq => hOther hEq.symm))
        · exact Or.inr (Or.inr hTask) }
  have hHead : job ∈ t.jobs := hJobs ▸ List.mem_cons_self
  cases job with
  | threadPendingWriteBlock position data =>
      exact hPopped.mono fun info _ hVisited => ⟨hVisited, MergeJob.noConfusion⟩
  | closeResource =>
      have hStopped : t.isRunning ≠ true := fun hRunning => by
        have hRank := (h.running hRunning).2 _ hHead
        exact Nat.not_succ_le_self 1 hRank
      have hClosing : Delivers build r s visited { t with jobs := rest } :=
        hPopped.mono fun info _ hVisited => ⟨hVisited, MergeJob.noConfusion⟩
      exact
        { hClosing with
          running := fun hRunning => absurd hRunning hStopped
          closed := fun _ => hFirst }
  | threadMergeSubPieceToInstance info =>
      obtain ⟨hIn, hHas, hOut, hWhole⟩ := h.reads info hHead
      have hResource : t.resourceRunning = true := by
        rw [← Bool.not_eq_false]
        intro hClosed
        exact Nat.not_succ_le_self 1 (h.closed hClosed _ hHead)
      have hLengthEq := hs.agrees.builtFor.position_length hr hIn.1
      -- no write is left in the queue, so the file is what it will stay
      have hSettled : t.file = s.settledFile := by
        rw [← hFile, MergeJob.foldl_apply hFirst]
        rfl
      have hData : (readBufferArray t.file (t.source.getSubPiecePosition info).1
          (t.source.getSubPiecePosition info).2 fresh).take build.defaultLength =
            s.bytesOf info := by
        rw [h.source_eq, readBufferArray_take (hWhole.trans hLengthEq.symm), hSettled, bytesOf, hOut]
      have hThere : t.source.hasSubPiece info = true := h.source_eq ▸ hHas
      have hRead : ({ t with jobs := rest }).runJob build true fresh
          (.threadMergeSubPieceToInstance info) = _ :=
        threadMergeSubPieceToInstance_reads (t := { t with jobs := rest }) hResource hThere fresh
      rw [hRead]
      refine { hPopped with answers := ?_, underWay := ?_ }
      · intro other buffer hTask
        rw [List.mem_append, List.mem_singleton] at hTask
        obtain hTask | hEq := hTask
        · exact h.answers other buffer hTask
        · cases hEq
          refine ⟨hIn, rfl, ?_, hData⟩
          rw [← hWhole, SubPieceBuffer.length, SubPieceBuffer.ofContent, List.length_take,
            readBufferArray, List.length_map, List.length_range]
      · intro other hInside hVisited hHeld
        by_cases hEq : other = info
        · subst hEq
          exact Or.inr (Or.inr ⟨_, List.mem_append_right _ List.mem_cons_self⟩)
        · have hOther : MergeJob.threadMergeSubPieceToInstance info ≠
              .threadMergeSubPieceToInstance other := fun hSame => hEq (by cases hSame; rfl)
          obtain hHere | hJob | ⟨buffer, hTask⟩ :=
            hPopped.underWay other hInside ⟨hVisited, hOther⟩ hHeld
          · exact Or.inl hHere
          · exact Or.inr (Or.inl hJob)
          · exact Or.inr (Or.inr ⟨buffer, List.mem_append_left _ hTask⟩)

/-- The task at the head of the queue is done. -/
theorem Delivers.task (h : Delivers build r s visited t) (hr : r.Addressable)
    {task : MergeTask} {rest : List MergeTask} (hTasks : t.tasks = task :: rest) :
    ∃ t', ({ t with tasks := rest }).runTask task = some t' ∧ Delivers build r s visited t' ∧
      t'.beingMerged = t.beingMerged := by
  have hPopped : Delivers build r s
      (fun info => visited info ∧ ∀ buffer, task ≠ .onMergeSubPieceSuccess info buffer)
      { t with tasks := rest } :=
    { h with
      answers := by
        intro info buffer hTask
        apply h.answers info buffer
        rw [hTasks]
        exact List.mem_cons_of_mem _ hTask
      underWay := by
        rintro info hIn ⟨hVisited, hOther⟩ hHas
        obtain hHere | hJob | ⟨buffer, hTask⟩ := h.underWay info hIn hVisited hHas
        · exact Or.inl hHere
        · exact Or.inr (Or.inl hJob)
        · rw [hTasks, List.mem_cons] at hTask
          exact Or.inr (Or.inr ⟨buffer, hTask.resolve_left fun hEq => hOther buffer hEq.symm⟩) }
  cases task with
  | onMergeSubPieceSuccess info buffer =>
      obtain ⟨hIn, hValid, hLength, hData⟩ :=
        h.answers info buffer (hTasks ▸ List.mem_cons_self)
      obtain ⟨m, hStep, hNext, -, hHere⟩ :=
        hPopped.onMergeSubPieceSuccess hr hIn hValid hLength hData
      refine ⟨_, hStep, { hNext with underWay := ?_ }, rfl⟩
      intro other hInside hVisited hHas
      by_cases hEq : other = info
      · subst hEq
        exact Or.inl hHere
      · apply hNext.underWay other hInside ⟨hVisited, _⟩ hHas
        intro _ hSame
        cases hSame
        exact hEq rfl
  | removeInstanceForMerge =>
      have hRest : Delivers build r s visited { t with tasks := rest } :=
        hPopped.mono fun info _ hVisited => ⟨hVisited, fun _ => MergeTask.noConfusion⟩
      refine ⟨_, rfl, ?_⟩
      rw [removeInstanceForMerge]
      split
      · exact ⟨hRest, rfl⟩
      · rename_i hRunning
        rw [Bool.not_eq_true', Bool.not_eq_false] at hRunning
        obtain ⟨hResource, hRanks⟩ := h.running hRunning
        refine ⟨{ hRest with
          file_eq := ?_, ordered := ?_, running := ?_, closed := ?_, reads := ?_, underWay := ?_ },
          rfl⟩
        · rw [← h.file_eq, settledFile, settledFile, List.foldl_append]
          rfl
        · rw [List.pairwise_append]
          refine ⟨h.ordered, List.pairwise_singleton _ _, ?_⟩
          intro job hJob last hLast
          rw [List.mem_singleton] at hLast
          rw [hLast]
          exact Nat.le_succ_of_le (hRanks job hJob)
        · intro hStopped
          cases hStopped
        · intro hClosed
          exact absurd (hResource.symm.trans hClosed) Bool.false_ne_true.symm
        · intro info hJob
          rw [List.mem_append, List.mem_singleton] at hJob
          exact h.reads info (hJob.resolve_right MergeJob.noConfusion)
        · intro info hIn hVisited hHas
          obtain hHere | hJob | hTask := hRest.underWay info hIn hVisited hHas
          · exact Or.inl hHere
          · exact Or.inr (Or.inl (List.mem_append_left _ hJob))
          · exact Or.inr (Or.inr hTask)

/-- A download brings the target a subpiece of the file. -/
theorem Delivers.addToTarget (h : Delivers build r s visited t) (hr : r.Addressable)
    (hIn : r.Inside info) :
    ∃ t', t.addToTarget info buffer = some t' ∧ Delivers build r s visited t' ∧
      t'.beingMerged = t.beingMerged := by
  obtain ⟨m, added, hAdd, hSound, hStores, hSame, -, -⟩ := h.target.asyncAddSubPiece hr hIn buffer
  rw [Merge.addToTarget, hAdd]
  refine ⟨_, rfl, ?_, rfl⟩
  apply h.stored hSound hStores
  · intro entry hMem
    split
    · exact List.mem_append_left _ hMem
    · exact hMem
  · intro hMissing hHas
    cases added with
    | true => exact Or.inr (Or.inl ⟨buffer, List.mem_append_right _ List.mem_cons_self⟩)
    | false =>
        rw [hSame rfl, hMissing] at hHas
        cases hHas

/-- What the source has already does not change it. -/
theorem addToSource_of_held (hHeld : t.isRunning = true → t.source.hasSubPiece info = true) :
    t.addToSource info buffer = some t := by
  unfold Merge.addToSource
  split
  · rfl
  · rename_i hRunning
    rw [Bool.not_eq_true', Bool.not_eq_false] at hRunning
    rw [SubPieceManager.asyncAddSubPiece, hHeld hRunning]
    split <;> rfl

/-- Every step that meets the condition keeps all of the source on its way. -/
theorem Delivers.step (h : Delivers build r s (fun _ => t.beingMerged = true) t)
    (hr : r.Addressable) (hLength : 0 < r.fileLength) (hn : r.NextNamed)
    (hs : SubPieceManager.Sound r s.source) {a : MergeAction} {t' : Merge μ}
    (hMeets : t.Meets build r a) (hStep : Step build t a t') :
    Delivers build r s (fun _ => t'.beingMerged = true) t' := by
  obtain ⟨hQuiet, hCarries, hTimer⟩ := hMeets
  unfold Step next at hStep
  cases a with
  | beMergedTo rounds =>
      cases hRunning : t.isRunning with
      | true => exact (h.beMergedTo hr hLength hn hs hRunning hCarries rounds).2 t' hStep
      | false =>
          simp only [Merge.beMergedTo, hRunning, Bool.not_false, if_true, Option.some.injEq] at hStep
          exact hStep ▸ h
  | mergeTimer rounds =>
      dsimp only at hStep
      split at hStep
      · have hStopped : t.isRunning = false := hTimer
        simp only [onMergeTimerElapsed, hStopped, Bool.not_false, if_true, Option.some.injEq] at hStep
        exact hStep ▸ { h with running := fun hRunning => by cases hRunning }
      · cases hStep
  | job reads fresh =>
      have hReads : reads = true := hQuiet
      dsimp only at hStep
      split at hStep
      · cases hStep
      · rename_i job rest hJobs
        cases hStep
        rw [hReads, runJob_beingMerged]
        exact h.job hr hs hJobs fresh
  | task =>
      dsimp only at hStep
      split at hStep
      · cases hStep
      · rename_i task rest hTasks
        obtain ⟨t'', hRun, hNext, hSame⟩ := h.task hr hTasks
        cases hRun.symm.trans hStep
        rw [hSame]
        exact hNext
  | attachDownloadDriver =>
      cases hStep
      exact { h with }
  | detachDownloadDriver =>
      cases hStep
      exact { h with }
  | addToSource info buffer =>
      dsimp only at hStep
      rw [addToSource_of_held hQuiet] at hStep
      cases hStep
      exact h
  | addToTarget info buffer =>
      obtain ⟨t'', hRun, hNext, hSame⟩ := h.addToTarget hr hQuiet
      cases hRun.symm.trans hStep
      rw [hSame]
      exact hNext

end Steps

section Runs

variable {build : MergeBuild} {r : RidInfo} {s t : Merge μ}

theorem Prepared.delivers (h : Prepared r s) :
    Delivers build r s (fun _ => s.beingMerged = true) s where
  source_eq := rfl
  file_eq := rfl
  target := h.target
  keeps := .refl _ _
  origin info _ hHas := Or.inl hHas
  inside := by simp [h.accessed]
  ordered := by
    apply List.pairwise_of_forall_mem_list
    intro a ha b hb
    rw [h.jobs a ha, h.jobs b hb]
  running _ := ⟨h.resourceRunning, fun job hJob => by
    rw [h.jobs job hJob]
    exact Nat.zero_le 1⟩
  closed hClosed := absurd (h.resourceRunning.symm.trans hClosed) Bool.false_ne_true.symm
  reads info hJob := by cases h.jobs _ hJob
  answers info buffer hTask := by simp [h.tasks] at hTask
  underWay info _ hMerged := absurd (h.beingMerged.symm.trans hMerged) Bool.false_ne_true

/-- In every run whose steps all meet the condition, a merge loses nothing and stays
in range. -/
theorem merged_of_run (hr : r.Addressable) (hLength : 0 < r.fileLength) (hn : r.NextNamed)
    (hStart : Prepared r s) (run : Reaches (Step build) (Meets build r) s t) :
    Merged build r s t := by
  have hs := hStart.source
  have h : Delivers build r s (fun _ => t.beingMerged = true) t :=
    run.invariant (P := fun t => Delivers build r s (fun _ => t.beingMerged = true) t)
      hStart.delivers fun _ _ _ h hMeets hStep => h.step hr hLength hn hs hMeets hStep
  refine ⟨h.inside, h.keeps, ?_, ?_⟩
  · intro rounds hRounds hCarries
    cases hRunning : t.isRunning with
    | true => exact (h.beMergedTo hr hLength hn hs hRunning hCarries rounds).1 hRounds
    | false => simp [next, Merge.beMergedTo, hRunning]
  · intro hMerged hJobs hTasks info hIn hHas
    rw [h.source_eq] at hHas
    obtain hHere | hJob | ⟨buffer, hTask⟩ := h.underWay info hIn hMerged hHas
    · exact ⟨hHere, h.origin info hIn hHere⟩
    · rw [hJobs] at hJob
      cases hJob
    · rw [hTasks] at hTask
      cases hTask

/-- Two instances of which the source is on disk and the target is empty. -/
def betweenStores (source target : SubPieceManager (List Bool)) (drivers : Nat) :
    Merge (List Bool) where
  source := source
  target := target
  isRunning := true
  beingMerged := false
  downloadDrivers := drivers
  timerStarted := false
  mergingPos := .make 0 0
  resourceRunning := true
  file _ := 7
  jobs := []
  tasks := []
  accessed := []
  arrived := []

/-- A build whose buffers have the length of a subpiece by default. -/
def wholeBuffers : MergeBuild := ⟨⟨true, fun _ => Guid.zero⟩, bytesNumPerSubpiece⟩

/-- The test of a run from a full source to an empty target. -/
def endsIn (r : RidInfo) (drivers : Nat) (check : Merge (List Bool) → MergeAction → Bool)
    (actions : List MergeAction) (test : Merge (List Bool) → Bool) : Option Bool :=
  (SubPieceManager.new r true false).bind fun source =>
    (SubPieceManager.new r false false).map fun target =>
      (execute (checked (next wholeBuffers) check) (betweenStores source target drivers)
        actions).any test

theorem exists_run {drivers : Nat} {check : Merge (List Bool) → MergeAction → Bool}
    {actions : List MergeAction} {test : Merge (List Bool) → Bool}
    (hr : r.Addressable) (h : endsIn r drivers check actions test = some true) :
    ∃ s t, Prepared r s ∧
      Reaches (Step wholeBuffers) (fun x a => check x a = true) s t ∧ test t = true := by
  obtain ⟨source, hSource, h⟩ := Option.bind_eq_some_iff.mp h
  obtain ⟨target, hTarget, h⟩ := Option.map_eq_some_iff.mp h
  obtain ⟨t, hRun, hTest⟩ := Reaches.exists_of_checked _ _ _ _ _ h
  refine ⟨_, t, ?_, hRun, hTest⟩
  have hFull : SubPieceManager.Reachable wholeBuffers.md5 r source :=
    ⟨source, .fresh true false hSource, .refl _⟩
  have hEmpty : SubPieceManager.Reachable wholeBuffers.md5 r target :=
    ⟨target, .fresh false false hTarget, .refl _⟩
  exact ⟨hFull.sound hr, hEmpty.sound hr, rfl, rfl, by simp [betweenStores], rfl, rfl⟩

/-- One subpiece, which is whole. -/
def wholeFile : RidInfo := SubPieceManager.singleBlock 1024 oneKib_lt_uint32

/-- One subpiece, which is short. -/
def shortFile : RidInfo := SubPieceManager.singleBlock 1000 (by decide)

theorem wholeFile_geometry : wholeFile.Addressable ∧ 0 < wholeFile.fileLength ∧
    wholeFile.NextNamed :=
  ⟨⟨⟨by decide, by decide, by decide⟩, by decide, by decide⟩, by decide,
    ⟨by decide, by decide, by decide⟩⟩

theorem shortFile_geometry : shortFile.Addressable ∧ 0 < shortFile.fileLength ∧
    shortFile.NextNamed :=
  ⟨⟨⟨by decide, by decide, by decide⟩, by decide, by decide⟩, by decide,
    ⟨by decide, by decide, by decide⟩⟩

/-- Reads succeed, nothing arrives, and the timer does not elapse too early. -/
def quiet (s : Merge (List Bool)) : MergeAction → Bool
  | .job reads _ => reads
  | .mergeTimer _ => !s.isRunning
  | .addToSource _ _ | .addToTarget _ _ => false
  | _ => true

/-- Reads succeed and nothing arrives. -/
def quietButTimer (_ : Merge (List Bool)) : MergeAction → Bool
  | .job reads _ => reads
  | .addToSource _ _ | .addToTarget _ _ => false
  | _ => true

theorem quiet_meets {s : Merge (List Bool)} {a : MergeAction} (h : quiet s a = true) (r : RidInfo) :
    s.Undisturbed r a ∧ s.TimerStopped a := by
  cases a <;> simp_all [quiet, Undisturbed, TimerStopped]

theorem quietButTimer_meets {s : Merge (List Bool)} {a : MergeAction}
    (h : quietButTimer s a = true) (r : RidInfo) : s.Undisturbed r a := by
  cases a <;> simp_all [quietButTimer, Undisturbed]

/-- A whole subpiece can be read back. -/
theorem wholeFile_carries (s : Merge (List Bool)) (a : MergeAction) :
    s.StartsCarrying wholeBuffers wholeFile a := by
  cases a with
  | beMergedTo rounds =>
      intro info _ _ _
      apply Or.inr
      refine ⟨rfl, ?_⟩
      unfold RidInfo.subpieceSize
      split <;> rfl
  | _ => trivial

/-- A subpiece read back from disk arrives. -/
theorem merged_of_wholeFile : ∃ s t : Merge (List Bool),
    (t.beingMerged && t.jobs.isEmpty && t.tasks.isEmpty &&
      t.source.hasSubPiece (.make 0 0)) = true ∧ Merged wholeBuffers wholeFile s t := by
  obtain ⟨hr, hLength, hn⟩ := wholeFile_geometry
  have hEnd : endsIn wholeFile 0 quiet
      [.beMergedTo 1, .job true fun _ => 0, .task, .task, .job true fun _ => 0]
      (fun t => t.beingMerged && t.jobs.isEmpty && t.tasks.isEmpty &&
        t.source.hasSubPiece (.make 0 0)) = some true := by decide +kernel
  obtain ⟨s, t, hStart, run, hTest⟩ := exists_run hr hEnd
  refine ⟨s, t, hTest, merged_of_run hr hLength hn hStart (run.mono ?_)⟩
  intro s a hQuiet
  obtain ⟨hSurroundings, hTimer⟩ := quiet_meets hQuiet wholeFile
  exact ⟨hSurroundings, wholeFile_carries s a, hTimer⟩

/-- A tick after the walk looks past the end of the file, and a short last subpiece
that was read back from disk is refused by the target. -/
theorem merged_fails :
    (¬ ∀ (build : MergeBuild) (r : RidInfo) (s t : Merge (List Bool)), r.Addressable →
      0 < r.fileLength → r.NextNamed → Prepared r s →
      Reaches (Step build) (fun s a => s.Undisturbed r a ∧ s.StartsCarrying build r a) s t →
      Merged build r s t) ∧
    ¬ ∀ (build : MergeBuild) (r : RidInfo) (s t : Merge (List Bool)), r.Addressable →
      0 < r.fileLength → r.NextNamed → Prepared r s →
      Reaches (Step build) (fun s a => s.Undisturbed r a ∧ s.TimerStopped a) s t →
      Merged build r s t := by
  constructor
  · intro hAll
    obtain ⟨hr, hLength, hn⟩ := wholeFile_geometry
    have hEnd : endsIn wholeFile 1 quietButTimer [.beMergedTo 1, .mergeTimer 1]
        (fun t => t.accessed.any fun info => !decide (wholeFile.Inside info)) = some true := by
      decide +kernel
    obtain ⟨s, t, hStart, run, hTest⟩ := exists_run hr hEnd
    obtain ⟨info, hMem, hOutside⟩ := List.any_eq_true.mp hTest
    have hMerged := hAll _ _ s t hr hLength hn hStart (run.mono fun s a hQuiet =>
      ⟨quietButTimer_meets hQuiet wholeFile, wholeFile_carries s a⟩)
    rw [Bool.not_eq_true', decide_eq_false_iff_not] at hOutside
    exact hOutside (hMerged.inside info hMem)
  · intro hAll
    obtain ⟨hr, hLength, hn⟩ := shortFile_geometry
    have hEnd : endsIn shortFile 0 quiet
        [.beMergedTo 1, .job true fun _ => 0, .task, .task, .job true fun _ => 0]
        (fun t => t.beingMerged && (t.jobs.isEmpty && (t.tasks.isEmpty &&
          (t.source.hasSubPiece (.make 0 0) && !t.target.hasSubPiece (.make 0 0))))) =
          some true := by decide +kernel
    obtain ⟨s, t, hStart, run, hTest⟩ := exists_run hr hEnd
    simp only [Bool.and_eq_true, List.isEmpty_iff, Bool.not_eq_true'] at hTest
    obtain ⟨hMerging, hJobs, hTasks, hHas, hLost⟩ := hTest
    have hMerged := hAll _ _ s t hr hLength hn hStart (run.mono fun s a hQuiet =>
      quiet_meets hQuiet shortFile)
    have hIn : shortFile.Inside (.make 0 0) := by decide +kernel
    have hHere := (hMerged.delivers hMerging hJobs hTasks _ hIn hHas).1
    exact Bool.false_ne_true (hLost.symm.trans hHere)

end Runs

end Merge

end Storage
