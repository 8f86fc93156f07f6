import Peer.Storage.PositionWalk
import Peer.Storage.WriteBack

/-! One instance being merged into another with the same RID information. The walk
over the file runs on the main thread; a subpiece of the source that is not in
memory is read by the storage thread and handed to the target by a later task. -/
namespace Storage

open Basis

/-- The jobs of the storage thread on the resource of the source: the write of a
block that left the memory, the read of a subpiece for the target, and the end. -/
inductive MergeJob where
  | threadPendingWriteBlock (position : Nat) (data : Bytes)
  | threadMergeSubPieceToInstance (info : SubPieceInfo)
  | closeResource

/-- The tasks posted to the main thread. -/
inductive MergeTask where
  | onMergeSubPieceSuccess (info : SubPieceInfo) (buffer : SubPieceBuffer)
  | removeInstanceForMerge

/-- The source and the target of a merge. `accessed` and `arrived` record what was
done, for statements about runs: the positions at which the walk looked into the
stores, and the subpieces the target got from elsewhere. -/
structure Merge (μ : Type) where
  source : SubPieceManager μ
  target : SubPieceManager μ
  isRunning : Bool
  beingMerged : Bool
  downloadDrivers : Nat
  timerStarted : Bool
  mergingPos : SubPieceInfo
  resourceRunning : Bool
  file : Nat → UInt8
  jobs : List MergeJob
  tasks : List MergeTask
  accessed : List SubPieceInfo
  arrived : List (SubPieceInfo × SubPieceBuffer)

/-- What is outside of the walk: the build, and the length `SubPieceBuffer(content)`
gives a buffer when its caller names none. -/
structure MergeBuild extends Build where
  defaultLength : Nat

/-- The file after a write. -/
def writeFile (file : Nat → UInt8) (position : Nat) (data : Bytes) : Nat → UInt8 := fun p =>
  if position ≤ p ∧ p < position + data.length then data.getD (p - position) 0 else file p

/-- The bytes of the file from a position on. -/
def readFile (file : Nat → UInt8) (position length : Nat) : Bytes :=
  (List.range length).map fun i => file (position + i)

/-- `ReadBufferArray` into one new content, of which it fills the first `length`
bytes. -/
def readBufferArray (file : Nat → UInt8) (position length : Nat) (fresh : Nat → UInt8) : Bytes :=
  (List.range bytesNumPerSubpiece).map fun i => if i < length then file (position + i) else fresh i

namespace Merge

variable {μ : Type} [BlockMap μ]

def onMergeSubPieceSuccess (s : Merge μ) (info : SubPieceInfo) (buffer : SubPieceBuffer) :
    Option (Merge μ) :=
  (s.target.asyncAddSubPiece info buffer).map fun (target, _) => { s with target := target }

def mergeSubPiece (build : MergeBuild) (s : Merge μ) (info : SubPieceInfo) : Option (Merge μ) :=
  if (s.source.getSubPiece info).length ≠ 0 then
    s.onMergeSubPieceSuccess info (s.source.getSubPiece info)
  else if build.diskMode then
    some { s with jobs := s.jobs ++ [.threadMergeSubPieceToInstance info] }
  else some s

/-- One round of the loop of `MergeResourceTo`, up to the increment. -/
def mergePosition (build : MergeBuild) (s : Merge μ) : Option (Merge μ) :=
  let s := { s with accessed := s.accessed ++ [s.mergingPos] }
  if s.source.hasSubPiece s.mergingPos && !s.target.hasSubPiece s.mergingPos then
    s.mergeSubPiece build s.mergingPos
  else some s

/-- The end of `MergeResourceTo`. -/
def finishMerge (s : Merge μ) : Merge μ :=
  if s.downloadDrivers ≠ 0 then { s with timerStarted := true }
  else { s with tasks := s.tasks ++ [.removeInstanceForMerge] }

/-- `MergeResourceTo`, whose loop ends where `IncSubPieceInfo` answers false. -/
def mergeResourceTo (build : MergeBuild) : Nat → Merge μ → Option (Merge μ)
  | 0, _ => none
  | rounds + 1, s =>
      (s.mergePosition build).bind fun s =>
        let (pos, more) := s.source.incSubPieceInfo s.mergingPos
        let s := { s with mergingPos := pos }
        if more then mergeResourceTo build rounds s else some s.finishMerge

def beMergedTo (build : MergeBuild) (rounds : Nat) (s : Merge μ) : Option (Merge μ) :=
  if !s.isRunning then some s
  else mergeResourceTo build rounds
    { s with timerStarted := true, beingMerged := true, mergingPos := .make 0 0 }

def onMergeTimerElapsed (build : MergeBuild) (rounds : Nat) (s : Merge μ) : Option (Merge μ) :=
  if !s.isRunning then some s else mergeResourceTo build rounds s

/-- `ThreadMergeSubPieceToInstance`, given whether the file could be opened and read. -/
def threadMergeSubPieceToInstance (build : MergeBuild) (s : Merge μ) (info : SubPieceInfo)
    (reads : Bool) (fresh : Nat → UInt8) : Merge μ :=
  if !s.resourceRunning then s
  else if !s.source.hasSubPiece info then s
  else if !reads then s
  else
    let (startoffset, length) := s.source.getSubPiecePosition info
    { s with tasks := s.tasks ++ [.onMergeSubPieceSuccess info
        (.ofContent (readBufferArray s.file startoffset length fresh) build.defaultLength)] }

def runJob (build : MergeBuild) (s : Merge μ) (reads : Bool) (fresh : Nat → UInt8) :
    MergeJob → Merge μ
  | .threadPendingWriteBlock position data => { s with file := writeFile s.file position data }
  | .threadMergeSubPieceToInstance info => s.threadMergeSubPieceToInstance build info reads fresh
  | .closeResource => { s with resourceRunning := false }

/-- `RemoveInstanceForMerge`, which removes the source and closes its resource. -/
def removeInstanceForMerge (s : Merge μ) : Merge μ :=
  if !s.isRunning then s
  else { s with
    isRunning := false, downloadDrivers := 0, timerStarted := false
    jobs := s.jobs ++ [.closeResource] }

def runTask (s : Merge μ) : MergeTask → Option (Merge μ)
  | .onMergeSubPieceSuccess info buffer => s.onMergeSubPieceSuccess info buffer
  | .removeInstanceForMerge => some s.removeInstanceForMerge

/-- What the downloads give the target. -/
def addToTarget (s : Merge μ) (info : SubPieceInfo) (buffer : SubPieceBuffer) :
    Option (Merge μ) :=
  (s.target.asyncAddSubPiece info buffer).map fun (target, added) =>
    { s with target := target, arrived := if added then s.arrived ++ [(info, buffer)] else s.arrived }

/-- What the downloads give the source. -/
def addToSource (s : Merge μ) (info : SubPieceInfo) (buffer : SubPieceBuffer) :
    Option (Merge μ) :=
  if !s.isRunning then some s
  else (s.source.asyncAddSubPiece info buffer).map fun (source, _) => { s with source := source }

end Merge

/-- What happens to the two instances. A timer can elapse when it was started; the
loop of the walk gets `rounds` rounds. -/
inductive MergeAction where
  | beMergedTo (rounds : Nat)
  | mergeTimer (rounds : Nat)
  | job (reads : Bool) (fresh : Nat → UInt8)
  | task
  | attachDownloadDriver
  | detachDownloadDriver
  | addToSource (info : SubPieceInfo) (buffer : SubPieceBuffer)
  | addToTarget (info : SubPieceInfo) (buffer : SubPieceBuffer)

namespace Merge

variable {μ : Type} [BlockMap μ]

def next (build : MergeBuild) (s : Merge μ) : MergeAction → Option (Merge μ)
  | .beMergedTo rounds => s.beMergedTo build rounds
  | .mergeTimer rounds =>
      if s.timerStarted then ({ s with timerStarted := false }).onMergeTimerElapsed build rounds
      else none
  | .job reads fresh =>
      match s.jobs with
      | [] => none
      | job :: rest => some (({ s with jobs := rest }).runJob build reads fresh job)
  | .task =>
      match s.tasks with
      | [] => none
      | task :: rest => ({ s with tasks := rest }).runTask task
  | .attachDownloadDriver => some { s with downloadDrivers := s.downloadDrivers + 1 }
  | .detachDownloadDriver => some { s with downloadDrivers := s.downloadDrivers - 1 }
  | .addToSource info buffer => s.addToSource info buffer
  | .addToTarget info buffer => s.addToTarget info buffer

end Merge

namespace BlockNode

variable {node node' : BlockNode} {i : Nat} {buf : SubPieceBuffer} {flag : Bool}

theorem markIfFull_subpieces (node : BlockNode) : node.markIfFull.subpieces = node.subpieces := by
  rcases @markIfFull_cases node with h | ⟨h, -⟩ <;> rw [h]

theorem addSubpiece_subpieces (h : node.addSubpiece i buf = some (node', flag)) :
    node'.subpieces =
      if i ∈ node.keys then node.subpieces else node.subpieces.insert i buf := by
  obtain ⟨start, hStart, hSame⟩ : ∃ start : BlockNode,
      (if node.nodeState = .empty then { node with nodeState := .downloading } else node) = start ∧
      start.subpieces = node.subpieces := by
    refine ⟨_, rfl, ?_⟩
    split <;> rfl
  simp only [addSubpiece, hStart, hSame, mem_keys] at h ⊢
  split at h
  · rename_i hIn
    cases h
    rw [if_pos hIn, hSame]
  · rename_i hOut
    obtain ⟨stored, hStored, hEq⟩ := Option.map_eq_some_iff.mp h
    obtain ⟨-, rfl⟩ := modifyPieceCount_eq_some.mp hStored
    cases hEq
    rw [if_neg hOut, markIfFull_subpieces]
    exact congrArg (fun subpieces => Finmap.insert i buf subpieces) hSame

/-- A lookup after an insertion finds the new buffer or an old one. -/
theorem lookup_of_addSubpiece (h : node.addSubpiece i buf = some (node', flag)) {k : Nat}
    {x : SubPieceBuffer} (hx : node'.subpieces.lookup k = some x) :
    node.subpieces.lookup k = some x ∨ k = i ∧ x = buf := by
  rw [addSubpiece_subpieces h] at hx
  split at hx
  · exact Or.inl hx
  · exact insertSubpiece_lookup node i buf k x hx

end BlockNode

namespace SubPieceManager

variable {μ : Type} [BlockMap μ] {r : RidInfo} {m m' : SubPieceManager μ} {info : SubPieceInfo}
  {buf : SubPieceBuffer}

/-- The buffer of a subpiece that is in memory. -/
def bufferAt (m : SubPieceManager μ) (info : SubPieceInfo) : Option SubPieceBuffer :=
  (m.nodeAt info.blockIndex).bind fun node => node.subpieces.lookup info.subpieceIndex

/-- The buffers of a node are valid and have the sizes of their subpieces. -/
def Buffered (r : RidInfo) (b : Nat) (node : BlockNode) (_ : Bool) : Prop :=
  ∀ s buf, node.subpieces.lookup s = some buf →
    buf.isValid = true ∧ buf.length = r.subpieceSize b s

/-- A store whose blocks agree and whose buffers are whole. -/
structure Sound (r : RidInfo) (m : SubPieceManager μ) : Prop where
  agrees : BlocksAgree r m
  buffered : NodesHave (Buffered r) m

theorem Sound.of_bufferAt (h : Sound r m) (hBuf : m.bufferAt info = some buf) :
    buf.isValid = true ∧ buf.length = r.subpieceSize info.blockIndex info.subpieceIndex := by
  obtain ⟨node, hNode, hLookup⟩ := Option.bind_eq_some_iff.mp hBuf
  exact h.buffered _ node hNode _ buf hLookup

/-- A subpiece in memory is what `GetSubPiece` answers, and is not empty. -/
theorem Sound.getSubPiece_of_bufferAt (h : Sound r m) (hBuf : m.bufferAt info = some buf) :
    m.getSubPiece info = buf ∧ (m.getSubPiece info).length ≠ 0 := by
  obtain ⟨hValid, hLength⟩ := h.of_bufferAt hBuf
  obtain ⟨node, hNode, hLookup⟩ := Option.bind_eq_some_iff.mp hBuf
  have hGet : m.getSubPiece info = buf := by
    simp only [getSubPiece, hNode, BlockNode.getSubPiece, hLookup, hValid, if_true]
  rw [hGet, hLength]
  exact ⟨rfl, Nat.ne_of_gt (RidInfo.subpieceSize_pos _ _)⟩

omit [BlockMap μ] in
theorem bufferAt_of_getSubPiece (h : (m.getSubPiece info).length ≠ 0) :
    m.bufferAt info = some (m.getSubPiece info) := by
  unfold getSubPiece at h ⊢
  unfold bufferAt
  cases hNode : m.nodeAt info.blockIndex with
  | none => simp [hNode, SubPieceBuffer.length] at h
  | some node =>
      simp only [hNode, BlockNode.getSubPiece] at h ⊢
      cases hLookup : node.subpieces.lookup info.subpieceIndex with
      | none => simp [hLookup, SubPieceBuffer.length] at h
      | some buf =>
          simp only [hLookup] at h
          split at h
          · simp [*]
          · simp [SubPieceBuffer.length] at h

/-- Whole buffers of subpieces of the file pass the admission test. -/
theorem BuiltFor.isSubPieceValid_of_length (h : BuiltFor r m) (hr : r.Addressable)
    (hInside : r.Inside info)
    (hLength : buf.length = r.subpieceSize info.blockIndex info.subpieceIndex) :
    m.isSubPieceValid info buf = true := by
  obtain ⟨hb, hs⟩ := hInside
  have hFile := hr.fileLength_pos (by omega)
  obtain ⟨hBlock, hLast⟩ := lastInfoOf_eq hr hFile
  have hLe : info.le m.lastSubpieceInfo = true := by
    rw [h.lastInfo_eq, SubPieceInfo.le_iff, hBlock, hLast]
    unfold RidInfo.capacity at hs
    split at hs <;> omega
  rw [← h.position_length hr hb, getSubPiecePosition, h.fileLength_eq] at hLength
  simp only [isSubPieceValid, hLe, Bool.not_true, Bool.false_eq_true, if_false, hLength, h.lastSize_eq]
  split <;> simp

/-- A valid subpiece of a block without its bit enters a node that is not full. -/
theorem addSubPiece_stores (hSized : Sized m) (hBit : m.hasFullBlock info.blockIndex = false)
    (hValid : buf.isValid = true) (hLt : info.blockIndex < m.blocks.length)
    (hFull : (m.nodeOrNew info.blockIndex).isFull = false) {node' : BlockNode} {flag : Bool}
    (hCall : (m.nodeOrNew info.blockIndex).addSubpiece info.subpieceIndex buf =
      some (node', flag)) :
    ∃ m', m.addSubPiece info buf = some (m', true) ∧
      Becomes m info.blockIndex (some node') node'.isFull (m.countWith info.blockIndex)
        (u32 (m.downloadBytes + buf.length)) m' := by
  obtain ⟨hNode, hEnsure⟩ := ensureNode_becomes hSized hLt
  have hBytes : (m.ensureNode info.blockIndex).1.downloadBytes = m.downloadBytes :=
    hEnsure.bytes_eq
  have hStep := (hEnsure.setNode (some node')).setBytes (u32 (m.downloadBytes + buf.length))
  simp only [addSubPiece, hBit, hValid, Bool.false_eq_true, if_false, Bool.not_true, if_pos hLt,
    hNode, hFull, storeSubPiece, hCall, Option.map_some, hBytes]
  refine ⟨_, rfl, ?_⟩
  cases hNew : node'.isFull with
  | true =>
      simp only [if_true]
      exact hStep.setBit true
  | false =>
      rw [hBit] at hStep
      simpa using hStep

/-- What the store of the target keeps when it gets more. -/
structure Keeps (r : RidInfo) (m m' : SubPieceManager μ) : Prop where
  held : ∀ info, r.Inside info → m.hasSubPiece info = true → m'.hasSubPiece info = true
  bytes : ∀ info, r.Inside info → m.hasSubPiece info = true → m'.bufferAt info = m.bufferAt info

theorem Keeps.refl (r : RidInfo) (m : SubPieceManager μ) : Keeps r m m :=
  ⟨fun _ _ => id, fun _ _ _ => rfl⟩

theorem Keeps.trans {m'' : SubPieceManager μ} (h : Keeps r m m') (h' : Keeps r m' m'') :
    Keeps r m m'' :=
  ⟨fun info hIn hHas => h'.held info hIn (h.held info hIn hHas),
    fun info hIn hHas =>
      (h'.bytes info hIn (h.held info hIn hHas)).trans (h.bytes info hIn hHas)⟩

/-- Nothing but the named subpiece is new. -/
structure Stores (r : RidInfo) (info : SubPieceInfo) (m m' : SubPieceManager μ) : Prop
    extends Keeps r m m' where
  only : ∀ other, r.Inside other → m'.hasSubPiece other = true →
    m.hasSubPiece other = true ∨ other = info

theorem Stores.refl (r : RidInfo) (info : SubPieceInfo) (m : SubPieceManager μ) :
    Stores r info m m :=
  ⟨.refl r m, fun _ _ => Or.inl⟩

omit [BlockMap μ] in
theorem nodeOrNew_lookup (m : SubPieceManager μ) (b k : Nat) :
    (m.nodeOrNew b).subpieces.lookup k =
      (m.nodeAt b).bind fun node => node.subpieces.lookup k := by
  unfold nodeOrNew
  cases m.nodeAt b with
  | none => rfl
  | some node => rfl

theorem held_of_mem_nodeOrNew {b k : Nat} (h : k ∈ (m.nodeOrNew b).keys) : m.Held b k := by
  unfold nodeOrNew at h
  unfold Held
  cases hNode : m.nodeAt b with
  | none =>
      rw [hNode] at h
      exact absurd h (Finset.notMem_empty _)
  | some node =>
      rw [hNode] at h
      exact Or.inr h

section Adding

variable (h : Sound r m) (hr : r.Addressable) (hInside : r.Inside info)
include h hr hInside

/-- The node that is to get a missing subpiece is not full and does not have it. -/
theorem Sound.nodeOrNew_of_missing (hMissing : m.hasSubPiece info = false) :
    m.hasFullBlock info.blockIndex = false ∧ (m.nodeOrNew info.blockIndex).isFull = false ∧
      info.subpieceIndex ∉ (m.nodeOrNew info.blockIndex).keys := by
  have hHeld : ¬ m.Held info.blockIndex info.subpieceIndex := by
    rw [← h.agrees.hasSubPiece_iff hr hInside, hMissing]
    exact Bool.false_ne_true
  have hBit : m.hasFullBlock info.blockIndex = false := by
    apply Bool.eq_false_iff.mpr
    intro hBit
    exact hHeld ((h.agrees.bit_iff hr.toValid hInside.1).mp hBit _ hInside.2)
  refine ⟨hBit, ?_, ?_⟩
  · apply Bool.eq_false_iff.mpr
    intro hFull
    have hNode := h.agrees.nodeOrNew_full hr hInside.1 hFull
    have hSame := (h.agrees.node hInside.1 hNode).2
    rw [hBit, hFull] at hSame
    cases hSame
  · intro hIn
    exact hHeld (held_of_mem_nodeOrNew hIn)

omit hInside in
/-- What is held of a block that is not full is in the memory of its node. -/
theorem Sound.mem_keys_of_held {other : SubPieceInfo} (hIn : r.Inside other)
    (hBlock : other.blockIndex = info.blockIndex) (hBit : m.hasFullBlock info.blockIndex = false)
    (hFull : (m.nodeOrNew info.blockIndex).isFull = false) (hHas : m.hasSubPiece other = true) :
    other.subpieceIndex ∈ (m.nodeOrNew info.blockIndex).keys := by
  rw [h.agrees.hasSubPiece_iff hr hIn, Held, hBlock] at hHas
  unfold nodeOrNew at hFull ⊢
  cases hNode : m.nodeAt info.blockIndex with
  | none =>
      rw [hNode, hBit] at hHas
      cases hHas
  | some node =>
      rw [hNode] at hHas hFull
      rw [Option.getD_some] at hFull ⊢
      exact hHas.resolve_left (Bool.eq_false_iff.mp (BlockNode.not_onDisk_of_not_full hFull))

/-- A missing subpiece that is whole is stored, and nothing else changes. -/
theorem Sound.addSubPiece_missing (hMissing : m.hasSubPiece info = false)
    (hValid : buf.isValid = true)
    (hLength : buf.length = r.subpieceSize info.blockIndex info.subpieceIndex) :
    ∃ m', m.addSubPiece info buf = some (m', true) ∧ Sound r m' ∧ Stores r info m m' ∧
      m'.hasSubPiece info = true ∧ m'.bufferAt info = some buf := by
  obtain ⟨hBit, hFull, hOut⟩ := h.nodeOrNew_of_missing hr hInside hMissing
  have hFits := h.agrees.nodeOrNew_fits hr hInside.1
  have hPiece : info.subpieceIndex / subpieceNumPerPiece <
      (m.nodeOrNew info.blockIndex).pieceCount.length := by
    have hCap := RidInfo.capacity_lt hr.toValid info.blockIndex
    have hSub := hInside.2
    rw [hFits.pieces_eq, BlockNode.piecesOf_eq (by omega)]
    simp only [subpieceNumPerPiece]
    omega
  obtain ⟨⟨node', flag⟩, hCall⟩ :=
    Option.isSome_iff_exists.mp (BlockNode.addSubpiece_isSome buf hPiece)
  obtain ⟨m', hAdd, hBecomes⟩ := addSubPiece_stores h.agrees.builtFor.sized hBit hValid
    (h.agrees.builtFor.length_eq ▸ hInside.1) hFull hCall
  have hAdded := BlockNode.addSubpiece_added hFull hCall
  have hMap := BlockNode.addSubpiece_subpieces hCall
  rw [if_neg hOut] at hMap
  have hAgree : BlocksAgree r m' := by
    apply h.agrees.becomes hBecomes
    exact BlockOk.some (hFits.added hAdded hInside.2
      (BlockNode.not_onDisk_of_not_full hFull)) rfl
  have hNewLookup : node'.subpieces.lookup info.subpieceIndex = some buf := by
    rw [hMap]
    exact Finmap.lookup_insert _
  have hOldLookup : ∀ k, k ≠ info.subpieceIndex → node'.subpieces.lookup k =
      (m.nodeOrNew info.blockIndex).subpieces.lookup k := by
    intro k hk
    rw [hMap]
    exact Finmap.lookup_insert_of_ne _ hk
  have hOther : ∀ other : SubPieceInfo, r.Inside other → m.hasSubPiece other = true →
      other.blockIndex = info.blockIndex → other.subpieceIndex ≠ info.subpieceIndex := by
    intro other hIn hHas hBlock hSub
    rw [SubPieceInfo.ext hBlock hSub, hMissing] at hHas
    cases hHas
  refine ⟨m', hAdd, ⟨hAgree, ?_⟩, ⟨⟨?_, ?_⟩, ?_⟩, ?_, ?_⟩
  · apply hBecomes.nodes h.buffered
    intro node hNode s x hx
    cases hNode
    by_cases hs : s = info.subpieceIndex
    · subst hs
      cases hNewLookup.symm.trans hx
      exact ⟨hValid, hLength⟩
    · rw [hOldLookup s hs, nodeOrNew_lookup] at hx
      obtain ⟨node, hNode, hx⟩ := Option.bind_eq_some_iff.mp hx
      exact h.buffered _ node hNode s x hx
  · intro other hIn hHas
    rw [hAgree.hasSubPiece_iff hr hIn, Held]
    by_cases hBlock : other.blockIndex = info.blockIndex
    · rw [hBlock, hBecomes.nodeAt_self]
      apply Or.inr
      rw [hAdded.keys_eq]
      exact Finset.mem_insert_of_mem
        (h.mem_keys_of_held hr hIn hBlock hBit hFull hHas)
    · rw [h.agrees.hasSubPiece_iff hr hIn, Held] at hHas
      rw [hBecomes.nodeAt_of_ne _ hBlock,
        hBecomes.bit_of_ne _ hBlock (h.agrees.builtFor.length_eq ▸ hIn.1)]
      exact hHas
  · intro other hIn hHas
    unfold bufferAt
    by_cases hBlock : other.blockIndex = info.blockIndex
    · rw [hBlock, hBecomes.nodeAt_self, Option.bind_some,
        hOldLookup _ (hOther other hIn hHas hBlock), nodeOrNew_lookup]
    · rw [hBecomes.nodeAt_of_ne _ hBlock]
  · intro other hIn hHas
    rw [hAgree.hasSubPiece_iff hr hIn, Held] at hHas
    rw [h.agrees.hasSubPiece_iff hr hIn]
    by_cases hBlock : other.blockIndex = info.blockIndex
    · rw [hBlock, hBecomes.nodeAt_self] at hHas
      have hMem := hHas.resolve_left (Bool.eq_false_iff.mp hAdded.onDisk)
      rw [hAdded.keys_eq, Finset.mem_insert] at hMem
      rcases hMem with hSub | hMem
      · exact Or.inr (SubPieceInfo.ext hBlock hSub)
      · rw [hBlock]
        exact Or.inl (held_of_mem_nodeOrNew hMem)
    · rw [hBecomes.nodeAt_of_ne _ hBlock,
        hBecomes.bit_of_ne _ hBlock (h.agrees.builtFor.length_eq ▸ hIn.1)] at hHas
      exact Or.inl hHas
  · rw [hAgree.hasSubPiece_iff hr hInside, Held, hBecomes.nodeAt_self]
    apply Or.inr
    rw [hAdded.keys_eq]
    exact Finset.mem_insert_self _ _
  · rw [bufferAt, hBecomes.nodeAt_self, Option.bind_some, hNewLookup]

/-- `AsyncAddSubPiece` returns, keeps what is held, and stores what is whole and
missing. -/
theorem Sound.asyncAddSubPiece (buf : SubPieceBuffer) :
    ∃ m' added, m.asyncAddSubPiece info buf = some (m', added) ∧ Sound r m' ∧ Stores r info m m' ∧
      (added = false → m' = m) ∧
      (added = true → m.hasSubPiece info = false ∧ m'.bufferAt info = some buf) ∧
      (buf.isValid = true → buf.length = r.subpieceSize info.blockIndex info.subpieceIndex →
        m'.hasSubPiece info = true ∧ (m.hasSubPiece info = false → added = true)) := by
  unfold SubPieceManager.asyncAddSubPiece
  by_cases hAdmit : m.isSubPieceValid info buf = true
  · rw [hAdmit, Bool.not_true, if_neg Bool.false_ne_true]
    cases hHas : m.hasSubPiece info with
    | true =>
        rw [if_pos rfl]
        exact ⟨m, false, rfl, h, .refl r info m, fun _ => rfl, fun hTrue => (Bool.false_ne_true hTrue).elim,
          fun _ _ => ⟨hHas, fun hFalse => (Bool.false_ne_true hFalse.symm).elim⟩⟩
    | false =>
        rw [if_neg Bool.false_ne_true]
        cases hValid : buf.isValid with
        | true =>
            obtain ⟨m', hAdd, hSound, hKeeps, hHeld, hBuf⟩ := h.addSubPiece_missing hr hInside hHas
              hValid (h.agrees.builtFor.length_of_valid hr hInside.1 hAdmit)
            exact ⟨m', true, hAdd, hSound, hKeeps, fun hFalse => (Bool.false_ne_true hFalse.symm).elim,
              fun _ => ⟨rfl, hBuf⟩, fun _ _ => ⟨hHeld, fun _ => rfl⟩⟩
        | false =>
            have hBit := (h.nodeOrNew_of_missing hr hInside hHas).1
            refine ⟨m, false, ?_, h, .refl r info m, fun _ => rfl,
              fun hTrue => (Bool.false_ne_true hTrue).elim,
              fun hTrue => (Bool.false_ne_true hTrue).elim⟩
            simp [addSubPiece, hBit, hValid]
  · rw [Bool.eq_false_iff.mpr hAdmit, Bool.not_false, if_pos rfl]
    refine ⟨m, false, rfl, h, .refl r info m, fun _ => rfl, fun hTrue => (Bool.false_ne_true hTrue).elim,
      ?_⟩
    intro _ hLength
    exact absurd (h.agrees.builtFor.isSubPieceValid_of_length hr hInside hLength) hAdmit

end Adding

section Reached

variable {md5 : Bytes → Guid} {op : StoreOp}

/-- The calls that store whole subpieces keep the buffers of a node whole. -/
theorem Buffered.rules (hr : r.Addressable) (hm : BuiltFor r m) (hOp : op.WholeSubpieces r)
    (hValid : ∀ info buf, op = .addSubPiece info buf → buf.isValid = true) :
    NodeRules ⟨true, md5⟩ m op (Buffered r) where
  created info buf _ _ _ s x hx := by cases hx
  added info buf node node' flag hEq h hFull hCall s x hx := by
    subst hEq
    rcases BlockNode.lookup_of_addSubpiece hCall hx with hOld | ⟨rfl, rfl⟩
    · exact h s x hOld
    · exact ⟨hValid info x rfl, hOp.2⟩
  loaded info content node bit hEq _ h := by
    subst hEq
    by_cases hIn : info.subpieceIndex ∈ node.keys
    · rw [BlockNode.loadSubPieceBuffer_of_mem hIn]
      exact h
    · intro s x hx
      rw [(BlockNode.loadSubPieceBuffer_of_notMem _ hIn).2.2.1] at hx
      rcases BlockNode.insertSubpiece_lookup node _ _ s x hx with hOld | ⟨rfl, rfl⟩
      · exact h s x hOld
      · refine ⟨rfl, ?_⟩
        rw [SubPieceBuffer.length, SubPieceBuffer.ofContent, hm.loadSize_eq hr hOp.1.1,
          List.length_take, hOp.2]
        exact Nat.min_eq_left (RidInfo.subpieceSize_le _ _)
  fromDisk b _ _ s x hx := by cases hx
  reading b node bit _ h := by
    unfold Buffered
    rw [BlockNode.setBlockReading_subpieces]
    exact h
  taken _ _ _ _ hMode := by cases hMode
  evicted _ _ _ _ _ hMode := by cases hMode
  cleared b node node' bit play _ _ h hClear s x hx :=
    h s x ((BlockNode.clearBlockMemCache_cleared hClear).lookup_of_some s x hx)
  reset info node bit _ _ h := h

theorem Sound.step (h : Sound r m) (hr : r.Addressable) (hBlocks : op.KeepsBlocks r m)
    (hWhole : op.WholeSubpieces r) (hStep : Step ⟨true, md5⟩ m op m') : Sound r m' := by
  refine ⟨h.agrees.step hr hBlocks hStep, ?_⟩
  have hm := h.agrees.builtFor
  by_cases hInvalid : ∃ info buf, op = .addSubPiece info buf ∧ buf.isValid = false
  · obtain ⟨info, buf, rfl, hInvalid⟩ := hInvalid
    obtain ⟨⟨result, added⟩, hAdd, rfl⟩ := Option.map_eq_some_iff.mp hStep
    rw [addSubPiece_of_invalid hAdd hInvalid]
    exact h.buffered
  · apply hStep.nodes (Buffered.rules hr hm hWhole _) hm.sized h.buffered
    intro info buf hOp
    rw [← Bool.not_eq_false]
    intro hFalse
    exact hInvalid ⟨info, buf, hOp, hFalse⟩

/-- No store has subpieces in memory when its resource is opened. -/
theorem Starts.sound (hr : r.Addressable) (h : Starts r m) : Sound r m := by
  refine ⟨(h.counted hr).1, ?_⟩
  suffices hNone : ∀ b, m.nodeAt b = none by
    intro b node hNode
    rw [hNone b] at hNode
    cases hNode
  cases h with
  | fresh full verify hNew => exact (new_eq_some hNew).2.2.1
  | parsed buf verify hNull hParse =>
      obtain ⟨fresh, records, hNew, hRecords, -, rfl⟩ := parse_eq_some hParse
      obtain ⟨-, hm, hNone, -⟩ := new_eq_some hNew
      intro b
      have hLt : ∀ record ∈ records, record.1 < fresh.blocks.length := by
        intro record hMem
        rw [hm.length_eq]
        exact hRecords.index_lt record hMem
      rcases applyRecords_nodeAt 0 hm.sized hLt b with ⟨hSame, -⟩ |
        ⟨before, node?, after, hSplit, -, hLast⟩
      · exact hSame.trans (hNone b)
      · have hMem : (b, node?) ∈ records := hSplit ▸ List.mem_append_right _ List.mem_cons_self
        exact hLast.trans ((hNull records hRecords).1 _ hMem)

/-- The stores of the resources of a build with a disk, in any state the calls of
an instance lead to. -/
def Reachable (md5 : Bytes → Guid) (r : RidInfo) (m : SubPieceManager μ) : Prop :=
  ∃ start, Starts r start ∧
    Reaches (Step ⟨true, md5⟩) (fun m op => op.KeepsBlocks r m ∧ op.WholeSubpieces r) start m

theorem Reachable.sound (hr : r.Addressable) (h : Reachable md5 r m) : Sound r m := by
  obtain ⟨start, hStart, run⟩ := h
  exact run.invariant (hStart.sound hr) fun _ _ _ hSound hMet hStep =>
    hSound.step hr hMet.1 hMet.2 hStep

end Reached

end SubPieceManager

end Storage
