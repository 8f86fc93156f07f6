import Peer.Storage.CacheEviction
import Peer.Storage.ManagerStep

/-! What `RemoveBlockDataFromMemCache` does to the node of its block, told by the state of the
node. The calls for other blocks do not touch it. -/
namespace Storage

open Basis

namespace SubPieceManager

variable {μ : Type} {m m' : SubPieceManager μ} {build : Build} {b : Nat} {node : BlockNode}

section Nodes

/-- The node that clearing leaves of a node. -/
def nodeCleared (play : Nat) (node : BlockNode) : Option (Option BlockNode) :=
  (node.clearBlockMemCache play).map fun node => if node.isEmpty then none else some node

/-- The node that `RemoveBlockDataFromMemCache` leaves of a node; `none` where it faults. -/
def nodeRemoved (build : Build) (m : SubPieceManager μ) (b : Nat) (node : BlockNode) :
    Option (Option BlockNode) :=
  let play := m.ridInfo.blockSize / bytesNumPerSubpiece
  if build.diskMode then
    if node.needWrite && node.isFull then
      node.getBufferForSave.map fun taken => if taken.1.isFull then none else some taken.1
    else some (if node.isFull then none else some node)
  else if m.needVerifyBlock then
    if node.needWrite && node.isFull then
      node.getBufferForSave.bind fun taken =>
        if taken.2.isEmpty then some (some taken.1)
        else if taken.2.length ≠ m.getBlockSubPieceCount b then some (some taken.1)
        else (m.ridInfo.blockMd5s[b]?).bind fun _ => nodeCleared play taken.1
    else some (some node)
  else nodeCleared play node

theorem evictToDisk_nodeAt (hLt : b < m.blocks.length)
    (hNode : m.nodeAt b = some node) :
    (m.evictToDisk b node).map (·.1.nodeAt b) =
      if node.needWrite && node.isFull then
        node.getBufferForSave.map fun taken => if taken.1.isFull then none else some taken.1
      else some (if node.isFull then none else some node) := by
  unfold evictToDisk writeBlockToResource
  split
  · rw [Option.map_map, Option.map_map]
    congr 1
    funext taken
    dsimp only [Function.comp]
    split
    · exact setNode_nodeAt_self (by simpa using hLt) none
    · exact setNode_nodeAt_self hLt _
  · rw [Option.map_some]
    split
    · rw [setNode_nodeAt_self hLt]
    · rw [hNode]

/-- The part of the store that a call for the block reads is the same. -/
structure Alike (m m' : SubPieceManager μ) (b : Nat) : Prop where
  nodeAt_eq : m'.nodeAt b = m.nodeAt b
  length_eq : m'.blocks.length = m.blocks.length
  ridInfo_eq : m'.ridInfo = m.ridInfo
  verify_eq : m'.needVerifyBlock = m.needVerifyBlock
  lastInfo_eq : m'.lastSubpieceInfo = m.lastSubpieceInfo

theorem Alike.trans {m'' : SubPieceManager μ} (h : Alike m m' b) (h' : Alike m' m'' b) :
    Alike m m'' b :=
  ⟨h'.nodeAt_eq.trans h.nodeAt_eq, h'.length_eq.trans h.length_eq, h'.ridInfo_eq.trans h.ridInfo_eq,
    h'.verify_eq.trans h.verify_eq, h'.lastInfo_eq.trans h.lastInfo_eq⟩

end Nodes

section Fates

/-- What a node has in memory. -/
def buffersIn (node : Option BlockNode) : Finmap fun _ : Nat => SubPieceBuffer :=
  (node.map (·.subpieces)).getD ∅

/-- The node is out of memory. -/
def TakenOut (left : Option (Option BlockNode)) : Prop :=
  ∃ node', left = some node' ∧ node'.all BlockNode.isEmpty = true

/-- The node is in memory with the buffers that it had. -/
def LeftAlone (node : BlockNode) (left : Option (Option BlockNode)) : Prop :=
  ∃ node', left = some node' ∧ node'.all BlockNode.isEmpty = false ∧
    buffersIn node' = node.subpieces

theorem takenOut_cleared_iff (h : node.Placed) {play : Nat}
    (hWhole : node.totalSubpieceCount ≤ play + 1) :
    TakenOut (nodeCleared play node) ↔ node.keys ⊆ {0} ∧ node.isBlockSavedOnDisk = false := by
  obtain ⟨node', hClear⟩ := h.clearBlockMemCache_isSome play
  have hEmpty : TakenOut (nodeCleared play node) ↔ node'.isEmpty = true := by
    unfold TakenOut nodeCleared
    rw [hClear, Option.map_some]
    cases hEmpty : node'.isEmpty <;> simp [hEmpty]
  have hKeys : node'.keys = ∅ ↔ ∀ k ∈ node.keys, k ≤ play → k < node.heldFrom k := by
    simp only [Finset.eq_empty_iff_forall_notMem, BlockNode.mem_clearBlockMemCache_iff hClear]
    constructor
    · intro hNone k hk hLe
      by_contra hFew
      exact hNone k ⟨hk, fun hReached => hFew hReached.2⟩
    · intro hDense k hKept
      have hLt := h.keys_lt k hKept.1
      exact hKept.2 ⟨by omega, hDense k hKept.1 (by omega)⟩
  rw [hEmpty, BlockNode.isEmpty_iff, hKeys, BlockNode.dense_of_whole_iff h hWhole,
    (BlockNode.clearBlockMemCache_cleared hClear).onDisk_eq]

theorem leftAlone_cleared_iff (h : node.Placed) {play : Nat}
    (hWhole : node.totalSubpieceCount ≤ play + 1) (hSome : node.isEmpty = false) :
    LeftAlone node (nodeCleared play node) ↔ ∀ k ∈ node.keys, node.heldFrom k ≤ k := by
  obtain ⟨node', hClear⟩ := h.clearBlockMemCache_isSome play
  have hLeft := fun k => BlockNode.mem_clearBlockMemCache_iff hClear (k := k)
  have hSame : LeftAlone node (nodeCleared play node) ↔
      node'.isEmpty = false ∧ node'.subpieces = node.subpieces := by
    unfold LeftAlone nodeCleared
    rw [hClear, Option.map_some]
    cases hEmpty : node'.isEmpty <;> simp [hEmpty, buffersIn]
  rw [hSame]
  constructor
  · rintro ⟨-, hBuffers⟩ k hk
    have hLt := h.keys_lt k hk
    have hStill : k ∈ node'.keys := by
      show k ∈ node'.subpieces.keys
      rw [hBuffers]
      exact hk
    by_contra hMore
    exact ((hLeft k).mp hStill).2 ⟨by omega, by omega⟩
  · intro hSparse
    have hAll : ∀ k ∈ node.keys, k ∈ node'.keys := by
      intro k hk
      have hFew := hSparse k hk
      exact (hLeft k).mpr ⟨hk, fun hReached => by omega⟩
    have hKeys : node'.keys = node.keys :=
      (BlockNode.clearBlockMemCache_cleared hClear).keys_subset.antisymm hAll
    constructor
    · rw [Bool.eq_false_iff, ne_eq, BlockNode.isEmpty_iff, hKeys,
        (BlockNode.clearBlockMemCache_cleared hClear).onDisk_eq, ← BlockNode.isEmpty_iff,
        Bool.not_eq_true]
      exact hSome
    · apply Finmap.ext_lookup
      exact fun k => BlockNode.lookup_clearBlockMemCache hClear (hAll k)

/-- The block may be evicted: a build with a disk keeps a block until it is complete, and one
that verifies its blocks until a complete one waits to be written. -/
def mayEvict (build : Build) (m : SubPieceManager μ) (node : BlockNode) : Bool :=
  if build.diskMode then node.isFull
  else !m.needVerifyBlock || node.needWrite && node.isFull

/-- Its removal takes the whole block out of memory. -/
def vanishes (build : Build) (m : SubPieceManager μ) (b : Nat) (node : BlockNode) : Bool :=
  if build.diskMode then node.isFull
  else node.keys ⊆ {0} && !node.isBlockSavedOnDisk && (!m.needVerifyBlock ||
    (node.needWrite && node.nodeState = .mem && node.totalSubpieceCount = 1 &&
      m.getBlockSubPieceCount b = 1 && (m.ridInfo.blockMd5s[b]?).isSome))

/-- Its removal leaves the block in memory as it is. -/
def stays (build : Build) (m : SubPieceManager μ) (b : Nat) (node : BlockNode) : Bool :=
  if build.diskMode then !node.isFull
  else if m.needVerifyBlock then
    !(node.needWrite && node.isFull) ||
      match node.nodeState with
      | .mem => min node.totalSubpieceCount (2 ^ 16) ≠ m.getBlockSubPieceCount b
      | .all => node.keys = ∅
      | _ => true
  else ∀ k ∈ node.keys, node.heldFrom k ≤ k

/-- A complete block in memory holds every subpiece. -/
theorem keys_of_full (h : node.Placed) (hFull : node.isFull = true)
    (hMem : node.nodeState = .mem) : node.keys = Finset.range node.totalSubpieceCount := by
  have hDisk : node.isBlockSavedOnDisk = false := by simp [BlockNode.isBlockSavedOnDisk, hMem]
  have hCard : node.keys.card = node.totalSubpieceCount := by
    rw [BlockNode.isFull_iff, hDisk] at hFull
    simpa using hFull
  apply Finset.eq_of_subset_of_card_le
  · exact fun k hk => Finset.mem_range.mpr (h.keys_lt k hk)
  · rw [Finset.card_range, hCard]

/-- A complete block in memory is handed over to be saved. -/
theorem getBufferForSave_of_mem (h : node.Placed) (hWrite : node.needWrite = true)
    (hFull : node.isFull = true) (hMem : node.nodeState = .mem) :
    ∃ bufferSet, node.getBufferForSave =
        some ({ node with needWrite := false, nodeState := .saving }, bufferSet) ∧
      bufferSet.length = min node.totalSubpieceCount (2 ^ 16) := by
  have hKeys : node.subpieces.keys = Finset.range node.totalSubpieceCount :=
    keys_of_full h hFull hMem
  have hSize : node.size = node.totalSubpieceCount := by
    rw [BlockNode.size, hKeys, Finset.card_range]
  refine ⟨{ node with needWrite := false }.bufferSet, ?_, ?_⟩
  · have hExact : node.subpieces.keys = Finset.range node.size := by rw [hSize, hKeys]
    simp [BlockNode.getBufferForSave, hWrite, hMem]
    exact hExact
  · rw [BlockNode.bufferSet, List.length_map, List.length_range]
    show min node.size _ = _
    rw [hSize]

/-- In any other state it is not. -/
theorem getBufferForSave_of_not_mem (hWrite : node.needWrite = true)
    (hMem : node.nodeState ≠ .mem) :
    ∃ node', node.getBufferForSave = some (node', []) ∧
      node'.isBlockSavedOnDisk = node.isBlockSavedOnDisk ∧
      node'.subpieces = if node.nodeState = .all then ∅ else node.subpieces := by
  unfold BlockNode.getBufferForSave
  rw [hWrite]
  cases hState : node.nodeState <;> simp_all [BlockNode.isBlockSavedOnDisk]

theorem disk_removal (hDisk : build.diskMode = true) (h : node.Placed) :
    ∃ node', nodeRemoved build m b node = some node' ∧
      (node.isFull = true → node' = none) ∧ (node.isFull = false → node' = some node) := by
  unfold nodeRemoved
  rw [if_pos hDisk]
  cases hFull : node.isFull with
  | false => exact ⟨some node, by simp, fun h => by simp at h, fun _ => rfl⟩
  | true =>
      refine ⟨none, ?_, fun _ => rfl, fun h => by simp at h⟩
      cases hWrite : node.needWrite with
      | false => simp
      | true =>
          have hTaken : ∃ taken, node.getBufferForSave = some taken := by
            by_cases hMem : node.nodeState = .mem
            · obtain ⟨bufferSet, hTaken, -⟩ := getBufferForSave_of_mem h hWrite hFull hMem
              exact ⟨_, hTaken⟩
            · obtain ⟨node', hTaken, -⟩ := getBufferForSave_of_not_mem hWrite hMem
              exact ⟨_, hTaken⟩
          obtain ⟨taken, hTaken⟩ := hTaken
          have hStill := (BlockNode.getBufferForSave_taken hTaken).isFull hFull
          rw [hTaken, Option.map_some, if_pos hStill]
          rfl

variable (h : node.Placed)
  (hWhole : node.totalSubpieceCount ≤ m.ridInfo.blockSize / bytesNumPerSubpiece + 1)
  (hSome : node.isEmpty = false)

/-- A node of which the write buffer has been taken. -/
def saved (node : BlockNode) : BlockNode := { node with needWrite := false, nodeState := .saving }

theorem placed_saved (h : node.Placed) : (saved node).Placed := ⟨h.total_pos, h.keys_lt, h.piece_lt⟩

/-- What a build does that verifies a block before it clears it. -/
theorem verify_removal (hDisk : build.diskMode = false) (hVerify : m.needVerifyBlock = true) :
    nodeRemoved build m b node =
      if node.needWrite && node.isFull then
        node.getBufferForSave.bind fun taken =>
          if taken.2.isEmpty then some (some taken.1)
          else if taken.2.length ≠ m.getBlockSubPieceCount b then some (some taken.1)
          else (m.ridInfo.blockMd5s[b]?).bind fun _ =>
            nodeCleared (m.ridInfo.blockSize / bytesNumPerSubpiece) taken.1
      else some (some node) := by
  simp [nodeRemoved, hDisk, hVerify]

include h in
/-- A complete block that waits to be written is hashed and cleared. -/
theorem verify_removal_of_mem (hDisk : build.diskMode = false) (hVerify : m.needVerifyBlock = true)
    (hWrite : node.needWrite = true) (hFull : node.isFull = true) (hMem : node.nodeState = .mem) :
    nodeRemoved build m b node =
      if min node.totalSubpieceCount (2 ^ 16) ≠ m.getBlockSubPieceCount b then
        some (some (saved node))
      else (m.ridInfo.blockMd5s[b]?).bind fun _ =>
        nodeCleared (m.ridInfo.blockSize / bytesNumPerSubpiece) (saved node) := by
  obtain ⟨bufferSet, hTaken, hLength⟩ := getBufferForSave_of_mem h hWrite hFull hMem
  have hSome : bufferSet.isEmpty = false := by
    have hPos := h.total_pos
    rw [List.isEmpty_eq_false_iff, ← List.length_pos_iff, hLength]
    omega
  rw [verify_removal hDisk hVerify, if_pos (by simp [hWrite, hFull]), hTaken, Option.bind_some,
    if_neg (by simp [hSome]), hLength]
  rfl

theorem verify_removal_of_not_mem (hDisk : build.diskMode = false)
    (hVerify : m.needVerifyBlock = true) (hWrite : node.needWrite = true)
    (hFull : node.isFull = true) (hMem : node.nodeState ≠ .mem) :
    ∃ node', nodeRemoved build m b node = some (some node') ∧
      node'.isBlockSavedOnDisk = node.isBlockSavedOnDisk ∧
      node'.subpieces = if node.nodeState = .all then ∅ else node.subpieces := by
  obtain ⟨node', hTaken, hSame⟩ := getBufferForSave_of_not_mem hWrite hMem
  refine ⟨node', ?_, hSame⟩
  rw [verify_removal hDisk hVerify, if_pos (by simp [hWrite, hFull]), hTaken]
  rfl

theorem not_takenOut_of_some (hSome : node.isEmpty = false) : ¬ TakenOut (some (some node)) := by
  simp [TakenOut, hSome]

theorem leftAlone_some_iff {node' : BlockNode} (hSome : node'.isEmpty = false) :
    LeftAlone node (some (some node')) ↔ node'.subpieces = node.subpieces := by
  simp [LeftAlone, hSome, buffersIn]

theorem vanishes_of_verify_iff (hDisk : build.diskMode = false) (hVerify : m.needVerifyBlock = true) :
    vanishes build m b node = true ↔ node.keys ⊆ {0} ∧ node.isBlockSavedOnDisk = false ∧
      node.needWrite = true ∧ node.nodeState = .mem ∧ node.totalSubpieceCount = 1 ∧
        m.getBlockSubPieceCount b = 1 ∧ (m.ridInfo.blockMd5s[b]?).isSome = true := by
  simp only [vanishes, hDisk, hVerify, Bool.false_eq_true, if_false, Bool.not_true, Bool.false_or,
    Bool.and_eq_true, decide_eq_true_eq, Bool.not_eq_true', and_assoc]

theorem keys_eq_of_subset (hSome : node.isEmpty = false) (hFirst : node.keys ⊆ {0})
    (hOff : node.isBlockSavedOnDisk = false) : node.keys = {0} := by
  apply (Finset.subset_singleton_iff.mp hFirst).resolve_left
  intro hNone
  rw [BlockNode.isEmpty_iff.mpr ⟨hNone, hOff⟩] at hSome
  cases hSome

theorem saved_isEmpty (h : node.Placed) (hFull : node.isFull = true) (hMem : node.nodeState = .mem) :
    (saved node).isEmpty = false := by
  rw [Bool.eq_false_iff, ne_eq, BlockNode.isEmpty_iff]
  rintro ⟨hNone, -⟩
  have hRange := keys_of_full h hFull hMem
  rw [show node.keys = ∅ from hNone] at hRange
  have hCard := congrArg Finset.card hRange
  rw [Finset.card_empty, Finset.card_range] at hCard
  exact absurd hCard h.total_pos.ne

/-- What is not handed over to be saved stays in memory or on the disk. -/
theorem isEmpty_of_not_mem {node' : BlockNode} (hSome : node.isEmpty = false)
    (hOnDisk : node'.isBlockSavedOnDisk = node.isBlockSavedOnDisk)
    (hBuffers : node'.subpieces = if node.nodeState = .all then ∅ else node.subpieces) :
    node'.isEmpty = false := by
  rw [Bool.eq_false_iff, ne_eq, BlockNode.isEmpty_iff, hOnDisk]
  rintro ⟨hNone, hOff⟩
  by_cases hAll : node.nodeState = .all
  · simp [BlockNode.isBlockSavedOnDisk, hAll] at hOff
  · rw [if_neg hAll] at hBuffers
    have hKeys : node.keys = ∅ := (congrArg Finmap.keys hBuffers).symm.trans hNone
    rw [BlockNode.isEmpty_iff.mpr ⟨hKeys, hOff⟩] at hSome
    cases hSome

include h hWhole hSome in
theorem takenOut_iff_of_verify (hDisk : build.diskMode = false) (hVerify : m.needVerifyBlock = true) :
    TakenOut (nodeRemoved build m b node) ↔ vanishes build m b node = true := by
  rw [vanishes_of_verify_iff hDisk hVerify]
  by_cases hTake : node.needWrite = true ∧ node.isFull = true
  · obtain ⟨hWrite, hFull⟩ := hTake
    by_cases hMem : node.nodeState = .mem
    · have hRange := keys_of_full h hFull hMem
      have hOff : node.isBlockSavedOnDisk = false := by simp [BlockNode.isBlockSavedOnDisk, hMem]
      have hOne : node.keys ⊆ {0} → node.totalSubpieceCount = 1 := by
        intro hFirst
        have hCard := congrArg Finset.card (keys_eq_of_subset hSome hFirst hOff)
        rwa [hRange, Finset.card_range, Finset.card_singleton] at hCard
      rw [verify_removal_of_mem h hDisk hVerify hWrite hFull hMem]
      by_cases hCount : min node.totalSubpieceCount (2 ^ 16) = m.getBlockSubPieceCount b
      · rw [if_neg (not_not.mpr hCount)]
        cases hMd5 : m.ridInfo.blockMd5s[b]? with
        | none => simp [TakenOut]
        | some md5 =>
            rw [Option.bind_some, takenOut_cleared_iff (placed_saved h) hWhole]
            constructor
            · rintro ⟨hFirst, -⟩
              have hTotal := hOne hFirst
              exact ⟨hFirst, hOff, hWrite, hMem, hTotal, by omega, rfl⟩
            · rintro ⟨hFirst, -⟩
              exact ⟨hFirst, rfl⟩
      · rw [if_pos hCount]
        refine iff_of_false (not_takenOut_of_some (saved_isEmpty h hFull hMem)) ?_
        rintro ⟨-, -, -, -, hTotal, hSingle, -⟩
        omega
    · obtain ⟨node', hRemoved, hOnDisk, hBuffers⟩ :=
        verify_removal_of_not_mem (m := m) (b := b) hDisk hVerify hWrite hFull hMem
      rw [hRemoved]
      refine iff_of_false (not_takenOut_of_some (isEmpty_of_not_mem hSome hOnDisk hBuffers)) ?_
      exact fun hOut => hMem hOut.2.2.2.1
  · rw [verify_removal hDisk hVerify, if_neg (by simpa using hTake)]
    refine iff_of_false (not_takenOut_of_some hSome) ?_
    rintro ⟨hFirst, hOff, hWrite, -, hTotal, -⟩
    apply hTake
    refine ⟨hWrite, BlockNode.isFull_iff.mpr (Or.inl ?_)⟩
    rw [keys_eq_of_subset hSome hFirst hOff, hTotal, Finset.card_singleton]

include h hWhole hSome in
theorem leftAlone_iff_of_verify (hDisk : build.diskMode = false) (hVerify : m.needVerifyBlock = true) :
    LeftAlone node (nodeRemoved build m b node) ↔ stays build m b node = true := by
  have hStays : stays build m b node = (!(node.needWrite && node.isFull) ||
      match node.nodeState with
      | .mem => min node.totalSubpieceCount (2 ^ 16) ≠ m.getBlockSubPieceCount b
      | .all => node.keys = ∅
      | _ => true) := by
    simp only [stays, hDisk, hVerify, Bool.false_eq_true, if_false, if_true]
  rw [hStays]
  by_cases hTake : node.needWrite = true ∧ node.isFull = true
  · obtain ⟨hWrite, hFull⟩ := hTake
    rw [hWrite, hFull, Bool.and_self, Bool.not_true, Bool.false_or]
    by_cases hMem : node.nodeState = .mem
    · rw [verify_removal_of_mem h hDisk hVerify hWrite hFull hMem, hMem]
      by_cases hCount : min node.totalSubpieceCount (2 ^ 16) = m.getBlockSubPieceCount b
      · rw [if_neg (not_not.mpr hCount)]
        refine iff_of_false ?_ (by simpa using hCount)
        cases m.ridInfo.blockMd5s[b]? with
        | none => simp [LeftAlone]
        | some md5 =>
            -- The first subpiece is reached in any case.
            have hFirst : 0 ∈ (saved node).keys := by
              show 0 ∈ node.keys
              rw [keys_of_full h hFull hMem]
              exact Finset.mem_range.mpr h.total_pos
            have hHeld : 0 < (saved node).heldFrom 0 := by
              rw [BlockNode.heldFrom_eq_card fun k _ => Nat.zero_le k]
              exact Finset.card_pos.mpr ⟨0, hFirst⟩
            have hIff := leftAlone_cleared_iff (placed_saved h) hWhole (saved_isEmpty h hFull hMem)
            intro hAlone
            exact absurd (hIff.mp hAlone 0 hFirst) (Nat.not_le.mpr hHeld)
      · rw [if_pos hCount, leftAlone_some_iff (saved_isEmpty h hFull hMem)]
        exact iff_of_true rfl (by simpa using hCount)
    · obtain ⟨node', hRemoved, hOnDisk, hBuffers⟩ :=
        verify_removal_of_not_mem (m := m) (b := b) hDisk hVerify hWrite hFull hMem
      rw [hRemoved, leftAlone_some_iff (isEmpty_of_not_mem hSome hOnDisk hBuffers), hBuffers]
      have hNone : (∅ : Finmap fun _ : Nat => SubPieceBuffer) = node.subpieces ↔ node.keys = ∅ := by
        constructor
        · intro hSame
          rw [BlockNode.keys, ← hSame]
          rfl
        · intro hKeys
          apply Finmap.ext_lookup
          intro k
          rw [Finmap.lookup_empty, eq_comm, Finmap.lookup_eq_none, ← BlockNode.mem_keys, hKeys]
          exact Finset.notMem_empty k
      cases hState : node.nodeState <;> simp [hState, hNone] at hMem ⊢
  · rw [verify_removal hDisk hVerify, if_neg (by simpa using hTake), leftAlone_some_iff hSome]
    refine iff_of_true rfl ?_
    rw [Bool.or_eq_true, Bool.not_eq_true', Bool.eq_false_iff, ne_eq, Bool.and_eq_true]
    exact Or.inl hTake

include h hWhole hSome in
/-- A removal takes a block out of memory exactly if the state of the block says so. -/
theorem takenOut_iff :
    TakenOut (nodeRemoved build m b node) ↔ vanishes build m b node = true := by
  cases hDisk : build.diskMode with
  | true =>
      obtain ⟨node', hRemoved, hOut, hKept⟩ := disk_removal (m := m) (b := b) hDisk h
      rw [hRemoved]
      cases hFull : node.isFull with
      | true => simp [TakenOut, vanishes, hDisk, hFull, hOut hFull]
      | false => simp [TakenOut, vanishes, hDisk, hFull, hKept hFull, hSome]
  | false =>
      cases hVerify : m.needVerifyBlock with
      | true => exact takenOut_iff_of_verify h hWhole hSome hDisk hVerify
      | false =>
          have hCleared : nodeRemoved build m b node =
              nodeCleared (m.ridInfo.blockSize / bytesNumPerSubpiece) node := by
            simp [nodeRemoved, hDisk, hVerify]
          rw [hCleared, takenOut_cleared_iff h hWhole]
          simp [vanishes, hDisk, hVerify]

include h hWhole hSome in
/-- A removal changes nothing that is in memory exactly if the state of the block says so. -/
theorem leftAlone_iff :
    LeftAlone node (nodeRemoved build m b node) ↔ stays build m b node = true := by
  cases hDisk : build.diskMode with
  | true =>
      obtain ⟨node', hRemoved, hOut, hKept⟩ := disk_removal (m := m) (b := b) hDisk h
      rw [hRemoved]
      cases hFull : node.isFull with
      | true => simp [LeftAlone, stays, hDisk, hFull, hOut hFull]
      | false => simp [LeftAlone, stays, hDisk, hFull, hKept hFull, hSome, buffersIn]
  | false =>
      cases hVerify : m.needVerifyBlock with
      | true => exact leftAlone_iff_of_verify h hWhole hSome hDisk hVerify
      | false =>
          have hCleared : nodeRemoved build m b node =
              nodeCleared (m.ridInfo.blockSize / bytesNumPerSubpiece) node := by
            simp [nodeRemoved, hDisk, hVerify]
          rw [hCleared, leftAlone_cleared_iff h hWhole hSome]
          simp [stays, hDisk, hVerify]

/-- What vanishes may be evicted. -/
theorem mayEvict_of_vanishes (hSome : node.isEmpty = false)
    (hVanishes : vanishes build m b node = true) : mayEvict build m node = true := by
  unfold mayEvict
  cases hDisk : build.diskMode with
  | true =>
      rw [if_pos rfl]
      simpa [vanishes, hDisk] using hVanishes
  | false =>
      rw [if_neg Bool.false_ne_true]
      cases hVerify : m.needVerifyBlock with
      | false => rfl
      | true =>
          obtain ⟨hFirst, hOff, hWrite, -, hTotal, -⟩ :=
            (vanishes_of_verify_iff hDisk hVerify).mp hVanishes
          have hFull : node.isFull = true := by
            rw [BlockNode.isFull_iff, keys_eq_of_subset hSome hFirst hOff, hTotal,
              Finset.card_singleton]
            exact Or.inl rfl
          rw [hWrite, hFull]
          rfl

end Fates

section Calls

variable [BlockMap μ]

theorem clearBlock_nodeAt (hLt : b < m.blocks.length) (node : BlockNode) :
    (m.clearBlock b node).map (·.nodeAt b) =
      nodeCleared (m.ridInfo.blockSize / bytesNumPerSubpiece) node := by
  unfold clearBlock nodeCleared
  rw [Option.map_map]
  congr 1
  funext node'
  dsimp only [Function.comp]
  split
  · apply setNode_nodeAt_self
    split <;> simpa using hLt
  · split
    · rw [setBit_nodeAt, setNode_nodeAt_self hLt]
    · rw [setNode_nodeAt_self hLt]

theorem verifyAndClear_nodeAt (hLt : b < m.blocks.length)
    (hNode : m.nodeAt b = some node) :
    (m.verifyAndClear build b node).map (·.nodeAt b) =
      if node.needWrite && node.isFull then
        node.getBufferForSave.bind fun taken =>
          if taken.2.isEmpty then some (some taken.1)
          else if taken.2.length ≠ m.getBlockSubPieceCount b then some (some taken.1)
          else (m.ridInfo.blockMd5s[b]?).bind fun _ =>
            nodeCleared (m.ridInfo.blockSize / bytesNumPerSubpiece) taken.1
      else some (some node) := by
  unfold verifyAndClear
  split
  · cases node.getBufferForSave with
    | none => rfl
    | some taken =>
        rw [Option.bind_some, Option.bind_some]
        have hTaken := setNode_nodeAt_self hLt (some taken.1)
        show Option.map _ (if taken.2.isEmpty then some (m.setNode b (some taken.1)) else
          if taken.2.length ≠ m.getBlockSubPieceCount b then some (m.setNode b (some taken.1))
          else _) = _
        split
        · rw [Option.map_some, hTaken]
        split
        · rw [Option.map_some, hTaken]
        · show Option.map _ ((m.ridInfo.blockMd5s[b]?).bind _) = _
          cases m.ridInfo.blockMd5s[b]? with
          | none => rfl
          | some expected =>
              rw [Option.bind_some, Option.bind_some]
              dsimp only
              split
              · exact clearBlock_nodeAt (by simpa using hLt) taken.1
              · exact clearBlock_nodeAt (by simpa using hLt) taken.1
  · rw [Option.map_some, hNode]

/-- What a call does to the node of its block depends on this node only. -/
theorem remove_nodeAt (hLt : b < m.blocks.length) :
    (m.removeBlockDataFromMemCache build b).map (·.1.nodeAt b) =
      (m.nodeAt b).elim (some none) (nodeRemoved build m b) := by
  unfold removeBlockDataFromMemCache
  rw [if_pos hLt]
  cases hNode : m.nodeAt b with
  | none => simp [hNode]
  | some node =>
      unfold nodeRemoved
      dsimp only [Option.elim_some]
      split
      · exact evictToDisk_nodeAt hLt hNode
      split
      · rw [← verifyAndClear_nodeAt hLt hNode, Option.map_map]
        rfl
      · rw [← clearBlock_nodeAt hLt, Option.map_map]
        rfl

/-- The node that a call leaves of its block; `none` where it faults. -/
def removal (build : Build) (m : SubPieceManager μ) (b : Nat) : Option (Option BlockNode) :=
  (m.removeBlockDataFromMemCache build b).map (·.1.nodeAt b)

theorem Alike.removal_eq (h : Alike m m' b) : removal build m' b = removal build m b := by
  unfold removal
  by_cases hLt : b < m.blocks.length
  · rw [remove_nodeAt hLt, remove_nodeAt (h.length_eq ▸ hLt), h.nodeAt_eq]
    unfold nodeRemoved getBlockSubPieceCount
    rw [h.ridInfo_eq, h.verify_eq, h.lastInfo_eq]
  · unfold removeBlockDataFromMemCache
    rw [if_neg hLt, if_neg (h.length_eq ▸ hLt)]

/-- A call leaves what the calls for the other blocks read. -/
theorem remove_alike (hSized : Sized m) {jobs : List SaveJob}
    (h : m.removeBlockDataFromMemCache build b = some (m', jobs)) {j : Nat} (hj : j ≠ b) :
    Sized m' ∧ Alike m m' j := by
  have hStep := removeBlockDataFromMemCache_step hSized h
  refine ⟨hStep.sized hSized, ?_⟩
  have hBecomes : ∀ {node? bit count bytes}, Becomes m b node? bit count bytes m' → Alike m m' j :=
    fun h => ⟨h.nodeAt_of_ne j hj, h.length_eq, h.ridInfo_eq, h.verify_eq, h.lastInfo_eq⟩
  cases hStep with
  | kept h =>
      subst h
      exact ⟨rfl, rfl, rfl, rfl, rfl⟩
  | droppedFull _ _ _ _ h => exact hBecomes h
  | hashed _ _ _ _ _ _ h => exact hBecomes h
  | cleared _ _ _ _ _ _ _ _ _ _ h => exact hBecomes h

end Calls

end SubPieceManager

end Storage
