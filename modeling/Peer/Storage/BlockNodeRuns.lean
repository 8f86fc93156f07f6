import Peer.Basis.Run
import Peer.Storage.BlockNodeFits
import Peer.Storage.CacheEviction

/-! The state flag, the piece counts and the buffers of one block over any run of
its operations. The operations change the three independently; the guard names the
calls after which they still agree. -/
namespace Storage

open Basis

namespace BlockNode

/-- The capacity of piece `p`, as the constructor computes it. -/
def pieceCapacity (n p : Nat) : Nat :=
  if p = piecesOf n - 1 then lastPieceOf n else subpieceNumPerPiece

/-- A node of a block with `n` subpieces whose flag, counts and buffers agree. -/
structure Accurate (n : Nat) (node : BlockNode) : Prop extends Fits n node where
  complete : node.isBlockSavedOnDisk = true →
    ∀ p < piecesOf n, node.pieceCount.getD p 0 = pieceCapacity n p
  inMemory : node.nodeState = .mem ∨ node.nodeState = .saving → node.keys = Finset.range n

section Preservation

variable {n : Nat} {node node' : BlockNode} {i : Nat} {buf : SubPieceBuffer}

theorem pieceKeys_of_range (h : node.keys = Finset.range n) (p : Nat) :
    node.pieceKeys p = pieceRange n p := by
  ext k
  simp only [pieceKeys, h, pieceRange, Finset.mem_filter, Finset.mem_range, Finset.mem_Ico,
    subpieceNumPerPiece]
  omega

theorem card_pieceRange (hPos : 0 < n) (hSmall : n + 127 < 2 ^ 32) {p : Nat}
    (hp : p < piecesOf n) : (pieceRange n p).card = pieceCapacity n p := by
  rw [piecesOf_eq hSmall, subpieceNumPerPiece] at hp
  simp only [pieceRange, Nat.card_Ico, pieceCapacity, piecesOf_eq hSmall,
    lastPieceOf_eq hPos hSmall, subpieceNumPerPiece]
  split <;> omega

theorem not_onDisk_of_inMemory (h : node.nodeState = .mem ∨ node.nodeState = .saving) :
    node.isBlockSavedOnDisk = false := by
  rcases h with hState | hState <;> simp [isBlockSavedOnDisk, hState]

/-- A block with all of its subpieces, on disk or in memory, has every count at its
capacity. -/
theorem Accurate.count_eq (h : Accurate n node) (hPos : 0 < n) (hSmall : n + 127 < 2 ^ 32)
    (hAll : node.isBlockSavedOnDisk = true ∨ node.nodeState = .mem ∨ node.nodeState = .saving)
    {p : Nat} (hp : p < piecesOf n) : node.pieceCount.getD p 0 = pieceCapacity n p := by
  rcases hAll with hDisk | hMem
  · exact h.complete hDisk p hp
  · rw [h.counts (not_onDisk_of_inMemory hMem), pieceKeys_of_range (h.inMemory hMem),
      card_pieceRange hPos hSmall hp]

theorem Accurate.piece_lt (h : Accurate n node) (hSmall : n + 127 < 2 ^ 32) (hi : i < n) :
    i / subpieceNumPerPiece < node.pieceCount.length := by
  rw [h.pieces_eq, piecesOf_eq hSmall]
  simp only [subpieceNumPerPiece]
  omega

theorem Accurate.placed (h : Accurate n node) (hPos : 0 < n) (hSmall : n + 127 < 2 ^ 32) :
    node.Placed where
  total_pos := by
    rw [h.total_eq]
    exact hPos
  keys_lt := by
    rw [h.total_eq]
    exact h.keys_lt
  piece_lt k hk := h.piece_lt hSmall (h.keys_lt k hk)

theorem Accurate.create (index : Nat) (disk : Bool) : Accurate n (create index n disk) where
  toFits := .create index disk
  complete := by
    intro hDisk p hp
    rw [create_onDisk] at hDisk
    subst hDisk
    simp [BlockNode.create, pieceCapacity, List.getD_eq_getElem?_getD, hp]
  inMemory := by
    cases disk <;> simp [BlockNode.create]

/-- The change of state with which `AddSubpiece` begins. -/
def awake (node : BlockNode) : BlockNode :=
  if node.nodeState = .empty then { node with nodeState := .downloading } else node

theorem awake_eq (node : BlockNode) : node.awake.keys = node.keys ∧
    node.awake.pieceCount = node.pieceCount ∧ SameShape node node.awake ∧
    node.awake.isBlockSavedOnDisk = node.isBlockSavedOnDisk ∧
    (node.awake.nodeState = node.nodeState ∨ node.awake.nodeState = .downloading) := by
  unfold awake
  split
  · rename_i hEmpty
    exact ⟨rfl, rfl, ⟨rfl, rfl, rfl⟩, by simp [isBlockSavedOnDisk, hEmpty], Or.inr rfl⟩
  · exact ⟨rfl, rfl, .refl node, rfl, Or.inl rfl⟩

theorem Accurate.awake (h : Accurate n node) : Accurate n node.awake := by
  obtain ⟨hKeys, hPieces, hShape, hDisk, hState⟩ := awake_eq node
  constructor
  · apply h.toFits.of_shape hShape (hKeys ▸ h.keys_lt)
    intro hNot p
    rw [hPieces, pieceKeys_congr hKeys]
    exact h.counts (hDisk ▸ hNot) p
  · intro hOn
    rw [hPieces]
    exact h.complete (hDisk ▸ hOn)
  · intro hMem
    rw [hKeys]
    rcases hState with hSame | hOther
    · exact h.inMemory (hSame ▸ hMem)
    · simp [hOther] at hMem

theorem addSubpiece_of_mem (h : i ∈ node.keys) :
    node.addSubpiece i buf = some (node.awake, false) := by
  have hIn : i ∈ node.awake.subpieces := by
    rw [← mem_keys, (awake_eq node).1]
    exact h
  show (if i ∈ node.awake.subpieces then _ else _) = _
  rw [if_pos hIn]
  rfl

/-- The node before it is marked: with the buffer, and counted. -/
def counted (node : BlockNode) (i : Nat) (buf : SubPieceBuffer) : BlockNode :=
  { node.awake.insertSubpiece i buf with
    pieceCount := node.awake.pieceCount.modify (i / subpieceNumPerPiece) fun c => u32 (c + 1) }

theorem addSubpiece_of_notMem (h : i ∉ node.keys)
    (hPiece : i / subpieceNumPerPiece < node.pieceCount.length) :
    node.addSubpiece i buf = some ((node.counted i buf).markIfFull, true) := by
  have hNotIn : i ∉ node.awake.subpieces := by
    rw [← mem_keys, (awake_eq node).1]
    exact h
  show (if i ∈ node.awake.subpieces then _ else _) = _
  rw [if_neg hNotIn, modifyPieceCount, if_pos]
  · rfl
  · show i / subpieceNumPerPiece < node.awake.pieceCount.length
    rw [(awake_eq node).2.1]
    exact hPiece

theorem counted_pieceCount : (node.counted i buf).pieceCount =
    node.pieceCount.modify (i / subpieceNumPerPiece) fun c => u32 (c + 1) := by
  show node.awake.pieceCount.modify _ _ = _
  rw [(awake_eq node).2.1]

theorem markIfFull_pieceCount (node : BlockNode) :
    node.markIfFull.pieceCount = node.pieceCount := by
  rcases @markIfFull_cases node with h | ⟨h, -⟩ <;> rw [h]

theorem markIfFull_keys (node : BlockNode) : node.markIfFull.keys = node.keys := by
  rcases @markIfFull_cases node with h | ⟨h, -⟩ <;> rw [h]
  rfl

/-- Adding to a block that is not on disk, or what is there already, keeps the
node accurate. -/
theorem Accurate.addSubpiece (h : Accurate n node) (hSmall : n + 127 < 2 ^ 32) (hi : i < n)
    (hKept : node.isBlockSavedOnDisk = false ∨ i ∈ node.keys) :
    ∃ node' flag, node.addSubpiece i buf = some (node', flag) ∧ Accurate n node' := by
  by_cases hIn : i ∈ node.keys
  · exact ⟨_, _, addSubpiece_of_mem hIn, h.awake⟩
  · have hDisk := hKept.resolve_right hIn
    have hCall : node.addSubpiece i buf = some ((node.counted i buf).markIfFull, true) :=
      addSubpiece_of_notMem hIn (h.piece_lt hSmall hi)
    refine ⟨_, _, hCall, ?_⟩
    have hNotFull : node.isFull = false := by
      rw [Bool.eq_false_iff, ne_eq, isFull_iff, hDisk, h.total_eq, not_or]
      refine ⟨fun hCard => hIn ?_, Bool.false_ne_true⟩
      rw [h.keys_eq_range hCard]
      exact Finset.mem_range.mpr hi
    have hAdded := addSubpiece_added hNotFull hCall
    have hFits := h.toFits.added hAdded hi hDisk
    refine ⟨hFits, fun hOn => ?_, fun hMem => ?_⟩
    · rw [hAdded.onDisk] at hOn
      cases hOn
    · rcases @markIfFull_cases (node.counted i buf) with hMark | ⟨hMark, hFull⟩
      · -- The state is that of the node before, which was not complete.
        rw [hMark] at hMem
        obtain ⟨-, -, -, -, hState⟩ := awake_eq node
        have hMem' : node.awake.nodeState = .mem ∨ node.awake.nodeState = .saving := hMem
        rcases hState with hSame | hOther
        · rw [hSame] at hMem'
          rw [h.inMemory hMem'] at hIn
          exact absurd (Finset.mem_range.mpr hi) hIn
        · simp [hOther] at hMem'
      · apply hFits.keys_eq_range
        rw [markIfFull_keys]
        have hDisk' : (node.counted i buf).isBlockSavedOnDisk = false :=
          (awake_eq node).2.2.2.1.trans hDisk
        rw [isFull_iff, hDisk'] at hFull
        rw [hFull.resolve_right Bool.false_ne_true]
        exact (awake_eq node).2.2.1.total_eq.trans h.total_eq

/-- Adding a subpiece to a block on disk that does not have it in memory makes the
count of its piece exceed its capacity. -/
theorem Accurate.addSubpiece_onDisk (h : Accurate n node) (hPos : 0 < n)
    (hSmall : n + 127 < 2 ^ 32) (hi : i < n) (hDisk : node.isBlockSavedOnDisk = true)
    (hOut : i ∉ node.keys) {flag : Bool} (hCall : node.addSubpiece i buf = some (node', flag)) :
    ¬ Accurate n node' := by
  intro hAccurate
  have hPiece := h.piece_lt hSmall hi
  rw [addSubpiece_of_notMem hOut hPiece] at hCall
  cases hCall
  have hp : i / subpieceNumPerPiece < piecesOf n := h.pieces_eq ▸ hPiece
  have hState : (node.counted i buf).markIfFull.isBlockSavedOnDisk = true ∨
      (node.counted i buf).markIfFull.nodeState = .mem ∨
      (node.counted i buf).markIfFull.nodeState = .saving := by
    rcases @markIfFull_cases (node.counted i buf) with hMark | ⟨hMark, -⟩
    · rw [hMark]
      exact Or.inl ((awake_eq node).2.2.2.1.trans hDisk)
    · rw [hMark]
      exact Or.inr (Or.inl rfl)
  have hAfter := hAccurate.count_eq hPos hSmall hState hp
  have hBefore := h.complete hDisk _ hp
  have hBound : pieceCapacity n (i / subpieceNumPerPiece) ≤ 128 := by
    rw [pieceCapacity, lastPieceOf_eq hPos hSmall, subpieceNumPerPiece]
    split <;> omega
  rw [markIfFull_pieceCount, counted_pieceCount, getD_modify hPiece, if_pos rfl, hBefore,
    u32_of_lt (by omega)] at hAfter
  omega

/-- A block on disk may be emptied. -/
theorem Fits.of_empty (h : Fits n node) (hShape : SameShape node node')
    (hKeys : node'.keys = ∅) (hDisk : node'.isBlockSavedOnDisk = true) : Fits n node' := by
  apply h.of_shape hShape
  · simp [hKeys]
  · simp [hDisk]

theorem Accurate.onWriteFinish (h : Accurate n node) (hPos : 0 < n) (hSmall : n + 127 < 2 ^ 32) :
    Accurate n node.onWriteFinish := by
  unfold BlockNode.onWriteFinish
  split
  · rename_i hSaving
    refine ⟨h.toFits.of_empty ⟨rfl, rfl, rfl⟩ rfl rfl, ?_, by simp⟩
    intro _ p hp
    exact h.count_eq hPos hSmall (Or.inr (Or.inr hSaving)) hp
  · exact h

theorem Accurate.getBufferForSave (h : Accurate n node) :
    ∃ node' bufferSet, node.getBufferForSave = some (node', bufferSet) ∧ Accurate n node' := by
  cases hWrite : node.needWrite with
  | false => exact ⟨node, [], by simp [BlockNode.getBufferForSave, hWrite], h⟩
  | true =>
      have hQuiet : Accurate n { node with needWrite := false } :=
        ⟨⟨h.total_eq, h.pieces_eq, h.lastPiece_eq, h.keys_lt, h.counts⟩, h.complete, h.inMemory⟩
      cases hState : node.nodeState with
      | mem =>
          have hKeys := h.inMemory (Or.inl hState)
          have hSize : node.size = n := by
            rw [size_eq, hKeys, Finset.card_range]
          refine ⟨{ node with needWrite := false, nodeState := .saving },
            bufferSet { node with needWrite := false }, ?_, ?_⟩
          · have hExact : node.subpieces.keys = Finset.range node.size := by
              rw [hSize]
              exact hKeys
            simp only [BlockNode.getBufferForSave, hWrite, hState]
            exact if_pos hExact
          · have hDisk : node.isBlockSavedOnDisk = false := not_onDisk_of_inMemory (Or.inl hState)
            exact ⟨⟨h.total_eq, h.pieces_eq, h.lastPiece_eq, h.keys_lt, fun _ => h.counts hDisk⟩,
              by simp [isBlockSavedOnDisk], fun _ => hKeys⟩
      | all =>
          have hDisk : node.isBlockSavedOnDisk = true := by simp [isBlockSavedOnDisk, hState]
          refine ⟨{ node with needWrite := false, nodeState := .disk, subpieces := ∅ }, [], ?_, ?_⟩
          · simp [BlockNode.getBufferForSave, hWrite, hState]
          · exact ⟨h.toFits.of_empty ⟨rfl, rfl, rfl⟩ rfl rfl, fun _ => h.complete hDisk, by simp⟩
      | empty | downloading | saving | disk | reading =>
          exact ⟨{ node with needWrite := false }, [],
            by simp [BlockNode.getBufferForSave, hWrite, hState], hQuiet⟩

theorem Accurate.setBlockReading (h : Accurate n node) : Accurate n node.setBlockReading.1 := by
  refine ⟨h.toFits.setBlockReading, fun hDisk => ?_, fun hMem => ?_⟩
  · rw [setBlockReading_onDisk] at hDisk
    rw [setBlockReading_pieceCount]
    exact h.complete hDisk
  · have hDisk := not_onDisk_of_inMemory hMem
    rw [setBlockReading_onDisk] at hDisk
    have hNot : node.nodeState ≠ .disk := fun hState => by simp [isBlockSavedOnDisk, hState] at hDisk
    rw [BlockNode.setBlockReading, if_neg hNot] at hMem ⊢
    exact h.inMemory hMem

theorem clearBlockMemCache_pieceCount {play : Nat} (hDisk : node.isBlockSavedOnDisk = true)
    (hClear : node.clearBlockMemCache play = some node') : node'.pieceCount = node.pieceCount := by
  have hKept : node'.isBlockSavedOnDisk = true ∧ node'.pieceCount = node.pieceCount := by
    apply clearBlockMemCache_induction
      (P := fun x => x.isBlockSavedOnDisk = true ∧ x.pieceCount = node.pieceCount) _ _ hClear
      ⟨hDisk, rfl⟩
    · rintro x s y ⟨hx, hSame⟩ hDrop
      exact ⟨(onDisk_congr hDrop.state_eq).trans hx, (hDrop.pieces_of_kept (Or.inr hx)).trans hSame⟩
    · rintro x y ⟨hx, hSame⟩ - - hPieces hOn
      exact ⟨hOn.trans hx, hPieces.trans hSame⟩
  exact hKept.2

/-- Clearing keeps the node accurate when it does not say that it is in memory. -/
theorem Accurate.clearBlockMemCache (h : Accurate n node) (hPos : 0 < n)
    (hSmall : n + 127 < 2 ^ 32) (play : Nat)
    (hKept : ¬ (node.nodeState = .mem ∨ node.nodeState = .saving)) :
    ∃ node', node.clearBlockMemCache play = some node' ∧ Accurate n node' := by
  obtain ⟨node', hClear⟩ := (h.placed hPos hSmall).clearBlockMemCache_isSome play
  have hCleared := clearBlockMemCache_cleared hClear
  refine ⟨node', hClear, h.toFits.cleared hClear, fun hDisk => ?_, fun hMem => ?_⟩
  · rw [hCleared.onDisk_eq] at hDisk
    rw [clearBlockMemCache_pieceCount hDisk hClear]
    exact h.complete hDisk
  · have hSays : node'.saysInMemory = true := by
      rcases hMem with hState | hState <;> simp [saysInMemory, hState]
    exact absurd ((saysInMemory_clearBlockMemCache hClear).mp hSays) hKept

/-- Clearing a block that says it is in memory drops at least its first subpiece. -/
theorem Accurate.clearBlockMemCache_inMemory (h : Accurate n node) (hPos : 0 < n) {play : Nat}
    (hMem : node.nodeState = .mem ∨ node.nodeState = .saving)
    (hClear : node.clearBlockMemCache play = some node') : ¬ Accurate n node' := by
  intro hAccurate
  have hFirst : 0 ∈ node.keys := by
    rw [h.inMemory hMem]
    exact Finset.mem_range.mpr hPos
  have hDropped : 0 ∉ node'.keys := by
    rw [mem_clearBlockMemCache_iff hClear]
    refine fun hKept => hKept.2 ⟨Nat.zero_le _, ?_⟩
    rw [heldFrom_eq_card fun k _ => Nat.zero_le k]
    exact Finset.card_pos.mpr ⟨0, hFirst⟩
  have hSame : node'.nodeState = node.nodeState := by
    rcases (clearBlockMemCache_cleared hClear).state_cases with hSame | ⟨hAll, -⟩
    · exact hSame
    · simp [hAll] at hMem
  rw [hAccurate.inMemory (hSame ▸ hMem)] at hDropped
  exact hDropped (Finset.mem_range.mpr hPos)

theorem Accurate.loadSubPieceBuffer_iff (h : Accurate n node) (hDisk : node.nodeState = .reading) :
    Accurate n (node.loadSubPieceBuffer i buf).1 ↔ i < n := by
  have hLoaded := loadSubPieceBuffer_loaded node i buf
  have hOn : node.isBlockSavedOnDisk = true := by simp [isBlockSavedOnDisk, hDisk]
  have hOn' := hLoaded.onDisk.mpr (Or.inl hOn)
  constructor
  · intro hAfter
    apply hAfter.keys_lt
    rw [hLoaded.keys_eq]
    exact Finset.mem_insert_self i node.keys
  · intro hi
    refine ⟨h.toFits.loaded hLoaded hi (Or.inl hOn), fun _ => ?_, fun hMem => ?_⟩
    · rw [hLoaded.pieces_eq]
      exact h.complete hOn
    · rw [not_onDisk_of_inMemory hMem] at hOn'
      cases hOn'

theorem Accurate.resetForReDownload_iff (h : Accurate n node) :
    Accurate n node.resetForReDownload ↔ node.keys = ∅ := by
  constructor
  · intro hAfter
    apply Finset.eq_empty_of_forall_notMem
    intro k hk
    have hCount := hAfter.counts (resetForReDownload_onDisk node) (k / subpieceNumPerPiece)
    rw [resetForReDownload_pieceCount] at hCount
    have hMem : k ∈ node.resetForReDownload.pieceKeys (k / subpieceNumPerPiece) :=
      Finset.mem_filter.mpr ⟨hk, rfl⟩
    rw [Finset.card_eq_zero.mp hCount.symm] at hMem
    cases hMem
  · intro hNone
    exact ⟨h.toFits.resetForReDownload hNone, by simp, by simp [BlockNode.resetForReDownload]⟩

end Preservation

/-- A call of one of the operations. -/
inductive BlockCall where
  | addSubpiece (index : Nat) (buf : SubPieceBuffer)
  | getBufferForSave
  | onWriteFinish
  | setBlockReading
  | clearBlockMemCache (playSubpieceIndex : Nat)
  | loadSubPieceBuffer (index : Nat) (buf : SubPieceBuffer)
  | resetForReDownload

def next (node : BlockNode) : BlockCall → Option BlockNode
  | .addSubpiece index buf => (node.addSubpiece index buf).map Prod.fst
  | .getBufferForSave => node.getBufferForSave.map Prod.fst
  | .onWriteFinish => some node.onWriteFinish
  | .setBlockReading => some node.setBlockReading.1
  | .clearBlockMemCache playSubpieceIndex => node.clearBlockMemCache playSubpieceIndex
  | .loadSubPieceBuffer index buf => some (node.loadSubPieceBuffer index buf).1
  | .resetForReDownload => some node.resetForReDownload

/-- The assertions with which the operations guard themselves. -/
def Allowed (node : BlockNode) : BlockCall → Prop
  | .addSubpiece index _ => index < node.totalSubpieceCount
  | .loadSubPieceBuffer _ _ => node.nodeState = .reading
  | .resetForReDownload => node.nodeState = .reading
  | _ => True

/-- The calls after which flag, counts and buffers still agree. -/
def KeepsAccurate (node : BlockNode) : BlockCall → Prop
  | .addSubpiece index _ => node.isBlockSavedOnDisk = false ∨ index ∈ node.keys
  | .clearBlockMemCache _ => ¬ (node.nodeState = .mem ∨ node.nodeState = .saving)
  | .loadSubPieceBuffer index _ => index < node.totalSubpieceCount
  | .resetForReDownload => node.keys = ∅
  | _ => True

instance (node : BlockNode) (call : BlockCall) : Decidable (node.Allowed call) := by
  cases call <;> unfold Allowed <;> infer_instance

instance (node : BlockNode) (call : BlockCall) : Decidable (node.KeepsAccurate call) := by
  cases call <;> unfold KeepsAccurate <;> infer_instance

/-- Exactly the calls of `KeepsAccurate` lead from an accurate node to one. -/
theorem Accurate.next_iff {n : Nat} {node : BlockNode} (h : Accurate n node) (hPos : 0 < n)
    (hSmall : n + 127 < 2 ^ 32) {call : BlockCall} (hAllowed : node.Allowed call) :
    (∃ node', node.next call = some node' ∧ Accurate n node') ↔ node.KeepsAccurate call := by
  cases call with
  | addSubpiece index buf =>
      have hIndex : index < n := h.total_eq ▸ hAllowed
      constructor
      · rintro ⟨node', hCall, hAfter⟩
        obtain ⟨⟨added, flag⟩, hAdd, rfl⟩ := Option.map_eq_some_iff.mp hCall
        by_contra hBroken
        obtain ⟨hDisk, hOut⟩ := not_or.mp hBroken
        rw [Bool.not_eq_false] at hDisk
        exact h.addSubpiece_onDisk hPos hSmall hIndex hDisk hOut hAdd hAfter
      · intro hKept
        have hCall : ∃ node' flag, node.addSubpiece index buf = some (node', flag) ∧
            Accurate n node' := h.addSubpiece hSmall hIndex hKept
        obtain ⟨node', flag, hAdd, hAfter⟩ := hCall
        exact ⟨node', by simp [next, hAdd], hAfter⟩
  | getBufferForSave =>
      obtain ⟨node', bufferSet, hSave, hAfter⟩ := h.getBufferForSave
      exact ⟨fun _ => trivial, fun _ => ⟨node', by simp [next, hSave], hAfter⟩⟩
  | onWriteFinish =>
      exact ⟨fun _ => trivial, fun _ => ⟨_, rfl, h.onWriteFinish hPos hSmall⟩⟩
  | setBlockReading => exact ⟨fun _ => trivial, fun _ => ⟨_, rfl, h.setBlockReading⟩⟩
  | clearBlockMemCache play =>
      constructor
      · rintro ⟨node', hClear, hAfter⟩ hMem
        exact h.clearBlockMemCache_inMemory hPos hMem hClear hAfter
      · exact h.clearBlockMemCache hPos hSmall play
  | loadSubPieceBuffer index buf =>
      show (∃ node', some _ = some node' ∧ _) ↔ index < node.totalSubpieceCount
      have hLoad : Accurate n (node.loadSubPieceBuffer index buf).1 ↔ index < n :=
        h.loadSubPieceBuffer_iff hAllowed
      rw [h.total_eq, ← hLoad]
      simp
  | resetForReDownload =>
      show (∃ node', some _ = some node' ∧ _) ↔ node.keys = ∅
      rw [← h.resetForReDownload_iff]
      simp

/-- In every run of guarded calls from a new node, flag, counts and buffers agree,
and the guard is exact: at each node reached, no other allowed call keeps them so. -/
theorem accurate_of_run {n : Nat} (hPos : 0 < n) (hSmall : n + 127 < 2 ^ 32) {index : Nat}
    {disk : Bool} {node : BlockNode}
    (run : Reaches (fun x call y => next x call = some y)
      (fun x call => x.Allowed call ∧ x.KeepsAccurate call) (create index n disk) node) :
    Accurate n node ∧
      (node.isBlockSavedOnDisk = true ∨ node.nodeState = .mem ∨ node.nodeState = .saving →
        ∀ p < piecesOf n, node.pieceCount.getD p 0 = pieceCapacity n p) ∧
      ∀ call, node.Allowed call →
        ((∃ node', node.next call = some node' ∧ Accurate n node') ↔ node.KeepsAccurate call) := by
  have hAccurate : Accurate n node := by
    apply run.invariant (Accurate.create index disk)
    rintro x call y hx ⟨hAllowed, hKept⟩ hStep
    obtain ⟨z, hNext, hz⟩ := (hx.next_iff hPos hSmall hAllowed).mpr hKept
    cases hNext.symm.trans hStep
    exact hz
  refine ⟨hAccurate, ?_, fun call hAllowed => hAccurate.next_iff hPos hSmall hAllowed⟩
  intro hAll p hp
  exact hAccurate.count_eq hPos hSmall hAll hp

/-- A block of two subpieces that is filled, written, read again and trimmed. -/
theorem accurate_of_rereadBlock : ∃ node,
    Accurate 2 node ∧ node.nodeState = .disk ∧ node.keys = {1} := by
  have hTest : (execute (checked next fun x call => decide (x.Allowed call ∧ x.KeepsAccurate call))
      (create 0 2 false) [.addSubpiece 1 ⟨[7], true⟩, .addSubpiece 0 ⟨[7], true⟩, .getBufferForSave,
        .onWriteFinish, .setBlockReading, .loadSubPieceBuffer 0 ⟨[7], true⟩,
        .loadSubPieceBuffer 1 ⟨[7], true⟩, .clearBlockMemCache 0]).any
      (fun node => decide (node.nodeState = .disk ∧ node.keys = {1})) = true := by decide +kernel
  obtain ⟨node, hRun, hNode⟩ := Reaches.exists_of_checked _ _ _ _ _ hTest
  have hGuarded := hRun.mono fun x call hMet => of_decide_eq_true hMet
  exact ⟨node, (accurate_of_run (by decide) (by decide) hGuarded).1, of_decide_eq_true hNode⟩

/-- Clearing a block of one subpiece that was not yet written leaves the state that
says it is in memory, without a buffer. -/
theorem accurate_fails : ∃ node, Reaches (fun x call y => next x call = some y)
    (fun x call => decide (x.Allowed call) = true) (create 0 1 false) node ∧ ¬ Accurate 1 node := by
  have hTest : (execute (checked next fun x call => decide (x.Allowed call)) (create 0 1 false)
      [.addSubpiece 0 ⟨[7], true⟩, .clearBlockMemCache 1]).any
      (fun node => decide (node.nodeState = .mem ∧ node.keys ≠ Finset.range 1)) = true := by
    decide +kernel
  obtain ⟨node, hRun, hNode⟩ := Reaches.exists_of_checked _ _ _ _ _ hTest
  obtain ⟨hMem, hKeys⟩ := of_decide_eq_true hNode
  exact ⟨node, hRun, fun hAccurate => hKeys (hAccurate.inMemory (Or.inl hMem))⟩

end BlockNode

end Storage
