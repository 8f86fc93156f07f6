import Peer.Live.BlockOrder
import Peer.Live.Instance

/-! What a stream is given: block by block the subpieces after the header, in order and
without gaps, as long as the block it plays stays in the cache. -/
namespace Live

open Basis Storage HeaderSubPiece LiveBlockNode

variable {D : Digests} {c c' : LiveCacheManager} {s s' : LiveStream} {node : LiveBlockNode}
  {header : HeaderSubPiece} {i : Nat}

section Cache

/-- The nodes of a cache are sound, and are those of their blocks. -/
def CacheSound (D : Digests) (c : LiveCacheManager) : Prop :=
  ∀ b node, c.node b = some node → Sound D node ∧ node.blockId = b ∧ node.rid = c.rid

@[simp] theorem setNode_node_self (c : LiveCacheManager) (b : Nat) (node : LiveBlockNode) :
    (c.setNode b node).node b = some node := Finmap.lookup_insert _

theorem setNode_node_of_ne (c : LiveCacheManager) {b b' : Nat} (node : LiveBlockNode)
    (h : b' ≠ b) : (c.setNode b node).node b' = c.node b' := Finmap.lookup_insert_of_ne _ h

theorem removeBlock_node_self (c : LiveCacheManager) (b : Nat) :
    (c.removeBlock b).node b = none := Finmap.lookup_erase ..

theorem removeBlock_node_of_ne (c : LiveCacheManager) {b b' : Nat} (h : b' ≠ b) :
    (c.removeBlock b).node b' = c.node b' := Finmap.lookup_erase_ne h

theorem CacheSound.nodeOrNew (h : CacheSound D c) (b : Nat) :
    Sound D (c.nodeOrNew b) ∧ (c.nodeOrNew b).blockId = b ∧ (c.nodeOrNew b).rid = c.rid := by
  unfold LiveCacheManager.nodeOrNew
  cases hNode : c.node b with
  | some node => exact h b node hNode
  | none => exact ⟨Or.inl (create_headless b c.rid), rfl, rfl⟩

theorem CacheSound.addSubPiece (h : CacheSound D c) (subpiece : LivePosition)
    (buffer : Option LiveSubPieceBuffer) : CacheSound D (c.addSubPiece D subpiece buffer).1 := by
  obtain ⟨hSound, hId, hRid⟩ := h.nodeOrNew subpiece.blockId
  obtain ⟨hNext, hNextId, hNextRid⟩ := hSound.add subpiece.subPieceIndex buffer
  intro b node hNode
  by_cases hb : b = subpiece.blockId
  · subst hb
    have hEq := (setNode_node_self c subpiece.blockId _).symm.trans hNode
    rw [← Option.some.inj hEq]
    exact ⟨hNext, hNextId.trans hId, hNextRid.trans hRid⟩
  · exact h b node ((setNode_node_of_ne c _ hb).symm.trans hNode)

theorem CacheSound.removeBlock (h : CacheSound D c) (b : Nat) : CacheSound D (c.removeBlock b) := by
  intro b' node hNode
  by_cases hb : b' = b
  · rw [hb, removeBlock_node_self] at hNode
    cases hNode
  · exact h b' node ((removeBlock_node_of_ne c hb).symm.trans hNode)

end Cache

section Parts

/-- The slots from `start` on, up to `stop`. -/
def slotsBetween (node : LiveBlockNode) (start stop : Nat) : List (Option LiveSubPieceBuffer) :=
  (List.range' start (stop - start)).map node.slot

theorem slotsBetween_append (node : LiveBlockNode) {a b d : Nat} (hab : a ≤ b) (hbd : b ≤ d) :
    slotsBetween node a b ++ slotsBetween node b d = slotsBetween node a d := by
  unfold slotsBetween
  rw [← List.map_append]
  congr 1
  have hSplit := List.range'_append_1 (s := a) (m := b - a) (n := d - b)
  rw [show a + (b - a) = b by omega, show b - a + (d - b) = d - a by omega] at hSplit
  exact hSplit

/-- What a stream gets of the first subpieces of a block: the FLV header stays only in the
block it started with. -/
def cutHeader (start blockId : Nat) (buffers : List (Option LiveSubPieceBuffer)) :
    List (Option LiveSubPieceBuffer) :=
  if blockId = start then buffers else removeFlashHeader buffers

theorem removeFlashHeader_append {left right : List (Option LiveSubPieceBuffer)} (h : left ≠ []) :
    removeFlashHeader (left ++ right) = removeFlashHeader left ++ right := by
  cases left with
  | nil => exact absurd rfl h
  | cons first rest =>
      cases first with
      | none => rfl
      | some first =>
          simp only [List.cons_append, removeFlashHeader]
          split <;> rfl

/-- The data of a block before subpiece `stop`, as a stream gets it. -/
def dataBefore (start : Nat) (node : LiveBlockNode) (stop : Nat) :
    List (Option LiveSubPieceBuffer) :=
  cutHeader start node.blockId (slotsBetween node 1 stop)

/-- The data of the block that is played, before the position of the stream. -/
def currentData (c : LiveCacheManager) (s : LiveStream) : List (Option LiveSubPieceBuffer) :=
  match c.node s.playingPosition.blockId with
  | some node => dataBefore s.startPosition.blockId node s.playingPosition.subPieceIndex
  | none => []

theorem dataBefore_of_le {start stop : Nat} (h : stop ≤ 1) : dataBefore start node stop = [] := by
  have hNone : slotsBetween node 1 stop = [] := by
    unfold slotsBetween
    rw [Nat.sub_eq_zero_of_le h]
    rfl
  unfold dataBefore cutHeader
  rw [hNone]
  split <;> rfl

end Parts

section Position

/-- The subpieces before `stop` belong to pieces that were found right. -/
structure PlayedTo (D : Digests) (header : HeaderSubPiece) (node : LiveBlockNode)
    (stop : Nat) : Prop where
  checked : CheckedUpTo D header (pieceCount header) node
  first : ∃ k, stop = 16 * k + 1 ∧ ∀ p < k, p ∈ node.validatedPieces
  lt : stop < node.subpieces.length

/-- The position is the start of a block, or the first subpiece of a piece all of whose
predecessors were found right. -/
def AtPiece (D : Digests) (c : LiveCacheManager) (position : LivePosition) : Prop :=
  position.subPieceIndex = 0 ∨ ∃ node header, c.node position.blockId = some node ∧
    PlayedTo D header node position.subPieceIndex

theorem PlayedTo.isSome (h : PlayedTo D header node i) {j : Nat} (hj : j < i) :
    (node.slot j).isSome = true := by
  obtain ⟨k, rfl, hPieces⟩ := h.first
  by_cases hZero : j = 0
  · obtain ⟨buffer, hFirst, -⟩ := h.checked.buffer
    rw [hZero, hFirst]
    rfl
  · have hIn := InPiece.of_pos (Nat.pos_of_ne_zero hZero)
    have hMem := hPieces ((j - 1) / 16) (by omega)
    exact ((h.checked.mem_iff _).mp hMem).2.2 j hIn (hj.trans h.lt)

/-- A packet keeps what was played. -/
theorem PlayedTo.add (h : PlayedTo D header node i) (index : Nat)
    (buffer : Option LiveSubPieceBuffer) :
    PlayedTo D header (node.addSubPiece D index buffer).1 i ∧
      ∀ stop, stop ≤ i →
        slotsBetween (node.addSubPiece D index buffer).1 1 stop = slotsBetween node 1 stop := by
  by_cases hPos : 0 < index
  · have hAdded := addSubPiece_added h.checked hPos buffer
    have hNext := h.checked.added hPos hAdded
    obtain ⟨k, hk, hPieces⟩ := h.first
    refine ⟨⟨hNext, ⟨k, hk, fun p hp => (h.checked.kept hPos hAdded (hPieces p hp)).1⟩, ?_⟩, ?_⟩
    · rw [hNext.length_eq, ← h.checked.length_eq]
      exact h.lt
    · intro stop hStop
      unfold slotsBetween
      apply List.map_congr_left
      intro j hMem
      rw [List.mem_range'_1] at hMem
      have hIn : InPiece ((j - 1) / 16) j := InPiece.of_pos (by omega)
      have hPiece := hPieces ((j - 1) / 16) (by omega)
      exact (h.checked.kept hPos hAdded hPiece).2 j hIn (by have := h.lt; omega)
  · obtain rfl : index = 0 := by omega
    rw [h.checked.addSubPiece_zero]
    exact ⟨h, fun _ _ => rfl⟩

theorem AtPiece.addSubPiece {position : LivePosition} (h : AtPiece D c position)
    (subpiece : LivePosition) (buffer : Option LiveSubPieceBuffer) :
    AtPiece D (c.addSubPiece D subpiece buffer).1 position := by
  rcases h with hZero | ⟨node, header, hNode, hPlayed⟩
  · exact Or.inl hZero
  · right
    by_cases hb : position.blockId = subpiece.blockId
    · have hNew : c.nodeOrNew subpiece.blockId = node := by
        rw [LiveCacheManager.nodeOrNew, ← hb, hNode]
        rfl
      refine ⟨_, header, ?_, (hPlayed.add subpiece.subPieceIndex buffer).1⟩
      rw [hb, ← hNew]
      exact setNode_node_self c _ _
    · exact ⟨node, header, (setNode_node_of_ne c _ hb).trans hNode, hPlayed⟩

/-- What was given of the block that is played does not change. -/
theorem currentData_addSubPiece (h : AtPiece D c s.playingPosition) (subpiece : LivePosition)
    (buffer : Option LiveSubPieceBuffer) :
    currentData (c.addSubPiece D subpiece buffer).1 s = currentData c s := by
  rcases h with hZero | ⟨node, header, hNode, hPlayed⟩
  · have hNone : ∀ c' : LiveCacheManager, currentData c' s = [] := by
      intro c'
      unfold currentData
      split
      · exact dataBefore_of_le (by omega)
      · rfl
    rw [hNone, hNone]
  · unfold currentData
    by_cases hb : s.playingPosition.blockId = subpiece.blockId
    · have hNew : c.nodeOrNew subpiece.blockId = node := by
        rw [LiveCacheManager.nodeOrNew, ← hb, hNode]
        rfl
      have hNext : (c.addSubPiece D subpiece buffer).1.node s.playingPosition.blockId =
          some (node.addSubPiece D subpiece.subPieceIndex buffer).1 := by
        rw [hb, ← hNew]
        exact setNode_node_self c _ _
      obtain ⟨-, hSame⟩ := hPlayed.add subpiece.subPieceIndex buffer
      have hId := ((Sound.add (D := D) (Or.inr ⟨header, hPlayed.checked⟩)
        subpiece.subPieceIndex buffer).2).1
      rw [hNext, hNode]
      simp only [dataBefore, hSame _ (Nat.le_refl _), hId]
    · have hNext : (c.addSubPiece D subpiece buffer).1.node s.playingPosition.blockId =
          c.node s.playingPosition.blockId := setNode_node_of_ne c _ hb
      rw [hNext]

end Position

section Delivered

/-- What a stream has been given since it was placed: all the blocks it has left,
at the distance of the live interval, and the part of the next one before its position. -/
structure Delivered (D : Digests) (c : LiveCacheManager) (s : LiveStream) : Prop where
  atPiece : AtPiece D c s.playingPosition
  blockId_eq : s.playingPosition.blockId = u32 (s.placedAt + s.played.length * c.liveInterval)
  played_id : ∀ n (hn : n < s.played.length),
    (s.played[n]).blockId = u32 (s.placedAt + n * c.liveInterval)
  played_whole : ∀ node ∈ s.played, node.isComplete = true ∧ Sound D node
  received_eq : (s.received.drop s.callsBefore).flatMap (·.2) =
    s.played.flatMap (fun node =>
      dataBefore s.startPosition.blockId node node.getSubPiecesCount) ++ currentData c s
  callsBefore_le : s.callsBefore ≤ s.received.length

/-- A stream that was just placed has been given nothing since. -/
theorem delivered_place (s : LiveStream) {blockId : Nat} (h : blockId < 2 ^ 32) :
    Delivered D c (s.place blockId) where
  atPiece := Or.inl rfl
  blockId_eq := by
    simp only [LiveStream.place, List.length_nil, Nat.zero_mul, Nat.add_zero]
    exact (u32_of_lt h).symm
  played_id n hn := absurd hn (Nat.not_lt_zero n)
  played_whole node hMem := by cases hMem
  received_eq := by
    have hNone : currentData c (s.place blockId) = [] := by
      unfold currentData
      split
      · exact dataBefore_of_le (Nat.zero_le _)
      · rfl
    rw [hNone]
    simp [LiveStream.place]
  callsBefore_le := Nat.le_refl _

theorem Delivered.addSubPiece (h : Delivered D c s) (subpiece : LivePosition)
    (buffer : Option LiveSubPieceBuffer) :
    Delivered D (c.addSubPiece D subpiece buffer).1 s :=
  { h with
    atPiece := h.atPiece.addSubPiece subpiece buffer
    received_eq := by
      rw [currentData_addSubPiece h.atPiece]
      exact h.received_eq }

theorem Delivered.removeBlock (h : Delivered D c s) {b : Nat}
    (hb : s.playingPosition.blockId ≠ b) : Delivered D (c.removeBlock b) s := by
  have hNode := removeBlock_node_of_ne c hb
  refine { h with atPiece := ?_, received_eq := ?_ }
  · rcases h.atPiece with hZero | ⟨node, header, hSome, hPlayed⟩
    · exact Or.inl hZero
    · exact Or.inr ⟨node, header, hNode.trans hSome, hPlayed⟩
  · rw [h.received_eq]
    unfold currentData
    rw [hNode]

end Delivered

section Send

theorem onRecvLivePiece_of_incomplete (s : LiveStream) (jump : Option Nat) (blockId : Nat)
    (buffers : List (Option LiveSubPieceBuffer)) {percentage : Nat} (h : percentage ≠ 100) :
    s.onRecvLivePiece jump blockId buffers percentage =
      ({ s with received := s.received ++ [(blockId, buffers)] }, false) := by
  unfold LiveStream.onRecvLivePiece
  cases jump with
  | none => rfl
  | some target => simp [h]

theorem onRecvLivePiece_cases (s : LiveStream) (jump : Option Nat) (blockId : Nat)
    (buffers : List (Option LiveSubPieceBuffer)) (percentage : Nat) :
    s.onRecvLivePiece jump blockId buffers percentage =
        ({ s with received := s.received ++ [(blockId, buffers)] }, false) ∨
      ∃ target, s.onRecvLivePiece jump blockId buffers percentage =
        ({ s with received := s.received ++ [(blockId, buffers)] }.place (u32 target), true) := by
  unfold LiveStream.onRecvLivePiece
  cases jump with
  | none => exact Or.inl rfl
  | some target =>
      by_cases h : percentage = 100
      · exact Or.inr ⟨target, by simp [h]⟩
      · exact Or.inl (by simp [h])

/-- One call sends what is missing up to `last`, and reports less than 100 percent unless
the last subpiece of the block is sent. -/
theorem sendSubPieces_spec (last : Nat) {count : Nat} (hNode : c.node s.playingPosition.blockId = some node)
    (hId : node.blockId = s.playingPosition.blockId)
    (hCount : node.getSubPiecesCount = count) (hBound : count ≤ 5409)
    (hPos : 1 ≤ last) (hStart : s.playingPosition.subPieceIndex ≤ last)
    (jump : Option Nat) :
    ∃ buffers percentage, sendSubPieces c jump s last =
        s.onRecvLivePiece jump s.playingPosition.blockId buffers percentage ∧
      dataBefore s.startPosition.blockId node s.playingPosition.subPieceIndex ++ buffers =
        dataBefore s.startPosition.blockId node (last + 1) ∧
      (last + 1 < count → percentage ≠ 100) := by
  obtain ⟨position, hPosition⟩ : ∃ position, s.playingPosition = position := ⟨_, rfl⟩
  rw [hPosition] at hNode hId hStart ⊢
  obtain ⟨start, hStartEq⟩ : ∃ start, start =
      if position.subPieceIndex = 0 then 1 else position.subPieceIndex := ⟨_, rfl⟩
  have hFrom : 1 ≤ start ∧ start ≤ last ∧ position.subPieceIndex ≤ start ∧
      (start = 1 ∨ start = position.subPieceIndex) := by
    rw [hStartEq]
    split <;> omega
  have hSlots : c.getSubPieces position.blockId start last = slotsBetween node start (last + 1) := by
    unfold LiveCacheManager.getSubPieces slotsBetween
    rw [if_neg (by omega), hNode]
  have hSend : sendSubPieces c jump s last = s.onRecvLivePiece jump position.blockId
      (if !(position.blockId == s.startPosition.blockId) && start == 1 then
        removeFlashHeader (slotsBetween node start (last + 1))
      else slotsBetween node start (last + 1))
      (u32 (u32 (position.subPieceIndex + (slotsBetween node start (last + 1)).length) * 100) /
        c.getSubPiecesCount position.blockId % 256) := by
    unfold sendSubPieces
    rw [hPosition]
    dsimp only
    rw [if_neg (by omega), ← hStartEq, hSlots]
  refine ⟨_, _, hSend, ?_, fun hPart => ?_⟩
  · have hJoin := slotsBetween_append node hFrom.1 (show start ≤ last + 1 by omega)
    by_cases hOne : start = 1
    · have hLe : position.subPieceIndex ≤ 1 := by omega
      rw [dataBefore_of_le hLe, List.nil_append, hOne]
      unfold dataBefore cutHeader
      rw [hId]
      by_cases hFirst : position.blockId = s.startPosition.blockId <;> simp [hFirst]
    · have hSame : start = position.subPieceIndex := by omega
      have hKeep : (!(position.blockId == s.startPosition.blockId) && start == 1) = false := by
        simp [hOne]
      have hFull : slotsBetween node 1 start ≠ [] := by
        unfold slotsBetween
        rw [ne_eq, List.map_eq_nil_iff, List.range'_eq_nil_iff]
        omega
      rw [hKeep, ← hSame]
      unfold dataBefore cutHeader
      rw [← hJoin]
      split
      · rfl
      · rw [removeFlashHeader_append hFull]
        rfl
  · have hTotal : c.getSubPiecesCount position.blockId = count := by
      rw [LiveCacheManager.getSubPiecesCount, hNode]
      exact hCount
    have hLength : (slotsBetween node start (last + 1)).length = last + 1 - start := by
      simp [slotsBetween]
    have hSent : position.subPieceIndex + (last + 1 - start) < count := by omega
    have hLow : (position.subPieceIndex + (last + 1 - start)) * 100 / count < 100 := by
      apply Nat.div_lt_of_lt_mul
      omega
    rw [hTotal, hLength, u32_of_lt (show position.subPieceIndex + (last + 1 - start) < 2 ^ 32 by omega),
      u32_of_lt (by omega), Nat.mod_eq_of_lt (by omega)]
    omega

end Send

section Push

/-- The block at a position with a subpiece has its header, and everything before the
position. -/
theorem header_of_position (hSound : CacheSound D c) {position : LivePosition}
    (hPiece : AtPiece D c position) (hHas : c.hasSubPiece position = true) :
    ∃ node header, c.node position.blockId = some node ∧
      CheckedUpTo D header (pieceCount header) node ∧ node.blockId = position.blockId ∧
      (∀ j, j ≤ position.subPieceIndex → (node.slot j).isSome = true) := by
  unfold LiveCacheManager.hasSubPiece at hHas
  cases hNode : c.node position.blockId with
  | none =>
      rw [hNode] at hHas
      cases hHas
  | some node =>
      rw [hNode] at hHas
      obtain ⟨hNodeSound, hId, -⟩ := hSound _ node hNode
      have hSlot : (node.slot position.subPieceIndex).isSome = true := by
        dsimp only [hasSubPiece] at hHas
        split at hHas
        · cases hHas
        · exact hHas
      rcases hPiece with hZero | ⟨node', header, hNode', hPlayed⟩
      · rw [hZero] at hSlot
        rcases hNodeSound with hHeadless | ⟨header, hChecked⟩
        · rw [hHeadless.first_eq] at hSlot
          cases hSlot
        · refine ⟨node, header, rfl, hChecked, hId, fun j hj => ?_⟩
          obtain rfl : j = 0 := by omega
          exact hSlot
      · obtain rfl : node = node' := Option.some.inj (hNode.symm.trans hNode')
        refine ⟨node, header, rfl, hPlayed.checked, hId, fun j hj => ?_⟩
        rcases Nat.lt_or_eq_of_le hj with hLt | rfl
        · exact hPlayed.isSome hLt
        · exact hSlot

/-- The whole rest of the block is sent. -/
theorem push_whole (h : Delivered D c s)
    (hNode : c.node s.playingPosition.blockId = some node)
    (hChecked : CheckedUpTo D header (pieceCount header) node)
    (hId : node.blockId = s.playingPosition.blockId)
    (hSlots : ∀ j, j ≤ s.playingPosition.subPieceIndex → (node.slot j).isSome = true)
    (hHas : c.hasSubPiece s.playingPosition = true)
    (hComplete : node.isComplete = true) (jump : Option Nat) :
    ∃ s', pushDataToDownloaderDriver c jump s = some s' ∧ Delivered D c s' ∧ s'.id = s.id := by
  have hBounds := subpieceCount_bounds hChecked.describes.1
  have hCount : node.getSubPiecesCount = node.subpieces.length := by
    rw [getSubPiecesCount, hChecked.hasHeader, if_pos rfl]
  have hLength := hChecked.length_eq
  have hIndex := lt_of_slot (hSlots _ (Nat.le_refl _))
  have hTotal : c.getSubPiecesCount s.playingPosition.blockId = node.subpieces.length := by
    rw [LiveCacheManager.getSubPiecesCount, hNode]
    exact hCount
  have hWhole : c.hasCompleteBlock s.playingPosition.blockId = true := by
    rw [LiveCacheManager.hasCompleteBlock, hNode]
    exact hComplete
  have hLast : u16 (subU32 (c.getSubPiecesCount s.playingPosition.blockId) 1) =
      node.subpieces.length - 1 := by
    rw [hTotal, subU32_of_le (by omega) (by omega), u16_of_lt (by omega)]
  obtain ⟨buffers, percentage, hSend, hJoin, -⟩ := sendSubPieces_spec
    (node.subpieces.length - 1) hNode hId hCount (by omega) (by omega) (by omega) jump
  have hPush : pushDataToDownloaderDriver c jump s =
      (let r := s.onRecvLivePiece jump s.playingPosition.blockId buffers percentage
      let nextBlockId := u32 (r.1.playingPosition.blockId + c.liveInterval)
      if r.2 then some { r.1.place nextBlockId with byDriver := false }
      else some { r.1 with
        playingPosition := ⟨nextBlockId, 0⟩
        played := r.1.played ++ (c.node s.playingPosition.blockId).toList }) := by
    unfold pushDataToDownloaderDriver
    simp only [hHas, Bool.not_true, Bool.false_eq_true, if_false, hWhole, if_true, hLast, hSend]
  rw [hPush]
  rcases onRecvLivePiece_cases s jump s.playingPosition.blockId buffers percentage with
    hStay | ⟨target, hJump⟩
  · rw [hStay]
    refine ⟨_, rfl, ?_, rfl⟩
    have hSent : node.subpieces.length - 1 + 1 = node.subpieces.length := by omega
    rw [hSent] at hJoin
    refine { atPiece := Or.inl rfl, blockId_eq := ?_, played_id := fun n hn => ?_,
             played_whole := fun other hMem => ?_, received_eq := ?_,
             callsBefore_le := h.callsBefore_le.trans (by simp) }
    · simp only [hNode, Option.toList_some, List.length_append, List.length_singleton]
      rw [h.blockId_eq, Nat.add_mul, Nat.one_mul, ← Nat.add_assoc]
      exact u32_add_left _ _
    · simp only [hNode, Option.toList_some]
      rcases Nat.lt_or_ge n s.played.length with hOld | hNew
      · rw [List.getElem_append_left hOld]
        exact h.played_id n hOld
      · have hEnd : n = s.played.length := by
          simp only [hNode, Option.toList_some, List.length_append, List.length_singleton] at hn
          omega
        subst hEnd
        rw [List.getElem_append_right (Nat.le_refl _)]
        simp only [Nat.sub_self, List.getElem_cons_zero]
        exact hId.trans h.blockId_eq
    · simp only [hNode, Option.toList_some, List.mem_append, List.mem_singleton] at hMem
      rcases hMem with hOld | rfl
      · exact h.played_whole other hOld
      · exact ⟨hComplete, Or.inr ⟨header, hChecked⟩⟩
    · have hCurrent : currentData c s = dataBefore s.startPosition.blockId node
          s.playingPosition.subPieceIndex := by
        unfold currentData
        rw [hNode]
      have hEmpty : ∀ b, currentData c { s with playingPosition := ⟨b, 0⟩ } = [] := by
        intro b
        unfold currentData
        split
        · exact dataBefore_of_le (Nat.zero_le _)
        · rfl
      simp only [hNode, Option.toList_some]
      rw [List.drop_append_of_le_length h.callsBefore_le, List.flatMap_append, h.received_eq,
        hCurrent, List.flatMap_append, List.flatMap_singleton, List.flatMap_singleton, hCount,
        ← hJoin, List.append_assoc]
      simp only [List.append_assoc]
      congr 2
      exact (List.append_nil _).symm.trans (congrArg _ (hEmpty _).symm)
  · rw [hJump]
    exact ⟨_, rfl, { delivered_place _ (u32_lt _) with }, rfl⟩

/-- A block that has its header and is not complete has a first gap. -/
theorem exists_first_gap (hHeader : node.hasHeaderSubPiece = true)
    (hComplete : node.isComplete = false) :
    ∃ gap, gap = (node.subpieces.findIdx fun slot => slot.isNone) ∧ gap < node.subpieces.length ∧
      (∀ j, j < gap → (node.slot j).isSome = true) ∧ node.slot gap = none := by
  have hGapLt : (node.subpieces.findIdx fun slot => slot.isNone) < node.subpieces.length := by
    rw [List.findIdx_lt_length]
    by_contra hNone
    push Not at hNone
    have hAll : node.isComplete = true := by
      unfold isComplete
      rw [hHeader]
      simp only [Bool.not_true, Bool.false_eq_true, if_false, List.all_eq_true]
      intro slot hMem
      have hSome := hNone slot hMem
      cases slot with
      | none => exact absurd rfl hSome
      | some => rfl
    rw [hComplete] at hAll
    cases hAll
  refine ⟨_, rfl, hGapLt, fun j hj => ?_, ?_⟩
  · have hLt : j < node.subpieces.length := hj.trans hGapLt
    have hSome := List.not_of_lt_findIdx hj
    simpa [slot, hLt, Option.isSome_iff_ne_none] using hSome
  · have hIsNone := List.findIdx_getElem (p := fun slot : Option LiveSubPieceBuffer => slot.isNone)
      (w := hGapLt)
    simpa [slot, hGapLt] using hIsNone

/-- The pieces before the one that misses a subpiece are sent. -/
theorem push_part (h : Delivered D c s)
    (hNode : c.node s.playingPosition.blockId = some node)
    (hChecked : CheckedUpTo D header (pieceCount header) node)
    (hId : node.blockId = s.playingPosition.blockId)
    (hSlots : ∀ j, j ≤ s.playingPosition.subPieceIndex → (node.slot j).isSome = true)
    (hHas : c.hasSubPiece s.playingPosition = true)
    (hComplete : node.isComplete = false) (jump : Option Nat) :
    ∃ s', pushDataToDownloaderDriver c jump s = some s' ∧ Delivered D c s' ∧ s'.id = s.id := by
  have hBounds := subpieceCount_bounds hChecked.describes.1
  have hLength := hChecked.length_eq
  have hCount : node.getSubPiecesCount = node.subpieces.length := by
    rw [getSubPiecesCount, hChecked.hasHeader, if_pos rfl]
  have hNotWhole : c.hasCompleteBlock s.playingPosition.blockId = false := by
    rw [LiveCacheManager.hasCompleteBlock, hNode]
    exact hComplete
  -- The first gap of the block lies after the position.
  obtain ⟨gap, hGap, hGapLt, hBefore, hGapNone⟩ := exists_first_gap hChecked.hasHeader hComplete
  have hAfter : s.playingPosition.subPieceIndex < gap := by
    by_contra hLe
    have hSome := hSlots gap (Nat.not_lt.mp hLe)
    rw [hGapNone] at hSome
    cases hSome
  have hMissing : c.getNextMissingSubPiece (c.blockNodes.keys.card + 1) s.playingPosition.blockId =
      some ⟨s.playingPosition.blockId, gap⟩ := by
    simp only [LiveCacheManager.getNextMissingSubPiece, hNode, hComplete, Bool.not_false, if_true,
      getNextMissingSubPiece, ← hGap, u16_of_lt (show gap < 2 ^ 16 by omega)]
  have hLast : subU32 (getFirstSubPieceIndex (getPieceIndex gap)) 1 = 16 * ((gap - 1) / 16) := by
    rw [getPieceIndex_eq (by omega) (by omega), getFirstSubPieceIndex, subPiecesPerPiece,
      subU32_of_le (by omega) (by omega)]
    omega
  by_cases hStop : s.playingPosition.subPieceIndex ≤ 16 * ((gap - 1) / 16)
  · have hPush : pushDataToDownloaderDriver c jump s =
        (let sent := (sendSubPieces c jump s (16 * ((gap - 1) / 16))).1
        some { sent with playingPosition :=
          ⟨sent.playingPosition.blockId, 16 * ((gap - 1) / 16) + 1⟩ }) := by
      unfold pushDataToDownloaderDriver
      simp only [hHas, Bool.not_true, Bool.false_eq_true, if_false, hNotWhole, hMissing, hAfter,
        and_self, if_true, hLast, hStop, u16_of_lt (show 16 * ((gap - 1) / 16) < 2 ^ 16 by omega),
        u16_of_lt (show 16 * ((gap - 1) / 16) + 1 < 2 ^ 16 by omega)]
    have hPlayed : PlayedTo D header node (16 * ((gap - 1) / 16) + 1) := by
      refine ⟨hChecked, ⟨(gap - 1) / 16, rfl, fun p hp => ?_⟩, by omega⟩
      rw [hChecked.mem_iff, lt_pieceCount_iff hChecked.describes.1, ← hLength]
      refine ⟨by omega, by omega, fun j hIn _ => hBefore j ?_⟩
      unfold InPiece at hIn
      omega
    have hNext : ∀ received, (received.drop s.callsBefore).flatMap (·.2) =
          s.played.flatMap (fun node =>
            dataBefore s.startPosition.blockId node node.getSubPiecesCount) ++
          dataBefore s.startPosition.blockId node (16 * ((gap - 1) / 16) + 1) →
        s.callsBefore ≤ received.length →
        Delivered D c { s with
          received := received
          playingPosition := ⟨s.playingPosition.blockId, 16 * ((gap - 1) / 16) + 1⟩ } := by
      intro received hReceived hLe
      refine { h with
        atPiece := Or.inr ⟨node, header, hNode, hPlayed⟩
        received_eq := ?_
        callsBefore_le := hLe }
      rw [hReceived]
      simp only [currentData, hNode]
    have hCurrent : currentData c s = dataBefore s.startPosition.blockId node
        s.playingPosition.subPieceIndex := by
      unfold currentData
      rw [hNode]
    rw [hPush]
    by_cases hZero : 16 * ((gap - 1) / 16) = 0
    · have hNothing : sendSubPieces c jump s (16 * ((gap - 1) / 16)) = (s, false) := by
        unfold sendSubPieces
        rw [if_pos ⟨by omega, hZero⟩]
      rw [hNothing]
      refine ⟨_, rfl, hNext s.received ?_ h.callsBefore_le, rfl⟩
      rw [h.received_eq, hCurrent, dataBefore_of_le (by omega), dataBefore_of_le (by omega)]
    · obtain ⟨buffers, percentage, hSend, hJoin, hPart⟩ := sendSubPieces_spec
        (16 * ((gap - 1) / 16)) hNode hId hCount (by omega) (by omega) hStop jump
      rw [hSend, onRecvLivePiece_of_incomplete _ _ _ _ (hPart (by omega))]
      refine ⟨_, rfl, hNext _ ?_ ?_, rfl⟩
      · rw [List.drop_append_of_le_length h.callsBefore_le, List.flatMap_append, h.received_eq,
          hCurrent, List.flatMap_singleton, List.append_assoc, hJoin]
      · rw [List.length_append]
        exact h.callsBefore_le.trans (Nat.le_add_right _ _)
  · refine ⟨s, ?_, h, rfl⟩
    unfold pushDataToDownloaderDriver
    simp only [hHas, Bool.not_true, Bool.false_eq_true, if_false, hNotWhole, hMissing, hAfter,
      and_self, if_true, hLast, hStop]

theorem push_delivered (hSound : CacheSound D c) (h : Delivered D c s) (jump : Option Nat) :
    ∃ s', pushDataToDownloaderDriver c jump s = some s' ∧ Delivered D c s' ∧ s'.id = s.id := by
  cases hHas : c.hasSubPiece s.playingPosition with
  | false =>
      refine ⟨s, ?_, h, rfl⟩
      unfold pushDataToDownloaderDriver
      simp [hHas]
  | true =>
      obtain ⟨node, header, hNode, hChecked, hId, hSlots⟩ :=
        header_of_position hSound h.atPiece hHas
      cases hComplete : node.isComplete with
      | true => exact push_whole h hNode hChecked hId hSlots hHas hComplete jump
      | false => exact push_part h hNode hChecked hId hSlots hHas hComplete jump

end Push

end Live
