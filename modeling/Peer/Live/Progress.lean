import Peer.Live.DeliveryRuns

/-! The progress that a stream is told with each call, and where it stands after a jump.
The driver may jump when it is told 100, and from its timer at the start of a block. -/
namespace Live

open Basis Storage HeaderSubPiece LiveBlockNode

variable {D : Digests} {c : LiveCacheManager} {s s' : LiveStream} {x : LiveInstance}
  {rid : Guid} {liveInterval : Nat} {jump : Option Nat}

/-- The last subpiece that a push hands over, if it hands any over. -/
def lastHanded (c : LiveCacheManager) (position : LivePosition) : Option Nat :=
  if !c.hasSubPiece position then none
  else if c.hasCompleteBlock position.blockId then
    some (c.getSubPiecesCount position.blockId - 1)
  else
    match c.node position.blockId with
    | none => none
    | some node =>
        let last := 16 * ((node.getNextMissingSubPiece - 1) / 16)
        if position.subPieceIndex ≤ last ∧ 0 < last then some last else none

/-- The progress that `SendSubPieces` computes. -/
def progressPercentage (c : LiveCacheManager) (position : LivePosition) (last : Nat) : Nat :=
  let start := if position.subPieceIndex = 0 then 1 else position.subPieceIndex
  let downloaded := u32 (position.subPieceIndex +
    (c.getSubPieces position.blockId start last).length)
  u32 (downloaded * 100) / c.getSubPiecesCount position.blockId % 256

theorem sendSubPieces_eq (jump : Option Nat) {last : Nat} (hLast : 0 < last) :
    ∃ buffers, sendSubPieces c jump s last = s.onRecvLivePiece jump s.playingPosition.blockId
      buffers (progressPercentage c s.playingPosition last) := by
  unfold sendSubPieces
  dsimp only
  rw [if_neg fun hNone => hLast.ne' hNone.2]
  exact ⟨_, rfl⟩

/-- A block whose header is there. -/
structure HasHeader (c : LiveCacheManager) (blockId : Nat) (node : LiveBlockNode) : Prop where
  node_eq : c.node blockId = some node
  count_eq : c.getSubPiecesCount blockId = node.subpieces.length
  two_le : 2 ≤ node.subpieces.length
  le_bound : node.subpieces.length ≤ 5409

theorem CacheSound.hasHeader (h : CacheSound D c) {blockId : Nat} {node : LiveBlockNode}
    (hNode : c.node blockId = some node) (hFirst : (node.slot 0).isSome = true) :
    HasHeader c blockId node := by
  obtain hHeadless | ⟨header, hChecked⟩ := (h blockId node hNode).1
  · rw [hHeadless.first_eq] at hFirst
    cases hFirst
  · have hBounds := subpieceCount_bounds hChecked.describes.1
    have hLength := hChecked.length_eq
    refine ⟨hNode, ?_, by omega, by omega⟩
    rw [LiveCacheManager.getSubPiecesCount, hNode]
    show node.getSubPiecesCount = _
    rw [getSubPiecesCount, hChecked.hasHeader, if_pos rfl]

/-- A call reports 100 exactly if it ends with the last subpiece and does not start with
the block. -/
theorem HasHeader.progress_iff {node : LiveBlockNode} {position : LivePosition} {last : Nat}
    (h : HasHeader c position.blockId node) (hLast : 0 < last)
    (hFrom : position.subPieceIndex ≤ last) (hTo : last < node.subpieces.length) :
    progressPercentage c position last = 100 ↔
      last + 1 = node.subpieces.length ∧ position.subPieceIndex ≠ 0 := by
  have hTwo := h.two_le
  have hBound := h.le_bound
  have hLength : ∀ start, 1 ≤ start → start ≤ last →
      (c.getSubPieces position.blockId start last).length = last + 1 - start := by
    intro start hOne hStart
    unfold LiveCacheManager.getSubPieces
    rw [if_neg (by omega), h.node_eq]
    simp
  -- the header counts where the position is past it
  obtain ⟨sent, hSent, hIff⟩ : ∃ sent, sent = position.subPieceIndex + (c.getSubPieces
      position.blockId (if position.subPieceIndex = 0 then 1 else position.subPieceIndex)
        last).length ∧ sent ≤ node.subpieces.length ∧ (sent = node.subpieces.length ↔
      last + 1 = node.subpieces.length ∧ position.subPieceIndex ≠ 0) := by
    refine ⟨_, rfl, ?_⟩
    by_cases hZero : position.subPieceIndex = 0
    · rw [if_pos hZero, hLength 1 (Nat.le_refl 1) hLast]
      omega
    · rw [if_neg hZero, hLength _ (by omega) hFrom]
      omega
  unfold progressPercentage
  dsimp only
  rw [← hSent, h.count_eq, u32_of_lt (show sent < 2 ^ 32 by omega),
    u32_of_lt (show sent * 100 < 2 ^ 32 by omega), ← hIff.2]
  have hLe : sent * 100 / node.subpieces.length ≤ 100 := by
    apply Nat.div_le_of_le_mul
    exact Nat.mul_le_mul_right 100 hIff.1
  rw [Nat.mod_eq_of_lt (by omega)]
  constructor
  · intro hFull
    have hMul := Nat.div_mul_le_self (sent * 100) node.subpieces.length
    rw [hFull] at hMul
    omega
  · intro hAll
    rw [hAll, Nat.mul_div_cancel_left _ (by omega)]

/-- What a push can do. -/
inductive Pushed (c : LiveCacheManager) (jump : Option Nat) (s : LiveStream) : LiveStream → Prop
  | idle (index : Nat) (hNone : lastHanded c s.playingPosition = none) :
      Pushed c jump s { s with playingPosition := ⟨s.playingPosition.blockId, index⟩ }
  | part (last : Nat) (buffers : List (Option LiveSubPieceBuffer)) (node : LiveBlockNode)
      (hNode : HasHeader c s.playingPosition.blockId node)
      (hLast : lastHanded c s.playingPosition = some last) (hPos : 0 < last)
      (hFrom : s.playingPosition.subPieceIndex ≤ last)
      (hPart : last + 1 < node.subpieces.length) :
      Pushed c jump s { s with
        received := s.received ++ [(s.playingPosition.blockId, buffers)]
        playingPosition := ⟨s.playingPosition.blockId, last + 1⟩ }
  | whole (buffers : List (Option LiveSubPieceBuffer)) (node : LiveBlockNode)
      (hNode : HasHeader c s.playingPosition.blockId node)
      (hLast : lastHanded c s.playingPosition = some (node.subpieces.length - 1))
      (hFrom : s.playingPosition.subPieceIndex ≤ node.subpieces.length - 1)
      (hStay : s.playingPosition.subPieceIndex = 0 ∨ jump = none) :
      Pushed c jump s { s with
        received := s.received ++ [(s.playingPosition.blockId, buffers)]
        playingPosition := ⟨u32 (s.playingPosition.blockId + c.liveInterval), 0⟩
        played := s.played ++ [node] }
  | jumped (target : Nat) (buffers : List (Option LiveSubPieceBuffer)) (node : LiveBlockNode)
      (hNode : HasHeader c s.playingPosition.blockId node)
      (hLast : lastHanded c s.playingPosition = some (node.subpieces.length - 1))
      (hFrom : s.playingPosition.subPieceIndex ≤ node.subpieces.length - 1)
      (hPast : s.playingPosition.subPieceIndex ≠ 0) (hJump : jump = some target) :
      Pushed c jump s { LiveStream.place
        { s with received := s.received ++ [(s.playingPosition.blockId, buffers)] }
        (u32 (u32 target + c.liveInterval)) with byDriver := false }

theorem node_of_hasSubPiece {position : LivePosition} (h : c.hasSubPiece position = true) :
    ∃ node, c.node position.blockId = some node ∧
      position.subPieceIndex < node.subpieces.length := by
  unfold LiveCacheManager.hasSubPiece at h
  cases hNode : c.node position.blockId with
  | none =>
      rw [hNode] at h
      cases h
  | some node =>
      rw [hNode] at h
      refine ⟨node, rfl, ?_⟩
      by_contra hLe
      simp [LiveBlockNode.hasSubPiece, Nat.not_lt.mp hLe] at h

theorem complete_hasHeader (hSound : CacheSound D c) {blockId : Nat}
    (h : c.hasCompleteBlock blockId = true) : ∃ node, HasHeader c blockId node := by
  unfold LiveCacheManager.hasCompleteBlock at h
  cases hNode : c.node blockId with
  | none =>
      rw [hNode] at h
      cases h
  | some node =>
      rw [hNode] at h
      refine ⟨node, hSound.hasHeader hNode (isSome_of_isComplete h ?_)⟩
      obtain hHeadless | ⟨header, hChecked⟩ := (hSound blockId node hNode).1
      · simp [isComplete, hasHeaderSubPiece, hHeadless.header_eq] at h
      · have hBounds := subpieceCount_bounds hChecked.describes.1
        rw [getSubPiecesCount, hChecked.hasHeader, if_pos rfl, hChecked.length_eq]
        omega

/-- A complete block is handed over to its end. -/
theorem push_of_complete (hSound : CacheSound D c) (hHas : c.hasSubPiece s.playingPosition = true)
    (hComplete : c.hasCompleteBlock s.playingPosition.blockId = true) (jump : Option Nat) :
    ∃ s', pushDataToDownloaderDriver c jump s = some s' ∧ Pushed c jump s s' := by
  obtain ⟨node, hNode⟩ := complete_hasHeader hSound hComplete
  obtain ⟨other, hOther, hIndex⟩ := node_of_hasSubPiece hHas
  obtain rfl : other = node := Option.some.inj (hOther.symm.trans hNode.node_eq)
  have hTwo := hNode.two_le
  have hBound := hNode.le_bound
  have hLast : lastHanded c s.playingPosition = some (other.subpieces.length - 1) := by
    unfold lastHanded
    rw [hHas, hComplete, hNode.count_eq]
    rfl
  have hEnd : u16 (subU32 (c.getSubPiecesCount s.playingPosition.blockId) 1) =
      other.subpieces.length - 1 := by
    rw [hNode.count_eq, subU32_of_le (by omega) (by omega), u16_of_lt (by omega)]
  obtain ⟨buffers, hSend⟩ := sendSubPieces_eq (c := c) (s := s) jump
    (show 0 < other.subpieces.length - 1 by omega)
  have hTold := hNode.progress_iff (show 0 < other.subpieces.length - 1 by omega) (by omega) (by omega)
  unfold pushDataToDownloaderDriver
  simp only [hHas, Bool.not_true, Bool.false_eq_true, if_false, hComplete, if_true, hEnd, hSend,
    hNode.node_eq, Option.toList_some]
  by_cases hStay : s.playingPosition.subPieceIndex = 0 ∨ jump = none
  · have hCall : s.onRecvLivePiece jump s.playingPosition.blockId buffers
        (progressPercentage c s.playingPosition (other.subpieces.length - 1)) =
        ({ s with received := s.received ++ [(s.playingPosition.blockId, buffers)] }, false) := by
      obtain hZero | rfl := hStay
      · apply onRecvLivePiece_of_incomplete
        rw [ne_eq, hTold]
        exact fun hBoth => hBoth.2 hZero
      · rfl
    rw [hCall]
    exact ⟨_, rfl, Pushed.whole buffers other hNode hLast (by omega) hStay⟩
  · obtain ⟨hPast, hSome⟩ := not_or.mp hStay
    obtain ⟨target, rfl⟩ := Option.ne_none_iff_exists'.mp hSome
    have hCall : s.onRecvLivePiece (some target) s.playingPosition.blockId buffers
        (progressPercentage c s.playingPosition (other.subpieces.length - 1)) =
        (LiveStream.place
          { s with received := s.received ++ [(s.playingPosition.blockId, buffers)] }
          (u32 target), true) := by
      unfold LiveStream.onRecvLivePiece
      exact if_pos (hTold.mpr ⟨by omega, hPast⟩)
    rw [hCall]
    exact ⟨_, rfl, Pushed.jumped target buffers other hNode hLast (by omega) hPast rfl⟩

/-- The first gap of an incomplete block. -/
theorem gap_lt (hSound : CacheSound D c) {blockId : Nat} {node : LiveBlockNode}
    (hNode : c.node blockId = some node) (hGap : node.isComplete = false)
    (hPos : 0 < node.getNextMissingSubPiece) :
    HasHeader c blockId node ∧ node.getNextMissingSubPiece < node.subpieces.length := by
  have hFirst : (node.slot 0).isSome = true := by
    unfold LiveBlockNode.getNextMissingSubPiece at hPos
    cases hSlots : node.subpieces with
    | nil =>
        rw [hSlots, List.findIdx_nil, u16_of_lt (by decide)] at hPos
        exact absurd hPos (Nat.lt_irrefl 0)
    | cons first rest =>
        cases first with
        | none =>
            rw [hSlots, List.findIdx_cons] at hPos
            simp [u16] at hPos
        | some buffer => simp [slot, hSlots]
  have hHeader := hSound.hasHeader hNode hFirst
  refine ⟨hHeader, ?_⟩
  have hBound := hHeader.le_bound
  have hCount : node.hasHeaderSubPiece = true := by
    obtain hHeadless | ⟨header, hChecked⟩ := (hSound blockId node hNode).1
    · rw [hHeadless.first_eq] at hFirst
      cases hFirst
    · exact hChecked.hasHeader
  have hLt : (node.subpieces.findIdx fun slot => slot.isNone) < node.subpieces.length := by
    apply List.findIdx_lt_length.mpr
    unfold isComplete at hGap
    rw [hCount, Bool.not_true, if_neg Bool.false_ne_true, List.all_eq_false] at hGap
    obtain ⟨slot, hMem, hNone⟩ := hGap
    exact ⟨slot, hMem, by simpa using hNone⟩
  unfold LiveBlockNode.getNextMissingSubPiece
  rw [u16_of_lt (by omega)]
  exact hLt

/-- Of an incomplete block the pieces before its first gap are handed over. -/
theorem push_of_incomplete (hSound : CacheSound D c) (hHas : c.hasSubPiece s.playingPosition = true)
    (hComplete : c.hasCompleteBlock s.playingPosition.blockId = false)
    (hPush : pushDataToDownloaderDriver c jump s = some s') : Pushed c jump s s' := by
  obtain ⟨node, hNode, hIndex⟩ := node_of_hasSubPiece hHas
  have hGap : node.isComplete = false := by
    unfold LiveCacheManager.hasCompleteBlock at hComplete
    rwa [hNode] at hComplete
  obtain ⟨gap, hGapEq⟩ : ∃ gap, gap = node.getNextMissingSubPiece := ⟨_, rfl⟩
  have hLast : lastHanded c s.playingPosition =
      if s.playingPosition.subPieceIndex ≤ 16 * ((gap - 1) / 16) ∧ 0 < 16 * ((gap - 1) / 16) then
        some (16 * ((gap - 1) / 16))
      else none := by
    unfold lastHanded
    rw [hHas, hComplete, hNode, hGapEq]
    rfl
  have hMissing : c.getNextMissingSubPiece (c.blockNodes.keys.card + 1) s.playingPosition.blockId =
      some ⟨s.playingPosition.blockId, gap⟩ := by
    simp only [LiveCacheManager.getNextMissingSubPiece, hNode, hGap, Bool.not_false, if_true, hGapEq]
  unfold pushDataToDownloaderDriver at hPush
  simp only [hHas, Bool.not_true, Bool.false_eq_true, if_false, hComplete, hMissing, true_and] at hPush
  by_cases hAfter : s.playingPosition.subPieceIndex < gap
  case neg =>
    rw [if_neg hAfter] at hPush
    cases hPush
  rw [if_pos hAfter] at hPush
  obtain ⟨hHeader, hLt⟩ := gap_lt hSound hNode hGap (by omega)
  have hBound := hHeader.le_bound
  have hEnd : subU32 (getFirstSubPieceIndex (getPieceIndex gap)) 1 = 16 * ((gap - 1) / 16) := by
    rw [getPieceIndex_eq (by omega) (by omega), getFirstSubPieceIndex, subPiecesPerPiece,
      subU32_of_le (by omega) (by omega)]
    omega
  rw [hEnd, u16_of_lt (show 16 * ((gap - 1) / 16) < 2 ^ 16 by omega),
    u16_of_lt (show 16 * ((gap - 1) / 16) + 1 < 2 ^ 16 by omega)] at hPush
  by_cases hFrom : s.playingPosition.subPieceIndex ≤ 16 * ((gap - 1) / 16)
  case neg =>
    rw [if_neg hFrom] at hPush
    cases hPush
    apply Pushed.idle s.playingPosition.subPieceIndex
    rw [hLast, if_neg fun hBoth => hFrom hBoth.1]
  rw [if_pos hFrom] at hPush
  by_cases hZero : 0 < 16 * ((gap - 1) / 16)
  · obtain ⟨buffers, hSend⟩ := sendSubPieces_eq (c := c) (s := s) jump hZero
    have hTold := hHeader.progress_iff hZero hFrom (by omega)
    rw [hSend, onRecvLivePiece_of_incomplete _ _ _ _ (by rw [ne_eq, hTold]; omega)] at hPush
    cases hPush
    exact Pushed.part _ buffers node hHeader (hLast.trans (if_pos ⟨hFrom, hZero⟩)) hZero hFrom
      (by omega)
  · have hNothing : sendSubPieces c jump s (16 * ((gap - 1) / 16)) = (s, false) := by
      unfold sendSubPieces
      exact if_pos ⟨by omega, by omega⟩
    rw [hNothing] at hPush
    cases hPush
    apply Pushed.idle
    rw [hLast, if_neg fun hBoth => hZero hBoth.2]

theorem push_pushed (hSound : CacheSound D c)
    (hPush : pushDataToDownloaderDriver c jump s = some s') : Pushed c jump s s' := by
  cases hHas : c.hasSubPiece s.playingPosition with
  | false =>
      have hSame : s' = s := by
        unfold pushDataToDownloaderDriver at hPush
        simpa [hHas] using hPush.symm
      rw [hSame]
      apply Pushed.idle s.playingPosition.subPieceIndex
      unfold lastHanded
      rw [hHas]
      rfl
  | true =>
      cases hComplete : c.hasCompleteBlock s.playingPosition.blockId with
      | true =>
          obtain ⟨other, hSome, hPushed⟩ := push_of_complete hSound hHas hComplete jump
          obtain rfl := Option.some.inj (hSome.symm.trans hPush)
          exact hPushed
      | false => exact push_of_incomplete hSound hHas hComplete hPush

/-- The blocks of the calls since a stream was placed at `start`, and the block it plays
next: each is called for before the next one is played. -/
inductive InTurn (liveInterval start : Nat) : List Nat → Nat → Prop
  | place : InTurn liveInterval start [] start
  | call {blocks : List Nat} {blockId : Nat} (h : InTurn liveInterval start blocks blockId) :
      InTurn liveInterval start (blocks ++ [blockId]) blockId
  | next {blocks : List Nat} {blockId : Nat}
      (h : InTurn liveInterval start (blocks ++ [blockId]) blockId) :
      InTurn liveInterval start (blocks ++ [blockId]) (u32 (blockId + liveInterval))

/-- The calls since the stream was placed are in turn. -/
structure PlaysInTurn (c : LiveCacheManager) (s : LiveStream) : Prop where
  inTurn : InTurn c.liveInterval s.placedAt ((s.received.drop s.callsBefore).map Prod.fst)
    s.playingPosition.blockId
  callsBefore_le : s.callsBefore ≤ s.received.length

theorem playsInTurn_place (s : LiveStream) (blockId : Nat) : PlaysInTurn c (s.place blockId) where
  inTurn := by
    show InTurn c.liveInterval blockId ((s.received.drop s.received.length).map Prod.fst) blockId
    rw [List.drop_length]
    exact InTurn.place
  callsBefore_le := Nat.le_refl _

/-- A call of the block that is played. -/
theorem PlaysInTurn.call (h : PlaysInTurn c s) (buffers : List (Option LiveSubPieceBuffer)) :
    ((s.received ++ [(s.playingPosition.blockId, buffers)]).drop s.callsBefore).map Prod.fst =
      (s.received.drop s.callsBefore).map Prod.fst ++ [s.playingPosition.blockId] := by
  rw [List.drop_append_of_le_length h.callsBefore_le, List.map_append]
  rfl

theorem PlaysInTurn.push (h : PlaysInTurn c s) (hPushed : Pushed c jump s s') :
    PlaysInTurn c s' := by
  have hMore : ∀ buffers : List (Option LiveSubPieceBuffer), s.callsBefore ≤
      (s.received ++ [(s.playingPosition.blockId, buffers)]).length := by
    intro buffers
    rw [List.length_append]
    exact h.callsBefore_le.trans (Nat.le_add_right _ _)
  cases hPushed with
  | idle index hNone => exact ⟨h.inTurn, h.callsBefore_le⟩
  | part last buffers node hNode hLast hPos hFrom hPart =>
    refine ⟨?_, hMore buffers⟩
    rw [h.call buffers]
    exact h.inTurn.call
  | whole buffers node hNode hLast hFrom hStay =>
    refine ⟨?_, hMore buffers⟩
    rw [h.call buffers]
    exact h.inTurn.call.next
  | jumped target buffers node hNode hLast hFrom hPast hJump =>
    exact { playsInTurn_place _ _ with }

/-- What is promised of a push: 100 is reported exactly with the last subpiece of the block,
and a driver that jumps then leaves the stream at the block it jumped to. -/
def RightPush (c : LiveCacheManager) (s : LiveStream) (jump : Option Nat) : Prop :=
  (∀ last, lastHanded c s.playingPosition = some last →
    (progressPercentage c s.playingPosition last = 100 ↔
      last + 1 = c.getSubPiecesCount s.playingPosition.blockId)) ∧
  ∀ last target s', lastHanded c s.playingPosition = some last →
    progressPercentage c s.playingPosition last = 100 → jump = some target →
      pushDataToDownloaderDriver c jump s = some s' →
        s'.playingPosition = ⟨u32 target, 0⟩ ∧ s'.placedAt = u32 target

/-- The end of a block is not sent together with its beginning, and no driver jumps when
it is told of it. -/
def EndsApart (c : LiveCacheManager) (s : LiveStream) (jump : Option Nat) : Prop :=
  ∀ last, lastHanded c s.playingPosition = some last →
    last + 1 = c.getSubPiecesCount s.playingPosition.blockId →
      s.playingPosition.subPieceIndex ≠ 0 ∧ jump = none

theorem lastHanded_spec (hSound : CacheSound D c) {position : LivePosition} {last : Nat}
    (h : lastHanded c position = some last) : ∃ node, HasHeader c position.blockId node ∧
      0 < last ∧ position.subPieceIndex ≤ last ∧ last < node.subpieces.length ∧
      (last + 1 = node.subpieces.length →
        c.hasSubPiece position = true ∧ c.hasCompleteBlock position.blockId = true) := by
  unfold lastHanded at h
  cases hHas : c.hasSubPiece position with
  | false => simp [hHas] at h
  | true =>
      obtain ⟨node, hNode, hIndex⟩ := node_of_hasSubPiece hHas
      rw [hHas, Bool.not_true, if_neg Bool.false_ne_true] at h
      cases hComplete : c.hasCompleteBlock position.blockId with
      | true =>
          obtain ⟨other, hHeader⟩ := complete_hasHeader hSound hComplete
          obtain rfl : node = other := Option.some.inj (hNode.symm.trans hHeader.node_eq)
          have hTwo := hHeader.two_le
          rw [hComplete, if_pos rfl, hHeader.count_eq, Option.some.injEq] at h
          exact ⟨node, hHeader, by omega, by omega, by omega, fun _ => ⟨rfl, rfl⟩⟩
      | false =>
          have hGap : node.isComplete = false := by
            unfold LiveCacheManager.hasCompleteBlock at hComplete
            rwa [hNode] at hComplete
          rw [hComplete, if_neg Bool.false_ne_true, hNode] at h
          obtain ⟨⟨hFrom, hPos⟩, hSome⟩ := Option.ite_none_right_eq_some.mp h
          obtain ⟨hHeader, hLt⟩ := gap_lt hSound hNode hGap (by omega)
          cases hSome
          exact ⟨node, hHeader, hPos, hFrom, by omega, by omega⟩

theorem u32_add_ne (a : Nat) {k : Nat} (hPos : 0 < k) (hLt : k < 2 ^ 32) :
    u32 (u32 a + k) ≠ u32 a := by
  unfold u32
  omega

/-- A push is right exactly if the end of the block does not come with its beginning, and
the driver does not jump at it: then `PushDataToDownloaderDriver` moves the stream on
from the block that the driver jumped to. -/
theorem rightPush_iff (hSound : CacheSound D c) (hInterval : c.liveInterval < 2 ^ 32) :
    RightPush c s jump ↔ EndsApart c s jump := by
  constructor
  · rintro ⟨hProgress, hJump⟩ last hLast hEnd
    obtain ⟨node, hHeader, hPos, hFrom, hLt, hWhole⟩ := lastHanded_spec hSound hLast
    have hTold := (hProgress last hLast).mpr hEnd
    have hPast := ((hHeader.progress_iff hPos hFrom hLt).mp hTold).2
    refine ⟨hPast, ?_⟩
    cases hTarget : jump with
    | none => rfl
    | some target =>
        rw [hHeader.count_eq] at hEnd
        obtain ⟨hHas, hComplete⟩ := hWhole hEnd
        obtain ⟨s', hPush, hPushed⟩ := push_of_complete (s := s) hSound hHas hComplete jump
        have hPlaced := (hJump last target s' hLast hTold hTarget hPush).2
        cases hPushed with
        | idle index hNone => exact absurd (hLast.symm.trans hNone) (by simp)
        | part other buffers node' hNode hOther hOtherPos hOtherFrom hPart =>
            obtain rfl : node = node' :=
              Option.some.inj (hHeader.node_eq.symm.trans hNode.node_eq)
            have hSame := Option.some.inj (hLast.symm.trans hOther)
            omega
        | whole buffers node' hNode hOther hFrom' hStay =>
            obtain hZero | hNone := hStay
            · exact absurd hZero hPast
            · exact absurd (hTarget.symm.trans hNone) (by simp)
        | jumped target' buffers node' hNode hOther hFrom' hPast' hJump' =>
            obtain rfl := Option.some.inj (hTarget.symm.trans hJump')
            exact absurd hPlaced (u32_add_ne target c.liveInterval_pos hInterval)
  · intro hApart
    constructor
    · intro last hLast
      obtain ⟨node, hHeader, hPos, hFrom, hLt, -⟩ := lastHanded_spec hSound hLast
      rw [hHeader.progress_iff hPos hFrom hLt, hHeader.count_eq]
      constructor
      · exact And.left
      · intro hEnd
        exact ⟨hEnd, (hApart last hLast (hEnd.trans hHeader.count_eq.symm)).1⟩
    · intro last target s' hLast hTold hTarget _
      obtain ⟨node, hHeader, hPos, hFrom, hLt, -⟩ := lastHanded_spec hSound hLast
      have hEnd := ((hHeader.progress_iff hPos hFrom hLt).mp hTold).1
      have hNone := (hApart last hLast (hEnd.trans hHeader.count_eq.symm)).2
      exact absurd (hTarget.symm.trans hNone) (by simp)

namespace LiveInstance

/-- What holds in every state of a run, whatever is evicted. -/
structure TurnsKept (D : Digests) (x : LiveInstance) : Prop where
  sound : CacheSound D x.cacheManager
  inTurn : ∀ s ∈ x.liveStreams, PlaysInTurn x.cacheManager s

theorem mem_of_mapM {α β : Type} {f : α → Option β} {l : List α} {l' : List β}
    (h : l.mapM f = some l') {b : β} (hMem : b ∈ l') : ∃ a ∈ l, f a = some b := by
  induction l generalizing l' with
  | nil =>
      cases h
      cases hMem
  | cons first rest ih =>
      rw [List.mapM_cons] at h
      obtain ⟨b', hFirst, h⟩ := Option.bind_eq_some_iff.mp h
      obtain ⟨rest', hRest, h⟩ := Option.bind_eq_some_iff.mp h
      cases h
      obtain rfl | hMem := List.mem_cons.mp hMem
      · exact ⟨first, List.mem_cons_self, hFirst⟩
      · obtain ⟨a, hA, hEq⟩ := ih hRest hMem
        exact ⟨a, List.mem_cons_of_mem _ hA, hEq⟩

theorem TurnsKept.push {x y : LiveInstance} (h : TurnsKept D x) {jumps : Nat → Option Nat}
    (hPush : x.pushDataToDownloaderDrivers jumps = some y) : TurnsKept D y := by
  obtain ⟨streams, hStreams, rfl⟩ := Option.map_eq_some_iff.mp hPush
  refine ⟨h.sound, fun s' hMem => ?_⟩
  obtain ⟨s, hOld, hOne⟩ := mem_of_mapM hStreams hMem
  exact (h.inTurn s hOld).push (push_pushed h.sound hOne)

theorem TurnsKept.next {x y : LiveInstance} (h : TurnsKept D x) {a : LiveAction}
    (hStep : Step D x a y) : TurnsKept D y := by
  unfold Step at hStep
  cases a with
  | addSubPiece jumps subpiece buffer =>
    have hAdded : TurnsKept D
        { x with cacheManager := (x.cacheManager.addSubPiece D subpiece buffer).1 } :=
      ⟨h.sound.addSubPiece subpiece buffer, fun s hMem =>
        ⟨(h.inTurn s hMem).inTurn, (h.inTurn s hMem).callsBefore_le⟩⟩
    unfold LiveInstance.next LiveInstance.addSubPiece at hStep
    dsimp only at hStep
    split at hStep
    · cases hStep
      exact hAdded
    · exact hAdded.push hStep
  | playTimer jumps => exact h.push hStep
  | attachStream id start blockId =>
    cases hStep
    refine ⟨h.sound, fun s hMem => ?_⟩
    obtain hOld | hNew := List.mem_append.mp hMem
    · exact h.inTurn s hOld
    · obtain rfl := List.mem_singleton.mp hNew
      exact playsInTurn_place ⟨id, ⟨start, 0⟩, ⟨start, 0⟩, [], 0, true, 0, []⟩ (u32 blockId)
  | detachStream id =>
    cases hStep
    exact ⟨h.sound, fun s hMem => h.inTurn s (List.mem_filter.mp hMem).1⟩
  | jumpTo id target =>
    cases hStep
    refine ⟨h.sound, fun s hMem => ?_⟩
    obtain ⟨s', hOld, rfl⟩ := List.mem_map.mp hMem
    split
    · exact playsInTurn_place s' (u32 target)
    · exact h.inTurn s' hOld
  | removeBlock blockId =>
    cases hStep
    exact ⟨h.sound.removeBlock blockId, fun s hMem =>
      ⟨(h.inTurn s hMem).inTurn, (h.inTurn s hMem).callsBefore_le⟩⟩

theorem liveInterval_next {x y : LiveInstance} {a : LiveAction} (hStep : Step D x a y) :
    y.cacheManager.liveInterval = x.cacheManager.liveInterval := by
  unfold Step at hStep
  cases a with
  | addSubPiece jumps subpiece buffer =>
    unfold LiveInstance.next LiveInstance.addSubPiece at hStep
    dsimp only at hStep
    split at hStep
    · cases hStep
      rfl
    · obtain ⟨streams, -, rfl⟩ := Option.map_eq_some_iff.mp hStep
      rfl
  | playTimer jumps =>
    obtain ⟨streams, -, rfl⟩ := Option.map_eq_some_iff.mp hStep
    rfl
  | attachStream id start blockId =>
    cases hStep
    rfl
  | detachStream id =>
    cases hStep
    rfl
  | jumpTo id target =>
    cases hStep
    rfl
  | removeBlock blockId =>
    cases hStep
    rfl

/-- The caches with which an action may push from a state. -/
def PushCache (D : Digests) (x : LiveInstance) (c : LiveCacheManager) : Prop :=
  c = x.cacheManager ∨ ∃ subpiece buffer, c = (x.cacheManager.addSubPiece D subpiece buffer).1

/-- In every state of every run: the calls of a stream since it was placed are in turn, a
push is right exactly if the end of the block comes apart, and a jump of the timer places
the stream at its target. -/
theorem progress_of_run (hInterval : liveInterval < 2 ^ 32)
    (run : Reaches (Step D) (fun _ _ => True) (create rid liveInterval) x) :
    (∀ s ∈ x.liveStreams, PlaysInTurn x.cacheManager s) ∧
    (∀ s ∈ x.liveStreams, ∀ c, PushCache D x c → ∀ jump,
      (RightPush c s jump ↔ EndsApart c s jump)) ∧
    ∀ id target y, Step D x (.jumpTo id target) y → ∀ s ∈ y.liveStreams, s.id = id →
      s.playingPosition = ⟨u32 target, 0⟩ ∧ s.placedAt = u32 target ∨
        s ∈ x.liveStreams ∧ s.playingPosition.subPieceIndex ≠ 0 := by
  have hKept : TurnsKept D x ∧ x.cacheManager.liveInterval < 2 ^ 32 := by
    apply run.invariant (P := fun x => TurnsKept D x ∧ x.cacheManager.liveInterval < 2 ^ 32)
    · refine ⟨⟨(create_inOrder D rid liveInterval).sound, nofun⟩, ?_⟩
      show (if liveInterval = 0 then 1 else liveInterval) < 2 ^ 32
      split <;> omega
    · rintro before a after ⟨hBefore, hLt⟩ - hStep
      exact ⟨hBefore.next hStep, by rwa [liveInterval_next hStep]⟩
  obtain ⟨⟨hSound, hTurns⟩, hLt⟩ := hKept
  refine ⟨hTurns, ?_, ?_⟩
  · rintro s - c (rfl | ⟨subpiece, buffer, rfl⟩) jump
    · exact rightPush_iff hSound hLt
    · exact rightPush_iff (hSound.addSubPiece subpiece buffer) hLt
  · intro id target y hStep s hMem hId
    cases hStep
    obtain ⟨s', hOld, rfl⟩ := List.mem_map.mp hMem
    by_cases hAt : s'.id = id ∧ s'.playingPosition.subPieceIndex = 0
    · rw [if_pos hAt]
      exact Or.inl ⟨rfl, rfl⟩
    · rw [if_neg hAt] at hId ⊢
      exact Or.inr ⟨hOld, fun hZero => hAt ⟨hId, hZero⟩⟩

section Samples

/-- The header arrives first, then the only subpiece: it is sent apart and reported as 100. -/
theorem progress_of_headerFirst : ∃ x : LiveInstance,
    ((∀ s ∈ x.liveStreams, PlaysInTurn x.cacheManager s) ∧
      (∀ s ∈ x.liveStreams, ∀ c, PushCache constantDigests x c → ∀ jump,
        (RightPush c s jump ↔ EndsApart c s jump)) ∧
      ∀ id target y, Step constantDigests x (.jumpTo id target) y → ∀ s ∈ y.liveStreams, s.id = id →
        s.playingPosition = ⟨u32 target, 0⟩ ∧ s.placedAt = u32 target ∨
          s ∈ x.liveStreams ∧ s.playingPosition.subPieceIndex ≠ 0) ∧
    x.liveStreams.map (·.playingPosition) = [⟨0, 1⟩] := by
  obtain ⟨x, run, hTest⟩ := Reaches.exists_of_checked (next constantDigests) (fun _ _ => true)
    (create Guid.zero 10)
    [.attachStream 0 0 0, .addSubPiece (fun _ => none) ⟨0, 0⟩ (some (headerOf 0))]
    (fun x => decide (x.liveStreams.map (·.playingPosition) = [⟨0, 1⟩])) (by decide +kernel)
  exact ⟨x, progress_of_run (by decide) (run.mono fun _ _ _ => trivial), of_decide_eq_true hTest⟩

/-- A block of two subpieces that is sent in one call is reported as 50; and when the driver
jumps to block 20 on the report of 100, the stream goes on at block 30. -/
theorem progress_fails :
    (∃ x s, Reaches (Step constantDigests) (fun _ _ => True) (create Guid.zero 10) x ∧
      s ∈ x.liveStreams ∧ lastHanded x.cacheManager s.playingPosition = some 1 ∧
        x.cacheManager.getSubPiecesCount s.playingPosition.blockId = 2 ∧
          progressPercentage x.cacheManager s.playingPosition 1 = 50) ∧
    (∃ x c s, Reaches (Step constantDigests) (fun _ _ => True) (create Guid.zero 10) x ∧
      s ∈ x.liveStreams ∧ PushCache constantDigests x c ∧
        lastHanded c s.playingPosition = some 1 ∧
          progressPercentage c s.playingPosition 1 = 100 ∧
            (pushDataToDownloaderDriver c (some 20) s).map (·.playingPosition) =
              some ⟨30, 0⟩) := by
  constructor
  · obtain ⟨x, run, hTest⟩ := Reaches.exists_of_checked (next constantDigests) (fun _ _ => true)
      (create Guid.zero 10) (blockArrives 0 1 ++ [.attachStream 0 0 0])
      (fun x => x.liveStreams.any fun s => decide
        (lastHanded x.cacheManager s.playingPosition = some 1 ∧
          x.cacheManager.getSubPiecesCount s.playingPosition.blockId = 2 ∧
            progressPercentage x.cacheManager s.playingPosition 1 = 50)) (by decide +kernel)
    obtain ⟨s, hMem, hFound⟩ := List.any_eq_true.mp hTest
    exact ⟨x, s, run.mono fun _ _ _ => trivial, hMem, of_decide_eq_true hFound⟩
  · obtain ⟨x, run, hTest⟩ := Reaches.exists_of_checked (next constantDigests) (fun _ _ => true)
      (create Guid.zero 10)
      [.attachStream 0 0 0, .addSubPiece (fun _ => none) ⟨0, 0⟩ (some (headerOf 0))]
      (fun x => x.liveStreams.any fun s =>
        let c := (x.cacheManager.addSubPiece constantDigests ⟨0, 1⟩ (some (byteOf 1))).1
        decide (lastHanded c s.playingPosition = some 1 ∧
          progressPercentage c s.playingPosition 1 = 100 ∧
            (pushDataToDownloaderDriver c (some 20) s).map (·.playingPosition) = some ⟨30, 0⟩))
      (by decide +kernel)
    obtain ⟨s, hMem, hFound⟩ := List.any_eq_true.mp hTest
    exact ⟨x, _, s, run.mono fun _ _ _ => trivial, hMem, Or.inr ⟨⟨0, 1⟩, some (byteOf 1), rfl⟩,
      of_decide_eq_true hFound⟩

end Samples

end LiveInstance

end Live
