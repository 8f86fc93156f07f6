import Peer.Live.BlockArrivals

/-! Runs of `AddSubPiece` on a live block. The packets gathered before the header are
settled when it arrives, with the result that any later arrival of them would have had. -/
namespace Live

open Basis Storage HeaderSubPiece

namespace LiveBlockNode

variable {D : Digests} {node node' : LiveBlockNode} {header : HeaderSubPiece}
  {buffer : Option LiveSubPieceBuffer} {i p : Nat}

/-- The block is the same, and so is its subpiece 0. -/
def SameBlock (node node' : LiveBlockNode) : Prop :=
  node'.blockId = node.blockId ∧ node'.rid = node.rid ∧ node'.slot 0 = node.slot 0

section Headless

theorem create_headless (blockId : Nat) (rid : Guid) : Headless (create blockId rid) :=
  ⟨rfl, rfl, rfl, rfl, rfl⟩

/-- Before the header a packet is kept if it is the first one for its index. -/
theorem Headless.add (h : Headless node) (hPos : 0 < i) (buffer : Option LiveSubPieceBuffer) :
    (node.addSubPiece D i buffer).1 =
        { node with subpieces := (node.addSubPiece D i buffer).1.subpieces } ∧
      (node.addSubPiece D i buffer).1.slot =
        if (node.slot i).isSome then node.slot else put node.slot i buffer := by
  have hHas : node.hasHeaderSubPiece = false := by simp [hasHeaderSubPiece, h.header_eq]
  by_cases hSome : (node.slot i).isSome = true
  · unfold addSubPiece
    rw [if_pos (by simp [hSome, lt_of_slot hSome]), if_pos hSome]
    exact ⟨rfl, rfl⟩
  · have hNone : node.slot i = none := by simpa using hSome
    have hAdd : (node.addSubPiece D i buffer).1 = { node with
        subpieces := (if node.subpieces.length ≤ i then resize node.subpieces (i + 1)
          else node.subpieces).set i buffer } := by
      unfold addSubPiece
      rw [if_neg (by simp [hNone]), if_neg (by simp [hHas])]
      simp only [Nat.ne_of_gt hPos, if_false, dropDataIfNecessary]
      exact if_neg (by simp [hasHeaderSubPiece, h.header_eq])
    rw [hAdd, if_neg hSome]
    refine ⟨rfl, ?_⟩
    funext j
    unfold put
    split
    · rename_i hLe
      change ((resize node.subpieces (i + 1)).set i buffer).getD j none = _
      rw [set_getD _ i j buffer (by simp), resize_getD]
      split
      · rfl
      · split
        · rfl
        · exact (slot_of_le (by omega)).symm
    · rename_i hLt
      exact set_getD node.subpieces i j buffer (Nat.not_le.mp hLt)

theorem Headless.of_add (h : Headless node) (hPos : 0 < i) :
    Headless (node.addSubPiece D i buffer).1 := by
  obtain ⟨hRest, hSlot⟩ := h.add (D := D) hPos buffer
  refine ⟨?_, ?_, ?_, ?_, ?_⟩
  · rw [hRest]
    exact h.header_eq
  · rw [hRest]
    exact h.flag_eq
  · rw [hRest]
    exact h.validated_eq
  · rw [hRest]
    exact h.failed_eq
  · rw [hSlot]
    split
    · exact h.first_eq
    · exact (put_of_ne (Nat.ne_of_lt hPos)).trans h.first_eq

/-- The node with subpiece 0 in its slot, before the header is looked at. -/
def withFirst (node : LiveBlockNode) (buffer : Option LiveSubPieceBuffer) : LiveBlockNode :=
  { node with subpieces :=
      (if node.subpieces.length ≤ 0 then resize node.subpieces 1 else node.subpieces).set 0 buffer }

theorem withFirst_slot (node : LiveBlockNode) (buffer : Option LiveSubPieceBuffer) :
    (node.withFirst buffer).slot = put node.slot 0 buffer := by
  funext j
  unfold put
  by_cases hLe : node.subpieces.length ≤ 0
  · have hNil : node.subpieces = [] := List.length_eq_zero_iff.mp (by omega)
    change ((if node.subpieces.length ≤ 0 then _ else _ : List _).set 0 buffer).getD j none = _
    rw [if_pos hLe, set_getD _ 0 j buffer (by simp), resize_getD, hNil]
    by_cases hj : j = 0
    · rw [if_pos hj, if_pos hj]
    · rw [if_neg hj, if_neg hj, slot_of_le (by rw [hNil]; exact Nat.zero_le _)]
      split <;> rfl
  · change ((if node.subpieces.length ≤ 0 then _ else _ : List _).set 0 buffer).getD j none = _
    rw [if_neg hLe]
    exact set_getD node.subpieces 0 j buffer (Nat.not_le.mp hLe)

theorem Headless.addSubPiece_zero (h : Headless node) :
    (node.addSubPiece D 0 buffer).1 =
      ((node.withFirst buffer).checkHeadSubPiece D).dropDataIfNecessary D 0 := by
  have hHas : node.hasHeaderSubPiece = false := by simp [hasHeaderSubPiece, h.header_eq]
  unfold addSubPiece
  rw [if_neg (by simp [h.first_eq]), if_neg (by simp [hHas])]
  rfl

theorem isHeaderValid_of_header (hFlag : node.blockHeaderValidated = false) :
    isHeaderValid D { node with headerSubpiece := some header } =
      ({ node with
        headerSubpiece := some header
        blockHeaderValidated := decide (Describes D node header) },
        decide (Describes D node header)) := by
  have hValid : (header.isValid D && node.blockId == header.blockId && node.rid.bytes == header.rid) =
      decide (Describes D node header) := by
    rw [Bool.eq_iff_iff, decide_eq_true_iff]
    simp [Describes, and_assoc]
  unfold isHeaderValid
  simp only [hFlag, Bool.false_eq_true, if_false, hValid]

/-- A subpiece 0 that is not a header is dropped at once. -/
theorem Headless.notHeader (h : Headless node)
    (hNot : ∀ arrived, buffer = some arrived → ¬ HeaderBuffer D node arrived) :
    (node.withFirst buffer).checkHeadSubPiece D = (node.withFirst buffer).dropSubPiece 0 := by
  have hFirst : (node.withFirst buffer).slot 0 = buffer := by
    rw [withFirst_slot]
    exact if_pos rfl
  unfold checkHeadSubPiece
  rw [hFirst]
  cases buffer with
  | none => rfl
  | some arrived =>
      dsimp only
      split
      · rfl
      · rename_i hLength
        have hBad : ¬ Describes D (node.withFirst (some arrived)) (load arrived.data) :=
          fun hGood => hNot arrived rfl ⟨not_not.mp hLength, hGood⟩
        rw [isHeaderValid_of_header
          (show (node.withFirst (some arrived)).blockHeaderValidated = false from h.flag_eq)]
        simp only [hBad, decide_false, Bool.not_false, if_true]
        congr 1
        simp only [withFirst, h.header_eq, h.flag_eq]

theorem Headless.of_notHeader (h : Headless node)
    (hNot : ∀ arrived, buffer = some arrived → ¬ HeaderBuffer D node arrived) :
    Headless (node.addSubPiece D 0 buffer).1 ∧
      (node.addSubPiece D 0 buffer).1 =
        { node with subpieces := (node.addSubPiece D 0 buffer).1.subpieces } ∧
      (node.addSubPiece D 0 buffer).1.slot = node.slot := by
  have hRest := (dropSubPiece_slotsOnly (node.withFirst buffer) 0).rest_eq
  have hAdd : (node.addSubPiece D 0 buffer).1 = (node.withFirst buffer).dropSubPiece 0 := by
    rw [h.addSubPiece_zero, h.notHeader hNot]
    have hHas : hasHeaderSubPiece ((node.withFirst buffer).dropSubPiece 0) = false := by
      rw [hRest]
      simp [hasHeaderSubPiece, withFirst, h.header_eq]
    unfold dropDataIfNecessary
    rw [if_pos rfl, hHas]
    rfl
  have hSlot : ((node.withFirst buffer).dropSubPiece 0).slot = node.slot := by
    funext j
    rw [dropSubPiece_slot, withFirst_slot]
    by_cases hj : j = 0
    · rw [if_pos hj, hj, h.first_eq]
    · rw [if_neg hj]
      exact put_of_ne hj
  rw [hAdd]
  refine ⟨⟨?_, ?_, ?_, ?_, ?_⟩, hRest, hSlot⟩
  · rw [hRest]
    exact h.header_eq
  · rw [hRest]
    exact h.flag_eq
  · rw [hRest]
    exact h.validated_eq
  · rw [hRest]
    exact h.failed_eq
  · rw [hSlot]
    exact h.first_eq

/-- The node right after its header was found valid, before any piece is checked. -/
theorem Headless.unchecked (h : Headless node) {arrived : LiveSubPieceBuffer}
    (hHeader : HeaderBuffer D node arrived) :
    Settles D (load arrived.data) node.slot 0
        ((node.withFirst (some arrived)).checkHeadSubPiece D) ∧
      SameBlock (node.withFirst (some arrived))
        ((node.withFirst (some arrived)).checkHeadSubPiece D) := by
  obtain ⟨hLength, hDescribes⟩ := hHeader
  have hFirst : (node.withFirst (some arrived)).slot 0 = some arrived := by
    rw [withFirst_slot]
    exact if_pos rfl
  have hBounds := subpieceCount_bounds hDescribes.1
  have hCount : u16 (1 + u32 ((load arrived.data).dataLength + liveSubPieceSize - 1) /
      liveSubPieceSize) = subpieceCount (load arrived.data) := by
    unfold subpieceCount at hBounds ⊢
    have hSize : liveSubPieceSize = 1400 := rfl
    rw [hSize, u32_of_lt (by omega), u16_of_lt (by omega)]
    omega
  have hGood : Describes D (node.withFirst (some arrived)) (load arrived.data) := hDescribes
  have hCheck : (node.withFirst (some arrived)).checkHeadSubPiece D =
      { node.withFirst (some arrived) with
        headerSubpiece := some (load arrived.data)
        blockHeaderValidated := true
        subpieces := resize (node.withFirst (some arrived)).subpieces
          (subpieceCount (load arrived.data)) } := by
    unfold checkHeadSubPiece
    rw [hFirst]
    dsimp only
    rw [if_neg (not_not.mpr hLength),
      isHeaderValid_of_header
        (show (node.withFirst (some arrived)).blockHeaderValidated = false from h.flag_eq)]
    simp only [hGood, decide_true, Bool.not_true, Bool.false_eq_true, if_false, hCount]
  have hSlot : ∀ j, ((node.withFirst (some arrived)).checkHeadSubPiece D).slot j =
      if j < subpieceCount (load arrived.data) then put node.slot 0 (some arrived) j else none := by
    intro j
    rw [hCheck, ← withFirst_slot]
    exact resize_getD _ _ j
  refine ⟨?_, by rw [hCheck], by rw [hCheck], ?_⟩
  swap
  · rw [hSlot, if_pos (by omega), withFirst_slot]
  refine { header_eq := by rw [hCheck], flag_eq := by rw [hCheck], describes := ?_, buffer := ?_,
           length_eq := ?_, mem_iff := fun p => ?_, good := fun p hMem => ?_,
           slot_of_bad := fun p j hp => absurd hp (Nat.not_lt_zero p),
           slot_of_not_bad := fun p j hIn _ hLt => ?_, failed_eq := ?_ }
  · rw [hCheck]
    exact hDescribes
  · refine ⟨arrived, ?_, hLength, rfl⟩
    rw [hSlot, if_pos (by omega)]
    exact if_pos rfl
  · rw [hCheck]
    exact resize_length _ _
  · have hNone : ((node.withFirst (some arrived)).checkHeadSubPiece D).validatedPieces = ∅ := by
      rw [hCheck]
      exact h.validated_eq
    rw [hNone]
    simp
  · have hNone : ((node.withFirst (some arrived)).checkHeadSubPiece D).validatedPieces = ∅ := by
      rw [hCheck]
      exact h.validated_eq
    rw [hNone] at hMem
    cases hMem
  · rw [hSlot, if_pos hLt]
    apply put_of_ne
    have hLow := hIn.1
    omega
  · rw [hCheck]
    change node.checksumFailedTimes = _
    rw [h.failed_eq]
    simp [failures, u32]

theorem PieceChecked.sameBlock (h : PieceChecked D header p node node') : SameBlock node node' := by
  cases h with
  | untouched => exact ⟨rfl, rfl, rfl⟩
  | validated => exact ⟨rfl, rfl, rfl⟩
  | dropped _ _ _ _ hRest hSlot =>
      refine ⟨by rw [hRest.rest_eq], by rw [hRest.rest_eq], ?_⟩
      rw [hSlot, if_neg (by unfold InPiece; omega)]

theorem Added.sameBlock (hPos : 0 < i) (h : Added D header i buffer node node') :
    SameBlock node node' := by
  cases h with
  | ignored => exact ⟨rfl, rfl, rfl⟩
  | stored hLt => exact ⟨rfl, rfl, (congrFun (slot_set hLt) 0).trans (put_of_ne (by omega))⟩
  | completed hLt => exact ⟨rfl, rfl, (congrFun (slot_set hLt) 0).trans (put_of_ne (by omega))⟩
  | rejected _ _ _ _ _ hRest hSlot =>
      refine ⟨by rw [hRest.rest_eq], by rw [hRest.rest_eq], ?_⟩
      rw [hSlot, if_neg (by unfold InPiece; omega)]

/-- The loop over the pieces when the header arrives. -/
theorem Settles.loop {slots : Slots} (h : Settles D header slots 0 node) {rounds : Nat}
    (hRounds : rounds ≤ pieceCount header) :
    Settles D header slots rounds ((List.range rounds).foldl (dropPieceIfInvalid D) node) ∧
      SameBlock node ((List.range rounds).foldl (dropPieceIfInvalid D) node) := by
  induction rounds with
  | zero => exact ⟨h, rfl, rfl, rfl⟩
  | succ rounds ih =>
      obtain ⟨hSettles, hSame⟩ := ih (by omega)
      rw [List.range_succ, List.foldl_append]
      have hMax : rounds < maximumPiecesPerBlock :=
        (Nat.lt_of_succ_le hRounds).trans_le (pieceCount_le h.describes.1)
      have hChecked := (dropPieceIfInvalid_checked (D := D) hSettles.header_eq hSettles.flag_eq
        hMax).sameBlock
      exact ⟨hSettles.next (Nat.lt_of_succ_le hRounds), hChecked.1.trans hSame.1,
        hChecked.2.1.trans hSame.2.1, hChecked.2.2.trans hSame.2.2⟩

theorem Settles.dropData {slots : Slots} (h : Settles D header slots 0 node) :
    node.dropDataIfNecessary D 0 =
      (List.range (pieceCount header)).foldl (dropPieceIfInvalid D) node := by
  have hBounds := subpieceCount_bounds h.describes.1
  have hCount : u16 (getPieceIndex (subU32 node.getSubPiecesCount 1) + 1) = pieceCount header := by
    have hSize : node.getSubPiecesCount = subpieceCount header := by
      rw [getSubPiecesCount, h.hasHeader, if_pos rfl, h.length_eq]
    rw [hSize, subU32_of_le (by omega) (by omega), getPieceIndex_eq (by omega) (by omega),
      u16_of_lt (by omega), pieceCount]
    omega
  unfold dropDataIfNecessary
  rw [if_pos rfl, h.hasHeader, if_pos rfl, h.isHeaderValid_eq]
  simp only [if_true, hCount]

/-- A valid header settles what was gathered before it. -/
theorem Headless.settles (h : Headless node) {arrived : LiveSubPieceBuffer}
    (hHeader : HeaderBuffer D node arrived) :
    Settles D (load arrived.data) node.slot (pieceCount (load arrived.data))
        (node.addSubPiece D 0 (some arrived)).1 ∧
      (node.addSubPiece D 0 (some arrived)).1.blockId = node.blockId ∧
      (node.addSubPiece D 0 (some arrived)).1.rid = node.rid ∧
      (node.addSubPiece D 0 (some arrived)).1.slot 0 = some arrived := by
  obtain ⟨hUnchecked, hCheckId, hCheckRid, hCheckFirst⟩ := h.unchecked hHeader
  obtain ⟨hSettles, hId, hRid, hFirst⟩ := hUnchecked.loop (Nat.le_refl _)
  rw [h.addSubPiece_zero, hUnchecked.dropData]
  refine ⟨hSettles, hId.trans hCheckId, hRid.trans hCheckRid, ?_⟩
  rw [hFirst, hCheckFirst, withFirst_slot]
  exact if_pos rfl

end Headless

section Runs

/-- The arguments of one call of `AddSubPiece`. -/
structure Packet where
  index : Nat
  index_lt : index < 2 ^ 16
  buffer : Option LiveSubPieceBuffer

/-- The node after calls of `AddSubPiece`. -/
def receive (D : Digests) (node : LiveBlockNode) (packets : List Packet) : LiveBlockNode :=
  packets.foldl (fun node packet => (node.addSubPiece D packet.index packet.buffer).1) node

/-- Nothing was checked yet, or everything that is complete was. -/
def Sound (D : Digests) (node : LiveBlockNode) : Prop :=
  Headless node ∨ ∃ header, CheckedUpTo D header (pieceCount header) node

/-- Subpiece 0 of a node with a header is there, so that no other is taken. -/
theorem CheckedUpTo.addSubPiece_zero {limit : Nat} (h : CheckedUpTo D header limit node) :
    (node.addSubPiece D 0 buffer).1 = node := by
  obtain ⟨arrived, hFirst, -⟩ := h.buffer
  have hSome : (node.slot 0).isSome = true := by simp [hFirst]
  unfold addSubPiece
  rw [if_pos (by simp [hSome, lt_of_slot hSome])]

theorem Sound.add (h : Sound D node) (i : Nat) (buffer : Option LiveSubPieceBuffer) :
    Sound D (node.addSubPiece D i buffer).1 ∧
      (node.addSubPiece D i buffer).1.blockId = node.blockId ∧
      (node.addSubPiece D i buffer).1.rid = node.rid := by
  rcases h with hHeadless | ⟨header, hChecked⟩
  · by_cases hPos : 0 < i
    · obtain ⟨hRest, -⟩ := hHeadless.add (D := D) hPos buffer
      exact ⟨Or.inl (hHeadless.of_add hPos), by rw [hRest], by rw [hRest]⟩
    · obtain rfl : i = 0 := by omega
      by_cases hNot : ∀ arrived, buffer = some arrived → ¬ HeaderBuffer D node arrived
      · obtain ⟨hNext, hRest, -⟩ := hHeadless.of_notHeader hNot
        exact ⟨Or.inl hNext, by rw [hRest], by rw [hRest]⟩
      · push Not at hNot
        obtain ⟨arrived, rfl, hHeader⟩ := hNot
        obtain ⟨hSettles, hId, hRid, -⟩ := hHeadless.settles hHeader
        exact ⟨Or.inr ⟨_, hSettles.toCheckedUpTo⟩, hId, hRid⟩
  · by_cases hPos : 0 < i
    · have hAdded := addSubPiece_added hChecked hPos buffer
      have hSame := hAdded.sameBlock hPos
      exact ⟨Or.inr ⟨header, hChecked.added hPos hAdded⟩, hSame.1, hSame.2.1⟩
    · obtain rfl : i = 0 := by omega
      rw [hChecked.addSubPiece_zero]
      exact ⟨Or.inr ⟨header, hChecked⟩, rfl, rfl⟩

theorem Sound.receive (h : Sound D node) (packets : List Packet) :
    Sound D (node.receive D packets) ∧ (node.receive D packets).blockId = node.blockId ∧
      (node.receive D packets).rid = node.rid := by
  induction packets generalizing node with
  | nil => exact ⟨h, rfl, rfl⟩
  | cons packet rest ih =>
      obtain ⟨hNext, hId, hRid⟩ := h.add packet.index packet.buffer
      obtain ⟨hLast, hLastId, hLastRid⟩ := ih hNext
      exact ⟨hLast, hLastId.trans hId, hLastRid.trans hRid⟩

end Runs

section Late

variable {slots : Slots}

/-- The slots after several packets were put in. -/
def putAll (slots : Slots) (packets : List Packet) : Slots :=
  packets.foldl (fun slots packet => put slots packet.index packet.buffer) slots

theorem putAll_of_notMem {packets : List Packet} {j : Nat}
    (h : j ∉ packets.map (·.index)) : putAll slots packets j = slots j := by
  induction packets generalizing slots with
  | nil => rfl
  | cons packet rest ih =>
      rw [List.map_cons, List.mem_cons, not_or] at h
      exact (ih h.2).trans (put_of_ne h.1)

theorem putAll_of_mem {packets : List Packet} (hNodup : (packets.map (·.index)).Nodup)
    (packet : Packet) (hMem : packet ∈ packets) :
    putAll slots packets packet.index = packet.buffer := by
  induction packets generalizing slots with
  | nil => cases hMem
  | cons first rest ih =>
      rw [List.map_cons, List.nodup_cons] at hNodup
      rcases List.mem_cons.mp hMem with rfl | hRest
      · exact (putAll_of_notMem hNodup.1).trans (if_pos rfl)
      · exact ih hNodup.2 hRest

/-- Packets for different indexes, checked one by one after the header. -/
theorem Settles.receive (h : Settles D header slots (pieceCount header) node)
    {packets : List Packet} (hNodup : (packets.map (·.index)).Nodup)
    (hPos : ∀ packet ∈ packets, 0 < packet.index)
    (hNone : ∀ packet ∈ packets, slots packet.index = none) :
    Settles D header (putAll slots packets) (pieceCount header) (node.receive D packets) ∧
      SameBlock node (node.receive D packets) := by
  induction packets generalizing node slots with
  | nil => exact ⟨h, rfl, rfl, rfl⟩
  | cons packet rest ih =>
      rw [List.map_cons, List.nodup_cons] at hNodup
      have hFirst := hPos packet (List.mem_cons_self ..)
      have hAdded := addSubPiece_added h.toCheckedUpTo hFirst packet.buffer
      obtain ⟨hSettles, hSame⟩ := ih
        (h.added hFirst (hNone packet (List.mem_cons_self ..)) hAdded) hNodup.2
        (fun later hMem => hPos later (List.mem_cons_of_mem _ hMem))
        (fun later hMem => by
          have hNe : later.index ≠ packet.index := by
            intro hEq
            exact hNodup.1 (List.mem_map.mpr ⟨later, hMem, hEq⟩)
          rw [put_of_ne hNe]
          exact hNone later (List.mem_cons_of_mem _ hMem))
      have hStep := hAdded.sameBlock hFirst
      exact ⟨hSettles, hSame.1.trans hStep.1, hSame.2.1.trans hStep.2.1,
        hSame.2.2.trans hStep.2.2⟩

theorem Settles.congr {slots' : Slots} {limit : Nat} (h : Settles D header slots limit node)
    (hSame : ∀ j, 0 < j → j < subpieceCount header → slots j = slots' j) :
    Settles D header slots' limit node := by
  have hBad : ∀ p, PieceBad D header slots p ↔ PieceBad D header slots' p := by
    intro p
    apply PieceBad.congr
    intro j hIn hLt
    exact hSame j (by have := hIn.1; omega) hLt
  refine { h with
    slot_of_bad := fun p j hp hIn hPiece => h.slot_of_bad p j hp hIn ((hBad p).mpr hPiece)
    slot_of_not_bad := fun p j hIn hNot hLt => ?_
    failed_eq := ?_ }
  · rw [← hSame j (by have := hIn.1; omega) hLt]
    exact h.slot_of_not_bad p j hIn (fun hOld => hNot ⟨hOld.1, (hBad p).mp hOld.2⟩) hLt
  · rw [h.failed_eq, failures_congr fun p _ => hBad p]

/-- The packets that a node has gathered, each once. -/
structure Gathered (node : LiveBlockNode) (packets : List Packet) : Prop where
  nodup : (packets.map (·.index)).Nodup
  mem_iff : ∀ packet : Packet, packet ∈ packets ↔
    packet.buffer.isSome = true ∧ node.slot packet.index = packet.buffer

theorem Gathered.putAll_eq {packets : List Packet} (h : Gathered node packets) {j : Nat}
    (hj : j < 2 ^ 16) : putAll (fun _ => none) packets j = node.slot j := by
  cases hSlot : node.slot j with
  | some buffer =>
      exact putAll_of_mem h.nodup ⟨j, hj, some buffer⟩ ((h.mem_iff _).mpr ⟨rfl, hSlot⟩)
  | none =>
      apply putAll_of_notMem
      intro hMem
      obtain ⟨packet, hIn, rfl⟩ := List.mem_map.mp hMem
      obtain ⟨hSome, hEq⟩ := (h.mem_iff packet).mp hIn
      rw [← hEq, hSlot] at hSome
      cases hSome

/-- The header checks the gathered packets as if they came after it, in any order. -/
theorem Headless.header_commutes (h : Headless node) {arrived : LiveSubPieceBuffer}
    (hHeader : HeaderBuffer D node arrived) {packets : List Packet}
    (hGathered : Gathered node packets) :
    (node.addSubPiece D 0 (some arrived)).1 =
      receive D ((create node.blockId node.rid).addSubPiece D 0 (some arrived)).1 packets := by
  obtain ⟨hLate, hId, hRid, hFirst⟩ := h.settles hHeader
  have hFresh : Headless (create node.blockId node.rid) := create_headless _ _
  obtain ⟨hEarly, hEarlyId, hEarlyRid, hEarlyFirst⟩ :=
    hFresh.settles hHeader
  have hEmpty : (create node.blockId node.rid).slot = fun _ => none := by
    funext j
    simp [slot, create]
  rw [hEmpty] at hEarly
  have hPos : ∀ packet ∈ packets, 0 < packet.index := by
    intro packet hMem
    obtain ⟨hSome, hEq⟩ := (hGathered.mem_iff packet).mp hMem
    apply Nat.pos_of_ne_zero
    intro hZero
    rw [← hEq, hZero, h.first_eq] at hSome
    cases hSome
  obtain ⟨hReplayed, hReplayedId, hReplayedRid, hReplayedFirst⟩ :=
    hEarly.receive hGathered.nodup hPos fun _ _ => rfl
  have hBounds := subpieceCount_bounds hHeader.2.1
  refine hLate.unique (hReplayed.congr fun j _ hLt => hGathered.putAll_eq (by omega)) ?_ ?_ ?_
  · rw [hId, hReplayedId, hEarlyId]
    rfl
  · rw [hRid, hReplayedRid, hEarlyRid]
    rfl
  · rw [hFirst, hReplayedFirst, hEarlyFirst]

end Late

end LiveBlockNode

end Live
