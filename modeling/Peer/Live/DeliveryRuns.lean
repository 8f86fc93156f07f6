import Peer.Basis.Run
import Peer.Live.Delivery

/-! Delivery over the runs of a live instance: packets, ticks, streams that come, go and
jump, and evictions of blocks that no stream plays. -/
namespace Live

open Basis Storage HeaderSubPiece LiveBlockNode

variable {D : Digests} {c : LiveCacheManager} {s : LiveStream} {x y : LiveInstance}
  {a : LiveAction} {rid : Guid} {liveInterval : Nat}

section Present

theorem removeFlashHeader_present {buffers : List (Option LiveSubPieceBuffer)}
    (h : none ∉ buffers) : none ∉ removeFlashHeader buffers := by
  unfold removeFlashHeader
  split
  · split
    · simp only [List.mem_cons, not_or] at h ⊢
      exact ⟨by simp, h.2⟩
    · exact h
  · exact h

theorem dataBefore_present {node : LiveBlockNode} {start stop : Nat}
    (h : ∀ j, j < stop → (node.slot j).isSome = true) : none ∉ dataBefore start node stop := by
  have hSlots : none ∉ slotsBetween node 1 stop := by
    unfold slotsBetween
    intro hMem
    obtain ⟨j, hRange, hNone⟩ := List.mem_map.mp hMem
    rw [List.mem_range'_1] at hRange
    have hSome := h j (by omega)
    rw [hNone] at hSome
    cases hSome
  unfold dataBefore cutHeader
  split
  · exact hSlots
  · exact removeFlashHeader_present hSlots

theorem isSome_of_isComplete {node : LiveBlockNode} (h : node.isComplete = true) {j : Nat}
    (hj : j < node.getSubPiecesCount) : (node.slot j).isSome = true := by
  unfold isComplete at h
  split at h
  · cases h
  · rename_i hHeader
    rw [getSubPiecesCount, if_pos (by simpa using hHeader)] at hj
    rw [List.all_eq_true] at h
    have hSome := h _ (List.getElem_mem hj)
    simpa [slot, hj] using hSome

/-- No buffer that a stream was given is a null pointer. -/
theorem Delivered.present (h : Delivered D c s) :
    none ∉ (s.received.drop s.callsBefore).flatMap (·.2) := by
  rw [h.received_eq, List.mem_append, List.mem_flatMap]
  rintro (⟨node, hMem, hNone⟩ | hNone)
  · have hComplete := (h.played_whole node hMem).1
    exact dataBefore_present (fun j hj => isSome_of_isComplete hComplete hj) hNone
  · unfold currentData at hNone
    split at hNone
    · rename_i node hNode
      rcases h.atPiece with hZero | ⟨other, header, hOther, hPlayed⟩
      · rw [hZero, dataBefore_of_le (Nat.zero_le _)] at hNone
        cases hNone
      · obtain rfl : node = other := Option.some.inj (hNode.symm.trans hOther)
        exact dataBefore_present (fun j hj => hPlayed.isSome hj) hNone
    · cases hNone

end Present

namespace LiveInstance

/-- The blocks that streams play are not evicted. -/
def KeepsPlayed (x : LiveInstance) : LiveAction → Prop
  | .removeBlock b => ∀ s ∈ x.liveStreams, s.playingPosition.blockId ≠ b
  | _ => True

/-- What holds in every state of a run. -/
structure InOrder (D : Digests) (x : LiveInstance) : Prop where
  sound : CacheSound D x.cacheManager
  delivered : ∀ s ∈ x.liveStreams, Delivered D x.cacheManager s

theorem create_inOrder (D : Digests) (rid : Guid) (liveInterval : Nat) :
    InOrder D (create rid liveInterval) where
  sound b _ hNode := by
    have hNone : (create rid liveInterval).cacheManager.node b = none := rfl
    rw [hNone] at hNode
    cases hNode
  delivered _ hMem := by cases hMem

section Pushes

theorem mapM_of_forall {α β : Type} {f : α → Option β} {P : β → Prop} {l : List α}
    (h : ∀ a ∈ l, ∃ b, f a = some b ∧ P b) : ∃ l', l.mapM f = some l' ∧ ∀ b ∈ l', P b := by
  induction l with
  | nil => exact ⟨[], rfl, fun b hMem => by cases hMem⟩
  | cons a rest ih =>
      obtain ⟨b, hFirst, hb⟩ := h a List.mem_cons_self
      obtain ⟨rest', hRest, hAll⟩ := ih fun a' hMem => h a' (List.mem_cons_of_mem _ hMem)
      refine ⟨b :: rest', by simp [List.mapM_cons, hFirst, hRest], ?_⟩
      intro b' hMem
      rcases List.mem_cons.mp hMem with rfl | hMem
      · exact hb
      · exact hAll b' hMem

theorem pushDataToDownloaderDrivers_inOrder (h : InOrder D x) (jumps : Nat → Option Nat) :
    ∃ y, x.pushDataToDownloaderDrivers jumps = some y ∧ InOrder D y := by
  obtain ⟨streams, hPushed, hAll⟩ := mapM_of_forall
    (f := fun s => pushDataToDownloaderDriver x.cacheManager (jumps s.id) s)
    (P := Delivered D x.cacheManager) (l := x.liveStreams) (by
      intro s hMem
      obtain ⟨s', hPush, hNext, -⟩ := push_delivered h.sound (h.delivered s hMem) (jumps s.id)
      exact ⟨s', hPush, hNext⟩)
  refine ⟨{ x with liveStreams := streams }, ?_, ⟨h.sound, hAll⟩⟩
  unfold pushDataToDownloaderDrivers
  rw [hPushed]
  rfl

theorem InOrder.addToCache (h : InOrder D x) (subpiece : LivePosition)
    (buffer : Option LiveSubPieceBuffer) :
    InOrder D { x with cacheManager := (x.cacheManager.addSubPiece D subpiece buffer).1 } where
  sound := h.sound.addSubPiece subpiece buffer
  delivered s hMem := (h.delivered s hMem).addSubPiece subpiece buffer

end Pushes

/-- Every step that keeps the blocks that are played succeeds, and keeps the order. -/
theorem next_inOrder (h : InOrder D x) (hKeeps : KeepsPlayed x a) :
    ∃ y, x.next D a = some y ∧ InOrder D y := by
  cases a with
  | addSubPiece jumps subpiece buffer =>
      have hAdded := h.addToCache subpiece buffer
      unfold next addSubPiece
      cases hTaken : (x.cacheManager.addSubPiece D subpiece buffer).2 with
      | false =>
          refine ⟨_, ?_, hAdded⟩
          simp [hTaken]
      | true =>
          obtain ⟨y, hPush, hNext⟩ := pushDataToDownloaderDrivers_inOrder hAdded jumps
          refine ⟨y, ?_, hNext⟩
          simpa [hTaken] using hPush
  | playTimer jumps => exact pushDataToDownloaderDrivers_inOrder h jumps
  | attachStream id start blockId =>
      refine ⟨_, rfl, ⟨h.sound, fun s hMem => ?_⟩⟩
      rcases List.mem_append.mp hMem with hOld | hNew
      · exact h.delivered s hOld
      · obtain rfl := List.mem_singleton.mp hNew
        exact delivered_place ⟨id, ⟨start, 0⟩, ⟨start, 0⟩, [], 0, true, 0, []⟩ (u32_lt blockId)
  | detachStream id =>
      exact ⟨_, rfl, ⟨h.sound, fun s hMem => h.delivered s (List.mem_filter.mp hMem).1⟩⟩
  | jumpTo id target =>
      refine ⟨_, rfl, ⟨h.sound, fun s hMem => ?_⟩⟩
      obtain ⟨s', hOld, rfl⟩ := List.mem_map.mp hMem
      split
      · exact delivered_place s' (u32_lt target)
      · exact h.delivered s' hOld
  | removeBlock blockId =>
      have hPlays : ∀ s ∈ x.liveStreams, s.playingPosition.blockId ≠ blockId := hKeeps
      refine ⟨_, rfl, ⟨h.sound.removeBlock blockId, fun s hMem => ?_⟩⟩
      exact (h.delivered s hMem).removeBlock (hPlays s hMem)

/-- In every state of a run each stream stands at a piece, and one that its driver placed
where it was placed last has been given since then whole blocks one live interval apart
and the beginning of the next; nothing that can happen next leads to `assert(false)`. -/
theorem delivered_of_run (run : Reaches (Step D) KeepsPlayed (create rid liveInterval) x) :
    (∀ s ∈ x.liveStreams, AtPiece D x.cacheManager s.playingPosition ∧
      (s.byDriver = true → Delivered D x.cacheManager s ∧
        none ∉ (s.received.drop s.callsBefore).flatMap (·.2))) ∧
    ∀ a, KeepsPlayed x a → ∃ y, Step D x a y := by
  have hOrder : InOrder D x := by
    apply run.invariant (create_inOrder D rid liveInterval)
    intro before action after hBefore hKeeps hStep
    obtain ⟨other, hNext, hOther⟩ := next_inOrder hBefore hKeeps
    obtain rfl : other = after := Option.some.inj (hNext.symm.trans hStep)
    exact hOther
  refine ⟨fun s hMem => ⟨(hOrder.delivered s hMem).atPiece, fun _ =>
    ⟨hOrder.delivered s hMem, (hOrder.delivered s hMem).present⟩⟩, ?_⟩
  intro a hKeeps
  obtain ⟨y, hNext, -⟩ := next_inOrder hOrder hKeeps
  exact ⟨y, hNext⟩

section Runs

def constantDigests : Digests := ⟨fun _ => Guid.zero, fun _ => 0⟩

theorem headerOf_length_le (blockId : Nat) :
    (List.replicate 32 0 ++ leBytes 4 48 ++ leBytes 4 48 ++ leBytes 4 blockId ++ leBytes 4 0 ++
      List.replicate 1352 0).length ≤ liveSubPieceSize := by
  simp only [List.length_append, List.length_replicate, leBytes_length, liveSubPieceSize]
  omega

/-- The header of a block with one subpiece of one byte. -/
def headerOf (blockId : Nat) : LiveSubPieceBuffer where
  data := List.replicate 32 0 ++ leBytes 4 48 ++ leBytes 4 48 ++ leBytes 4 blockId ++
    leBytes 4 0 ++ List.replicate 1352 0
  length_le := headerOf_length_le blockId

def byteOf (byte : UInt8) : LiveSubPieceBuffer := 
  ⟨[byte], LiveSubPieceBuffer.length_single_le byte⟩

def blockArrives (blockId : Nat) (byte : UInt8) : List LiveAction :=
  [.addSubPiece (fun _ => none) ⟨blockId, 1⟩ (some (byteOf byte)),
    .addSubPiece (fun _ => none) ⟨blockId, 0⟩ (some (headerOf blockId))]

private def twoBlocks : List LiveAction :=
  [.attachStream 0 0 0] ++ blockArrives 10 2 ++ blockArrives 0 1 ++ [.playTimer fun _ => none]

private def jumpAhead : List LiveAction :=
  [.attachStream 0 0 0, .jumpTo 0 20] ++ blockArrives 20 3

theorem keepsPlayed_of_forall {l : List LiveAction}
    (h : ∀ a ∈ l, ∀ blockId, a ≠ .removeBlock blockId) (x : LiveInstance) :
    AllMet (next constantDigests) KeepsPlayed x l := by
  induction l generalizing x with
  | nil => trivial
  | cons a rest ih =>
      refine ⟨?_, fun y _ => ih (fun a' hMem => h a' (List.mem_cons_of_mem _ hMem)) y⟩
      cases a with
      | removeBlock b => exact absurd rfl (h _ List.mem_cons_self b)
      | _ => exact True.intro

theorem exists_run {l : List LiveAction} {P : LiveInstance → Bool}
    (hKeeps : ∀ a ∈ l, ∀ blockId, a ≠ .removeBlock blockId)
    (h : (execute (next constantDigests) (create Guid.zero 10) l).any P = true) :
    ∃ x, Reaches (Step constantDigests) KeepsPlayed (create Guid.zero 10) x ∧ P x = true := by
  obtain ⟨x, hRun, hx⟩ := (Option.any_eq_true _ _).mp h
  exact ⟨x, Reaches.of_execute hRun (keepsPlayed_of_forall hKeeps _), hx⟩

/-- Two blocks that arrive in the wrong order are given in the right one. -/
theorem delivered_of_two_blocks : ∃ x : LiveInstance,
    x.liveStreams.map (fun s => (s.byDriver, s.received)) =
      [(true, [(0, [some (byteOf 1)]), (10, [some (byteOf 2)])])] ∧
    (∀ s ∈ x.liveStreams, AtPiece constantDigests x.cacheManager s.playingPosition ∧
      (s.byDriver = true → Delivered constantDigests x.cacheManager s ∧
        none ∉ (s.received.drop s.callsBefore).flatMap (·.2))) ∧
    ∀ a, KeepsPlayed x a → ∃ y, Step constantDigests x a y := by
  obtain ⟨x, hRun, hx⟩ := exists_run (l := twoBlocks)
    (P := fun x => decide (x.liveStreams.map (fun s => (s.byDriver, s.received)) =
      [(true, [(0, [some (byteOf 1)]), (10, [some (byteOf 2)])])]))
    (by simp [twoBlocks, blockArrives]) (by decide +kernel)
  exact ⟨x, by simpa using hx, delivered_of_run hRun⟩

private theorem removeFlashHeader_length (buffers : List (Option LiveSubPieceBuffer)) :
    (removeFlashHeader buffers).length = buffers.length := by
  unfold removeFlashHeader
  split
  · split <;> rfl
  · rfl

private theorem dataBefore_length (start : Nat) (node : LiveBlockNode) (stop : Nat) :
    (dataBefore start node stop).length = stop - 1 := by
  unfold dataBefore cutHeader slotsBetween
  split <;> simp [removeFlashHeader_length]

private theorem count_of_complete {node : LiveBlockNode} (hComplete : node.isComplete = true)
    (hSound : Sound D node) : 2 ≤ node.getSubPiecesCount := by
  rcases hSound with hHeadless | ⟨header, hChecked⟩
  · simp [isComplete, hasHeaderSubPiece, hHeadless.header_eq] at hComplete
  · have hBounds := subpieceCount_bounds hChecked.describes.1
    rw [getSubPiecesCount, hChecked.hasHeader, if_pos rfl, hChecked.length_eq]
    omega

private theorem length_le_flatMap (start : Nat) {played : List LiveBlockNode}
    (h : ∀ node ∈ played, node.isComplete = true ∧ Sound D node) :
    played.length ≤
      (played.flatMap fun node => dataBefore start node node.getSubPiecesCount).length := by
  induction played with
  | nil => simp
  | cons node rest ih =>
      obtain ⟨hComplete, hSound⟩ := h node List.mem_cons_self
      have hCount := count_of_complete hComplete hSound
      have hRest := ih fun other hMem => h other (List.mem_cons_of_mem _ hMem)
      rw [List.flatMap_cons, List.length_append, dataBefore_length, List.length_cons]
      omega

/-- When the driver jumps, the blocks between are not given to the stream. -/
theorem delivered_from_start_fails :
    ¬ ∀ (D : Digests) (rid : Guid) (liveInterval : Nat) (x : LiveInstance),
      Reaches (Step D) KeepsPlayed (create rid liveInterval) x → ∀ s ∈ x.liveStreams,
        ∃ played, Delivered D x.cacheManager
          { s with placedAt := s.startPosition.blockId, callsBefore := 0, played := played } := by
  intro h
  obtain ⟨x, hRun, hx⟩ := exists_run (l := jumpAhead)
    (P := fun x => decide (x.cacheManager.liveInterval = 10) &&
      x.liveStreams.any fun s => decide (s.startPosition = ⟨0, 0⟩) &&
        decide (s.playingPosition = ⟨30, 0⟩) && decide (s.received = [(20, [some (byteOf 3)])]))
    (by simp [jumpAhead, blockArrives]) (by decide +kernel)
  simp only [Bool.and_eq_true, decide_eq_true_eq, List.any_eq_true] at hx
  obtain ⟨hInterval, s, hMem, ⟨hStart, hPosition⟩, hReceived⟩ := hx
  obtain ⟨played, hDelivered⟩ := h constantDigests Guid.zero 10 x hRun s hMem
  have hGiven := congrArg List.length hDelivered.received_eq
  have hEnough := length_le_flatMap s.startPosition.blockId hDelivered.played_whole
  have hEnd := hDelivered.blockId_eq
  simp only [hReceived, List.drop_zero, List.flatMap_singleton, List.length_append,
    List.length_singleton] at hGiven
  simp only [hPosition, hStart, hInterval] at hEnd
  have hFew : played.length ≤ 1 := by
    have := hGiven
    dsimp only at hEnough
    omega
  rw [u32_of_lt (by omega)] at hEnd
  omega

end Runs

end LiveInstance

end Live
