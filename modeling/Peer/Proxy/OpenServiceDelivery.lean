import Peer.Proxy.OpenServiceSender
import Peer.Proxy.RangeDelivery

/-! What the player gets after a drag, whatever the lengths of the buffers in which the file
is handed to the sender. -/
namespace Proxy

open Basis Storage

/-- A drag: a file, its head, the offset asked for, and a maker of media headers that finds
a key frame in the file. -/
structure Drag where
  file : Bytes
  headLength : Nat
  startOffset : Nat
  getHeader : Nat → Bytes → Nat × Bytes
  file_lt : file.length < 2 ^ 32
  headLength_le : headLength ≤ 16 * 1024 * 1024
  keyFrame_lt : (getHeader startOffset (file.take headLength)).1 < file.length

namespace Drag

variable (d : Drag)

def keyFrame : Nat := (d.getHeader d.startOffset (d.file.take d.headLength)).1

def mediaHeader : Bytes := (d.getHeader d.startOffset (d.file.take d.headLength)).2

/-- The bytes of the media header and of the file from the key frame on. -/
def contentLength : Nat := d.mediaHeader.length + (d.file.length - d.keyFrame)

/-- What comes before the file: `GetHeader` gets the head, the header and the media header
are sent. -/
def opening (header : OpenServiceHeader) : List OpenServiceOutput :=
  .getHeader d.startOffset (d.file.take d.headLength) :: .header header ::
    if d.mediaHeader.length > 0 then [.buffer d.mediaHeader] else []

/-- What happens to the sender: it is told the length of the file or of the head, or receives
buffers. -/
inductive Action where
  | noticeContentLength (contentLength : Nat) (httpResponse : Option HttpResponse)
  | noticeHeadLength (fresh : Nat → UInt8)
  | receive (position : Nat) (buffers : List Bytes)

/-- A state of the sender, or none after it has read outside a buffer. -/
def next : Option OpenServiceProxySender → Action → Option OpenServiceProxySender
  | none, _ => none
  | some s, .noticeContentLength contentLength httpResponse =>
    some (s.onNoticeGetContentLength contentLength httpResponse)
  | some s, .noticeHeadLength fresh => some (s.onNoticeOpenServiceHeadLength fresh d.headLength)
  | some s, .receive position buffers => s.onRecvSubPiece d.getHeader position buffers

def Step (s : Option OpenServiceProxySender) (a : Action) (t : Option OpenServiceProxySender) :
    Prop :=
  d.next s a = t

/-- After `Start` and the notice of the file's length. -/
def started (httpResponse : Option HttpResponse) : Option OpenServiceProxySender :=
  some ((OpenServiceProxySender.start d.startOffset).onNoticeGetContentLength d.file.length
    httpResponse)

/-- A buffer with the bytes of the file at a position. -/
def IsPiece (position : Nat) (buffer : Bytes) : Prop :=
  position + buffer.length ≤ d.file.length ∧
    buffer = slice d.file position (position + buffer.length)

/-- The head has one length, and buffers for the playing position are those of the file. -/
def Offered (s : OpenServiceProxySender) : Action → Prop
  | .noticeContentLength _ _ => True
  | .noticeHeadLength _ => s.headLength = none
  | .receive position buffers => position = s.playingPosition → d.IsPiece position buffers.flatten

/-- The buffer is the first one that is sent behind the media header. -/
def FirstPiece (s : OpenServiceProxySender) (buffer : Bytes) : Prop :=
  s.isSentFirstPiece = false ∧ s.playingPosition = d.keyFrame / 1024 * 1024 ∧
    (s.isResponseHeader = true ∨
      ∃ headLength, s.headLength = some headLength ∧ headLength ≤ s.playingPosition + buffer.length)

/-- Among the buffers received, one that is the first piece reaches the key frame. -/
def ReachesKeyFrame : OpenServiceProxySender → Nat → List Bytes → Prop
  | _, _, [] => True
  | s, position, buffer :: rest => s.playingPosition = position →
    (d.FirstPiece s buffer → d.keyFrame % 1024 ≤ buffer.length) ∧
      ∀ t, s.onAsyncGetSubPieceSucced d.getHeader position buffer = some t →
        ReachesKeyFrame t (u32 (position + buffer.length)) rest

/-- An action as it is offered, with a first piece that reaches the key frame. -/
def Met (s : Option OpenServiceProxySender) (a : Action) : Prop :=
  ∀ t, s = some t → d.Offered t a ∧
    ∀ position buffers, a = .receive position buffers → d.ReachesKeyFrame t position buffers

/-- Nothing is sent before the whole head is there, and the sender waits for more of it; or
the opening is sent, with the right length, and then the file from the key frame up to the
playing position, all of it once that has come to the end. -/
def OutputRight (s : OpenServiceProxySender) : Prop :=
  (s.sent = [] ∧ (s.playingPosition < d.file.length ∨ d.file.length < d.headLength)) ∨
    d.headLength ≤ d.file.length ∧ s.playingPosition ≤ d.file.length ∧
      ∃ (header : OpenServiceHeader) (chunks : List Bytes), header.Announces d.contentLength ∧
        s.sent = d.opening header ++ chunks.map .buffer ∧
        chunks.flatten = slice d.file d.keyFrame s.playingPosition

/-- Before the response. -/
structure Collecting (s : OpenServiceProxySender) : Prop where
  sent : s.sent = []
  isResponseHeader : s.isResponseHeader = false
  isSentFirstPiece : s.isSentFirstPiece = false
  fileLength : s.fileLength = d.file.length
  startOffset : s.startOffset = d.startOffset
  head : s.headLength = none ∧ s.playingPosition = 0 ∨
    s.headLength = some d.headLength ∧ s.keyFramePosition = d.startOffset ∧
      s.headBuffer.length = d.headLength ∧
      s.headBuffer.take s.playingPosition = d.file.take s.playingPosition
  playing : s.playingPosition = 0 ∨
    s.playingPosition < d.headLength ∧ s.playingPosition ≤ d.file.length

/-- After the start of the response. -/
structure Playing (s : OpenServiceProxySender) : Prop where
  isResponseHeader : s.isResponseHeader = true
  headLength : s.headLength = some d.headLength
  offset : s.headerOffsetInFirstPiece = d.keyFrame % 1024
  complete : d.headLength ≤ d.file.length
  playing : s.playingPosition ≤ d.file.length
  before : s.isSentFirstPiece = false → s.playingPosition = d.keyFrame / 1024 * 1024
  behind : s.isSentFirstPiece = true → d.keyFrame ≤ s.playingPosition
  output : ∃ (header : OpenServiceHeader) (chunks : List Bytes), header.Announces d.contentLength ∧
    s.sent = d.opening header ++ chunks.map .buffer ∧
    chunks.flatten = slice d.file d.keyFrame s.playingPosition

end Drag

variable {d : Drag} {s t : OpenServiceProxySender} {buffer : Bytes} {position : Nat}

theorem Drag.Playing.outputRight (h : d.Playing s) : d.OutputRight s :=
  Or.inr ⟨h.complete, h.playing, h.output⟩

theorem Drag.Collecting.outputRight (h : d.Collecting s) : d.OutputRight s := by
  have hKey := d.keyFrame_lt
  have hPlaying := h.playing
  refine Or.inl ⟨h.sent, ?_⟩
  omega

/-! ## Pieces -/

namespace Drag.IsPiece

theorem take (h : d.IsPiece position buffer) {n : Nat} (hn : n ≤ buffer.length) :
    buffer.take n = slice d.file position (position + n) := by
  rw [h.2, slice, slice, List.take_drop, List.take_take, min_eq_left (by omega)]

theorem drop (h : d.IsPiece position buffer) (n : Nat) :
    buffer.drop n = slice d.file (position + n) (position + buffer.length) := by
  rw [slice, ← List.drop_drop]
  exact congrArg (List.drop n) h.2

/-- The first buffer of a piece in buffers. -/
theorem head {rest : List Bytes} (h : d.IsPiece position (buffer :: rest).flatten) :
    d.IsPiece position buffer := by
  have hLength : (buffer :: rest).flatten.length = buffer.length + rest.flatten.length := by simp
  have hTake := h.take (n := buffer.length) (by omega)
  rw [List.flatten_cons, List.take_left] at hTake
  exact ⟨by have := h.1; omega, hTake⟩

theorem tail {rest : List Bytes} (h : d.IsPiece position (buffer :: rest).flatten) :
    d.IsPiece (position + buffer.length) rest.flatten := by
  have hLength : (buffer :: rest).flatten.length = buffer.length + rest.flatten.length := by simp
  have hDrop := h.drop buffer.length
  rw [List.flatten_cons, List.drop_left, List.length_append, ← Nat.add_assoc] at hDrop
  exact ⟨by have := h.1; omega, hDrop⟩

end Drag.IsPiece

/-! ## The steps -/

/-- The bytes of the file up to the head's are the head's first ones. -/
theorem copyToHead_eq {headBuffer file bytes : Bytes} {length : Nat}
    (hLength : headBuffer.length = length) (hSmall : length ≤ 16 * 1024 * 1024)
    (hFits : position + bytes.length ≤ length)
    (hTake : headBuffer.take position = file.take position)
    (hBytes : bytes = slice file position (position + bytes.length)) :
    ∃ copied, OpenServiceProxySender.copyToHead headBuffer position bytes = some copied ∧
      copied.length = length ∧
      copied.take (position + bytes.length) = file.take (position + bytes.length) := by
  have hRoom : subU32 headBuffer.length position = length - position := by
    rw [hLength, subU32_of_le (by omega) (by omega)]
  have hOk : memcpy2Ok (subU32 headBuffer.length position) bytes.length = true := by
    rw [hRoom, memcpy2Ok_iff]
    omega
  have hFirst : (headBuffer.take position ++ bytes).length = position + bytes.length := by
    rw [List.length_append, List.length_take, min_eq_left (by omega)]
  refine ⟨_, if_pos hOk, ?_, ?_⟩
  · rw [List.length_append, hFirst, List.length_drop]
    omega
  · have hAll : file.take position ++ slice file position (position + bytes.length) =
        file.take (position + bytes.length) := by
      have hJoined : slice file 0 position ++ slice file position (position + bytes.length) =
          slice file 0 (position + bytes.length) :=
        slice_append (Nat.zero_le _) (Nat.le_add_right _ _)
      simpa only [slice, List.drop_zero] using hJoined
    rw [← hBytes, ← hTake] at hAll
    rw [← hAll, ← hFirst, List.take_left]

namespace Drag

theorem Playing.sendFirstPiece (h : d.Playing s) (hFirst : s.isSentFirstPiece = false)
    (hPiece : d.IsPiece s.playingPosition buffer) (hReaches : d.keyFrame % 1024 ≤ buffer.length) :
    ∃ t, s.sendFirstPiece buffer = some t ∧ d.Playing t := by
  have hFile := d.file_lt
  have hInside := hPiece.1
  have hPosition := h.before hFirst
  have hKey : s.playingPosition + d.keyFrame % 1024 = d.keyFrame := by omega
  obtain ⟨header, chunks, hAnnounces, hSent, hChunks⟩ := h.output
  have hLength : subU32 buffer.length s.headerOffsetInFirstPiece =
      buffer.length - d.keyFrame % 1024 := by
    rw [h.offset, subU32_of_le (by omega) hReaches]
  have hStop : u32 (s.playingPosition + buffer.length) = s.playingPosition + buffer.length :=
    u32_of_lt (by omega)
  unfold OpenServiceProxySender.sendFirstPiece
  rw [hLength, h.offset, if_pos (by omega), hStop]
  refine ⟨_, rfl, h.isResponseHeader, h.headLength, rfl, h.complete, hInside, nofun,
    fun _ => by show d.keyFrame ≤ s.playingPosition + buffer.length; omega, header,
    chunks ++ [(buffer.drop (d.keyFrame % 1024)).take (buffer.length - d.keyFrame % 1024)],
    hAnnounces, ?_, ?_⟩
  · show s.sent ++ _ = _
    rw [hSent]
    simp
  · show _ = slice d.file d.keyFrame (s.playingPosition + buffer.length)
    rw [List.flatten_append, hChunks, slice_nil (by omega), List.take_of_length_le (by simp),
      hPiece.drop, hKey]
    simp

theorem Playing.onAsyncGetSubPieceSucced (h : d.Playing s)
    (hPiece : d.IsPiece s.playingPosition buffer)
    (hReaches : d.FirstPiece s buffer → d.keyFrame % 1024 ≤ buffer.length) :
    ∃ t, s.onAsyncGetSubPieceSucced d.getHeader s.playingPosition buffer = some t ∧
      d.Playing t := by
  have hFile := d.file_lt
  have hInside := hPiece.1
  unfold OpenServiceProxySender.onAsyncGetSubPieceSucced
  simp only [h.headLength, h.isResponseHeader, Bool.true_eq_false, if_false]
  cases hFirst : s.isSentFirstPiece with
  | false =>
      rw [if_pos rfl]
      exact h.sendFirstPiece hFirst hPiece
        (hReaches ⟨hFirst, h.before hFirst, Or.inl h.isResponseHeader⟩)
  | true =>
      obtain ⟨header, chunks, hAnnounces, hSent, hChunks⟩ := h.output
      have hBehind := h.behind hFirst
      rw [if_neg Bool.true_eq_false.mp, u32_of_lt (by omega)]
      refine ⟨_, rfl, rfl, rfl, h.offset, h.complete, hInside, nofun,
        fun _ => by show d.keyFrame ≤ s.playingPosition + buffer.length; omega, header,
        chunks ++ [buffer], hAnnounces, ?_, ?_⟩
      · show s.sent ++ _ = _
        rw [hSent]
        simp
      · show _ = slice d.file d.keyFrame (s.playingPosition + buffer.length)
        rw [List.flatten_append, hChunks, List.flatten_singleton,
          ← slice_append hBehind (Nat.le_add_right _ buffer.length), ← hPiece.2]

theorem responseHeader_announces (template : Option HttpResponse) {contentLength : Nat}
    (hLength : contentLength < 2 ^ 32) :
    (OpenServiceProxySender.responseHeader template contentLength).Announces contentLength := by
  unfold OpenServiceProxySender.responseHeader
  cases template with
  | none => rfl
  | some response =>
      dsimp only
      split
      · rfl
      · simp [OpenServiceHeader.Announces, HttpResponse.setContentLength, HttpResponse.setProperty,
          toNat_length hLength]

theorem Collecting.openResponse (h : d.Collecting s) (hKey : s.keyFramePosition = d.startOffset)
    (hHead : s.headLength = some d.headLength) (hComplete : d.headLength ≤ d.file.length)
    (hLength : d.contentLength < 2 ^ 32) :
    d.Playing (s.openResponse d.getHeader (d.file.take d.headLength)) ∧
      (s.openResponse d.getHeader (d.file.take d.headLength)).isSentFirstPiece = false ∧
      (s.openResponse d.getHeader (d.file.take d.headLength)).playingPosition =
        d.keyFrame / 1024 * 1024 := by
  have hFile := d.file_lt
  have hInside : d.keyFrame < d.file.length := d.keyFrame_lt
  have hContent : u32 (subU32 s.fileLength d.keyFrame + d.mediaHeader.length) = d.contentLength := by
    rw [h.fileLength, subU32_of_le hFile hInside.le, Nat.add_comm]
    exact u32_of_lt hLength
  have hSame : s.openResponse d.getHeader (d.file.take d.headLength) =
      { s with
        headBuffer := d.file.take d.headLength
        keyFramePosition := d.keyFrame
        headerOffsetInFirstPiece := d.keyFrame % 1024
        sent := d.opening
          (OpenServiceProxySender.responseHeader s.headerResponseTemplate d.contentLength)
        isResponseHeader := true
        playingPosition := d.keyFrame / 1024 * 1024 } := by
    have hKeyFrame : (d.getHeader d.startOffset (d.file.take d.headLength)).1 = d.keyFrame := rfl
    have hMedia : (d.getHeader d.startOffset (d.file.take d.headLength)).2 = d.mediaHeader := rfl
    unfold OpenServiceProxySender.openResponse
    rw [hKey, hKeyFrame, hMedia]
    dsimp only
    rw [hContent, h.sent]
    rfl
  rw [hSame]
  refine ⟨⟨rfl, hHead, rfl, hComplete, ?_, fun _ => rfl, fun hSent => ?_, _, [],
    responseHeader_announces s.headerResponseTemplate hLength, ?_, ?_⟩, h.isSentFirstPiece, rfl⟩
  · show d.keyFrame / 1024 * 1024 ≤ d.file.length
    omega
  · have hNot : s.isSentFirstPiece = true := hSent
    rw [h.isSentFirstPiece] at hNot
    cases hNot
  · simp
  · show [] = slice d.file d.keyFrame (d.keyFrame / 1024 * 1024)
    rw [slice_nil (by omega)]

theorem Collecting.respond (h : d.Collecting s) (hKey : s.keyFramePosition = d.startOffset)
    (hHead : s.headLength = some d.headLength) (hComplete : d.headLength ≤ d.file.length)
    (hLength : d.contentLength < 2 ^ 32) (hPiece : d.IsPiece position buffer)
    (hReaches : position = d.keyFrame / 1024 * 1024 → d.keyFrame % 1024 ≤ buffer.length) :
    ∃ t, s.respond d.getHeader position buffer (d.file.take d.headLength) = some t ∧
      d.Playing t := by
  obtain ⟨hState, hFirst, hPlaying⟩ := h.openResponse hKey hHead hComplete hLength
  unfold OpenServiceProxySender.respond
  dsimp only
  split
  · rename_i hSame
    rw [← hSame] at hPiece
    exact hState.sendFirstPiece hFirst hPiece (hReaches (hSame.symm.trans hPlaying))
  · exact ⟨_, rfl, hState⟩

/-- A buffer while the head is collected: more of the head, or the start of the response. -/
theorem Collecting.onAsyncGetSubPieceSucced (h : d.Collecting s)
    (hLength : d.contentLength < 2 ^ 32) (hPiece : d.IsPiece s.playingPosition buffer)
    (hReaches : d.FirstPiece s buffer → d.keyFrame % 1024 ≤ buffer.length) :
    ∃ t, s.onAsyncGetSubPieceSucced d.getHeader s.playingPosition buffer = some t ∧
      (d.Collecting t ∨ d.Playing t) := by
  have hFile := d.file_lt
  have hInside := hPiece.1
  have hSmall := d.headLength_le
  have hPlaying := h.playing
  unfold OpenServiceProxySender.onAsyncGetSubPieceSucced
  rcases h.head with ⟨hHead, -⟩ | ⟨hHead, hKey, hBuffer, hTake⟩
  · simp only [hHead]
    exact ⟨s, rfl, Or.inl h⟩
  simp only [hHead, h.isResponseHeader, if_true]
  rw [u32_of_lt (by omega)]
  by_cases hMore : d.headLength > s.playingPosition + buffer.length
  · obtain ⟨copied, hCopied, hCopiedLength, hCopiedTake⟩ :=
      copyToHead_eq hBuffer hSmall (by omega) hTake hPiece.2
    rw [if_pos hMore, hCopied]
    exact ⟨_, rfl, Or.inl ⟨h.sent, rfl, h.isSentFirstPiece, h.fileLength, h.startOffset,
      Or.inr ⟨rfl, hKey, hCopiedLength, hCopiedTake⟩, Or.inr ⟨hMore, hInside⟩⟩⟩
  · have hStop : d.headLength ≥ s.playingPosition ∧
        d.headLength ≤ s.playingPosition + buffer.length := by omega
    have hFirst : s.playingPosition = d.keyFrame / 1024 * 1024 →
        d.keyFrame % 1024 ≤ buffer.length := fun hPosition =>
      hReaches ⟨h.isSentFirstPiece, hPosition, Or.inr ⟨_, hHead, hStop.2⟩⟩
    rw [if_neg hMore, if_pos hStop]
    by_cases hRemain : d.headLength - s.playingPosition > 0
    · have hPart := hPiece.take (n := d.headLength - s.playingPosition) (by omega)
      have hPartLength : (buffer.take (d.headLength - s.playingPosition)).length =
          d.headLength - s.playingPosition := by
        rw [List.length_take, min_eq_left (by omega)]
      obtain ⟨copied, hCopied, hCopiedLength, hCopiedTake⟩ :=
        copyToHead_eq hBuffer hSmall
          (show s.playingPosition + (buffer.take (d.headLength - s.playingPosition)).length ≤
            d.headLength by omega) hTake (by rw [hPartLength]; exact hPart)
      have hAll : copied = d.file.take d.headLength := by
        rw [hPartLength, Nat.add_sub_cancel' hStop.1] at hCopiedTake
        rw [← hCopiedTake, List.take_of_length_le hCopiedLength.le]
      rw [if_pos hRemain, hCopied, Option.bind_some, hAll]
      obtain ⟨t, hRespond, hState⟩ := h.respond hKey hHead (by omega) hLength hPiece hFirst
      exact ⟨t, hRespond, Or.inr hState⟩
    · have hEmpty : s.headBuffer = d.file.take d.headLength := by
        have hZero : d.headLength = 0 := by omega
        rw [hZero, List.take_zero]
        exact List.eq_nil_of_length_eq_zero (hBuffer.trans hZero)
      rw [if_neg hRemain, hEmpty]
      obtain ⟨t, hRespond, hState⟩ := h.respond hKey hHead (by omega) hLength hPiece hFirst
      exact ⟨t, hRespond, Or.inr hState⟩

/-- The invariant of a run. -/
def Sound (d : Drag) (s : OpenServiceProxySender) : Prop := d.Collecting s ∨ d.Playing s

theorem Sound.onRecvSubPiece (hLength : d.contentLength < 2 ^ 32) {buffers : List Bytes}
    (h : d.Sound s) (hPiece : position = s.playingPosition → d.IsPiece position buffers.flatten)
    (hReaches : d.ReachesKeyFrame s position buffers) :
    ∃ t, s.onRecvSubPiece d.getHeader position buffers = some t ∧ d.Sound t := by
  induction buffers generalizing s position with
  | nil => exact ⟨s, rfl, h⟩
  | cons buffer rest ih =>
      unfold OpenServiceProxySender.onRecvSubPiece
      by_cases hHere : s.playingPosition = position
      · obtain ⟨hFirst, hRest⟩ := hReaches hHere
        have hAll := hPiece hHere.symm
        have hOne : d.IsPiece s.playingPosition buffer := hHere ▸ hAll.head
        have hStep : ∃ t, s.onAsyncGetSubPieceSucced d.getHeader position buffer = some t ∧
            d.Sound t := by
          rw [← hHere]
          rcases h with hState | hState
          · exact hState.onAsyncGetSubPieceSucced hLength hOne hFirst
          · obtain ⟨t, hNext, hNextState⟩ := hState.onAsyncGetSubPieceSucced hOne hFirst
            exact ⟨t, hNext, Or.inr hNextState⟩
        obtain ⟨t, hNext, hState⟩ := hStep
        have hFile := d.file_lt
        have hEnd : u32 (position + buffer.length) = position + buffer.length := by
          have hInside := hAll.head.1
          exact u32_of_lt (by omega)
        rw [if_pos hHere, hNext, Option.bind_some, hEnd]
        exact ih hState (fun _ => hAll.tail) (hEnd ▸ hRest t hNext)
      · rw [if_neg hHere]
        -- No later buffer can be at the playing position either.
        have hSkip : ∀ others : List Bytes, s.onRecvSubPiece d.getHeader position others = some s := by
          intro others
          induction others with
          | nil => rfl
          | cons other others ihOthers =>
              rw [OpenServiceProxySender.onRecvSubPiece, if_neg hHere]
              exact ihOthers
        exact ⟨s, hSkip rest, h⟩

theorem Sound.onNoticeGetContentLength (h : d.Sound s) (contentLength : Nat)
    (httpResponse : Option HttpResponse) :
    d.Sound (s.onNoticeGetContentLength contentLength httpResponse) := by
  unfold OpenServiceProxySender.onNoticeGetContentLength
  rcases h with h | h
  · have hSome : s.fileLength ≠ 0 := by
      have hKey := d.keyFrame_lt
      rw [h.fileLength]
      omega
    rw [if_neg hSome]
    split
    · exact Or.inl ⟨h.sent, h.isResponseHeader, h.isSentFirstPiece, h.fileLength, h.startOffset,
        h.head, h.playing⟩
    · exact Or.inl h
  · refine Or.inr ?_
    split_ifs
    · exact ⟨h.isResponseHeader, h.headLength, h.offset, h.complete, h.playing, h.before, h.behind,
        h.output⟩
    · exact ⟨h.isResponseHeader, h.headLength, h.offset, h.complete, h.playing, h.before, h.behind,
        h.output⟩
    · exact h

theorem Sound.onNoticeOpenServiceHeadLength (h : d.Sound s) (hFirst : s.headLength = none)
    (fresh : Nat → UInt8) : d.Sound (s.onNoticeOpenServiceHeadLength fresh d.headLength) := by
  unfold OpenServiceProxySender.onNoticeOpenServiceHeadLength
  rw [if_pos d.headLength_le]
  rcases h with h | h
  · have hStart : s.playingPosition = 0 := by
      rcases h.head with ⟨-, hZero⟩ | ⟨hSome, -⟩
      · exact hZero
      · rw [hFirst] at hSome
        cases hSome
    refine Or.inl ⟨h.sent, h.isResponseHeader, h.isSentFirstPiece, h.fileLength, h.startOffset,
      Or.inr ⟨rfl, h.startOffset, by simp, ?_⟩, Or.inl hStart⟩
    show List.take s.playingPosition _ = _
    rw [hStart, List.take_zero, List.take_zero]
  · rw [h.headLength] at hFirst
    cases hFirst

theorem started_sound (d : Drag) (httpResponse : Option HttpResponse) :
    ∃ s, d.started httpResponse = some s ∧ d.Sound s :=
  ⟨_, rfl, Or.inl ⟨rfl, rfl, rfl, rfl, rfl, Or.inl ⟨rfl, rfl⟩, Or.inl rfl⟩⟩

/-- In every run in which the first piece reaches the key frame the sender never leaves a
buffer, and what it has done is right. -/
theorem outputRight_of_run (hLength : d.contentLength < 2 ^ 32) {httpResponse : Option HttpResponse}
    {last : Option OpenServiceProxySender}
    (run : Reaches d.Step d.Met (d.started httpResponse) last) :
    ∃ s, last = some s ∧ d.OutputRight s := by
  have hSound : ∃ s, last = some s ∧ d.Sound s := by
    apply run.invariant (P := fun state => ∃ s, state = some s ∧ d.Sound s)
    · exact started_sound d httpResponse
    · rintro _ a _ ⟨s, rfl, h⟩ hMet rfl
      obtain ⟨hOffered, hReaches⟩ := hMet s rfl
      cases a with
      | noticeContentLength contentLength httpResponse =>
          exact ⟨_, rfl, h.onNoticeGetContentLength contentLength httpResponse⟩
      | noticeHeadLength fresh => exact ⟨_, rfl, h.onNoticeOpenServiceHeadLength hOffered fresh⟩
      | receive position buffers =>
          exact h.onRecvSubPiece hLength hOffered (hReaches position buffers rfl)
  obtain ⟨s, rfl, h⟩ := hSound
  exact ⟨s, rfl, h.elim Collecting.outputRight Playing.outputRight⟩

/-- A file of six bytes with a head of two, played from a key frame. -/
def sixBytes (keyFrame : Nat) (h : keyFrame < 6) : Drag where
  file := [10, 11, 12, 13, 14, 15]
  headLength := 2
  startOffset := 3
  getHeader := fun _ head => (keyFrame, head)
  file_lt := by decide
  headLength_le := by decide
  keyFrame_lt := h

/-- The file in one buffer, from its second byte on. -/
theorem outputRight_of_sixBytes :
    ∃ s, (sixBytes 1 (by decide)).next ((sixBytes 1 (by decide)).next
        ((sixBytes 1 (by decide)).started none) (.noticeHeadLength fun _ => 0))
        (.receive 0 [[10, 11, 12, 13, 14, 15]]) = some s ∧
      (sixBytes 1 (by decide)).OutputRight s := by
  apply outputRight_of_run (by decide)
  refine ((Reaches.refl ((sixBytes 1 (by decide)).started none)).tail (a := .noticeHeadLength fun _ => 0) ?_ rfl).tail
    (a := .receive 0 [[10, 11, 12, 13, 14, 15]]) ?_ rfl
  · rintro _ ⟨⟩
    exact ⟨rfl, nofun⟩
  · rintro _ ⟨⟩
    refine ⟨fun _ => ⟨by decide, rfl⟩, ?_⟩
    rintro _ _ ⟨⟩ _
    exact ⟨fun _ => by decide, fun _ _ => trivial⟩

/-- The buffer that ends the head ends before the key frame and is sent from there. -/
theorem outputRight_fails :
    ¬ ∀ (d : Drag) (httpResponse : Option HttpResponse) (last : Option OpenServiceProxySender),
      Reaches d.Step (fun state a => ∀ s, state = some s → d.Offered s a) (d.started httpResponse)
        last → ∃ s, last = some s ∧ d.OutputRight s := by
  intro hAll
  have hRun := hAll (sixBytes 5 (by decide)) none
    ((sixBytes 5 (by decide)).next ((sixBytes 5 (by decide)).next
      ((sixBytes 5 (by decide)).started none) (.noticeHeadLength fun _ => 0)) (.receive 0 [[10, 11]]))
  obtain ⟨s, hSome, -⟩ := hRun (by
    refine ((Reaches.refl _).tail (a := .noticeHeadLength fun _ => 0) ?_ rfl).tail
      (a := .receive 0 [[10, 11]]) ?_ rfl
    · rintro _ ⟨⟩
      exact rfl
    · rintro _ ⟨⟩
      exact fun _ => ⟨by decide, rfl⟩)
  have hNone : ((sixBytes 5 (by decide)).next ((sixBytes 5 (by decide)).next
      ((sixBytes 5 (by decide)).started none) (.noticeHeadLength fun _ => 0))
      (.receive 0 [[10, 11]])).isSome = false := by decide +kernel
  rw [hSome] at hNone
  cases hNone

end Drag

end Proxy
