import Peer.Network.HttpClient

/-! What the listener of an `HttpClient` is handed: the body in order, as long as it does not ask
for more in the wrong moment while bytes are on their way to it. -/
namespace Network

open Basis Storage

namespace HttpClient

variable {r : HttpResponse} {requestRangeBegin base : Nat} {s t : HttpClient}

/-! ## What was delivered -/

/-- The bytes that `OnRecvHttpDataSucced` was given. -/
def received (calls : List Callback) : Bytes :=
  calls.flatMap fun
    | .data bytes _ _ => bytes
    | _ => []

/-- The body comes in order, each buffer with its offsets, not more of it than is announced, and
it is complete when all of that has come. -/
structure Delivers (r : HttpResponse) (base : Nat) (calls : List Callback) : Prop where
  isPrefix : received calls <+: r.body
  offsets : ∀ before bytes fileOffset contentOffset,
    before ++ [.data bytes fileOffset contentOffset] <+: calls →
      contentOffset = (received before).length ∧ fileOffset = u32 (base + contentOffset)
  bounded : ∀ n ∈ r.contentLength, (received calls).length ≤ n
  completes : ∀ before, before ++ [.complete] <+: calls →
    ∀ n ∈ r.contentLength, (received before).length = n

theorem received_concat (calls : List Callback) (callback : Callback) :
    received (calls ++ [callback]) = received calls ++ received [callback] := List.flatMap_append

theorem received_data (calls : List Callback) (bytes : Bytes) (fileOffset contentOffset : Nat) :
    received (calls ++ [.data bytes fileOffset contentOffset]) = received calls ++ bytes := by
  rw [received_concat]
  simp [received]

/-- A split of a list with one more call. -/
theorem concat_isPrefix_cases {calls before : List Callback} {callback last : Callback}
    (h : before ++ [last] <+: calls ++ [callback]) :
    (before = calls ∧ last = callback) ∨ before ++ [last] <+: calls := by
  obtain hAll | hBefore := List.prefix_concat_iff.mp h
  · obtain ⟨rfl, hLast⟩ := List.append_inj' hAll rfl
    exact .inl ⟨rfl, List.singleton_inj.mp hLast⟩
  · exact .inr hBefore

theorem Delivers.nil : Delivers r base [] where
  isPrefix := List.nil_prefix
  offsets before _ _ _ h := absurd (List.prefix_nil.mp h) (by simp)
  bounded _ _ := Nat.zero_le _
  completes before h := absurd (List.prefix_nil.mp h) (by simp)

/-- The next bytes of the body. -/
theorem Delivers.data {calls : List Callback} {bytes : Bytes} (h : Delivers r base calls)
    (hNext : received calls ++ bytes <+: r.body)
    (hBound : ∀ n ∈ r.contentLength, (received calls ++ bytes).length ≤ n) :
    Delivers r base (calls ++
      [.data bytes (u32 (base + (received calls).length)) (received calls).length]) where
  isPrefix := by
    rw [received_data]
    exact hNext
  offsets before bytes' fileOffset contentOffset hSplit := by
    obtain ⟨rfl, hLast⟩ | hBefore := concat_isPrefix_cases hSplit
    · cases hLast
      exact ⟨rfl, rfl⟩
    · exact h.offsets _ _ _ _ hBefore
  bounded := by
    rw [received_data]
    exact hBound
  completes before hSplit := by
    obtain ⟨-, hLast⟩ | hBefore := concat_isPrefix_cases hSplit
    · cases hLast
    · exact h.completes _ hBefore

/-- A call without bytes; if it is the last one, all have come. -/
theorem Delivers.concat {calls : List Callback} {callback : Callback} (h : Delivers r base calls)
    (hNone : ∀ bytes fileOffset contentOffset, callback ≠ .data bytes fileOffset contentOffset)
    (hComplete : callback = .complete → ∀ n ∈ r.contentLength, (received calls).length = n) :
    Delivers r base (calls ++ [callback]) := by
  have hSame : received (calls ++ [callback]) = received calls := by
    rw [received_concat]
    cases callback with
    | data bytes fileOffset contentOffset => exact absurd rfl (hNone bytes fileOffset contentOffset)
    | headerSucced => exact List.append_nil _
    | dataShort bytes fileOffset contentOffset => exact List.append_nil _
    | complete => exact List.append_nil _
    | failed => exact List.append_nil _
  refine ⟨hSame ▸ h.isPrefix, fun before bytes fileOffset contentOffset hSplit => ?_,
    hSame ▸ h.bounded, fun before hSplit => ?_⟩
  · obtain ⟨-, hLast⟩ | hBefore := concat_isPrefix_cases hSplit
    · exact absurd hLast.symm (hNone _ _ _)
    · exact h.offsets _ _ _ _ hBefore
  · obtain ⟨rfl, hLast⟩ | hBefore := concat_isPrefix_cases hSplit
    · exact hComplete hLast.symm
    · exact h.completes _ hBefore

/-! ## The states -/

/-- How many bytes were delivered. -/
def delivered (s : HttpClient) : Nat := (received s.calls).length

/-- The connection is closed. -/
def Closed (s : HttpClient) : Prop := s.handler = false ∧ s.isConnected = false

/-- The header has not been read. -/
structure Awaits (r : HttpResponse) (s : HttpClient) : Prop where
  hasHeader : s.hasHeader = false
  fileOffset : s.fileOffset = 0
  isChunked : s.isChunked = false
  read : s.read = none
  coming : s.response ++ s.coming = r.header ++ r.body
  received : received s.calls = []

/-- A read that goes on with the body where it was left. -/
structure Reads (r : HttpResponse) (base : Nat) (s : HttpClient) (read : Read) : Prop where
  requesting : s.isRequesting = true
  read_eq : s.read = some read
  contentOffset : read.contentOffset = s.delivered
  fileOffset : read.fileOffset = u32 (base + s.delivered)
  length : s.delivered + read.buffer.length + read.networkLength = s.contentOffset
  coming : read.buffer ++ s.coming = r.body.drop s.delivered

/-- No callback is under way behind which the connection is closed. -/
def StaysOpen (s : HttpClient) : Prop := ∀ frame ∈ s.frames, frame = .nothing

/-- The header has been read. Either all bytes that were asked for are delivered, or a read is
under way, or the connection is about to be closed. -/
structure Streams (r : HttpResponse) (base : Nat) (s : HttpClient) : Prop where
  hasHeader : s.hasHeader = true
  isChunked : s.isChunked = r.contentLength.isNone
  contentLength : s.contentLength = r.contentLength.getD (2 ^ 32 - 1)
  delivered_le : s.delivered ≤ s.contentOffset
  contentOffset_le : s.contentOffset ≤ s.contentLength
  fileOffset : s.fileOffset = u32 (base + s.contentOffset)
  even : s.delivered = s.contentOffset →
    s.read = none ∧ s.isRequesting = false ∧ s.response ++ s.coming = r.body.drop s.contentOffset
  behind : s.delivered < s.contentOffset → s.response = []
  reading : s.StaysOpen → s.delivered < s.contentOffset → ∃ read, Reads r base s read

/-- No sum has wrapped and no assertion has failed. -/
def Intact (s : HttpClient) : Prop := s.wrapped = false ∧ s.faulted = false

/-- What holds in every state. -/
structure Invariant (r : HttpResponse) (base : Nat) (s : HttpClient) : Prop where
  delivers : Delivers r base s.calls
  fits : s.Intact
  stage : s.Closed ∨ ((s.handler = true ∧ s.isConnected = true) ∧
    (Awaits r s ∨ Streams r base s))

/-- When the listener may ask for more: after the header, for no length that overflows or is more
than a content holds, and, as long as bytes that it has asked for are not delivered, not for
none and not at the end. -/
def Met (s : HttpClient) : HttpEvent → Prop
  | .recv length => s.isConnected = true → s.hasHeader = true ∧ u32 length ≤ s.maxRecvLength ∧
      (s.contentOffset < s.contentLength → s.contentOffset + u32 length < 2 ^ 32) ∧
      (s.delivered < s.contentOffset → u32 length ≠ 0 ∧ s.contentOffset < s.contentLength)
  | _ => True

/-! ## Calls of the listener -/

theorem call_of_handler (h : s.handler = true) (callback : Callback) (frame : Frame) :
    s.call callback frame =
      { s with calls := s.calls ++ [callback], frames := frame :: s.frames } := by
  unfold call
  rw [if_pos h]

theorem close_closed : s.close.Closed := ⟨rfl, rfl⟩

theorem Closed.call (h : s.Closed) (callback : Callback) (frame : Frame) :
    (s.call callback frame).Closed ∧ (s.call callback frame).calls = s.calls ∧
      ((s.call callback frame).Intact ↔ s.Intact) := by
  unfold HttpClient.call
  rw [h.1, if_neg Bool.false_ne_true]
  cases frame with
  | nothing => exact ⟨h, rfl, Iff.rfl⟩
  | close => exact ⟨close_closed, rfl, Iff.rfl⟩
  | ended => exact ⟨close_closed, rfl, Iff.rfl⟩

theorem next_readFills (h : s.read = none) : s.next r requestRangeBegin .readFills = s := by
  simp only [HttpClient.next, h]

theorem next_readEof (h : s.read = none) : s.next r requestRangeBegin .readEof = s := by
  simp only [HttpClient.next, h]

theorem next_readFailed (h : s.read = none) : s.next r requestRangeBegin .readFailed = s := by
  simp only [HttpClient.next, h]

/-- The client as it was when a connection was closed, but for what nobody looks at. -/
structure Silent (s t : HttpClient) : Prop where
  closed : t.Closed
  calls : t.calls = s.calls
  intact : t.Intact ↔ s.Intact

theorem Closed.silent_call (h : t.Closed) (hCalls : t.calls = s.calls)
    (hIntact : t.Intact ↔ s.Intact) (callback : Callback) (frame : Frame) :
    Silent s (t.call callback frame) := by
  obtain ⟨hClosed, hCalls', hIntact'⟩ := h.call callback frame
  exact ⟨hClosed, hCalls'.trans hCalls, hIntact'.trans hIntact⟩

/-- A closed connection stays closed, and nobody is called. -/
theorem Closed.next (h : s.Closed) (e : HttpEvent) :
    Silent s (s.next r requestRangeBegin e) := by
  have hSame : Silent s s := ⟨h, rfl, Iff.rfl⟩
  have hDisconnected : ¬ s.isConnected = true := by
    rw [h.2]
    exact Bool.false_ne_true
  cases e with
  | get =>
      have hGet : s.httpGet = s := if_pos (.inl h.2)
      simp only [HttpClient.next, hGet, ite_self]
      exact hSame
  | recv length =>
      simp only [HttpClient.next, httpRecv]
      rw [if_pos h.2]
      exact hSame
  | close => exact ⟨close_closed, rfl, Iff.rfl⟩
  | returns =>
      simp only [HttpClient.next, returns]
      split
      · exact hSame
      · exact ⟨h, rfl, Iff.rfl⟩
      · exact ⟨close_closed, rfl, Iff.rfl⟩
      · exact Closed.silent_call (by exact h) (by rfl) (by exact Iff.rfl) _ _
  | arrives bytes =>
      simp only [HttpClient.next]
      split
      · exact ⟨h, rfl, Iff.rfl⟩
      · exact hSame
  | header =>
      simp only [HttpClient.next]
      rw [if_neg fun hAll => hDisconnected hAll.2.1]
      exact hSame
  | headerFailed =>
      simp only [HttpClient.next]
      rw [if_neg fun hAll => hDisconnected hAll.2.1]
      exact hSame
  | readFills =>
      simp only [HttpClient.next, handleReadHttp]
      split
      · exact hSame
      · split
        · exact Closed.silent_call (by exact h) (by rfl) (by exact Iff.rfl) _ _
        · exact hSame
  | readEof =>
      simp only [HttpClient.next, handleReadHttpEof]
      split
      · exact hSame
      · split
        · split <;> exact Closed.silent_call (by exact h) (by rfl) (by exact Iff.rfl) _ _
        · exact hSame
  | readFailed =>
      simp only [HttpClient.next]
      split
      · exact hSame
      · split
        · exact Closed.silent_call (by exact h) (by rfl) (by exact Iff.rfl) _ _
        · exact hSame
  | recvTimeout =>
      simp only [HttpClient.next]
      rw [if_neg fun hAll => hDisconnected hAll.2.1]
      exact hSame

/-- A call without bytes. -/
theorem Awaits.call (h : Awaits r s) {callback : Callback} (hNone : HttpClient.received [callback] = [])
    (frames : List Frame) :
    Awaits r { s with calls := s.calls ++ [callback], frames := frames } where
  hasHeader := h.hasHeader
  fileOffset := h.fileOffset
  isChunked := h.isChunked
  read := h.read
  coming := h.coming
  received := by
    rw [received_concat, h.received, hNone]
    rfl

theorem Streams.call (h : Streams r base s) {callback : Callback}
    (hNone : HttpClient.received [callback] = []) {frames : List Frame}
    (hFrames : (∀ frame ∈ frames, frame = .nothing) → s.StaysOpen) :
    Streams r base { s with calls := s.calls ++ [callback], frames := frames } := by
  have hSame : delivered { s with calls := s.calls ++ [callback], frames := frames } = s.delivered := by
    unfold delivered
    rw [received_concat, hNone, List.append_nil]
  exact {
    hasHeader := h.hasHeader
    isChunked := h.isChunked
    contentLength := h.contentLength
    delivered_le := hSame ▸ h.delivered_le
    contentOffset_le := h.contentOffset_le
    fileOffset := h.fileOffset
    even := fun hEven => h.even (hSame ▸ hEven)
    behind := fun hLess => h.behind (hSame ▸ hLess)
    reading := fun hOpen hLess => by
      obtain ⟨read, hReads⟩ := h.reading (hFrames hOpen) (hSame ▸ hLess)
      exact ⟨read, hReads.requesting, hReads.read_eq, hSame ▸ hReads.contentOffset,
        hSame ▸ hReads.fileOffset, hSame ▸ hReads.length, hSame ▸ hReads.coming⟩ }

theorem Streams.frames (h : Streams r base s) {frames : List Frame}
    (hFrames : (∀ frame ∈ frames, frame = .nothing) → s.StaysOpen) :
    Streams r base { s with frames := frames } where
  hasHeader := h.hasHeader
  isChunked := h.isChunked
  contentLength := h.contentLength
  delivered_le := h.delivered_le
  contentOffset_le := h.contentOffset_le
  fileOffset := h.fileOffset
  even := h.even
  behind := h.behind
  reading hOpen hLess := by
    obtain ⟨read, hReads⟩ := h.reading (hFrames hOpen) hLess
    exact ⟨read, hReads.requesting, hReads.read_eq, hReads.contentOffset, hReads.fileOffset,
      hReads.length, hReads.coming⟩

/-! ## Bytes of the body -/

theorem contentLength_lt (r : HttpResponse) : r.contentLength.getD (2 ^ 32 - 1) < 2 ^ 32 := by
  cases hLength : r.contentLength with
  | none => decide
  | some n => exact r.contentLength_lt n hLength

/-- What goes on where the delivered bytes end is in the body. -/
theorem Delivers.append_isPrefix {bytes : Bytes} (h : Delivers r base s.calls)
    (hBytes : bytes <+: r.body.drop s.delivered) : received s.calls ++ bytes <+: r.body := by
  obtain ⟨rest, hRest⟩ := h.isPrefix
  have hDrop : r.body.drop s.delivered = rest := by
    rw [← hRest]
    exact List.drop_left
  rw [hDrop] at hBytes
  rw [← hRest]
  exact (List.prefix_append_right_inj _).mpr hBytes

/-- The next bytes, with the offsets that belong to them. -/
theorem Streams.delivers_data (h : Streams r base s) (hDelivers : Delivers r base s.calls)
    {bytes : Bytes} (hBytes : bytes <+: r.body.drop s.delivered)
    (hBound : s.delivered + bytes.length ≤ s.contentLength) :
    Delivers r base (s.calls ++ [.data bytes (u32 (base + s.delivered)) s.delivered]) := by
  apply hDelivers.data (hDelivers.append_isPrefix hBytes)
  intro n hn
  have hLength := h.contentLength
  rw [Option.mem_def.mp hn, Option.getD_some] at hLength
  rw [List.length_append, ← hLength]
  exact hBound

/-- `HttpRecv` at the end of the body, when all bytes are delivered. -/
theorem Streams.recvEnd (h : Streams r base s) (hDelivers : Delivers r base s.calls)
    (hFits : s.Intact) (hLive : s.handler = true ∧ s.isConnected = true)
    (hAll : s.delivered = s.contentOffset) (hEnd : s.contentLength ≤ s.contentOffset) :
    Invariant r base (s.call .complete .close) := by
  rw [call_of_handler hLive.1]
  refine ⟨hDelivers.concat (by simp) fun _ n hn => ?_, hFits,
    .inr ⟨hLive, .inr (h.call rfl fun hOpen => absurd (hOpen .close List.mem_cons_self) (by simp))⟩⟩
  have hLength := h.contentLength
  have hOffset := h.contentOffset_le
  rw [Option.mem_def.mp hn, Option.getD_some] at hLength
  change s.delivered = n
  omega

/-- `HttpRecv` of bytes that came with the header. -/
theorem Streams.recvBuffered {ask : Nat} (h : Streams r base s)
    (hDelivers : Delivers r base s.calls) (hFaulted : s.faulted = false)
    (hLive : s.handler = true ∧ s.isConnected = true) (hEven : s.delivered = s.contentOffset)
    (hAsk : s.contentOffset + ask ≤ s.contentLength) (hBuffered : ask ≤ s.response.length) :
    Invariant r base ({ s with
      wrapped := false
      response := s.response.drop ask
      fileOffset := u32 (base + (s.contentOffset + ask))
      contentOffset := s.contentOffset + ask }.call
      (.data (s.response.take ask) s.fileOffset s.contentOffset) .nothing) := by
  obtain ⟨hRead, hRequesting, hComing⟩ := h.even hEven
  have hTake : (s.response.take ask).length = ask := List.length_take_of_le hBuffered
  have hBytes : s.response.take ask <+: r.body.drop s.delivered := by
    rw [hEven, ← hComing]
    exact (List.take_prefix _ _).trans (List.prefix_append _ _)
  have hData := h.delivers_data hDelivers hBytes (by omega)
  rw [call_of_handler (by exact hLive.1), h.fileOffset, ← hEven]
  have hDelivered : (received (s.calls ++
      [.data (s.response.take ask) (u32 (base + s.delivered)) s.delivered])).length =
      s.delivered + ask := by
    rw [received_data, List.length_append, hTake]
    rfl
  exact ⟨hData, ⟨rfl, hFaulted⟩, .inr ⟨hLive, .inr {
    hasHeader := h.hasHeader
    isChunked := h.isChunked
    contentLength := h.contentLength
    delivered_le := Nat.le_of_eq hDelivered
    contentOffset_le := by
      dsimp only
      omega
    fileOffset := rfl
    even := fun _ => by
      refine ⟨hRead, hRequesting, ?_⟩
      dsimp only
      rw [← List.drop_append_of_le_length hBuffered, hComing, List.drop_drop, hEven]
    behind := fun hLess => absurd hDelivered (Nat.ne_of_lt hLess)
    reading := fun _ hLess => absurd hDelivered (Nat.ne_of_lt hLess) }⟩⟩

/-- `HttpRecv` while a read is under way, or behind one that did not bring all. -/
theorem Streams.recvBehind (h : Streams r base s) (hDelivers : Delivers r base s.calls)
    (hFaulted : s.faulted = false) (hLive : s.handler = true ∧ s.isConnected = true)
    (hLess : s.delivered < s.contentOffset) :
    Invariant r base { s with wrapped := false, response := [] } :=
  ⟨hDelivers, ⟨rfl, hFaulted⟩, .inr ⟨hLive, .inr {
    hasHeader := h.hasHeader
    isChunked := h.isChunked
    contentLength := h.contentLength
    delivered_le := h.delivered_le
    contentOffset_le := h.contentOffset_le
    fileOffset := h.fileOffset
    even := fun hEven => absurd hEven (Nat.ne_of_lt hLess)
    behind := fun _ => rfl
    reading := fun hOpen _ => by
      obtain ⟨read, hReads⟩ := h.reading hOpen hLess
      exact ⟨read, hReads.requesting, hReads.read_eq, hReads.contentOffset, hReads.fileOffset,
        hReads.length, hReads.coming⟩ }⟩⟩

/-- `HttpRecv` that starts a read for what the buffer does not have. -/
theorem Streams.recvRead {ask : Nat} (h : Streams r base s) (hDelivers : Delivers r base s.calls)
    (hFaulted : s.faulted = false) (hLive : s.handler = true ∧ s.isConnected = true)
    (hRequesting : ¬ s.isRequesting = true) (hAsk : s.contentOffset + ask ≤ s.contentLength)
    (hBuffered : s.response.length < ask) :
    Invariant r base { s with
      wrapped := false
      response := []
      isRequesting := true
      read := some ⟨s.response, ask - s.response.length, s.fileOffset, s.contentOffset⟩
      fileOffset := u32 (base + (s.contentOffset + ask))
      contentOffset := s.contentOffset + ask } := by
  have hLe := h.delivered_le
  exact ⟨hDelivers, ⟨rfl, hFaulted⟩, .inr ⟨hLive, .inr {
    hasHeader := h.hasHeader
    isChunked := h.isChunked
    contentLength := h.contentLength
    delivered_le := hLe.trans (Nat.le_add_right _ _)
    contentOffset_le := hAsk
    fileOffset := rfl
    even := fun hEven => by
      have hEven' : s.delivered = s.contentOffset + ask := hEven
      omega
    behind := fun _ => rfl
    reading := fun hOpen _ => by
      have hEven : s.delivered = s.contentOffset := by
        by_contra hNot
        obtain ⟨read, hReads⟩ := h.reading hOpen (by omega)
        exact hRequesting hReads.requesting
      obtain ⟨-, -, hComing⟩ := h.even hEven
      refine ⟨_, rfl, rfl, hEven.symm, ?_, ?_, ?_⟩
      · change s.fileOffset = u32 (base + s.delivered)
        rw [h.fileOffset, hEven]
      · change s.delivered + s.response.length + (ask - s.response.length) =
          s.contentOffset + ask
        omega
      · change s.response ++ s.coming = r.body.drop s.delivered
        rw [hComing, hEven] }⟩⟩

/-- `HttpRecv` where it may be called. -/
theorem Streams.httpRecv {length : Nat} (h : Streams r base s) (hDelivers : Delivers r base s.calls)
    (hFits : s.Intact) (hLive : s.handler = true ∧ s.isConnected = true)
    (hHolds : length ≤ s.maxRecvLength)
    (hWrap : s.contentOffset < s.contentLength → s.contentOffset + length < 2 ^ 32)
    (hAsked : s.delivered < s.contentOffset → length ≠ 0 ∧ s.contentOffset < s.contentLength) :
    Invariant r base (s.httpRecv length) := by
  have hLe := h.delivered_le
  unfold HttpClient.httpRecv
  rw [if_neg (ne_of_eq_of_ne hLive.2 (by decide)), if_neg (Nat.not_lt.mpr hHolds)]
  by_cases hEnd : s.contentLength ≤ s.contentOffset
  · rw [if_pos hEnd]
    refine h.recvEnd hDelivers hFits hLive ?_ hEnd
    by_contra hNot
    have hMore := hAsked (by omega)
    omega
  · rw [if_neg hEnd]
    have hSum := hWrap (Nat.lt_of_not_le hEnd)
    have hNoWrap : (s.wrapped || decide (2 ^ 32 ≤ s.contentOffset + length)) = false := by
      rw [hFits.1, Bool.false_or]
      exact decide_eq_false (Nat.not_le.mpr hSum)
    rw [u32_of_lt hSum, hNoWrap]
    generalize hAsk : (if s.contentLength < s.contentOffset + length then
      s.contentLength - s.contentOffset else length) = ask
    have hAskLe : s.contentOffset + ask ≤ s.contentLength := by
      split at hAsk <;> omega
    have hSome : s.delivered < s.contentOffset → 0 < ask := by
      intro hLess
      obtain ⟨hPos, -⟩ := hAsked hLess
      split at hAsk <;> omega
    have hLength := contentLength_lt r
    rw [← h.contentLength] at hLength
    have hFileOffset : u32 (s.fileOffset + ask) = u32 (base + (s.contentOffset + ask)) := by
      rw [h.fileOffset]
      unfold u32
      omega
    dsimp only
    rw [u32_of_lt (by omega : s.contentOffset + ask < 2 ^ 32), hFileOffset]
    by_cases hBuffered : ask ≤ s.response.length
    · have hEven : s.delivered = s.contentOffset := by
        by_contra hNot
        have hPos := hSome (by omega)
        rw [h.behind (by omega), List.length_nil] at hBuffered
        omega
      rw [if_pos hBuffered]
      exact h.recvBuffered hDelivers hFits.2 hLive hEven hAskLe hBuffered
    · rw [if_neg hBuffered]
      by_cases hRequesting : s.isRequesting = true
      · have hLess : s.delivered < s.contentOffset := by
          by_contra hNot
          rw [(h.even (by omega)).2.1] at hRequesting
          cases hRequesting
        rw [if_pos hRequesting]
        exact h.recvBehind hDelivers hFits.2 hLive hLess
      · rw [if_neg hRequesting]
        exact h.recvRead hDelivers hFits.2 hLive hRequesting hAskLe (Nat.lt_of_not_le hBuffered)

/-- A read that ends while the listener is in no callback is the one that goes on with the
body. -/
theorem Streams.reads_of_read {read : Read} (h : Streams r base s) (hFrames : s.frames = [])
    (hRead : s.read = some read) : s.delivered < s.contentOffset ∧ Reads r base s read := by
  have hLe := h.delivered_le
  have hLess : s.delivered < s.contentOffset := by
    by_contra hNot
    rw [(h.even (by omega)).1] at hRead
    cases hRead
  have hOpen : s.StaysOpen := by
    unfold StaysOpen
    rw [hFrames]
    exact fun _ hMem => absurd hMem List.not_mem_nil
  obtain ⟨read', hReads⟩ := h.reading hOpen hLess
  obtain rfl : read = read' := Option.some.inj (hRead.symm.trans hReads.read_eq)
  exact ⟨hLess, hReads⟩

/-- A read that was filled. -/
theorem Streams.handleReadHttp {read : Read} (h : Streams r base s)
    (hDelivers : Delivers r base s.calls) (hFits : s.Intact)
    (hLive : s.handler = true ∧ s.isConnected = true) (hFrames : s.frames = [])
    (hRead : s.read = some read) (hEnough : read.networkLength ≤ s.coming.length) :
    Invariant r base (s.handleReadHttp read) := by
  obtain ⟨hLess, hReads⟩ := h.reads_of_read hFrames hRead
  have hTake : (s.coming.take read.networkLength).length = read.networkLength :=
    List.length_take_of_le hEnough
  have hBytes : read.buffer ++ s.coming.take read.networkLength <+: r.body.drop s.delivered := by
    rw [← hReads.coming]
    exact (List.prefix_append_right_inj _).mpr (List.take_prefix _ _)
  have hLength : s.delivered + (read.buffer ++ s.coming.take read.networkLength).length =
      s.contentOffset := by
    rw [List.length_append, hTake, ← hReads.length, Nat.add_assoc]
  have hData := h.delivers_data hDelivers hBytes (hLength ▸ h.contentOffset_le)
  have hDelivered : (received (s.calls ++ [.data (read.buffer ++ s.coming.take read.networkLength)
      (u32 (base + s.delivered)) s.delivered])).length = s.contentOffset := by
    rw [received_data, List.length_append]
    exact hLength
  unfold HttpClient.handleReadHttp
  dsimp only
  rw [call_of_handler (by exact hLive.1), hReads.fileOffset, hReads.contentOffset]
  exact ⟨hData, hFits, .inr ⟨hLive, .inr {
    hasHeader := h.hasHeader
    isChunked := h.isChunked
    contentLength := h.contentLength
    delivered_le := Nat.le_of_eq hDelivered
    contentOffset_le := h.contentOffset_le
    fileOffset := h.fileOffset
    even := fun _ => by
      refine ⟨rfl, rfl, ?_⟩
      dsimp only
      rw [h.behind hLess, List.nil_append, ← hReads.length, Nat.add_assoc, ← List.drop_drop,
        ← hReads.coming, ← List.drop_drop, List.drop_left]
    behind := fun hMore => absurd hDelivered (Nat.ne_of_lt hMore)
    reading := fun _ hMore => absurd hDelivered (Nat.ne_of_lt hMore) }⟩⟩

/-- A read at the end of the connection: the listener gets what there is, and then it is closed. -/
theorem Streams.handleReadHttpEof {read : Read} (h : Streams r base s)
    (hDelivers : Delivers r base s.calls) (hFits : s.Intact)
    (hLive : s.handler = true ∧ s.isConnected = true) (hFrames : s.frames = [])
    (hRead : s.read = some read) (hShort : s.coming.length < read.networkLength) :
    Invariant r base (s.handleReadHttpEof read) := by
  obtain ⟨hLess, hReads⟩ := h.reads_of_read hFrames hRead
  have hBytes : read.buffer ++ s.coming <+: r.body.drop s.delivered := by rw [← hReads.coming]
  have hLength : s.delivered + (read.buffer ++ s.coming).length < s.contentOffset := by
    have hAll := hReads.length
    rw [List.length_append]
    omega
  have hData := h.delivers_data hDelivers hBytes (hLength.le.trans h.contentOffset_le)
  have hDelivered : (received (s.calls ++ [.data (read.buffer ++ s.coming)
      (u32 (base + s.delivered)) s.delivered])).length < s.contentOffset := by
    rw [received_data, List.length_append]
    exact hLength
  unfold HttpClient.handleReadHttpEof
  dsimp only
  rw [if_neg (not_not.mpr (h.behind hLess)), call_of_handler (by exact hLive.1), hReads.fileOffset,
    hReads.contentOffset]
  exact ⟨hData, hFits, .inr ⟨hLive, .inr {
    hasHeader := h.hasHeader
    isChunked := h.isChunked
    contentLength := h.contentLength
    delivered_le := hDelivered.le
    contentOffset_le := h.contentOffset_le
    fileOffset := h.fileOffset
    even := fun hEven => absurd hEven (Nat.ne_of_lt hDelivered)
    behind := fun _ => h.behind hLess
    reading := fun hOpen' _ => absurd (hOpen' .ended List.mem_cons_self) (by simp) }⟩⟩

/-! ## Runs -/

/-- Where the body begins in the file. -/
def begins (r : HttpResponse) (requestRangeBegin : Nat) : Nat :=
  if requestRangeBegin ≠ 0 then r.rangeBegin else 0

theorem begins_lt : begins r requestRangeBegin < 2 ^ 32 := by
  unfold begins
  split
  · exact r.rangeBegin_lt
  · exact Nat.two_pow_pos 32

theorem Invariant.of_closed (hDelivers : Delivers r base s.calls) (hFits : s.Intact)
    (h : s.Closed) : Invariant r base s := ⟨hDelivers, hFits, .inl h⟩

theorem Delivers.failed {calls : List Callback} (h : Delivers r base calls) :
    Delivers r base (calls ++ [.failed]) :=
  h.concat (fun _ _ _ hEq => by cases hEq) fun hEq => by cases hEq

/-- The header has come. -/
theorem Awaits.handleReadHttpHeader (h : Awaits r s)
    (hDelivers : Delivers r (begins r requestRangeBegin) s.calls) (hFits : s.Intact)
    (hLive : s.handler = true ∧ s.isConnected = true)
    (hHeader : r.header.length ≤ s.response.length) :
    Invariant r (begins r requestRangeBegin) (s.handleReadHttpHeader r requestRangeBegin) := by
  have hNone : (HttpClient.received (s.calls ++ [.headerSucced])).length = 0 := by
    rw [received_concat, h.received]
    rfl
  have hBody : s.response.drop r.header.length ++ s.coming = r.body := by
    rw [← List.drop_append_of_le_length hHeader, h.coming, List.drop_left]
  unfold HttpClient.handleReadHttpHeader
  dsimp only
  rw [call_of_handler (by exact hLive.1), h.isChunked, Bool.false_or, h.fileOffset, ← begins]
  have hCalls : Delivers r (begins r requestRangeBegin) (s.calls ++ [.headerSucced]) :=
    hDelivers.concat (fun _ _ _ hEq => by cases hEq) fun hEq => by cases hEq
  refine ⟨hCalls, hFits, .inr ⟨hLive, .inr ?_⟩⟩
  exact {
    hasHeader := rfl
    isChunked := rfl
    contentLength := rfl
    delivered_le := Nat.le_of_eq hNone
    contentOffset_le := Nat.zero_le _
    fileOffset := (u32_of_lt begins_lt).symm
    even := fun _ => ⟨h.read, rfl, hBody⟩
    behind := fun hLess => absurd hLess (Nat.not_lt_zero _)
    reading := fun _ hLess => absurd hLess (Nat.not_lt_zero _) }

/-- An event before the header has come. -/
theorem Awaits.next (h : Awaits r s) (hDelivers : Delivers r (begins r requestRangeBegin) s.calls)
    (hFits : s.Intact) (hLive : s.handler = true ∧ s.isConnected = true) (e : HttpEvent)
    (hMet : s.Met e) :
    Invariant r (begins r requestRangeBegin) (s.next r requestRangeBegin e) := by
  have hSame : Invariant r (begins r requestRangeBegin) s := ⟨hDelivers, hFits, .inr ⟨hLive, .inl h⟩⟩
  have hFailed : ∀ {t : HttpClient}, Awaits r t → t.calls = s.calls → t.Intact →
      (t.handler = true ∧ t.isConnected = true) →
      Invariant r (begins r requestRangeBegin) (t.call .failed .close) := by
    intro t hAwaits hCalls hIntact hLive'
    rw [call_of_handler hLive'.1]
    exact ⟨hCalls ▸ hDelivers.failed, hIntact, .inr ⟨hLive', .inl (hAwaits.call rfl _)⟩⟩
  cases e with
  | get =>
      simp only [HttpClient.next, httpGet]
      rw [if_neg (ne_of_eq_of_ne h.hasHeader (by decide))]
      split
      · exact hSame
      · exact ⟨hDelivers, hFits, .inr ⟨hLive, .inl
          ⟨h.hasHeader, h.fileOffset, h.isChunked, h.read, h.coming, h.received⟩⟩⟩
  | recv length =>
      obtain ⟨hHeader, -⟩ := hMet hLive.2
      rw [h.hasHeader] at hHeader
      cases hHeader
  | close => exact .of_closed hDelivers hFits close_closed
  | returns =>
      simp only [HttpClient.next, returns]
      split
      · exact hSame
      · exact ⟨hDelivers, hFits, .inr ⟨hLive, .inl
          ⟨h.hasHeader, h.fileOffset, h.isChunked, h.read, h.coming, h.received⟩⟩⟩
      · exact .of_closed hDelivers hFits close_closed
      · rw [if_neg (ne_of_eq_of_ne h.isChunked (by decide))]
        refine hFailed ?_ ?_ ?_ ?_
        · exact ⟨h.hasHeader, h.fileOffset, h.isChunked, h.read, h.coming, h.received⟩
        · rfl
        · exact hFits
        · exact hLive
  | arrives bytes =>
      simp only [HttpClient.next]
      split
      · refine ⟨hDelivers, hFits, .inr ⟨hLive, .inl
          ⟨h.hasHeader, h.fileOffset, h.isChunked, h.read, ?_, h.received⟩⟩⟩
        dsimp only
        rw [List.append_assoc, List.take_append_drop, h.coming]
      · exact hSame
  | header =>
      simp only [HttpClient.next]
      split
      · rename_i hReady
        exact h.handleReadHttpHeader hDelivers hFits hLive hReady.2.2.2.2.2
      · exact hSame
  | headerFailed =>
      simp only [HttpClient.next]
      split
      · refine hFailed ?_ ?_ ?_ ?_
        · exact ⟨h.hasHeader, h.fileOffset, h.isChunked, h.read, h.coming, h.received⟩
        · rfl
        · exact hFits
        · exact hLive
      · exact hSame
  | readFills =>
      rw [next_readFills h.read]
      exact hSame
  | readEof =>
      rw [next_readEof h.read]
      exact hSame
  | readFailed =>
      rw [next_readFailed h.read]
      exact hSame
  | recvTimeout =>
      simp only [HttpClient.next]
      split
      · exact hFailed h rfl hFits hLive
      · exact hSame

/-- An event after the header has come. -/
theorem Streams.next (h : Streams r base s) (hDelivers : Delivers r base s.calls)
    (hFits : s.Intact) (hLive : s.handler = true ∧ s.isConnected = true) (e : HttpEvent)
    (hMet : s.Met e) : Invariant r base (s.next r requestRangeBegin e) := by
  have hSame : Invariant r base s := ⟨hDelivers, hFits, .inr ⟨hLive, .inr h⟩⟩
  have hHasHeader : ¬ s.hasHeader = false := by
    rw [h.hasHeader]
    exact Bool.noConfusion
  cases e with
  | get =>
      simp only [HttpClient.next, h.hasHeader, if_true]
      exact hSame
  | recv length =>
      obtain ⟨-, hHolds, hWrap, hAsked⟩ := hMet hLive.2
      exact h.httpRecv hDelivers hFits hLive hHolds hWrap hAsked
  | close => exact .of_closed hDelivers hFits close_closed
  | returns =>
      simp only [HttpClient.next, returns]
      split
      · exact hSame
      · rename_i rest hFrames
        refine ⟨hDelivers, hFits, .inr ⟨hLive, .inr (h.frames ?_)⟩⟩
        intro hOpen frame hMem
        rw [hFrames] at hMem
        obtain rfl | hRest := List.mem_cons.mp hMem
        · rfl
        · exact hOpen frame hRest
      · exact .of_closed hDelivers hFits close_closed
      · -- The connection has ended, and without an announced length the body with it.
        rw [call_of_handler (by exact hLive.1)]
        refine ⟨?_, hFits, .inr ⟨hLive, .inr (h.call ?_ ?_)⟩⟩
        · apply hDelivers.concat
          · intro _ _ _ hEq
            split at hEq <;> cases hEq
          · intro hComplete n hn
            have hChunked : s.isChunked = true := by
              by_contra hNot
              rw [if_neg hNot] at hComplete
              cases hComplete
            rw [h.isChunked, Option.mem_def.mp hn] at hChunked
            cases hChunked
        · split <;> rfl
        · exact fun hOpen => absurd (hOpen .close List.mem_cons_self) (by simp)
  | arrives bytes =>
      simp only [HttpClient.next]
      rw [if_neg fun hAll => hHasHeader hAll.2.1]
      exact hSame
  | header =>
      simp only [HttpClient.next]
      rw [if_neg fun hAll => hHasHeader hAll.2.2.2.1]
      exact hSame
  | headerFailed =>
      simp only [HttpClient.next]
      rw [if_neg fun hAll => hHasHeader hAll.2.2.2.1]
      exact hSame
  | readFills =>
      simp only [HttpClient.next]
      split
      · exact hSame
      · rename_i read hRead
        split
        · rename_i hReady
          exact h.handleReadHttp hDelivers hFits hLive hReady.1 hRead hReady.2
        · exact hSame
  | readEof =>
      simp only [HttpClient.next]
      split
      · exact hSame
      · rename_i read hRead
        split
        · rename_i hReady
          exact h.handleReadHttpEof hDelivers hFits hLive hReady.1 hRead hReady.2
        · exact hSame
  | readFailed =>
      simp only [HttpClient.next]
      split
      · exact hSame
      · rename_i read hRead
        split
        · have hLess : s.delivered < s.contentOffset := by
            have hLe := h.delivered_le
            by_contra hNot
            rw [(h.even (by omega)).1] at hRead
            cases hRead
          have hSome : (received (s.calls ++ [.failed])).length < s.contentOffset := by
            rw [received_concat]
            simpa [received, delivered] using hLess
          rw [call_of_handler (by exact hLive.1)]
          exact ⟨hDelivers.failed, hFits, .inr ⟨hLive, .inr {
            hasHeader := h.hasHeader
            isChunked := h.isChunked
            contentLength := h.contentLength
            delivered_le := hSome.le
            contentOffset_le := h.contentOffset_le
            fileOffset := h.fileOffset
            even := fun hEven => absurd hEven (Nat.ne_of_lt hSome)
            behind := fun _ => h.behind hLess
            reading := fun hOpen _ => absurd (hOpen .close List.mem_cons_self) (by simp) }⟩⟩
        · exact hSame
  | recvTimeout =>
      simp only [HttpClient.next]
      split
      · rw [call_of_handler hLive.1]
        refine ⟨hDelivers.failed, hFits, .inr ⟨hLive, .inr (h.call rfl ?_)⟩⟩
        exact fun hOpen => absurd (hOpen .close List.mem_cons_self) (by simp)
      · exact hSame

theorem Invariant.next (h : Invariant r (begins r requestRangeBegin) s) (e : HttpEvent)
    (hMet : s.Met e) :
    Invariant r (begins r requestRangeBegin) (s.next r requestRangeBegin e) := by
  obtain ⟨hDelivers, hFits, hClosed | ⟨hLive, hAwaits | hStreams⟩⟩ := h
  · obtain ⟨hClosed', hCalls, hIntact⟩ := hClosed.next (r := r) e
    exact .of_closed (hCalls ▸ hDelivers) (hIntact.mpr hFits) hClosed'
  · exact hAwaits.next hDelivers hFits hLive e hMet
  · exact hStreams.next hDelivers hFits hLive e hMet

theorem invariant_connected (maxRecvLength contentLength : Nat) :
    Invariant r base (connected r maxRecvLength contentLength) :=
  ⟨.nil, ⟨rfl, rfl⟩, .inr ⟨⟨rfl, rfl⟩, .inl ⟨rfl, rfl, rfl, rfl, rfl, rfl⟩⟩⟩

/-- In every run in which the listener asks for the body as it may, whatever the socket does, the
body is delivered in order and with its offsets, nothing wraps, and nothing is read behind the
end of a content. -/
theorem delivers_of_run {maxRecvLength contentLength : Nat}
    (run : Reaches (Step r requestRangeBegin) Met (connected r maxRecvLength contentLength) s) :
    Delivers r (begins r requestRangeBegin) s.calls ∧ s.wrapped = false ∧ s.faulted = false := by
  have hInvariant : Invariant r (begins r requestRangeBegin) s := by
    apply run.invariant (invariant_connected maxRecvLength contentLength)
    rintro x a _ hx hMet ⟨-, rfl⟩
    exact hx.next a hMet
  exact ⟨hInvariant.delivers, hInvariant.fits⟩

/-- A body of one byte. -/
def oneByte : HttpResponse where
  header := [10]
  body := [7]
  contentLength := some 1
  contentLength_lt n hn := by
    obtain rfl := Option.some.inj hn
    decide
  rangeBegin := 0
  rangeBegin_lt := by decide

/-- The states of a run, with contents of 1024 bytes. -/
def after (r : HttpResponse) (events : List HttpEvent) : HttpClient :=
  events.foldl (fun s e => s.next r 0 e) (connected r 1024 0)

/-- The header comes without the body, and the listener asks for the byte. -/
def asksOnce : List HttpEvent := [.get, .arrives 1, .header, .returns, .recv 1]

theorem delivers_of_oneByte :
    Reaches (Step oneByte 0) Met (connected oneByte 1024 0) (after oneByte (asksOnce ++ [.readFills])) ∧
    Delivers oneByte (begins oneByte 0) (after oneByte (asksOnce ++ [.readFills])).calls ∧
      (after oneByte (asksOnce ++ [.readFills])).wrapped = false ∧
      (after oneByte (asksOnce ++ [.readFills])).faulted = false := by
  have hRun : Reaches (Step oneByte 0) Met (connected oneByte 1024 0)
      (after oneByte (asksOnce ++ [.readFills])) := by
    refine .tail (.tail (.tail (.tail (.tail (.tail (.refl _) (a := .get) trivial ⟨rfl, rfl⟩)
      (a := .arrives 1) trivial ⟨rfl, rfl⟩) (a := .header) trivial ⟨rfl, rfl⟩)
      (a := .returns) trivial ⟨rfl, rfl⟩) (a := .recv 1) ?_ ⟨rfl, rfl⟩)
      (a := .readFills) trivial ⟨by decide +kernel, rfl⟩
    exact fun _ => ⟨rfl, by decide +kernel, by decide +kernel, by decide +kernel⟩
  exact ⟨hRun, delivers_of_run hRun⟩

/-- The listener asks again before the byte has come: it is told that all is complete. A length of
more than a content holds fails the assertion. -/
theorem delivers_fails :
    ¬ Delivers oneByte 0 (after oneByte (asksOnce ++ [.recv 1])).calls ∧
      (after oneByte [.get, .arrives 1, .header, .returns, .recv 2000]).faulted = true := by
  refine ⟨fun h => ?_, by decide +kernel⟩
  have hCalls : (after oneByte (asksOnce ++ [.recv 1])).calls = [.headerSucced] ++ [.complete] := by
    decide +kernel
  have hNone := h.completes [.headerSucced] (hCalls ▸ List.prefix_refl _) 1 rfl
  revert hNone
  decide

end HttpClient

end Network
