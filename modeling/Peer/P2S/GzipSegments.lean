import Peer.P2S.GzipDecompresser

/-! Decompression of a stream in received buffers: how the stream is cut does not matter, except
that the last buffer handed out may be empty when the data fill the ones before it. -/
namespace P2S

open Basis

section Contract

variable {Stream : Type}

/-- The length of what follows the compressed data in a gzip stream. -/
def trailerLength : Nat := 8

/-- A call of `inflate` on the part `src` of a stream, with more of the stream to come and the
data that it has not put out yet: it goes on until its input is empty or its output is full. -/
structure InflatesAs (At : Stream → Bytes → Bytes → Prop) (src more pending : Bytes) (room : Nat)
    (inflated : Inflated Stream) : Prop where
  left_suffix : inflated.left <:+ src
  output_isPrefix : inflated.output <+: pending
  fits : inflated.output.length ≤ room
  ends : inflated.ret = .streamEnd →
    inflated.left ++ more = [] ∧ pending = inflated.output
  goesOn : inflated.ret ≠ .streamEnd →
    (inflated.ret = .ok ∨ inflated.ret = .bufError ∧ inflated.output = []) ∧
      At inflated.stream (inflated.left ++ more) (pending.drop inflated.output.length)
  room_left : inflated.ret ≠ .streamEnd → inflated.output.length < room →
    inflated.left = [] ∧ more ≠ []
  /-- The data do not wait for the trailer. -/
  room_left_trailer : inflated.ret ≠ .streamEnd → inflated.output.length < room →
    more.length ≤ trailerLength → pending = inflated.output

/-- The contract of the library on a gzip stream of some data: the states of the stream with what
is to come of it and of the data. -/
structure Inflates (zlib : Zlib Stream) (gzip data : Bytes) where
  At : Stream → Bytes → Bytes → Prop
  at_init : At zlib.inflateInit gzip data
  trailer_lt : trailerLength < gzip.length
  inflate : ∀ stream src more pending room, At stream (src ++ more) pending → 0 < room →
    InflatesAs At src more pending room (zlib.inflate stream src room)

end Contract

namespace GzipDecompresser

variable {Stream : Type} {zlib : Zlib Stream} {gzip data : Bytes}

/-- The buffers in order: full ones and the one that is filled next. -/
structure Filling (data pending : Bytes) (front : List Bytes) (buffer : Bytes) : Prop where
  full : ∀ each ∈ front, each.length = subPieceSize
  room : buffer.length < subPieceSize
  content : front.flatten ++ (buffer ++ pending) = data

/-- The decompresser has put out what it has of the data, and waits for the rest of the stream. -/
structure Waits (contract : Inflates zlib gzip data) (rest pending : Bytes)
    (decompresser : GzipDecompresser Stream) : Prop where
  handler : decompresser.handler = true
  incomplete : decompresser.isDecompressComplete = false
  at_stream : contract.At decompresser.stream rest pending
  filling : Filling data pending (nextBuffer decompresser.subPieceBufferDeque).1
    (nextBuffer decompresser.subPieceBufferDeque).2

/-- All of the data in buffers, of which the last may have to have room left. -/
structure Queued (data : Bytes) (short : Prop) (front : List Bytes) (last : Bytes) : Prop where
  full : ∀ each ∈ front, each.length = subPieceSize
  last_le : last.length ≤ subPieceSize
  content : front.flatten ++ last = data
  last_lt : short → last.length < subPieceSize

/-- The decompresser has all of the data. -/
structure Completed (data : Bytes) (short : Prop) (decompresser : GzipDecompresser Stream) :
    Prop where
  handler : decompresser.handler = true
  complete : decompresser.isDecompressComplete = true
  queued : ∃ front last, decompresser.subPieceBufferDeque = front ++ [last] ∧
    Queued data short front last

/-- What a listener is handed. -/
structure InOrder (data : Bytes) (queue : List Bytes) : Prop where
  content : queue.flatten = data
  full : ∀ each ∈ queue.dropLast, each.length = subPieceSize
  none_empty : ∀ each ∈ queue, each ≠ []

/-- The claim about a stream received in some buffers and a last one. -/
def Streams (data : Bytes) (earlier : List Bytes) (answers : List Answer) : Prop :=
  ∃ queue, answers = List.replicate earlier.length ⟨false, none⟩ ++ [⟨true, some queue⟩] ∧
    InOrder data queue

@[simp] theorem nextBuffer_nil : nextBuffer [] = ([], []) := rfl

theorem nextBuffer_concat_full {front : List Bytes} {buffer : Bytes}
    (h : buffer.length = subPieceSize) :
    nextBuffer (front ++ [buffer]) = (front ++ [buffer], []) := by
  unfold nextBuffer
  rw [List.getLast?_concat]
  dsimp only
  rw [if_pos h]

theorem nextBuffer_concat {front : List Bytes} {buffer : Bytes}
    (h : buffer.length < subPieceSize) : nextBuffer (front ++ [buffer]) = (front, buffer) := by
  unfold nextBuffer
  rw [List.getLast?_concat]
  dsimp only
  rw [if_neg (Nat.ne_of_lt h), List.dropLast_concat]

/-- Output that fits in the buffer is in order behind what is there. -/
theorem Filling.append {pending output : Bytes} {front : List Bytes} {buffer : Bytes}
    (h : Filling data pending front buffer) (hOutput : output <+: pending)
    (hFits : output.length ≤ subPieceSize - buffer.length) :
    Filling data (pending.drop output.length) (nextBuffer (front ++ [buffer ++ output])).1
      (nextBuffer (front ++ [buffer ++ output])).2 := by
  obtain ⟨hFull, hRoom, hContent⟩ := h
  obtain ⟨pending, rfl⟩ := hOutput
  rw [List.drop_left]
  by_cases hEnd : (buffer ++ output).length = subPieceSize
  · rw [nextBuffer_concat_full hEnd]
    refine ⟨?_, Nat.succ_pos _, ?_⟩
    · intro each hEach
      obtain hEach | hEach := List.mem_append.mp hEach
      · exact hFull each hEach
      · rw [List.mem_singleton.mp hEach]
        exact hEnd
    · rw [← hContent]
      simp
  · have hShort : (buffer ++ output).length < subPieceSize := by
      rw [List.length_append] at *
      omega
    rw [nextBuffer_concat hShort]
    exact ⟨hFull, hShort, by rw [← hContent, List.append_assoc]⟩

/-- A buffer in which nothing is put. -/
theorem Filling.append_nil {pending : Bytes} {front : List Bytes} {buffer : Bytes}
    (h : Filling data pending front buffer) :
    Filling data pending (nextBuffer (front ++ [buffer])).1 (nextBuffer (front ++ [buffer])).2 := by
  rw [nextBuffer_concat h.room]
  exact h

/-- What the data fill but for the last buffer. -/
theorem length_flatten_of_full {front : List Bytes}
    (h : ∀ each ∈ front, each.length = subPieceSize) :
    front.flatten.length = subPieceSize * front.length := by
  induction front with
  | nil => rfl
  | cons each front ih =>
      rw [List.flatten_cons, List.length_append, List.length_cons, h each List.mem_cons_self,
        ih fun other hOther => h other (List.mem_cons_of_mem _ hOther), Nat.mul_succ, Nat.add_comm]

/-- The stream is not at its end, or the decompresser has completed it. -/
def Decompressed (contract : Inflates zlib gzip data) (more : Bytes) (short : Prop)
    (decompresser : GzipDecompresser Stream) : Prop :=
  (more = [] ∧ Completed data short decompresser) ∨
    (more ≠ [] ∧ ∃ pending, Waits contract more pending decompresser ∧
      (more.length ≤ trailerLength → pending = []))

theorem Decompressed.mono {contract : Inflates zlib gzip data} {more : Bytes} {short short' : Prop}
    {decompresser : GzipDecompresser Stream} (h : Decompressed contract more short decompresser)
    (hShort : short' → short) : Decompressed contract more short' decompresser := by
  obtain ⟨hMore, hHandler, hComplete, front, last, hDeque, hFull, hLast, hContent, hLt⟩ | hWaits := h
  · exact .inl ⟨hMore, hHandler, hComplete, front, last, hDeque, hFull, hLast, hContent,
      fun hShort' => hLt (hShort hShort')⟩
  · exact .inr hWaits

/-- The call of `inflate` in a round. -/
def call (zlib : Zlib Stream) (decompresser : GzipDecompresser Stream) (src : Bytes) :
    Inflated Stream :=
  zlib.inflate decompresser.stream src
    (subPieceSize - (nextBuffer decompresser.subPieceBufferDeque).2.length)

/-- What it has put out is in the buffer. -/
def wrote (zlib : Zlib Stream) (decompresser : GzipDecompresser Stream) (src : Bytes) :
    GzipDecompresser Stream :=
  { decompresser with
    stream := (call zlib decompresser src).stream
    subPieceBufferDeque := (nextBuffer decompresser.subPieceBufferDeque).1 ++
      [(nextBuffer decompresser.subPieceBufferDeque).2 ++ (call zlib decompresser src).output] }

section Round

variable {decompresser : GzipDecompresser Stream} {src : Bytes}

theorem round_of_streamEnd (h : (call zlib decompresser src).ret = .streamEnd) :
    round zlib (decompresser, src) = .inr { decompresser with
      stream := zlib.inflateEnd (call zlib decompresser src).stream
      subPieceBufferDeque := (nextBuffer decompresser.subPieceBufferDeque).1 ++
        [(nextBuffer decompresser.subPieceBufferDeque).2 ++ (call zlib decompresser src).output]
      isDecompressComplete := true } := by
  unfold call at *
  unfold round
  simp only [h]

theorem round_of_ok (h : (call zlib decompresser src).ret = .ok) :
    round zlib (decompresser, src) =
      (if subPieceSize - (nextBuffer decompresser.subPieceBufferDeque).2.length -
          (call zlib decompresser src).output.length = 0 then
        .inl (wrote zlib decompresser src, (call zlib decompresser src).left)
      else .inr (wrote zlib decompresser src)) := by
  unfold wrote call at *
  unfold round
  simp only [h]

theorem round_of_bufError (h : (call zlib decompresser src).ret = .bufError)
    (hOutput : (call zlib decompresser src).output = [])
    (hRoom : (nextBuffer decompresser.subPieceBufferDeque).2.length < subPieceSize) :
    round zlib (decompresser, src) = .inr { decompresser with
      stream := (call zlib decompresser src).stream
      subPieceBufferDeque := (nextBuffer decompresser.subPieceBufferDeque).1 ++
        [(nextBuffer decompresser.subPieceBufferDeque).2] } := by
  unfold call at *
  unfold round
  simp only [h, hOutput]
  rw [if_neg]
  rw [List.length_nil]
  omega

/-- The loop ends, with the stream at its end or all of the input taken. -/
theorem exists_end {contract : Inflates zlib gzip data} {more pending : Bytes}
    (h : Waits contract (src ++ more) pending decompresser) :
    ∃ last decompresser', Visits (proceed (round zlib)) (decompresser, src) last ∧
      round zlib last = .inr decompresser' ∧
        Decompressed contract more (pending = []) decompresser' := by
  generalize hLength : pending.length = n
  induction n using Nat.strong_induction_on generalizing decompresser src pending with
  | _ n ih =>
      obtain ⟨hHandler, hIncomplete, hAt, hFilling⟩ := h
      have hRoom := hFilling.room
      have hCall : InflatesAs contract.At src more pending
          (subPieceSize - (nextBuffer decompresser.subPieceBufferDeque).2.length)
          (call zlib decompresser src) := contract.inflate _ _ _ _ _ hAt (by omega)
      by_cases hEnd : (call zlib decompresser src).ret = .streamEnd
      · obtain ⟨hLeft, hPending⟩ := hCall.ends hEnd
        have hContent := hFilling.content
        have hFits := hCall.fits
        rw [hPending] at hContent
        refine ⟨_, _, Visits.refl _, round_of_streamEnd hEnd, .inl ⟨(List.append_eq_nil_iff.mp hLeft).2,
          hHandler, rfl, _, _, rfl, hFilling.full, ?_, hContent, fun hNone => ?_⟩⟩
        · rw [List.length_append]
          omega
        · rw [← hPending, hNone, List.append_nil]
          exact hRoom
      · obtain ⟨hRet, hAt'⟩ := hCall.goesOn hEnd
        have hFilled := hFilling.append hCall.output_isPrefix hCall.fits
        obtain hOk | ⟨hError, hNone⟩ := hRet
        · have hRound := round_of_ok hOk
          by_cases hFull : subPieceSize - (nextBuffer decompresser.subPieceBufferDeque).2.length -
              (call zlib decompresser src).output.length = 0
          · rw [if_pos hFull] at hRound
            have hLess : (pending.drop (call zlib decompresser src).output.length).length < n := by
              have hLe := hCall.output_isPrefix.length_le
              rw [List.length_drop]
              omega
            have hWaits : Waits contract ((call zlib decompresser src).left ++ more) _
                (wrote zlib decompresser src) := ⟨hHandler, hIncomplete, hAt', hFilled⟩
            have hSome : pending ≠ [] := by
              rintro rfl
              rw [List.prefix_nil.mp hCall.output_isPrefix, List.length_nil] at hFull
              omega
            obtain ⟨last, result, hVisits, hResult, hDone⟩ := ih _ hLess hWaits rfl
            exact ⟨last, result, hVisits.head (proceed_eq_some.mpr hRound), hResult,
              hDone.mono fun hNone => absurd hNone hSome⟩
          · rw [if_neg hFull] at hRound
            obtain ⟨hLeft, hMore⟩ := hCall.room_left hEnd (by omega)
            rw [hLeft, List.nil_append] at hAt'
            refine ⟨_, _, Visits.refl _, hRound,
              .inr ⟨hMore, _, ⟨hHandler, hIncomplete, hAt', hFilled⟩, fun hTrailer => ?_⟩⟩
            rw [hCall.room_left_trailer hEnd (by omega) hTrailer, List.drop_length]
        · have hRoomLeft : (call zlib decompresser src).output.length <
              subPieceSize - (nextBuffer decompresser.subPieceBufferDeque).2.length := by
            rw [hNone, List.length_nil]
            omega
          obtain ⟨hLeft, hMore⟩ := hCall.room_left hEnd hRoomLeft
          rw [hLeft, List.nil_append, hNone, List.length_nil, List.drop_zero] at hAt'
          refine ⟨_, _, Visits.refl _, round_of_bufError hError hNone hRoom,
            .inr ⟨hMore, _, ⟨hHandler, hIncomplete, hAt', hFilling.append_nil⟩, fun hTrailer => ?_⟩⟩
          rw [hCall.room_left_trailer hEnd hRoomLeft hTrailer, hNone]

theorem settles_decompress {contract : Inflates zlib gzip data} {more pending : Bytes}
    (h : Waits contract (src ++ more) pending decompresser) :
    Settles (fun rounds => decompress zlib rounds decompresser src)
      (Decompressed contract more (pending = [])) :=
  settles_loop_iff.mpr (exists_end h)

/-- What comes of a received buffer: the queue at the end of the stream, and nothing before. -/
def Answered (contract : Inflates zlib gzip data) (more : Bytes) (short : Prop) :
    GzipDecompresser Stream × Answer → Prop
  | (decompresser, answer) =>
    (more = [] ∧ ∃ front last, answer = ⟨true, some (front ++ [last])⟩ ∧
      Queued data short front last) ∨
    (more ≠ [] ∧ answer = ⟨false, none⟩ ∧ ∃ pending, Waits contract more pending decompresser ∧
      (more.length ≤ trailerLength → pending = []))

theorem settles_onRecvData {contract : Inflates zlib gzip data} {more pending : Bytes}
    {fileOffset : Nat} (h : Waits contract (src ++ more) pending decompresser)
    (hOffset : fileOffset < 512 * 1024) :
    Settles (fun rounds => decompresser.onRecvData zlib rounds src fileOffset)
      (Answered contract more (pending = [])) := by
  simp only [onRecvData, if_neg (Nat.not_le.mpr hOffset), h.incomplete, if_neg Bool.false_ne_true]
  apply (settles_decompress h).map
  rintro result (⟨hMore, hHandler, hComplete, front, last, hDeque, hQueued⟩ | ⟨hMore, hWaits⟩)
  · rw [hComplete, hHandler, Bool.and_true, if_pos rfl, hDeque]
    exact .inl ⟨hMore, front, last, rfl, hQueued⟩
  · obtain ⟨pending, hWaits, hTrailer⟩ := hWaits
    rw [hWaits.incomplete, Bool.false_and, if_neg Bool.false_ne_true]
    exact .inr ⟨hMore, rfl, pending, hWaits, hTrailer⟩

end Round

/-- The answers to the buffers of a stream. -/
def Handed (data : Bytes) (count : Nat) (short : Prop) (answers : List Answer) : Prop :=
  ∃ front last, answers =
      List.replicate count ⟨false, none⟩ ++ [⟨true, some (front ++ [last])⟩] ∧
    Queued data short front last

/-- However a stream is cut, its data come out at its end. If the trailer comes in a buffer of its
own, the last buffer of the queue has room left. -/
theorem settles_receive {contract : Inflates zlib gzip data} {earlier : List Bytes}
    {last pending : Bytes} {decompresser : GzipDecompresser Stream} {fileOffset : Nat}
    (h : Waits contract (earlier.flatten ++ last) pending decompresser) (hLast : last ≠ [])
    (hOffset : fileOffset + earlier.flatten.length < 512 * 1024) :
    Settles (fun rounds => receive zlib rounds decompresser fileOffset (earlier ++ [last]))
      (Handed data earlier.length
        (if earlier = [] then pending = [] else last.length ≤ trailerLength)) := by
  induction earlier generalizing decompresser fileOffset pending with
  | nil =>
      have hWaits : Waits contract (last ++ []) pending decompresser := by simpa using h
      have hAnswer := settles_onRecvData hWaits hOffset
      simp only [List.nil_append, receive]
      apply hAnswer.bind
      rintro ⟨result, answer⟩ (⟨-, front, final, rfl, hQueued⟩ | ⟨hMore, -⟩)
      · exact .const ⟨front, final, rfl, hQueued⟩
      · exact absurd rfl hMore
  | cons first earlier ih =>
      rw [List.flatten_cons, List.append_assoc] at h
      rw [List.flatten_cons, List.length_append] at hOffset
      have hMore : earlier.flatten ++ last ≠ [] := fun hNil => hLast (List.append_eq_nil_iff.mp hNil).2
      have hAnswer := settles_onRecvData h (by omega : fileOffset < 512 * 1024)
      simp only [List.cons_append, receive]
      apply hAnswer.bind
      rintro ⟨result, answer⟩ (⟨hNil, -⟩ | ⟨-, rfl, pending', hWaits, hTrailer⟩)
      · exact absurd hNil hMore
      · apply (ih hWaits (by omega : fileOffset + first.length + _ < 512 * 1024)).map
        rintro answers ⟨front, final, rfl, hFull, hLe, hContent, hLt⟩
        refine ⟨front, final, rfl, hFull, hLe, hContent, fun hShort => hLt ?_⟩
        rw [if_neg (List.cons_ne_nil _ _)] at hShort
        by_cases hEarlier : earlier = []
        · rw [if_pos hEarlier]
          exact hTrailer (by simpa [hEarlier] using hShort)
        · rw [if_neg hEarlier]
          exact hShort

theorem Queued.length_eq {short : Prop} {front : List Bytes} {last : Bytes}
    (h : Queued data short front last) :
    data.length = subPieceSize * front.length + last.length := by
  rw [← h.content, List.length_append, length_flatten_of_full h.full]

/-- The decompresser before the first buffer. -/
theorem waits_start (contract : Inflates zlib gzip data) :
    Waits contract gzip data (start (create zlib)) :=
  ⟨rfl, rfl, contract.at_init, ⟨fun _ hEach => absurd hEach List.not_mem_nil, Nat.succ_pos _, rfl⟩⟩

/-- Data that do not fill their last buffer are handed out in order. -/
theorem Handed.streams {short : Prop} {earlier : List Bytes} {answers : List Answer}
    (h : Handed data earlier.length short answers) (hLength : data.length % subPieceSize ≠ 0) :
    Streams data earlier answers := by
  obtain ⟨front, last, rfl, hQueued⟩ := h
  refine ⟨_, rfl, ?_, ?_, ?_⟩
  · rw [List.flatten_concat]
    exact hQueued.content
  · rw [List.dropLast_concat]
    exact hQueued.full
  · intro each hEach
    obtain hEach | hEach := List.mem_append.mp hEach
    · rintro rfl
      exact absurd (hQueued.full [] hEach) (Nat.ne_of_lt (Nat.succ_pos _))
    · rintro rfl
      rw [hQueued.length_eq, ← List.mem_singleton.mp hEach, List.length_nil, Nat.add_zero,
        Nat.mul_mod_right] at hLength
      exact hLength rfl

/-- Of data that fill their buffers the last buffer of the queue is empty when it has to have room
left. -/
theorem Handed.not_streams {short : Prop} {earlier : List Bytes} {answers : List Answer}
    (h : Handed data earlier.length short answers) (hShort : short)
    (hLength : data.length % subPieceSize = 0) : ¬ Streams data earlier answers := by
  obtain ⟨front, last, rfl, hQueued⟩ := h
  rintro ⟨queue, hAnswers, hInOrder⟩
  have hQueue := List.append_cancel_left hAnswers
  simp only [List.cons.injEq, Answer.mk.injEq, Option.some.injEq, true_and, and_true] at hQueue
  subst hQueue
  rw [hQueued.length_eq, Nat.mul_add_mod, Nat.mod_eq_of_lt (hQueued.last_lt hShort)] at hLength
  exact hInOrder.none_empty last (List.mem_append_right _ (List.mem_singleton_self _))
    (List.eq_nil_of_length_eq_zero hLength)

/-- A stream whose trailer comes in a buffer of its own. -/
theorem settles_trailer {body trailer : Bytes} (contract : Inflates zlib (body ++ trailer) data)
    (hTrailer : trailer ≠ []) (hLe : trailer.length ≤ trailerLength) (h : body.length < 512 * 1024)
    (hLength : data.length % subPieceSize = 0) :
    Settles (fun rounds => receive zlib rounds (start (create zlib)) 0 ([body] ++ [trailer]))
      fun answers => ¬ Streams data [body] answers := by
  have hWaits : Waits contract ([body].flatten ++ trailer) data (start (create zlib)) := by
    rw [List.flatten_singleton]
    exact waits_start contract
  have hOffset : 0 + [body].flatten.length < 512 * 1024 := by
    rw [List.flatten_singleton, Nat.zero_add]
    exact h
  apply (settles_receive hWaits hTrailer hOffset).mono
  intro answers hHanded
  apply hHanded.not_streams _ hLength
  rw [if_neg (List.cons_ne_nil _ _)]
  exact hLe

/-- However a stream is cut, its data are handed out in order exactly if they do not fill their
last buffer. -/
theorem streams_iff (contract : Inflates zlib gzip data) (h : gzip.length < 512 * 1024) :
    (∀ earlier last, last ≠ [] → earlier.flatten ++ last = gzip →
      Settles (fun rounds => receive zlib rounds (start (create zlib)) 0 (earlier ++ [last]))
        (Streams data earlier)) ↔ data.length % subPieceSize ≠ 0 := by
  constructor
  · intro hAll hLength
    have hLong := contract.trailer_lt
    obtain ⟨body, trailer, rfl, hTrailer⟩ : ∃ body trailer, gzip = body ++ trailer ∧
        trailer.length = trailerLength :=
      ⟨gzip.take (gzip.length - trailerLength), gzip.drop (gzip.length - trailerLength),
        (List.take_append_drop _ _).symm, by rw [List.length_drop]; omega⟩
    have hSome : trailer ≠ [] := List.ne_nil_of_length_pos (hTrailer ▸ Nat.succ_pos 7)
    rw [List.length_append] at h
    obtain ⟨answers, hReturns, hNot⟩ :=
      settles_trailer contract hSome (Nat.le_of_eq hTrailer) (by omega) hLength
    exact hNot ((hAll [body] trailer hSome (by rw [List.flatten_singleton])).elim
      ⟨answers, hReturns, rfl⟩)
  · rintro hLength earlier last hLast rfl
    rw [List.length_append] at h
    apply (settles_receive (waits_start contract) hLast (by omega)).mono
    intro answers hHanded
    exact hHanded.streams hLength

/-- A library for a test: it puts out the data when it has come to the trailer. -/
def testZlib (gzip data : Bytes) : Zlib (Bytes × Bytes) where
  inflateInit := (gzip, data)
  inflate := fun (rest, pending) src room =>
    let rest' := rest.drop src.length
    let output := if rest'.length ≤ trailerLength then pending.take room else []
    let ret : Ret :=
      if rest' = [] ∧ output.length < room then .streamEnd
      else if src = [] ∧ output = [] then .bufError
      else .ok
    ⟨ret, (rest', pending.drop output.length), [], output⟩
  inflateEnd := id

/-- What it puts out in a call. -/
theorem testZlib_output {more pending output : Bytes} {room : Nat}
    (h : output = if more.length ≤ trailerLength then pending.take room else []) :
    output <+: pending ∧ output.length ≤ room ∧
      (output.length < room → more.length ≤ trailerLength → pending = output) := by
  by_cases hTrailer : more.length ≤ trailerLength
  · rw [if_pos hTrailer] at h
    subst h
    refine ⟨List.take_prefix _ _, List.length_take_le _ _, fun hRoom _ => ?_⟩
    rw [List.length_take] at hRoom
    exact (List.take_of_length_le (by omega)).symm
  · rw [if_neg hTrailer] at h
    subst h
    exact ⟨List.nil_prefix, Nat.zero_le _, fun _ hLe => absurd hLe hTrailer⟩

/-- It follows the contract. -/
def testInflates {gzip : Bytes} (data : Bytes) (h : trailerLength < gzip.length) :
    Inflates (testZlib gzip data) gzip data where
  At stream rest pending := stream = (rest, pending)
  at_init := rfl
  trailer_lt := h
  inflate := by
    rintro _ src more pending room rfl hRoom
    unfold testZlib
    dsimp only
    rw [List.drop_left]
    generalize hOutput : (if more.length ≤ trailerLength then pending.take room else []) = output
    obtain ⟨hIsPrefix, hFits, hTrailer⟩ := testZlib_output hOutput.symm
    by_cases hEnd : more = [] ∧ output.length < room
    · have hPending : pending = output := hTrailer hEnd.2 (by rw [hEnd.1]; exact Nat.zero_le _)
      rw [if_pos hEnd]
      exact ⟨List.nil_suffix, hIsPrefix, hFits, fun _ => ⟨hEnd.1, hPending⟩,
        fun hNot => absurd rfl hNot, fun hNot => absurd rfl hNot, fun hNot => absurd rfl hNot⟩
    · rw [if_neg hEnd]
      refine ⟨List.nil_suffix, hIsPrefix, hFits, fun hRet => ?_, fun _ => ⟨?_, rfl⟩,
        fun _ hLess => ⟨rfl, fun hNil => hEnd ⟨hNil, hLess⟩⟩, fun _ => hTrailer⟩
      · split at hRet <;> cases hRet
      · by_cases hNone : src = [] ∧ output = []
        · rw [if_pos hNone]
          exact .inr ⟨rfl, hNone.2⟩
        · rw [if_neg hNone]
          exact .inl rfl

/-- The stream of three bytes, stored in one block. -/
def threeBytes : Bytes :=
  [0x1f, 0x8b, 8, 0, 0, 0, 0, 0, 4, 3,
    1, 3, 0, 0xfc, 0xff, 1, 2, 3, 0x1d, 0x80, 0xbc, 0x55, 3, 0, 0, 0]

theorem streams_iff_threeBytes :
    threeBytes.length < 512 * 1024 ∧
    ((∀ earlier last, last ≠ [] → earlier.flatten ++ last = threeBytes →
      Settles (fun rounds => receive (testZlib threeBytes [1, 2, 3]) rounds
        (start (create (testZlib threeBytes [1, 2, 3]))) 0 (earlier ++ [last]))
        (Streams [1, 2, 3] earlier)) ↔ [1, 2, 3].length % subPieceSize ≠ 0) :=
  ⟨by decide, streams_iff (testInflates [1, 2, 3] (by decide)) (by decide)⟩

/-- The compressed data of 1024 zeros, stored in one block. -/
def storedBody : Bytes :=
  [0x1f, 0x8b, 8, 0, 0, 0, 0, 0, 4, 3, 1, 0, 4, 0xff, 0xfb] ++ List.replicate 1024 0

/-- Their trailer. -/
def storedTrailer : Bytes := [0x2e, 0xaf, 0xb5, 0xef, 0, 4, 0, 0]

/-- The trailer comes in a buffer of its own: behind the full buffer an empty one is handed
out. -/
theorem streams_fails :
    ¬ Settles (fun rounds => receive (testZlib (storedBody ++ storedTrailer) (List.replicate 1024 0))
        rounds (start (create (testZlib (storedBody ++ storedTrailer) (List.replicate 1024 0)))) 0
        ([storedBody] ++ [storedTrailer]))
      (Streams (List.replicate 1024 0) [storedBody]) := by
  have hBody : storedBody.length = 1039 := by
    unfold storedBody
    rw [List.length_append, List.length_replicate]
    rfl
  have hLong : trailerLength < (storedBody ++ storedTrailer).length := by
    rw [List.length_append, hBody]
    decide
  intro hRight
  obtain ⟨answers, hReturns, hNot⟩ := settles_trailer (testInflates (List.replicate 1024 0) hLong)
    (List.cons_ne_nil _ _) (by decide) (by omega) (by rw [List.length_replicate]; decide)
  exact hNot (hRight.elim ⟨answers, hReturns, rfl⟩)

end GzipDecompresser

end P2S
