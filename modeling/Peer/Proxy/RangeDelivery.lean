import Peer.Basis.Run
import Peer.P2P.RidInfoEntry
import Peer.Proxy.RangeSender

/-! What the player gets for a range, whatever the lengths of the buffers in which the file
is handed to the sender. -/
namespace Proxy

open Basis P2P

/-! ## Pieces of a file -/

section Slices

variable {α : Type*} {file : List α} {i j k : Nat}

/-- The elements from the first position on and before the second one. -/
def slice (file : List α) (i j : Nat) : List α := (file.take j).drop i

theorem slice_nil (h : j ≤ i) : slice file i j = [] := by
  apply List.drop_eq_nil_of_le
  exact (List.length_take_le j file).trans h

theorem slice_append (hFirst : i ≤ j) (hSecond : j ≤ k) :
    slice file i j ++ slice file j k = slice file i k := by
  have hLeft : slice file i j = (slice file i k).take (j - i) := by
    rw [slice, slice, List.take_drop, List.take_take]
    congr 2
    omega
  have hRight : slice file j k = (slice file i k).drop (j - i) := by
    rw [slice, slice, List.drop_drop]
    congr 1
    omega
  rw [hLeft, hRight, List.take_append_drop]

/-- A part of a buffer is a piece of the file. -/
theorem slice_of_buffer {position n offset length : Nat} (h : offset + length ≤ n) :
    ((((file.drop position).take n).drop offset).take length) =
      slice file (position + offset) (position + offset + length) := by
  rw [List.drop_take, List.take_take, List.drop_drop, slice, List.take_drop]
  congr 2
  omega

end Slices

/-! ## Runs -/

/-- What the driver does to the sender: it tells the length of the file, or hands over the
next bytes in buffers of these lengths. -/
inductive Event where
  | notice (response : Option HttpResponse) (localPlay : Bool)
  | deliver (lengths : List Nat) (localPlay : Bool)

/-- A sender and how much of the file it was given. -/
structure Delivery where
  sender : RangeProxySender
  position : Nat

/-- The next bytes in buffers of these lengths. -/
def cut (bytes : List UInt8) : List Nat → List (List UInt8)
  | [] => []
  | n :: lengths => bytes.take n :: cut (bytes.drop n) lengths

def next (file : List UInt8) (d : Delivery) : Event → Option Delivery
  | .notice response localPlay =>
    some { d with sender :=
      d.sender.onNoticeGetContentLength (UInt32.ofNat file.length) response localPlay }
  | .deliver lengths localPlay =>
    let buffers := cut (file.drop d.position) lengths
    (d.sender.onRecvSubPiece (UInt32.ofNat d.position) buffers localPlay).map fun sender =>
      { sender, position := d.position + buffers.flatten.length }

/-- A sender that was started with the range, before the file's byte at its playing
position. -/
def started (range : RangeInfo) : Delivery :=
  let sender := RangeProxySender.create.start (some range)
  { sender, position := sender.playingPosition.toNat }

/-- The last byte that is asked for. -/
def lastOf (file : List UInt8) (range : RangeInfo) : Nat :=
  min range.rangeEnd.toNat (file.length - 1)

/-- The header announces the bytes of the range, all bytes sent are those of the range that
were handed over, and the playing position is in the file. -/
structure Promise (file : List UInt8) (range : RangeInfo) (d : Delivery) : Prop where
  announced : ∀ header ∈ d.sender.headers, ∃ n : Nat,
    (n : Int) = lastOf file range + 1 - range.rangeBegin.toNat ∧
      header.properties "Content-Length" = some (toString n) ∧
      header.properties "Content-Range" = some (RangeProxySender.contentRange
        range.rangeBegin.toNat (lastOf file range) file.length)
  sent : d.sender.body =
    slice file range.rangeBegin.toNat (min (lastOf file range + 1) d.position)
  playing : d.sender.playingPosition.toNat ≤ file.length

/-- The sender knows the length, and what it sent is right so far. -/
structure Sending (file : List UInt8) (range : RangeInfo) (s : RangeProxySender)
    (position : Nat) : Prop where
  isRunning : s.isRunning = true
  fileLength : s.fileLength.toNat = file.length
  rangeInfo : ∃ rangeEnd, s.rangeInfo = some ⟨range.rangeBegin, rangeEnd⟩ ∧
    rangeEnd.toNat = lastOf file range
  announced : ∀ header ∈ s.headers, ∃ n : Nat,
    (n : Int) = lastOf file range + 1 - range.rangeBegin.toNat ∧
      header.properties "Content-Length" = some (toString n) ∧
      header.properties "Content-Range" = some (RangeProxySender.contentRange
        range.rangeBegin.toNat (lastOf file range) file.length)
  inside : position ≤ file.length
  sent : s.body = slice file range.rangeBegin.toNat (min (lastOf file range + 1) position)
  playing : s.playingPosition.toNat ≤ position ∨
    s.playingPosition.toNat = file.length ∧ lastOf file range + 1 ≤ position

variable {file : List UInt8} {range : RangeInfo} {s : RangeProxySender} {position : Nat}

theorem Sending.promise (h : Sending file range s position) : Promise file range ⟨s, position⟩ where
  announced := h.announced
  sent := h.sent
  playing := by
    have hInside := h.inside
    obtain hLe | ⟨hEq, -⟩ := h.playing
    · exact hLe.trans hInside
    · exact hEq.le

theorem toNat_length {n : Nat} (h : n < 2 ^ 32) : (UInt32.ofNat n).toNat = n :=
  UInt32.toNat_ofNat_of_lt' h

/-- `end - begin + 1` of an interval that is not longer than its bounds. -/
theorem toNat_width {a b : UInt32} (h : b.toNat ≤ a.toNat + 1) (hNext : a.toNat + 1 < 2 ^ 32) :
    (a - b + 1).toNat = a.toNat + 1 - b.toNat := by
  have hLt := b.toNat_lt
  rw [UInt32.toNat_add, UInt32.toNat_sub]
  simp only [UInt32.toNat_one]
  omega

theorem httpSendBuffer_eq {buffer : List UInt8} {offset length : UInt32}
    (h : offset.toNat + length.toNat ≤ buffer.length) :
    s.httpSendBuffer buffer offset length =
      some { s with body := s.body ++ (buffer.drop offset.toNat).take length.toNat } :=
  if_pos h

/-- A state in which more bytes were sent and the playing position has moved. -/
theorem Sending.advance (h : Sending file range s position) {stop : Nat} {more : List UInt8}
    {playingPosition : UInt32} (hInside : stop ≤ file.length)
    (hSent : s.body ++ more = slice file range.rangeBegin.toNat (min (lastOf file range + 1) stop))
    (hPlaying : playingPosition.toNat ≤ stop ∨
      playingPosition.toNat = file.length ∧ lastOf file range + 1 ≤ stop) :
    Sending file range { s with body := s.body ++ more, playingPosition } stop :=
  ⟨h.isRunning, h.fileLength, h.rangeInfo, h.announced, hInside, hSent, hPlaying⟩

/-- One buffer of the file at its place. The cases are where the buffer lies relative to the
two ends of the range. -/
theorem Sending.onAsyncGetSubPieceSucced (h : Sending file range s position)
    (hLength : file.length < 2 ^ 32) (hBegin : range.rangeBegin.toNat ≤ lastOf file range + 1)
    (hFile : file ≠ []) {n : Nat} (hN : position + n ≤ file.length) :
    ∃ t, s.onAsyncGetSubPieceSucced (UInt32.ofNat position) ((file.drop position).take n) = some t ∧
      Sending file range t (position + n) := by
  obtain ⟨rangeEnd, hRange, hEnd⟩ := h.rangeInfo
  have hBuffer : ((file.drop position).take n).length = n := by
    rw [List.length_take, List.length_drop]
    omega
  have hPos : 0 < file.length := List.length_pos_iff.mpr hFile
  have hLast : lastOf file range + 1 ≤ file.length := by
    unfold lastOf
    omega
  have hSize : (UInt32.ofNat n).toNat = n := toNat_length (by omega)
  have hStart : (UInt32.ofNat position).toNat = position := toNat_length (by omega)
  have hStop : (UInt32.ofNat position + UInt32.ofNat n).toNat = position + n := by
    rw [UInt32.toNat_add, hStart, hSize, Nat.mod_eq_of_lt (by omega)]
  have hNext : (rangeEnd + 1).toNat = lastOf file range + 1 := by
    rw [UInt32.toNat_add, hEnd, UInt32.toNat_one]
    exact Nat.mod_eq_of_lt (by omega)
  have hSent := h.sent
  have hGoOn : s.playingPosition.toNat ≤ position →
      (s.playingPosition + UInt32.ofNat n).toNat ≤ position + n := by
    intro hLe
    rw [UInt32.toNat_add, hSize]
    exact (Nat.mod_le _ _).trans (by omega)
  simp only [RangeProxySender.onAsyncGetSubPieceSucced, hBuffer, h.isRunning, Bool.true_eq_false,
    if_false, hRange, ge_iff_le, gt_iff_lt, UInt32.le_iff_toNat_le, UInt32.lt_iff_toNat_lt, hStart,
    hStop, hNext, hEnd]
  by_cases hDone : position + n ≤ s.playingPosition.toNat
  · rw [if_pos hDone]
    refine ⟨s, rfl, { h with inside := hN, sent := ?_, playing := ?_ }⟩
    · obtain hLe | ⟨-, hAll⟩ := h.playing
      · have hZero : n = 0 := by omega
        simp [hSent, hZero]
      · rw [hSent, min_eq_left hAll, min_eq_left (by omega)]
    · obtain hLe | ⟨hEq, hAll⟩ := h.playing
      · exact .inl (by omega)
      · exact .inr ⟨hEq, by omega⟩
  · have hBehind : s.playingPosition.toNat ≤ position := by
      obtain hLe | ⟨hEq, -⟩ := h.playing
      · exact hLe
      · omega
    rw [if_neg hDone]
    by_cases hFirst : position ≤ range.rangeBegin.toNat ∧ range.rangeBegin.toNat < position + n
    · have hEmpty : s.body = [] := by
        rw [hSent]
        exact slice_nil (by omega)
      have hOffset : (range.rangeBegin - UInt32.ofNat position).toNat =
          range.rangeBegin.toNat - position := by
        rw [UInt32.toNat_sub_of_le _ _ (UInt32.le_iff_toNat_le.mpr (by omega)), hStart]
      rw [if_pos hFirst]
      by_cases hEnds : lastOf file range + 1 < position + n
      · have hWidth := toNat_width (a := rangeEnd) (b := range.rangeBegin) (by omega) (by omega)
        rw [hEnd] at hWidth
        rw [if_pos hEnds, httpSendBuffer_eq (by rw [hOffset, hWidth, hBuffer]; omega), hOffset, hWidth]
        refine ⟨_, rfl, h.advance hN ?_ (.inr ⟨h.fileLength, by omega⟩)⟩
        rw [hEmpty, List.nil_append, slice_of_buffer (by omega), min_eq_left (by omega)]
        congr 1 <;> omega
      · have hWidth : (UInt32.ofNat position + UInt32.ofNat n - range.rangeBegin).toNat =
            position + n - range.rangeBegin.toNat := by
          rw [UInt32.toNat_sub_of_le _ _ (UInt32.le_iff_toNat_le.mpr (by omega)), hStop]
        rw [if_neg hEnds, httpSendBuffer_eq (by rw [hOffset, hWidth, hBuffer]; omega), hOffset, hWidth]
        refine ⟨_, rfl, h.advance hN ?_ (.inl (hGoOn hBehind))⟩
        rw [hEmpty, List.nil_append, slice_of_buffer (by omega), min_eq_right (by omega)]
        congr 1 <;> omega
    · rw [if_neg hFirst]
      by_cases hInner : range.rangeBegin.toNat ≤ position ∧ position ≤ lastOf file range
      · have hSoFar : s.body = slice file range.rangeBegin.toNat position := by
          rw [hSent, min_eq_right (by omega)]
        rw [if_pos hInner]
        by_cases hEnds : lastOf file range + 1 < position + n
        · have hWidth := toNat_width (a := rangeEnd) (b := UInt32.ofNat position) (by omega) (by omega)
          rw [hEnd, hStart] at hWidth
          rw [if_pos hEnds, httpSendBuffer_eq (by rw [hWidth, hBuffer, UInt32.toNat_zero]; omega), hWidth,
            UInt32.toNat_zero]
          refine ⟨_, rfl, h.advance hN ?_ (.inr ⟨h.fileLength, by omega⟩)⟩
          rw [hSoFar, slice_of_buffer (by omega), min_eq_left (by omega), Nat.add_zero,
            Nat.add_sub_cancel' (by omega), slice_append (by omega) (by omega)]
        · rw [if_neg hEnds, httpSendBuffer_eq (by rw [hSize, hBuffer, UInt32.toNat_zero]; omega), hSize,
            UInt32.toNat_zero]
          refine ⟨_, rfl, h.advance hN ?_ (.inl (hGoOn hBehind))⟩
          rw [hSoFar, slice_of_buffer (by omega), min_eq_right (by omega), Nat.add_zero,
            slice_append (by omega) (by omega)]
      · rw [if_neg hInner]
        by_cases hPast : lastOf file range < position
        · rw [if_pos hPast]
          have hSame : s.body ++ [] =
              slice file range.rangeBegin.toNat (min (lastOf file range + 1) (position + n)) := by
            rw [List.append_nil, hSent, min_eq_left (by omega), min_eq_left (by omega)]
          refine ⟨_, rfl, ?_⟩
          simpa [h.isRunning, hRange] using h.advance hN hSame (.inr ⟨h.fileLength, by omega⟩)
        · rw [if_neg hPast]
          refine ⟨s, rfl, { h with inside := hN, sent := ?_, playing := .inl (by omega) }⟩
          rw [hSent, slice_nil (by omega), slice_nil (by omega)]

/-- A call hands over consecutive buffers. -/
theorem Sending.recvBuffers (h : Sending file range s position)
    (hLength : file.length < 2 ^ 32) (hBegin : range.rangeBegin.toNat ≤ lastOf file range + 1)
    (hFile : file ≠ []) (lengths : List Nat) :
    ∃ t, s.recvBuffers (UInt32.ofNat position) (cut (file.drop position) lengths) = some t ∧
      Sending file range t (position + (cut (file.drop position) lengths).flatten.length) := by
  induction lengths generalizing s position with
  | nil => exact ⟨s, rfl, h⟩
  | cons n lengths ih =>
      have hInside := h.inside
      have hTake : (file.drop position).take n =
          (file.drop position).take (min n (file.length - position)) := by
        rw [← List.length_drop, ← List.take_eq_take_min]
      have hSize : ((file.drop position).take n).length = min n (file.length - position) := by
        rw [List.length_take, List.length_drop]
      have hNext : position + min n (file.length - position) ≤ file.length := by omega
      obtain ⟨t, hFirst, hSending⟩ := h.onAsyncGetSubPieceSucced hLength hBegin hFile hNext
      have hRest : (file.drop position).drop n =
          file.drop (position + min n (file.length - position)) := by
        rw [List.drop_drop]
        by_cases hLe : n ≤ file.length - position
        · rw [min_eq_left hLe]
        · rw [List.drop_eq_nil_of_le (by omega), List.drop_eq_nil_of_le (by omega)]
      obtain ⟨u, hCall, hDone⟩ := ih hSending
      refine ⟨u, ?_, ?_⟩
      · have hPosition : UInt32.ofNat position + UInt32.ofNat (min n (file.length - position)) =
            UInt32.ofNat (position + min n (file.length - position)) := by
          rw [← UInt32.ofNat_add]
        rw [cut, RangeProxySender.recvBuffers, hTake, hFirst, Option.bind_some, ← hTake, hSize, hPosition,
          hRest]
        exact hCall
      · rw [cut, List.flatten_cons, List.length_append, hSize, hRest, ← Nat.add_assoc]
        exact hDone

theorem Sending.sendHttpHeader (h : Sending file range s position)
    (hLength : file.length < 2 ^ 32) (hBegin : range.rangeBegin.toNat ≤ lastOf file range + 1)
    (hFile : file ≠ []) (response : Option HttpResponse) (localPlay : Bool) :
    Sending file range (s.sendHttpHeader response localPlay) position := by
  obtain ⟨rangeEnd, hRange, hEnd⟩ := h.rangeInfo
  have hPos : 0 < file.length := List.length_pos_iff.mpr hFile
  have hLast : lastOf file range + 1 ≤ file.length := by
    unfold lastOf
    omega
  have hWidth := toNat_width (a := rangeEnd) (b := range.rangeBegin) (by omega) (by omega)
  refine { h with announced := fun header hMem => ?_ }
  obtain hOld | hNew := List.mem_append.mp hMem
  · exact h.announced header hOld
  · refine ⟨lastOf file range + 1 - range.rangeBegin.toNat, by omega, ?_, ?_⟩
    · rw [List.mem_singleton.mp hNew]
      simp [hRange, HttpResponse.setContentLength, HttpResponse.setProperty, hWidth, hEnd]
    · rw [List.mem_singleton.mp hNew]
      simp [hRange, HttpResponse.setProperty, hEnd, h.fileLength]

theorem Sending.onNoticeGetContentLength (h : Sending file range s position)
    (hLength : file.length < 2 ^ 32) (hBegin : range.rangeBegin.toNat ≤ lastOf file range + 1)
    (hFile : file ≠ []) (response : Option HttpResponse) (localPlay : Bool) :
    Sending file range (s.onNoticeGetContentLength (UInt32.ofNat file.length) response localPlay)
      position := by
  obtain ⟨rangeEnd, hRange, hEnd⟩ := h.rangeInfo
  have hPos : 0 < file.length := List.length_pos_iff.mpr hFile
  have hKnown : UInt32.ofNat file.length = s.fileLength := by
    apply UInt32.toNat_inj.mp
    rw [toNat_length hLength, h.fileLength]
  have hOpen : rangeEnd ≠ RangeInfo.npos := by
    intro hNpos
    rw [hNpos] at hEnd
    have hValue : RangeInfo.npos.toNat = 4294967295 := by decide
    unfold lastOf at hEnd
    omega
  have hInside : ¬ rangeEnd ≥ UInt32.ofNat file.length := by
    rw [ge_iff_le, UInt32.le_iff_toNat_le, toNat_length hLength, hEnd]
    unfold lastOf
    omega
  unfold RangeProxySender.onNoticeGetContentLength
  rw [if_neg (by simp [h.isRunning])]
  split
  · exact h
  · have hSame : (s.rangeInfo.map fun range =>
        if range.rangeEnd = RangeInfo.npos then
          ({ range with rangeEnd := UInt32.ofNat file.length - 1 } : RangeInfo)
        else if range.rangeEnd ≥ UInt32.ofNat file.length then
          { range with rangeEnd := UInt32.ofNat file.length - 1 }
        else range) = s.rangeInfo := by
      rw [hRange, Option.map_some, if_neg hOpen, if_neg hInside]
    dsimp only
    rw [hSame, hKnown]
    cases response with
    | none => exact { h with }
    | some response => exact Sending.sendHttpHeader { h with } hLength hBegin hFile (some response) localPlay

/-- The range once its end is known to be in the file. -/
def clip (file : List UInt8) (range : RangeInfo) : RangeInfo :=
  if range.rangeEnd = RangeInfo.npos then { range with rangeEnd := UInt32.ofNat file.length - 1 }
  else if range.rangeEnd ≥ UInt32.ofNat file.length then
    { range with rangeEnd := UInt32.ofNat file.length - 1 }
  else range

theorem clip_eq (hLength : file.length < 2 ^ 32) (hFile : file ≠ []) :
    ∃ rangeEnd, clip file range = ⟨range.rangeBegin, rangeEnd⟩ ∧
      rangeEnd.toNat = lastOf file range := by
  have hPos : 0 < file.length := List.length_pos_iff.mpr hFile
  have hSize : (UInt32.ofNat file.length).toNat = file.length := toNat_length hLength
  have hEnd : (UInt32.ofNat file.length - 1).toNat = file.length - 1 := by
    rw [UInt32.toNat_sub_of_le _ _ (UInt32.le_iff_toNat_le.mpr (by rw [hSize]; exact hPos)), hSize]
    rfl
  unfold clip lastOf
  split
  · rename_i hNpos
    have hValue : RangeInfo.npos.toNat = 4294967295 := by decide
    refine ⟨_, rfl, ?_⟩
    rw [hEnd, hNpos, hValue]
    omega
  · split
    · rename_i hPast
      rw [ge_iff_le, UInt32.le_iff_toNat_le, hSize] at hPast
      refine ⟨_, rfl, ?_⟩
      rw [hEnd]
      omega
    · rename_i hInside
      rw [ge_iff_le, UInt32.le_iff_toNat_le, hSize] at hInside
      refine ⟨_, rfl, ?_⟩
      omega

/-- The first notice of the length. -/
theorem sending_of_notice (hLength : file.length < 2 ^ 32)
    (hBegin : range.rangeBegin.toNat ≤ lastOf file range + 1) (hFile : file ≠ [])
    (response : Option HttpResponse) (localPlay : Bool) :
    Sending file range ((started range).sender.onNoticeGetContentLength (UInt32.ofNat file.length)
      response localPlay) (started range).position := by
  obtain ⟨rangeEnd, hClip, hEnd⟩ := (clip_eq hLength hFile : ∃ rangeEnd, clip file range = ⟨range.rangeBegin, rangeEnd⟩ ∧
    rangeEnd.toNat = lastOf file range)
  have hPos : 0 < file.length := List.length_pos_iff.mpr hFile
  have hPosition : (started range).position ≤ range.rangeBegin.toNat := by
    show (range.rangeBegin / 1024 * 1024).toNat ≤ _
    rw [UInt32.toNat_mul, UInt32.toNat_div]
    have hStep : (1024 : UInt32).toNat = 1024 := rfl
    rw [hStep]
    exact (Nat.mod_le _ _).trans (Nat.div_mul_le_self _ _)
  have hSilent : Sending file range { (started range).sender with
      fileLength := UInt32.ofNat file.length, rangeInfo := some (clip file range) }
      (started range).position := by
    refine ⟨rfl, toNat_length hLength, ⟨rangeEnd, by rw [hClip], hEnd⟩, ?_, ?_, ?_, .inl (Nat.le_refl _)⟩
    · intro header hMem
      cases hMem
    · unfold lastOf at hBegin
      omega
    · exact (slice_nil (by omega)).symm
  cases response with
  | none => exact hSilent
  | some response => exact hSilent.sendHttpHeader hLength hBegin hFile (some response) localPlay

theorem Sending.next (h : Sending file range s position) (hLength : file.length < 2 ^ 32)
    (hBegin : range.rangeBegin.toNat ≤ lastOf file range + 1) (hFile : file ≠ []) (event : Event) :
    ∃ d, next file ⟨s, position⟩ event = some d ∧ Sending file range d.sender d.position := by
  cases event with
  | notice response localPlay =>
      exact ⟨_, rfl, h.onNoticeGetContentLength hLength hBegin hFile response localPlay⟩
  | deliver lengths localPlay =>
      have hHeader : Sending file range
          (if s.isResponseHeader then s else s.sendHttpHeader none localPlay) position := by
        split
        · exact h
        · exact h.sendHttpHeader hLength hBegin hFile none localPlay
      obtain ⟨t, hCall, hSending⟩ := hHeader.recvBuffers hLength hBegin hFile lengths
      refine ⟨⟨t, _⟩, ?_, hSending⟩
      simp [Proxy.next, RangeProxySender.onRecvSubPiece, hCall]

theorem Sending.execute {d : Delivery} (h : Sending file range d.sender d.position)
    (hLength : file.length < 2 ^ 32)
    (hBegin : range.rangeBegin.toNat ≤ lastOf file range + 1) (hFile : file ≠ [])
    (events : List Event) :
    ∃ t, execute (Proxy.next file) d events = some t ∧ Promise file range t := by
  induction events generalizing d with
  | nil => exact ⟨d, rfl, h.promise⟩
  | cons event rest ih =>
      obtain ⟨middle, hFirst, hSending⟩ := h.next hLength hBegin hFile event
      obtain ⟨t, hRest, hPromise⟩ := ih hSending
      refine ⟨t, ?_, hPromise⟩
      rw [Basis.execute, hFirst]
      exact hRest

/-- A property asks for no range whose begin is past its end. -/
theorem RangeInfo.parse_le {parse2 : Text → Option UInt32} {text : Text} {range : RangeInfo}
    (h : RangeInfo.parse parse2 text = some range) :
    range.rangeBegin ≤ range.rangeEnd := by
  unfold RangeInfo.parse at h
  dsimp only at h
  split at h
  · cases h
  · split at h
    · cases h
    · split at h
      · cases h
      · split at h
        · obtain ⟨rangeBegin, -, h⟩ := Option.bind_eq_some_iff.mp h
          obtain ⟨rangeEnd, -, h⟩ := Option.bind_eq_some_iff.mp h
          split at h
          · cases h
          · split at h
            · cases h
            · rename_i hOrder
              cases h
              by_cases hNpos : rangeEnd = RangeInfo.npos
              · subst hNpos
                show rangeBegin ≤ RangeInfo.npos
                rw [UInt32.le_iff_toNat_le]
                have hValue : RangeInfo.npos.toNat = 4294967295 := by decide
                have hLt := rangeBegin.toNat_lt
                omega
              · rw [not_and] at hOrder
                exact UInt32.not_lt.mp (hOrder hNpos)
        · cases h

/-- Whatever is told and handed over after the first notice of the length, exactly the range
is sent, if and only if the range begins at most one past its end and in the file or at its
end. A range of a Range property can only begin past the end of the file. -/
theorem promise_iff {parse2 : Text → Option UInt32} {request : Request} {range : RangeInfo}
    (hRange : request.rangeInfo parse2 = some range) {file : List UInt8} (hFile : file ≠ [])
    (hLength : file.length < 2 ^ 32) :
    ((∀ response localPlay events, ∃ d,
        execute (next file) (started range) (.notice response localPlay :: events) = some d ∧
          Promise file range d) ↔
      range.rangeBegin.toNat ≤ range.rangeEnd.toNat + 1 ∧ range.rangeBegin.toNat ≤ file.length) ∧
    ∀ text, request = .property text → range.rangeBegin ≤ range.rangeEnd := by
  have hPos : 0 < file.length := List.length_pos_iff.mpr hFile
  have hIff : range.rangeBegin.toNat ≤ lastOf file range + 1 ↔
      range.rangeBegin.toNat ≤ range.rangeEnd.toNat + 1 ∧ range.rangeBegin.toNat ≤ file.length := by
    unfold lastOf
    omega
  refine ⟨?_, fun text hText => ?_⟩
  · rw [← hIff]
    constructor
    · intro hAll
      obtain ⟨d, hRun, hPromise⟩ := hAll (some ⟨200, fun _ => none⟩) false []
      cases hRun
      obtain ⟨n, hWidth, -⟩ := hPromise.announced _ (List.mem_singleton.mpr rfl)
      omega
    · intro hBegin response localPlay events
      have hStart := sending_of_notice hLength hBegin hFile response localPlay
      obtain ⟨d, hRun, hPromise⟩ := Sending.execute (d := ⟨_, _⟩) hStart hLength hBegin hFile events
      exact ⟨d, hRun, hPromise⟩
  · subst hText
    exact RangeInfo.parse_le hRange

section Samples

/-- An open range of a file of five bytes that comes in buffers of two and one byte; the
middle buffers lie past the first. -/
theorem promise_of_openRange : ∃ d,
    execute (next [1, 2, 3, 4, 5]) (started ⟨3, RangeInfo.npos⟩)
      [.notice none false, .deliver [2, 1] true, .deliver [0, 7] true] = some d ∧
    Promise [1, 2, 3, 4, 5] ⟨3, RangeInfo.npos⟩ d ∧ d.sender.body = [4, 5] := by
  have hParse : (Request.property " Bytes=3 - ".toList).rangeInfo decimal =
      some ⟨3, RangeInfo.npos⟩ := by decide +kernel
  have hAll := (promise_iff hParse (List.cons_ne_nil 1 [2, 3, 4, 5]) (by simp)).1.mpr (by decide)
  obtain ⟨d, hRun, hPromise⟩ := hAll none false [.deliver [2, 1] true, .deliver [0, 7] true]
  refine ⟨d, hRun, hPromise, ?_⟩
  have hBody : (execute (next [1, 2, 3, 4, 5]) (started ⟨3, RangeInfo.npos⟩)
      [.notice none false, .deliver [2, 1] true, .deliver [0, 7] true]).map
        (fun d => d.sender.body) = some [4, 5] := by decide +kernel
  rw [hRun] at hBody
  exact Option.some.inj hBody

/-- A play URL may ask for the range from 10 to 5 of a file of 20 bytes: the header announces
nearly 2^32 bytes, and the first buffer is read far behind its end. A Range property may begin
past the end of the file. -/
theorem promise_fails :
    ((Request.playUrl (Network.Uri.parseurl "http://127.0.0.1/x?rangeStart=10&rangeEnd=5".toList)).rangeInfo
        decimal = some ⟨10, 5⟩ ∧
      (∃ d, execute (next (List.replicate 20 0)) (started ⟨10, 5⟩)
          [.notice (some ⟨200, fun _ => none⟩) false] = some d ∧
        (d.sender.headers.map fun header => header.properties "Content-Length") =
          [some "4294967292"] ∧ ¬ Promise (List.replicate 20 0) ⟨10, 5⟩ d) ∧
      execute (next (List.replicate 20 0)) (started ⟨10, 5⟩)
        [.notice (some ⟨200, fun _ => none⟩) false, .deliver [20] false] = none) ∧
    (Request.property "bytes=30-".toList).rangeInfo decimal = some ⟨30, RangeInfo.npos⟩ ∧
      ∃ d, execute (next (List.replicate 20 0)) (started ⟨30, RangeInfo.npos⟩)
          [.notice (some ⟨200, fun _ => none⟩) false] = some d ∧
        (d.sender.headers.map fun header => header.properties "Content-Length") =
          [some "4294967286"] ∧ ¬ Promise (List.replicate 20 0) ⟨30, RangeInfo.npos⟩ d := by
  refine ⟨⟨by decide +kernel, ⟨_, rfl, by decide +kernel, ?_⟩, by decide +kernel⟩, by decide +kernel,
    _, rfl, by decide +kernel, ?_⟩
  · intro hPromise
    obtain ⟨n, hWidth, -⟩ := hPromise.announced _ (List.mem_singleton.mpr rfl)
    simp [lastOf] at hWidth
  · intro hPromise
    obtain ⟨n, hWidth, -⟩ := hPromise.announced _ (List.mem_singleton.mpr rfl)
    have hValue : RangeInfo.npos.toNat = 4294967295 := by decide
    simp [lastOf, hValue] at hWidth

end Samples

end Proxy
