import Peer.Basis.Run
import Peer.Network.TcpConnection
import Peer.Storage.Base

/-! `HttpClient` from its connection on: the header of the one response is read, and then the
listener asks for the body piece by piece. The listener may call from inside a callback, so
what is left to do after a callback is kept on a stack. -/
namespace Network

open Basis Storage

/-- What the server sends, and what the parser makes of the header. -/
structure HttpResponse where
  header : Bytes
  body : Bytes
  /-- `none` if the header has no Content-Length. -/
  contentLength : Option Nat
  contentLength_lt : ∀ n ∈ contentLength, n < 2 ^ 32
  rangeBegin : Nat
  rangeBegin_lt : rangeBegin < 2 ^ 32

/-- A call of the listener; it gets the bytes with their offsets in the file and in the
content. `OnRecvHttpDataPartial` is `dataShort`, and every failure is `failed`. -/
inductive Callback where
  | headerSucced
  | data (bytes : Bytes) (fileOffset contentOffset : Nat)
  | dataShort (bytes : Bytes) (fileOffset contentOffset : Nat)
  | complete
  | failed
deriving DecidableEq

/-- What a function does after its callback. -/
inductive Frame where
  | nothing
  | close
  /-- The connection has ended: the listener is told so, and then `Close`. -/
  | ended
deriving DecidableEq

/-- An `async_read` that is under way, with what was buffered when it was issued. -/
structure Read where
  buffer : Bytes
  networkLength : Nat
  fileOffset : Nat
  contentOffset : Nat
deriving DecidableEq

structure HttpClient where
  /-- `MaxRecvLength`, the size of a content. -/
  maxRecvLength : Nat
  isConnected : Bool
  /-- `handler_` is not null. -/
  handler : Bool
  isRequesting : Bool
  isChunked : Bool
  hasHeader : Bool
  contentLength : Nat
  contentOffset : Nat
  fileOffset : Nat
  /-- `response_`. -/
  response : Bytes
  /-- What the server has sent or will send, and the socket has not handed over. -/
  coming : Bytes
  read : Option Read
  frames : List Frame
  /-- All calls of the listener, and whether `content_offset_ + length` ever wrapped. -/
  calls : List Callback
  wrapped : Bool
  /-- `assert(length <= MaxRecvLength)` has failed; what follows would be read behind the end
  of a content. -/
  faulted : Bool
deriving DecidableEq

namespace HttpClient

variable (r : HttpResponse) (requestRangeBegin : Nat) (s : HttpClient)

/-- Connected, and nothing asked yet. The constructor leaves `content_length_` as it is. -/
def connected (maxRecvLength contentLength : Nat) : HttpClient where
  maxRecvLength := maxRecvLength
  isConnected := true
  handler := true
  isRequesting := false
  isChunked := false
  hasHeader := false
  contentLength := contentLength
  contentOffset := 0
  fileOffset := 0
  response := []
  coming := r.header ++ r.body
  read := none
  frames := []
  calls := []
  wrapped := false
  faulted := false

/-- `Close`; what is under way is aborted and not looked at any more. -/
def close : HttpClient :=
  { s with isConnected := false, isRequesting := false, handler := false, read := none }

/-- Call the listener, if there is one, and go on with the frame when it returns. -/
def call (callback : Callback) (frame : Frame) : HttpClient :=
  if s.handler then { s with calls := s.calls ++ [callback], frames := frame :: s.frames }
  else
    match frame with
    | .nothing => s
    | .close | .ended => s.close

/-- `HttpGet`. -/
def httpGet : HttpClient :=
  if s.isConnected = false ∨ s.isRequesting then s else { s with isRequesting := true }

/-- `HandleReadHttpHeader` without an error and with a header that can be parsed. -/
def handleReadHttpHeader : HttpClient :=
  let s := { s with
    isRequesting := false
    hasHeader := true
    response := s.response.drop r.header.length
    contentLength := r.contentLength.getD (2 ^ 32 - 1)
    isChunked := s.isChunked || r.contentLength.isNone
    contentOffset := 0
    fileOffset := if requestRangeBegin ≠ 0 then r.rangeBegin else s.fileOffset }
  s.call .headerSucced .nothing

/-- `HttpRecv`. The sum is a `boost::uint32_t`. -/
def httpRecv (length : Nat) : HttpClient :=
  if s.isConnected = false then s
  else if s.maxRecvLength < length then { s with faulted := true }
  else if s.contentLength ≤ s.contentOffset then s.call .complete .close
  else
    let wrapped := s.wrapped || decide (2 ^ 32 ≤ s.contentOffset + length)
    let length :=
      if s.contentLength < u32 (s.contentOffset + length) then s.contentLength - s.contentOffset
      else length
    let s := { s with wrapped := wrapped }
    let fileOffset := s.fileOffset
    let contentOffset := s.contentOffset
    if length ≤ s.response.length then
      let buffer := s.response.take length
      { s with
        response := s.response.drop length
        fileOffset := u32 (fileOffset + length)
        contentOffset := u32 (contentOffset + length) }.call
        (.data buffer fileOffset contentOffset) .nothing
    else
      let buffer := s.response
      let s := { s with response := [] }
      -- What was buffered is lost here.
      if s.isRequesting then s
      else
        { s with
          isRequesting := true
          read := some ⟨buffer, length - buffer.length, fileOffset, contentOffset⟩
          fileOffset := u32 (fileOffset + length)
          contentOffset := u32 (contentOffset + length) }

/-- `HttpRecvSubPiece`: `MaxRecvLength` is `ContentType::sub_piece_size`. -/
def httpRecvSubPiece : HttpClient := s.httpRecv s.maxRecvLength

/-- `HandleReadHttp` without an error. -/
def handleReadHttp (read : Read) : HttpClient :=
  let bytes := s.coming.take read.networkLength
  { s with
    isRequesting := false, read := none, coming := s.coming.drop read.networkLength }.call
    (.data (read.buffer ++ bytes) read.fileOffset read.contentOffset) .nothing

/-- `HandleReadHttp` at the end of the connection. -/
def handleReadHttpEof (read : Read) : HttpClient :=
  let bytes := s.coming
  let s := { s with isRequesting := false, read := none, coming := [] }
  if s.response ≠ [] then
    s.call (.dataShort (read.buffer ++ bytes) read.fileOffset read.contentOffset) .ended
  else s.call (.data (read.buffer ++ bytes) read.fileOffset read.contentOffset) .ended

/-- The listener returns from a callback. -/
def returns : HttpClient :=
  match s.frames with
  | [] => s
  | .nothing :: rest => { s with frames := rest }
  | .close :: rest => { s with frames := rest }.close
  | .ended :: rest =>
      { s with frames := rest }.call (if s.isChunked then .complete else .failed) .close

end HttpClient

/-- What can happen: calls of the listener, its return from a callback, and, while it is in
none, what the socket and the timer report. -/
inductive HttpEvent where
  | get
  | recv (length : Nat)
  | close
  | returns
  | arrives (bytes : Nat)
  | header
  | headerFailed
  | readFills
  | readEof
  | readFailed
  | recvTimeout
deriving DecidableEq

namespace HttpClient

/-- One event. What cannot happen in a state leaves it as it is. -/
def next (r : HttpResponse) (requestRangeBegin : Nat) (s : HttpClient) : HttpEvent → HttpClient
  | .get => if s.hasHeader then s else s.httpGet
  | .recv length => s.httpRecv (u32 length)
  | .close => s.close
  | .returns => s.returns
  | .arrives bytes =>
      if s.isRequesting ∧ s.hasHeader = false ∧ s.read = none then
        { s with response := s.response ++ s.coming.take bytes, coming := s.coming.drop bytes }
      else s
  | .header =>
      if s.frames = [] ∧ s.isConnected ∧ s.isRequesting ∧ s.hasHeader = false ∧ s.read = none ∧
          r.header.length ≤ s.response.length then
        s.handleReadHttpHeader r requestRangeBegin
      else s
  | .headerFailed =>
      if s.frames = [] ∧ s.isConnected ∧ s.isRequesting ∧ s.hasHeader = false ∧ s.read = none then
        { s with isRequesting := false }.call .failed .close
      else s
  | .readFills =>
      match s.read with
      | none => s
      | some read =>
          if s.frames = [] ∧ read.networkLength ≤ s.coming.length then s.handleReadHttp read else s
  | .readEof =>
      match s.read with
      | none => s
      | some read =>
          if s.frames = [] ∧ s.coming.length < read.networkLength then s.handleReadHttpEof read
          else s
  | .readFailed =>
      match s.read with
      | none => s
      | some _ =>
          if s.frames = [] then
            { s with isRequesting := false, read := none }.call .failed .close
          else s
  | .recvTimeout =>
      if s.frames = [] ∧ s.isConnected ∧ s.isRequesting then s.call .failed .close else s

/-- Nothing is said of what follows a failed assertion. -/
def Step (r : HttpResponse) (requestRangeBegin : Nat) (s : HttpClient) (e : HttpEvent)
    (t : HttpClient) : Prop :=
  s.faulted = false ∧ s.next r requestRangeBegin e = t

end HttpClient

end Network
