import Peer.Proxy.RangeSender
import Peer.Storage.Base

/-! `OpenServiceProxySender`, which plays a file from a drag position: it collects the head
of the file, has a media header made of it, and sends that and the file from a key frame on.
Making the media header is a function. -/
namespace Proxy

open Basis Storage

/-- The header of the response: `HttpSendHeader` of a length and a type, or a response of
the server with changes. -/
inductive OpenServiceHeader where
  | plain (contentLength : Nat) (contentType : String)
  | response (r : HttpResponse)

/-- The length that a header announces. -/
def OpenServiceHeader.Announces (contentLength : Nat) : OpenServiceHeader → Prop
  | .plain length _ => length = contentLength
  | .response r => r.properties "Content-Length" = some (toString contentLength)

def HttpResponse.removeProperty (r : HttpResponse) (key : String) : HttpResponse :=
  { r with properties := Function.update r.properties key none }

/-- What the sender does outside: it calls `GetHeader`, and sends a header and buffers. -/
inductive OpenServiceOutput where
  | getHeader (keyFramePosition : Nat) (head : Bytes)
  | header (header : OpenServiceHeader)
  | buffer (bytes : Bytes)

structure OpenServiceProxySender where
  isResponseHeader : Bool
  isSentFirstPiece : Bool
  fileLength : Nat
  headerOffsetInFirstPiece : Nat
  keyFramePosition : Nat
  playingPosition : Nat
  startOffset : Nat
  /-- None is the initial `-1`. -/
  headLength : Option Nat
  headBuffer : Bytes
  headerResponseTemplate : Option HttpResponse
  sent : List OpenServiceOutput

namespace OpenServiceProxySender

/-- `Start` with an offset. -/
def start (startOffset : Nat) : OpenServiceProxySender where
  isResponseHeader := false
  isSentFirstPiece := false
  fileLength := 0
  headerOffsetInFirstPiece := 0
  keyFramePosition := 0
  playingPosition := 0
  startOffset
  headLength := none
  headBuffer := []
  headerResponseTemplate := none
  sent := []

def onNoticeGetContentLength (s : OpenServiceProxySender) (contentLength : Nat)
    (httpResponse : Option HttpResponse) : OpenServiceProxySender :=
  if s.fileLength = 0 then
    { s with fileLength := contentLength, headerResponseTemplate := httpResponse }
  else if contentLength = s.fileLength then { s with headerResponseTemplate := httpResponse }
  else s

/-- `fresh` are the bytes that `Malloc` finds in the memory. -/
def onNoticeOpenServiceHeadLength (s : OpenServiceProxySender) (fresh : Nat → UInt8)
    (headLength : Nat) : OpenServiceProxySender :=
  if headLength ≤ 16 * 1024 * 1024 then
    { s with
      headLength := some headLength
      keyFramePosition := s.startOffset
      headerOffsetInFirstPiece := s.startOffset % 1024
      headBuffer := (List.range headLength).map fresh }
  else s

/-- `memcpy2` to a place of the head buffer; none where it crashes. -/
def copyToHead (headBuffer : Bytes) (position : Nat) (bytes : Bytes) : Option Bytes :=
  if memcpy2Ok (subU32 headBuffer.length position) bytes.length then
    some (headBuffer.take position ++ bytes ++ headBuffer.drop (position + bytes.length))
  else none

/-- The header of the response, for a content length. -/
def responseHeader (template : Option HttpResponse) (contentLength : Nat) : OpenServiceHeader :=
  match template with
  | none => .plain contentLength "video/x-flv"
  | some response =>
    if response.statusCode ≠ 200 then .plain contentLength "video/x-flv"
    else
      .response (((((((response.removeProperty "Content-Range").removeProperty
        "Accept-Ranges").setProperty "Cache-Control" "no-cache").setProperty
        "Expires" "0").setProperty "Connection" "close").setContentLength
        (UInt32.ofNat contentLength)))

/-- Sends the first piece without what precedes the key frame; none where the bytes are not
those of the buffer. -/
def sendFirstPiece (s : OpenServiceProxySender) (buffer : Bytes) : Option OpenServiceProxySender :=
  let length := subU32 buffer.length s.headerOffsetInFirstPiece
  if s.headerOffsetInFirstPiece + length ≤ buffer.length then
    some { s with
      sent := s.sent ++ [.buffer ((buffer.drop s.headerOffsetInFirstPiece).take length)]
      isSentFirstPiece := true
      playingPosition := u32 (s.playingPosition + buffer.length) }
  else none

section Header

variable (getHeader : Nat → Bytes → Nat × Bytes)

/-- The head is complete: the response starts with the header and the media header. -/
def openResponse (s : OpenServiceProxySender) (headBuffer : Bytes) : OpenServiceProxySender :=
  let keyFramePosition := (getHeader s.keyFramePosition headBuffer).1
  let mediaHeader := (getHeader s.keyFramePosition headBuffer).2
  let contentLength := u32 (subU32 s.fileLength keyFramePosition + mediaHeader.length)
  { s with
    headBuffer
    keyFramePosition
    headerOffsetInFirstPiece := keyFramePosition % 1024
    sent := s.sent ++ .getHeader s.keyFramePosition headBuffer ::
      .header (responseHeader s.headerResponseTemplate contentLength) ::
        if mediaHeader.length > 0 then [.buffer mediaHeader] else []
    isResponseHeader := true
    playingPosition := keyFramePosition / 1024 * 1024 }

/-- It goes on at the key frame, which may be in this buffer. -/
def respond (s : OpenServiceProxySender) (startPosition : Nat) (buffer headBuffer : Bytes) :
    Option OpenServiceProxySender :=
  let s := s.openResponse getHeader headBuffer
  if s.playingPosition = startPosition then s.sendFirstPiece buffer else some s

def onAsyncGetSubPieceSucced (s : OpenServiceProxySender) (startPosition : Nat) (buffer : Bytes) :
    Option OpenServiceProxySender :=
  match s.headLength with
  | none => some s
  | some headLength =>
    if s.isResponseHeader = false then
      let stop := u32 (startPosition + buffer.length)
      if headLength > stop then
        (copyToHead s.headBuffer startPosition buffer).map fun headBuffer =>
          { s with headBuffer, playingPosition := u32 (s.playingPosition + buffer.length) }
      else if headLength ≥ startPosition ∧ headLength ≤ stop then
        let remainLength := headLength - startPosition
        if remainLength > 0 then
          (copyToHead s.headBuffer startPosition (buffer.take remainLength)).bind
            (s.respond getHeader startPosition buffer)
        else s.respond getHeader startPosition buffer s.headBuffer
      else some s
    else if s.isSentFirstPiece = false then s.sendFirstPiece buffer
    else
      some { s with
        sent := s.sent ++ [.buffer buffer]
        playingPosition := u32 (s.playingPosition + buffer.length) }

def onRecvSubPiece (s : OpenServiceProxySender) (position : Nat) :
    List Bytes → Option OpenServiceProxySender
  | [] => some s
  | buffer :: rest =>
    if s.playingPosition = position then
      (s.onAsyncGetSubPieceSucced getHeader position buffer).bind fun s =>
        s.onRecvSubPiece (u32 (position + buffer.length)) rest
    else s.onRecvSubPiece position rest

end Header

end OpenServiceProxySender

end Proxy
