import Peer.Network.Uri

/-! `RangeProxySender` and the two places that ranges come from: the Range property of a
request and the parameters of a play URL. All positions are `boost::uint32_t`. -/
namespace Proxy

open P2P

/-- A range with an inclusive end. -/
structure RangeInfo where
  rangeBegin : UInt32
  rangeEnd : UInt32
  deriving DecidableEq

namespace RangeInfo

/-- The end of a range that is open. -/
def npos : UInt32 := 0xFFFFFFFF

/-- `isspace` of the classic locale. -/
def isSpace (c : Char) : Bool :=
  c = ' ' || (9 ≤ c.toNat && c.toNat ≤ 13)

def trimCopy (text : Text) : Text :=
  ((text.dropWhile isSpace).reverse.dropWhile isSpace).reverse

/-- `RangeInfo::Parse`, with the library's reader of numbers. -/
def parse (parse2 : Text → Option UInt32) (rangeProperty : Text) : Option RangeInfo :=
  let rangeString := (trimCopy rangeProperty).filter (· ≠ ' ')
  if (rangeString.take 6).map Char.toLower ≠ "bytes=".toList then none
  else if ',' ∈ rangeString then none
  else
    let rangeString := rangeString.drop 6
    if rangeString = [] ∨ rangeString.head? = some '-' then none
    else
      match rangeString.splitOn '-' with
      | [first, second] =>
        (parse2 first).bind fun rangeBegin =>
          (if second ≠ [] then parse2 second else some npos).bind fun rangeEnd =>
            if rangeBegin = npos then none
            else if rangeEnd ≠ npos ∧ rangeBegin > rangeEnd then none
            else some ⟨rangeBegin, rangeEnd⟩
      | _ => none

end RangeInfo

namespace PlayInfo

variable (parse2 : Text → Option UInt32)

/-- `PlayInfo::GetValueFromUri` -/
def getValueFromUri (uri : Network.Uri) (key : Text) : Option UInt32 :=
  let strValue := uri.getparameterOf key
  if strValue ≠ [] then parse2 strValue else none

/-- `PlayInfo::ParseRangeInfo` -/
def parseRangeInfo (uri : Network.Uri) : Option RangeInfo :=
  (getValueFromUri parse2 uri "rangeStart".toList).bind fun rangeStart =>
    (getValueFromUri parse2 uri "rangeEnd".toList).map fun rangeEnd =>
      ⟨rangeStart, if rangeEnd = 0 then RangeInfo.npos else rangeEnd⟩

end PlayInfo

/-- Where the range of a request is read. -/
inductive Request where
  | property (range : Text)
  | playUrl (uri : Network.Uri)

def Request.rangeInfo (parse2 : Text → Option UInt32) : Request → Option RangeInfo
  | .property range => RangeInfo.parse parse2 range
  | .playUrl uri => PlayInfo.parseRangeInfo parse2 uri

/-- `network::HttpResponse`: the status code and the properties that are set. -/
structure HttpResponse where
  statusCode : Nat
  properties : String → Option String

namespace HttpResponse

def getContentType (r : HttpResponse) : String :=
  (r.properties "Content-Type").getD ""

def setProperty (r : HttpResponse) (key value : String) : HttpResponse :=
  { r with properties := Function.update r.properties key (some value) }

def setContentLength (r : HttpResponse) (contentLength : UInt32) : HttpResponse :=
  r.setProperty "Content-Length" (toString contentLength.toNat)

/-- `206 Partial Content` with a content type. -/
def ofContentType (contentType : String) : HttpResponse :=
  { statusCode := 206, properties := fun key => if key = "Content-Type" then some contentType else none }

end HttpResponse

/-- The sender, with the headers and the body bytes that it gave to the socket. -/
structure RangeProxySender where
  isRunning : Bool
  playingPosition : UInt32
  isResponseHeader : Bool
  fileLength : UInt32
  rangeInfo : Option RangeInfo
  headers : List HttpResponse
  body : List UInt8

namespace RangeProxySender

def create : RangeProxySender :=
  { isRunning := false, playingPosition := 0, isResponseHeader := false, fileLength := 0,
    rangeInfo := none, headers := [], body := [] }

/-- `Start` with a range. -/
def start (s : RangeProxySender) (rangeInfo : Option RangeInfo) : RangeProxySender :=
  if s.isRunning then s
  else { s with
    rangeInfo
    playingPosition :=
      match rangeInfo with
      | none => s.playingPosition
      | some range => range.rangeBegin / 1024 * 1024
    isRunning := true }

/-- `HttpSendBuffer` of a part of a buffer; `none` if the part is not inside. -/
def httpSendBuffer (s : RangeProxySender) (buffer : List UInt8) (offset length : UInt32) :
    Option RangeProxySender :=
  if offset.toNat + length.toNat ≤ buffer.length then
    some { s with body := s.body ++ (buffer.drop offset.toNat).take length.toNat }
  else none

def onAsyncGetSubPieceSucced (s : RangeProxySender) (startPosition : UInt32)
    (buffer : List UInt8) : Option RangeProxySender :=
  let length := UInt32.ofNat buffer.length
  if s.isRunning = false then some s
  else if s.playingPosition ≥ startPosition + length then some s
  else
    let goOn := fun t : RangeProxySender => { t with playingPosition := t.playingPosition + length }
    let jump := fun t : RangeProxySender => { t with playingPosition := t.fileLength }
    match s.rangeInfo with
    | none => (s.httpSendBuffer buffer 0 length).map goOn
    | some ⟨rangeBegin, rangeEnd⟩ =>
      if startPosition ≤ rangeBegin ∧ rangeBegin < startPosition + length then
        if rangeEnd + 1 < startPosition + length then
          (s.httpSendBuffer buffer (rangeBegin - startPosition) (rangeEnd - rangeBegin + 1)).map jump
        else
          (s.httpSendBuffer buffer (rangeBegin - startPosition)
            (startPosition + length - rangeBegin)).map goOn
      else if startPosition ≥ rangeBegin ∧ startPosition ≤ rangeEnd then
        if rangeEnd + 1 < startPosition + length then
          (s.httpSendBuffer buffer 0 (rangeEnd - startPosition + 1)).map jump
        else (s.httpSendBuffer buffer 0 length).map goOn
      else if startPosition > rangeEnd then some (jump s)
      else some s

/-- The text of Content-Range. -/
def contentRange (rangeBegin rangeEnd fileLength : Nat) : String :=
  "bytes " ++ toString rangeBegin ++ "-" ++ toString rangeEnd ++ "/" ++ toString fileLength

/-- `localPlay` is what the download driver says of the drag. -/
def sendHttpHeader (s : RangeProxySender) (httpResponse : Option HttpResponse) (localPlay : Bool) :
    RangeProxySender :=
  let header :=
    match s.rangeInfo with
    | some ⟨rangeBegin, rangeEnd⟩ =>
      let response :=
        match httpResponse with
        | none => HttpResponse.ofContentType "video/flv"
        | some response =>
          if response.statusCode = 200 then
            .ofContentType (if response.getContentType.length = 0 then "video/flv"
              else response.getContentType)
          else response
      (((response.setContentLength (rangeEnd - rangeBegin + 1)).setProperty "Connection" "close").setProperty
        "Content-Range" (contentRange rangeBegin.toNat rangeEnd.toNat s.fileLength.toNat)).setProperty
          "LocalPlay" (if localPlay then "yes" else "no")
    | none =>
      match httpResponse with
      | none =>
        let response : HttpResponse := { statusCode := 200, properties := fun _ => none }
        ((response.setProperty "Content-Type" "video/flv").setContentLength s.fileLength).setProperty
          "Connection" "close"
      | some response => response.setProperty "Connection" "close"
  { s with headers := s.headers ++ [header], isResponseHeader := true }

def onNoticeGetContentLength (s : RangeProxySender) (contentLength : UInt32)
    (httpResponse : Option HttpResponse) (localPlay : Bool) : RangeProxySender :=
  if s.isRunning = false then s
  else if s.isResponseHeader then s
  else
    let s := { s with
      fileLength := contentLength
      rangeInfo := s.rangeInfo.map fun range =>
        if range.rangeEnd = RangeInfo.npos then { range with rangeEnd := contentLength - 1 }
        else if range.rangeEnd ≥ contentLength then { range with rangeEnd := contentLength - 1 }
        else range }
    match httpResponse with
    | none => s
    | some response => s.sendHttpHeader (some response) localPlay

/-- The loop of `OnRecvSubPiece`. -/
def recvBuffers (s : RangeProxySender) (position : UInt32) : List (List UInt8) → Option RangeProxySender
  | [] => some s
  | buffer :: rest =>
    (s.onAsyncGetSubPieceSucced position buffer).bind fun s =>
      recvBuffers s (position + UInt32.ofNat buffer.length) rest

def onRecvSubPiece (s : RangeProxySender) (position : UInt32) (buffers : List (List UInt8))
    (localPlay : Bool) : Option RangeProxySender :=
  let s := if s.isResponseHeader then s else s.sendHttpHeader none localPlay
  s.recvBuffers position buffers

end RangeProxySender

end Proxy
