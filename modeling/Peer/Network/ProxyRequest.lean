import Peer.Network.HeaderText
import Peer.Network.Uri

/-! The requests that the proxy is asked for, rewritten for the server they are for. -/
namespace Network

open Basis P2P

/-- The delimiter of a key and its value. -/
def colonBlank : Text := [':', ' ']

/-- The header that is not for the server. -/
def proxyConnection : Text := "Proxy-Connection".toList

/-- How the URL of a proxied request begins. -/
def httpUrl : Text := "http://".toList

section Rewriting

/- `framework::string::slice`. -/
variable (slice : Text → Text → List Text)

/-- What the request line becomes; none if it has not three parts. -/
def directRequestLine (line : Text) : Option Text :=
  match line.splitOn ' ' with
  | method :: url :: version :: _ =>
    if httpUrl.isPrefixOf (toLower url) then
      some (method ++ ' ' :: ((Uri.parseurl url).getrequest ++ ' ' :: version))
    else some line
  | _ => none

/-- A line goes through if it is a key and a value and not `Proxy-Connection`. -/
def goesThrough (line : Text) : Bool :=
  match slice line colonBlank with
  | [key, _] => decide (trim key ≠ proxyConnection)
  | _ => false

/-- The loop of `ProxyRequestToDirectRequest`, where a request line goes on to the test of the
header lines; none when the request is returned as it is. -/
def directLines (isFirstLine : Bool) (direct : Text) : List Text → Option Text
  | [] => some (direct ++ crlf)
  | line :: lines =>
    let line := trim line
    if line = [] then directLines isFirstLine direct lines
    else
      let first := if isFirstLine then (directRequestLine line).map (· ++ crlf) else some []
      match first with
      | none => none
      | some first =>
        directLines false
          (direct ++ first ++ if goesThrough slice line then line ++ crlf else []) lines

def proxyRequestToDirectRequest (proxyRequestString : Text) : Text :=
  (directLines slice true [] (slice proxyRequestString crlf)).getD proxyRequestString

end Rewriting

end Network
