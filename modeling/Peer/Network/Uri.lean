import Peer.P2P.Text
import Peer.Storage.Base

/-! The parts of a URL, which are kept as positions in its text. Play requests and proxied
requests are taken apart by them. -/
namespace Network

open Storage P2P P2P.Text

/-- `NOPOS`. -/
def noPos : Nat := 2 ^ 32 - 1

/-- `network::Uri`. The positions that `parseurl` always sets are numbers; the others are
none for `NOPOS`. -/
structure Uri where
  url : Text
  protcalPos : Option Nat
  hostStartPos : Nat
  hostEndPos : Nat
  domainEndPos : Nat
  portStartPos : Option Nat
  portEndPos : Option Nat
  pathStartPos : Nat
  pathEndPos : Nat
  fileStartPos : Nat
  fileEndPos : Nat
  paramStartPos : Option Nat
  paramEndPos : Nat
  requestStartPos : Nat
  requestEndPos : Nat

namespace Uri

/-- `beginpos < position`, where `npos` is the largest number. -/
def before (beginpos : Nat) (position : Option Nat) : Bool := position.all (beginpos < ·)

/-- The position behind one; behind `npos` it is 0. -/
def next (position : Option Nat) : Nat := position.elim 0 (· + 1)

/-- `rfind` from a position backwards. -/
def rfindFrom (text : Text) (c : Char) (pos : Nat) : Option Nat := rfind (text.take (pos + 1)) c

/-- Where `parseurl` takes the protocol to end: at a colon before all slashes and dots. -/
def protcalEnd (url : Text) : Option Nat :=
  (find url ':' 0).filter fun pos => before pos (find url '/' 0) && before pos (find url '.' 0)

/-- Where the host begins: behind the second slash if there is a protocol. -/
def hostStart (url : Text) : Nat :=
  if (protcalEnd url).isSome then next (find url '/' (next (find url '/' 0))) else 0

/-- The second half of `parseurl`, from the slash behind the host on. -/
def parsePath (url : Text) (protcalPos : Option Nat) (hostStartPos : Nat) (colon : Option Nat)
    (endpos : Nat) : Uri :=
  let question := find url '?' endpos
  let hash := rfindFrom url '#' (url.length - 1)
  { url
    protcalPos
    hostStartPos
    hostEndPos := endpos
    domainEndPos := colon.getD endpos
    portStartPos := colon.map (· + 1)
    portEndPos := colon.map fun _ => endpos
    pathStartPos := endpos
    pathEndPos := question.getD url.length
    fileStartPos := next (rfindFrom url '/' (question.getD url.length))
    fileEndPos := question.getD url.length
    paramStartPos := question.map (· + 1)
    paramEndPos := hash.getD url.length
    requestStartPos := endpos
    requestEndPos := hash.getD url.length }

/-- `parseurl`. -/
def parseurl (url : Text) : Uri :=
  let protcalPos := protcalEnd url
  let hostStartPos := hostStart url
  let s := match find url '/' hostStartPos with
    | some slash => url.take slash
    | none => url
  let colon := find s ':' hostStartPos
  let beginpos := colon.getD hostStartPos
  match find url '/' beginpos with
  | some endpos => parsePath url protcalPos hostStartPos colon endpos
  | none =>
    -- a URL without a path gets a slash
    let url := url ++ ['/']
    parsePath url protcalPos hostStartPos colon ((find url '/' beginpos).getD noPos)

/-- A substring between two positions. Their difference is of two `boost::uint32_t`. -/
def between (text : Text) (start stop : Nat) : Text := substr text start (subU32 stop start)

variable (uri : Uri)

def getfileurl : Text := substr uri.url 0 uri.fileEndPos

def getrequest : Text := between uri.url uri.requestStartPos uri.requestEndPos

def getprotocol : Text :=
  match uri.protcalPos with
  | some pos => substr uri.url 0 pos
  | none => "http".toList

def getdomain : Text := between uri.url uri.hostStartPos uri.domainEndPos

def getport : Text :=
  match uri.portStartPos with
  | some start => between uri.url start (uri.portEndPos.getD noPos)
  | none => "80".toList

def getpath : Text := between uri.url uri.pathStartPos uri.pathEndPos

def getfile : Text := between uri.url uri.fileStartPos uri.fileEndPos

def getfilerequest : Text := between uri.url uri.fileStartPos uri.requestEndPos

def getparameter : Text :=
  match uri.paramStartPos with
  | some start => between uri.url start uri.paramEndPos
  | none => []

def gethost : Text := between uri.url uri.hostStartPos uri.hostEndPos

def getreferer : Text := substr uri.url 0 uri.hostEndPos

/-- Where `getparameter(key)` takes the value from, in the parameters behind an ampersand. -/
def valuePos (para key : Text) : Option (Nat × Nat) :=
  (findText ('&' :: key ++ ['=']) para).map fun start =>
    let start := next (find para '=' start)
    (start, (find para '&' start).getD para.length)

/-- `getparameter(key)`. -/
def getparameterOf (key : Text) : Text :=
  let para := '&' :: uri.getparameter
  match valuePos para key with
  | some (start, stop) => between para start stop
  | none => []

end Uri

end Network
