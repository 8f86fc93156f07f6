import Peer.Basis.Delimiter
import Peer.Basis.Run

/-! A connection over which packets come in and go out. A packet is its action, its
archive and an empty line, and the end of what is read next is searched as a text. -/
namespace Network

open Basis

abbrev Bytes := List UInt8

/-- A text of single bytes. -/
def asciiBytes (text : String) : Bytes := text.toList.map fun c => c.toNat.toUInt8

def policyFileRequest : Bytes := asciiBytes "<policy-file-request/>"

def emptyLine : Bytes := [13, 10, 13, 10]

/-- The regular expression of `DoRecv`. -/
def delimiters : List Bytes := [policyFileRequest, emptyLine]

def toUpper (b : UInt8) : UInt8 := if 97 ≤ b ∧ b ≤ 122 then b - 32 else b

/-- Whether a text begins with another one but for the case of its letters. -/
def istartsWith (input test : Bytes) : Bool := (test.map toUpper).isPrefixOf (input.map toUpper)

/-- The packets: their actions, what the output archive writes of them, the actions that
have a handler, and what the handler of an action reads of a text, with the number of
bytes it takes. -/
structure Archive (Packet : Type) where
  action : Packet → UInt8
  write : Packet → Bytes
  handles : UInt8 → Bool
  read : UInt8 → Bytes → Packet × Nat

variable {Packet : Type}

namespace Archive

/-- The input operator takes exactly the bytes that the output operator wrote. -/
def Lawful (archive : Archive Packet) : Prop :=
  ∀ packet, archive.handles (archive.action packet) = true → ∀ more,
    archive.read (archive.action packet) (archive.write packet ++ more) =
      (packet, (archive.write packet).length)

/-- The bytes of a packet on the wire. -/
def encode (archive : Archive Packet) (packet : Packet) : Bytes :=
  archive.action packet :: archive.write packet ++ emptyLine

end Archive

/-- What is written to the socket: a packet, or the answer to a policy file request. -/
inductive Buffer (Packet : Type) where
  | packet (packet : Packet)
  | crossDomain
  deriving DecidableEq

/-- The connection, with the packets handed to `OnPacketRecv`, the writes that have been
started and are not over, each with whether it closes the socket, and those that are. -/
structure TcpConnection (Packet : Type) where
  request : Bytes
  sendList : List (Buffer Packet)
  writing : List (Buffer Packet × Bool)
  written : List (Buffer Packet)
  failed : Bool
  closed : Bool
  delivered : List Packet

namespace TcpConnection

def create : TcpConnection Packet := ⟨[], [], [], [], false, false, []⟩

def tcpSend (c : TcpConnection Packet) (buffer : Buffer Packet) (needClose : Bool) :
    TcpConnection Packet :=
  { c with writing := c.writing ++ [(buffer, needClose)] }

def doSend (c : TcpConnection Packet) (packet : Packet) : TcpConnection Packet :=
  let isSendListEmpty := c.sendList.isEmpty
  let c := { c with sendList := c.sendList ++ [.packet packet] }
  if isSendListEmpty then c.tcpSend (.packet packet) false else c

/-- The end of the write at a place in `writing`. A failed one ends the writing; removing
the head of an empty list is a fault. -/
def handleTcpSend (c : TcpConnection Packet) (i : Nat) (ec : Bool) :
    Option (TcpConnection Packet) :=
  c.writing[i]?.bind fun (buffer, needClose) =>
    let c := { c with writing := c.writing.eraseIdx i }
    if ec then some { c with failed := true }
    else
      let c := { c with written := c.written ++ [buffer] }
      if needClose then some { c with closed := true }
      else
        match c.sendList with
        | [] => none
        | [_] => some { c with sendList := [] }
        | _ :: next :: rest => some ({ c with sendList := next :: rest }.tcpSend next false)

/-- The text up to the first match, if `async_read_until` has one to report. -/
def due (c : TcpConnection Packet) : Option Nat :=
  matchEnd delimiters c.request

/-- Whether the text up to the match is taken for a policy file request. -/
def isPolicy (c : TcpConnection Packet) (bytesTransferred : Nat) : Bool :=
  istartsWith (c.request.take bytesTransferred) policyFileRequest

/-- A match is there: a policy file request is answered, a packet is handed over. -/
def handleRecv (c : TcpConnection Packet) (archive : Archive Packet) (bytesTransferred : Nat) :
    TcpConnection Packet :=
  if c.isPolicy bytesTransferred then
    let c := { c with sendList := c.sendList ++ [Buffer.crossDomain] }
    let c := c.tcpSend .crossDomain true
    { c with request := c.request.drop bytesTransferred }
  else
    match c.request with
    | [] => c
    | action :: is =>
        let c :=
          if archive.handles action then
            let (packet, taken) := archive.read action is
            { c with request := is.drop taken, delivered := c.delivered ++ [packet] }
          else { c with request := is }
        { c with request := c.request.drop 4 }

end TcpConnection

/-- What the other side sends. -/
inductive Item (Packet : Type) where
  | packet (packet : Packet)
  | policyRequest
  deriving DecidableEq

def Item.encode (archive : Archive Packet) : Item Packet → Bytes
  | packet p => archive.encode p
  | policyRequest => policyFileRequest

def Item.packet? : Item Packet → Option Packet
  | packet p => some p
  | policyRequest => none

def Buffer.packet? : Buffer Packet → Option Packet
  | packet p => some p
  | crossDomain => none

/-- The bytes of several items. -/
def stream (archive : Archive Packet) (items : List (Item Packet)) : Bytes :=
  items.flatMap (Item.encode archive)

/-- A connection with what comes in on it: all items, and the number of their bytes that
have been read. `given` are the packets that `DoSend` was called with. -/
structure Conversation (Packet : Type) where
  items : List (Item Packet)
  received : Nat
  connection : TcpConnection Packet
  given : List Packet

/-- A network read of some bytes, a call of the handler for a match in the buffer, a call
of `DoSend`, and the end of a write. -/
inductive Event (Packet : Type) where
  | read (bytes : Nat)
  | handleRecv
  | doSend (packet : Packet)
  | handleTcpSend (i : Nat) (ec : Bool)

namespace Conversation

def begin (items : List (Item Packet)) : Conversation Packet := ⟨items, 0, .create, []⟩

/-- One event. Bytes are read while the buffer has no match and the socket is open. -/
def next (archive : Archive Packet) (s : Conversation Packet) :
    Event Packet → Option (Conversation Packet)
  | .read bytes =>
      if s.connection.due = none ∧ s.connection.closed = false ∧
          s.received + bytes ≤ (stream archive s.items).length then
        some { s with
          received := s.received + bytes
          connection := { s.connection with
            request := s.connection.request ++
              ((stream archive s.items).drop s.received).take bytes } }
      else none
  | .handleRecv =>
      s.connection.due.map fun bytesTransferred =>
        { s with connection := s.connection.handleRecv archive bytesTransferred }
  | .doSend packet =>
      some { s with connection := s.connection.doSend packet, given := s.given ++ [packet] }
  | .handleTcpSend i ec =>
      (s.connection.handleTcpSend i ec).map fun connection => { s with connection := connection }

end Conversation

end Network
