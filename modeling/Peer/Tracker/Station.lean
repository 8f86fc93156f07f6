import Peer.Tracker.Manager

/-! One station of trackers that serve the same numbers, and which of them is reported
to. Clients are objects on a heap: the map, the list, the two pointers and the iterator
of a station hold their numbers. -/
namespace Tracker

open Basis P2P

/-- A `TrackerClient`, without the state of its synchronisation. -/
structure TrackerClient where
  info : TrackerInfo
  groupCount : Nat

def TrackerClient.endpoint (client : TrackerClient) : SocketAddr := client.info.endpoint

/-- An iterator of a list of clients: not initialised, at the node of a client, or `end()`. -/
inductive ListIterator where
  | unset
  | at (client : Nat)
  | last
deriving DecidableEq

/-- `TrackerStation`. `heap` are all clients ever created, `latest` is the argument of
the last `SetTrackers`. -/
structure TrackerStation where
  isRunning : Bool
  heap : List TrackerClient
  latest : List TrackerInfo
  trackerClientMap : OrderedMap SocketAddr Nat
  trackerClientList : List Nat
  tryingTrackerIterator : ListIterator
  currentReportTracker : Option Nat
  tryingReportTracker : Option Nat
  isReportResponse : Bool
  noReportResponseTimes : Nat
  lastReportTransactionId : Option Nat

/-- `protocol::ReportPacket` as a response. -/
structure ReportResponse where
  endpoint : SocketAddr
  transactionId : Nat
  errorCode : Nat

namespace TrackerStation

def create : TrackerStation :=
  ⟨false, [], [], [], [], .unset, none, none, true, 0, none⟩

variable (s : TrackerStation)

/-- The tracker `SetTrackers` takes for the one in use. -/
def usingTracker : Option Nat := s.currentReportTracker.or s.tryingReportTracker

def infoOf (client : Nat) : Option TrackerInfo := (s.heap[client]?).map TrackerClient.info

/-- `ClearAllClient`. The pointers and the iterator stay as they are. -/
def clearAllClient : TrackerStation := { s with trackerClientMap := [], trackerClientList := [] }

def start : TrackerStation := { s with isRunning := true }

def stop : TrackerStation :=
  if !s.isRunning then s else { s.clearAllClient with isRunning := false }

/-- The clients that `SetTrackers` creates. -/
def newClients (groupCount : Nat) (trackers : List TrackerInfo) : List TrackerClient :=
  trackers.map fun info => ⟨info, groupCount⟩

/-- `SetTrackers`. All its branches empty the map and the list (and tell clients to
stop, or a tracker that the peer leaves); then every tracker gets a new client.
`order` is the order `random_shuffle` gave them. -/
def setTrackers (groupCount : Nat) (trackers : List TrackerInfo) (order : List Nat) :
    TrackerStation :=
  let cleared := match s.usingTracker with
    | some client =>
      if s.infoOf client ∈ trackers.map some then
        { s with trackerClientMap := [], trackerClientList := [] }
      else s.clearAllClient
    | none => s.clearAllClient
  { cleared with
    heap := s.heap ++ newClients groupCount trackers
    latest := trackers
    trackerClientMap := (trackers.zipIdx s.heap.length).foldl
      (fun map entry => map.insert entry.1.endpoint entry.2) []
    trackerClientList := order
    tryingTrackerIterator := .last }

/-- The position after that of a client. -/
def successor (list : List Nat) (client : Nat) : ListIterator :=
  match list.drop (list.idxOf client + 1) with
  | [] => .last
  | next :: _ => .at next

/-- Moving the iterator on, from the end to the beginning; `none` is an iterator that
points to no node of the list. -/
def advance (list : List Nat) (iterator : ListIterator) : Option Nat :=
  let moved : Option ListIterator := match iterator with
    | .unset => none
    | .last => some .last
    | .at client => if client ∈ list then some (successor list client) else none
  match moved with
  | some (.at client) => some client
  | some .last => list.head?
  | _ => none

/-- The count of reports without a response; the third gives the current tracker up. -/
def countSilence : TrackerStation :=
  if s.isReportResponse then s
  else if s.noReportResponseTimes + 1 ≥ 3 then
    { s with noReportResponseTimes := 0, currentReportTracker := none }
  else { s with noReportResponseTimes := s.noReportResponseTimes + 1 }

/-- Choosing the tracker and calling its `DoSubmit`, which returns `transactionId`. -/
def submit (transactionId : Nat) : Option (TrackerStation × Option Nat) :=
  match s.currentReportTracker with
  | some client =>
    some ({ s with isReportResponse := false, lastReportTransactionId := some transactionId },
      some client)
  | none =>
    (advance s.trackerClientList s.tryingTrackerIterator).map fun client =>
      ({ s with
          tryingTrackerIterator := .at client
          tryingReportTracker := some client
          isReportResponse := false
          lastReportTransactionId := some transactionId }, some client)

/-- `DoReport`, with the client whose `DoSubmit` is called. `noResources` says that the
first client of the list has no resources. `none` is a dangling iterator or the first
element of an empty list. -/
def doReport (noResources : Bool) (transactionId : Nat) : Option (TrackerStation × Option Nat) :=
  if s.trackerClientMap.isEmpty then some (s, none)
  else if s.trackerClientList.isEmpty then none
  else if noResources then some (s, none)
  else s.countSilence.submit transactionId

/-- `OnReportResponsePacket`, with the client that is updated. -/
def onReportResponsePacket (packet : ReportResponse) : TrackerStation × Option Nat :=
  match s.trackerClientMap.find? packet.endpoint with
  | none => (s, none)
  | some client =>
    if s.lastReportTransactionId ≠ some packet.transactionId ∨ packet.errorCode ≠ 0 then
      (s, some client)
    else
      ({ s with
          noReportResponseTimes := 0
          isReportResponse := true
          currentReportTracker := s.currentReportTracker.or (some client) }, some client)

end TrackerStation

inductive StationAction where
  | start
  | stop
  | setTrackers (groupCount : Nat) (trackers : List TrackerInfo) (order : List Nat)
  | doReport (noResources : Bool) (transactionId : Nat)
  | onReportResponsePacket (packet : ReportResponse)

namespace TrackerStation

/-- The numbers of the clients that `SetTrackers` creates for a list. -/
def created (s : TrackerStation) (trackers : List TrackerInfo) : List Nat :=
  List.range' s.heap.length trackers.length

/-- One call. A shuffled order is one of the clients just created. -/
def next (s : TrackerStation) : StationAction → Option TrackerStation
  | .start => some s.start
  | .stop => some s.stop
  | .setTrackers groupCount trackers order =>
    if order.Perm (s.created trackers) then some (s.setTrackers groupCount trackers order) else none
  | .doReport noResources transactionId => (s.doReport noResources transactionId).map Prod.fst
  | .onReportResponsePacket packet => some (s.onReportResponsePacket packet).1

def Step (s : TrackerStation) (a : StationAction) (t : TrackerStation) : Prop := s.next a = some t

end TrackerStation

end Tracker
