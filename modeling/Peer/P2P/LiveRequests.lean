import Mathlib.Data.List.Sort
import Peer.Basis.Run
import Peer.Live.Instance

/-! The subpiece requests of a live download. Each connection counts what it has
requested, and one manager holds the requests of all of them in a multimap. -/
namespace P2P

open Basis Storage Live

/-- `operator <` of `LiveSubPieceInfo`. -/
def isBefore (a b : LivePosition) : Bool :=
  a.blockId < b.blockId || (a.blockId == b.blockId && a.subPieceIndex < b.subPieceIndex)

/-- `LiveSubPieceRequestTask`. A connection is known by its number, the counter by the
time it was started. -/
structure LiveSubPieceRequestTask where
  timeout : Nat
  peerConnection : Nat
  transactionId : Nat
  requestTime : Nat
deriving DecidableEq

/-- An entry of `request_tasks_`. -/
abbrev LiveRequest := LivePosition × LiveSubPieceRequestTask

/-- What `BootStrapGeneralConfig` sets for the windows. -/
structure LiveWindowConfigs where
  liveMinimumWindowSize : Nat := 4
  liveMaximumWindowSize : Nat := 25
  udpserverMaximumWindowSize : Nat := 25
  udpserverMaximumRequests : Nat := 6

/-- `LivePeerConnection`, without what only feeds statistics. `taskSet` is a
`std::set` and `requestMap` a `std::multimap`, both in their order. -/
structure LivePeerConnection where
  endPoint : Nat × Nat
  isUdpServer : Bool
  configs : LiveWindowConfigs
  isRunning : Bool
  taskSet : List LivePosition
  windowSize : Int
  requestingCount : Int
  rttAvg : Nat
  requestMap : List (Nat × LivePosition)

/-- The fields of a `LiveSubPiecePacket` that the manager reads. -/
structure LiveSubPiecePacket where
  subPieceInfo : LivePosition
  endPoint : Nat × Nat
  transactionId : Nat

/-- The running `LiveP2PDownloader`: its connections, its request manager and what
these ask it for. `ids` is what `NewTransactionID` gives on its next calls. The last
fields record what happened: the requests issued, the requests removed, and on which
connections `OnSubPiece` or `OnSubPieceTimeout` was called. -/
structure LiveP2PDownloader where
  connections : Nat → LivePeerConnection
  created : Nat
  requestTasks : List LiveRequest
  now : Nat
  restTimeInSeconds : Nat
  isLiveLostPrejudgeEnable : Bool
  hasSubPiece : LivePosition → Bool
  ids : Nat → Nat
  issued : List LiveRequest
  removed : List LiveRequest
  calls : List Nat

namespace LiveSubPieceRequestManager

/-- `Add`: a multimap puts an entry behind those with the same key. -/
def add (requestTasks : List LiveRequest) (request : LiveRequest) : List LiveRequest :=
  requestTasks.orderedInsert (fun a b => isBefore a.1 b.1) request

end LiveSubPieceRequestManager

namespace LivePeerConnection

/-- The constructor and `Start`. -/
def start (endPoint : Nat × Nat) (isUdpServer : Bool) (configs : LiveWindowConfigs) :
    LivePeerConnection where
  endPoint := endPoint
  isUdpServer := isUdpServer
  configs := configs
  isRunning := true
  taskSet := []
  windowSize := 25
  requestingCount := 0
  rttAvg := 3000
  requestMap := []

def stop (conn : LivePeerConnection) : LivePeerConnection := { conn with isRunning := false }

def clearTaskQueue (conn : LivePeerConnection) : LivePeerConnection := { conn with taskSet := [] }

def addAssignedSubPiece (conn : LivePeerConnection) (subpiece : LivePosition) :
    LivePeerConnection :=
  if subpiece ∈ conn.taskSet then conn
  else { conn with taskSet := conn.taskSet.orderedInsert (fun a b => isBefore a b) subpiece }

/-- The recording of a packet, when the loss pre-judgement is enabled. -/
def record (conn : LivePeerConnection) (isLiveLostPrejudgeEnable : Bool) (transactionId : Nat)
    (subpieces : List LivePosition) : LivePeerConnection :=
  { conn with
    requestMap :=
      if isLiveLostPrejudgeEnable then
        subpieces.foldl
          (fun requestMap subpiece =>
            requestMap.orderedInsert (fun a b => a.1 < b.1) (transactionId, subpiece))
          conn.requestMap
      else conn.requestMap }

/-- `DeleteLostPackets`, with what it deletes. -/
def deleteLostPackets (conn : LivePeerConnection) (transactionId : Nat) :
    LivePeerConnection × List (Nat × LivePosition) :=
  ({ conn with requestMap := conn.requestMap.dropWhile fun lost => lost.1 < transactionId },
    conn.requestMap.takeWhile fun lost => lost.1 < transactionId)

/-- `LIMIT_MIN_MAX`. -/
def limitMinMax (value low high : Int) : Int :=
  let value := if high < value then high else value
  if value < low then low else value

/-- The window after the speed of the last second. -/
def updateWindow (conn : LivePeerConnection) (nowDownloadSpeed : Nat) : LivePeerConnection :=
  let fresh : Int := nowDownloadSpeed / 1024
  let smoothed := if fresh < conn.windowSize then (9 * conn.windowSize + fresh).tdiv 10 else fresh
  let high := if conn.isUdpServer then conn.configs.udpserverMaximumWindowSize
    else conn.configs.liveMaximumWindowSize
  { conn with windowSize := limitMinMax smoothed conn.configs.liveMinimumWindowSize high }

end LivePeerConnection

namespace LiveP2PDownloader

variable (s : LiveP2PDownloader)

def setConnection (c : Nat) (conn : LivePeerConnection) : LiveP2PDownloader :=
  { s with connections := Function.update s.connections c conn }

/-- `GetTimeoutAdjustment` of a connection that is running. -/
def getTimeoutAdjustment : Nat :=
  if 10 < s.restTimeInSeconds then
    let adjustment := u32 (500 + u32 (s.restTimeInSeconds * 100))
    if 5000 < adjustment then 5000 else adjustment
  else 500

/-- `RequestSubPieces` of connection `c`. -/
def requestSubPieces (c blockCount : Nat) (needCheck : Bool) : LiveP2PDownloader :=
  let conn := s.connections c
  if !conn.isRunning || blockCount == 0 || conn.taskSet.isEmpty then s
  else
    let subpieces := (conn.taskSet.take blockCount).filter fun subpiece =>
      !needCheck || !s.hasSubPiece subpiece
    let conn := { conn with taskSet := conn.taskSet.drop blockCount }
    if subpieces.isEmpty then s.setConnection c conn
    else
      let transactionId := s.ids 0
      let timeout := u32 (conn.rttAvg + s.getTimeoutAdjustment)
      let requests : List LiveRequest :=
        subpieces.map fun subpiece => (subpiece, ⟨timeout, c, transactionId, s.now⟩)
      let conn := conn.record s.isLiveLostPrejudgeEnable transactionId subpieces
      { s with
        ids := fun n => s.ids (n + 1)
        requestTasks := requests.foldl LiveSubPieceRequestManager.add s.requestTasks
        issued := s.issued ++ requests
        connections := Function.update s.connections c
          { conn with requestingCount := conn.requestingCount + subpieces.length } }

/-- The loop of `RequestTillFullWindow`. A round that requests nothing ends it; any other
takes something off the task set, so there are at most as many rounds as tasks. -/
def requestLoop (c : Nat) : Nat → LiveP2PDownloader → LiveP2PDownloader
  | 0, s => s
  | rounds + 1, s =>
      let conn := s.connections c
      if conn.requestingCount < conn.windowSize ∧ conn.taskSet ≠ [] then
        let s' := s.requestSubPieces c
          (if conn.isUdpServer then conn.configs.udpserverMaximumRequests else 6) false
        if (s'.connections c).requestingCount = conn.requestingCount then s'
        else requestLoop c rounds s'
      else s

def requestTillFullWindow (c : Nat) : LiveP2PDownloader :=
  if !(s.connections c).isRunning then s
  else requestLoop c (s.connections c).taskSet.length s

/-- `LivePeerConnection::OnSubPiece`. -/
def onSubPiece (c rtt : Nat) : LiveP2PDownloader :=
  let s := { s with calls := s.calls ++ [c] }
  let conn := s.connections c
  if !conn.isRunning then s
  else
    (s.setConnection c { conn with
      requestingCount := conn.requestingCount - 1
      rttAvg := u32 (u32 (conn.rttAvg * 9) + rtt) / 10 }).requestTillFullWindow c

/-- `LivePeerConnection::OnSubPieceTimeout`. -/
def onSubPieceTimeout (c : Nat) : LiveP2PDownloader :=
  let s := { s with calls := s.calls ++ [c] }
  let conn := s.connections c
  if !conn.isRunning then s
  else
    (s.setConnection c { conn with
      requestingCount := conn.requestingCount - 1 }).requestTillFullWindow c

/-- Erase an entry of `request_tasks_`. -/
def erase (request : LiveRequest) : LiveP2PDownloader :=
  { s with
    requestTasks := s.requestTasks.erase request
    removed := s.removed ++ [request] }

/-- `CheckExternalTimeout`. What the connections request while it runs has just been
started, so that only the entries it finds at first can have timed out. -/
def checkExternalTimeout : LiveP2PDownloader :=
  s.requestTasks.foldl
    (fun s request =>
      if request.2.timeout < s.now - request.2.requestTime then
        (s.onSubPieceTimeout request.2.peerConnection).erase request
      else s)
    s

/-- Erase the entry of a lost packet, if it is still there. -/
def eraseLost (lost : Nat × LivePosition) : LiveP2PDownloader × Nat :=
  match s.requestTasks.find? fun request =>
      request.1 = lost.2 ∧ request.2.transactionId = lost.1 with
  | some request => (s.erase request, 1)
  | none => (s, 0)

/-- Erase the entries of lost packets and count them. -/
def eraseAllLost : List (Nat × LivePosition) → LiveP2PDownloader → LiveP2PDownloader × Nat
  | [], s => (s, 0)
  | lost :: rest, s =>
      let (s, here) := s.eraseLost lost
      let (s, more) := eraseAllLost rest s
      (s, here + more)

/-- The task was requested by this packet. -/
def isMatched (packet : LiveSubPiecePacket) (request : LiveRequest) : Bool :=
  (s.connections request.2.peerConnection).endPoint = packet.endPoint &&
    request.2.transactionId = packet.transactionId

/-- `LiveSubPieceRequestManager::OnSubPiece`. All entries of the subpiece are erased; the
matched one is answered, the others time out, and so does what the packet overtook. -/
def onSubPiecePacket (packet : LiveSubPiecePacket) : LiveP2PDownloader :=
  let range := s.requestTasks.filter (·.1 = packet.subPieceInfo)
  let matched := (range.filter (s.isMatched packet)).getLast?
  let unmatched := range.filter fun request => !s.isMatched packet request
  let s := { s with
    requestTasks := s.requestTasks.filter (·.1 ≠ packet.subPieceInfo)
    removed := s.removed ++ range }
  match matched with
  | none =>
      unmatched.foldl (fun s request => s.onSubPieceTimeout request.2.peerConnection) s
  | some request =>
      let c := request.2.peerConnection
      let (conn, toDelete) := (s.connections c).deleteLostPackets packet.transactionId
      let s := (s.setConnection c conn).onSubPiece c (s.now - request.2.requestTime)
      let s := unmatched.foldl (fun s request => s.onSubPieceTimeout request.2.peerConnection) s
      let (s, lossCount) := eraseAllLost toDelete s
      (List.replicate lossCount c).foldl onSubPieceTimeout s

/-- `LivePeerConnection::OnP2PTimer`. -/
def onP2PTimer (c times nowDownloadSpeed : Nat) : LiveP2PDownloader :=
  if !(s.connections c).isRunning then s
  else
    (if times % 4 = 0 then
      s.setConnection c ((s.connections c).updateWindow nowDownloadSpeed) else s).requestTillFullWindow c

end LiveP2PDownloader

/-- What can happen. `others` is the time that passes and what the rest of the program
does to what requests read. -/
inductive LiveRequestAction where
  | start (endPoint : Nat × Nat) (isUdpServer : Bool) (configs : LiveWindowConfigs)
  | stop (c : Nat)
  | addAssignedSubPiece (c : Nat) (subpiece : LivePosition)
  | clearTaskQueue (c : Nat)
  | onP2PTimer (c times nowDownloadSpeed : Nat)
  | onSubPiece (packet : LiveSubPiecePacket)
  | checkExternalTimeout
  | others (now restTimeInSeconds : Nat) (isLiveLostPrejudgeEnable : Bool)
      (hasSubPiece : LivePosition → Bool)

namespace LiveP2PDownloader

/-- Before the first connection. -/
def create : LiveP2PDownloader where
  connections _ := (LivePeerConnection.start (0, 0) false {}).stop
  created := 0
  requestTasks := []
  now := 0
  restTimeInSeconds := 0
  isLiveLostPrejudgeEnable := false
  hasSubPiece _ := false
  ids n := n
  issued := []
  removed := []
  calls := []

def perform (s : LiveP2PDownloader) : LiveRequestAction → LiveP2PDownloader
  | .start endPoint isUdpServer configs =>
      { s.setConnection s.created (.start endPoint isUdpServer configs) with
        created := s.created + 1 }
  | .stop c => s.setConnection c (s.connections c).stop
  | .addAssignedSubPiece c subpiece =>
      s.setConnection c ((s.connections c).addAssignedSubPiece subpiece)
  | .clearTaskQueue c => s.setConnection c (s.connections c).clearTaskQueue
  | .onP2PTimer c times nowDownloadSpeed => s.onP2PTimer c times nowDownloadSpeed
  | .onSubPiece packet => s.onSubPiecePacket packet
  | .checkExternalTimeout => s.checkExternalTimeout
  | .others now restTimeInSeconds isLiveLostPrejudgeEnable hasSubPiece =>
      { s with
        now := now
        restTimeInSeconds := restTimeInSeconds
        isLiveLostPrejudgeEnable := isLiveLostPrejudgeEnable
        hasSubPiece := hasSubPiece }

/-- One step, with what `NewTransactionID` gives in it. -/
def next (s : LiveP2PDownloader) (a : (Nat → Nat) × LiveRequestAction) :
    Option LiveP2PDownloader :=
  some (perform { s with ids := a.1 } a.2)

def Step (s : LiveP2PDownloader) (a : (Nat → Nat) × LiveRequestAction)
    (t : LiveP2PDownloader) : Prop := s.next a = some t

end LiveP2PDownloader

end P2P
