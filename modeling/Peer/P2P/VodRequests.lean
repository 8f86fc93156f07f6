import Mathlib.Data.List.Sort
import Peer.Basis.Run
import Peer.Storage.Base

/-! The subpiece requests of a VOD download. A connection counts its requests and keeps
the count within a window; the tasks of all connections are in one multimap. -/
namespace P2P

open Basis Storage

/-- `SubPieceRequestTask`. A task is known by the number it was allocated with, its
connection by the number of the connection. -/
structure SubPieceRequestTask where
  id : Nat
  timeout : Nat
  peerConnection : Nat
  requestTimeElapse : Nat
  dead : Bool
deriving DecidableEq

/-- An entry of `request_tasks_`. -/
abbrev VodRequest := SubPieceInfo × SubPieceRequestTask

def peerConnectionMinWindowSize : Nat := 10
def peerConnectionMaxWindowSize : Nat := 25
def peerConnectionMinDeltaSize : Nat := 2
def p2pDownloadMultiSubpiecesCount : Nat := 6

/-- `PeerConnection`, without what only feeds statistics, timeouts and announces. The last
two fields record what `RequestTillFullWindow` took off the counter, and how many answers
and timeouts found the counter at zero. -/
structure PeerConnection where
  endPoint : Nat × Nat
  peerVersion : Nat
  isRunning : Bool
  taskQueue : List SubPieceInfo
  windowSize : Nat
  currDeltaSize : Nat
  requestingCount : Nat
  accumulativeSubpieceNum : Nat
  deltaTaken : Nat
  settledAtZero : Nat

/-- What a step is told by the rest of the program: the timeouts of the tasks it adds,
which subpieces the instance has, whether old request packets are open, and which
versions `PEER_VERSION_V3` and `PEER_VERSION_V4` are. -/
structure Surroundings where
  timeouts : Nat → Nat
  hasSubPiece : SubPieceInfo → Bool
  openRequestSubpiecePacketOld : Bool
  peerVersionV3 : Nat
  peerVersionV4 : Nat

/-- The running `P2PDownloader`: its connections and its request manager. -/
structure P2PDownloader where
  connections : Nat → PeerConnection
  created : Nat
  requestTasks : List VodRequest
  allocated : Nat

namespace PeerConnection

/-- The constructor and `Start`. -/
def start (endPoint : Nat × Nat) (peerVersion : Nat) : PeerConnection where
  endPoint := endPoint
  peerVersion := peerVersion
  isRunning := true
  taskQueue := []
  windowSize := peerConnectionMinWindowSize
  currDeltaSize := peerConnectionMinDeltaSize
  requestingCount := 0
  accumulativeSubpieceNum := 0
  deltaTaken := 0
  settledAtZero := 0

def stop (conn : PeerConnection) : PeerConnection :=
  { conn with isRunning := false, taskQueue := [] }

def addAssignedSubPiece (conn : PeerConnection) (info : SubPieceInfo) : PeerConnection :=
  if conn.isRunning then { conn with taskQueue := conn.taskQueue ++ [info] } else conn

def clearTaskQueue (conn : PeerConnection) : PeerConnection :=
  if conn.isRunning then { conn with taskQueue := [] } else conn

/-- A request packet leaves: the version knows `RequestSubPiecePacket`, or the old packet
is open. -/
def sends (conn : PeerConnection) (env : Surroundings) : Bool :=
  env.peerVersionV4 ≤ conn.peerVersion || conn.peerVersion == env.peerVersionV3 ||
    env.openRequestSubpiecePacketOld

/-- `LIMIT_MIN_MAX`. -/
def limitMinMax (value low high : Nat) : Nat :=
  let value := if high < value then high else value
  if value < low then low else value

/-- The window and the delta once a second. `isSlow` compares the download speed with the
data rate. -/
def updateWindow (conn : PeerConnection) (nowDownloadSpeed connectedTime : Nat)
    (isSlow : Bool) : PeerConnection :=
  let currentWindowSize := nowDownloadSpeed / 1000
  let windowSize :=
    if currentWindowSize < conn.windowSize then
      u32 (currentWindowSize + u32 (9 * conn.windowSize)) / 10
    else currentWindowSize
  { conn with
    windowSize := limitMinMax windowSize peerConnectionMinWindowSize peerConnectionMaxWindowSize
    currDeltaSize :=
      if connectedTime ≤ 3000 then peerConnectionMinDeltaSize + 2
      else if connectedTime ≤ 10000 ∧ isSlow = true then peerConnectionMinDeltaSize
      else 0 }

end PeerConnection

namespace P2PDownloader

variable (env : Surroundings) (s : P2PDownloader)

def setConnection (c : Nat) (conn : PeerConnection) : P2PDownloader :=
  { s with connections := Function.update s.connections c conn }

/-- `SubPieceRequestManager::Add`: a multimap puts an entry behind those with its key. -/
def add (info : SubPieceInfo) (timeout c : Nat) : P2PDownloader :=
  { s with
    requestTasks := s.requestTasks.orderedInsert (fun a b => ¬ b.1.le a.1)
      (info, ⟨s.allocated, timeout, c, 0, false⟩)
    allocated := s.allocated + 1 }

/-- `SendPacket`. Its early return adds no tasks. -/
def sendPacket (c : Nat) (subpieces : List SubPieceInfo) : P2PDownloader :=
  if (s.connections c).sends env then
    subpieces.foldl (fun s info => s.add info (env.timeouts s.allocated) c) s
  else s

/-- `ConnectionBase::RequestSubPieces` of a connection that runs. -/
def requestSubPieces (c subpieceCount : Nat) (needCheck : Bool) : P2PDownloader :=
  let conn := s.connections c
  if subpieceCount == 0 || conn.taskQueue.isEmpty then s
  else
    let subpieces := (conn.taskQueue.take subpieceCount).filter fun info =>
      !needCheck || !env.hasSubPiece info
    let s := s.setConnection c { conn with taskQueue := conn.taskQueue.drop subpieceCount }
    if subpieces.isEmpty then s
    else
      let s := s.sendPacket env c subpieces
      let conn := s.connections c
      s.setConnection c { conn with
        requestingCount := u32 (conn.requestingCount + subpieces.length) }

/-- `PeerConnection::RequestSubPiece` of a connection that runs. -/
def requestSubPiece (c : Nat) (info : SubPieceInfo) (needCheck : Bool) : P2PDownloader :=
  let conn := s.connections c
  if needCheck && env.hasSubPiece info then s
  else if !conn.sends env then s
  else
    (s.setConnection c { conn with requestingCount := u32 (conn.requestingCount + 1) }).add info
      (env.timeouts s.allocated) c

/-- `pop_front` of the task queue. -/
def popFront (c : Nat) : P2PDownloader :=
  let conn := s.connections c
  s.setConnection c { conn with taskQueue := conn.taskQueue.tail }

/-- The loop of `RequestTillFullWindow`. Every round takes something off the task queue,
so there are at most as many rounds as tasks. -/
def requestLoop (c : Nat) (needCheck : Bool) : Nat → P2PDownloader → P2PDownloader
  | 0, s => s
  | rounds + 1, s =>
      let conn := s.connections c
      if conn.requestingCount < conn.windowSize then
        match conn.taskQueue with
        | [] => s
        | info :: _ =>
            requestLoop c needCheck rounds
              (if 0x101 ≤ conn.peerVersion then
                let remaining := conn.windowSize - conn.requestingCount
                s.requestSubPieces env c
                  (if p2pDownloadMultiSubpiecesCount ≤ remaining then
                    p2pDownloadMultiSubpiecesCount else remaining) needCheck
              else (s.requestSubPiece env c info needCheck).popFront c)
      else s

/-- `PeerConnection::RequestTillFullWindow`. -/
def requestTillFullWindow (c : Nat) (needCheck : Bool) : P2PDownloader :=
  let conn := s.connections c
  if !conn.isRunning then s
  else
    let delta :=
      if !needCheck && subU32 conn.windowSize conn.requestingCount < conn.currDeltaSize then
        subU32 (u32 (conn.currDeltaSize + conn.requestingCount)) conn.windowSize
      else 0
    let s := requestLoop env c needCheck conn.taskQueue.length
      (s.setConnection c { conn with windowSize := u32 (conn.windowSize + delta) })
    let conn := s.connections c
    if 0 < delta then
      s.setConnection c { conn with
        windowSize := subU32 conn.windowSize delta
        requestingCount := subU32 conn.requestingCount delta
        deltaTaken := conn.deltaTaken + delta }
    else s

/-- `ConnectionBase::RequestNextSubpiece` of a connection that runs. -/
def requestNextSubpiece (c : Nat) : P2PDownloader :=
  let conn := s.connections c
  let num := u32 (conn.accumulativeSubpieceNum + 1)
  if num < 4 then s.setConnection c { conn with accumulativeSubpieceNum := num }
  else (s.setConnection c { conn with accumulativeSubpieceNum := 0 }).requestTillFullWindow env c true

/-- `ConnectionBase::OnSubPiece`, and also `OnTimeOut`, which differs in the delta time. -/
def onSettled (c : Nat) : P2PDownloader :=
  let conn := s.connections c
  if !conn.isRunning then s
  else
    (s.setConnection c { conn with
      requestingCount := if 0 < conn.requestingCount then conn.requestingCount - 1
        else conn.requestingCount
      settledAtZero := if 0 < conn.requestingCount then conn.settledAtZero
        else conn.settledAtZero + 1 }).requestNextSubpiece env c

/-- `ConnectionBase::OnSubPiece`. -/
def onSubPiece (c : Nat) : P2PDownloader := s.onSettled env c

/-- `ConnectionBase::OnTimeOut`. -/
def onTimeOut (c : Nat) : P2PDownloader := s.onSettled env c

/-- The entry a task is in. -/
def entryOf (id : Nat) : Option VodRequest := s.requestTasks.find? fun entry => entry.2.id = id

/-- The task behind a task in the multimap. -/
def following (id : Nat) : Option Nat :=
  ((s.requestTasks.dropWhile fun entry => entry.2.id ≠ id).tail.head?).map fun entry => entry.2.id

def erase (id : Nat) : P2PDownloader :=
  { s with requestTasks := s.requestTasks.filter fun entry => entry.2.id ≠ id }

/-- Assign to the fields of a task. -/
def modify (id : Nat) (f : SubPieceRequestTask → SubPieceRequestTask) : P2PDownloader :=
  { s with
    requestTasks := s.requestTasks.map fun entry =>
      if entry.2.id = id then (entry.1, f entry.2) else entry }

/-- The body of the loop of `SubPieceRequestManager::OnSubPiece` for the entry of a task. -/
def answerTask (endPoint : Nat × Nat) (entry : VodRequest) : P2PDownloader × Option Nat :=
  let task := entry.2
  if (s.connections task.peerConnection).endPoint = endPoint then
    let s := if task.dead then s else s.onSubPiece env task.peerConnection
    (s.erase task.id, s.following task.id)
  else (s, s.following task.id)

/-- The loop over the tasks of a subpiece. Tasks that are added meanwhile are visited too
where they come behind. -/
def answerLoop (info : SubPieceInfo) (endPoint : Nat × Nat) :
    Nat → Option Nat → P2PDownloader → P2PDownloader
  | 0, _, s => s
  | _ + 1, none, s => s
  | rounds + 1, some id, s =>
      match s.entryOf id with
      | none => s
      | some entry =>
          if entry.1 = info then
            let (s, next) := s.answerTask env endPoint entry
            answerLoop info endPoint rounds next s
          else s

/-- `SubPieceRequestManager::OnSubPiece`, after the subpiece was given to the instance. -/
def onSubPiecePacket (rounds : Nat) (info : SubPieceInfo) (endPoint : Nat × Nat) :
    P2PDownloader :=
  answerLoop env info endPoint rounds
    ((s.requestTasks.find? fun entry => entry.1 = info).map fun entry => entry.2.id) s

/-- The body of the loop of `CheckExternalTimeout`. -/
def ageTask (entry : VodRequest) : P2PDownloader × Option Nat :=
  let task := { entry.2 with requestTimeElapse := u32 (entry.2.requestTimeElapse + 250) }
  let s := s.modify task.id fun _ => task
  if task.dead ∧ 10 * 1000 ≤ task.requestTimeElapse then (s.erase task.id, s.following task.id)
  else if !task.dead ∧ task.timeout < task.requestTimeElapse then
    let s := (s.onTimeOut env task.peerConnection).modify task.id fun task =>
      { task with dead := true }
    (s, s.following task.id)
  else (s, s.following task.id)

def ageLoop : Nat → Option Nat → P2PDownloader → P2PDownloader
  | 0, _, s => s
  | _ + 1, none, s => s
  | rounds + 1, some id, s =>
      match s.entryOf id with
      | none => s
      | some entry =>
          let (s, next) := s.ageTask env entry
          ageLoop rounds next s

/-- `SubPieceRequestManager::CheckExternalTimeout`. -/
def checkExternalTimeout (rounds : Nat) : P2PDownloader :=
  ageLoop env rounds (s.requestTasks.head?.map fun entry => entry.2.id) s

/-- `PeerConnection::OnP2PTimer`. -/
def onP2PTimer (c times nowDownloadSpeed connectedTime : Nat) (isSlow : Bool) : P2PDownloader :=
  let conn := s.connections c
  if !conn.isRunning then s
  else
    let s :=
      if conn.accumulativeSubpieceNum ≠ 0 then
        (s.setConnection c { conn with accumulativeSubpieceNum := 0 }).requestTillFullWindow env c
          true
      else s
    if times % 4 = 0 then
      s.setConnection c ((s.connections c).updateWindow nowDownloadSpeed connectedTime isSlow)
    else s

end P2PDownloader

/-- What can happen. `rounds` bounds the loops over the tasks, which may stop early in
the model but not in the code. -/
inductive VodAction where
  | start (endPoint : Nat × Nat) (peerVersion : Nat)
  | stop (c : Nat)
  | addAssignedSubPiece (c : Nat) (info : SubPieceInfo)
  | clearTaskQueue (c : Nat)
  | requestTillFullWindow (c : Nat) (needCheck : Bool)
  | onP2PTimer (c times nowDownloadSpeed connectedTime : Nat) (isSlow : Bool)
  | onSubPiece (rounds : Nat) (info : SubPieceInfo) (endPoint : Nat × Nat)
  | checkExternalTimeout (rounds : Nat)

namespace P2PDownloader

/-- Before the first connection. -/
def create : P2PDownloader where
  connections _ := (PeerConnection.start (0, 0) 0).stop
  created := 0
  requestTasks := []
  allocated := 0

def perform (env : Surroundings) (s : P2PDownloader) : VodAction → P2PDownloader
  | .start endPoint peerVersion =>
      { s.setConnection s.created (.start endPoint peerVersion) with created := s.created + 1 }
  | .stop c => s.setConnection c (s.connections c).stop
  | .addAssignedSubPiece c info => s.setConnection c ((s.connections c).addAssignedSubPiece info)
  | .clearTaskQueue c => s.setConnection c (s.connections c).clearTaskQueue
  | .requestTillFullWindow c needCheck => s.requestTillFullWindow env c needCheck
  | .onP2PTimer c times nowDownloadSpeed connectedTime isSlow =>
      s.onP2PTimer env c times nowDownloadSpeed connectedTime isSlow
  | .onSubPiece rounds info endPoint => s.onSubPiecePacket env rounds info endPoint
  | .checkExternalTimeout rounds => s.checkExternalTimeout env rounds

/-- One step in its surroundings. -/
def next (s : P2PDownloader) (a : Surroundings × VodAction) : Option P2PDownloader :=
  some (s.perform a.1 a.2)

def Step (s : P2PDownloader) (a : Surroundings × VodAction) (t : P2PDownloader) : Prop :=
  s.next a = some t

end P2PDownloader

end P2P
