import Peer.Basis.PriorityQueue
import Peer.Basis.Run
import Peer.Storage.Base

/-! `UploadSpeedLimiter`: packets go out at once while there is quota, else they wait in a
queue that four ticks a second let out. -/
namespace P2P

open Basis Storage

/-- `EndpointPacketInfo`. The packet is told by its turn among those offered, and `lifeTime`
is when `life_time_` was reset, in milliseconds. -/
structure EndpointPacketInfo where
  packet : Nat
  priority : Nat
  destProtocolVersion : Nat
  lifeTime : Nat
deriving DecidableEq

def uplimitMaxDataQueueLength : Nat := 400

def uplimitPacketLifeLimitInMs : Nat := 2750

def EndpointPacketInfo.isTimeOut (data : EndpointPacketInfo) (now : Nat) : Bool :=
  uplimitPacketLifeLimitInMs < now - data.lifeTime

/-- The order in which packets leave the queue. -/
def EndpointPacketInfo.Before : EndpointPacketInfo → EndpointPacketInfo → Prop :=
  Earlier EndpointPacketInfo.priority EndpointPacketInfo.packet

/-- The limiter. `times` is what the timer counts. The last four fields are for statements
about runs: how many packets were offered, and which of them were sent within the limit,
sent without one, and discarded. -/
structure UploadSpeedLimiter where
  speedLimitInKBps : Nat
  packetNumberPerTick : Nat
  packetNumberMakeUpPerSecond : Nat
  packetNumberMakeUp : Nat
  sentCount : Nat
  times : Nat
  dataQueue : List EndpointPacketInfo
  offered : Nat
  sent : List EndpointPacketInfo
  sentUnlimited : List EndpointPacketInfo
  discarded : List EndpointPacketInfo

namespace UploadSpeedLimiter

variable (s : UploadSpeedLimiter)

/-- The constructor. It does not set the number of packets per tick and what counts as sent. -/
def create (packetNumberPerTick sentCount times : Nat) : UploadSpeedLimiter where
  speedLimitInKBps := 2 ^ 32 - 1
  packetNumberPerTick := packetNumberPerTick
  packetNumberMakeUpPerSecond := 0
  packetNumberMakeUp := 0
  sentCount := sentCount
  times := times
  dataQueue := []
  offered := 0
  sent := []
  sentUnlimited := []
  discarded := []

/-- `SetSpeedLimitInKBps` when `IsWatchingLive` is false. -/
def setSpeedLimitInKBps (speedLimitInKBps : Nat) : UploadSpeedLimiter :=
  if s.speedLimitInKBps = speedLimitInKBps then s
  else
    { s with
      speedLimitInKBps := speedLimitInKBps
      packetNumberPerTick := speedLimitInKBps / 4
      packetNumberMakeUpPerSecond := subU32 speedLimitInKBps (u32 (speedLimitInKBps / 4 * 4)) }

/-- `packet_number_per_tick_ + packet_number_make_up_`. -/
def quota : Nat := u32 (s.packetNumberPerTick + s.packetNumberMakeUp)

/-- `data_queue_.insert`. -/
def insert (data : EndpointPacketInfo) : UploadSpeedLimiter :=
  { s with dataQueue := insertByPriority EndpointPacketInfo.priority data s.dataQueue }

/-- Erase the last packet of the queue. -/
def discardLast : UploadSpeedLimiter :=
  { s with
    dataQueue := s.dataQueue.dropLast
    discarded := s.discarded ++ s.dataQueue.getLast?.toList }

/-- `DoSendPacket`. -/
def doSendPacket (data : EndpointPacketInfo) (ignoreUploadSpeedLimit : Bool) : UploadSpeedLimiter :=
  if ignoreUploadSpeedLimit ∨ 2 ^ 31 ≤ s.speedLimitInKBps then
    { s with sentUnlimited := s.sentUnlimited ++ [data] }
  else if s.speedLimitInKBps = 0 then { s with discarded := s.discarded ++ [data] }
  else if uplimitMaxDataQueueLength ≤ s.dataQueue.length then (s.insert data).discardLast
  else if s.sentCount < s.quota then
    { s with sent := s.sent ++ [data], sentCount := u32 (s.sentCount + 1) }
  else s.insert data

/-- What the loop of `OnTimerElapsed` does with the packets of the queue. -/
structure Drained where
  sentCount : Nat
  sent : List EndpointPacketInfo
  timedOut : List EndpointPacketInfo
  kept : List EndpointPacketInfo

def drain (quota now : Nat) : Nat → List EndpointPacketInfo → Drained
  | sentCount, [] => ⟨sentCount, [], [], []⟩
  | sentCount, data :: rest =>
      if data.isTimeOut now then
        let d := drain quota now sentCount rest
        { d with timedOut := data :: d.timedOut }
      else if sentCount < quota then
        let d := drain quota now (u32 (sentCount + 1)) rest
        { d with sent := data :: d.sent }
      else
        let d := drain quota now sentCount rest
        { d with kept := data :: d.kept }

/-- `OnTimerElapsed`, at the next count of the timer. -/
def onTimerElapsed (now : Nat) : UploadSpeedLimiter :=
  let times := u32 (s.times + 1)
  let s := { s with
    times := times
    packetNumberMakeUp := if times % 4 = 0 then s.packetNumberMakeUpPerSecond else 0 }
  let d := drain s.quota now 0 s.dataQueue
  { s with
    sentCount := d.sentCount
    dataQueue := d.kept
    sent := s.sent ++ d.sent
    discarded := s.discarded ++ d.timedOut }

/-- What can happen: a packet is offered, or the timer ticks. -/
inductive Action where
  | offer (priority destProtocolVersion : Nat) (ignoreUploadSpeedLimit : Bool) (now : Nat)
  | tick (now : Nat)

/-- The packet that an offer brings. -/
def offeredPacket (priority destProtocolVersion now : Nat) : EndpointPacketInfo :=
  ⟨s.offered, priority, destProtocolVersion, now⟩

def next : Action → UploadSpeedLimiter
  | .offer priority destProtocolVersion ignoreUploadSpeedLimit now =>
      { s with offered := s.offered + 1 }.doSendPacket
        (s.offeredPacket priority destProtocolVersion now) ignoreUploadSpeedLimit
  | .tick now => s.onTimerElapsed now

def Step (s : UploadSpeedLimiter) (a : Action) (t : UploadSpeedLimiter) : Prop := next s a = t

end UploadSpeedLimiter

end P2P
