import Peer.Basis.Run
import Peer.Storage.Base

/-! `DownloadSpeedLimiter`: requests for subpieces go out at once while the second's limit
lasts, else they wait in a queue that the next ticks let out. -/
namespace P2P

open Basis Storage

namespace DownloadSpeedLimiter

/-- `EndpointPacketInfo`. The packet is told by its turn among those offered, `subpieces` is
how many subpieces it asks for, and `lifeTime` is when `life_time_` was reset, in
milliseconds. -/
structure EndpointPacketInfo where
  packet : Nat
  subpieces : Nat
  transId : Nat
  isOldPacket : Bool
  lifeTime : Nat
deriving DecidableEq

/-- What the constructors of `EndpointPacketInfo` set: one for an old packet. -/
def EndpointPacketInfo.pieceCount (data : EndpointPacketInfo) : Nat :=
  if data.isOldPacket then 1 else u16 data.subpieces

/-- A packet that went out, with the limit for a tick that was in force then. A packet is a
copy when it is of the same transaction as the one that went out before it. -/
structure Request where
  data : EndpointPacketInfo
  isCopy : Bool
  limit : Option Nat

/-- How many subpieces a packet asks for that the one before it did not. -/
def Request.asked (request : Request) : Nat :=
  if request.isCopy then 0 else request.data.subpieces

def requested (requests : List Request) : Nat :=
  (requests.map Request.asked).sum

end DownloadSpeedLimiter

open DownloadSpeedLimiter in
/-- The limiter. The last four fields are for statements about runs: how many packets were
offered, what went out since the last tick began, the transaction of the last packet that
went out, and all that was sent. -/
structure DownloadSpeedLimiter where
  isRunning : Bool
  maxDataQueueLength : Nat
  packetLifeLimitInMs : Nat
  speedLimitInKBps : Nat
  tickIntervalInMs : Nat
  packetNumberPerTick : Nat
  lastTransId : Nat
  sentCount : Nat
  dataQueue : List EndpointPacketInfo
  offered : Nat
  requests : List Request
  lastSent : Nat
  sent : List EndpointPacketInfo

namespace DownloadSpeedLimiter

variable (s : DownloadSpeedLimiter)

/-- The constructor, which sets neither the tick interval nor what counts as sent. Its
parameters are clamped only after the fields have been set from them. -/
def create (maxDataQueueLength packetLifeLimitInMs tickIntervalInMs sentCount : Nat) :
    DownloadSpeedLimiter where
  isRunning := true
  maxDataQueueLength := maxDataQueueLength
  packetLifeLimitInMs := packetLifeLimitInMs
  speedLimitInKBps := 2 ^ 32 - 1
  tickIntervalInMs := tickIntervalInMs
  packetNumberPerTick := 2 ^ 32 - 1
  lastTransId := 0
  sentCount := sentCount
  dataQueue := []
  offered := 0
  requests := []
  lastSent := 0
  sent := []

def stop : DownloadSpeedLimiter :=
  if s.isRunning then { s with isRunning := false, dataQueue := [] } else s

/-- How much a tick may request; a negative speed limit is none. -/
def limit : Option Nat :=
  if 2 ^ 31 ≤ s.speedLimitInKBps then none else some s.packetNumberPerTick

/-- A packet goes out. An old packet may be held back by the configuration all the same. -/
def letOut (data : EndpointPacketInfo) (isSent : Bool) : DownloadSpeedLimiter :=
  { s with
    requests := s.requests ++ [⟨data, s.lastSent == data.transId, s.limit⟩]
    lastSent := data.transId
    sent := if isSent then s.sent ++ [data] else s.sent }

/-- A packet of another transaction than the last one counts with its subpieces. -/
def submit (transId subpieces : Nat) : DownloadSpeedLimiter :=
  if transId ≠ s.lastTransId then
    { s with sentCount := u32 (s.sentCount + subpieces), lastTransId := transId }
  else s

/-- `DoRequestSubPiece`, the same for packets of both kinds. -/
def doRequestSubPiece (data : EndpointPacketInfo) (hasStatistic : Bool) : DownloadSpeedLimiter :=
  if s.isRunning = false then s
  else if s.maxDataQueueLength ≤ s.dataQueue.length ∨ s.speedLimitInKBps = 0 then
    { s with dataQueue := s.dataQueue.tail ++ [data] }
  else if 2 ^ 31 ≤ s.speedLimitInKBps then
    if hasStatistic ∧ data.transId ≠ s.lastTransId then
      { s with lastTransId := data.transId }.letOut data true
    else s.letOut data true
  else if s.sentCount < s.packetNumberPerTick then
    if hasStatistic then (s.submit data.transId data.subpieces).letOut data true
    else s.letOut data true
  else { s with dataQueue := s.dataQueue ++ [data] }

def isTimeOut (data : EndpointPacketInfo) (now : Nat) : Bool :=
  s.packetLifeLimitInMs ≠ 0 ∧
    u32 (s.packetLifeLimitInMs + s.tickIntervalInMs) < u32 (now - data.lifeTime)

/-- The loop of `OnTimerElapsed` over the packets of the queue. -/
def drain (now : Nat) (openRequestSubpiecePacketOld : Bool) :
    List EndpointPacketInfo → DownloadSpeedLimiter → DownloadSpeedLimiter
  | [], s => { s with dataQueue := [] }
  | data :: rest, s =>
      if s.sentCount < s.packetNumberPerTick then
        drain now openRequestSubpiecePacketOld rest
          (if s.isTimeOut data now then s
          else (s.submit data.transId data.pieceCount).letOut data
            (!data.isOldPacket || openRequestSubpiecePacketOld))
      else { s with dataQueue := data :: rest }

def onTimerElapsed (now : Nat) (openRequestSubpiecePacketOld : Bool) : DownloadSpeedLimiter :=
  if s.isRunning = false then s
  else drain now openRequestSubpiecePacketOld s.dataQueue { s with sentCount := 0, requests := [] }

def setSpeedLimitInKBps (speedLimitInKBps : Nat) : DownloadSpeedLimiter :=
  if s.isRunning = false ∨ s.speedLimitInKBps = speedLimitInKBps then s
  else
    { s with
      speedLimitInKBps := speedLimitInKBps
      packetNumberPerTick := u32 (speedLimitInKBps * 1000) / 1000 }

/-- `GetRestCount`, with the limit for downloads that is configured. -/
def getRestCount (p2pDownloadSpeedLimit : Nat) : Nat :=
  if 2 ^ 31 ≤ s.speedLimitInKBps then p2pDownloadSpeedLimit
  else
    min
      (if 0 < subU32 s.packetNumberPerTick s.sentCount then
        subU32 s.packetNumberPerTick s.sentCount
      else 0)
      p2pDownloadSpeedLimit

/-- What can happen to a limiter. -/
inductive Action where
  | offer (subpieces transId : Nat) (isOldPacket hasStatistic : Bool) (now : Nat)
  | tick (now : Nat) (openRequestSubpiecePacketOld : Bool)
  | setSpeedLimit (speedLimitInKBps : Nat)
  | stop

/-- The packet that an offer brings. -/
def offeredPacket (subpieces transId : Nat) (isOldPacket : Bool) (now : Nat) :
    EndpointPacketInfo :=
  ⟨s.offered, subpieces, transId, isOldPacket, now⟩

def next : Action → DownloadSpeedLimiter
  | .offer subpieces transId isOldPacket hasStatistic now =>
      { s with offered := s.offered + 1 }.doRequestSubPiece
        (s.offeredPacket subpieces transId isOldPacket now) hasStatistic
  | .tick now openRequestSubpiecePacketOld => s.onTimerElapsed now openRequestSubpiecePacketOld
  | .setSpeedLimit speedLimitInKBps => s.setSpeedLimitInKBps speedLimitInKBps
  | .stop => s.stop

def Step (s : DownloadSpeedLimiter) (a : Action) (t : DownloadSpeedLimiter) : Prop := next s a = t

end DownloadSpeedLimiter

end P2P
