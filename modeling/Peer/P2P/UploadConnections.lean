import Peer.P2P.IpPool
import Peer.Storage.Base

/-! The bookkeeping of upload connections: who is connected, who of them is uploaded
to, and at what speed the other side says it receives. Packets of peers and the
rounds of the timer change it; times are ticks in milliseconds. -/
namespace P2P

open Basis Storage

/-- Conversion of a `boost::int32_t` to a `boost::uint32_t`. -/
def asUInt32 (n : Int) : Nat := (n % 2 ^ 32).toNat

/-- Conversion of a `boost::uint32_t` to a `boost::int32_t`. -/
def asInt32 (n : Nat) : Int := if n < 2 ^ 31 then n else (n : Int) - 2 ^ 32

/-- `measure::ByteSpeedMeter`: the bytes of the last 60 seconds, a slot for each. -/
structure ByteSpeedMeter where
  startTime : Nat
  historyBytes : Nat → Nat
  currentSec : Nat

namespace ByteSpeedMeter

/-- `Clear`, as the constructor calls it. -/
def clear : ByteSpeedMeter := ⟨0, fun _ => 0, 0⟩

/-- `CheckTickCount`: the slots of the seconds that went by are emptied. -/
def checkTickCount (meter : ByteSpeedMeter) (tick : Nat) : ByteSpeedMeter :=
  let sec := u32 (tick / 1000)
  if sec = meter.currentSec then meter
  else
    { meter with
      currentSec := sec
      historyBytes := fun slot =>
        if 60 ≤ subU32 sec meter.currentSec then 0
        else if (List.range (sec - meter.currentSec)).any
            (fun k => (meter.currentSec + 1 + k) % 60 == slot) then 0
        else meter.historyBytes slot }

def submitBytes (meter : ByteSpeedMeter) (bytes tick : Nat) : ByteSpeedMeter :=
  let meter := meter.checkTickCount tick
  { meter with
    historyBytes := fun slot =>
      if slot = meter.currentSec % 60 then u32 (meter.historyBytes slot + bytes)
      else meter.historyBytes slot }

/-- `CurrentByteSpeed`: bytes per second over the five seconds before the current one. -/
def currentByteSpeed (meter : ByteSpeedMeter) (tick : Nat) : Nat :=
  let meter := meter.checkTickCount tick
  let lastSec := subU32 meter.currentSec 1
  let bound := subU32 lastSec 5
  let bytes := ((List.range (lastSec - bound)).map
    fun k => meter.historyBytes ((bound + 1 + k) % 60)).sum
  let elapsed := if u32 (tick - meter.startTime) = 0 then 1 else u32 (tick - meter.startTime)
  if elapsed > 5000 then u32 (bytes / 5) else u32 (1000 * bytes / elapsed)

end ByteSpeedMeter

/-- `statistic::SpeedInfoStatistic`, as far as the upload speed goes. -/
structure SpeedInfoStatistic where
  isRunning : Bool
  nowUploadSpeed : Nat
  uploadSpeedMeter : ByteSpeedMeter

namespace SpeedInfoStatistic

/-- The constructor, which does not start the statistic. -/
def create : SpeedInfoStatistic := ⟨false, 0, .clear⟩

def submitUploadedBytes (info : SpeedInfoStatistic) (bytes tick : Nat) : SpeedInfoStatistic :=
  { info with uploadSpeedMeter := info.uploadSpeedMeter.submitBytes bytes tick }

/-- `GetSpeedInfo().NowUploadSpeed`, after which only a running statistic has changed. -/
def getSpeedInfo (info : SpeedInfoStatistic) (tick : Nat) : SpeedInfoStatistic :=
  if !info.isRunning then info
  else
    { info with
      nowUploadSpeed := info.uploadSpeedMeter.currentByteSpeed tick
      uploadSpeedMeter := info.uploadSpeedMeter.checkTickCount tick }

end SpeedInfoStatistic

/-- `PEER_UPLOAD_INFO`. A tick counter is the tick at which it was reset. -/
structure PeerUploadInfo where
  lastTalkTime : Nat
  lastDataTime : Nat
  ipPoolSize : Nat
  lastDataTransIds : List Nat
  isOpenService : Bool
  isLive : Bool
  speedInfo : SpeedInfoStatistic
  connectedTime : Nat

namespace PeerUploadInfo

/-- The constructor. `TickCounter(0)` of the first two is reset before it is read. -/
def create (now : Nat) : PeerUploadInfo :=
  ⟨0, 0, 0, [0, 0, 0, 0, 0], false, false, .create, now⟩

/-- The position of the smallest id, the first of equal ones. -/
def minPos (ids : List Nat) : Nat :=
  (List.range ids.length).foldl (fun best i => if ids.getD i 0 < ids.getD best 0 then i else best) 0

/-- `UpdateLastDataTransID`, of an id that `IsInLastDataTransIDs` did not find. -/
def updateLastDataTransID (info : PeerUploadInfo) (id : Nat) : PeerUploadInfo :=
  let pos := minPos info.lastDataTransIds
  if info.lastDataTransIds.getD pos 0 < id then
    { info with lastDataTransIds := info.lastDataTransIds.set pos id }
  else info

end PeerUploadInfo

/-- What other modules answer: the limits of `P2PModule`, all `boost::int32_t`, and the
upload speed that the statistics show. -/
structure UploadLimits where
  speedLimitInKBps : Int
  maxConnectPeers : Int
  maxUploadPeers : Int
  uploadDataSpeed : Nat
  speedLimitInKBps_lt : speedLimitInKBps < 2 ^ 31 := by decide
  maxConnectPeers_lt : maxConnectPeers < 2 ^ 31 := by decide
  maxUploadPeers_lt : maxUploadPeers < 2 ^ 31 := by decide

/-- `UdpBasedUploadConnectionsManagement`. A set is a map without values. -/
structure UploadConnections where
  acceptConnectingPeers : OrderedMap SocketAddr PeerUploadInfo
  acceptUploadingPeers : OrderedMap SocketAddr Unit
  uploadingPeersSpeed : OrderedMap SocketAddr (Nat × Nat)

namespace UploadConnections

def empty : UploadConnections := ⟨[], [], []⟩

variable (m : UploadConnections) (now : Nat) (ep : SocketAddr)

def isPeerConnected : Bool := (m.acceptConnectingPeers.find? ep).isSome

def isPeerAcceptedForUpload : Bool := (m.acceptUploadingPeers.find? ep).isSome

/-- Writing through `GetPeerUploadInfo`. -/
def updatePeer (f : PeerUploadInfo → PeerUploadInfo) : UploadConnections :=
  { m with acceptConnectingPeers := m.acceptConnectingPeers.update ep (.create now) f }

/-- Reading through `GetPeerUploadInfo`; `updatePeer` with `id` is what it leaves. -/
def peerUploadInfo : PeerUploadInfo := (m.acceptConnectingPeers.find? ep).getD (.create now)

def addConnection : UploadConnections := m.updatePeer now ep fun _ => .create now

def addUploadConnection : UploadConnections :=
  { m with
    acceptUploadingPeers := m.acceptUploadingPeers.insert ep ()
    uploadingPeersSpeed := m.uploadingPeersSpeed.update ep (0, now) fun _ => (0, now) }

def updateConnectionHeartbeat : UploadConnections :=
  m.updatePeer now ep fun info => { info with lastTalkTime := now }

def updateUploadHeartbeat : UploadConnections :=
  m.updatePeer now ep fun info => { info with lastDataTime := now }

def updatePeerUploadSpeed (speed : Nat) : UploadConnections :=
  { m with uploadingPeersSpeed := m.uploadingPeersSpeed.update ep (0, now) fun _ => (speed, now) }

/-- `TryAddUniqueTransactionId`: an id that is known is refused. -/
def tryAddUniqueTransactionId (id : Nat) : UploadConnections :=
  m.updatePeer now ep fun info =>
    if info.lastDataTransIds.contains id then info else info.updateLastDataTransID id

def kickConnection : UploadConnections :=
  ⟨m.acceptConnectingPeers.erase ep, m.acceptUploadingPeers.erase ep, m.uploadingPeersSpeed.erase ep⟩

/-- The two erasures of `KickABadUploadConnection`. -/
def stopUpload : UploadConnections :=
  { m with
    acceptUploadingPeers := m.acceptUploadingPeers.erase ep
    uploadingPeersSpeed := m.uploadingPeersSpeed.erase ep }

/-- The test of the loop in `KickABadUploadConnection`. -/
def isBadUpload (limits : UploadLimits) (candidate : PeerUploadInfo) : Bool :=
  match m.acceptConnectingPeers.find? ep with
  | some info =>
    now - info.lastDataTime ≥ 3 * 1000 ||
      (candidate.isOpenService && !info.isOpenService &&
        asInt32 limits.uploadDataSpeed + 5 * 1024 > limits.speedLimitInKBps * 1024)
  | none => false

def kickABadUploadConnection (limits : UploadLimits) (candidate : PeerUploadInfo) :
    UploadConnections × Bool :=
  match m.acceptUploadingPeers.keys.find? (fun ep => m.isBadUpload now ep limits candidate) with
  | some ep => (m.stopUpload ep, true)
  | none => (m, false)

/-- At most three uploads more than the limit says. -/
def fewUploads (limits : UploadLimits) : Bool :=
  m.acceptUploadingPeers.length ≤ u32 (asUInt32 limits.maxUploadPeers + 3)

def acceptsNewUploadConnection (limits : UploadLimits) : UploadConnections × Bool :=
  if limits.speedLimitInKBps ≤ -1 then (m, true)
  else if limits.maxUploadPeers = 0 then (m, false)
  else if asUInt32 limits.maxUploadPeers > m.acceptUploadingPeers.length then (m, true)
  else
    let candidate := m.peerUploadInfo now ep
    let (m, kicked) := (m.updatePeer now ep id).kickABadUploadConnection now limits candidate
    if kicked then (m, true)
    else if m.fewUploads limits && u32 (limits.uploadDataSpeed + 5 * 1024) <
        u32 (asUInt32 limits.speedLimitInKBps * 1024) then (m, true)
    else if candidate.ipPoolSize > 0 && candidate.ipPoolSize ≤ 30 && m.fewUploads limits then (m, true)
    else (m, false)

/-- Some upload goes to a peer that is neither live nor of the open service. -/
def uploadingToNonOpenServicePeer : Bool :=
  m.acceptUploadingPeers.keys.any fun ep =>
    match m.acceptConnectingPeers.find? ep with
    | some info => !info.isLive && !info.isOpenService
    | none => false

def acceptsNewConnection (limits : UploadLimits) (ipPoolSize : Nat) : Bool :=
  if limits.speedLimitInKBps ≤ -1 then true
  else if limits.maxConnectPeers = 0 then false
  else if asUInt32 limits.maxConnectPeers > m.acceptConnectingPeers.length then true
  else if ipPoolSize > 0 && ipPoolSize ≤ 40 &&
      u32 (asUInt32 limits.maxConnectPeers + 3) > m.acceptConnectingPeers.length then true
  else if u32 (asUInt32 limits.speedLimitInKBps * 1024) ≥ u32 (limits.uploadDataSpeed + 5 * 1024) then
    true
  else m.uploadingToNonOpenServicePeer

/-- `KickTimedOutConnections`: the loop erases as it goes. -/
def kickTimedOutConnections : UploadConnections :=
  m.acceptConnectingPeers.foldl
    (fun m entry => if now - entry.2.lastTalkTime ≥ 10 * 1000 then m.kickConnection entry.1 else m) m

/-- The connection is no longer protected as a new one. -/
def isUnprotected (protection : Nat) (info : PeerUploadInfo) : Bool :=
  now - info.connectedTime ≥ protection * 1000

/-- The loop of `KickBadConnections` over connections in the order of their speed. -/
def kickLoop (desirable protection : Nat) :
    List (Nat × SocketAddr) → Nat → UploadConnections → UploadConnections
  | [], _, m => m
  | (speed, ep) :: rest, need, m =>
    if need = 0 ∨ speed ≥ desirable then m
    else
      let info := m.peerUploadInfo now ep
      let m := m.updatePeer now ep id
      if isUnprotected now protection info then
        kickLoop desirable protection rest (need - 1) (m.kickConnection ep)
      else kickLoop desirable protection rest need m

/-- The speeds `KickBadConnections` reads, slow connections first; equal ones keep
the order of the map. -/
def kickUploadConnectionMap : List (Nat × SocketAddr) :=
  (m.acceptConnectingPeers.map fun entry =>
    ((entry.2.speedInfo.getSpeedInfo now).nowUploadSpeed, entry.1)).insertionSort
      fun a b => a.1 ≤ b.1

/-- What reading the speeds leaves. -/
def withSpeedsRead : UploadConnections :=
  { m with acceptConnectingPeers := m.acceptConnectingPeers.map fun entry =>
      (entry.1, { entry.2 with speedInfo := entry.2.speedInfo.getSpeedInfo now }) }

def kickBadConnections (limits : UploadLimits) (desirable protection : Nat) : UploadConnections :=
  if limits.maxConnectPeers < 0 ∨ limits.speedLimitInKBps < 0 then m
  else if m.acceptConnectingPeers.length > asUInt32 limits.maxConnectPeers then
    kickLoop now desirable protection (m.kickUploadConnectionMap now)
      (m.acceptConnectingPeers.length - asUInt32 limits.maxConnectPeers) (m.withSpeedsRead now)
  else m

/-- The fields `OnConnectPacket` sets for a peer it answers. -/
def onConnectPacket (limits : UploadLimits) (isWatchingLive : Bool) (ipPoolSize : Nat)
    (inst : Option Bool) (isLive : Bool) : UploadConnections :=
  if isWatchingLive || (!m.isPeerConnected ep && !m.acceptsNewConnection limits ipPoolSize) then m
  else
    match inst with
    | none => m
    | some isOpenService =>
      let m := if m.isPeerConnected ep then m else m.addConnection now ep
      m.updatePeer now ep fun info =>
        { info with
          lastTalkTime := now
          ipPoolSize := ipPoolSize
          isOpenService := isOpenService
          isLive := isLive
          connectedTime := now }

/-- `VodUploadManager::OnRequestSubPiecePacket` and `OnLiveRequestSubPiecePacket`, as far
as connections go. `served` says that an instance was found (and uploading is allowed). -/
def onRequestSubPiecePacket (limits : UploadLimits) (served : Bool) (transactionId : Nat) :
    UploadConnections :=
  if !m.isPeerConnected ep then m
  else
    let m := m.updateConnectionHeartbeat now ep
    let (m, accepted) :=
      if m.isPeerAcceptedForUpload ep then (m, true)
      else
        let (m, accepts) := m.acceptsNewUploadConnection now ep limits
        if accepts then (m.addUploadConnection now ep, true) else (m, false)
    if !accepted then m
    else
      let m := m.updateUploadHeartbeat now ep
      if served then m.tryAddUniqueTransactionId now ep transactionId else m

/-- Packets that only show that the peer is there. -/
def onHeartbeatPacket : UploadConnections :=
  if m.isPeerConnected ep then m.updateConnectionHeartbeat now ep else m

def onReportSpeedPacket (speed : Nat) : UploadConnections :=
  if !m.isPeerConnected ep then m
  else
    let m := m.updateConnectionHeartbeat now ep
    if m.isPeerAcceptedForUpload ep then m.updatePeerUploadSpeed now ep speed else m

/-- The end of `OnAsyncGetSubPieceSucced`. -/
def onSubPieceSent (bytes : Nat) : UploadConnections :=
  if m.isPeerConnected ep then
    m.updatePeer now ep fun info =>
      { info with speedInfo := info.speedInfo.submitUploadedBytes bytes now }
  else m

end UploadConnections

/-- The connections of one upload manager, and the tick it is. -/
structure UploadDesk where
  now : Nat
  connections : UploadConnections

/-- What happens to the connections of a manager. A round of its timer is `kickAll` or
`kickBad`, and then `kickTimedOut`. -/
inductive UploadDeskAction where
  | elapse (ticks : Nat)
  | connect (ep : SocketAddr) (limits : UploadLimits) (isWatchingLive : Bool) (ipPoolSize : Nat)
      (inst : Option Bool) (isLive : Bool)
  | requestSubPiece (ep : SocketAddr) (limits : UploadLimits) (served : Bool) (transactionId : Nat)
  | heartbeat (ep : SocketAddr)
  | reportSpeed (ep : SocketAddr) (speed : Nat)
  | subPieceSent (ep : SocketAddr) (bytes : Nat)
  | kickBad (limits : UploadLimits) (desirable protection : Nat)
  | kickTimedOut
  | kickAll
  | closeSession (ep : SocketAddr)

namespace UploadDesk

def start : UploadDesk := ⟨0, .empty⟩

def next (s : UploadDesk) : UploadDeskAction → UploadDesk
  | .elapse ticks => { s with now := s.now + ticks }
  | .connect ep limits isWatchingLive ipPoolSize inst isLive =>
    { s with connections :=
        s.connections.onConnectPacket s.now ep limits isWatchingLive ipPoolSize inst isLive }
  | .requestSubPiece ep limits served transactionId =>
    { s with connections :=
        s.connections.onRequestSubPiecePacket s.now ep limits served transactionId }
  | .heartbeat ep => { s with connections := s.connections.onHeartbeatPacket s.now ep }
  | .reportSpeed ep speed =>
    { s with connections := s.connections.onReportSpeedPacket s.now ep speed }
  | .subPieceSent ep bytes => { s with connections := s.connections.onSubPieceSent s.now ep bytes }
  | .kickBad limits desirable protection =>
    { s with connections := s.connections.kickBadConnections s.now limits desirable protection }
  | .kickTimedOut => { s with connections := s.connections.kickTimedOutConnections s.now }
  | .kickAll => { s with connections := .empty }
  | .closeSession ep => { s with connections := s.connections.kickConnection ep }

end UploadDesk

end P2P
