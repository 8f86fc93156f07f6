import Peer.P2P.IpPool
import Peer.P2P.UploadConnections

/-! The connections of a live download. Peers and UDP servers come from a pool each and
are connected to by a connector each; the connections of both are kept together, by
endpoint. -/
namespace P2P.LiveConnections

open Basis Storage

/-- `connect_type_`. -/
inductive ConnectType where
  | connectVod
  | connectLivePeer
  | connectLiveUdpserver
  | other (value : UInt8)
deriving DecidableEq

/-- `protocol::ConnectPacket`, as a reply; `fromSelf` when it carries the own GUID. -/
structure ConnectPacket where
  endPoint : SocketAddr
  connectType : ConnectType
  fromSelf : Bool
  peerInfo : CandidatePeerInfo

inductive ErrorCode where
  | ppvAnnouceNoResourceid
  | ppvSubpieceNoResourceid
  | other
deriving DecidableEq

structure LivePeerConnection where
  endPoint : SocketAddr
  connectType : ConnectType
  candidatePeerInfo : CandidatePeerInfo
  isRunning : Bool

namespace LivePeerConnection

/-- The constructor and `Start`. -/
def start (packet : ConnectPacket) (peerInfo : CandidatePeerInfo) : LivePeerConnection where
  endPoint := packet.endPoint
  connectType := packet.connectType
  candidatePeerInfo :=
    if packet.peerInfo.ip = peerInfo.ip ∧ packet.peerInfo.udpPort = peerInfo.udpPort then peerInfo
    else packet.peerInfo
  isRunning := true

def stop (connection : LivePeerConnection) : LivePeerConnection :=
  { connection with isRunning := false }

def isUdpServer (connection : LivePeerConnection) : Bool :=
  connection.connectType == .connectLiveUdpserver

end LivePeerConnection

structure ConnectingPeer where
  candidatePeerInfo : CandidatePeerInfo
  lastConnectingTime : UInt32

/-- `IsTimeOut`, after `p2p_timeout`. -/
def ConnectingPeer.isTimeOut (peer : ConnectingPeer) (now : UInt32) : Bool :=
  4 * 1000 < now - peer.lastConnectingTime

/-- The first entry of the address: `FindConnectingPeerEndPointByIp` and
`GetConnectingPeerByIp`. -/
def findByIp (connectingPeers : OrderedMap SocketAddr ConnectingPeer) (endPoint : SocketAddr) :
    Option (SocketAddr × ConnectingPeer) :=
  List.find? (fun entry => entry.1.ip == endPoint.ip) connectingPeers

/-- `LiveConnectionManger`. A connection is known by the number it was created with. -/
structure LiveConnectionManger where
  peers : OrderedMap SocketAddr Nat
  connectedUdpserverCount : Nat

/-- The two kinds of candidates, each with its pool and connector. -/
inductive Side where
  | peers
  | udpservers
deriving DecidableEq

inductive ConnectLevel where
  | low
  | medium
  | high
deriving DecidableEq

/-- What the connections measure. -/
structure ConnectionView where
  longTimeNoResponse : Nat → Bool
  connectedTime : Nat → Nat
  minuteDownloadSpeed : Nat → Nat
  bitmapEmptyTime : Nat → Nat

/-- `KickLiveConnectionIndicator::ShouldKick`. -/
def shouldKick (view : ConnectionView) (id : Nat) : Bool :=
  0 < view.bitmapEmptyTime id && view.minuteDownloadSpeed id == 0

/-- The order of `KickLiveConnectionIndicator`. -/
def kickBefore (view : ConnectionView) (x y : Nat) : Bool :=
  if 0 < view.bitmapEmptyTime x && view.bitmapEmptyTime y == 0 then true
  else if view.bitmapEmptyTime x == 0 && 0 < view.bitmapEmptyTime y then false
  else if 0 < view.bitmapEmptyTime x && 0 < view.bitmapEmptyTime y &&
      view.minuteDownloadSpeed x == 0 && view.minuteDownloadSpeed y == 0 then
    view.bitmapEmptyTime y < view.bitmapEmptyTime x
  else view.minuteDownloadSpeed x < view.minuteDownloadSpeed y

/-- Insertion into the multimap, behind those that are not after it. -/
def kickInsert (view : ConnectionView) (kickMap : List Nat) (id : Nat) : List Nat :=
  kickMap.takeWhile (fun other => !kickBefore view id other) ++
    id :: kickMap.dropWhile fun other => !kickBefore view id other

/-- A running `LiveP2PDownloader`, as far as connections go. The limit of connections is a
`boost::int32_t` other than -1, kept as the unsigned number it is compared as. -/
structure LiveP2PDownloader where
  pools : Side → IpPool
  connectingPeers : Side → OrderedMap SocketAddr ConnectingPeer
  manager : LiveConnectionManger
  connections : Nat → LivePeerConnection
  created : Nat
  p2pMaxConnectCount : Nat
  useUdpserverCount : Nat
  shouldConnectUdpserver : Bool
  shouldUseUdpserver : Bool
  p2pMaxConnectCount_lt : p2pMaxConnectCount + 1 < 2 ^ 32

namespace LiveP2PDownloader

variable (outside : Outside) (connectEndPoint : UInt32 → CandidatePeerInfo → SocketAddr)
  (s : LiveP2PDownloader)

def ippool : IpPool := s.pools .peers

def udpserverPool : IpPool := s.pools .udpservers

def withPool (side : Side) (f : IpPool → IpPool) : LiveP2PDownloader :=
  { s with pools := Function.update s.pools side (f (s.pools side)) }

def setConnectingPeers (side : Side) (connectingPeers : OrderedMap SocketAddr ConnectingPeer) :
    LiveP2PDownloader :=
  { s with connectingPeers := Function.update s.connectingPeers side connectingPeers }

/-- The connection of an endpoint. -/
def getPeer (endPoint : SocketAddr) : Option Nat := s.manager.peers.find? endPoint

def hasPeer (endPoint : SocketAddr) : Bool := (s.getPeer endPoint).isSome

/-- `IsLiveUdpServer`. -/
def isLiveUdpServer (endPoint : SocketAddr) : Bool :=
  (s.getPeer endPoint).any fun id => (s.connections id).isUdpServer

def getConnectedPeersCount : Nat := u32 s.manager.peers.length

/-- A connection that was created is entered under its endpoint: `AddPeer`. -/
def addPeer (id : Nat) : LiveP2PDownloader :=
  let connection := s.connections id
  match s.getPeer connection.endPoint with
  | some _ => s
  | none =>
      { s with manager := {
          peers := s.manager.peers.insert connection.endPoint id
          connectedUdpserverCount :=
            if connection.isUdpServer then u32 (s.manager.connectedUdpserverCount + 1)
            else s.manager.connectedUdpserverCount } }

/-- `LiveConnectionManger::DelPeer`. -/
def delPeer (endPoint : SocketAddr) : LiveP2PDownloader :=
  match s.getPeer endPoint with
  | none => s
  | some id =>
      { s with
        connections := Function.update s.connections id (s.connections id).stop
        manager := {
          peers := s.manager.peers.erase endPoint
          connectedUdpserverCount :=
            if (s.connections id).isUdpServer then subU32 s.manager.connectedUdpserverCount 1
            else s.manager.connectedUdpserverCount } }

/-- `PeerConnector::Connect`. -/
def connect (side : Side) (now : UInt32) (info : CandidatePeerInfo) : LiveP2PDownloader :=
  let endPoint := connectEndPoint (s.pools side).localPeer.detectIp info
  match findByIp (s.connectingPeers side) endPoint with
  | some _ => s
  | none =>
      (s.setConnectingPeers side
        ((s.connectingPeers side).insert endPoint ⟨info, now⟩)).withPool side
          (·.onConnect outside endPoint)

/-- The loop of `CheckConnectTimeout`, over the entries from the iterator on. -/
def checkConnectTimeout (side : Side) (now : UInt32) :
    List (SocketAddr × ConnectingPeer) → LiveP2PDownloader → LiveP2PDownloader
  | [], s => s
  | (endPoint, peer) :: rest, s =>
      if peer.isTimeOut now then
        checkConnectTimeout side now rest ((s.withPool side
          (·.onConnectTimeout outside endPoint)).setConnectingPeers side
            ((s.connectingPeers side).erase endPoint))
      else checkConnectTimeout side now rest s

/-- `PeerConnector::OnReConectPacket` of a live download. -/
def onReConectPacket (side : Side) (packet : ConnectPacket) (now : UInt32) : LiveP2PDownloader :=
  if s.getConnectedPeersCount > s.p2pMaxConnectCount then s
  else
    match findByIp (s.connectingPeers side) packet.endPoint with
    | none => s
    | some (key, connecting) =>
        if packet.fromSelf then s
        else if s.hasPeer packet.endPoint then s
        else
          let info := { connecting.candidatePeerInfo with detectUdpPort := packet.endPoint.port }
          let id := s.created
          let s := { s with
            connections := Function.update s.connections id (.start packet info)
            created := s.created + 1 }
          (((s.addPeer id).withPool side
            (·.onConnectSucced outside packet.endPoint now))).setConnectingPeers side
              ((s.connectingPeers side).erase key)

/-- The branch of `OnUdpRecv` for a reply. -/
def onConnectPacket (packet : ConnectPacket) (now : UInt32) : LiveP2PDownloader :=
  let s := s.onReConectPacket outside .peers packet now
  if packet.connectType = .connectLiveUdpserver then
    s.onReConectPacket outside .udpservers packet now
  else s

/-- The branch for an error: the manager drops the peer, and both pools are told when it
is not there. -/
def onErrorPacket (endPoint : SocketAddr) (code : ErrorCode) : LiveP2PDownloader :=
  let s :=
    if s.hasPeer endPoint ∧
        (code = .ppvAnnouceNoResourceid ∨ code = .ppvSubpieceNoResourceid) then
      s.delPeer endPoint
    else s
  if s.hasPeer endPoint then s
  else (s.withPool .peers (·.onConnectFailed outside endPoint)).withPool .udpservers
    (·.onConnectFailed outside endPoint)

/-- Both pools are told, that of the UDP servers only about one, and the peer is deleted. -/
def disConnect (isUdpServer : Bool) (now : UInt32) (endPoint : SocketAddr) : LiveP2PDownloader :=
  let s := if isUdpServer then s.withPool .udpservers (·.onDisConnect outside endPoint now) else s
  (s.withPool .peers (·.onDisConnect outside endPoint now)).delPeer endPoint

/-- The branch for a `CloseSessionPacket`. -/
def onCloseSession (endPoint : SocketAddr) (now : UInt32) : LiveP2PDownloader :=
  if s.hasPeer endPoint then
    s.disConnect outside (s.isLiveUdpServer endPoint) now endPoint
  else s

/-- `GetKickMap`. -/
def getKickMap (view : ConnectionView) : List Nat :=
  ((s.manager.peers.map Prod.snd).filter fun id => 15000 ≤ view.connectedTime id).foldl
    (kickInsert view) []

/-- How many connections a level wants to lose; the sums are those of `boost::uint32_t`. -/
def kickCount (level : ConnectLevel) : Int :=
  match level with
  | .low => 1
  | .medium => asInt32 (asUInt32 (s.getConnectedPeersCount + 1 - s.p2pMaxConnectCount))
  | .high => asInt32 (asUInt32
      (s.getConnectedPeersCount - (asInt32 s.p2pMaxConnectCount * 3).tdiv 4))

/-- `KickPeerConnection`: those that do not respond, then the worst ones above the quota.
The order in which the two pools are told is the same for both here. -/
def kickPeerConnection (level : ConnectLevel) (view : ConnectionView) (now : UInt32) :
    LiveP2PDownloader :=
  let s := (s.manager.peers.filter fun entry => view.longTimeNoResponse entry.2).foldl
    (fun s entry => s.disConnect outside (s.connections entry.2).isUdpServer now entry.1) s
  let kickMap := if level = .low then [] else s.getKickMap view
  ((kickMap.take (s.kickCount level).toNat).takeWhile (shouldKick view)).foldl
    (fun s id => s.disConnect outside (s.connections id).isUdpServer now (s.connections id).endPoint) s

/-- A loop of `InitPeerConnection`: it ends when the pool gives nobody. -/
def connectLoop (side : Side) (now : UInt32) : Nat → LiveP2PDownloader → LiveP2PDownloader
  | 0, s => s
  | rounds + 1, s =>
      match (s.pools side).getForConnect outside (side == .udpservers) now with
      | (_, none) => s
      | (pool, some info) =>
          connectLoop side now rounds
            ((s.withPool side fun _ => pool).connect outside connectEndPoint side now info)

/-- How many peers a level wants to try. -/
def connectCount (level : ConnectLevel) : Int :=
  let connecting := (s.connectingPeers .peers).length
  match level with
  | .low => asInt32 (asUInt32
      ((asInt32 s.p2pMaxConnectCount * 3).tdiv 4 - s.getConnectedPeersCount - connecting))
  | .medium => asInt32 (asUInt32
      ((s.p2pMaxConnectCount - s.getConnectedPeersCount) * 2 - connecting))
  | .high => max 1 (asInt32 (asUInt32
      ((s.p2pMaxConnectCount - s.getConnectedPeersCount) * 2 - connecting)))

/-- `InitPeerConnection`. -/
def initPeerConnection (level : ConnectLevel) (now : UInt32) : LiveP2PDownloader :=
  if s.connectCount level ≤ 0 ∧ !s.shouldConnectUdpserver ∧ !s.shouldUseUdpserver then s
  else
    let s := connectLoop outside connectEndPoint .peers now (s.connectCount level).toNat s
    if s.shouldConnectUdpserver || s.shouldUseUdpserver then
      connectLoop outside connectEndPoint .udpservers now
        (min s.useUdpserverCount s.udpserverPool.candidatePeers.length -
          s.manager.connectedUdpserverCount) s
    else s

/-- `GetUdpServerEndpoints`. -/
def getUdpServerEndpoints : List SocketAddr :=
  (s.manager.peers.filter fun entry => (s.connections entry.2).isUdpServer).map Prod.fst

def deleteAllUdpServer (now : UInt32) : LiveP2PDownloader :=
  let s := s.withPool .udpservers (·.disConnectAll outside now)
  s.getUdpServerEndpoints.foldl
    (fun s endPoint => (s.withPool .peers (·.onDisConnect outside endPoint now)).delPeer endPoint) s

/-- A step of a pool that may fail. -/
def tryPool (side : Side) (f : IpPool → Option IpPool) : Option LiveP2PDownloader :=
  (f (s.pools side)).map fun pool => s.withPool side fun _ => pool

/-- `AddCandidatePeers` of what a list query found. -/
def addCandidatePeers (peers : List CandidatePeerInfo)
    (isLiveUdpserver isLiveUdpserverFromCdn isLiveUdpserverFromBs : Bool)
    (score : CandidatePeerInfo → Nat) (level : ConnectLevel) (now : UInt32) :
    Option LiveP2PDownloader :=
  if isLiveUdpserver then
    s.tryPool .udpservers
      (·.addCandidatePeers outside peers isLiveUdpserverFromBs score isLiveUdpserverFromCdn now)
  else
    let added := s.tryPool .peers (·.addCandidatePeers outside peers false (fun _ => 0) false now)
    if s.ippool.candidatePeers = [] then
      added.map fun s => s.initPeerConnection outside connectEndPoint level now
    else added

end LiveP2PDownloader

/-- What happens to a running downloader: packets, and the parts of its timer. -/
inductive LiveEvent where
  | setLocalPeer (info : CandidatePeerInfo)
  | setMaxConnectCount (count : Nat) (count_lt : count + 1 < 2 ^ 32)
  | checkShouldUseUdpServer (shouldConnect shouldUse : Bool)
  | addCandidatePeers (peers : List CandidatePeerInfo)
      (isLiveUdpserver isLiveUdpserverFromCdn isLiveUdpserverFromBs : Bool)
      (score : CandidatePeerInfo → Nat) (level : ConnectLevel) (now : UInt32)
  | onPeerExchangePacket (peers : List CandidatePeerInfo) (isRequest : Bool) (now : UInt32)
  | doPeerExchange (now : UInt32)
  | onConnectPacket (packet : ConnectPacket) (now : UInt32)
  | onErrorPacket (endPoint : SocketAddr) (code : ErrorCode)
  | onCloseSession (endPoint : SocketAddr) (now : UInt32)
  | onOtherPacket (endPoint : SocketAddr)
  | checkConnectTimeout (side : Side) (now : UInt32)
  | kickPeerConnection (level : ConnectLevel) (view : ConnectionView) (now : UInt32)
  | initPeerConnection (level : ConnectLevel) (now : UInt32)
  | deleteAllUdpServer (now : UInt32)
  | kickTrivialCandidatePeers (side : Side)

namespace LiveP2PDownloader

/-- One event; `none` where a pool uses an iterator after its entry was erased. Packets of
announces, data and peer information leave the connections in place. -/
def next (outside : Outside) (connectEndPoint : UInt32 → CandidatePeerInfo → SocketAddr)
    (s : LiveP2PDownloader) : LiveEvent → Option LiveP2PDownloader
  | .setLocalPeer info => some { s with pools := fun side =>
      { s.pools side with localPeer := info } }
  | .setMaxConnectCount count count_lt => some { s with
      p2pMaxConnectCount := count
      p2pMaxConnectCount_lt := count_lt }
  | .checkShouldUseUdpServer shouldConnect shouldUse => some { s with
      shouldConnectUdpserver := shouldConnect
      shouldUseUdpserver := shouldUse }
  | .addCandidatePeers peers isLiveUdpserver fromCdn fromBs score level now =>
      s.addCandidatePeers outside connectEndPoint peers isLiveUdpserver fromCdn fromBs score level now
  | .onPeerExchangePacket peers isRequest now =>
      s.tryPool .peers (·.addCandidatePeers outside peers (!isRequest) (fun _ => 0) false now)
  | .doPeerExchange now => some (s.withPool .peers fun pool => (pool.getForExchange outside now).1)
  | .onConnectPacket packet now => some (s.onConnectPacket outside packet now)
  | .onErrorPacket endPoint code => some (s.onErrorPacket outside endPoint code)
  | .onCloseSession endPoint now => some (s.onCloseSession outside endPoint now)
  | .onOtherPacket _ => some s
  | .checkConnectTimeout side now =>
      some (checkConnectTimeout outside side now (s.connectingPeers side) s)
  | .kickPeerConnection level view now => some (s.kickPeerConnection outside level view now)
  | .initPeerConnection level now => some (s.initPeerConnection outside connectEndPoint level now)
  | .deleteAllUdpServer now => some (s.deleteAllUdpServer outside now)
  | .kickTrivialCandidatePeers side => s.tryPool side (·.kickTrivialCandidatePeers outside)

def Step (outside : Outside) (connectEndPoint : UInt32 → CandidatePeerInfo → SocketAddr)
    (s : LiveP2PDownloader) (event : LiveEvent) (t : LiveP2PDownloader) : Prop :=
  s.next outside connectEndPoint event = some t

/-- The constructor and `Start`: the pool of the UDP servers is made for a hundred. -/
def start (desirableLiveIpPoolSize p2pMaxConnectCount useUdpserverCount : Nat)
    (shouldUseExchangePeersFirstly : Bool) (localPeer : CandidatePeerInfo)
    (count_lt : p2pMaxConnectCount + 1 < 2 ^ 32) : LiveP2PDownloader where
  pools
    | .peers => IpPool.start desirableLiveIpPoolSize shouldUseExchangePeersFirstly localPeer
    | .udpservers => IpPool.start 100 shouldUseExchangePeersFirstly localPeer
  connectingPeers _ := []
  manager := ⟨[], 0⟩
  connections _ := ⟨⟨0, 0⟩, .other 0, localPeer, false⟩
  created := 0
  p2pMaxConnectCount := p2pMaxConnectCount
  useUdpserverCount := useUdpserverCount
  shouldConnectUdpserver := false
  shouldUseUdpserver := false
  p2pMaxConnectCount_lt := count_lt

end LiveP2PDownloader

end P2P.LiveConnections
