import Mathlib.Data.List.Lex
import Peer.Basis.OrderedMap
import Peer.Basis.Run

/-! The pool of the peers a download may connect to. A peer is found by its address in
`candidate_peers_`, and in three indexes by keys that are computed from its fields. -/
namespace P2P

open Basis

/-- `protocol::SocketAddr`, also what is used of a UDP endpoint. -/
structure SocketAddr where
  ip : UInt32
  port : UInt16
deriving DecidableEq

instance : Before SocketAddr where
  before a b := a.ip < b.ip || (a.ip == b.ip && a.port < b.port)
  irrefl a := by simp

theorem SocketAddr.equivalent_iff {a b : SocketAddr} : equivalent a b = true ↔ a = b := by
  obtain ⟨ip, port⟩ := a
  obtain ⟨ip', port'⟩ := b
  simp only [equivalent, Before.before, SocketAddr.mk.injEq, ← UInt32.toNat_inj,
    ← UInt16.toNat_inj, UInt32.lt_iff_toNat_lt, UInt16.lt_iff_toNat_lt, Bool.and_eq_true,
    Bool.not_eq_true', Bool.or_eq_false_iff, Bool.and_eq_false_iff, decide_eq_false_iff_not,
    beq_eq_false_iff_ne, ne_eq]
  omega

/-- `protocol::CandidatePeerInfo`, as far as it is read. -/
structure CandidatePeerInfo where
  ip : UInt32
  udpPort : UInt16
  peerVersion : UInt16
  detectIp : UInt32
  detectUdpPort : UInt16
  stunIp : UInt32
  stunUdpPort : UInt16
  uploadPriority : UInt8
  trackerPriority : UInt8
deriving DecidableEq

/-- What is not part of the program: `GetKeySocketAddr` (of the local detected address),
MD5 as a string of digits, and what `rand` gave the transformer. -/
structure Outside where
  keySocketAddr : UInt32 → CandidatePeerInfo → SocketAddr
  md5 : List Char → List Char
  seed : Nat

/-- The text `Transform` hashes. -/
def addressText (seed : Nat) (address : SocketAddr) : List Char :=
  Nat.toDigits 10 (address.ip.toNat + seed) ++ ':' :: Nat.toDigits 10 address.port.toNat

/-- `SockAddressTransformer::Transform`. -/
def transform (outside : Outside) (address : SocketAddr) : List Char :=
  outside.md5 (addressText outside.seed address)

structure ExchangeIndicator where
  key : SocketAddr
  lastExchageTime : UInt32
  exchangeTimes : UInt32

structure ConnectIndicator where
  key : List Char
  nextTimeToConnect : UInt32
  isConnecting : Bool
  isConnected : Bool
  trackerPriority : UInt32
  lastActiveTime : UInt32
  shouldUseFirstly : Bool
  peerScore : Nat
  isUdpserverFromCdn : Bool

structure ActiveIndicator where
  key : SocketAddr
  activeTime : UInt32

/-- `CompareIndicator` of a time and an address. -/
def compareIndicator (x : UInt32) (keyX : SocketAddr) (y : UInt32) (keyY : SocketAddr) : Bool :=
  if x == y then Before.before keyX keyY else x < y

instance : Before ExchangeIndicator where
  before x y := compareIndicator x.lastExchageTime x.key y.lastExchageTime y.key
  irrefl x := by simp [compareIndicator, Before.irrefl]

instance : Before ActiveIndicator where
  before x y := compareIndicator x.activeTime x.key y.activeTime y.key
  irrefl x := by simp [compareIndicator, Before.irrefl]

def ConnectIndicator.canConnect (x : ConnectIndicator) : Bool := !x.isConnecting && !x.isConnected

instance : Before ConnectIndicator where
  before x y :=
    if x.canConnect ≠ y.canConnect then x.canConnect
    else if x.isUdpserverFromCdn ≠ y.isUdpserverFromCdn then x.isUdpserverFromCdn
    else if x.nextTimeToConnect ≠ y.nextTimeToConnect then
      x.nextTimeToConnect < y.nextTimeToConnect
    else if x.shouldUseFirstly ≠ y.shouldUseFirstly then x.shouldUseFirstly
    else if x.trackerPriority ≠ y.trackerPriority then x.trackerPriority < y.trackerPriority
    else if x.lastActiveTime ≠ y.lastActiveTime then y.lastActiveTime < x.lastActiveTime
    else if x.peerScore ≠ y.peerScore then y.peerScore < x.peerScore
    else y.key < x.key
  irrefl x := by simp

def connectInitialProtectTime : UInt32 := 10 * 1000
def connectFinalProtectTime : UInt32 := 2 * 60 * 60 * 1000
def exchangeProtectTime : UInt32 := 2 * 60 * 1000

structure CandidatePeer where
  info : CandidatePeerInfo
  lastActiveTime : UInt32
  lastExchageTime : UInt32
  exchangeTimes : UInt32
  lastConnectTime : UInt32
  isConnecting : Bool
  isConnected : Bool
  connectProtectTime : UInt32
  connectProtectTimeCount : UInt32
  connectProtectTimeIndex : UInt32
  connectionsAttempted : Nat
  shouldUseFirstly : Bool
  peerScore : Nat
  isUdpserverFromCdn : Bool

namespace CandidatePeer

def create (info : CandidatePeerInfo) (shouldUseFirstly : Bool) (peerScore : Nat)
    (isUdpserverFromCdn : Bool) (now : UInt32) : CandidatePeer where
  info := info
  lastActiveTime := now
  lastExchageTime := 0
  exchangeTimes := 0
  lastConnectTime := 0
  isConnecting := false
  isConnected := false
  connectProtectTime := connectInitialProtectTime
  connectProtectTimeCount := 0
  connectProtectTimeIndex := 0
  connectionsAttempted := 0
  shouldUseFirstly := shouldUseFirstly
  peerScore := peerScore
  isUdpserverFromCdn := isUdpserverFromCdn

variable (peer : CandidatePeer) (outside : Outside) (localIp : UInt32)

/-- `GetKey`. The local detected address is that of the application, when it is called. -/
def getKey : SocketAddr := outside.keySocketAddr localIp peer.info

def getExchangeIndicator : ExchangeIndicator :=
  ⟨peer.getKey outside localIp, peer.lastExchageTime, peer.exchangeTimes⟩

def getConnectIndicator : ConnectIndicator where
  key := transform outside (peer.getKey outside localIp)
  nextTimeToConnect := peer.lastConnectTime + peer.connectProtectTime
  isConnecting := peer.isConnecting
  isConnected := peer.isConnected
  trackerPriority := 255 - peer.info.trackerPriority.toUInt32
  lastActiveTime := peer.lastActiveTime
  shouldUseFirstly := peer.shouldUseFirstly
  peerScore := peer.peerScore
  isUdpserverFromCdn := peer.isUdpserverFromCdn

def getActiveIndicator : ActiveIndicator := ⟨peer.getKey outside localIp, peer.lastActiveTime⟩

def onConnectFailed : CandidatePeer := { peer with connectProtectTime := connectFinalProtectTime }

def onConnectTimeout : CandidatePeer :=
  if peer.connectProtectTime < connectFinalProtectTime then
    let peer :=
      if peer.connectProtectTimeCount == 0 then
        { peer with
          connectProtectTime := peer.connectProtectTime * 2
          connectProtectTimeIndex := peer.connectProtectTimeIndex + 1
          connectProtectTimeCount := peer.connectProtectTimeIndex + 1 }
      else { peer with connectProtectTimeCount := peer.connectProtectTimeCount - 1 }
    if connectFinalProtectTime ≤ peer.connectProtectTime then
      { peer with connectProtectTime := connectFinalProtectTime }
    else peer
  else peer

def onConnectSucceed : CandidatePeer := { peer with connectProtectTime := connectInitialProtectTime }

def canExchange (now : UInt32) : Bool :=
  peer.lastExchageTime == 0 || !(now - peer.lastExchageTime < exchangeProtectTime)

def canConnect (now : UInt32) (isUdpserver : Bool) : Bool :=
  if peer.isConnected || peer.isConnecting then false
  else if peer.lastConnectTime == 0 then true
  else if now - peer.lastConnectTime < peer.connectProtectTime then isUdpserver
  else true

/-- `BeCopiedTo`, which copies from the other. The detected address stays. -/
def beCopiedTo (other : CandidatePeer) (now : UInt32) : CandidatePeer :=
  { peer with
    info := { peer.info with
      detectUdpPort := other.info.detectUdpPort
      ip := other.info.ip
      peerVersion := other.info.peerVersion
      udpPort := other.info.udpPort
      stunIp := other.info.stunIp
      stunUdpPort := other.info.stunUdpPort
      uploadPriority :=
        if peer.info.uploadPriority ≠ 1 then other.info.uploadPriority
        else peer.info.uploadPriority }
    lastActiveTime := now
    connectProtectTime := other.connectProtectTime
    connectProtectTimeCount := other.connectProtectTimeCount
    connectProtectTimeIndex := other.connectProtectTimeIndex
    connectionsAttempted := other.connectionsAttempted
    shouldUseFirstly := other.shouldUseFirstly
    peerScore := other.peerScore }

end CandidatePeer

/-- A running `IpPool`, and the local peer of the application. A peer is known by the number
it was created with. -/
structure IpPool where
  peers : Nat → CandidatePeer
  created : Nat
  candidatePeers : OrderedMap SocketAddr Nat
  exchangeIndex : OrderedMap ExchangeIndicator Nat
  connectIndex : OrderedMap ConnectIndicator Nat
  activeIndex : OrderedMap ActiveIndicator Nat
  desirablePoolSize : Nat
  blackList : List SocketAddr
  shouldUseExchangePeersFirstly : Bool
  localPeer : CandidatePeerInfo

namespace IpPool

variable (outside : Outside) (s : IpPool)

def getKey (id : Nat) : SocketAddr := (s.peers id).getKey outside s.localPeer.detectIp

def setPeer (id : Nat) (peer : CandidatePeer) : IpPool :=
  { s with peers := Function.update s.peers id peer }

def addIndex (id : Nat) : IpPool :=
  let peer := s.peers id
  let localIp := s.localPeer.detectIp
  { s with
    exchangeIndex := s.exchangeIndex.insert (peer.getExchangeIndicator outside localIp) id
    connectIndex := s.connectIndex.insert (peer.getConnectIndicator outside localIp) id
    activeIndex := s.activeIndex.insert (peer.getActiveIndicator outside localIp) id }

def deleteIndex (id : Nat) : IpPool :=
  let peer := s.peers id
  let localIp := s.localPeer.detectIp
  { s with
    exchangeIndex := s.exchangeIndex.erase (peer.getExchangeIndicator outside localIp)
    connectIndex := s.connectIndex.erase (peer.getConnectIndicator outside localIp)
    activeIndex := s.activeIndex.erase (peer.getActiveIndicator outside localIp) }

/-- The scope of an `IPPoolIndexUpdating`: the two flags are not cleared in it. -/
def updating (id : Nat) (body : IpPool → IpPool) : IpPool :=
  let isUdpserverFromCdn := (s.peers id).isUdpserverFromCdn
  let shouldUseFirstly := (s.peers id).shouldUseFirstly
  let s := body (s.deleteIndex outside id)
  let peer := s.peers id
  (s.setPeer id { peer with
    isUdpserverFromCdn := peer.isUdpserverFromCdn || isUdpserverFromCdn
    shouldUseFirstly := peer.shouldUseFirstly || shouldUseFirstly }).addIndex outside id

def isSelf (info : CandidatePeerInfo) : Bool :=
  s.localPeer.ip == info.ip && s.localPeer.udpPort == info.udpPort &&
    (s.localPeer.detectIp == 0 || s.localPeer.detectIp == info.detectIp)

/-- `AddPeer` of a peer that was created. -/
def addPeer (id : Nat) (now : UInt32) : IpPool :=
  let key := s.getKey outside id
  if key ∈ s.blackList then s
  else
    match s.candidatePeers.find? key with
    | none =>
        s.updating outside id fun s =>
          { s with candidatePeers := s.candidatePeers.insert key id }
    | some selfId =>
        s.updating outside selfId fun s =>
          s.setPeer selfId ((s.peers selfId).beCopiedTo (s.peers id) now)

/-- The loop of `KickTrivialCandidatePeers`. The iterator stands at the first of the
entries; once its entry is erased it may not be used. -/
def kickLoop (peersToDelete maxConnectionAttemptsAllowed : Nat) :
    OrderedMap ActiveIndicator Nat → Nat → IpPool → Option IpPool
  | [], _, s => some s
  | (key, id) :: rest, peersDeleted, s =>
      if !s.activeIndex.any fun entry => equivalent entry.1 key then none
      else if peersDeleted < peersToDelete then
        let peer := s.peers id
        if !peer.isConnected && !peer.isConnecting then
          let tooManyConnectionAttempts := maxConnectionAttemptsAllowed < peer.connectionsAttempted
          let s :=
            if tooManyConnectionAttempts then
              { s with blackList := s.getKey outside id :: s.blackList }
            else s
          if peersDeleted < peersToDelete ∨ tooManyConnectionAttempts then
            let s := s.deleteIndex outside id
            kickLoop peersToDelete maxConnectionAttemptsAllowed rest (peersDeleted + 1)
              { s with candidatePeers := s.candidatePeers.erase (s.getKey outside id) }
          else kickLoop peersToDelete maxConnectionAttemptsAllowed rest peersDeleted s
        else kickLoop peersToDelete maxConnectionAttemptsAllowed rest peersDeleted s
      else some s

def kickTrivialCandidatePeers : Option IpPool :=
  if s.desirablePoolSize = 0 ∨ s.candidatePeers = [] then some s
  else
    s.kickLoop outside (s.candidatePeers.length - s.desirablePoolSize)
      (s.desirablePoolSize / s.candidatePeers.length) s.activeIndex 0

/-- The body of the loop of `AddCandidatePeers`. -/
def addCandidatePeer (shouldUseFirstly : Bool) (score : CandidatePeerInfo → Nat)
    (isUdpserverFromCdn : Bool) (now : UInt32) (info : CandidatePeerInfo) : IpPool :=
  let id := s.created
  let s := { s.setPeer id (.create info (shouldUseFirstly && s.shouldUseExchangePeersFirstly)
      (score info) isUdpserverFromCdn now) with created := s.created + 1 }
  if s.isSelf info then s else s.addPeer outside id now

def addCandidatePeers (peers : List CandidatePeerInfo) (shouldUseFirstly : Bool)
    (score : CandidatePeerInfo → Nat) (isUdpserverFromCdn : Bool) (now : UInt32) :
    Option IpPool :=
  (peers.foldl (fun s => s.addCandidatePeer outside shouldUseFirstly score isUdpserverFromCdn now)
    s).kickTrivialCandidatePeers outside

/-- Change a peer while it is out of the indexes. -/
def change (id : Nat) (f : CandidatePeer → CandidatePeer) : IpPool :=
  s.updating outside id fun s => s.setPeer id (f (s.peers id))

/-- `GetForConnect`. -/
def getForConnect (isUdpserver : Bool) (now : UInt32) : IpPool × Option CandidatePeerInfo :=
  match s.connectIndex.head? with
  | none => (s, none)
  | some (_, id) =>
      if (s.peers id).canConnect now isUdpserver then
        (s.change outside id fun peer => { peer with lastConnectTime := now },
          some (s.peers id).info)
      else (s, none)

/-- `GetForExchange`. -/
def getForExchange (now : UInt32) : IpPool × Option CandidatePeerInfo :=
  match s.exchangeIndex.head? with
  | none => (s, none)
  | some (_, id) =>
      if (s.peers id).canExchange now then
        (s.change outside id fun peer => { peer with lastExchageTime := now },
          some (s.peers id).info)
      else (s, none)

/-- What the handlers share: find the candidate of an endpoint and change it. -/
def onEndPoint (endPoint : SocketAddr) (f : CandidatePeer → CandidatePeer) : IpPool :=
  match s.candidatePeers.find? endPoint with
  | none => s
  | some id => s.change outside id f

def onConnect (endPoint : SocketAddr) : IpPool :=
  s.onEndPoint outside endPoint fun peer => { peer with
    isConnecting := true
    isConnected := false
    connectionsAttempted := peer.connectionsAttempted + 1 }.onConnectSucceed

def onConnectFailed (endPoint : SocketAddr) : IpPool :=
  s.onEndPoint outside endPoint fun peer =>
    { peer with isConnecting := false, isConnected := false }.onConnectFailed

def onConnectTimeout (endPoint : SocketAddr) : IpPool :=
  s.onEndPoint outside endPoint fun peer =>
    { peer with isConnecting := false, isConnected := false }.onConnectTimeout

def onConnectSucced (endPoint : SocketAddr) (now : UInt32) : IpPool :=
  s.onEndPoint outside endPoint fun peer =>
    { peer with lastActiveTime := now, isConnecting := false, isConnected := true }

def onDisConnect (endPoint : SocketAddr) (now : UInt32) : IpPool :=
  s.onEndPoint outside endPoint fun peer => { peer with
    lastActiveTime := now
    lastConnectTime := now
    isConnecting := false
    isConnected := false }

def disConnectAll (now : UInt32) : IpPool :=
  s.candidatePeers.foldl (fun s entry => s.onDisConnect outside entry.1 now) s

end IpPool

/-- What can happen to the pool, and to the local peer between its calls. -/
inductive IpPoolAction where
  | setLocalPeer (info : CandidatePeerInfo)
  | addCandidatePeers (peers : List CandidatePeerInfo) (shouldUseFirstly : Bool)
      (score : CandidatePeerInfo → Nat) (isUdpserverFromCdn : Bool) (now : UInt32)
  | kickTrivialCandidatePeers
  | getForConnect (isUdpserver : Bool) (now : UInt32)
  | getForExchange (now : UInt32)
  | onConnect (endPoint : SocketAddr)
  | onConnectFailed (endPoint : SocketAddr)
  | onConnectTimeout (endPoint : SocketAddr)
  | onConnectSucced (endPoint : SocketAddr) (now : UInt32)
  | onDisConnect (endPoint : SocketAddr) (now : UInt32)
  | disConnectAll (now : UInt32)

namespace IpPool

/-- The constructor and `Start`. -/
def start (desirablePoolSize : Nat) (shouldUseExchangePeersFirstly : Bool)
    (localPeer : CandidatePeerInfo) : IpPool where
  peers _ := .create localPeer false 0 false 0
  created := 0
  candidatePeers := []
  exchangeIndex := []
  connectIndex := []
  activeIndex := []
  desirablePoolSize := desirablePoolSize
  blackList := []
  shouldUseExchangePeersFirstly := shouldUseExchangePeersFirstly
  localPeer := localPeer

/-- One step; `none` where an iterator is used after its entry was erased. -/
def next (outside : Outside) (s : IpPool) : IpPoolAction → Option IpPool
  | .setLocalPeer info => some { s with localPeer := info }
  | .addCandidatePeers peers shouldUseFirstly score isUdpserverFromCdn now =>
      s.addCandidatePeers outside peers shouldUseFirstly score isUdpserverFromCdn now
  | .kickTrivialCandidatePeers => s.kickTrivialCandidatePeers outside
  | .getForConnect isUdpserver now => some (s.getForConnect outside isUdpserver now).1
  | .getForExchange now => some (s.getForExchange outside now).1
  | .onConnect endPoint => some (s.onConnect outside endPoint)
  | .onConnectFailed endPoint => some (s.onConnectFailed outside endPoint)
  | .onConnectTimeout endPoint => some (s.onConnectTimeout outside endPoint)
  | .onConnectSucced endPoint now => some (s.onConnectSucced outside endPoint now)
  | .onDisConnect endPoint now => some (s.onDisConnect outside endPoint now)
  | .disConnectAll now => some (s.disConnectAll outside now)

def Step (outside : Outside) (s : IpPool) (a : IpPoolAction) (t : IpPool) : Prop :=
  s.next outside a = some t

end IpPool

end P2P
