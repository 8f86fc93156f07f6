import Mathlib.Data.List.Basic
import Peer.Basis.Run

/-! The client that finds out what kind of NAT the peer is behind. A check is a
chain of requests to the servers, each sent up to four times; the reply to a
request, or its absence, leads to the next one or to the result. -/
namespace Stun

inductive CheckState where
  | idle
  | isNatChecking
  | fullCornChecking
  | symmetricChecking
  | restrictedChecking
  | upnpChecking
  | complete
  deriving DecidableEq, Repr

/-- `MY_STUN_NAT_TYPE`. A configuration file may hold any other number. -/
inductive NatType where
  | typeError
  | typeFullConeNat
  | typeSymNat
  | typeIpRestrictedNat
  | typeIpPortRestrictedNat
  | typePublic
  | other (number : Int)
  deriving DecidableEq, Repr

/-- The four kinds of packets. A reply is of the kind of its request. -/
inductive PacketAction where
  | natCheckSameRoute
  | natCheckDiffIp
  | natCheckDiffPort
  | natCheckForUpnp
  deriving DecidableEq, Repr

structure Endpoint where
  ip : String
  port : Nat
  deriving DecidableEq, Repr

/-- A request. Only that of the UPnP check names a port for the reply. -/
structure Request where
  action : PacketAction
  times : Nat
  localFirstIp : Nat
  localPort : Nat
  upnpExUdpPort : Option Nat
  endpoint : Endpoint
  deriving DecidableEq, Repr

/-- A reply, with what the client reads of it. -/
inductive ServerPacket where
  | natCheckSameRoute (detectedIp detectUdpPort : Nat)
  | natCheckDiffIp
  | natCheckDiffPort
  | natCheckForUpnp (sendUdpUpnpPort : Nat)
  deriving DecidableEq, Repr

def ServerPacket.action : ServerPacket → PacketAction
  | natCheckSameRoute _ _ => .natCheckSameRoute
  | natCheckDiffIp => .natCheckDiffIp
  | natCheckDiffPort => .natCheckDiffPort
  | natCheckForUpnp _ => .natCheckForUpnp

/-- What the client does to the rest of the program, in order. -/
inductive Effect where
  | doSendPacket (request : Request)
  | onGetNATType (natType : NatType)
  | onUpnpCheck (exUdpPort : Nat)
  | writeConfigAfterCheck (natType : NatType)
  deriving DecidableEq, Repr

/-- The client. A timer is `true` while it runs, and `serverIter` is a position in
the list of servers. -/
structure NatCheckClient where
  checkState : CheckState
  natTimer : Bool
  timer : Bool
  endpoint : Endpoint
  endpointSymnCheck : Endpoint
  times : Nat
  localIps : List Nat
  localFirstIp : Nat
  localPort : Nat
  detectPort : Nat
  detectIp : Nat
  upnpExUdpPort : Nat
  isNat : Bool
  natCheckServerList : List String
  serverIter : Nat
  configPath : String
  deriving Repr

/-- What the configuration file gives: either reading it fails, with the type read
until then, or it names a type, which is in the range of known ones or not, an
address and a day of the month. -/
inductive SavedNat where
  | failed (nType : NatType)
  | found (nType : NatType) (known : Bool) (nIp : Nat) (nTime : Int)
  deriving Repr

/-- What `StartCheck` asks the rest of the program for: the servers of the
bootstrap configuration in a random order, the addresses, the saved result. -/
structure Surroundings where
  natCheckServers : List String
  localIps : List Nat
  localFirstIp : Nat
  localUdpPort : Nat
  saved : SavedNat
  day : Nat
  natNeedCheckMinDays : Nat
  deriving Repr

namespace NatCheckClient

def start (c : NatCheckClient) (configPath : String) : NatCheckClient :=
  { c with configPath := configPath, natTimer := true }

/-- The request of the present state, if it has one. -/
def natCheckpacket (c : NatCheckClient) : Option Request :=
  let packet (action : PacketAction) (upnpExUdpPort : Option Nat) (endpoint : Endpoint) :=
    some ⟨action, c.times, c.localFirstIp, c.localPort, upnpExUdpPort, endpoint⟩
  match c.checkState with
  | .isNatChecking => packet .natCheckSameRoute none c.endpoint
  | .fullCornChecking => packet .natCheckDiffIp none c.endpoint
  | .symmetricChecking => packet .natCheckSameRoute none c.endpointSymnCheck
  | .restrictedChecking => packet .natCheckDiffPort none c.endpoint
  | .upnpChecking => packet .natCheckForUpnp (some c.upnpExUdpPort) c.endpoint
  | .idle | .complete => none

def doSendNatCheckpacket (c : NatCheckClient) : NatCheckClient × List Effect :=
  ({ c with timer := true }, c.natCheckpacket.toList.map .doSendPacket)

/-- Whether the type has to be found out, and the type saved before. -/
def isNeedToUpdateNat (c : NatCheckClient) (around : Surroundings) : Bool × NatType :=
  if c.configPath.length = 0 then (false, .typeError)
  else
    match around.saved with
    | .failed nType => (false, nType)
    | .found nType known nIp nTime =>
        if !known then (true, nType)
        else if nIp ≠ around.localFirstIp then (true, nType)
        else if ((around.day : Int) - nTime).natAbs ≥ around.natNeedCheckMinDays then (true, nType)
        else (false, nType)

/-- Begin the check, with the first server. Reading past the end of the list of
servers is a fault. -/
def startCheck (c : NatCheckClient) (around : Surroundings) :
    Option (NatCheckClient × List Effect) :=
  let c := { c with natTimer := false, natCheckServerList := around.natCheckServers }
  if c.natCheckServerList.isEmpty then some (c, [.onGetNATType .typeError])
  else
    c.natCheckServerList[0]?.map fun server =>
      let c := { c with
        serverIter := 1
        endpoint := ⟨server, 13478⟩
        localIps := around.localIps
        localFirstIp := around.localFirstIp
        localPort := around.localUdpPort }
      match c.isNeedToUpdateNat around with
      | (true, _) => { c with checkState := .isNatChecking }.doSendNatCheckpacket
      | (false, natType) => (c, [.onGetNATType natType])

/-- The end of a check in `COMPLETE`. -/
def completeWith (c : NatCheckClient) (natType : NatType) : NatCheckClient × List Effect :=
  ({ c with checkState := .complete }, [.onGetNATType natType, .writeConfigAfterCheck natType])

def onReceiveNatCheckSameRoutePacket (c : NatCheckClient) (detectedIp detectUdpPort : Nat) :
    NatCheckClient × List Effect :=
  match c.checkState with
  | .isNatChecking =>
      -- Without a NAT the server sees the local address.
      { c with
        detectPort := detectUdpPort
        detectIp := detectedIp
        isNat := !(c.localIps.contains detectedIp && detectUdpPort == c.localPort)
        checkState := .fullCornChecking }.doSendNatCheckpacket
  | .symmetricChecking =>
      if c.detectPort ≠ detectUdpPort ∨ c.detectIp ≠ detectedIp then c.completeWith .typeSymNat
      else { c with checkState := .restrictedChecking }.doSendNatCheckpacket
  | _ => (c, [])

def onReceiveNatCheckDiffIpPacket (c : NatCheckClient) : NatCheckClient × List Effect :=
  c.completeWith (if c.isNat then .typeFullConeNat else .typePublic)

def onReceiveNatCheckDiffPortPacket (c : NatCheckClient) : NatCheckClient × List Effect :=
  c.completeWith .typeIpRestrictedNat

def onReceiveNatCheckForUpnpPacket (c : NatCheckClient) (sendUdpUpnpPort : Nat) :
    NatCheckClient × List Effect :=
  ({ c with checkState := .complete },
    [.onUpnpCheck sendUdpUpnpPort, .writeConfigAfterCheck .typeFullConeNat])

/-- A packet arrives. The timer stops and the count starts again for any of them. -/
def onUdpReceive (c : NatCheckClient) (packet : ServerPacket) : NatCheckClient × List Effect :=
  let c := { c with timer := false, times := 0 }
  match packet with
  | .natCheckSameRoute ip port => c.onReceiveNatCheckSameRoutePacket ip port
  | .natCheckDiffIp => c.onReceiveNatCheckDiffIpPacket
  | .natCheckDiffPort => c.onReceiveNatCheckDiffPortPacket
  | .natCheckForUpnp port => c.onReceiveNatCheckForUpnpPacket port

/-- The end of a check that leaves the state as it was. -/
def giveUp (c : NatCheckClient) : NatCheckClient × List Effect :=
  (c, [.onGetNATType .typeError, .writeConfigAfterCheck .typeError])

/-- The timer ticks: the request is sent again, or there was no reply to it. -/
def onHandleTimeOut (c : NatCheckClient) : Option (NatCheckClient × List Effect) :=
  let c := { c with timer := false }
  if c.times < 3 then some { c with times := c.times + 1 }.doSendNatCheckpacket
  else
    match c.checkState with
    | .isNatChecking =>
        if c.serverIter ≠ c.natCheckServerList.length then
          c.natCheckServerList[c.serverIter]?.map fun server =>
            { c with
              times := 0
              endpoint := ⟨server, 13478⟩
              serverIter := c.serverIter + 1 }.doSendNatCheckpacket
        else some c.giveUp
    | .fullCornChecking =>
        if c.isNat then
          let c := { c with times := 0, checkState := .symmetricChecking }
          if c.serverIter ≠ c.natCheckServerList.length then
            c.natCheckServerList[c.serverIter]?.map fun server =>
              { c with
                endpointSymnCheck := ⟨server, 13478⟩
                serverIter := c.serverIter + 1 }.doSendNatCheckpacket
          else some c.giveUp
        else some (c.completeWith .typeSymNat)
    | .symmetricChecking =>
        if c.serverIter = c.natCheckServerList.length then some c.giveUp
        else
          c.natCheckServerList[c.serverIter]?.map fun server =>
            { c with
              times := 0
              endpointSymnCheck := ⟨server, 13478⟩
              serverIter := c.serverIter + 1 }.doSendNatCheckpacket
    | .restrictedChecking => some (c.completeWith .typeIpPortRestrictedNat)
    | .upnpChecking => some ({ c with checkState := .complete }, [.onUpnpCheck 0])
    | .idle | .complete => some (c, [])

def checkForUpnp (c : NatCheckClient) (exUdpPort : Nat) : NatCheckClient × List Effect :=
  { c with checkState := .upnpChecking, upnpExUdpPort := exUdpPort }.doSendNatCheckpacket

end NatCheckClient

/-- What the module keeps of the results. -/
structure StunModule where
  isRunning : Bool
  isNeededStun : Bool
  natType : NatType
  natCheckReturned : Bool
  upnpExUdpPort : Nat
  deriving Repr

namespace StunModule

def onGetNATType (m : StunModule) (natType : NatType) : StunModule :=
  let m := { m with natCheckReturned := true }
  if !m.isRunning then m
  else
    { m with
      isNeededStun := !(natType = .typePublic ∨ natType = .typeFullConeNat)
      natType := natType }

def onUpnpCheck (m : StunModule) (exUdpPort : Nat) : StunModule :=
  let m := { m with upnpExUdpPort := exUdpPort }
  if exUdpPort ≠ 0 then
    { m with natCheckReturned := true, natType := .typeFullConeNat, isNeededStun := false }
  else m

@[simp] theorem onGetNATType_isRunning (m : StunModule) (natType : NatType) :
    (m.onGetNATType natType).isRunning = m.isRunning := by
  simp only [onGetNATType]
  split <;> rfl

@[simp] theorem onGetNATType_natCheckReturned (m : StunModule) (natType : NatType) :
    (m.onGetNATType natType).natCheckReturned = true := by
  simp only [onGetNATType]
  split <;> rfl

@[simp] theorem onUpnpCheck_isRunning (m : StunModule) (exUdpPort : Nat) :
    (m.onUpnpCheck exUdpPort).isRunning = m.isRunning := by
  simp only [onUpnpCheck]
  split <;> rfl

theorem onUpnpCheck_natCheckReturned {m : StunModule} (h : m.natCheckReturned = true)
    (exUdpPort : Nat) : (m.onUpnpCheck exUdpPort).natCheckReturned = true := by
  simp only [onUpnpCheck]
  split
  · rfl
  · exact h

end StunModule

/-- The module and its client with the requests sent so far. Those from `presentFrom`
on belong to the present step of the check. The counts are of the checks begun, the
results reported, and the ticks of the timer since the last check began. -/
structure System where
  client : NatCheckClient
  stun : StunModule
  natcheckPair : Nat × Nat
  sent : List Request
  presentFrom : Nat
  natChecks : Nat
  natReports : Nat
  upnpChecks : Nat
  upnpReports : Nat
  ticks : Nat

/-- What may happen. A packet is the reply to the request at its place in `sent`, and
`evokeNatcheck` is the call of the UPnP module for a mapping of ports. -/
inductive Event where
  | natTimer (around : Surroundings)
  | timer
  | udpRecv (request : Nat) (packet : ServerPacket)
  | evokeNatcheck (localUdpPort innerUdpPort exUdpPort : Nat)

namespace System

def perform (s : System) : Effect → System
  | .doSendPacket request => { s with sent := s.sent ++ [request] }
  | .onGetNATType natType =>
      { s with stun := s.stun.onGetNATType natType, natReports := s.natReports + 1 }
  | .onUpnpCheck exUdpPort =>
      { s with stun := s.stun.onUpnpCheck exUdpPort, upnpReports := s.upnpReports + 1 }
  | .writeConfigAfterCheck _ => s

/-- The client has moved, with these effects. -/
def after (s : System) (moved : NatCheckClient × List Effect) : System :=
  moved.2.foldl perform { s with client := moved.1 }

/-- What `EvokeNatcheck` leaves alone: another port, a mapping seen before, and any
mapping before the first result. -/
def Ignored (s : System) (localUdpPort innerUdpPort exUdpPort : Nat) : Prop :=
  innerUdpPort ≠ localUdpPort ∨ (innerUdpPort, exUdpPort) = s.natcheckPair ∨
    s.stun.natCheckReturned = false

instance (s : System) (localUdpPort innerUdpPort exUdpPort : Nat) :
    Decidable (s.Ignored localUdpPort innerUdpPort exUdpPort) :=
  inferInstanceAs (Decidable (_ ∨ _ ∨ _))

/-- One event. A step of the check ends with everything but a request sent again. -/
def next (s : System) : Event → Option System
  | .natTimer around =>
      (s.client.startCheck around).map fun moved =>
        { s.after moved with
          natChecks := s.natChecks + 1, presentFrom := s.sent.length, ticks := 0 }
  | .timer =>
      s.client.onHandleTimeOut.map fun moved =>
        { s.after moved with
          presentFrom := if s.client.times < 3 then s.presentFrom else s.sent.length
          ticks := s.ticks + 1 }
  | .udpRecv _ packet =>
      if s.stun.isRunning then
        some { s.after (s.client.onUdpReceive packet) with presentFrom := s.sent.length }
      else some s
  | .evokeNatcheck localUdpPort innerUdpPort exUdpPort =>
      if s.Ignored localUdpPort innerUdpPort exUdpPort then some s
      else
        some { s.after (s.client.checkForUpnp exUdpPort) with
          natcheckPair := (innerUdpPort, exUdpPort)
          upnpChecks := s.upnpChecks + 1
          presentFrom := s.sent.length
          ticks := 0 }

/-- A timer ticks while it runs, and a reply has a request of its kind. Replies may
come late, again, or never. -/
def Enabled (s : System) : Event → Prop
  | .natTimer around => s.client.natTimer = true ∧ around.natCheckServers ≠ []
  | .timer => s.client.timer = true
  | .udpRecv request packet => (s.sent[request]?).any (fun sent => sent.action = packet.action) = true
  | .evokeNatcheck _ _ _ => True

instance (s : System) (e : Event) : Decidable (s.Enabled e) := by
  cases e <;> unfold Enabled <;> infer_instance

end System

end Stun
