import Peer.Basis.Timetable
import Peer.Live.Instance

/-! A round of `LiveAssigner`: the peers stand in a list by the time at which they will have
received what they were given, and each subpiece goes to the first of them that can take it. -/
namespace P2P

open Basis Storage Live

namespace LiveAssigner

/-- What is read of a `LivePeerConnection`. `hasSubPieceInBitmap` is what its announced maps
say of a subpiece; they do not change in a round. -/
structure Peer where
  avgDeltaTime : Nat
  isUdpServer : Bool
  hasSubPieceInBitmap : LivePosition → Bool
  taskSet : Finset LivePosition

/-- `PEER_RECVTIME`. A peer is known by its number. -/
structure PeerRecvtime where
  recvTime : Nat
  peer : Nat
deriving DecidableEq

end LiveAssigner

open LiveAssigner in
/-- The assigner and the connections it gives subpieces to. -/
structure LiveAssigner where
  peers : Nat → Peer
  subpieceReassignSet : Finset LivePosition
  peerConnectionRecvtimeList : List PeerRecvtime

namespace LiveAssigner

variable (s : LiveAssigner)

/-- `CaclPeerConnectionRecvTimeMap`, for the connections in the order of their endpoints. -/
def caclPeerConnectionRecvTimeMap (connections : List Nat) : LiveAssigner :=
  { s with
    peers := fun peer =>
      if peer ∈ connections then { s.peers peer with taskSet := ∅ } else s.peers peer
    peerConnectionRecvtimeList :=
      (connections.map fun peer => ⟨(s.peers peer).avgDeltaTime, peer⟩).mergeSort
        fun a b => !decide (b.recvTime < a.recvTime) }

/-- Whether a peer can take a subpiece. -/
def canTake (subpiece : LivePosition) (peer : Nat) : Bool :=
  (s.peers peer).hasSubPieceInBitmap subpiece && !decide (subpiece ∈ (s.peers peer).taskSet)

/-- The first loop: among the UDP servers, for a subpiece that is assigned again. -/
def udpServerFor (useUdpserver : Bool) (subpiece : LivePosition) :
    Option (List PeerRecvtime × PeerRecvtime × List PeerRecvtime) :=
  if useUdpserver ∧ subpiece ∈ s.subpieceReassignSet then
    splitFirst (fun x => (s.peers x.peer).isUdpServer && s.canTake subpiece x.peer)
      s.peerConnectionRecvtimeList
  else none

/-- The second loop, if the first one found nobody. -/
def peerFor (useUdpserver : Bool) (subpiece : LivePosition) :
    Option (List PeerRecvtime × PeerRecvtime × List PeerRecvtime) :=
  match s.udpServerFor useUdpserver subpiece with
  | some found => some found
  | none =>
      splitFirst (fun x =>
          (useUdpserver || !(s.peers x.peer).isUdpServer) && s.canTake subpiece x.peer)
        s.peerConnectionRecvtimeList

/-- The peer gets the subpiece, and a later place in the list. -/
def give (subpiece : LivePosition) (before : List PeerRecvtime) (current : PeerRecvtime)
    (after : List PeerRecvtime) : LiveAssigner :=
  let peer := s.peers current.peer
  { s with
    peers := Function.update s.peers current.peer
      { peer with taskSet := insert subpiece peer.taskSet }
    peerConnectionRecvtimeList := before ++ putBack PeerRecvtime.recvTime
      { current with recvTime := u32 (current.recvTime + peer.avgDeltaTime) } after }

/-- What `AssignerPeers` does with an entry of the assign list. -/
def assign (useUdpserver : Bool) (subpiece : LivePosition) : LiveAssigner :=
  let chosen := s.peerFor useUdpserver subpiece
  let s := { s with
    subpieceReassignSet :=
      if useUdpserver then s.subpieceReassignSet.erase subpiece else s.subpieceReassignSet }
  match chosen with
  | none => s
  | some (before, current, after) => s.give subpiece before current after

/-- `AssignerPeers`. -/
def assignerPeers (useUdpserver : Bool) (subpieceAssignDeque : List LivePosition) : LiveAssigner :=
  subpieceAssignDeque.foldl (fun s subpiece => s.assign useUdpserver subpiece) s

end LiveAssigner

end P2P
