import Peer.Basis.SortedSet
import Peer.P2P.UploadConnections

/-! The table of the peers that are uploaded to, which a timer publishes in shared memory. It
has 256 entries and is filled from a map of every address that was ever sent to. -/
namespace Statistic

open Basis OrderedMap Storage P2P

/-- `SpeedInfoStatistic::Start`, of a statistic that does not run. -/
def startStatistic (info : SpeedInfoStatistic) (now : Nat) : SpeedInfoStatistic :=
  { info with
    isRunning := true
    uploadSpeedMeter := (⟨now, fun _ => 0, 0⟩ : ByteSpeedMeter).checkTickCount now }

/-- The address of a peer, for all of them are reached by IPv4: its `to_ulong()`. -/
abbrev Address := Nat

/-- An entry of `peer_upload_info`. -/
structure PeerUploadEntry (PeerInfo : Type) where
  ip : Address
  port : Nat
  uploadSpeed : Nat
  peerInfo : PeerInfo

/-- The size of `peer_upload_info`. -/
def tableSize : Nat := 256

structure UploadStatisticModule (PeerInfo : Type) where
  isRunning : Bool
  peerUploadCount : Nat
  uploadSpeed : Nat
  actualSpeedLimit : Nat
  peerUploadInfo : List (PeerUploadEntry PeerInfo)
  uploadMap : OrderedMap Address SpeedInfoStatistic
  uploadPeerInfo : Address → PeerInfo
  uploadSpeedInfo : SpeedInfoStatistic
  length_eq : peerUploadInfo.length = tableSize
  distinct : Distinct uploadMap

section Table

variable {PeerInfo : Type}

/-- The loop of the timer from the index `i` on; none if it writes outside the table. -/
def writeEntries (peerInfo : Address → PeerInfo) :
    OrderedMap Address SpeedInfoStatistic → Nat → List (PeerUploadEntry PeerInfo) →
      Option (List (PeerUploadEntry PeerInfo))
  | [], _, table => some table
  | (address, info) :: rest, i, table =>
    if i < table.length then
      writeEntries peerInfo rest (i + 1) (table.set i ⟨address, 0, info.nowUploadSpeed, peerInfo address⟩)
    else none

/-- What it writes for an address. -/
def entryOf (peerInfo : Address → PeerInfo) (entry : Address × SpeedInfoStatistic) :
    PeerUploadEntry PeerInfo :=
  ⟨entry.1, 0, entry.2.nowUploadSpeed, peerInfo entry.1⟩

theorem writeEntries_eq (peerInfo : Address → PeerInfo)
    (map : OrderedMap Address SpeedInfoStatistic) (front back : List (PeerUploadEntry PeerInfo)) :
    writeEntries peerInfo map front.length (front ++ back) =
      if map.length ≤ back.length then
        some (front ++ (map.map (entryOf peerInfo) ++ back.drop map.length)) else none := by
  induction map generalizing front back with
  | nil => simp [writeEntries]
  | cons entry map ih =>
      obtain ⟨address, info⟩ := entry
      cases back with
      | nil => simp [writeEntries]
      | cons old back =>
          have hMore := ih (front ++ [entryOf peerInfo (address, info)]) back
          simp only [List.length_append, List.length_singleton, List.append_assoc,
            List.singleton_append] at hMore
          rw [writeEntries, if_pos (by simp), List.set_append_right _ _ (Nat.le_refl _),
            Nat.sub_self, List.set_cons_zero]
          refine hMore.trans ?_
          simp

end Table

namespace UploadStatisticModule

variable {PeerInfo : Type} (s : UploadStatisticModule PeerInfo)

/-- The constructor and `Start`. -/
def start [Inhabited PeerInfo] (now : Nat) : UploadStatisticModule PeerInfo where
  isRunning := true
  peerUploadCount := 0
  uploadSpeed := 0
  actualSpeedLimit := 0
  peerUploadInfo := List.replicate tableSize ⟨0, 0, 0, default⟩
  uploadMap := []
  uploadPeerInfo := fun _ => default
  uploadSpeedInfo := startStatistic .create now
  length_eq := List.length_replicate
  distinct := List.Pairwise.nil

/-- The map after `SubmitUploadInfo`: an empty one is filled, another one is pruned. -/
def submittedMap (uploadingPeers : SortedSet Address) (now : Nat) :
    OrderedMap Address SpeedInfoStatistic :=
  if s.uploadMap.length = 0 then
    uploadingPeers.elements.foldl
      (fun map address => insert map address (startStatistic .create now)) s.uploadMap
  else s.uploadMap.filter fun entry => entry.1 ∈ uploadingPeers

theorem submittedMap_distinct (uploadingPeers : SortedSet Address) (now : Nat) :
    Distinct (s.submittedMap uploadingPeers now) := by
  unfold submittedMap
  split
  · have hFold : ∀ (addresses : List Address) map, Distinct map → Distinct (addresses.foldl
        (fun map address => insert map address (startStatistic .create now)) map) := by
      intro addresses
      induction addresses with
      | nil => exact fun _ h => h
      | cons address addresses ih => exact fun map h => ih _ (h.insert _ _)
    exact hFold _ _ s.distinct
  · exact s.distinct.sublist List.filter_sublist

def submitUploadInfo (uploadSpeedLimit : Nat) (uploadingPeers : SortedSet Address) (now : Nat) :
    UploadStatisticModule PeerInfo :=
  { s with
    peerUploadCount := uploadingPeers.card % 2 ^ 8
    actualSpeedLimit := uploadSpeedLimit
    uploadMap := s.submittedMap uploadingPeers now
    distinct := s.submittedMap_distinct uploadingPeers now }

/-- An address that is not in the map gets a statistic, which is started. -/
def submitUploadSpeedInfo (address : Address) (size now : Nat) : UploadStatisticModule PeerInfo :=
  { s with
    uploadSpeedInfo := (s.uploadSpeedInfo.submitUploadedBytes size now).getSpeedInfo now
    uploadMap := update s.uploadMap address (startStatistic .create now)
      fun info => info.submitUploadedBytes size now
    distinct := s.distinct.update _ _ }

def submitUploadPeerInfo (address : Address) (peerInfo : PeerInfo) :
    UploadStatisticModule PeerInfo :=
  { s with uploadPeerInfo := Function.update s.uploadPeerInfo address peerInfo }

/-- The statistics when their speeds were asked for. -/
def askedMap (now : Nat) : OrderedMap Address SpeedInfoStatistic :=
  s.uploadMap.map fun entry => (entry.1, entry.2.getSpeedInfo now)

theorem askedMap_distinct (now : Nat) : Distinct (s.askedMap now) :=
  List.pairwise_map.mpr s.distinct

theorem writeEntries_length {table : List (PeerUploadEntry PeerInfo)} {now : Nat}
    (h : writeEntries s.uploadPeerInfo (s.askedMap now) 0 s.peerUploadInfo = some table) :
    table.length = tableSize := by
  have hTable := writeEntries_eq s.uploadPeerInfo (s.askedMap now) [] s.peerUploadInfo
  rw [List.nil_append, List.length_nil, h] at hTable
  split at hTable
  · rename_i hFits
    obtain rfl := Option.some.inj hTable
    have hLength := s.length_eq
    simp only [List.nil_append, List.length_append, List.length_map, List.length_drop]
    omega
  · cases hTable

/-- `OnShareMemoryTimer`. -/
def onShareMemoryTimer (now : Nat) : Option (UploadStatisticModule PeerInfo) :=
  if !s.isRunning then some s
  else
    match h : writeEntries s.uploadPeerInfo (s.askedMap now) 0 s.peerUploadInfo with
    | none => none
    | some table => some
      { s with
        uploadSpeedInfo := s.uploadSpeedInfo.getSpeedInfo now
        uploadSpeed := (s.uploadSpeedInfo.getSpeedInfo now).nowUploadSpeed
        uploadMap := s.askedMap now
        distinct := s.askedMap_distinct now
        peerUploadInfo := table
        length_eq := s.writeEntries_length h }

end UploadStatisticModule

end Statistic
