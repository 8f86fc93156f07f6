import Peer.Basis.LittleEndian
import Peer.Basis.Run
import Peer.P2P.IpPool
import Peer.Storage.Base

/-! Groups of trackers and who is asked for a resource. The report index says where a
RID is reported, by its remainder modulo the announced count of groups; the list index
says where it is looked up. A pointer to a group is the group or null. -/
namespace Tracker

open Basis Storage P2P

/-- `protocol::TRACKER_INFO`. `IsTrackerForLiveUdpServer` is an answer of the library. -/
structure TrackerInfo where
  stationNo : Nat
  modNo : Nat
  endpoint : SocketAddr
  type : Nat
  isTrackerForLiveUdpServer : Bool
deriving DecidableEq

/-- `TrackerType`. -/
inductive TrackerType where
  | list
  | report
deriving DecidableEq

/-- `base::util::GuidMod`: the last eight bytes as a number, modulo the count. -/
def guidMod (guid : Guid) (mod : Nat) : Nat := leValue (guid.bytes.drop 8) % mod

/-- A `TrackerGroup`, as far as the trackers of its stations and their group count go. -/
structure TrackerGroup where
  groupCount : Nat
  trackers : List TrackerInfo
deriving DecidableEq

namespace TrackerGroup

def create : TrackerGroup := ⟨0, []⟩

def setTrackers (groupCount : Nat) (trackers : List TrackerInfo) : TrackerGroup :=
  ⟨groupCount, trackers⟩

/-- A client of the group reports the RID: `GetClientResource` has it when it is in the store. -/
def reports (group : TrackerGroup) (modNo : Nat) (rid : Guid) : Bool :=
  group.groupCount ≠ 0 && guidMod rid group.groupCount == modNo

end TrackerGroup

/-- `ModIndexer`. -/
abbrev ModIndexer := OrderedMap Nat (Option TrackerGroup)

/-- `EndpointIndexer`. -/
abbrev EndpointIndexer := OrderedMap SocketAddr (Option TrackerGroup)

/-- A loop that calls each group of an index; a null pointer is no group. -/
def allReal {K : Type} (indexer : OrderedMap K (Option TrackerGroup)) : Bool :=
  indexer.all fun entry => entry.2.isSome

structure TrackerManager where
  isRunning : Bool
  isVod : Bool
  listModIndexer : ModIndexer
  listEndpointIndexer : EndpointIndexer
  reportModIndexer : ModIndexer
  reportEndpointIndexer : EndpointIndexer

namespace TrackerManager

def create (isVod : Bool) : TrackerManager := ⟨false, isVod, [], [], [], []⟩

/-- Trackers that only keep live UDP servers are not reported to. -/
def keeps (isVod : Bool) (type : TrackerType) (tracker : TrackerInfo) : Bool :=
  isVod || type = .list || !tracker.isTrackerForLiveUdpServer

/-- `mod_map`: the kept trackers by their number. -/
def modMap (isVod : Bool) (type : TrackerType) (trackers : List TrackerInfo) :
    OrderedMap Nat (List TrackerInfo) :=
  (trackers.filter (keeps isVod type)).foldl
    (fun map tracker => map.update tracker.modNo [] fun set =>
      if tracker ∈ set then set else set ++ [tracker]) []

/-- The groups after an update: those without trackers go, and every number gets its
own. A null pointer in the index would be called. -/
def setGroups (groupCount : Nat) (map : OrderedMap Nat (List TrackerInfo)) (indexer : ModIndexer) :
    Option ModIndexer :=
  map.foldlM
    (fun (indexer : ModIndexer) entry =>
      let indexer := indexer.insert entry.1 (some .create)
      match indexer.find? entry.1 with
      | some (some _) =>
        some (indexer.update entry.1 none fun _ => some (.setTrackers groupCount entry.2))
      | _ => none)
    (indexer.filter fun entry => (map.find? entry.1).isSome)

/-- The rebuilt endpoint index; `operator[]` of the groups may add a null pointer. -/
def setEndpoints (isVod : Bool) (type : TrackerType) (trackers : List TrackerInfo)
    (indexer : ModIndexer) : ModIndexer × EndpointIndexer :=
  (trackers.filter (keeps isVod type)).foldl
    (fun indexers tracker =>
      (indexers.1.update tracker.modNo none id,
        indexers.2.update tracker.endpoint none fun _ =>
          (indexers.1.find? tracker.modNo).getD none))
    (indexer, [])

/-- The private `SetTrackerList`, up to the calls that other indexes take part in. -/
def setIndexers (isVod : Bool) (type : TrackerType) (groupCount : Nat)
    (trackers : List TrackerInfo) (indexer : ModIndexer) : Option (ModIndexer × EndpointIndexer) :=
  if trackers.isEmpty then some ([], [])
  else
    (setGroups groupCount (modMap isVod type trackers) indexer).map
      (setEndpoints isVod type trackers)

variable (m : TrackerManager)

/-- `SetTrackerList`. In the end groups are told to report, or all trackers of the list
are saved. Both call every group of their index; an empty list returns before. -/
def setTrackerList (groupCount : Nat) (trackers : List TrackerInfo) (type : TrackerType) :
    Option TrackerManager :=
  match type with
  | .list =>
    (setIndexers m.isVod type groupCount trackers m.listModIndexer).bind fun indexers =>
      if trackers.isEmpty || !m.isRunning || allReal indexers.1 then
        some { m with listModIndexer := indexers.1, listEndpointIndexer := indexers.2 }
      else none
  | .report =>
    (setIndexers m.isVod type groupCount trackers m.reportModIndexer).bind fun indexers =>
      if trackers.isEmpty || !m.isVod || allReal indexers.1 then
        some { m with reportModIndexer := indexers.1, reportEndpointIndexer := indexers.2 }
      else none

/-- `Start`, with what `LoadTrackerList` read from the file. -/
def start (file : Option (Nat × List TrackerInfo)) : Option TrackerManager :=
  if m.isRunning then some m
  else
    let loaded := match file with
      | some (groupCount, trackers) =>
        if groupCount > 100 then some m else m.setTrackerList groupCount trackers .list
      | none => some m
    loaded.map fun m => { m with isRunning := true }

/-- `Stop`: `StopAllGroups` calls every group, and the indexes are cleared. -/
def stop : Option TrackerManager :=
  if !m.isRunning then some m
  else if allReal m.listModIndexer && allReal m.listEndpointIndexer &&
      allReal m.reportModIndexer && allReal m.reportEndpointIndexer then
    some { create m.isVod with isRunning := false }
  else none

/-- The group `DoList` and `DeleteRidRecord` take for a RID. -/
def groupKey (rid : Guid) : Nat := guidMod rid m.listModIndexer.length

/-- `DoList`, with the number of the group that is asked. -/
def doList (rid : Guid) : TrackerManager × Option Nat :=
  if !m.isRunning || m.listModIndexer.length = 0 then (m, none)
  else
    let trackerGroup := (m.listModIndexer.find? (m.groupKey rid)).getD none
    ({ m with listModIndexer := m.listModIndexer.update (m.groupKey rid) none id },
      trackerGroup.map fun _ => m.groupKey rid)

def deleteRidRecord (rid : Guid) : TrackerManager :=
  if m.listModIndexer.length = 0 then m
  else { m with listModIndexer := m.listModIndexer.update (m.groupKey rid) none id }

/-- `OnListResponsePacket` and `OnReportResponsePacket` call the group of the sender. -/
def onResponsePacket (endpoint : SocketAddr) (type : TrackerType) : Option TrackerManager :=
  let indexer := match type with
    | .list => m.listEndpointIndexer
    | .report => m.reportEndpointIndexer
  if m.isRunning && indexer.find? endpoint = some none then none else some m

/-- `DoReport`, and `PPLeave` of a running manager, call the groups of the report index. -/
def doReport : Option TrackerManager := if allReal m.reportModIndexer then some m else none

end TrackerManager

inductive ManagerAction where
  | start (file : Option (Nat × List TrackerInfo))
  | stop
  | setTrackerList (groupCount : Nat) (trackers : List TrackerInfo) (type : TrackerType)
  | doList (rid : Guid)
  | deleteRidRecord (rid : Guid)
  | onResponsePacket (endpoint : SocketAddr) (type : TrackerType)
  | doReport

namespace TrackerManager

/-- One call; `none` is a call through a null pointer. -/
def next (m : TrackerManager) : ManagerAction → Option TrackerManager
  | .start file => m.start file
  | .stop => m.stop
  | .setTrackerList groupCount trackers type => m.setTrackerList groupCount trackers type
  | .doList rid => some (m.doList rid).1
  | .deleteRidRecord rid => some (m.deleteRidRecord rid)
  | .onResponsePacket endpoint type => m.onResponsePacket endpoint type
  | .doReport => m.doReport

def Step (m : TrackerManager) (a : ManagerAction) (m' : TrackerManager) : Prop := m.next a = some m'

end TrackerManager

end Tracker
