import Peer.Basis.Run
import Peer.Basis.SortedSet

/-! A client that keeps a tracker informed about its resources. The tracker applies the
updates of each report and answers with its count; packets arrive in order or get lost.
The comparison with 0.7 of a count is a function of the count. -/
namespace Tracker

open Basis

universe u

variable {α : Type u} [LinearOrder α]

/-- `protocol::REPORT_RESOURCE_STRUCT`. `Type` is 1 for an added resource, 0 for a removed one. -/
structure ReportResource (α : Type u) where
  resourceId : α
  isAdd : Bool
deriving DecidableEq

/-- A report request. -/
structure ReportRequest (α : Type u) where
  transactionId : Nat
  updates : List (ReportResource α)
deriving DecidableEq

/-- A report response. -/
structure ReportAnswer where
  transactionId : Nat
  resourceCount : Nat
deriving DecidableEq

/-- `MAX_REPORT_RID_COUNT`. -/
def maxReportRidCount : Nat := 50

/-- The loop of `DoReport` over both sets, `room` updates at most: the real resources that
the server has not are added, those of the server that are not real are removed. -/
def mergeUpdates : Nat → List α → List α → List (ReportResource α)
  | 0, _, _ => []
  | _ + 1, [], [] => []
  | room + 1, real :: reals, [] => ⟨real, true⟩ :: mergeUpdates room reals []
  | room + 1, [], server :: servers => ⟨server, false⟩ :: mergeUpdates room [] servers
  | room + 1, real :: reals, server :: servers =>
    if real < server then ⟨real, true⟩ :: mergeUpdates room reals (server :: servers)
    else if server < real then ⟨server, false⟩ :: mergeUpdates room (real :: reals) servers
    else mergeUpdates (room + 1) reals servers
termination_by _ reals servers => reals.length + servers.length

/-- One update of a set. -/
def applyUpdate (set : SortedSet α) (update : ReportResource α) : SortedSet α :=
  if update.isAdd then set.insert update.resourceId else set.erase update.resourceId

def applyUpdates (updates : List (ReportResource α)) (set : SortedSet α) : SortedSet α :=
  updates.foldl applyUpdate set

/-- `TrackerClient`, the state of its synchronisation. -/
structure SyncClient (α : Type u) [LinearOrder α] where
  localResources : SortedSet α
  lastResponseRidCount : Nat
  lastTransactionId : Nat
  lastUpdates : List (ReportResource α)
  isSync : Bool
deriving DecidableEq

namespace SyncClient

def create : SyncClient α := ⟨∅, 0, 0, [], false⟩

variable (client : SyncClient α)

/-- `DoReport`. `now` is what `GetClientResource` returns, `transactionId` is a new one. -/
def doReport (now : SortedSet α) (transactionId : Nat) : SyncClient α × ReportRequest α :=
  let updates := mergeUpdates maxReportRidCount now.elements client.localResources.elements
  ({ client with lastTransactionId := transactionId, lastUpdates := updates },
    ⟨transactionId, updates⟩)

/-- A count of 0 means that the server restarted. -/
def forgetRestarted : SyncClient α :=
  if client.lastResponseRidCount = 0 then { client with localResources := ∅ } else client

/-- `DoSubmit`, with the packet it sends. Its result is the transaction of the packet, or 0. -/
def doSubmit (seventyPercent : Nat → Nat) (now : SortedSet α) (transactionId : Nat) :
    SyncClient α × Option (ReportRequest α) :=
  let client := client.forgetRestarted
  let report (client : SyncClient α) := Prod.map id some (client.doReport now transactionId)
  if now.card ≠ client.localResources.card ∨ now ≠ client.localResources then
    report { client with isSync := false }
  else if client.lastResponseRidCount < client.localResources.card then
    if client.lastResponseRidCount ≤ seventyPercent client.localResources.card then
      report { client with isSync := false, localResources := ∅ }
    else report { client with isSync := false }
  else if client.lastResponseRidCount = client.localResources.card then
    report { client with isSync := true }
  else (client, none)

/-- `DoList` takes a new transaction unless the list is for the other kind of tracker. -/
def doList (forOtherKind : Bool) (transactionId : Nat) : SyncClient α :=
  if forOtherKind then client else { client with lastTransactionId := transactionId }

def onReportResponsePacket (packet : ReportAnswer) : SyncClient α :=
  if packet.transactionId = client.lastTransactionId then
    { client with
      lastResponseRidCount := packet.resourceCount
      localResources := applyUpdates client.lastUpdates client.localResources }
  else client

end SyncClient

/-- A client, its resources, the tracker and the packets on their way. -/
structure SyncNet (α : Type u) [LinearOrder α] where
  client : SyncClient α
  resources : SortedSet α
  tracker : SortedSet α
  requests : List (ReportRequest α)
  answers : List ReportAnswer
deriving DecidableEq

inductive SyncAction (α : Type u) [LinearOrder α] where
  | changeResources (now : SortedSet α)
  | doSubmit (transactionId : Nat)
  | doList (forOtherKind : Bool) (transactionId : Nat)
  | deliverRequest
  | deliverAnswer
  | loseRequest (index : Nat)
  | loseAnswer (index : Nat)

namespace SyncNet

def create (now : SortedSet α) : SyncNet α := ⟨.create, now, ∅, [], []⟩

variable (s : SyncNet α)

/-- No packet on its way has the transaction. -/
def Fresh (transactionId : Nat) : Prop :=
  (∀ request ∈ s.requests, request.transactionId ≠ transactionId) ∧
    ∀ answer ∈ s.answers, answer.transactionId ≠ transactionId

instance (transactionId : Nat) : Decidable (s.Fresh transactionId) :=
  inferInstanceAs (Decidable (_ ∧ _))

def submit (seventyPercent : Nat → Nat) (transactionId : Nat) : SyncNet α :=
  let answer := s.client.doSubmit seventyPercent s.resources transactionId
  { s with client := answer.1, requests := s.requests ++ answer.2.toList }

/-- The tracker receives the first request and answers. -/
def deliverRequest : SyncNet α :=
  match s.requests with
  | [] => s
  | request :: rest =>
    let tracker := applyUpdates request.updates s.tracker
    { s with
      tracker := tracker
      requests := rest
      answers := s.answers ++ [⟨request.transactionId, tracker.card⟩] }

/-- The client receives the first answer. -/
def deliverAnswer : SyncNet α :=
  match s.answers with
  | [] => s
  | answer :: rest => { s with client := s.client.onReportResponsePacket answer, answers := rest }

/-- One step. A new transaction is not one of a packet on its way. -/
def next (seventyPercent : Nat → Nat) : SyncAction α → Option (SyncNet α)
  | .changeResources now => some { s with resources := now }
  | .doSubmit transactionId =>
    if s.Fresh transactionId then some (s.submit seventyPercent transactionId) else none
  | .doList forOtherKind transactionId =>
    if s.Fresh transactionId then
      some { s with client := s.client.doList forOtherKind transactionId }
    else none
  | .deliverRequest => some s.deliverRequest
  | .deliverAnswer => some s.deliverAnswer
  | .loseRequest index => some { s with requests := s.requests.eraseIdx index }
  | .loseAnswer index => some { s with answers := s.answers.eraseIdx index }

def Step (seventyPercent : Nat → Nat) (s : SyncNet α) (a : SyncAction α) (t : SyncNet α) : Prop :=
  s.next seventyPercent a = some t

/-- One round without losses: `DoSubmit`, then every packet arrives. -/
def round (seventyPercent : Nat → Nat) (transactionId : Nat) : SyncNet α :=
  let submitted := s.submit seventyPercent transactionId
  let served := deliverRequest^[submitted.requests.length] submitted
  deliverAnswer^[served.answers.length] served

end SyncNet

end Tracker
