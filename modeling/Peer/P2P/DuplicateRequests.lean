import Mathlib.Data.List.Dedup
import Mathlib.Data.Finset.Dedup
import Peer.Basis.KeepsLargest
import Peer.P2P.UploadConnections

/-! Repeated requests of one peer. Of the transaction ids it accepted a connection remembers
the largest, in the order of their values and not of their arrival. -/
namespace P2P

open Basis Storage

/-- `PEER_UPLOAD_INFO::TRANS_ID_SIZE`. -/
def transIdSize : Nat := 5

/-- The ids that were accepted of a peer, in the order in which they came. -/
abbrev Accepted := List Nat

namespace Accepted

/-- The last `TRANS_ID_SIZE` different ids. -/
def latest (accepted : Accepted) : List Nat := accepted.dedup.reverse.take transIdSize

/-- How many different ids are larger. -/
def larger (accepted : Accepted) (id : Nat) : Nat := (accepted.dedup.filter (id < ·)).length

theorem larger_eq_card (accepted : Accepted) (id : Nat) :
    accepted.larger id = (accepted.toFinset.filter (id < ·)).card := by
  rw [larger, ← List.toFinset_card_of_nodup (accepted.nodup_dedup.filter _)]
  congr 1
  ext other
  simp

theorem mem_of_mem_latest {accepted : Accepted} {id : Nat} (h : id ∈ accepted.latest) :
    id ∈ accepted :=
  List.mem_dedup.mp (List.mem_reverse.mp (List.mem_of_mem_take h))

end Accepted

namespace PeerUploadInfo

/-- A position that has been found: no earlier id is smaller. -/
theorem minPos_scan (ids : List Nat) (n : Nat) (hBound : n ≤ ids.length) (hIds : ids ≠ []) :
    let pos := (List.range n).foldl
      (fun best i => if ids.getD i 0 < ids.getD best 0 then i else best) 0
    pos < ids.length ∧ ∀ i < n, ids.getD pos 0 ≤ ids.getD i 0 := by
  induction n with
  | zero => exact ⟨List.length_pos_iff.mpr hIds, fun _ h => absurd h (Nat.not_lt_zero _)⟩
  | succ n ih =>
      obtain ⟨hPos, hLeast⟩ := ih (by omega)
      simp only [List.range_succ, List.foldl_append, List.foldl_cons, List.foldl_nil]
      split
      · rename_i hLess
        refine ⟨by omega, fun i hi => ?_⟩
        rcases Nat.lt_succ_iff_lt_or_eq.mp hi with hOld | rfl
        · exact hLess.le.trans (hLeast i hOld)
        · exact le_rfl
      · rename_i hLess
        refine ⟨hPos, fun i hi => ?_⟩
        rcases Nat.lt_succ_iff_lt_or_eq.mp hi with hOld | rfl
        · exact hLeast i hOld
        · exact not_lt.mp hLess

theorem minPos_spec {ids : List Nat} (hIds : ids ≠ []) :
    ∃ least, ids[minPos ids]? = some least ∧ ids.getD (minPos ids) 0 = least ∧
      ∀ id ∈ ids, least ≤ id := by
  obtain ⟨hPos, hLeast⟩ := minPos_scan ids ids.length le_rfl hIds
  change minPos ids < ids.length at hPos
  change ∀ i < ids.length, ids.getD (minPos ids) 0 ≤ ids.getD i 0 at hLeast
  have hGet : ∀ i (hi : i < ids.length), ids.getD i 0 = ids[i] := fun i hi => by simp [List.getD, hi]
  refine ⟨ids[minPos ids], List.getElem?_eq_getElem hPos, hGet _ hPos, ?_⟩
  intro id hMem
  obtain ⟨i, hi, rfl⟩ := List.getElem_of_mem hMem
  rw [← hGet _ hPos, ← hGet i hi]
  exact hLeast i hi

/-- The ids remembered are the largest of those accepted. -/
def Remembers (info : PeerUploadInfo) (accepted : Accepted) : Prop :=
  KeepsLargest transIdSize accepted.toFinset info.lastDataTransIds

theorem Remembers.create (now : Nat) : (create now).Remembers [] :=
  KeepsLargest.start transIdSize

theorem Remembers.update {info : PeerUploadInfo} {accepted : Accepted} {id : Nat}
    (h : info.Remembers accepted) (hNew : id ∉ info.lastDataTransIds) :
    (info.updateLastDataTransID id).Remembers (accepted ++ [id]) := by
  have hShown : (accepted ++ [id]).toFinset = insert id accepted.toFinset := by
    simp
  have hIds : info.lastDataTransIds ≠ [] := by
    intro hNil
    have hLength := h.length
    simp [hNil, transIdSize] at hLength
  obtain ⟨least, hPos, hGet, hLeast⟩ := minPos_spec hIds
  unfold Remembers updateLastDataTransID
  rw [hShown]
  dsimp only
  rw [hGet]
  split
  · rename_i hLess
    exact h.replace hNew hPos hLeast hLess
  · rename_i hLess
    refine h.skip fun y hy => lt_of_le_of_ne ((not_lt.mp hLess).trans (hLeast y hy)) ?_
    rintro rfl
    exact hNew hy

end PeerUploadInfo

namespace UploadConnections

/-- What `TryAddUniqueTransactionId` returns. -/
def acceptsTransactionId (m : UploadConnections) (now : Nat) (ep : SocketAddr) (id : Nat) : Bool :=
  !(m.peerUploadInfo now ep).lastDataTransIds.contains id

/-- A transaction id of a peer, and the time at which it came. -/
structure Request where
  now : Nat
  id : Nat

/-- The connections and the ids of one peer that were accepted so far. -/
structure Served where
  connections : UploadConnections
  accepted : Accepted

/-- `TryAddUniqueTransactionId` of a request. -/
def Served.receive (ep : SocketAddr) (s : Served) (request : Request) : Served where
  connections := s.connections.tryAddUniqueTransactionId request.now ep request.id
  accepted :=
    if s.connections.acceptsTransactionId request.now ep request.id then s.accepted ++ [request.id]
    else s.accepted

/-- After `AddConnection` and the requests of the peer since. -/
def servedAfter (m : UploadConnections) (now : Nat) (ep : SocketAddr) (requests : List Request) :
    Served :=
  requests.foldl (Served.receive ep) ⟨m.addConnection now ep, []⟩

/-- An id is accepted if it never was, and rejected if it is one of the last accepted. -/
def Recognised (s : Served) (ep : SocketAddr) (request : Request) : Prop :=
  (request.id ∉ s.accepted →
      s.connections.acceptsTransactionId request.now ep request.id = true) ∧
    (request.id ∈ s.accepted.latest →
      s.connections.acceptsTransactionId request.now ep request.id = false)

/-- The id is not 0, or has been accepted, or comes after five larger ones; and if it is one
of the last accepted, fewer than five larger ones have been accepted. -/
def InOrderOfSize (accepted : Accepted) (id : Nat) : Prop :=
  (id = 0 → id ∈ accepted ∨ transIdSize ≤ accepted.larger id) ∧
    (id ∈ accepted.latest → accepted.larger id < transIdSize)

variable {m : UploadConnections} {now : Nat} {ep : SocketAddr} {s : Served}

theorem peerUploadInfo_updatePeer (f : PeerUploadInfo → PeerUploadInfo) (later : Nat) :
    (m.updatePeer now ep f).peerUploadInfo later ep = f (m.peerUploadInfo now ep) := by
  unfold peerUploadInfo updatePeer
  rw [OrderedMap.find?_update_self, Option.getD_some]

/-- The record of the peer remembers the largest ids accepted. -/
def Served.Sound (s : Served) (ep : SocketAddr) : Prop :=
  ∀ now, (s.connections.peerUploadInfo now ep).Remembers s.accepted

theorem Served.sound_start : Served.Sound ⟨m.addConnection now ep, []⟩ ep := by
  intro later
  unfold addConnection
  rw [peerUploadInfo_updatePeer]
  exact .create now

theorem Served.Sound.receive (h : s.Sound ep) (request : Request) :
    (s.receive ep request).Sound ep := by
  intro later
  have hBefore := h request.now
  unfold Served.receive tryAddUniqueTransactionId acceptsTransactionId
  dsimp only
  rw [peerUploadInfo_updatePeer]
  cases hKnown : (s.connections.peerUploadInfo request.now ep).lastDataTransIds.contains
      request.id with
  | true => exact hBefore
  | false => exact hBefore.update (by simpa using hKnown)

theorem servedAfter_sound (requests : List Request) : (servedAfter m now ep requests).Sound ep := by
  unfold servedAfter
  induction requests using List.reverseRecOn with
  | nil => exact Served.sound_start
  | append_singleton before request ih =>
      rw [List.foldl_append]
      exact ih.receive request

/-- Which ids are rejected: those accepted before of which fewer than five others are larger,
and 0 as long as there is a free place. -/
theorem Served.Sound.rejects_iff (h : s.Sound ep) (request : Request) :
    s.connections.acceptsTransactionId request.now ep request.id = false ↔
      (request.id ∈ s.accepted ∨ request.id = 0) ∧ s.accepted.larger request.id < transIdSize := by
  rw [Accepted.larger_eq_card, ← List.mem_toFinset]
  refine Iff.trans ?_ (h request.now).mem_iff
  simp [acceptsTransactionId]

theorem Served.Sound.recognised_iff (h : s.Sound ep) (request : Request) :
    Recognised s ep request ↔ InOrderOfSize s.accepted request.id := by
  have hRejects := h.rejects_iff request
  unfold Recognised InOrderOfSize
  rw [← Bool.not_eq_false, hRejects]
  constructor
  · rintro ⟨hNew, hLatest⟩
    refine ⟨fun hZero => or_iff_not_imp_left.mpr fun hAway => ?_, fun hMem => (hLatest hMem).2⟩
    exact not_lt.mp fun hFew => hNew hAway ⟨Or.inr hZero, hFew⟩
  · rintro ⟨hZero, hLatest⟩
    refine ⟨fun hAway ⟨hOld, hFew⟩ => ?_, fun hMem => ?_⟩
    · rcases hOld with hOld | hOld
      · exact hAway hOld
      · exact (hZero hOld).elim hAway fun hMany => absurd hFew (not_lt.mpr hMany)
    · exact ⟨Or.inl (Accepted.mem_of_mem_latest hMem), hLatest hMem⟩

/-- Of every sequence of requests, each one is recognised exactly if the ids come in an order
in which the memory of the largest is a memory of the latest. -/
theorem duplicatesRecognised_iff (m : UploadConnections) (now : Nat) (ep : SocketAddr)
    (requests : List Request) :
    (∀ before request after, requests = before ++ request :: after →
        Recognised (servedAfter m now ep before) ep request) ↔
      ∀ before request after, requests = before ++ request :: after →
        InOrderOfSize (servedAfter m now ep before).accepted request.id :=
  forall₃_congr fun before request _ =>
    imp_congr_right fun _ => (servedAfter_sound before).recognised_iff request

/-- An id smaller than the five remembered is forgotten at once, and served again. -/
theorem duplicatesRecognised_fails :
    ¬ ∀ (m : UploadConnections) (now : Nat) (ep : SocketAddr) (requests : List Request),
      ∀ before request after, requests = before ++ request :: after →
        Recognised (servedAfter m now ep before) ep request := by
  intro hAll
  have hLate := hAll .empty 0 ⟨1, 2⟩ ([10, 11, 12, 13, 14, 9, 9].map (⟨0, ·⟩))
    ([10, 11, 12, 13, 14, 9].map (⟨0, ·⟩)) ⟨0, 9⟩ [] rfl
  have hRejected := hLate.2 (by decide +kernel)
  revert hRejected
  decide +kernel

end UploadConnections

end P2P
