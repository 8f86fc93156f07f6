import Peer.Basis.Advance
import Peer.P2P.LiveAssigner

/-! The peers among which `Assigner` divides the subpieces of a round: those with a file
description, the earliest first, and no more than a number that is configured. -/
namespace P2P

open Basis Storage LiveAssigner

/-- What is read and written of a `ConnectionBase` and its statistic, which is running. It is
known by its endpoint. -/
structure ConnectionBase where
  endpoint : Nat
  hasRidInfo : Bool
  isRidInfoValid : Bool
  avgDeltaTime : Nat
  taskQueueSize : Nat
  assignedLeftSubPieceCount : Nat

/-- The assigner with `peers_` and `p2p_max_connect_count_` of its downloader. The map has one
connection for an endpoint. -/
structure Assigner where
  isRunning : Bool
  peers : List ConnectionBase
  peers_nodup : (peers.map ConnectionBase.endpoint).Nodup
  p2pMaxConnectCount : Nat
  peerConnectionRecvtimeList : List PeerRecvtime

namespace ConnectionBase

/-- The tasks that are left are counted and dropped. -/
def clearTaskQueue (peer : ConnectionBase) : ConnectionBase :=
  { peer with taskQueueSize := 0, assignedLeftSubPieceCount := u16 peer.taskQueueSize }

/-- Whether the peer has the file. -/
def isUsable (peer : ConnectionBase) : Bool := peer.hasRidInfo && peer.isRidInfoValid

def recvtime (peer : ConnectionBase) : PeerRecvtime := ⟨peer.avgDeltaTime, peer.endpoint⟩

end ConnectionBase

namespace Assigner

variable (s : Assigner)

theorem clearTaskQueues_nodup :
    ((s.peers.map ConnectionBase.clearTaskQueue).map ConnectionBase.endpoint).Nodup := by
  rw [List.map_map]
  exact s.peers_nodup

/-- The list before its size is controlled. -/
def sortedRecvtimes : List PeerRecvtime :=
  ((s.peers.filter ConnectionBase.isUsable).map ConnectionBase.recvtime).mergeSort
    fun a b => !decide (b.recvTime < a.recvTime)

/-- `CaclPeerConnectionRecvTimeMap` with `P2P_DOWNLOAD_MAX_SCHEDULE_COUNT`; none if the
iterator leaves the list. -/
def caclPeerConnectionRecvTimeMap (maxScheduleCount : Nat) : Option Assigner :=
  if !s.isRunning then some s
  else
    let list := s.sortedRecvtimes
    let controlled :=
      if s.p2pMaxConnectCount < list.length then
        (advance maxScheduleCount list).map (eraseToEnd list)
      else some list
    controlled.map fun list =>
      { s with
        peers := s.peers.map ConnectionBase.clearTaskQueue
        peers_nodup := s.clearTaskQueues_nodup
        peerConnectionRecvtimeList := list }

/-- The peers that have the file. -/
def usable : List ConnectionBase := s.peers.filter ConnectionBase.isUsable

/-- What a round starts from: every connection of the list is usable and in it once, with the
time of its own, and earlier ones were not passed over. -/
structure Selected (s t : Assigner) : Prop where
  once : (t.peerConnectionRecvtimeList.map PeerRecvtime.peer).Nodup
  usable : ∀ x ∈ t.peerConnectionRecvtimeList, ∃ peer ∈ s.usable, x = peer.recvtime
  earliest : ∀ x ∈ t.peerConnectionRecvtimeList, ∀ peer ∈ s.usable,
    peer.recvtime ∉ t.peerConnectionRecvtimeList → x.recvTime ≤ peer.avgDeltaTime

section Selection

variable {s}

theorem sortedRecvtimes_perm :
    s.sortedRecvtimes.Perm (s.usable.map ConnectionBase.recvtime) :=
  List.mergeSort_perm _ _

theorem length_sortedRecvtimes : s.sortedRecvtimes.length = s.usable.length := by
  rw [s.sortedRecvtimes_perm.length_eq, List.length_map]

theorem sortedRecvtimes_nodup : (s.sortedRecvtimes.map PeerRecvtime.peer).Nodup := by
  rw [(s.sortedRecvtimes_perm.map _).nodup_iff, List.map_map]
  exact s.peers_nodup.sublist (List.filter_sublist.map _)

theorem sortedRecvtimes_sorted :
    s.sortedRecvtimes.Pairwise fun a b => a.recvTime ≤ b.recvTime := by
  have hSorted : s.sortedRecvtimes.Pairwise fun a b => (!decide (b.recvTime < a.recvTime)) = true :=
    List.pairwise_mergeSort (by intro a b c; simp; omega) (by intro a b; simp; omega) _
  exact hSorted.imp fun h => by simpa using h

/-- Any number of entries from the front is a selection. -/
theorem selected_take {t : Assigner} {n : Nat}
    (h : t.peerConnectionRecvtimeList = s.sortedRecvtimes.take n) : Selected s t := by
  refine ⟨?_, ?_, ?_⟩
  · rw [h]
    exact s.sortedRecvtimes_nodup.sublist ((List.take_sublist _ _).map _)
  · intro x hx
    rw [h] at hx
    obtain ⟨peer, hPeer, rfl⟩ :=
      List.mem_map.mp (s.sortedRecvtimes_perm.mem_iff.mp (List.mem_of_mem_take hx))
    exact ⟨peer, hPeer, rfl⟩
  · intro x hx peer hPeer hNot
    rw [h] at hx hNot
    have hMem : peer.recvtime ∈ s.sortedRecvtimes :=
      s.sortedRecvtimes_perm.mem_iff.mpr (List.mem_map_of_mem hPeer)
    have hSorted := s.sortedRecvtimes_sorted
    rw [← List.take_append_drop n s.sortedRecvtimes] at hMem hSorted
    have hRest := (List.mem_append.mp hMem).resolve_left hNot
    exact (List.pairwise_append.mp hSorted).2.2 x hx _ hRest

/-- What a round leaves, if its iterator stays in the list. -/
theorem caclPeerConnectionRecvTimeMap_eq {maxScheduleCount : Nat} (hRunning : s.isRunning = true)
    (h : s.usable.length ≤ s.p2pMaxConnectCount ∨ maxScheduleCount ≤ s.usable.length) :
    ∃ t n, s.caclPeerConnectionRecvTimeMap maxScheduleCount = some t ∧
      t.peerConnectionRecvtimeList = s.sortedRecvtimes.take n := by
  unfold caclPeerConnectionRecvTimeMap
  rw [hRunning, Bool.not_true, if_neg Bool.false_ne_true]
  dsimp only
  rw [length_sortedRecvtimes]
  by_cases hFew : s.usable.length ≤ s.p2pMaxConnectCount
  · rw [if_neg (Nat.not_lt.mpr hFew)]
    refine ⟨_, s.sortedRecvtimes.length, rfl, ?_⟩
    rw [List.take_length]
  · have hSkip := h.resolve_left hFew
    rw [← length_sortedRecvtimes] at hSkip
    rw [if_pos (Nat.not_le.mp hFew), advance_eq, if_pos hSkip]
    exact ⟨_, maxScheduleCount, rfl, eraseToEnd_drop hSkip⟩

/-- Too many peers, but fewer than the iterator skips. -/
theorem caclPeerConnectionRecvTimeMap_eq_none {maxScheduleCount : Nat}
    (hRunning : s.isRunning = true) (hMany : s.p2pMaxConnectCount < s.usable.length)
    (hShort : s.usable.length < maxScheduleCount) :
    s.caclPeerConnectionRecvTimeMap maxScheduleCount = none := by
  unfold caclPeerConnectionRecvTimeMap
  rw [hRunning, Bool.not_true, if_neg Bool.false_ne_true]
  dsimp only
  rw [length_sortedRecvtimes, if_pos hMany, advance_eq, length_sortedRecvtimes,
    if_neg (Nat.not_le.mpr hShort)]
  rfl

/-- The iterator stays in the list exactly if the peers are not too many or at least as many
as it skips. -/
theorem selection_iff (s : Assigner) (maxScheduleCount : Nat) :
    (∃ t, s.caclPeerConnectionRecvTimeMap maxScheduleCount = some t ∧
      (s.isRunning = true → Selected s t)) ↔
    (s.isRunning = true →
      s.usable.length ≤ s.p2pMaxConnectCount ∨ maxScheduleCount ≤ s.usable.length) := by
  constructor
  · rintro ⟨t, hSome, -⟩ hRunning
    by_contra hNot
    rw [not_or, Nat.not_le, Nat.not_le] at hNot
    rw [caclPeerConnectionRecvTimeMap_eq_none hRunning hNot.1 hNot.2] at hSome
    cases hSome
  · intro h
    by_cases hRunning : s.isRunning = true
    · obtain ⟨t, n, hSome, hList⟩ := caclPeerConnectionRecvTimeMap_eq hRunning (h hRunning)
      exact ⟨t, hSome, fun _ => selected_take hList⟩
    · refine ⟨s, ?_, fun hYes => absurd hYes hRunning⟩
      unfold caclPeerConnectionRecvTimeMap
      rw [Bool.not_eq_true] at hRunning
      rw [hRunning, Bool.not_false, if_pos rfl]

/-- Two peers where one is allowed, and 25 to be scheduled. -/
def twoPeers : Assigner where
  isRunning := true
  peers := [⟨1, true, true, 50, 3, 0⟩, ⟨2, true, true, 40, 0, 0⟩]
  peers_nodup := by decide
  p2pMaxConnectCount := 1
  peerConnectionRecvtimeList := []

theorem selection_fails : ¬ ∃ t, twoPeers.caclPeerConnectionRecvTimeMap 25 = some t ∧
    (twoPeers.isRunning = true → Selected twoPeers t) := by
  rintro ⟨t, hSome, -⟩
  rw [caclPeerConnectionRecvTimeMap_eq_none rfl (by decide) (by decide)] at hSome
  cases hSome

end Selection

end Assigner

end P2P
