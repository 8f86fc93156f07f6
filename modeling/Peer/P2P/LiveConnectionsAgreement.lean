import Peer.P2P.LiveConnections
import Peer.P2P.IpPoolMarks

/-! The pools of a live download and its connections agree on who is connected, however
replies, errors, closed sessions and kicks come about. -/
namespace P2P.LiveConnections.LiveP2PDownloader

open Basis OrderedMap Storage IpPool

variable {outside : Outside} {connectEndPoint : UInt32 → CandidatePeerInfo → SocketAddr}
  {s t : LiveP2PDownloader} {side : Side} {endPoint key : SocketAddr} {id : Nat} {now : UInt32}

/-- What holds between two events: the connections that run are those entered, each under
its endpoint, and who is marked in a pool has one; in that of the UDP servers, one of that
type. -/
structure Agrees (s : LiveP2PDownloader) : Prop where
  tidy : ∀ side, Tidy (s.pools side)
  distinct : Distinct s.manager.peers
  endPoint_eq : ∀ key id, (key, id) ∈ s.manager.peers → (s.connections id).endPoint = key
  isRunning : ∀ key id, (key, id) ∈ s.manager.peers → (s.connections id).isRunning = true
  lt_created : ∀ key id, (key, id) ∈ s.manager.peers → id < s.created
  entered : ∀ id < s.created, (s.connections id).isRunning = true →
    ((s.connections id).endPoint, id) ∈ s.manager.peers
  marked_peer : ∀ key, (s.pools .peers).Marked key → ∃ id, (key, id) ∈ s.manager.peers
  marked_udpserver : ∀ key, (s.pools .udpservers).Marked key →
    ∃ id, (key, id) ∈ s.manager.peers ∧ (s.connections id).isUdpServer = true
  count_eq : s.manager.connectedUdpserverCount =
    s.manager.peers.countP fun entry => (s.connections entry.2).isUdpServer
  length_lt : s.manager.peers.length < 2 ^ 32

section Pools

@[simp] theorem withPool_self (f : IpPool → IpPool) :
    (s.withPool side f).pools side = f (s.pools side) := by
  simp [withPool]

theorem withPool_other {other : Side} (f : IpPool → IpPool) (h : other ≠ side) :
    (s.withPool side f).pools other = s.pools other := by
  simp [withPool, h]

/-- Nobody in the pool gets a mark. -/
theorem Agrees.withPool (h : Agrees s) {f : IpPool → IpPool}
    (hLoses : Loses (s.pools side) (f (s.pools side))) : Agrees (s.withPool side f) := by
  have hPools : ∀ other, Loses (s.pools other) ((s.withPool side f).pools other) := by
    intro other
    by_cases hOther : other = side
    · subst hOther
      rw [withPool_self]
      exact hLoses
    · rw [withPool_other f hOther]
      exact .refl (h.tidy other)
  exact { h with
    tidy := fun other => (hPools other).tidy
    marked_peer := fun key hMarked => h.marked_peer key ((hPools .peers).marked key hMarked)
    marked_udpserver := fun key hMarked =>
      h.marked_udpserver key ((hPools .udpservers).marked key hMarked) }

theorem Agrees.setConnectingPeers (h : Agrees s) (side : Side)
    (connectingPeers : OrderedMap SocketAddr ConnectingPeer) :
    Agrees (s.setConnectingPeers side connectingPeers) :=
  { h with }

theorem Agrees.tryPool (h : Agrees s) {f : IpPool → Option IpPool}
    (hLoses : ∀ pool, f (s.pools side) = some pool → Loses (s.pools side) pool)
    (hTry : s.tryPool side f = some t) : Agrees t := by
  unfold LiveP2PDownloader.tryPool at hTry
  obtain ⟨pool, hPool, rfl⟩ := Option.map_eq_some_iff.mp hTry
  exact h.withPool (hLoses pool hPool)

end Pools

section Peers

theorem Agrees.getPeer_eq_some (h : Agrees s) :
    s.getPeer endPoint = some id ↔ (endPoint, id) ∈ s.manager.peers :=
  find?_eq_some eq_of_equivalent_address h.distinct

theorem Agrees.id_eq (h : Agrees s) {id' : Nat} (hMem : (key, id) ∈ s.manager.peers)
    (hMem' : (key, id') ∈ s.manager.peers) : id = id' := by
  rw [← h.getPeer_eq_some] at hMem hMem'
  exact Option.some.inj (hMem.symm.trans hMem')

/-- Only what is entered elsewhere is left. -/
theorem mem_erase :
    (key, id) ∈ s.manager.peers.erase endPoint ↔ (key, id) ∈ s.manager.peers ∧ key ≠ endPoint := by
  unfold OrderedMap.erase
  rw [List.mem_filter]
  apply and_congr_right
  intro _
  constructor
  · intro hApart
    rintro rfl
    simp at hApart
  · intro hNe
    cases hSame : equivalent key endPoint with
    | false => rfl
    | true => exact absurd (eq_of_equivalent_address _ _ hSame) hNe

/-- A peer goes that no pool has marked. -/
theorem Agrees.delPeer (h : Agrees s) (hPeer : ¬ (s.pools .peers).Marked endPoint)
    (hUdpserver : ¬ (s.pools .udpservers).Marked endPoint) : Agrees (s.delPeer endPoint) := by
  unfold LiveP2PDownloader.delPeer
  cases hGet : s.getPeer endPoint with
  | none => exact h
  | some gone =>
      have hGone : (endPoint, gone) ∈ s.manager.peers := h.getPeer_eq_some.mp hGet
      have hOther : ∀ key id, (key, id) ∈ s.manager.peers → key ≠ endPoint → id ≠ gone := by
        rintro key id hMem hNe rfl
        exact hNe ((h.endPoint_eq key id hMem).symm.trans (h.endPoint_eq endPoint id hGone))
      have hType : ∀ id, (Function.update s.connections gone (s.connections gone).stop id).isUdpServer
          = (s.connections id).isUdpServer := by
        intro id
        by_cases hSame : id = gone
        · subst hSame
          rw [Function.update_self]
          rfl
        · rw [Function.update_of_ne hSame]
      obtain ⟨rest, hPerm, hAbsent⟩ := h.distinct.exists_perm hGone
      have hErase := erase_perm hPerm hAbsent
      have hCount := hPerm.countP_eq fun entry => (s.connections entry.2).isUdpServer
      have hLength := h.length_lt
      rw [hPerm.length_eq, List.length_cons] at hLength
      refine ⟨h.tidy, h.distinct.erase endPoint, ?_, ?_, ?_, ?_, ?_, ?_, ?_, ?_⟩
      · intro key id hMem
        obtain ⟨hMem, hNe⟩ := mem_erase.mp hMem
        dsimp only
        rw [Function.update_of_ne (hOther key id hMem hNe)]
        exact h.endPoint_eq key id hMem
      · intro key id hMem
        obtain ⟨hMem, hNe⟩ := mem_erase.mp hMem
        dsimp only
        rw [Function.update_of_ne (hOther key id hMem hNe)]
        exact h.isRunning key id hMem
      · intro key id hMem
        exact h.lt_created key id (mem_erase.mp hMem).1
      · intro id hCreated hRunning
        dsimp only at hRunning ⊢
        by_cases hSame : id = gone
        · subst hSame
          rw [Function.update_self] at hRunning
          cases hRunning
        · rw [Function.update_of_ne hSame] at hRunning ⊢
          have hMem := h.entered id hCreated hRunning
          refine mem_erase.mpr ⟨hMem, ?_⟩
          intro hKey
          rw [hKey] at hMem
          exact hSame (h.id_eq hMem hGone)
      · intro key hMarked
        obtain ⟨id, hMem⟩ := h.marked_peer key hMarked
        refine ⟨id, mem_erase.mpr ⟨hMem, ?_⟩⟩
        rintro rfl
        exact hPeer hMarked
      · intro key hMarked
        obtain ⟨id, hMem, hIs⟩ := h.marked_udpserver key hMarked
        refine ⟨id, mem_erase.mpr ⟨hMem, ?_⟩, (hType id).trans hIs⟩
        rintro rfl
        exact hUdpserver hMarked
      · dsimp only
        simp only [hType]
        rw [hErase.countP_eq, h.count_eq, hCount, List.countP_cons]
        have hBound := rest.countP_le_length (p := fun entry => (s.connections entry.2).isUdpServer)
        dsimp only
        split
        · rw [subU32_of_le (by omega) (by omega), Nat.add_sub_cancel]
        · rfl
      · show (s.manager.peers.erase endPoint).length < 2 ^ 32
        rw [hErase.length_eq]
        omega

/-- A peer goes of which both pools have taken the mark. -/
theorem Agrees.disConnect (h : Agrees s) {isUdpServer : Bool}
    (hType : ∀ id, (endPoint, id) ∈ s.manager.peers →
      (s.connections id).isUdpServer = isUdpServer) :
    Agrees (s.disConnect outside isUdpServer now endPoint) := by
  unfold LiveP2PDownloader.disConnect
  obtain ⟨told, hTold⟩ : ∃ told, told = if isUdpServer then
      s.withPool .udpservers (·.onDisConnect outside endPoint now) else s := ⟨_, rfl⟩
  have hAgrees : Agrees told := by
    rw [hTold]
    split
    · exact h.withPool (.onDisConnect (h.tidy _) now)
    · exact h
  have hUdpserver : ¬ (told.pools .udpservers).Marked endPoint := by
    intro hMarked
    rw [hTold] at hMarked
    split at hMarked
    · rw [withPool_self] at hMarked
      exact not_marked_onDisConnect (h.tidy _) now hMarked
    · rename_i hPeer
      obtain ⟨id, hMem, hIs⟩ := h.marked_udpserver endPoint hMarked
      exact hPeer ((hType id hMem).symm.trans hIs)
  rw [← hTold]
  apply (hAgrees.withPool (.onDisConnect (hAgrees.tidy _) now)).delPeer
  · rw [withPool_self]
    exact not_marked_onDisConnect (hAgrees.tidy _) now
  · rw [withPool_other _ (by decide)]
    exact hUdpserver

theorem delPeer_withPool (f : IpPool → IpPool) :
    (s.delPeer endPoint).withPool side f = (s.withPool side f).delPeer endPoint := by
  have hSame : (s.withPool side f).getPeer endPoint = s.getPeer endPoint := rfl
  unfold LiveP2PDownloader.delPeer
  rw [hSame]
  cases s.getPeer endPoint with
  | none => rfl
  | some id => rfl

@[simp] theorem delPeer_pools : (s.delPeer endPoint).pools = s.pools := by
  unfold LiveP2PDownloader.delPeer
  cases s.getPeer endPoint with
  | none => rfl
  | some id => rfl

theorem hasPeer_delPeer : (s.delPeer endPoint).hasPeer endPoint = false := by
  unfold LiveP2PDownloader.delPeer
  cases hGet : s.getPeer endPoint with
  | none => simp [hasPeer, hGet]
  | some id =>
      have hNone : (s.manager.peers.erase endPoint).find? endPoint = none := by
        apply find?_eq_none.mpr
        intro entry hMem
        simpa using (List.mem_filter.mp hMem).2
      simp [hasPeer, getPeer, hNone]

/-- The manager drops the peer before the pools are told, but they are told of it. -/
theorem Agrees.onErrorPacket (h : Agrees s) (code : ErrorCode) :
    Agrees (s.onErrorPacket outside endPoint code) := by
  obtain ⟨told, hTold⟩ : ∃ told, told =
      (s.withPool .peers (·.onConnectFailed outside endPoint)).withPool .udpservers
        (·.onConnectFailed outside endPoint) := ⟨_, rfl⟩
  have hPeers : Agrees (s.withPool .peers (·.onConnectFailed outside endPoint)) :=
    h.withPool (.onConnectFailed (h.tidy _))
  have hAgrees : Agrees told := by
    rw [hTold]
    exact hPeers.withPool (.onConnectFailed (hPeers.tidy _))
  unfold LiveP2PDownloader.onErrorPacket
  by_cases hDrop : s.hasPeer endPoint ∧
      (code = .ppvAnnouceNoResourceid ∨ code = .ppvSubpieceNoResourceid)
  · simp only [if_pos hDrop, hasPeer_delPeer, Bool.false_eq_true, if_false]
    rw [delPeer_withPool, delPeer_withPool, ← hTold]
    apply hAgrees.delPeer
    · rw [hTold, withPool_other _ (by decide), withPool_self]
      exact not_marked_onConnectFailed (h.tidy _)
    · rw [hTold, withPool_self]
      exact not_marked_onConnectFailed (hPeers.tidy _)
  · simp only [if_neg hDrop]
    split
    · exact h
    · rw [← hTold]
      exact hAgrees

/-- Peers only go, and what is left of connections is what they were. -/
structure Fewer (s t : LiveP2PDownloader) : Prop where
  peers : ∀ entry ∈ t.manager.peers, entry ∈ s.manager.peers
  endPoint_eq : ∀ id, (t.connections id).endPoint = (s.connections id).endPoint
  type_eq : ∀ id, (t.connections id).isUdpServer = (s.connections id).isUdpServer

theorem Fewer.refl (s : LiveP2PDownloader) : Fewer s s :=
  ⟨fun _ => id, fun _ => rfl, fun _ => rfl⟩

theorem Fewer.delPeer (h : Fewer s t) : Fewer s (t.delPeer endPoint) := by
  unfold LiveP2PDownloader.delPeer
  cases t.getPeer endPoint with
  | none => exact h
  | some gone =>
      refine ⟨fun entry hMem => h.peers entry ((erase_sublist _ _).subset hMem), ?_, ?_⟩
      · intro id
        dsimp only
        by_cases hSame : id = gone
        · subst hSame
          rw [Function.update_self]
          exact h.endPoint_eq id
        · rw [Function.update_of_ne hSame]
          exact h.endPoint_eq id
      · intro id
        dsimp only
        by_cases hSame : id = gone
        · subst hSame
          rw [Function.update_self]
          exact h.type_eq id
        · rw [Function.update_of_ne hSame]
          exact h.type_eq id

theorem Fewer.withPool (h : Fewer s t) (f : IpPool → IpPool) : Fewer s (t.withPool side f) :=
  ⟨h.peers, h.endPoint_eq, h.type_eq⟩

theorem Fewer.disConnect (h : Fewer s t) (isUdpServer : Bool) :
    Fewer s (t.disConnect outside isUdpServer now endPoint) := by
  unfold LiveP2PDownloader.disConnect
  dsimp only
  split
  · exact ((h.withPool _).withPool _).delPeer
  · exact (h.withPool _).delPeer

/-- Peers that were entered are disconnected one after the other. -/
theorem Agrees.disConnect_of_fewer (h : Agrees s) (hNow : Agrees t) (hFewer : Fewer s t)
    (hMem : (endPoint, id) ∈ s.manager.peers) :
    Agrees (t.disConnect outside (t.connections id).isUdpServer now endPoint) := by
  apply hNow.disConnect
  intro id' hMem'
  rw [h.id_eq (hFewer.peers _ hMem') hMem]

theorem Agrees.onCloseSession (h : Agrees s) : Agrees (s.onCloseSession outside endPoint now) := by
  unfold LiveP2PDownloader.onCloseSession
  split
  · apply h.disConnect
    intro id hMem
    rw [← h.getPeer_eq_some] at hMem
    simp [isLiveUdpServer, hMem]
  · exact h

theorem mem_kickInsert {view : ConnectionView} {kickMap : List Nat} {id other : Nat}
    (h : other ∈ kickInsert view kickMap id) : other = id ∨ other ∈ kickMap := by
  unfold kickInsert at h
  rcases List.mem_append.mp h with hBefore | hAfter
  · exact Or.inr ((List.takeWhile_sublist _).subset hBefore)
  · rcases List.mem_cons.mp hAfter with hNew | hAfter
    · exact Or.inl hNew
    · exact Or.inr ((List.dropWhile_sublist _).subset hAfter)

theorem mem_getKickMap {view : ConnectionView} (h : id ∈ s.getKickMap view) :
    ∃ key, (key, id) ∈ s.manager.peers := by
  have hInserted : ∀ (ids kickMap : List Nat), id ∈ ids.foldl (kickInsert view) kickMap →
      id ∈ ids ∨ id ∈ kickMap := by
    intro ids
    induction ids with
    | nil => exact fun _ hMem => Or.inr hMem
    | cons first rest ih =>
        intro kickMap hMem
        rcases ih _ hMem with hRest | hMap
        · exact Or.inl (List.mem_cons_of_mem _ hRest)
        · rcases mem_kickInsert hMap with rfl | hOld
          · exact Or.inl List.mem_cons_self
          · exact Or.inr hOld
  rcases hInserted _ _ h with hMem | hNil
  · obtain ⟨entry, hEntry, rfl⟩ := List.mem_map.mp (List.mem_filter.mp hMem).1
    exact ⟨entry.1, hEntry⟩
  · exact absurd hNil List.not_mem_nil

theorem Agrees.kickPeerConnection (h : Agrees s) (level : ConnectLevel) (view : ConnectionView) :
    Agrees (s.kickPeerConnection outside level view now) := by
  unfold LiveP2PDownloader.kickPeerConnection
  obtain ⟨t, hKicked⟩ : ∃ t, t = (s.manager.peers.filter fun entry =>
      view.longTimeNoResponse entry.2).foldl (fun s entry =>
        s.disConnect outside (s.connections entry.2).isUdpServer now entry.1) s := ⟨_, rfl⟩
  have hFirst : Agrees t ∧ Fewer s t := by
    rw [hKicked]
    apply List.foldlRecOn (motive := fun t => Agrees t ∧ Fewer s t) _ _ ⟨h, .refl s⟩
    rintro t ⟨hNow, hFewer⟩ entry hMem
    exact ⟨h.disConnect_of_fewer hNow hFewer (List.mem_filter.mp hMem).1, hFewer.disConnect _⟩
  rw [← hKicked]
  have hAgrees := hFirst.1
  dsimp only
  apply (List.foldlRecOn (motive := fun u => Agrees u ∧ Fewer t u) _ _ ⟨hAgrees, .refl t⟩ ?_).1
  rintro u ⟨hNow, hFewer⟩ id hMem
  have hMap := (List.take_sublist _ _).subset ((List.takeWhile_sublist _).subset hMem)
  have hKick : id ∈ t.getKickMap view := by
    split at hMap
    · exact absurd hMap List.not_mem_nil
    · exact hMap
  obtain ⟨key, hEntry⟩ := mem_getKickMap hKick
  have hKey : (u.connections id).endPoint = key :=
    (hFewer.endPoint_eq id).trans (hAgrees.endPoint_eq key id hEntry)
  rw [hKey]
  exact ⟨hAgrees.disConnect_of_fewer hNow hFewer hEntry, hFewer.disConnect _⟩

theorem Agrees.deleteAllUdpServer (h : Agrees s) : Agrees (s.deleteAllUdpServer outside now) := by
  unfold LiveP2PDownloader.deleteAllUdpServer
  dsimp only
  apply (List.foldlRecOn (motive := fun t => Agrees t ∧ ∀ key, ¬ (t.pools .udpservers).Marked key)
    _ _ ⟨h.withPool (.disConnectAll (h.tidy _) now), ?_⟩ ?_).1
  · intro key
    rw [withPool_self]
    exact not_marked_disConnectAll (h.tidy _) now key
  · rintro t ⟨hNow, hNone⟩ endPoint _
    have hTold : ∀ key, ¬ ((t.withPool .peers
        (·.onDisConnect outside endPoint now)).pools .udpservers).Marked key := by
      intro key
      rw [withPool_other _ (by decide)]
      exact hNone key
    constructor
    · apply (hNow.withPool (.onDisConnect (hNow.tidy _) now)).delPeer
      · rw [withPool_self]
        exact not_marked_onDisConnect (hNow.tidy _) now
      · exact hTold endPoint
    · rw [delPeer_pools]
      exact hTold

end Peers

section Connecting

theorem Agrees.connect (h : Agrees s) (info : CandidatePeerInfo) :
    Agrees (s.connect outside connectEndPoint side now info) := by
  unfold LiveP2PDownloader.connect
  dsimp only
  split
  · exact h
  · exact (h.setConnectingPeers side _).withPool (.onConnect (h.tidy side))

theorem Agrees.connectLoop (h : Agrees s) (rounds : Nat) :
    Agrees (connectLoop outside connectEndPoint side now rounds s) := by
  induction rounds generalizing s with
  | zero => exact h
  | succ rounds ih =>
      have hLoses : Loses (s.pools side)
          ((s.pools side).getForConnect outside (side == .udpservers) now).1 :=
        .getForConnect (h.tidy side) _ now
      unfold LiveP2PDownloader.connectLoop
      split
      · exact h
      · rename_i pool info hGet
        apply ih
        apply Agrees.connect
        apply h.withPool
        rw [hGet] at hLoses
        exact hLoses

theorem Agrees.initPeerConnection (h : Agrees s) (level : ConnectLevel) :
    Agrees (s.initPeerConnection outside connectEndPoint level now) := by
  unfold LiveP2PDownloader.initPeerConnection
  dsimp only
  split
  · exact h
  split
  · exact (h.connectLoop _).connectLoop _
  · exact h.connectLoop _

theorem Agrees.checkConnectTimeout (h : Agrees s) (entries : List (SocketAddr × ConnectingPeer)) :
    Agrees (checkConnectTimeout outside side now entries s) := by
  induction entries generalizing s with
  | nil => exact h
  | cons entry rest ih =>
      unfold LiveP2PDownloader.checkConnectTimeout
      split
      · exact ih ((h.withPool (.onConnectTimeout (h.tidy side))).setConnectingPeers side _)
      · exact ih h

theorem Agrees.addCandidatePeers (h : Agrees s) {peers : List CandidatePeerInfo}
    {isLiveUdpserver fromCdn fromBs : Bool} {score : CandidatePeerInfo → Nat}
    {level : ConnectLevel}
    (hAdd : s.addCandidatePeers outside connectEndPoint peers isLiveUdpserver fromCdn fromBs score
      level now = some t) : Agrees t := by
  unfold LiveP2PDownloader.addCandidatePeers at hAdd
  split at hAdd
  · exact h.tryPool (fun _ => .addCandidatePeers (h.tidy _)) hAdd
  · dsimp only at hAdd
    split at hAdd
    · obtain ⟨added, hAdded, rfl⟩ := Option.map_eq_some_iff.mp hAdd
      exact (h.tryPool (fun _ => .addCandidatePeers (h.tidy _)) hAdded).initPeerConnection level
    · exact h.tryPool (fun _ => .addCandidatePeers (h.tidy _)) hAdd

/-- A connection that was just made for a reply. -/
def made (s : LiveP2PDownloader) (packet : ConnectPacket) (info : CandidatePeerInfo) :
    LiveP2PDownloader :=
  { s with
    connections := Function.update s.connections s.created (.start packet info)
    created := s.created + 1 }

theorem made_addPeer {packet : ConnectPacket} {info : CandidatePeerInfo}
    (hNew : s.getPeer packet.endPoint = none) :
    (made s packet info).addPeer s.created = { made s packet info with manager := {
      peers := s.manager.peers.insert packet.endPoint s.created
      connectedUdpserverCount :=
        if packet.connectType == .connectLiveUdpserver then
          u32 (s.manager.connectedUdpserverCount + 1)
        else s.manager.connectedUdpserverCount } } := by
  have hSame : (made s packet info).connections s.created = .start packet info :=
    Function.update_self _ _ _
  have hGet : (made s packet info).getPeer (LivePeerConnection.start packet info).endPoint = none :=
    hNew
  unfold LiveP2PDownloader.addPeer
  dsimp only
  rw [hSame]
  rw [hGet]
  rfl

/-- A connection is made for a reply from an endpoint that has none. -/
theorem Agrees.addPeer (h : Agrees s) {packet : ConnectPacket} {info : CandidatePeerInfo}
    (hNew : s.getPeer packet.endPoint = none) (hLess : s.manager.peers.length + 1 < 2 ^ 32) :
    Agrees ((made s packet info).addPeer s.created) := by
  have hAbsent : Absent s.manager.peers packet.endPoint := find?_eq_none.mp hNew
  have hPerm := insert_perm (v := s.created) hAbsent
  have hOld : ∀ key id, (key, id) ∈ s.manager.peers →
      (made s packet info).connections id = s.connections id :=
    fun key id hMem => Function.update_of_ne (Nat.ne_of_lt (h.lt_created key id hMem)) _ _
  have hSame : (made s packet info).connections s.created = .start packet info :=
    Function.update_self _ _ _
  have hCount : (s.manager.peers.countP fun entry =>
      ((made s packet info).connections entry.2).isUdpServer) =
      s.manager.peers.countP fun entry => (s.connections entry.2).isUdpServer := by
    apply List.countP_congr
    intro entry hMem
    rw [hOld entry.1 entry.2 hMem]
  rw [made_addPeer hNew]
  refine ⟨h.tidy, h.distinct.insert _ _, ?_, ?_, ?_, ?_, ?_, ?_, ?_, ?_⟩
  · intro key id hMem
    rcases List.mem_cons.mp (hPerm.mem_iff.mp hMem) with hFresh | hMem
    · cases hFresh
      exact congrArg LivePeerConnection.endPoint hSame
    · exact (congrArg LivePeerConnection.endPoint (hOld key id hMem)).trans
        (h.endPoint_eq key id hMem)
  · intro key id hMem
    rcases List.mem_cons.mp (hPerm.mem_iff.mp hMem) with hFresh | hMem
    · cases hFresh
      exact congrArg LivePeerConnection.isRunning hSame
    · exact (congrArg LivePeerConnection.isRunning (hOld key id hMem)).trans
        (h.isRunning key id hMem)
  · intro key id hMem
    rcases List.mem_cons.mp (hPerm.mem_iff.mp hMem) with hFresh | hMem
    · cases hFresh
      exact Nat.lt_succ_self s.created
    · exact Nat.lt_succ_of_lt (h.lt_created key id hMem)
  · intro id hCreated hRunning
    apply hPerm.mem_iff.mpr
    rcases Nat.lt_succ_iff_lt_or_eq.mp hCreated with hBefore | rfl
    · have hKept : (made s packet info).connections id = s.connections id :=
        Function.update_of_ne (Nat.ne_of_lt hBefore) _ _
      dsimp only at hRunning ⊢
      rw [hKept] at hRunning ⊢
      exact List.mem_cons_of_mem _ (h.entered id hBefore hRunning)
    · dsimp only
      rw [hSame]
      exact List.mem_cons_self
  · intro key hMarked
    obtain ⟨id, hMem⟩ := h.marked_peer key hMarked
    exact ⟨id, hPerm.mem_iff.mpr (List.mem_cons_of_mem _ hMem)⟩
  · intro key hMarked
    obtain ⟨id, hMem, hIs⟩ := h.marked_udpserver key hMarked
    refine ⟨id, hPerm.mem_iff.mpr (List.mem_cons_of_mem _ hMem), ?_⟩
    exact (congrArg LivePeerConnection.isUdpServer (hOld key id hMem)).trans hIs
  · dsimp only
    rw [hPerm.countP_eq, List.countP_cons, hCount, ← h.count_eq]
    have hBound := s.manager.peers.countP_le_length
      (p := fun entry => (s.connections entry.2).isUdpServer)
    have hType : ((made s packet info).connections s.created).isUdpServer =
        (packet.connectType == .connectLiveUdpserver) := by
      rw [hSame]
      rfl
    rw [← h.count_eq] at hBound
    rw [hType]
    split
    · exact u32_of_lt (by omega)
    · rfl
  · show (s.manager.peers.insert packet.endPoint s.created).length < 2 ^ 32
    rw [hPerm.length_eq]
    exact hLess

/-- A candidate is marked when its connection is there; a UDP server, when it is one. -/
theorem Agrees.onConnectSucced (h : Agrees s) (hMem : (endPoint, id) ∈ s.manager.peers)
    (hType : side = .udpservers → (s.connections id).isUdpServer = true) :
    Agrees (s.withPool side (·.onConnectSucced outside endPoint now)) := by
  have hPools : ∀ other key,
      ((s.withPool side (·.onConnectSucced outside endPoint now)).pools other).Marked key →
        (s.pools other).Marked key ∨ (key = endPoint ∧ other = side) := by
    intro other key hMarked
    by_cases hOther : other = side
    · subst hOther
      rw [withPool_self] at hMarked
      exact (marked_onConnectSucced (h.tidy _) hMarked).imp_right fun hKey => ⟨hKey, rfl⟩
    · rw [withPool_other _ hOther] at hMarked
      exact Or.inl hMarked
  refine { h with tidy := ?_, marked_peer := ?_, marked_udpserver := ?_ }
  · intro other
    by_cases hOther : other = side
    · subst hOther
      rw [withPool_self]
      exact (h.tidy _).onConnectSucced now
    · rw [withPool_other _ hOther]
      exact h.tidy other
  · intro key hMarked
    rcases hPools _ key hMarked with hOld | ⟨rfl, -⟩
    · exact h.marked_peer key hOld
    · exact ⟨id, hMem⟩
  · intro key hMarked
    rcases hPools _ key hMarked with hOld | ⟨rfl, hSide⟩
    · exact h.marked_udpserver key hOld
    · exact ⟨id, hMem, hType hSide.symm⟩

theorem Agrees.onReConectPacket (h : Agrees s) {packet : ConnectPacket}
    (hSide : side = .udpservers → packet.connectType = .connectLiveUdpserver) :
    Agrees (s.onReConectPacket outside side packet now) := by
  unfold LiveP2PDownloader.onReConectPacket
  split
  · exact h
  rename_i hFew
  split
  · exact h
  split
  · exact h
  split
  · exact h
  rename_i key connecting hFind hOther hNone
  have hNew : s.getPeer packet.endPoint = none := by
    simpa [hasPeer] using hNone
  have hLess : s.manager.peers.length + 1 < 2 ^ 32 := by
    have hCount : s.getConnectedPeersCount = s.manager.peers.length := u32_of_lt h.length_lt
    have hMax := s.p2pMaxConnectCount_lt
    omega
  dsimp only
  generalize hInfo : ({ connecting.candidatePeerInfo with
    detectUdpPort := packet.endPoint.port } : CandidatePeerInfo) = info
  apply Agrees.setConnectingPeers
  have hAdded : Agrees ((made s packet info).addPeer s.created) := h.addPeer hNew hLess
  have hMem : (packet.endPoint, s.created) ∈
      ((made s packet info).addPeer s.created).manager.peers := by
    rw [made_addPeer hNew]
    exact (insert_perm (find?_eq_none.mp hNew)).mem_iff.mpr List.mem_cons_self
  apply hAdded.onConnectSucced hMem
  intro hUdpserver
  have hSame : ((made s packet info).addPeer s.created).connections s.created =
      .start packet info := by
    rw [made_addPeer hNew]
    exact Function.update_self _ _ _
  rw [hSame]
  exact beq_iff_eq.mpr (hSide hUdpserver)

theorem Agrees.onConnectPacket (h : Agrees s) (packet : ConnectPacket) :
    Agrees (s.onConnectPacket outside packet now) := by
  have hPeer : Agrees (s.onReConectPacket outside .peers packet now) :=
    h.onReConectPacket fun hSide => by cases hSide
  unfold LiveP2PDownloader.onConnectPacket
  dsimp only
  split
  · rename_i hType
    exact hPeer.onReConectPacket fun _ => hType
  · exact hPeer

end Connecting

section Runs

theorem Agrees.next (h : Agrees s) {event : LiveEvent}
    (hNext : s.next outside connectEndPoint event = some t) : Agrees t := by
  cases event with
  | setLocalPeer info =>
      obtain rfl := Option.some.inj hNext
      exact { h with
        tidy := fun side => ⟨(h.tidy side).distinct, (h.tidy side).nodup, (h.tidy side).lt_created⟩
        marked_peer := h.marked_peer
        marked_udpserver := h.marked_udpserver }
  | setMaxConnectCount count count_lt =>
      obtain rfl := Option.some.inj hNext
      exact { h with }
  | checkShouldUseUdpServer shouldConnect shouldUse =>
      obtain rfl := Option.some.inj hNext
      exact { h with }
  | addCandidatePeers peers isLiveUdpserver fromCdn fromBs score level now =>
      exact h.addCandidatePeers hNext
  | onPeerExchangePacket peers isRequest now =>
      have hTry : s.tryPool .peers
          (·.addCandidatePeers outside peers (!isRequest) (fun _ => 0) false now) = some t := hNext
      exact h.tryPool (fun _ => .addCandidatePeers (h.tidy _)) hTry
  | doPeerExchange now =>
      obtain rfl := Option.some.inj hNext
      exact h.withPool (.getForExchange (h.tidy _) now)
  | onConnectPacket packet now =>
      obtain rfl := Option.some.inj hNext
      exact h.onConnectPacket packet
  | onErrorPacket endPoint code =>
      obtain rfl := Option.some.inj hNext
      exact h.onErrorPacket code
  | onCloseSession endPoint now =>
      obtain rfl := Option.some.inj hNext
      exact h.onCloseSession
  | onOtherPacket endPoint =>
      obtain rfl := Option.some.inj hNext
      exact h
  | checkConnectTimeout side now =>
      obtain rfl := Option.some.inj hNext
      exact h.checkConnectTimeout _
  | kickPeerConnection level view now =>
      obtain rfl := Option.some.inj hNext
      exact h.kickPeerConnection level view
  | initPeerConnection level now =>
      obtain rfl := Option.some.inj hNext
      exact h.initPeerConnection level
  | deleteAllUdpServer now =>
      obtain rfl := Option.some.inj hNext
      exact h.deleteAllUdpServer
  | kickTrivialCandidatePeers side =>
      exact h.tryPool (fun _ => .kickTrivialCandidatePeers (h.tidy _)) hNext

theorem start_agrees (desirableLiveIpPoolSize p2pMaxConnectCount useUdpserverCount : Nat)
    (firstly : Bool) (localPeer : CandidatePeerInfo) (count_lt : p2pMaxConnectCount + 1 < 2 ^ 32) :
    Agrees (start desirableLiveIpPoolSize p2pMaxConnectCount useUdpserverCount firstly localPeer
      count_lt) := by
  refine ⟨?_, List.Pairwise.nil, ?_, ?_, ?_, ?_, ?_, ?_, rfl, Nat.two_pow_pos 32⟩
  · intro side
    cases side <;> exact Tidy.start _ _ _
  · exact fun _ _ hMem => absurd hMem List.not_mem_nil
  · exact fun _ _ hMem => absurd hMem List.not_mem_nil
  · exact fun _ _ hMem => absurd hMem List.not_mem_nil
  · exact fun _ hCreated => absurd hCreated (Nat.not_lt_zero _)
  · exact fun _ hMarked => absurd hMarked (not_marked_start _ _ _)
  · exact fun _ hMarked => absurd hMarked (not_marked_start _ _ _)

/-- What is promised of a running download: a candidate of either pool that is marked as
connected has a connection under its endpoint, the UDP servers are counted, and a connection
that was made and is not entered any more was stopped. -/
structure ConnectionsAgree (s : LiveP2PDownloader) : Prop where
  marked : ∀ side key, (s.pools side).Marked key →
    ∃ id, s.getPeer key = some id ∧ (s.connections id).endPoint = key
  count_eq : s.manager.connectedUdpserverCount =
    s.manager.peers.countP fun entry => (s.connections entry.2).isUdpServer
  stopped : ∀ id < s.created, (∀ key, s.getPeer key ≠ some id) →
    (s.connections id).isRunning = false

/-- Whatever happens to a running download, its pools and its connections agree. -/
theorem connectionsAgree {desirableLiveIpPoolSize p2pMaxConnectCount useUdpserverCount : Nat}
    {firstly : Bool} {localPeer : CandidatePeerInfo} {count_lt : p2pMaxConnectCount + 1 < 2 ^ 32}
    (run : Reaches (Step outside connectEndPoint) (fun _ _ => True)
      (start desirableLiveIpPoolSize p2pMaxConnectCount useUdpserverCount firstly localPeer
        count_lt) s) :
    ConnectionsAgree s := by
  have hAgrees : Agrees s := by
    apply run.invariant (start_agrees _ _ _ _ _ _)
    intro before event after hBefore _ hStep
    exact hBefore.next hStep
  refine ⟨?_, hAgrees.count_eq, ?_⟩
  · intro side key hMarked
    have hConnected : ∃ id, (key, id) ∈ s.manager.peers := by
      cases side with
      | peers => exact hAgrees.marked_peer key hMarked
      | udpservers =>
          obtain ⟨id, hMem, -⟩ := hAgrees.marked_udpserver key hMarked
          exact ⟨id, hMem⟩
    obtain ⟨id, hMem⟩ := hConnected
    exact ⟨id, hAgrees.getPeer_eq_some.mpr hMem, hAgrees.endPoint_eq key id hMem⟩
  · intro id hCreated hOut
    cases hRunning : (s.connections id).isRunning with
    | false => rfl
    | true =>
        have hMem := hAgrees.entered id hCreated hRunning
        exact absurd (hAgrees.getPeer_eq_some.mpr hMem) (hOut _)

/-- Addresses are taken as they are, and not hashed. -/
def plainOutside : Outside := ⟨fun _ info => ⟨info.ip, info.udpPort⟩, fun text => text, 0⟩

/-- A peer that is found and answers. -/
theorem connectionsAgree_of_reply :
    ∃ s, s.hasPeer ⟨1, 2⟩ = true ∧ (s.pools .peers).candidatePeers.length = 1 ∧
      ConnectionsAgree s := by
  let info : CandidatePeerInfo := ⟨1, 2, 0, 0, 0, 0, 0, 0, 0⟩
  obtain ⟨s, run, hTest⟩ := Reaches.exists_of_checked
    (LiveP2PDownloader.next plainOutside fun _ info => ⟨info.ip, info.udpPort⟩) (fun _ _ => true)
    (start 100 40 2 false { info with ip := 9 } (by decide))
    [.addCandidatePeers [info] false false false (fun _ => 0) .medium 20000,
      .onConnectPacket ⟨⟨1, 2⟩, .connectLivePeer, false, info⟩ 20100]
    (fun s => s.hasPeer ⟨1, 2⟩ && (s.pools .peers).candidatePeers.length == 1)
    (by decide +kernel)
  have hBoth : s.hasPeer ⟨1, 2⟩ = true ∧ (s.pools .peers).candidatePeers.length = 1 := by
    simpa using hTest
  exact ⟨s, hBoth.1, hBoth.2, connectionsAgree (run.mono fun _ _ _ => trivial)⟩

end Runs

end P2P.LiveConnections.LiveP2PDownloader
