import Peer.P2P.IpPoolAgreement

/-! Which candidates of a pool are marked as connected. Only a success of connecting marks
a candidate, the one of its endpoint, and every other outcome takes the mark away. -/
namespace P2P.IpPool

open Basis OrderedMap

variable {outside : Outside} {s t u : IpPool} {key endPoint : SocketAddr} {id : Nat}
  {f : CandidatePeer → CandidatePeer}

/-- The candidate of an address is marked. -/
def Marked (s : IpPool) (key : SocketAddr) : Prop :=
  ∃ id, (key, id) ∈ s.candidatePeers ∧ (s.peers id).isConnected = true

/-- No peer stands under two addresses. -/
structure Tidy (s : IpPool) : Prop where
  distinct : Distinct s.candidatePeers
  nodup : (s.candidatePeers.map Prod.snd).Nodup
  lt_created : ∀ entry ∈ s.candidatePeers, entry.2 < s.created

/-- No candidate gets a mark. -/
structure Loses (s t : IpPool) : Prop where
  tidy : Tidy t
  marked : ∀ key, t.Marked key → s.Marked key

theorem Loses.refl (h : Tidy s) : Loses s s := ⟨h, fun _ => id⟩

theorem Loses.trans (h : Loses s t) (h' : Loses t u) : Loses s u :=
  ⟨h'.tidy, fun key hMarked => h.marked key (h'.marked key hMarked)⟩

theorem Tidy.start (desirablePoolSize : Nat) (firstly : Bool) (localPeer : CandidatePeerInfo) :
    Tidy (start desirablePoolSize firstly localPeer) :=
  ⟨List.Pairwise.nil, List.nodup_nil, fun _ h => by cases h⟩

theorem not_marked_start (desirablePoolSize : Nat) (firstly : Bool) (localPeer : CandidatePeerInfo) :
    ¬ (start desirablePoolSize firstly localPeer).Marked key := by
  rintro ⟨id, hMem, -⟩
  cases hMem

section Change

/-- A candidate peer is in the map under one key. -/
theorem Tidy.key_eq (h : Tidy s) {a b : SocketAddr} (ha : (a, id) ∈ s.candidatePeers)
    (hb : (b, id) ∈ s.candidatePeers) : a = b :=
  congrArg Prod.fst (List.inj_on_of_nodup_map h.nodup ha hb rfl)

theorem Tidy.change (h : Tidy s) : Tidy (s.change outside id f) :=
  ⟨h.distinct, h.nodup, h.lt_created⟩

theorem change_isConnected (j : Nat) : ((s.change outside id f).peers j).isConnected =
    if j = id then (f (s.peers id)).isConnected else (s.peers j).isConnected := by
  by_cases hj : j = id
  · subst hj
    simp [change, updating, setPeer, addIndex, deleteIndex]
  · simp [change, updating, setPeer, addIndex, deleteIndex, hj]

/-- A change that leaves the mark of every peer. -/
theorem Loses.change (h : Tidy s) (hKeeps : ∀ peer, (f peer).isConnected = peer.isConnected) :
    Loses s (s.change outside id f) := by
  refine ⟨h.change, ?_⟩
  rintro key ⟨j, hMem, hConnected⟩
  refine ⟨j, hMem, ?_⟩
  rw [change_isConnected] at hConnected
  split at hConnected
  · rename_i hj
    rw [hj, ← hKeeps]
    exact hConnected
  · exact hConnected

theorem Tidy.onEndPoint (h : Tidy s) : Tidy (s.onEndPoint outside endPoint f) := by
  unfold IpPool.onEndPoint
  split
  · exact h
  · exact h.change

/-- At most the candidate of the endpoint gets a mark. -/
theorem marked_onEndPoint (h : Tidy s) (hMarked : (s.onEndPoint outside endPoint f).Marked key) :
    s.Marked key ∨ key = endPoint := by
  unfold IpPool.onEndPoint at hMarked
  cases hFind : s.candidatePeers.find? endPoint with
  | none =>
      rw [hFind] at hMarked
      exact Or.inl hMarked
  | some id =>
      rw [hFind] at hMarked
      obtain ⟨j, hMem, hConnected⟩ := hMarked
      rw [change_isConnected] at hConnected
      split at hConnected
      · rename_i hj
        subst hj
        exact Or.inr (h.key_eq hMem ((find?_eq_some eq_of_equivalent_address h.distinct).mp hFind))
      · exact Or.inl ⟨j, hMem, hConnected⟩

/-- A change that takes the mark away leaves the endpoint without one. -/
theorem marked_onEndPoint_off (h : Tidy s) (hOff : ∀ peer, (f peer).isConnected = false)
    (hMarked : (s.onEndPoint outside endPoint f).Marked key) : s.Marked key ∧ key ≠ endPoint := by
  unfold IpPool.onEndPoint at hMarked
  cases hFind : s.candidatePeers.find? endPoint with
  | none =>
      rw [hFind] at hMarked
      refine ⟨hMarked, ?_⟩
      rintro rfl
      obtain ⟨j, hMem, -⟩ := hMarked
      have hApart := find?_eq_none.mp hFind _ hMem
      rw [equivalent_self] at hApart
      cases hApart
  | some id =>
      rw [hFind] at hMarked
      obtain ⟨j, hMem, hConnected⟩ := hMarked
      rw [change_isConnected] at hConnected
      split at hConnected
      · rw [hOff] at hConnected
        cases hConnected
      · rename_i hj
        refine ⟨⟨j, hMem, hConnected⟩, ?_⟩
        rintro rfl
        rw [(find?_eq_some eq_of_equivalent_address h.distinct).mpr hMem] at hFind
        exact hj (Option.some.inj hFind)

/-- A change that clears the mark of a peer marks no other. -/
theorem Loses.onEndPoint_off (h : Tidy s) (hOff : ∀ peer, (f peer).isConnected = false) :
    Loses s (s.onEndPoint outside endPoint f) :=
  ⟨h.onEndPoint, fun _ hMarked => (marked_onEndPoint_off h hOff hMarked).1⟩

end Change

section Outcomes

/-- Peers that are chosen for a connection are not marked by that. -/
theorem Loses.getForConnect (h : Tidy s) (isUdpserver : Bool) (now : UInt32) :
    Loses s (s.getForConnect outside isUdpserver now).1 := by
  unfold IpPool.getForConnect
  split
  · exact .refl h
  · split
    · dsimp only
      exact .change h fun _ => rfl
    · exact .refl h

theorem Loses.getForExchange (h : Tidy s) (now : UInt32) :
    Loses s (s.getForExchange outside now).1 := by
  unfold IpPool.getForExchange
  split
  · exact .refl h
  · split
    · dsimp only
      exact .change h fun _ => rfl
    · exact .refl h

theorem onConnectTimeout_isConnected (peer : CandidatePeer) :
    peer.onConnectTimeout.isConnected = peer.isConnected := by
  unfold CandidatePeer.onConnectTimeout
  dsimp only
  split
  · split <;> split <;> rfl
  · rfl

theorem Loses.onConnect (h : Tidy s) : Loses s (s.onConnect outside endPoint) :=
  .onEndPoint_off h fun _ => rfl

theorem Loses.onConnectTimeout (h : Tidy s) : Loses s (s.onConnectTimeout outside endPoint) :=
  .onEndPoint_off h fun _ => onConnectTimeout_isConnected _

theorem Loses.onConnectFailed (h : Tidy s) : Loses s (s.onConnectFailed outside endPoint) :=
  .onEndPoint_off h fun _ => rfl

theorem Loses.onDisConnect (h : Tidy s) (now : UInt32) :
    Loses s (s.onDisConnect outside endPoint now) :=
  .onEndPoint_off h fun _ => rfl

theorem not_marked_onConnectFailed (h : Tidy s) :
    ¬ (s.onConnectFailed outside endPoint).Marked endPoint :=
  fun hMarked => (marked_onEndPoint_off h (fun _ => rfl) hMarked).2 rfl

theorem not_marked_onDisConnect (h : Tidy s) (now : UInt32) :
    ¬ (s.onDisConnect outside endPoint now).Marked endPoint :=
  fun hMarked => (marked_onEndPoint_off h (fun _ => rfl) hMarked).2 rfl

theorem Tidy.onConnectSucced (h : Tidy s) (now : UInt32) :
    Tidy (s.onConnectSucced outside endPoint now) :=
  h.onEndPoint

/-- Only a connection that succeeds marks its peer. -/
theorem marked_onConnectSucced (h : Tidy s) {now : UInt32}
    (hMarked : (s.onConnectSucced outside endPoint now).Marked key) :
    s.Marked key ∨ key = endPoint :=
  marked_onEndPoint h hMarked

/-- The loop takes the mark of every address it comes to. -/
theorem foldl_onDisConnect (now : UInt32) (entries : List (SocketAddr × Nat)) (h : Tidy s) :
    Loses s (entries.foldl (fun s entry => s.onDisConnect outside entry.1 now) s) ∧
      ∀ entry ∈ entries,
        ¬ (entries.foldl (fun s entry => s.onDisConnect outside entry.1 now) s).Marked entry.1 := by
  induction entries generalizing s with
  | nil => exact ⟨.refl h, fun _ hMem => by cases hMem⟩
  | cons first rest ih =>
      have hFirst : Loses s (s.onDisConnect outside first.1 now) := .onDisConnect h now
      obtain ⟨hRest, hOff⟩ := ih hFirst.tidy
      rw [List.foldl_cons]
      refine ⟨hFirst.trans hRest, ?_⟩
      intro entry hMem hMarked
      obtain rfl | hLater := List.mem_cons.mp hMem
      · exact not_marked_onDisConnect h now (hRest.marked _ hMarked)
      · exact hOff entry hLater hMarked

/-- Disconnecting all marks nobody. -/
theorem Loses.disConnectAll (h : Tidy s) (now : UInt32) : Loses s (s.disConnectAll outside now) :=
  (foldl_onDisConnect now s.candidatePeers h).1

theorem not_marked_disConnectAll (h : Tidy s) (now : UInt32) (key : SocketAddr) :
    ¬ (s.disConnectAll outside now).Marked key := by
  intro hMarked
  obtain ⟨id, hMem, -⟩ := (Loses.disConnectAll h now).marked key hMarked
  exact (foldl_onDisConnect now s.candidatePeers h).2 (key, id) hMem hMarked

end Outcomes

section Candidates

/-- A new candidate has no mark, and one that is there keeps what it has. -/
theorem Loses.addCandidatePeer (h : Tidy s) (firstly : Bool) (score : CandidatePeerInfo → Nat)
    (fromCdn : Bool) (now : UInt32) (info : CandidatePeerInfo) :
    Loses s (s.addCandidatePeer outside firstly score fromCdn now info) := by
  unfold IpPool.addCandidatePeer
  dsimp only
  generalize hFresh : CandidatePeer.create info (firstly && s.shouldUseExchangePeersFirstly)
    (score info) fromCdn now = fresh
  have hOff : fresh.isConnected = false := by
    rw [← hFresh]
    rfl
  have hOld : ∀ entry ∈ s.candidatePeers, entry.2 ≠ s.created :=
    fun entry hMem => Nat.ne_of_lt (h.lt_created entry hMem)
  generalize hCreated : { s.setPeer s.created fresh with created := s.created + 1 } = made
  have hMade : Loses s made := by
    rw [← hCreated]
    refine ⟨⟨h.distinct, h.nodup, fun entry hMem => Nat.lt_succ_of_lt (h.lt_created entry hMem)⟩, ?_⟩
    rintro key ⟨id, hMem, hConnected⟩
    refine ⟨id, hMem, ?_⟩
    have hSame : Function.update s.peers s.created fresh id = s.peers id :=
      Function.update_of_ne (hOld (key, id) hMem) _ _
    exact hSame ▸ hConnected
  split
  · exact hMade
  · unfold IpPool.addPeer
    dsimp only
    split
    · exact hMade
    · cases hFind : made.candidatePeers.find? (made.getKey outside s.created) with
      | none =>
          have hAbsent := find?_eq_none.mp hFind
          have hCandidates : made.candidatePeers = s.candidatePeers := by
            rw [← hCreated]
            rfl
          have hPerm := insert_perm (v := s.created) hAbsent
          refine hMade.trans ⟨⟨?_, ?_, ?_⟩, ?_⟩
          · exact hMade.tidy.distinct.insert _ _
          · apply ((hPerm.map Prod.snd).nodup_iff).mpr
            rw [List.map_cons, List.nodup_cons]
            refine ⟨?_, hMade.tidy.nodup⟩
            intro hMem
            obtain ⟨entry, hEntry, hId⟩ := List.mem_map.mp hMem
            exact hOld entry (hCandidates ▸ hEntry) hId
          · intro entry hMem
            obtain rfl | hMem := List.mem_cons.mp (hPerm.mem_iff.mp hMem)
            · show s.created < made.created
              rw [← hCreated]
              exact Nat.lt_succ_self _
            · exact hMade.tidy.lt_created entry hMem
          · rintro key ⟨id, hMem, hConnected⟩
            obtain hNew | hMem := List.mem_cons.mp (hPerm.mem_iff.mp hMem)
            · cases hNew
              have hNot : (made.peers s.created).isConnected = false := by
                rw [← hCreated]
                simpa [setPeer] using hOff
              simp [updating, setPeer, addIndex, deleteIndex, hNot] at hConnected
            · refine ⟨id, hMem, ?_⟩
              have hId := hOld (key, id) (hCandidates ▸ hMem)
              simpa [updating, setPeer, addIndex, deleteIndex, hId] using hConnected
      | some selfId =>
          exact hMade.trans (Loses.change
            (f := fun peer => peer.beCopiedTo (made.peers s.created) now) hMade.tidy fun _ => rfl)

/-- Eviction takes candidates away. -/
theorem Loses.erase (h : Tidy s) (key : SocketAddr) :
    Loses s { s with candidatePeers := s.candidatePeers.erase key } := by
  have hSub := erase_sublist s.candidatePeers key
  refine ⟨⟨h.distinct.erase key, (hSub.map Prod.snd).nodup h.nodup,
    fun entry hMem => h.lt_created entry (hSub.subset hMem)⟩, ?_⟩
  rintro other ⟨id, hMem, hConnected⟩
  exact ⟨id, hSub.subset hMem, hConnected⟩

/-- The loop erases peers, and marks none. -/
theorem Loses.kickLoop {peersToDelete maxAttempts : Nat} {entries : OrderedMap ActiveIndicator Nat}
    {peersDeleted : Nat} (h : Tidy s)
    (hLoop : kickLoop outside peersToDelete maxAttempts entries peersDeleted s = some t) :
    Loses s t := by
  induction entries generalizing peersDeleted s with
  | nil =>
      cases hLoop
      exact .refl h
  | cons entry rest ih =>
      unfold IpPool.kickLoop at hLoop
      split at hLoop
      · cases hLoop
      · split at hLoop
        · dsimp only at hLoop
          split at hLoop
          · -- Only the candidates that are left matter, not who is on the black list.
            have hListed : ∀ listed : IpPool, listed.candidatePeers = s.candidatePeers →
                listed.peers = s.peers → listed.created = s.created → Loses s listed := by
              intro listed hCandidates hPeers hCreated
              refine ⟨⟨hCandidates ▸ h.distinct, hCandidates ▸ h.nodup, ?_⟩, ?_⟩
              · rw [hCandidates, hCreated]
                exact h.lt_created
              · intro key hMarked
                unfold Marked at hMarked ⊢
                rwa [hCandidates, hPeers] at hMarked
            split at hLoop
            · generalize hChosen : (if maxAttempts < (s.peers entry.2).connectionsAttempted then
                { s with blackList := s.getKey outside entry.2 :: s.blackList } else s) = chosen
                at hLoop
              have hSame := hListed (chosen.deleteIndex outside entry.2)
                (by rw [← hChosen]; split <;> rfl) (by rw [← hChosen]; split <;> rfl)
                (by rw [← hChosen]; split <;> rfl)
              have hErased := Loses.erase hSame.tidy
                ((chosen.deleteIndex outside entry.2).getKey outside entry.2)
              exact (hSame.trans hErased).trans (ih hErased.tidy hLoop)
            · have hSame := hListed (if maxAttempts < (s.peers entry.2).connectionsAttempted then
                { s with blackList := s.getKey outside entry.2 :: s.blackList } else s)
                (by split <;> rfl) (by split <;> rfl) (by split <;> rfl)
              exact hSame.trans (ih hSame.tidy hLoop)
          · exact ih h hLoop
        · cases hLoop
          exact .refl h

theorem Loses.kickTrivialCandidatePeers (h : Tidy s)
    (hKick : s.kickTrivialCandidatePeers outside = some t) : Loses s t := by
  unfold IpPool.kickTrivialCandidatePeers at hKick
  split at hKick
  · cases hKick
    exact .refl h
  · exact .kickLoop h hKick

theorem Loses.addCandidatePeers (h : Tidy s) {peers : List CandidatePeerInfo} {firstly : Bool}
    {score : CandidatePeerInfo → Nat} {fromCdn : Bool} {now : UInt32}
    (hAdd : s.addCandidatePeers outside peers firstly score fromCdn now = some t) : Loses s t := by
  have hFold : Loses s (peers.foldl
      (fun s => s.addCandidatePeer outside firstly score fromCdn now) s) := by
    clear hAdd
    induction peers generalizing s with
    | nil => exact .refl h
    | cons info rest ih =>
        have hFirst : Loses s (s.addCandidatePeer outside firstly score fromCdn now info) :=
          .addCandidatePeer h firstly score fromCdn now info
        exact hFirst.trans (ih hFirst.tidy)
  exact hFold.trans (.kickTrivialCandidatePeers hFold.tidy hAdd)

end Candidates

end P2P.IpPool
