import Peer.Basis.OrderedIndex
import Peer.P2P.IpPoolAgreement

/-! The three indexes of the pool in a run: each has one entry for every candidate, under
the key computed from its fields now. The keys hold the address of the peer, so a run must
not change the addresses of the candidates behind the back of the pool. -/
namespace P2P.IpPool

open Basis OrderedMap

variable {outside : Outside} {s t : IpPool} {id : Nat} {now : UInt32}
  {f : CandidatePeer → CandidatePeer} {key endPoint : SocketAddr}

/-- The candidates, by number. -/
def table (s : IpPool) : List Nat := s.candidatePeers.map Prod.snd

def exchangeKey (outside : Outside) (s : IpPool) (id : Nat) : ExchangeIndicator :=
  (s.peers id).getExchangeIndicator outside s.localPeer.detectIp

def connectKey (outside : Outside) (s : IpPool) (id : Nat) : ConnectIndicator :=
  (s.peers id).getConnectIndicator outside s.localPeer.detectIp

def activeKey (outside : Outside) (s : IpPool) (id : Nat) : ActiveIndicator :=
  (s.peers id).getActiveIndicator outside s.localPeer.detectIp

/-- What is promised of the indexes. -/
structure IndexesAgree (outside : Outside) (s : IpPool) : Prop where
  nodup : (table s).Nodup
  exchange : IsIndex (exchangeKey outside s) (table s) s.exchangeIndex
  connect : IsIndex (connectKey outside s) (table s) s.connectIndex
  active : IsIndex (activeKey outside s) (table s) s.activeIndex
  allowed : ∀ entry ∈ s.candidatePeers, entry.1 ∉ s.blackList

/-- What holds between two calls: the indexes agree, and every candidate stands under its
address. -/
structure Indexed (outside : Outside) (s : IpPool) : Prop extends IndexesAgree outside s where
  distinct : Distinct s.candidatePeers
  keyed : ∀ key id, (key, id) ∈ s.candidatePeers → s.getKey outside id = key
  lt_created : ∀ id ∈ table s, id < s.created

section Keys

theorem mem_table : id ∈ table s ↔ ∃ key, (key, id) ∈ s.candidatePeers := by
  simp [table]

theorem Indexed.mem_candidatePeers (h : Indexed outside s) (hMem : id ∈ table s) :
    (s.getKey outside id, id) ∈ s.candidatePeers := by
  obtain ⟨key, hEntry⟩ := mem_table.mp hMem
  rw [h.keyed key id hEntry]
  exact hEntry

/-- Candidates have different addresses. -/
theorem Indexed.getKey_ne (h : Indexed outside s) {other : Nat} (hMem : id ∈ table s)
    (hOther : other ∈ table s) (hNe : other ≠ id) : s.getKey outside other ≠ s.getKey outside id := by
  intro hSame
  have hEntry := h.mem_candidatePeers hMem
  have hEntry' := h.mem_candidatePeers hOther
  rw [hSame] at hEntry'
  rw [← find?_eq_some eq_of_equivalent_address h.distinct] at hEntry hEntry'
  exact hNe (Option.some.inj (hEntry'.symm.trans hEntry))

/-- Keys of peers with different addresses are apart in every index. -/
theorem keys_apart (hCollision : NoCollision outside) {t : IpPool} {other : Nat}
    (hNe : s.getKey outside other ≠ t.getKey outside id) :
    equivalent (exchangeKey outside s other) (exchangeKey outside t id) = false ∧
      equivalent (connectKey outside s other) (connectKey outside t id) = false ∧
      equivalent (activeKey outside s other) (activeKey outside t id) = false := by
  refine ⟨compareIndicator_apart hNe, ?_, compareIndicator_apart hNe⟩
  by_contra hSame
  have hKey := ConnectIndicator.key_eq (by simpa using hSame)
  exact hNe (addressText_injective _ (hCollision _ _ hKey))

end Keys

section Change

/-- What an update leaves where it is. -/
theorem change_eq (s : IpPool) (id : Nat) (f : CandidatePeer → CandidatePeer) :
    s.change outside id f = { s with
      peers := (s.change outside id f).peers
      exchangeIndex := (s.exchangeIndex.erase (exchangeKey outside s id)).insert
        (exchangeKey outside (s.change outside id f) id) id
      connectIndex := (s.connectIndex.erase (connectKey outside s id)).insert
        (connectKey outside (s.change outside id f) id) id
      activeIndex := (s.activeIndex.erase (activeKey outside s id)).insert
        (activeKey outside (s.change outside id f) id) id } := rfl

theorem change_peers_of_ne {other : Nat} (hNe : other ≠ id) :
    (s.change outside id f).peers other = s.peers other := by
  simp [change, updating, setPeer, addIndex, deleteIndex, hNe]

theorem change_getKey_self :
    (s.change outside id f).getKey outside id =
      (f (s.peers id)).getKey outside s.localPeer.detectIp := by
  simp [change, updating, setPeer, addIndex, deleteIndex, getKey, CandidatePeer.getKey]

theorem change_getKey_of_ne {other : Nat} (hNe : other ≠ id) :
    (s.change outside id f).getKey outside other = s.getKey outside other := by
  unfold getKey
  rw [change_peers_of_ne hNe]
  rfl

/-- A candidate changes, but not its address. -/
theorem Indexed.change (hCollision : NoCollision outside) (h : Indexed outside s)
    (hMem : id ∈ table s)
    (hKey : (f (s.peers id)).getKey outside s.localPeer.detectIp = s.getKey outside id) :
    Indexed outside (s.change outside id f) := by
  have hSelf : (s.change outside id f).getKey outside id = s.getKey outside id :=
    change_getKey_self.trans hKey
  have hApart : ∀ other ∈ table s, other ≠ id →
      equivalent (exchangeKey outside s other) (exchangeKey outside s id) = false ∧
      equivalent (connectKey outside s other) (connectKey outside s id) = false ∧
      equivalent (activeKey outside s other) (activeKey outside s id) = false :=
    fun other hOther hNe => keys_apart hCollision (h.getKey_ne hMem hOther hNe)
  have hApart' : ∀ other ∈ table s, other ≠ id →
      equivalent (exchangeKey outside (s.change outside id f) other)
        (exchangeKey outside (s.change outside id f) id) = false ∧
      equivalent (connectKey outside (s.change outside id f) other)
        (connectKey outside (s.change outside id f) id) = false ∧
      equivalent (activeKey outside (s.change outside id f) other)
        (activeKey outside (s.change outside id f) id) = false := by
    intro other hOther hNe
    apply keys_apart hCollision
    rw [hSelf, change_getKey_of_ne hNe]
    exact h.getKey_ne hMem hOther hNe
  have hSame : ∀ other, other ≠ id → (s.change outside id f).peers other = s.peers other :=
    fun _ => change_peers_of_ne
  refine ⟨⟨h.nodup, ?_, ?_, ?_, h.allowed⟩, h.distinct, ?_, h.lt_created⟩
  · rw [change_eq]
    apply h.exchange.rekey h.nodup hMem
    · exact fun other hOther hNe => (hApart other hOther hNe).1
    · intro other _ hNe
      exact congrArg (CandidatePeer.getExchangeIndicator · outside _) (hSame other hNe)
    · exact fun other hOther hNe => (hApart' other hOther hNe).1
  · rw [change_eq]
    apply h.connect.rekey h.nodup hMem
    · exact fun other hOther hNe => (hApart other hOther hNe).2.1
    · intro other _ hNe
      exact congrArg (CandidatePeer.getConnectIndicator · outside _) (hSame other hNe)
    · exact fun other hOther hNe => (hApart' other hOther hNe).2.1
  · rw [change_eq]
    apply h.active.rekey h.nodup hMem
    · exact fun other hOther hNe => (hApart other hOther hNe).2.2
    · intro other _ hNe
      exact congrArg (CandidatePeer.getActiveIndicator · outside _) (hSame other hNe)
    · exact fun other hOther hNe => (hApart' other hOther hNe).2.2
  · intro key other hEntry
    by_cases hNe : other = id
    · subst hNe
      rw [hSelf]
      exact h.keyed key other hEntry
    · rw [change_getKey_of_ne hNe]
      exact h.keyed key other hEntry

end Change

section Candidates

theorem Indexed.onEndPoint (hCollision : NoCollision outside) (h : Indexed outside s)
    (hKey : ∀ peer, (f peer).info = peer.info) : Indexed outside (s.onEndPoint outside endPoint f) := by
  unfold IpPool.onEndPoint
  split
  · exact h
  · rename_i id hFind
    have hMem := (find?_eq_some eq_of_equivalent_address h.distinct).mp hFind
    apply h.change hCollision (mem_table.mpr ⟨_, hMem⟩)
    unfold getKey CandidatePeer.getKey
    rw [hKey]

/-- A peer that is not a candidate yet. -/
theorem Indexed.setPeer (h : Indexed outside s) (peer : CandidatePeer) :
    Indexed outside { s.setPeer s.created peer with created := s.created + 1 } := by
  have hSame : ∀ id ∈ table s, (s.setPeer s.created peer).peers id = s.peers id :=
    fun id hMem => Function.update_of_ne (Nat.ne_of_lt (h.lt_created id hMem)) _ _
  refine ⟨⟨h.nodup, ?_, ?_, ?_, h.allowed⟩, h.distinct, ?_, ?_⟩
  · exact h.exchange.congr fun id hMem =>
      congrArg (CandidatePeer.getExchangeIndicator · outside _) (hSame id hMem)
  · exact h.connect.congr fun id hMem =>
      congrArg (CandidatePeer.getConnectIndicator · outside _) (hSame id hMem)
  · exact h.active.congr fun id hMem =>
      congrArg (CandidatePeer.getActiveIndicator · outside _) (hSame id hMem)
  · intro key id hEntry
    have hKey : (s.setPeer s.created peer).getKey outside id = s.getKey outside id :=
      congrArg (CandidatePeer.getKey · outside _) (hSame id (mem_table.mpr ⟨key, hEntry⟩))
    exact hKey.trans (h.keyed key id hEntry)
  · exact fun id hMem => Nat.lt_succ_of_lt (h.lt_created id hMem)

/-- What entering a candidate changes. -/
theorem updating_insert_eq (s : IpPool) (id : Nat) (key : SocketAddr) :
    (s.updating outside id fun s => { s with
      candidatePeers := s.candidatePeers.insert key id }) = { s with
        candidatePeers := s.candidatePeers.insert key id
        exchangeIndex := (s.exchangeIndex.erase (exchangeKey outside s id)).insert
          (exchangeKey outside s id) id
        connectIndex := (s.connectIndex.erase (connectKey outside s id)).insert
          (connectKey outside s id) id
        activeIndex := (s.activeIndex.erase (activeKey outside s id)).insert
          (activeKey outside s id) id } := by
  simp [updating, IpPool.setPeer, addIndex, deleteIndex, exchangeKey, connectKey, activeKey]

/-- A new candidate is entered under an address that no other has. -/
theorem Indexed.insert (hCollision : NoCollision outside) (h : Indexed outside s)
    (hNew : id ∉ table s) (hCreated : id < s.created)
    (hNone : s.candidatePeers.find? (s.getKey outside id) = none)
    (hAllowed : s.getKey outside id ∉ s.blackList) :
    Indexed outside (s.updating outside id fun t => { t with
      candidatePeers := t.candidatePeers.insert (s.getKey outside id) id }) := by
  have hAbsent : Absent s.candidatePeers (s.getKey outside id) := find?_eq_none.mp hNone
  have hPerm := insert_perm (v := id) hAbsent
  have hTable : ((s.candidatePeers.insert (s.getKey outside id) id).map Prod.snd).Perm
      (id :: table s) := hPerm.map Prod.snd
  have hApart : ∀ other ∈ table s,
      equivalent (exchangeKey outside s other) (exchangeKey outside s id) = false ∧
      equivalent (connectKey outside s other) (connectKey outside s id) = false ∧
      equivalent (activeKey outside s other) (activeKey outside s id) = false := by
    intro other hOther
    apply keys_apart hCollision
    intro hSame
    have hFar := hAbsent _ (h.mem_candidatePeers hOther)
    rw [hSame, equivalent_self] at hFar
    cases hFar
  have hEntries : ∀ entry ∈ s.candidatePeers.insert (s.getKey outside id) id,
      entry = (s.getKey outside id, id) ∨ entry ∈ s.candidatePeers :=
    fun entry hEntry => List.mem_cons.mp (hPerm.mem_iff.mp hEntry)
  rw [updating_insert_eq]
  refine ⟨⟨?_, ?_, ?_, ?_, ?_⟩, h.distinct.insert _ _, ?_, ?_⟩
  · exact hTable.nodup_iff.mpr (List.nodup_cons.mpr ⟨hNew, h.nodup⟩)
  · apply IsIndex.perm _ hTable.symm
    exact (h.exchange.erase_absent fun other hOther => (hApart other hOther).1).insert
      fun other hOther => (hApart other hOther).1
  · apply IsIndex.perm _ hTable.symm
    exact (h.connect.erase_absent fun other hOther => (hApart other hOther).2.1).insert
      fun other hOther => (hApart other hOther).2.1
  · apply IsIndex.perm _ hTable.symm
    exact (h.active.erase_absent fun other hOther => (hApart other hOther).2.2).insert
      fun other hOther => (hApart other hOther).2.2
  · intro entry hEntry
    rcases hEntries entry hEntry with rfl | hOld
    · exact hAllowed
    · exact h.allowed entry hOld
  · intro key other hEntry
    rcases hEntries _ hEntry with hSelf | hOld
    · cases hSelf
      rfl
    · exact h.keyed key other hOld
  · intro other hMem
    rcases List.mem_cons.mp (hTable.mem_iff.mp hMem) with rfl | hOld
    · exact hCreated
    · exact h.lt_created other hOld

/-- Whether a candidate that takes over what is told of another peer of its address keeps
this address: its detected address is its own. -/
def KeepsAddress (outside : Outside) (localIp : UInt32) (self other : CandidatePeerInfo) : Prop :=
  outside.keySocketAddr localIp self = outside.keySocketAddr localIp other →
    outside.keySocketAddr localIp { other with detectIp := self.detectIp } =
      outside.keySocketAddr localIp other

theorem beCopiedTo_getKey (hPriorities : IgnoresPriorities outside) {localIp : UInt32}
    (self other : CandidatePeer) (hKeeps : KeepsAddress outside localIp self.info other.info)
    (hSame : self.getKey outside localIp = other.getKey outside localIp) :
    (self.beCopiedTo other now).getKey outside localIp = self.getKey outside localIp := by
  have hCopied : (self.beCopiedTo other now).info =
      { ({ other.info with detectIp := self.info.detectIp } : CandidatePeerInfo) with
        uploadPriority := (self.beCopiedTo other now).info.uploadPriority
        trackerPriority := self.info.trackerPriority } := rfl
  unfold CandidatePeer.getKey at hSame ⊢
  rw [hCopied, hPriorities, hKeeps hSame, hSame]

/-- What a candidate is told leaves the others able to be told more. -/
theorem KeepsAddress.congr {localIp : UInt32} {self self' other : CandidatePeerInfo}
    (h : KeepsAddress outside localIp self other)
    (hKey : outside.keySocketAddr localIp self' = outside.keySocketAddr localIp self)
    (hIp : self'.detectIp = self.detectIp) : KeepsAddress outside localIp self' other := by
  intro hSame
  rw [hIp]
  exact h (hKey.symm.trans hSame)

/-- What a pool does with one of the peers it is given: the indexes agree after it, and
whoever it could be told of before it can be told of still. -/
theorem Indexed.addCandidatePeer (hCollision : NoCollision outside)
    (hPriorities : IgnoresPriorities outside) (h : Indexed outside s) {info : CandidatePeerInfo}
    {rest : List CandidatePeerInfo}
    (hKeeps : ∀ id ∈ table s, ∀ other ∈ info :: rest,
      KeepsAddress outside s.localPeer.detectIp (s.peers id).info other)
    (hFirst : ∀ other ∈ rest, KeepsAddress outside s.localPeer.detectIp info other)
    (now : UInt32) (firstly : Bool) (score : CandidatePeerInfo → Nat) (fromCdn : Bool) :
    Indexed outside (s.addCandidatePeer outside firstly score fromCdn now info) ∧
      (s.addCandidatePeer outside firstly score fromCdn now info).localPeer = s.localPeer ∧
      ∀ id ∈ table (s.addCandidatePeer outside firstly score fromCdn now info), ∀ other ∈ rest,
        KeepsAddress outside s.localPeer.detectIp
          ((s.addCandidatePeer outside firstly score fromCdn now info).peers id).info other := by
  unfold IpPool.addCandidatePeer
  dsimp only
  generalize hFresh : CandidatePeer.create info (firstly && s.shouldUseExchangePeersFirstly)
    (score info) fromCdn now = fresh
  have hInfo : fresh.info = info := by
    rw [← hFresh]
    rfl
  obtain ⟨made, hMadeEq⟩ : ∃ made, made =
      { s.setPeer s.created fresh with created := s.created + 1 } := ⟨_, rfl⟩
  have hMade : Indexed outside made := hMadeEq ▸ h.setPeer fresh
  have hTable : table made = table s := by
    rw [hMadeEq]
    rfl
  have hLocal : made.localPeer = s.localPeer := by
    rw [hMadeEq]
    rfl
  have hCreated : made.created = s.created + 1 := by
    rw [hMadeEq]
  have hNew : s.created ∉ table made := by
    rw [hTable]
    exact fun hMem => absurd (h.lt_created _ hMem) (Nat.lt_irrefl _)
  have hSelf : made.peers s.created = fresh := by
    rw [hMadeEq]
    exact Function.update_self _ _ _
  have hOld : ∀ id ∈ table made, ∀ other ∈ info :: rest,
      KeepsAddress outside made.localPeer.detectIp (made.peers id).info other := by
    intro id hMem other hOther
    have hNe : id ≠ s.created := fun hEq => hNew (hEq ▸ hMem)
    have hSame : made.peers id = s.peers id := by
      rw [hMadeEq]
      exact Function.update_of_ne hNe _ _
    rw [hSame, hLocal]
    exact hKeeps id (hTable ▸ hMem) other hOther
  have hOldRest : ∀ id ∈ table made, ∀ other ∈ rest,
      KeepsAddress outside made.localPeer.detectIp (made.peers id).info other :=
    fun id hMem other hOther => hOld id hMem other (List.mem_cons_of_mem _ hOther)
  rw [← hMadeEq, ← hLocal]
  split
  · exact ⟨hMade, rfl, hOldRest⟩
  unfold IpPool.addPeer
  dsimp only
  split
  · exact ⟨hMade, rfl, hOldRest⟩
  rename_i hAllowed
  cases hFind : made.candidatePeers.find? (made.getKey outside s.created) with
  | none =>
      have hInserted := hMade.insert hCollision hNew (hCreated ▸ Nat.lt_succ_self _) hFind hAllowed
      refine ⟨hInserted, rfl, ?_⟩
      intro id hMem other hOther
      rw [updating_insert_eq] at hMem ⊢
      have hEntries := ((insert_perm (v := s.created) (find?_eq_none.mp hFind)).map
        Prod.snd).mem_iff.mp hMem
      rcases List.mem_cons.mp hEntries with rfl | hMem
      · show KeepsAddress outside made.localPeer.detectIp (made.peers s.created).info other
        rw [hSelf, hInfo, hLocal]
        exact hFirst other hOther
      · exact hOldRest id hMem other hOther
  | some selfId =>
      have hEntry := (find?_eq_some eq_of_equivalent_address hMade.distinct).mp hFind
      have hMem : selfId ∈ table made := mem_table.mpr ⟨_, hEntry⟩
      have hSameKey : made.getKey outside selfId = made.getKey outside s.created :=
        hMade.keyed _ _ hEntry
      have hKeep := hOld selfId hMem info List.mem_cons_self
      have hKey : ((made.peers selfId).beCopiedTo (made.peers s.created) now).getKey outside
          made.localPeer.detectIp = made.getKey outside selfId := by
        apply beCopiedTo_getKey hPriorities _ _ _ hSameKey
        rw [hSelf, hInfo]
        exact hKeep
      have hChanged : Indexed outside (made.change outside selfId
          (·.beCopiedTo (made.peers s.created) now)) := hMade.change hCollision hMem hKey
      refine ⟨hChanged, rfl, ?_⟩
      show ∀ id ∈ table made, ∀ other ∈ rest, KeepsAddress outside made.localPeer.detectIp
        ((made.change outside selfId (·.beCopiedTo (made.peers s.created) now)).peers id).info other
      intro id hMem other hOther
      by_cases hNe : id = selfId
      · subst hNe
        apply (hOldRest id hMem other hOther).congr
        · exact change_getKey_self.trans hKey
        · simp [IpPool.change, updating, IpPool.setPeer, addIndex, deleteIndex,
            CandidatePeer.beCopiedTo]
      · rw [change_peers_of_ne hNe]
        exact hOldRest id hMem other hOther

/-- Peers that are given together keep their addresses when each is told of another. -/
theorem Indexed.foldl_addCandidatePeer (hCollision : NoCollision outside)
    (hPriorities : IgnoresPriorities outside) (h : Indexed outside s)
    (peers : List CandidatePeerInfo) (firstly : Bool) (score : CandidatePeerInfo → Nat)
    (fromCdn : Bool) (now : UInt32)
    (hKeeps : ∀ id ∈ table s, ∀ other ∈ peers,
      KeepsAddress outside s.localPeer.detectIp (s.peers id).info other)
    (hPeers : peers.Pairwise (KeepsAddress outside s.localPeer.detectIp)) :
    Indexed outside (peers.foldl
      (fun s => s.addCandidatePeer outside firstly score fromCdn now) s) := by
  induction peers generalizing s with
  | nil => exact h
  | cons info rest ih =>
      obtain ⟨hFirst, hRest⟩ := List.pairwise_cons.mp hPeers
      obtain ⟨hAdded, hLocal, hNext⟩ := h.addCandidatePeer hCollision hPriorities hKeeps
        hFirst now firstly score fromCdn
      rw [List.foldl_cons]
      rw [← hLocal] at hNext hRest
      exact ih hAdded hNext hRest

end Candidates

section Evictions

/-- A candidate is taken away, and its address may be put on the black list. -/
theorem Indexed.delete (hCollision : NoCollision outside) (h : Indexed outside s)
    (hMem : id ∈ table s) {blackList : List SocketAddr}
    (hList : ∀ key ∈ blackList, key ∈ s.blackList ∨ key = s.getKey outside id) :
    Indexed outside { s.deleteIndex outside id with
      blackList := blackList
      candidatePeers := s.candidatePeers.erase (s.getKey outside id) } := by
  have hEntry := h.mem_candidatePeers hMem
  obtain ⟨rest, hPerm, hAbsent⟩ := h.distinct.exists_perm hEntry
  have hTable : (table s).Perm (id :: rest.map Prod.snd) := hPerm.map Prod.snd
  have hErase := erase_perm hPerm hAbsent
  have hRest : (rest.map Prod.snd).Perm
      ((s.candidatePeers.erase (s.getKey outside id)).map Prod.snd) := (hErase.map Prod.snd).symm
  have hApart : ∀ other ∈ table s, other ≠ id →
      equivalent (exchangeKey outside s other) (exchangeKey outside s id) = false ∧
      equivalent (connectKey outside s other) (connectKey outside s id) = false ∧
      equivalent (activeKey outside s other) (activeKey outside s id) = false :=
    fun other hOther hNe => keys_apart hCollision (h.getKey_ne hMem hOther hNe)
  have hSub := erase_sublist s.candidatePeers (s.getKey outside id)
  refine ⟨⟨(hSub.map Prod.snd).nodup h.nodup, ?_, ?_, ?_, ?_⟩, h.distinct.erase _, ?_, ?_⟩
  · exact (h.exchange.remove h.nodup hTable fun other hOther hNe =>
      (hApart other hOther hNe).1).perm hRest
  · exact (h.connect.remove h.nodup hTable fun other hOther hNe =>
      (hApart other hOther hNe).2.1).perm hRest
  · exact (h.active.remove h.nodup hTable fun other hOther hNe =>
      (hApart other hOther hNe).2.2).perm hRest
  · intro entry hLeft hBlack
    rcases hList _ hBlack with hOld | hGone
    · exact h.allowed entry (hSub.subset hLeft) hOld
    · have hFar := hAbsent entry (hErase.mem_iff.mp hLeft)
      rw [hGone, equivalent_self] at hFar
      cases hFar
  · exact fun key other hLeft => h.keyed key other (hSub.subset hLeft)
  · intro other hLeft
    exact h.lt_created other ((hSub.map Prod.snd).subset hLeft)

/-- The loop that evicts never comes to an entry that is gone. -/
theorem Indexed.kickLoop (hCollision : NoCollision outside) (h : Indexed outside s)
    {entries : OrderedMap ActiveIndicator Nat} (hEntries : ∀ entry ∈ entries, entry ∈ s.activeIndex)
    (hNodup : (entries.map Prod.snd).Nodup) (peersToDelete maxAttempts peersDeleted : Nat) :
    ∃ t, kickLoop outside peersToDelete maxAttempts entries peersDeleted s = some t ∧
      Indexed outside t := by
  induction entries generalizing s peersDeleted with
  | nil => exact ⟨s, rfl, h⟩
  | cons entry rest ih =>
      obtain ⟨hFirst, hRest⟩ := List.forall_mem_cons.mp hEntries
      obtain ⟨hNotRest, hNodup⟩ := List.nodup_cons.mp hNodup
      obtain ⟨hMem, hKey⟩ := h.active.mem_iff.mp (show (entry.1, entry.2) ∈ s.activeIndex from hFirst)
      have hThere : (s.activeIndex.any fun other => equivalent other.1 entry.1) = true :=
        List.any_eq_true.mpr ⟨entry, hFirst, equivalent_self _⟩
      unfold IpPool.kickLoop
      rw [hThere]
      simp only [Bool.not_true, Bool.false_eq_true, if_false]
      split
      · rename_i hMore
        split
        · rw [if_pos (Or.inl hMore)]
          have hGone : ∀ blackList : List SocketAddr,
              (∀ key ∈ blackList, key ∈ s.blackList ∨ key = s.getKey outside entry.2) →
              ∃ t, IpPool.kickLoop outside peersToDelete maxAttempts rest (peersDeleted + 1)
                { s.deleteIndex outside entry.2 with
                  blackList := blackList
                  candidatePeers := s.candidatePeers.erase (s.getKey outside entry.2) } = some t ∧
                Indexed outside t := by
            intro blackList hList
            apply ih (h.delete hCollision hMem hList) _ hNodup
            intro other hOther
            apply List.mem_filter.mpr
            refine ⟨hRest other hOther, ?_⟩
            have hNe : other.2 ≠ entry.2 := by
              intro hSame
              exact hNotRest (hSame ▸ List.mem_map_of_mem hOther)
            obtain ⟨hOtherMem, hOtherKey⟩ := h.active.mem_iff.mp
              (show (other.1, other.2) ∈ s.activeIndex from hRest other hOther)
            have hFar := (keys_apart hCollision (h.getKey_ne hMem hOtherMem hNe)).2.2
            rw [hOtherKey]
            unfold activeKey at hFar ⊢
            rw [hFar]
            rfl
          split
          · apply hGone (s.getKey outside entry.2 :: s.blackList)
            intro key hBlack
            exact (List.mem_cons.mp hBlack).symm
          · exact hGone s.blackList fun key hBlack => Or.inl hBlack
        · exact ih h hRest hNodup peersDeleted
      · exact ⟨s, rfl, h⟩

theorem Indexed.kickTrivialCandidatePeers (hCollision : NoCollision outside)
    (h : Indexed outside s) :
    ∃ t, s.kickTrivialCandidatePeers outside = some t ∧ Indexed outside t := by
  unfold IpPool.kickTrivialCandidatePeers
  split
  · exact ⟨s, rfl, h⟩
  · apply h.kickLoop hCollision (fun _ hMem => hMem)
    have hIds : (s.activeIndex.map Prod.snd).Perm (table s) := by
      have hPerm := List.Perm.map Prod.snd h.active
      rw [List.map_map] at hPerm
      exact hPerm.trans (List.Perm.of_eq (List.map_id _))
    exact hIds.nodup_iff.mpr h.nodup

end Evictions

section Runs

theorem Indexed.getForConnect (hCollision : NoCollision outside) (h : Indexed outside s)
    (isUdpserver : Bool) (now : UInt32) :
    Indexed outside (s.getForConnect outside isUdpserver now).1 := by
  unfold IpPool.getForConnect
  split
  · exact h
  · rename_i key id hHead
    split
    · have hMem := (h.connect.mem_iff.mp (List.mem_of_mem_head? hHead)).1
      dsimp only
      apply h.change hCollision hMem
      rfl
    · exact h

theorem Indexed.getForExchange (hCollision : NoCollision outside) (h : Indexed outside s)
    (now : UInt32) : Indexed outside (s.getForExchange outside now).1 := by
  unfold IpPool.getForExchange
  split
  · exact h
  · rename_i key id hHead
    split
    · have hMem := (h.exchange.mem_iff.mp (List.mem_of_mem_head? hHead)).1
      dsimp only
      apply h.change hCollision hMem
      rfl
    · exact h

theorem Indexed.disConnectAll (hCollision : NoCollision outside) (h : Indexed outside s)
    (now : UInt32) : Indexed outside (s.disConnectAll outside now) := by
  unfold IpPool.disConnectAll
  apply List.foldlRecOn (motive := Indexed outside) _ _ h
  intro t ht entry _
  exact ht.onEndPoint hCollision fun _ => rfl

theorem onConnectTimeout_info (peer : CandidatePeer) : peer.onConnectTimeout.info = peer.info := by
  unfold CandidatePeer.onConnectTimeout
  dsimp only
  split
  · split <;> split <;> rfl
  · rfl

/-- The addresses of the candidates stay: a change of the local peer does not alter them, and
no candidate is told of a peer of its address that has, with the detected address of the
candidate, another. -/
def AddressesKept (outside : Outside) (s : IpPool) : IpPoolAction → Prop
  | .setLocalPeer info => ∀ id ∈ table s,
      (s.peers id).getKey outside info.detectIp = s.getKey outside id
  | .addCandidatePeers peers .. =>
      (∀ id ∈ table s, ∀ other ∈ peers,
        KeepsAddress outside s.localPeer.detectIp (s.peers id).info other) ∧
      peers.Pairwise (KeepsAddress outside s.localPeer.detectIp)
  | _ => True

theorem Indexed.setLocalPeer (h : Indexed outside s) (info : CandidatePeerInfo)
    (hKept : ∀ id ∈ table s, (s.peers id).getKey outside info.detectIp = s.getKey outside id) :
    Indexed outside { s with localPeer := info } := by
  refine ⟨⟨h.nodup, ?_, ?_, ?_, h.allowed⟩, h.distinct, ?_, h.lt_created⟩
  · apply h.exchange.congr
    intro id hMem
    unfold exchangeKey CandidatePeer.getExchangeIndicator
    rw [hKept id hMem]
    rfl
  · apply h.connect.congr
    intro id hMem
    unfold connectKey CandidatePeer.getConnectIndicator
    rw [hKept id hMem]
    rfl
  · apply h.active.congr
    intro id hMem
    unfold activeKey CandidatePeer.getActiveIndicator
    rw [hKept id hMem]
    rfl
  · intro key id hEntry
    exact (hKept id (mem_table.mpr ⟨key, hEntry⟩)).trans (h.keyed key id hEntry)

theorem Indexed.next (hCollision : NoCollision outside) (hPriorities : IgnoresPriorities outside)
    (h : Indexed outside s) (a : IpPoolAction) (hKept : AddressesKept outside s a) :
    ∃ t, s.next outside a = some t ∧ Indexed outside t := by
  cases a with
  | setLocalPeer info => exact ⟨_, rfl, h.setLocalPeer info hKept⟩
  | addCandidatePeers peers firstly score fromCdn now =>
      exact (h.foldl_addCandidatePeer hCollision hPriorities peers firstly score fromCdn now
        hKept.1 hKept.2).kickTrivialCandidatePeers hCollision
  | kickTrivialCandidatePeers => exact h.kickTrivialCandidatePeers hCollision
  | getForConnect isUdpserver now => exact ⟨_, rfl, h.getForConnect hCollision isUdpserver now⟩
  | getForExchange now => exact ⟨_, rfl, h.getForExchange hCollision now⟩
  | onConnect endPoint => exact ⟨_, rfl, h.onEndPoint hCollision fun _ => rfl⟩
  | onConnectFailed endPoint => exact ⟨_, rfl, h.onEndPoint hCollision fun _ => rfl⟩
  | onConnectTimeout endPoint =>
      exact ⟨_, rfl, h.onEndPoint hCollision fun _ => onConnectTimeout_info _⟩
  | onConnectSucced endPoint now => exact ⟨_, rfl, h.onEndPoint hCollision fun _ => rfl⟩
  | onDisConnect endPoint now => exact ⟨_, rfl, h.onEndPoint hCollision fun _ => rfl⟩
  | disConnectAll now => exact ⟨_, rfl, h.disConnectAll hCollision now⟩

theorem start_indexed (desirablePoolSize : Nat) (firstly : Bool) (localPeer : CandidatePeerInfo) :
    Indexed outside (start desirablePoolSize firstly localPeer) :=
  ⟨⟨List.nodup_nil, List.Perm.nil, List.Perm.nil, List.Perm.nil,
    fun _ hEntry => absurd hEntry List.not_mem_nil⟩, List.Pairwise.nil,
    fun _ _ hEntry => absurd hEntry List.not_mem_nil, fun _ hMem => absurd hMem List.not_mem_nil⟩

theorem Indexed.of_reaches (hCollision : NoCollision outside)
    (hPriorities : IgnoresPriorities outside) {desirablePoolSize : Nat} {firstly : Bool}
    {localPeer : CandidatePeerInfo}
    (run : Reaches (Step outside) (AddressesKept outside)
      (start desirablePoolSize firstly localPeer) s) : Indexed outside s := by
  apply run.invariant (start_indexed desirablePoolSize firstly localPeer)
  intro before a after hBefore hKept hStep
  obtain ⟨t, hNext, hAfter⟩ := hBefore.next hCollision hPriorities a hKept
  obtain rfl := Option.some.inj (hStep.symm.trans hNext)
  exact hAfter

/-- In every run that keeps the addresses of the candidates, the indexes agree with them, and
no iterator is used whose entry is gone. -/
theorem indexesAgree (hCollision : NoCollision outside) (hPriorities : IgnoresPriorities outside)
    {desirablePoolSize : Nat} {firstly : Bool} {localPeer : CandidatePeerInfo}
    (run : Reaches (Step outside) (AddressesKept outside)
      (start desirablePoolSize firstly localPeer) s) :
    IndexesAgree outside s ∧
      ∀ a, AddressesKept outside s a → ∃ t, s.next outside a = some t := by
  have hIndexed := Indexed.of_reaches hCollision hPriorities run
  refine ⟨hIndexed.toIndexesAgree, ?_⟩
  intro a hKept
  obtain ⟨t, hNext, -⟩ := hIndexed.next hCollision hPriorities a hKept
  exact ⟨t, hNext⟩

/-- A peer behind the same address as the local one is reached at its own. -/
def natOutside : Outside where
  keySocketAddr localIp info :=
    if localIp = info.detectIp then ⟨info.ip, info.udpPort⟩
    else ⟨info.detectIp, info.detectUdpPort⟩
  md5 text := text
  seed := 0

theorem natOutside_noCollision : NoCollision natOutside := fun _ _ hSame => hSame

theorem natOutside_ignoresPriorities : IgnoresPriorities natOutside := fun _ _ _ _ => rfl

/-- A peer that is found and given out to connect to. -/
theorem indexesAgree_of_onePeer :
    IndexesAgree natOutside ((((start 100 false ⟨9, 9, 0, 0, 0, 0, 0, 0, 0⟩).addCandidatePeer
      natOutside false (fun _ => 0) false 20 ⟨1, 2, 0, 3, 4, 0, 0, 0, 0⟩).getForConnect natOutside
        false 30).1) := by
  have hAdded : Reaches (Step natOutside) (AddressesKept natOutside)
      (start 100 false ⟨9, 9, 0, 0, 0, 0, 0, 0, 0⟩)
      ((start 100 false ⟨9, 9, 0, 0, 0, 0, 0, 0, 0⟩).addCandidatePeer natOutside false (fun _ => 0)
        false 20 ⟨1, 2, 0, 3, 4, 0, 0, 0, 0⟩) := by
    apply Reaches.single (.addCandidatePeers [⟨1, 2, 0, 3, 4, 0, 0, 0, 0⟩] false (fun _ => 0) false 20)
    · exact ⟨fun _ hMem => absurd hMem List.not_mem_nil, List.pairwise_singleton _ _⟩
    · rfl
  exact (indexesAgree natOutside_noCollision natOutside_ignoresPriorities
    (hAdded.tail (a := .getForConnect false 30) trivial rfl)).1

/-- The own address is detected and moves the key of a peer; its old entry stays. -/
theorem indexesAgree_fails : ¬ ∀ (outside : Outside) (s : IpPool) (desirablePoolSize : Nat)
    (firstly : Bool) (localPeer : CandidatePeerInfo), NoCollision outside →
    IgnoresPriorities outside →
    Reaches (Step outside) (fun _ _ => True) (start desirablePoolSize firstly localPeer) s →
    IndexesAgree outside s := by
  intro h
  obtain ⟨s, run, hTest⟩ := Reaches.exists_of_checked (next natOutside) (fun _ _ => true)
    (start 100 false ⟨9, 9, 0, 0, 0, 0, 0, 0, 0⟩)
    [.addCandidatePeers [⟨1, 2, 0, 3, 4, 0, 0, 0, 0⟩] false (fun _ => 0) false 20,
      .setLocalPeer ⟨9, 9, 0, 3, 0, 0, 0, 0, 0⟩, .getForExchange 30]
    (fun s => s.exchangeIndex.length == 2 && s.candidatePeers.length == 1) (by decide +kernel)
  have hTwo : s.exchangeIndex.length = 2 ∧ s.candidatePeers.length = 1 := by simpa using hTest
  have hAgree := h natOutside s 100 false _ natOutside_noCollision natOutside_ignoresPriorities
    (run.mono fun _ _ _ => trivial)
  have hLength := List.Perm.length_eq hAgree.exchange
  simp [table, hTwo] at hLength

end Runs

end P2P.IpPool
