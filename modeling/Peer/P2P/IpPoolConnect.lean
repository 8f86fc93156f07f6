import Peer.P2P.IpPoolIndexes

/-! `GetForConnect` looks at the first entry of the connect index only. When that is enough. -/
namespace P2P

open Basis OrderedMap

section Order

theorem strict_uint32_lt : Strict fun a b : UInt32 => decide (a < b) := by
  refine ⟨fun a b _ hab hba => ?_, fun a b c hab hbc => ?_⟩
  · have hab := of_decide_eq_true hab
    have hba := of_decide_eq_true hba
    rw [UInt32.lt_iff_toNat_lt] at hab hba
    omega
  · exact decide_eq_true (UInt32.lt_trans (of_decide_eq_true hab) (of_decide_eq_true hbc))

theorem strict_uint32_gt : Strict fun a b : UInt32 => decide (b < a) :=
  ⟨fun a b hNe hab hba => strict_uint32_lt.asymm a b hNe hba hab,
    fun a b c hab hbc => strict_uint32_lt.trans c b a hbc hab⟩

/-- The order of the connect index is a chain of eight comparisons. -/
theorem ConnectIndicator.before_trans (x y z : ConnectIndicator) (h : Before.before x y = true)
    (h' : Before.before y z = true) : Before.before x z = true := by
  refine strict_true.chain_trans (fun h h' => ?_) h h'
  refine strict_true.chain_trans (fun h h' => ?_) h h'
  refine strict_uint32_lt.chain_trans (fun h h' => ?_) h h'
  refine strict_true.chain_trans (fun h h' => ?_) h h'
  refine strict_uint32_lt.chain_trans (fun h h' => ?_) h h'
  refine strict_uint32_gt.chain_trans (fun h h' => ?_) h h'
  refine (strict_gt fun n : Nat => n).chain_trans (fun h h' => ?_) h h'
  exact (strict_gt fun n : List Char => n).trans _ _ _ h h'

theorem ConnectIndicator.before_asymm {x y : ConnectIndicator} (h : Before.before x y = true) :
    Before.before y x = false := by
  by_contra hBack
  have hSelf := ConnectIndicator.before_trans x y x h (by simpa using hBack)
  rw [Before.irrefl] at hSelf
  cases hSelf

/-- Who is idle comes before who is not. -/
theorem ConnectIndicator.canConnect_of_before {x y : ConnectIndicator}
    (h : Before.before x y = true) (hIdle : y.canConnect = true) : x.canConnect = true := by
  by_contra hBusy
  have hBusy : x.canConnect = false := by simpa using hBusy
  simp [Before.before, hBusy, hIdle] at h

end Order

namespace IpPool

variable {outside : Outside} {s t : IpPool} {id : Nat} {now : UInt32}
  {f : CandidatePeer → CandidatePeer} {endPoint : SocketAddr}

section Sorted

/-- The connect index is in order. -/
def InOrder (s : IpPool) : Prop := Sorted s.connectIndex

theorem InOrder.updating (h : InOrder s) {body : IpPool → IpPool}
    (hBody : ∀ t, (body t).connectIndex = t.connectIndex) :
    InOrder (s.updating outside id body) := by
  unfold InOrder IpPool.updating IpPool.addIndex IpPool.setPeer
  dsimp only
  rw [hBody]
  exact (h.erase _).insert ConnectIndicator.before_trans _ _

theorem InOrder.change (h : InOrder s) : InOrder (s.change outside id f) :=
  h.updating fun _ => rfl

theorem InOrder.onEndPoint (h : InOrder s) : InOrder (s.onEndPoint outside endPoint f) := by
  unfold IpPool.onEndPoint
  split
  · exact h
  · exact h.change

theorem InOrder.addPeer (h : InOrder s) : InOrder (s.addPeer outside id now) := by
  unfold IpPool.addPeer
  dsimp only
  split
  · exact h
  split
  · exact h.updating fun _ => rfl
  · exact h.updating fun _ => rfl

theorem InOrder.addCandidatePeer (h : InOrder s) (firstly : Bool)
    (score : CandidatePeerInfo → Nat) (fromCdn : Bool) (info : CandidatePeerInfo) :
    InOrder (s.addCandidatePeer outside firstly score fromCdn now info) := by
  have hMade : ∀ fresh, InOrder { s.setPeer s.created fresh with created := s.created + 1 } :=
    fun _ => h
  unfold IpPool.addCandidatePeer
  dsimp only
  split
  · exact hMade _
  · exact (hMade _).addPeer

theorem InOrder.kickLoop {peersToDelete maxAttempts peersDeleted : Nat}
    {entries : OrderedMap ActiveIndicator Nat} (h : InOrder s)
    (hLoop : kickLoop outside peersToDelete maxAttempts entries peersDeleted s = some t) :
    InOrder t := by
  induction entries generalizing s peersDeleted with
  | nil =>
      cases hLoop
      exact h
  | cons entry rest ih =>
      unfold IpPool.kickLoop at hLoop
      split at hLoop
      · cases hLoop
      split at hLoop
      · dsimp only at hLoop
        split at hLoop
        · generalize hListed : (if maxAttempts < (s.peers entry.2).connectionsAttempted then
            { s with blackList := s.getKey outside entry.2 :: s.blackList } else s) = listed at hLoop
          have hSame : InOrder listed := by
            rw [← hListed]
            split
            · exact h
            · exact h
          split at hLoop
          · have hErased : InOrder { listed.deleteIndex outside entry.2 with
                candidatePeers := (listed.deleteIndex outside entry.2).candidatePeers.erase
                  ((listed.deleteIndex outside entry.2).getKey outside entry.2) } := hSame.erase _
            exact ih hErased hLoop
          · exact ih hSame hLoop
        · exact ih h hLoop
      · cases hLoop
        exact h

theorem InOrder.kickTrivialCandidatePeers (h : InOrder s)
    (hKick : s.kickTrivialCandidatePeers outside = some t) : InOrder t := by
  unfold IpPool.kickTrivialCandidatePeers at hKick
  split at hKick
  · cases hKick
    exact h
  · exact h.kickLoop hKick

theorem InOrder.next (h : InOrder s) {a : IpPoolAction} (hNext : s.next outside a = some t) :
    InOrder t := by
  cases a with
  | setLocalPeer info =>
      obtain rfl := Option.some.inj hNext
      exact h
  | addCandidatePeers peers firstly score fromCdn now =>
      refine InOrder.kickTrivialCandidatePeers ?_ hNext
      apply List.foldlRecOn (motive := InOrder) _ _ h
      intro t ht info _
      exact ht.addCandidatePeer firstly score fromCdn info
  | kickTrivialCandidatePeers => exact h.kickTrivialCandidatePeers hNext
  | getForConnect isUdpserver now =>
      obtain rfl := Option.some.inj hNext
      unfold IpPool.getForConnect
      split
      · exact h
      · split
        · exact h.change
        · exact h
  | getForExchange now =>
      obtain rfl := Option.some.inj hNext
      unfold IpPool.getForExchange
      split
      · exact h
      · split
        · exact h.change
        · exact h
  | onConnect endPoint =>
      obtain rfl := Option.some.inj hNext
      exact h.onEndPoint
  | onConnectFailed endPoint =>
      obtain rfl := Option.some.inj hNext
      exact h.onEndPoint
  | onConnectTimeout endPoint =>
      obtain rfl := Option.some.inj hNext
      exact h.onEndPoint
  | onConnectSucced endPoint now =>
      obtain rfl := Option.some.inj hNext
      exact h.onEndPoint
  | onDisConnect endPoint now =>
      obtain rfl := Option.some.inj hNext
      exact h.onEndPoint
  | disConnectAll now =>
      obtain rfl := Option.some.inj hNext
      apply List.foldlRecOn (motive := InOrder) _ _ h
      intro t ht entry _
      exact ht.onEndPoint

end Sorted

section Choice

/-- A candidate that is idle but may not be connected to yet. -/
def waits (peer : CandidatePeer) (now : UInt32) : Bool :=
  !peer.isConnecting && !peer.isConnected && !peer.canConnect now false

theorem canConnect_udpserver (peer : CandidatePeer) (now : UInt32) :
    peer.canConnect now true = (!peer.isConnecting && !peer.isConnected) := by
  unfold CandidatePeer.canConnect
  cases peer.isConnected <;> cases peer.isConnecting <;> simp

theorem idle_of_canConnect {peer : CandidatePeer} {isUdpserver : Bool}
    (h : peer.canConnect now isUdpserver = true) :
    (!peer.isConnecting && !peer.isConnected) = true := by
  unfold CandidatePeer.canConnect at h
  cases hConnected : peer.isConnected <;> cases hConnecting : peer.isConnecting <;>
    simp [hConnected, hConnecting] at h ⊢

theorem connectKey_canConnect (outside : Outside) (s : IpPool) (id : Nat) :
    (connectKey outside s id).canConnect =
      (!(s.peers id).isConnecting && !(s.peers id).isConnected) := rfl

/-- What is promised of `GetForConnect`: it gives a candidate that can be connected to, and
none only when there is none. -/
structure ForConnectRight (outside : Outside) (s : IpPool) (isUdpserver : Bool) (now : UInt32) :
    Prop where
  complete : (s.getForConnect outside isUdpserver now).2 = none →
    ∀ id ∈ table s, (s.peers id).canConnect now isUdpserver = false
  sound : ∀ info, (s.getForConnect outside isUdpserver now).2 = some info →
    ∃ id ∈ table s, (s.peers id).canConnect now isUdpserver = true ∧ (s.peers id).info = info

/-- Whoever waits is behind somebody who does not, if there is anybody. -/
def WaitBehind (outside : Outside) (s : IpPool) (now : UInt32) : Prop :=
  ∀ waiting ∈ table s, waits (s.peers waiting) now = true →
    (∃ id ∈ table s, (s.peers id).canConnect now false = true) →
      ∃ id ∈ table s, (s.peers id).canConnect now false = true ∧
        Before.before (connectKey outside s id) (connectKey outside s waiting) = true

/-- The first entry of the index is that of a candidate before all others. -/
theorem InOrder.head (hOrder : InOrder s) (h : Indexed outside s) {key : ConnectIndicator}
    (hHead : s.connectIndex.head? = some (key, id)) :
    id ∈ table s ∧ ∀ other ∈ table s, other ≠ id →
      Before.before (connectKey outside s id) (connectKey outside s other) = true := by
  obtain ⟨rest, hIndex⟩ := List.head?_eq_some_iff.mp hHead
  obtain ⟨hMem, hKey⟩ := h.connect.mem_iff.mp (List.mem_of_mem_head? hHead)
  refine ⟨hMem, ?_⟩
  intro other hOther hNe
  have hEntry : (connectKey outside s other, other) ∈ s.connectIndex :=
    h.connect.mem_iff.mpr ⟨hOther, rfl⟩
  unfold InOrder Sorted at hOrder
  rw [hIndex] at hOrder hEntry
  rcases List.mem_cons.mp hEntry with hSelf | hRest
  · cases hSelf
    exact absurd rfl hNe
  · rw [← hKey]
    exact (List.pairwise_cons.mp hOrder).1 _ hRest

theorem table_eq_nil (h : Indexed outside s) (hHead : s.connectIndex.head? = none) :
    table s = [] := by
  have hLength := List.Perm.length_eq h.connect
  rw [List.head?_eq_none_iff.mp hHead, List.length_map, List.length_nil] at hLength
  exact List.eq_nil_of_length_eq_zero hLength.symm

/-- When the first candidate is busy, all are. -/
theorem busy_of_head_busy {key : ConnectIndicator} (hOrder : InOrder s) (h : Indexed outside s)
    (hHead : s.connectIndex.head? = some (key, id))
    (hBusy : (!(s.peers id).isConnecting && !(s.peers id).isConnected) = false) {other : Nat}
    (hOther : other ∈ table s) :
    (!(s.peers other).isConnecting && !(s.peers other).isConnected) = false := by
  by_cases hSame : other = id
  · rw [hSame]
    exact hBusy
  · by_contra hIdle
    have hOtherIdle : (connectKey outside s other).canConnect = true := by
      rw [connectKey_canConnect]
      simpa using hIdle
    have hBefore := (hOrder.head h hHead).2 other hOther hSame
    have hFirst := ConnectIndicator.canConnect_of_before hBefore hOtherIdle
    rw [connectKey_canConnect, hBusy] at hFirst
    cases hFirst

/-- Giving somebody is right, as the first candidate was looked at. -/
theorem forConnectRight_of_gives {isUdpserver : Bool} {key : ConnectIndicator}
    (hHead : s.connectIndex.head? = some (key, id)) (hMem : id ∈ table s)
    (hCan : (s.peers id).canConnect now isUdpserver = true) :
    ForConnectRight outside s isUdpserver now := by
  have hGives : (s.getForConnect outside isUdpserver now).2 = some (s.peers id).info := by
    simp [IpPool.getForConnect, hHead, hCan]
  constructor
  · intro hNone
    rw [hGives] at hNone
    cases hNone
  · intro info hSome
    rw [hGives] at hSome
    exact ⟨id, hMem, hCan, Option.some.inj hSome⟩

/-- Giving nobody is right when there is nobody. -/
theorem forConnectRight_iff_nobody {isUdpserver : Bool}
    (hNone : (s.getForConnect outside isUdpserver now).2 = none) :
    ForConnectRight outside s isUdpserver now ↔
      ∀ id ∈ table s, (s.peers id).canConnect now isUdpserver = false := by
  constructor
  · exact fun hRight => hRight.complete hNone
  · intro hNobody
    refine ⟨fun _ => hNobody, ?_⟩
    intro info hSome
    rw [hNone] at hSome
    cases hSome

/-- The first candidate waits, and hides whoever does not. -/
theorem waitBehind_iff_nobody (hOrder : InOrder s) (h : Indexed outside s) {key : ConnectIndicator}
    (hHead : s.connectIndex.head? = some (key, id)) (hWaits : waits (s.peers id) now = true) :
    WaitBehind outside s now ↔ ∀ other ∈ table s, (s.peers other).canConnect now false = false := by
  obtain ⟨hMem, hFirst⟩ := hOrder.head h hHead
  constructor
  · intro hBehind other hOther
    by_contra hOtherCan
    obtain ⟨before, hBeforeMem, hBeforeCan, hBefore⟩ :=
      hBehind id hMem hWaits ⟨other, hOther, by simpa using hOtherCan⟩
    have hNe : before ≠ id := by
      rintro rfl
      simp [waits, hBeforeCan] at hWaits
    have hBack := ConnectIndicator.before_asymm (hFirst before hBeforeMem hNe)
    rw [hBefore] at hBack
    cases hBack
  · rintro hNobody waiting _ _ ⟨other, hOther, hOtherCan⟩
    rw [hNobody other hOther] at hOtherCan
    cases hOtherCan

theorem Indexed.forConnectRight_iff_idle (hOrder : InOrder s) (h : Indexed outside s)
    (isUdpserver : Bool) (now : UInt32) :
    ForConnectRight outside s isUdpserver now ↔ isUdpserver = true ∨ WaitBehind outside s now := by
  cases hHead : s.connectIndex.head? with
  | none =>
      have hNobody := table_eq_nil h hHead
      rw [forConnectRight_iff_nobody (by simp [IpPool.getForConnect, hHead])]
      exact ⟨fun _ => Or.inr fun waiting hMem => by simp [hNobody] at hMem,
        fun _ other hMem => by simp [hNobody] at hMem⟩
  | some entry =>
      obtain ⟨key, id⟩ := entry
      obtain ⟨hMem, hFirst⟩ := hOrder.head h hHead
      cases hCan : (s.peers id).canConnect now isUdpserver with
      | true =>
          refine ⟨fun _ => ?_, fun _ => forConnectRight_of_gives hHead hMem hCan⟩
          cases isUdpserver with
          | true => exact Or.inl rfl
          | false =>
              refine Or.inr fun waiting hWaiting hWaits _ => ⟨id, hMem, hCan, ?_⟩
              apply hFirst waiting hWaiting
              rintro rfl
              simp [waits, hCan] at hWaits
      | false =>
          rw [forConnectRight_iff_nobody (by simp [IpPool.getForConnect, hHead, hCan])]
          cases hIdle : (!(s.peers id).isConnecting && !(s.peers id).isConnected) with
          | false =>
              have hBusy : ∀ other ∈ table s, ∀ udp, (s.peers other).canConnect now udp = false := by
                intro other hOther udp
                by_contra hOtherCan
                have hOtherIdle := idle_of_canConnect (by simpa using hOtherCan)
                rw [busy_of_head_busy hOrder h hHead hIdle hOther] at hOtherIdle
                cases hOtherIdle
              refine ⟨fun _ => Or.inr ?_, fun _ other hOther => hBusy other hOther _⟩
              rintro waiting _ _ ⟨other, hOther, hOtherCan⟩
              rw [hBusy other hOther] at hOtherCan
              cases hOtherCan
          | true =>
              cases isUdpserver with
              | true =>
                  rw [canConnect_udpserver, hIdle] at hCan
                  cases hCan
              | false =>
                  have hWaits : waits (s.peers id) now = true := by
                    simp only [waits, hIdle, hCan, Bool.not_false, Bool.and_self]
                  rw [waitBehind_iff_nobody hOrder h hHead hWaits]
                  simp

/-- In every state the pool reaches, `GetForConnect` is right for UDP servers, and otherwise
when no candidate that waits comes first while another need not. -/
theorem forConnectRight_iff (hCollision : NoCollision outside)
    (hPriorities : IgnoresPriorities outside) {desirablePoolSize : Nat} {firstly : Bool}
    {localPeer : CandidatePeerInfo}
    (run : Reaches (Step outside) (AddressesKept outside)
      (start desirablePoolSize firstly localPeer) s) (isUdpserver : Bool) (now : UInt32) :
    ForConnectRight outside s isUdpserver now ↔ isUdpserver = true ∨ WaitBehind outside s now := by
  have hOrder : InOrder s := by
    apply run.invariant (P := InOrder) List.Pairwise.nil
    intro before a after hBefore _ hStep
    exact hBefore.next hStep
  exact (Indexed.of_reaches hCollision hPriorities run).forConnectRight_iff_idle hOrder isUdpserver now

/-- A pool that knows of one peer. -/
theorem forConnectRight_of_onePeer :
    ForConnectRight natOutside ((start 100 false ⟨9, 9, 0, 0, 0, 0, 0, 0, 0⟩).addCandidatePeer
      natOutside false (fun _ => 0) false 20 ⟨1, 2, 0, 3, 4, 0, 0, 0, 0⟩) false 30 := by
  have hAdded : Reaches (Step natOutside) (AddressesKept natOutside)
      (start 100 false ⟨9, 9, 0, 0, 0, 0, 0, 0, 0⟩)
      ((start 100 false ⟨9, 9, 0, 0, 0, 0, 0, 0, 0⟩).addCandidatePeer natOutside false (fun _ => 0)
        false 20 ⟨1, 2, 0, 3, 4, 0, 0, 0, 0⟩) := by
    apply Reaches.single (.addCandidatePeers [⟨1, 2, 0, 3, 4, 0, 0, 0, 0⟩] false (fun _ => 0) false 20)
    · exact ⟨fun _ hMem => absurd hMem List.not_mem_nil, List.pairwise_singleton _ _⟩
    · rfl
  apply (forConnectRight_iff natOutside_noCollision natOutside_ignoresPriorities hAdded
    false 30).mpr
  have hNobody : ∀ id ∈ table ((start 100 false ⟨9, 9, 0, 0, 0, 0, 0, 0, 0⟩).addCandidatePeer
      natOutside false (fun _ => 0) false 20 ⟨1, 2, 0, 3, 4, 0, 0, 0, 0⟩),
      waits (((start 100 false ⟨9, 9, 0, 0, 0, 0, 0, 0, 0⟩).addCandidatePeer natOutside false
        (fun _ => 0) false 20 ⟨1, 2, 0, 3, 4, 0, 0, 0, 0⟩).peers id) 30 = false := by
    decide +kernel
  refine Or.inr fun waiting hMem hWaits => ?_
  rw [hNobody waiting hMem] at hWaits
  cases hWaits

/-- A peer that failed without having been tried is behind one that was tried just now. -/
theorem forConnectRight_fails : ¬ ∀ (outside : Outside) (s : IpPool) (desirablePoolSize : Nat)
    (firstly : Bool) (localPeer : CandidatePeerInfo), NoCollision outside →
    IgnoresPriorities outside →
    Reaches (Step outside) (fun _ _ => True) (start desirablePoolSize firstly localPeer) s →
    ∀ isUdpserver now, ForConnectRight outside s isUdpserver now := by
  intro h
  obtain ⟨s, run, hTest⟩ := Reaches.exists_of_checked (next natOutside) (fun _ _ => true)
    (start 100 false ⟨9, 9, 0, 0, 0, 0, 0, 0, 0⟩)
    [.addCandidatePeers [⟨1, 2, 0, 3, 4, 0, 0, 0, 0⟩, ⟨5, 6, 0, 7, 8, 0, 0, 0, 0⟩] false
      (fun _ => 0) false 20000,
      .onConnectFailed ⟨7, 8⟩, .getForConnect false 20000]
    (fun s => (s.getForConnect natOutside false 20001).2 == none &&
      (table s).any fun id => (s.peers id).canConnect 20001 false) (by decide +kernel)
  obtain ⟨hNone, hSome⟩ : (s.getForConnect natOutside false 20001).2 = none ∧
      ∃ id ∈ table s, (s.peers id).canConnect 20001 false = true := by simpa using hTest
  have hRight := h natOutside s 100 false _ natOutside_noCollision natOutside_ignoresPriorities
    (run.mono fun _ _ _ => trivial) false 20001
  obtain ⟨id, hMem, hCan⟩ := hSome
  rw [hRight.complete hNone id hMem] at hCan
  cases hCan

end Choice

end IpPool

end P2P
