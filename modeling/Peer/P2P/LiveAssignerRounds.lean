import Peer.P2P.LiveAssigner

/-! A round of the assigner keeps its list sorted as long as no receive time wraps, and gives
every subpiece to the earliest peer that can take it. -/
namespace P2P

open Basis Storage Live

namespace LiveAssigner

variable {s t : LiveAssigner} {useUdpserver : Bool} {subpiece : LivePosition} {again : Prop}
  {before after : List PeerRecvtime} {current : PeerRecvtime}

/-- A peer that may be given a subpiece. -/
def Eligible (useUdpserver : Bool) (s : LiveAssigner) (subpiece : LivePosition) (peer : Nat) :
    Prop :=
  (useUdpserver = true ∨ (s.peers peer).isUdpServer = false) ∧
    (s.peers peer).hasSubPieceInBitmap subpiece = true ∧ subpiece ∉ (s.peers peer).taskSet

/-- A subpiece that is assigned again goes to a UDP server, if one is eligible. -/
def UdpFirst (useUdpserver : Bool) (again : Prop) (s : LiveAssigner) (subpiece : LivePosition) :
    Prop :=
  again ∧ ∃ x ∈ s.peerConnectionRecvtimeList,
    Eligible useUdpserver s subpiece x.peer ∧ (s.peers x.peer).isUdpServer = true

/-- A peer among those of which the earliest is given the subpiece. -/
def Candidate (useUdpserver : Bool) (again : Prop) (s : LiveAssigner) (subpiece : LivePosition)
    (peer : Nat) : Prop :=
  Eligible useUdpserver s subpiece peer ∧
    (UdpFirst useUdpserver again s subpiece → (s.peers peer).isUdpServer = true)

/-- Between two states a peer was given a subpiece. -/
def Gets (s t : LiveAssigner) (subpiece : LivePosition) (peer : Nat) : Prop :=
  subpiece ∉ (s.peers peer).taskSet ∧ subpiece ∈ (t.peers peer).taskSet

/-- One entry of the assign list was treated as it should be: the list is sorted and holds
the same peers, one peer was given the entry if any is eligible, this is the earliest
candidate, and no other task or time changed. -/
structure EntryRight (useUdpserver : Bool) (again : Prop) (s t : LiveAssigner)
    (subpiece : LivePosition) : Prop where
  timely : Timely PeerRecvtime.recvTime t.peerConnectionRecvtimeList
  perm : (t.peerConnectionRecvtimeList.map PeerRecvtime.peer).Perm
    (s.peerConnectionRecvtimeList.map PeerRecvtime.peer)
  given_iff : (∃ peer, Gets s t subpiece peer) ↔
    ∃ x ∈ s.peerConnectionRecvtimeList, Eligible useUdpserver s subpiece x.peer
  once : ∀ peer other, Gets s t subpiece peer → Gets s t subpiece other → peer = other
  earliest : ∀ peer, Gets s t subpiece peer →
    Candidate useUdpserver again s subpiece peer ∧
      ∃ x ∈ s.peerConnectionRecvtimeList, x.peer = peer ∧
        ∀ y ∈ s.peerConnectionRecvtimeList, Candidate useUdpserver again s subpiece y.peer →
          x.recvTime ≤ y.recvTime
  only : ∀ peer other, other ∈ (t.peers peer).taskSet ↔
    other ∈ (s.peers peer).taskSet ∨ (other = subpiece ∧ Gets s t subpiece peer)
  raised : ∀ x ∈ t.peerConnectionRecvtimeList, x ∈ s.peerConnectionRecvtimeList ∨
    (Gets s t subpiece x.peer ∧ ∃ y ∈ s.peerConnectionRecvtimeList, y.peer = x.peer ∧
      x.recvTime = u32 (y.recvTime + (s.peers x.peer).avgDeltaTime))

section Choice

theorem canTake_iff {peer : Nat} : s.canTake subpiece peer = true ↔
    (s.peers peer).hasSubPieceInBitmap subpiece = true ∧ subpiece ∉ (s.peers peer).taskSet := by
  simp [canTake]

theorem eligible_iff {peer : Nat} : Eligible useUdpserver s subpiece peer ↔
    ((useUdpserver || !(s.peers peer).isUdpServer) && s.canTake subpiece peer) = true := by
  rw [Bool.and_eq_true, canTake_iff]
  simp [Eligible]

/-- Whether a subpiece is assigned again, and to UDP servers first. -/
def IsAgain (useUdpserver : Bool) (s : LiveAssigner) (subpiece : LivePosition) : Prop :=
  useUdpserver = true ∧ subpiece ∈ s.subpieceReassignSet

/-- The first loop finds the first UDP server that is eligible. -/
theorem udpServerFor_eq_some
    (h : s.udpServerFor useUdpserver subpiece = some (before, current, after)) :
    s.peerConnectionRecvtimeList = before ++ current :: after ∧
      Candidate useUdpserver (IsAgain useUdpserver s subpiece) s subpiece current.peer ∧
      ∀ x ∈ before, ¬ Candidate useUdpserver (IsAgain useUdpserver s subpiece) s subpiece x.peer := by
  unfold udpServerFor at h
  split at h
  · rename_i hAgain
    obtain ⟨hList, hTest, hBefore⟩ := splitFirst_eq_some h
    rw [Bool.and_eq_true, canTake_iff] at hTest
    have hEligible : Eligible useUdpserver s subpiece current.peer := ⟨Or.inl hAgain.1, hTest.2⟩
    refine ⟨hList, ⟨hEligible, fun _ => hTest.1⟩, ?_⟩
    intro x hx hCandidate
    have hFirst : UdpFirst useUdpserver (IsAgain useUdpserver s subpiece) s subpiece :=
      ⟨hAgain, current, by simp [hList], hEligible, hTest.1⟩
    have hUdp := hCandidate.2 hFirst
    have hTake := canTake_iff.mpr hCandidate.1.2
    have hNot := hBefore x hx
    rw [hUdp, hTake] at hNot
    cases hNot
  · cases h

/-- When it finds nobody, UDP servers do not come first. -/
theorem not_udpFirst (h : s.udpServerFor useUdpserver subpiece = none) :
    ¬ UdpFirst useUdpserver (IsAgain useUdpserver s subpiece) s subpiece := by
  rintro ⟨hAgain, x, hx, hEligible, hUdp⟩
  unfold IsAgain at hAgain
  unfold udpServerFor at h
  rw [if_pos hAgain] at h
  have hNot := splitFirst_eq_none.mp h x hx
  rw [hUdp, canTake_iff.mpr hEligible.2] at hNot
  cases hNot

theorem peerFor_eq_some (h : s.peerFor useUdpserver subpiece = some (before, current, after)) :
    s.peerConnectionRecvtimeList = before ++ current :: after ∧
      Candidate useUdpserver (IsAgain useUdpserver s subpiece) s subpiece current.peer ∧
      ∀ x ∈ before, ¬ Candidate useUdpserver (IsAgain useUdpserver s subpiece) s subpiece x.peer := by
  unfold peerFor at h
  split at h
  · rename_i hFound
    rw [h] at hFound
    exact udpServerFor_eq_some hFound
  · rename_i hNone
    obtain ⟨hList, hTest, hBefore⟩ := splitFirst_eq_some h
    refine ⟨hList, ⟨eligible_iff.mpr hTest, fun hFirst => absurd hFirst (not_udpFirst hNone)⟩, ?_⟩
    intro x hx hCandidate
    have hNot := hBefore x hx
    rw [eligible_iff.mp hCandidate.1] at hNot
    cases hNot

theorem peerFor_eq_none : s.peerFor useUdpserver subpiece = none ↔
    ∀ x ∈ s.peerConnectionRecvtimeList, ¬ Eligible useUdpserver s subpiece x.peer := by
  constructor
  · intro h x hx hEligible
    unfold peerFor at h
    split at h
    · cases h
    · have hNot := splitFirst_eq_none.mp h x hx
      rw [eligible_iff.mp hEligible] at hNot
      cases hNot
  · intro hNobody
    cases hFor : s.peerFor useUdpserver subpiece with
    | none => rfl
    | some found =>
        obtain ⟨before, current, after⟩ := found
        obtain ⟨hList, hCandidate, -⟩ := peerFor_eq_some hFor
        exact absurd hCandidate.1 (hNobody current (by simp [hList]))

end Choice

section Entries

/-- The receive time of the peer that is given an entry does not fall below that of a peer
before it. It can only by wrapping. -/
def TimeFits (useUdpserver : Bool) (s : LiveAssigner) (subpiece : LivePosition) : Prop :=
  ∀ before current after, s.peerFor useUdpserver subpiece = some (before, current, after) →
    ∀ x ∈ before, x.recvTime ≤ u32 (current.recvTime + (s.peers current.peer).avgDeltaTime)

theorem assign_of_none (h : s.peerFor useUdpserver subpiece = none) :
    (s.assign useUdpserver subpiece).peers = s.peers ∧
      (s.assign useUdpserver subpiece).peerConnectionRecvtimeList = s.peerConnectionRecvtimeList := by
  unfold assign
  rw [h]
  exact ⟨rfl, rfl⟩

theorem assign_of_some (h : s.peerFor useUdpserver subpiece = some (before, current, after)) :
    (s.assign useUdpserver subpiece).peers = Function.update s.peers current.peer
      { s.peers current.peer with taskSet := insert subpiece (s.peers current.peer).taskSet } ∧
    (s.assign useUdpserver subpiece).peerConnectionRecvtimeList =
      before ++ putBack PeerRecvtime.recvTime { current with
        recvTime := u32 (current.recvTime + (s.peers current.peer).avgDeltaTime) } after := by
  unfold assign
  rw [h]
  exact ⟨rfl, rfl⟩

theorem not_gets_of_same (h : t.peers = s.peers) (peer : Nat) : ¬ Gets s t subpiece peer := by
  rintro ⟨hOut, hIn⟩
  rw [h] at hIn
  exact hOut hIn

/-- Nobody is eligible, and nothing happens. -/
theorem entryRight_of_none (hTimely : Timely PeerRecvtime.recvTime s.peerConnectionRecvtimeList)
    (h : s.peerFor useUdpserver subpiece = none) :
    EntryRight useUdpserver again s (s.assign useUdpserver subpiece) subpiece := by
  obtain ⟨hPeers, hList⟩ := assign_of_none h
  have hNobody := peerFor_eq_none.mp h
  have hNot : ∀ peer, ¬ Gets s (s.assign useUdpserver subpiece) subpiece peer :=
    not_gets_of_same hPeers
  refine ⟨?_, ?_, ?_, ?_, ?_, ?_, ?_⟩
  · rw [hList]
    exact hTimely
  · rw [hList]
  · constructor
    · rintro ⟨peer, hGets⟩
      exact absurd hGets (hNot peer)
    · rintro ⟨x, hx, hEligible⟩
      exact absurd hEligible (hNobody x hx)
  · exact fun peer other hGets => absurd hGets (hNot peer)
  · exact fun peer hGets => absurd hGets (hNot peer)
  · intro peer other
    rw [hPeers]
    constructor
    · exact fun hOther => Or.inl hOther
    · rintro (hOther | ⟨-, hGets⟩)
      · exact hOther
      · exact absurd hGets (hNot peer)
  · intro x hx
    rw [hList] at hx
    exact Or.inl hx

/-- The peer that is found gets the subpiece, and nobody else does. -/
theorem gets_iff (h : s.peerFor useUdpserver subpiece = some (before, current, after)) (peer : Nat) :
    Gets s (s.assign useUdpserver subpiece) subpiece peer ↔ peer = current.peer := by
  obtain ⟨hPeers, -⟩ := assign_of_some h
  obtain ⟨-, hCandidate, -⟩ := peerFor_eq_some h
  unfold Gets
  rw [hPeers]
  constructor
  · rintro ⟨hOut, hIn⟩
    by_contra hNe
    rw [Function.update_of_ne hNe] at hIn
    exact hOut hIn
  · rintro rfl
    rw [Function.update_self]
    exact ⟨hCandidate.1.2.2, Finset.mem_insert_self _ _⟩

/-- An entry that is given keeps the order if the new time is not below an earlier one. -/
theorem entryRight_of_some (hTimely : Timely PeerRecvtime.recvTime s.peerConnectionRecvtimeList)
    (h : s.peerFor useUdpserver subpiece = some (before, current, after))
    (hFits : ∀ x ∈ before,
      x.recvTime ≤ u32 (current.recvTime + (s.peers current.peer).avgDeltaTime)) :
    EntryRight useUdpserver (IsAgain useUdpserver s subpiece) s (s.assign useUdpserver subpiece)
      subpiece := by
  obtain ⟨hPeers, hAssigned⟩ := assign_of_some h
  obtain ⟨hList, hCandidate, hBefore⟩ := peerFor_eq_some h
  have hGets := gets_iff h
  have hMem : current ∈ s.peerConnectionRecvtimeList := by simp [hList]
  have hPerm := putBack_perm PeerRecvtime.recvTime { current with
    recvTime := u32 (current.recvTime + (s.peers current.peer).avgDeltaTime) } after
  rw [hList] at hTimely
  refine ⟨?_, ?_, ?_, ?_, ?_, ?_, ?_⟩
  · rw [hAssigned]
    exact (timely_putBack_iff hTimely).mpr hFits
  · rw [hAssigned, hList, List.map_append, List.map_append]
    exact (hPerm.map PeerRecvtime.peer).append_left _
  · constructor
    · exact fun _ => ⟨current, hMem, hCandidate.1⟩
    · exact fun _ => ⟨current.peer, (hGets _).mpr rfl⟩
  · intro peer other hPeer hOther
    rw [(hGets peer).mp hPeer, (hGets other).mp hOther]
  · intro peer hPeer
    obtain rfl := (hGets peer).mp hPeer
    refine ⟨hCandidate, current, hMem, rfl, ?_⟩
    intro y hy hOther
    classical
    rw [hList] at hy
    apply hTimely.le_of_split (p := fun x => decide
      (Candidate useUdpserver (IsAgain useUdpserver s subpiece) s subpiece x.peer)) _ hy
    · exact decide_eq_true hOther
    · exact fun x hx => decide_eq_false (hBefore x hx)
  · intro peer other
    rw [hPeers, hGets]
    by_cases hSame : peer = current.peer
    · subst hSame
      rw [Function.update_self]
      simp [or_comm]
    · rw [Function.update_of_ne hSame]
      simp [hSame]
  · intro x hx
    rw [hAssigned] at hx
    rw [hList]
    rcases List.mem_append.mp hx with hx | hx
    · exact Or.inl (List.mem_append_left _ hx)
    · rcases List.mem_cons.mp (hPerm.mem_iff.mp hx) with rfl | hx
      · exact Or.inr ⟨(hGets _).mpr rfl, current, by simp, rfl, rfl⟩
      · exact Or.inl (List.mem_append_right _ (List.mem_cons_of_mem _ hx))

/-- An entry is treated as it should be exactly when the receive time fits. -/
theorem entryRight_iff (hTimely : Timely PeerRecvtime.recvTime s.peerConnectionRecvtimeList) :
    EntryRight useUdpserver (IsAgain useUdpserver s subpiece) s (s.assign useUdpserver subpiece)
      subpiece ↔ TimeFits useUdpserver s subpiece := by
  cases hFor : s.peerFor useUdpserver subpiece with
  | none =>
      refine ⟨fun _ before current after hSome => ?_, fun _ => entryRight_of_none hTimely hFor⟩
      rw [hFor] at hSome
      cases hSome
  | some found =>
      obtain ⟨before, current, after⟩ := found
      constructor
      · intro hRight before' current' after' hSome
        rw [hFor] at hSome
        cases hSome
        have hAfter := hRight.timely
        rw [(assign_of_some hFor).2] at hAfter
        rw [(peerFor_eq_some hFor).1] at hTimely
        exact (timely_putBack_iff hTimely).mp hAfter
      · exact fun hFits => entryRight_of_some hTimely hFor (hFits _ _ _ hFor)

end Entries

section Rounds

variable {deque : List LivePosition} {connections : List Nat}

theorem assignerPeers_concat (s : LiveAssigner) (useUdpserver : Bool)
    (deque : List LivePosition) (subpiece : LivePosition) :
    s.assignerPeers useUdpserver (deque ++ [subpiece]) =
      (s.assignerPeers useUdpserver deque).assign useUdpserver subpiece := by
  simp [assignerPeers]

theorem assign_subpieceReassignSet (s : LiveAssigner) (subpiece : LivePosition) :
    (s.assign useUdpserver subpiece).subpieceReassignSet =
      if useUdpserver then s.subpieceReassignSet.erase subpiece else s.subpieceReassignSet := by
  unfold assign
  dsimp only
  split <;> rfl

/-- A subpiece is assigned again at its first turn only. -/
theorem isAgain_assignerPeers (s : LiveAssigner) (deque : List LivePosition)
    (subpiece : LivePosition) :
    IsAgain useUdpserver (s.assignerPeers useUdpserver deque) subpiece ↔
      IsAgain useUdpserver s subpiece ∧ subpiece ∉ deque := by
  induction deque using List.reverseRecOn with
  | nil => simp [assignerPeers]
  | append_singleton deque last ih =>
      rw [assignerPeers_concat]
      unfold IsAgain at ih ⊢
      rw [assign_subpieceReassignSet]
      cases useUdpserver with
      | false => simp
      | true =>
          simp only [if_true, Finset.mem_erase, true_and, List.mem_append, List.mem_singleton] at ih ⊢
          rw [ih]
          tauto

/-- What is promised of a round: the list is sorted and holds the connections before the first
entry, and every entry of the assign list is treated as it should be. -/
structure RoundRight (useUdpserver : Bool) (connections : List Nat) (s : LiveAssigner)
    (deque : List LivePosition) : Prop where
  timely : Timely PeerRecvtime.recvTime s.peerConnectionRecvtimeList
  perm : (s.peerConnectionRecvtimeList.map PeerRecvtime.peer).Perm connections
  entries : ∀ before subpiece after, deque = before ++ subpiece :: after →
    EntryRight useUdpserver (IsAgain useUdpserver s subpiece ∧ subpiece ∉ before)
      (s.assignerPeers useUdpserver before) (s.assignerPeers useUdpserver (before ++ [subpiece]))
      subpiece

/-- No receive time of the round falls back behind an earlier one. -/
def TimesFit (useUdpserver : Bool) (s : LiveAssigner) (deque : List LivePosition) : Prop :=
  ∀ before subpiece after, deque = before ++ subpiece :: after →
    TimeFits useUdpserver (s.assignerPeers useUdpserver before) subpiece

theorem entryRight_assignerPeers_iff {before : List LivePosition}
    (hTimely : Timely PeerRecvtime.recvTime
      (s.assignerPeers useUdpserver before).peerConnectionRecvtimeList) :
    EntryRight useUdpserver (IsAgain useUdpserver s subpiece ∧ subpiece ∉ before)
      (s.assignerPeers useUdpserver before) (s.assignerPeers useUdpserver (before ++ [subpiece]))
      subpiece ↔ TimeFits useUdpserver (s.assignerPeers useUdpserver before) subpiece := by
  rw [assignerPeers_concat, ← isAgain_assignerPeers]
  exact entryRight_iff hTimely

/-- Whoever keeps the order with every entry has it before every entry. -/
theorem timely_before (h : Timely PeerRecvtime.recvTime s.peerConnectionRecvtimeList)
    {before : List LivePosition}
    (hEntries : ∀ left subpiece right, before = left ++ subpiece :: right →
      Timely PeerRecvtime.recvTime
        (s.assignerPeers useUdpserver left).peerConnectionRecvtimeList →
      Timely PeerRecvtime.recvTime
        (s.assignerPeers useUdpserver (left ++ [subpiece])).peerConnectionRecvtimeList) :
    Timely PeerRecvtime.recvTime
      (s.assignerPeers useUdpserver before).peerConnectionRecvtimeList := by
  induction before using List.reverseRecOn with
  | nil => exact h
  | append_singleton before last ih =>
      apply hEntries before last [] rfl
      apply ih
      intro left subpiece right hSplit
      apply hEntries left subpiece (right ++ [last])
      rw [hSplit]
      simp

theorem caclPeerConnectionRecvTimeMap_timely (s : LiveAssigner) (connections : List Nat) :
    Timely PeerRecvtime.recvTime
      (s.caclPeerConnectionRecvTimeMap connections).peerConnectionRecvtimeList := by
  have hTrans : ∀ a b c : PeerRecvtime, (!decide (b.recvTime < a.recvTime)) = true →
      (!decide (c.recvTime < b.recvTime)) = true → (!decide (c.recvTime < a.recvTime)) = true := by
    simp
    omega
  have hTotal : ∀ a b : PeerRecvtime,
      (!decide (b.recvTime < a.recvTime) || !decide (a.recvTime < b.recvTime)) = true := by
    simp
    omega
  have hSorted := List.pairwise_mergeSort hTrans hTotal
    (connections.map fun peer => ⟨(s.peers peer).avgDeltaTime, peer⟩)
  exact hSorted.imp fun hLe => by simpa using hLe

theorem caclPeerConnectionRecvTimeMap_perm (s : LiveAssigner) (connections : List Nat) :
    ((s.caclPeerConnectionRecvTimeMap connections).peerConnectionRecvtimeList.map
      PeerRecvtime.peer).Perm connections := by
  refine ((List.mergeSort_perm _ _).map PeerRecvtime.peer).trans ?_
  rw [List.map_map]
  exact List.Perm.of_eq (List.map_id _)

/-- A round that is as it should be has no receive time that falls back. -/
theorem RoundRight.timesFit (hRight : RoundRight useUdpserver connections s deque) :
    TimesFit useUdpserver s deque := by
  intro before subpiece after hSplit
  apply (entryRight_assignerPeers_iff _).mp (hRight.entries before subpiece after hSplit)
  apply timely_before hRight.timely
  intro left last right hLeft _
  have hEntry := hRight.entries left last (right ++ subpiece :: after) (by simp [hSplit, hLeft])
  exact hEntry.timely

/-- The list is sorted before every entry if no receive time falls back. -/
theorem TimesFit.timely (hFits : TimesFit useUdpserver s deque)
    (hTimely : Timely PeerRecvtime.recvTime s.peerConnectionRecvtimeList)
    {before after : List LivePosition} (hSplit : deque = before ++ after) :
    Timely PeerRecvtime.recvTime
      (s.assignerPeers useUdpserver before).peerConnectionRecvtimeList := by
  apply timely_before hTimely
  intro left last right hLeft hBefore
  have hEntry := (entryRight_assignerPeers_iff (s := s) hBefore).mpr
    (hFits left last (right ++ after) (by simp [hSplit, hLeft]))
  exact hEntry.timely

/-- The times of a round are bounded by the number of its entries. -/
theorem assignerPeers_bounded {bound : Nat} (hAvg : ∀ peer, (s.peers peer).avgDeltaTime ≤ bound)
    (hList : ∀ x ∈ s.peerConnectionRecvtimeList, x.recvTime ≤ bound)
    (deque : List LivePosition) :
    (∀ peer, ((s.assignerPeers useUdpserver deque).peers peer).avgDeltaTime ≤ bound) ∧
      ∀ x ∈ (s.assignerPeers useUdpserver deque).peerConnectionRecvtimeList,
        x.recvTime ≤ bound * (deque.length + 1) := by
  induction deque using List.reverseRecOn with
  | nil => exact ⟨hAvg, by simpa [assignerPeers] using hList⟩
  | append_singleton deque last ih =>
      obtain ⟨hPeers, hTimes⟩ := ih
      rw [assignerPeers_concat, List.length_append, List.length_singleton]
      have hMore : bound * (deque.length + 1) ≤ bound * (deque.length + 1 + 1) :=
        Nat.mul_le_mul_left _ (Nat.le_succ _)
      generalize s.assignerPeers useUdpserver deque = t at hPeers hTimes
      cases hFor : t.peerFor useUdpserver last with
      | none =>
          obtain ⟨hSame, hOrder⟩ := assign_of_none hFor
          rw [hSame, hOrder]
          exact ⟨hPeers, fun x hx => (hTimes x hx).trans hMore⟩
      | some found =>
          obtain ⟨before, current, after⟩ := found
          obtain ⟨hSame, hOrder⟩ := assign_of_some hFor
          have hSplit := (peerFor_eq_some hFor).1
          rw [hSame, hOrder]
          constructor
          · intro peer
            by_cases hPeer : peer = current.peer
            · rw [hPeer, Function.update_self]
              exact hPeers current.peer
            · rw [Function.update_of_ne hPeer]
              exact hPeers peer
          · intro x hx
            rcases List.mem_append.mp hx with hx | hx
            · exact (hTimes x (by simp [hSplit, hx])).trans hMore
            · rcases List.mem_cons.mp ((putBack_perm _ _ _).mem_iff.mp hx) with rfl | hx
              · have hCurrent := hTimes current (by simp [hSplit])
                have hDelta := hPeers current.peer
                calc u32 (current.recvTime + (t.peers current.peer).avgDeltaTime)
                    ≤ current.recvTime + (t.peers current.peer).avgDeltaTime := u32_le _
                  _ ≤ bound * (deque.length + 1) + bound := Nat.add_le_add hCurrent hDelta
                  _ = bound * (deque.length + 1 + 1) := by ring
              · exact (hTimes x (by simp [hSplit, hx])).trans hMore

/-- The round meets the condition if it is short for its average times. -/
theorem timesFit_of_short {bound : Nat} (hAvg : ∀ peer, (s.peers peer).avgDeltaTime ≤ bound)
    (hShort : bound * (deque.length + 1) < 2 ^ 32) :
    TimesFit useUdpserver (s.caclPeerConnectionRecvTimeMap connections) deque := by
  have hTimely := caclPeerConnectionRecvTimeMap_timely s connections
  have hAvg' : ∀ peer,
      ((s.caclPeerConnectionRecvTimeMap connections).peers peer).avgDeltaTime ≤ bound := by
    intro peer
    unfold caclPeerConnectionRecvTimeMap
    dsimp only
    split
    · exact hAvg peer
    · exact hAvg peer
  have hList : ∀ x ∈ (s.caclPeerConnectionRecvTimeMap connections).peerConnectionRecvtimeList,
      x.recvTime ≤ bound := by
    intro x hx
    obtain ⟨peer, -, rfl⟩ := List.mem_map.mp ((List.mergeSort_perm _ _).mem_iff.mp hx)
    exact hAvg peer
  generalize s.caclPeerConnectionRecvTimeMap connections = start at hTimely hAvg' hList
  induction deque using List.reverseRecOn with
  | nil =>
      intro before subpiece after hSplit
      simp at hSplit
  | append_singleton deque last ih =>
      rw [List.length_append, List.length_singleton] at hShort
      have hFits : TimesFit useUdpserver start deque :=
        ih (lt_of_le_of_lt (Nat.mul_le_mul_left _ (Nat.le_succ _)) hShort)
      intro before subpiece after hSplit
      rcases List.eq_nil_or_concat after with rfl | ⟨after, other, rfl⟩
      · obtain ⟨rfl, hLast⟩ := List.append_inj' hSplit rfl
        cases hLast
        intro left current right hFor x hx
        have hOrder := hFits.timely hTimely (List.append_nil deque).symm
        obtain ⟨hPeers, hTimes⟩ := assignerPeers_bounded hAvg' hList deque
        rw [(peerFor_eq_some hFor).1] at hOrder hTimes
        have hEarlier := (List.pairwise_append.mp hOrder).2.2 x hx current List.mem_cons_self
        have hCurrent := hTimes current (by simp)
        have hDelta := hPeers current.peer
        have hNoWrap : current.recvTime +
            ((start.assignerPeers useUdpserver deque).peers current.peer).avgDeltaTime < 2 ^ 32 :=
          lt_of_le_of_lt (Nat.add_le_add hCurrent hDelta) (Nat.mul_add_one bound _ ▸ hShort)
        rw [u32_of_lt hNoWrap]
        exact hEarlier.trans (Nat.le_add_right _ _)
      · apply hFits before subpiece after
        rw [List.concat_eq_append, ← List.cons_append, ← List.append_assoc] at hSplit
        exact (List.append_inj' hSplit rfl).1

/-- Two peers with the longest average time, of which the second one announces everything. -/
def slowPeers : LiveAssigner where
  peers peer := ⟨1000, false, fun _ => peer == 1, ∅⟩
  subpieceReassignSet := ∅
  peerConnectionRecvtimeList := []

/-- The first subpieces of blocks of 65535 subpieces. -/
def firstSubpieces (n : Nat) : List LivePosition :=
  (List.range n).map fun k => ⟨k / 65535, k % 65535⟩

/-- The second peer was given all subpieces of a round. -/
structure SecondHasAll (n : Nat) (s : LiveAssigner) : Prop where
  list : s.peerConnectionRecvtimeList = [⟨1000, 0⟩, ⟨1000 + 1000 * n, 1⟩]
  first : (s.peers 0).hasSubPieceInBitmap = fun _ => false
  second : (s.peers 1).hasSubPieceInBitmap = fun _ => true
  plain : ∀ peer, (s.peers peer).isUdpServer = false
  avg : ∀ peer, (s.peers peer).avgDeltaTime = 1000
  tasks : (s.peers 1).taskSet = (firstSubpieces n).toFinset

theorem firstSubpieces_succ (n : Nat) :
    firstSubpieces (n + 1) = firstSubpieces n ++ [⟨n / 65535, n % 65535⟩] := by
  simp [firstSubpieces, List.range_succ]

theorem not_mem_firstSubpieces (n : Nat) : ⟨n / 65535, n % 65535⟩ ∉ firstSubpieces n := by
  simp [firstSubpieces]
  omega

theorem SecondHasAll.peerFor {n : Nat} (h : SecondHasAll n s) :
    s.peerFor false ⟨n / 65535, n % 65535⟩ =
      some ([⟨1000, 0⟩], ⟨1000 + 1000 * n, 1⟩, []) := by
  have hOut : ⟨n / 65535, n % 65535⟩ ∉ (s.peers 1).taskSet := by
    rw [h.tasks, List.mem_toFinset]
    exact not_mem_firstSubpieces n
  simp [LiveAssigner.peerFor, udpServerFor, splitFirst, canTake, h.list, h.first, h.second, h.plain,
    hOut]

theorem SecondHasAll.assign {n : Nat} (h : SecondHasAll n s) (hSmall : n < 4294966) :
    SecondHasAll (n + 1) (s.assign false ⟨n / 65535, n % 65535⟩) := by
  obtain ⟨hPeers, hList⟩ := assign_of_some h.peerFor
  dsimp only at hPeers hList
  rw [h.avg, u32_of_lt (by omega)] at hList
  refine ⟨?_, ?_, ?_, ?_, ?_, ?_⟩
  · rw [hList]
    simp [putBack]
    omega
  · rw [hPeers, Function.update_of_ne (by decide)]
    exact h.first
  · rw [hPeers, Function.update_self]
    exact h.second
  · intro peer
    rw [hPeers]
    by_cases hPeer : peer = 1
    · rw [hPeer, Function.update_self]
      exact h.plain 1
    · rw [Function.update_of_ne hPeer]
      exact h.plain peer
  · intro peer
    rw [hPeers]
    by_cases hPeer : peer = 1
    · rw [hPeer, Function.update_self]
      exact h.avg 1
    · rw [Function.update_of_ne hPeer]
      exact h.avg peer
  · rw [hPeers, Function.update_self, firstSubpieces_succ]
    simp [h.tasks, Finset.union_comm]

theorem secondHasAll_of_le {n : Nat} (hSmall : n ≤ 4294966) :
    SecondHasAll n ((slowPeers.caclPeerConnectionRecvTimeMap [0, 1]).assignerPeers false
      (firstSubpieces n)) := by
  induction n with
  | zero =>
      have hSorted : (slowPeers.caclPeerConnectionRecvTimeMap [0, 1]).peerConnectionRecvtimeList =
          [⟨1000, 0⟩, ⟨1000, 1⟩] := by
        simp [caclPeerConnectionRecvTimeMap, slowPeers, List.mergeSort]
      refine ⟨hSorted, ?_, ?_, ?_, ?_, ?_⟩
      · rfl
      · rfl
      · intro peer
        simp [firstSubpieces, assignerPeers, caclPeerConnectionRecvTimeMap, slowPeers]
      · intro peer
        simp [firstSubpieces, assignerPeers, caclPeerConnectionRecvTimeMap, slowPeers]
      · rfl
  | succ n ih =>
      rw [firstSubpieces_succ, assignerPeers_concat]
      exact (ih (Nat.le_of_succ_le hSmall)).assign hSmall

/-- A round is as it should be exactly when no receive time falls back by wrapping. -/
theorem roundRight_iff (useUdpserver : Bool) (s : LiveAssigner) (connections : List Nat)
    (deque : List LivePosition) :
    RoundRight useUdpserver connections (s.caclPeerConnectionRecvTimeMap connections) deque ↔
      TimesFit useUdpserver (s.caclPeerConnectionRecvTimeMap connections) deque := by
  have hTimely := caclPeerConnectionRecvTimeMap_timely s connections
  have hPerm := caclPeerConnectionRecvTimeMap_perm s connections
  constructor
  · exact fun hRight => hRight.timesFit
  · intro hFits
    refine ⟨hTimely, hPerm, fun before subpiece after hSplit => ?_⟩
    exact (entryRight_assignerPeers_iff (hFits.timely hTimely hSplit)).mpr
      (hFits before subpiece after hSplit)

/-- The second peer's time wraps at the 4294967th subpiece, and it stays behind the first one. -/
theorem roundRight_fails : ¬ RoundRight false [0, 1]
    (slowPeers.caclPeerConnectionRecvTimeMap [0, 1]) (firstSubpieces 4294967) := by
  intro hRight
  have hFits := hRight.timesFit _ _ [] (firstSubpieces_succ 4294966)
  have hAll := secondHasAll_of_le (Nat.le_refl 4294966)
  have hLe := hFits _ _ _ hAll.peerFor ⟨1000, 0⟩ List.mem_cons_self
  rw [hAll.avg] at hLe
  simp [u32] at hLe

end Rounds

end LiveAssigner

end P2P
