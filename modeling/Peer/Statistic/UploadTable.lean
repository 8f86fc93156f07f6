import Peer.Statistic.UploadModule

/-! When the timer stays in the table, and when the table it publishes is that of the peers
that are uploaded to. -/
namespace Statistic

open Basis OrderedMap Storage P2P

/-- A call to the module. The module has the time of the call, and `SubmitUploadInfo` the set
of the peers that are uploaded to at that moment. -/
inductive Call (PeerInfo : Type) where
  | submitUploadSpeedInfo (address : Address) (size now : Nat)
  | submitUploadInfo (uploadSpeedLimit : Nat) (uploadingPeers : SortedSet Address) (now : Nat)
  | submitUploadPeerInfo (address : Address) (peerInfo : PeerInfo)
  | onShareMemoryTimer (now : Nat)

namespace UploadStatisticModule

variable {PeerInfo : Type} {s t : UploadStatisticModule PeerInfo} {now : Nat}
  {uploadingPeers : SortedSet Address}

def step (s : UploadStatisticModule PeerInfo) : Call PeerInfo → Option (UploadStatisticModule PeerInfo)
  | .submitUploadSpeedInfo address size now => some (s.submitUploadSpeedInfo address size now)
  | .submitUploadInfo limit peers now => some (s.submitUploadInfo limit peers now)
  | .submitUploadPeerInfo address peerInfo => some (s.submitUploadPeerInfo address peerInfo)
  | .onShareMemoryTimer now => s.onShareMemoryTimer now

@[simp] theorem step_onShareMemoryTimer (s : UploadStatisticModule PeerInfo) (now : Nat) :
    s.step (.onShareMemoryTimer now) = s.onShareMemoryTimer now := rfl

/-- What a sequence of calls leaves; none if a timer wrote outside the table. -/
def run (s : UploadStatisticModule PeerInfo) (calls : List (Call PeerInfo)) :
    Option (UploadStatisticModule PeerInfo) := calls.foldlM step s

theorem run_concat (s : UploadStatisticModule PeerInfo) (calls : List (Call PeerInfo))
    (call : Call PeerInfo) : s.run (calls ++ [call]) = (s.run calls).bind fun t => t.step call := by
  unfold run
  rw [List.foldlM_append]
  simp

/-- The addresses that are recorded. -/
def recorded (s : UploadStatisticModule PeerInfo) : List Address := keys s.uploadMap

/-- The first entries, as many as are counted. -/
def published (s : UploadStatisticModule PeerInfo) : List Address :=
  (s.peerUploadInfo.take (min s.peerUploadCount tableSize)).map PeerUploadEntry.ip

/-- The published table is that of the recorded ones of these peers, each once. -/
structure Describes (uploadingPeers : SortedSet Address) (s t : UploadStatisticModule PeerInfo) :
    Prop where
  once : t.published.Nodup
  mem_iff : ∀ address,
    address ∈ t.published ↔ address ∈ uploadingPeers ∧ address ∈ s.recorded
  count_le : t.peerUploadCount ≤ t.uploadMap.length

/-! ## One timer -/

theorem keys_askedMap (s : UploadStatisticModule PeerInfo) (now : Nat) :
    keys (s.askedMap now) = s.recorded := by
  unfold keys askedMap recorded keys
  rw [List.map_map]
  rfl

/-- The timer fills the table from the front, if there is room for the whole map. -/
theorem onShareMemoryTimer_eq_some (hRunning : s.isRunning = true) :
    s.onShareMemoryTimer now = some t →
      s.uploadMap.length ≤ tableSize ∧ t.peerUploadInfo =
        (s.askedMap now).map (entryOf s.uploadPeerInfo) ++
          s.peerUploadInfo.drop s.uploadMap.length ∧
      t.peerUploadCount = s.peerUploadCount ∧ t.uploadMap = s.askedMap now := by
  intro h
  have hTable := writeEntries_eq s.uploadPeerInfo (s.askedMap now) [] s.peerUploadInfo
  rw [List.nil_append, List.length_nil, s.length_eq,
    show (s.askedMap now).length = s.uploadMap.length from List.length_map _] at hTable
  unfold onShareMemoryTimer at h
  rw [hRunning, Bool.not_true, if_neg Bool.false_ne_true] at h
  split at h
  · cases h
  · rename_i table hSome
    rw [hSome] at hTable
    obtain rfl := Option.some.inj h
    split at hTable
    · rename_i hFits
      exact ⟨hFits, Option.some.inj hTable, rfl, rfl⟩
    · cases hTable

theorem exists_onShareMemoryTimer (hFits : s.uploadMap.length ≤ tableSize) :
    ∃ t, s.onShareMemoryTimer now = some t := by
  have hTable := writeEntries_eq s.uploadPeerInfo (s.askedMap now) [] s.peerUploadInfo
  rw [List.nil_append, List.length_nil, s.length_eq,
    show (s.askedMap now).length = s.uploadMap.length from List.length_map _, if_pos hFits] at hTable
  unfold onShareMemoryTimer
  split
  · exact ⟨s, rfl⟩
  · split
    · rename_i hNone
      rw [hNone] at hTable
      cases hTable
    · exact ⟨_, rfl⟩

/-! ## The set of peers and the table -/

/-- The peers of a set that are recorded when it was submitted: all, if nobody was recorded
before. -/
def recordedOf (s : UploadStatisticModule PeerInfo) (uploadingPeers : SortedSet Address) :
    List Address :=
  uploadingPeers.elements.filter fun address => s.recorded = [] ∨ address ∈ s.recorded

theorem elements_nodup (uploadingPeers : SortedSet Address) : uploadingPeers.elements.Nodup :=
  uploadingPeers.sorted.imp fun h => Nat.ne_of_lt h

theorem mem_recorded_submit {limit : Nat} {address : Address} :
    address ∈ (s.submitUploadInfo limit uploadingPeers now).recorded ↔
      address ∈ s.recordedOf uploadingPeers := by
  unfold recordedOf
  rw [List.mem_filter, decide_eq_true_iff]
  show address ∈ keys (s.submittedMap uploadingPeers now) ↔ _
  unfold submittedMap
  split
  · rename_i hEmpty
    have hMap : s.uploadMap = [] := List.length_eq_zero_iff.mp hEmpty
    have hEntries : (uploadingPeers.elements.foldl
        (fun map address => insert map address (startStatistic .create now)) []).Perm
        (uploadingPeers.elements.map fun address => (address, startStatistic .create now)) := by
      have hDistinct : Distinct (uploadingPeers.elements.map fun address =>
          (address, startStatistic .create now)) := by
        apply List.pairwise_map.mpr
        apply List.Pairwise.imp _ uploadingPeers.sorted
        intro a b hLt
        by_contra hSame
        rw [Bool.not_eq_false] at hSame
        exact Nat.ne_of_lt hLt (eq_of_equivalent a b hSame)
      have hFold := foldl_insert_perm (m := []) hDistinct fun _ _ _ hOld => nomatch hOld
      rwa [List.foldl_map, List.nil_append] at hFold
    rw [hMap]
    unfold recorded
    rw [hMap]
    unfold keys
    rw [(hEntries.map Prod.fst).mem_iff, List.map_map]
    simp
  · rename_i hSome
    unfold recorded keys
    simp only [List.mem_map, List.mem_filter, decide_eq_true_eq]
    constructor
    · rintro ⟨entry, ⟨hEntry, hPeer⟩, rfl⟩
      exact ⟨hPeer, Or.inr ⟨entry, hEntry, rfl⟩⟩
    · rintro ⟨hPeer, hNone | ⟨entry, hEntry, rfl⟩⟩
      · rw [List.map_eq_nil_iff] at hNone
        exact absurd (by rw [hNone]; rfl) hSome
      · exact ⟨entry, ⟨hEntry, hPeer⟩, rfl⟩

theorem recorded_submit_perm (s : UploadStatisticModule PeerInfo) (limit now : Nat)
    (uploadingPeers : SortedSet Address) :
    (s.submitUploadInfo limit uploadingPeers now).recorded.Perm (s.recordedOf uploadingPeers) := by
  apply (List.perm_ext_iff_of_nodup _ _).mpr
  · exact fun address => mem_recorded_submit
  · exact Distinct.nodup_keys (UploadStatisticModule.distinct _)
  · exact (elements_nodup uploadingPeers).filter _

/-- After a submission and the timer the table is right exactly if the byte of the count is
the number of the peers that are recorded. -/
theorem describes_iff {u : UploadStatisticModule PeerInfo} {limit tick : Nat}
    (hRunning : s.isRunning = true) (hSubmit : s.submitUploadInfo limit uploadingPeers now = u)
    (hTimer : u.onShareMemoryTimer tick = some t) : Describes uploadingPeers u t ↔
      uploadingPeers.card % 2 ^ 8 = (s.recordedOf uploadingPeers).length := by
  subst hSubmit
  have hStill : (s.submitUploadInfo limit uploadingPeers now).isRunning = true := hRunning
  obtain ⟨hFits, hTable, hCount, hMap⟩ := onShareMemoryTimer_eq_some hStill hTimer
  have hPerm := s.recorded_submit_perm limit now uploadingPeers
  have hLength : (s.submitUploadInfo limit uploadingPeers now).uploadMap.length =
      (s.recordedOf uploadingPeers).length := by
    rw [← hPerm.length_eq]
    exact (List.length_map _).symm
  have hCountEq : t.peerUploadCount = uploadingPeers.card % 2 ^ 8 := hCount
  have hSmall : min t.peerUploadCount tableSize = t.peerUploadCount := by
    rw [hCountEq]
    exact Nat.min_eq_left (Nat.mod_lt _ (by decide)).le
  have hPeers : ∀ address, address ∈ uploadingPeers ∧
      address ∈ (s.submitUploadInfo limit uploadingPeers now).recorded ↔
        address ∈ s.recordedOf uploadingPeers := by
    intro address
    rw [mem_recorded_submit, and_iff_right_iff_imp]
    exact fun h => (List.mem_filter.mp h).1
  have hPublished : t.published =
      ((s.submitUploadInfo limit uploadingPeers now).recorded ++
        ((s.submitUploadInfo limit uploadingPeers now).peerUploadInfo.drop
          (s.submitUploadInfo limit uploadingPeers now).uploadMap.length).map
            PeerUploadEntry.ip).take t.peerUploadCount := by
    unfold published
    rw [hSmall, hTable, List.map_take, List.map_append, List.map_map]
    congr 2
    exact keys_askedMap _ _
  have hRecorded : (s.submitUploadInfo limit uploadingPeers now).recorded.length =
      (s.recordedOf uploadingPeers).length := hPerm.length_eq
  have hNodup : (s.recordedOf uploadingPeers).Nodup := (elements_nodup uploadingPeers).filter _
  rw [← hCountEq]
  constructor
  · intro h
    -- Different lists of the same addresses, each once, have one length.
    have hSame : t.published.Perm (s.recordedOf uploadingPeers) :=
      (List.perm_ext_iff_of_nodup h.once hNodup).mpr fun address =>
        (h.mem_iff address).trans (hPeers address)
    have hTotal : t.published.length = t.peerUploadCount := by
      unfold published
      rw [List.length_map, List.length_take, t.length_eq, hSmall]
      rw [← hSmall]
      exact Nat.min_eq_left (Nat.min_le_right _ _)
    rw [← hTotal, hSame.length_eq]
  · intro h
    have hAll : t.published = (s.submitUploadInfo limit uploadingPeers now).recorded := by
      rw [hPublished, h, ← hRecorded, List.take_left]
    refine ⟨?_, ?_, ?_⟩
    · rw [hAll]
      exact hPerm.nodup_iff.mpr hNodup
    · intro address
      rw [hAll, hPeers, mem_recorded_submit]
    · rw [h, ← hLength, hMap]
      exact (List.length_map _).ge

/-! ## Runs -/

/-- In every state of a run the timer writes only entries of the table, and behind a
submission it publishes the peers of this submission. -/
structure TableRight (s : UploadStatisticModule PeerInfo) (calls : List (Call PeerInfo)) : Prop where
  inside : ∀ before now, before ++ [.onShareMemoryTimer now] <+: calls →
    ∃ t, s.run (before ++ [.onShareMemoryTimer now]) = some t
  describes : ∀ before limit uploadingPeers now later,
    before ++ [.submitUploadInfo limit uploadingPeers now, .onShareMemoryTimer later] <+: calls →
    ∀ u t, s.run (before ++ [.submitUploadInfo limit uploadingPeers now]) = some u →
      u.onShareMemoryTimer later = some t → Describes uploadingPeers u t

/-- Every timer finds no more addresses than the table has entries, and the number of peers of
a submission before a timer, as a byte, is the number of those that are recorded. -/
structure TableFits (s : UploadStatisticModule PeerInfo) (calls : List (Call PeerInfo)) : Prop where
  room : ∀ before now, before ++ [.onShareMemoryTimer now] <+: calls →
    ∀ u, s.run before = some u → u.uploadMap.length ≤ tableSize
  counted : ∀ before limit uploadingPeers now later,
    before ++ [.submitUploadInfo limit uploadingPeers now, .onShareMemoryTimer later] <+: calls →
    ∀ u, s.run before = some u →
      uploadingPeers.card % 2 ^ 8 = (u.recordedOf uploadingPeers).length

theorem step_isRunning {call : Call PeerInfo} (h : s.step call = some t) :
    t.isRunning = s.isRunning := by
  cases call with
  | submitUploadSpeedInfo => exact (Option.some.inj h) ▸ rfl
  | submitUploadInfo => exact (Option.some.inj h) ▸ rfl
  | submitUploadPeerInfo => exact (Option.some.inj h) ▸ rfl
  | onShareMemoryTimer now =>
      change s.onShareMemoryTimer now = some t at h
      unfold onShareMemoryTimer at h
      split at h
      · exact (Option.some.inj h) ▸ rfl
      · split at h
        · cases h
        · exact (Option.some.inj h) ▸ rfl

theorem run_isRunning {calls : List (Call PeerInfo)} (h : s.run calls = some t) :
    t.isRunning = s.isRunning := by
  induction calls using List.reverseRecOn generalizing t with
  | nil => exact (Option.some.inj h) ▸ rfl
  | append_singleton calls call ih =>
      rw [run_concat] at h
      obtain ⟨u, hRun, hStep⟩ := Option.bind_eq_some_iff.mp h
      rw [step_isRunning hStep, ih hRun]

/-- Only a timer that finds too many addresses ends a run. -/
theorem exists_run {calls : List (Call PeerInfo)} (h : TableFits s calls)
    {before : List (Call PeerInfo)} (hBefore : before <+: calls) : ∃ u, s.run before = some u := by
  induction before using List.reverseRecOn with
  | nil => exact ⟨s, rfl⟩
  | append_singleton before call ih =>
      obtain ⟨u, hRun⟩ := ih ((List.prefix_append _ _).trans hBefore)
      rw [run_concat, hRun, Option.bind_some]
      cases call with
      | submitUploadSpeedInfo => exact ⟨_, rfl⟩
      | submitUploadInfo => exact ⟨_, rfl⟩
      | submitUploadPeerInfo => exact ⟨_, rfl⟩
      | onShareMemoryTimer now =>
          exact exists_onShareMemoryTimer (h.room before now hBefore u hRun)

/-- For every sequence of calls to a started module. -/
theorem tableRight_iff [Inhabited PeerInfo] (now : Nat) (calls : List (Call PeerInfo)) :
    TableRight (start now) calls ↔ TableFits (start now) calls := by
  constructor
  · intro h
    refine ⟨?_, ?_⟩
    · intro before tick hBefore u hRun
      obtain ⟨t, hTimer⟩ := h.inside before tick hBefore
      rw [run_concat, hRun, Option.bind_some, step_onShareMemoryTimer] at hTimer
      exact (onShareMemoryTimer_eq_some (run_isRunning hRun) hTimer).1
    · intro before limit uploadingPeers submitted tick hBefore u hRun
      have hSubmit : (start now).run (before ++ [.submitUploadInfo limit uploadingPeers submitted])
          = some (u.submitUploadInfo limit uploadingPeers submitted) := by
        rw [run_concat, hRun]
        rfl
      have hBoth := h.inside (before ++ [.submitUploadInfo limit uploadingPeers submitted]) tick
        (by simpa using hBefore)
      obtain ⟨t, hTimer⟩ := hBoth
      rw [run_concat, hSubmit, Option.bind_some, step_onShareMemoryTimer] at hTimer
      exact (describes_iff (run_isRunning hRun) rfl hTimer).mp
        (h.describes before limit uploadingPeers submitted tick hBefore _ t hSubmit hTimer)
  · intro h
    refine ⟨fun before tick hBefore => exists_run h hBefore, ?_⟩
    intro before limit uploadingPeers submitted tick hBefore u t hRun hTimer
    have hPart : before <+: calls := (List.prefix_append _ _).trans hBefore
    obtain ⟨v, hPrior⟩ := exists_run h hPart
    rw [run_concat, hPrior, Option.bind_some] at hRun
    exact (describes_iff (run_isRunning hPrior) (Option.some.inj hRun) hTimer).mpr
      (h.counted before limit uploadingPeers submitted tick hBefore v hPrior)

/-- The first addresses. -/
def peersBelow (n : Nat) : SortedSet Address where
  elements := List.range n
  sorted := List.pairwise_lt_range

theorem length_peersBelow (n : Nat) : (peersBelow n).elements.length = n := List.length_range

theorem tableRight_fails : ¬ TableRight (start 0 : UploadStatisticModule Unit)
    [.submitUploadInfo 0 (peersBelow 257) 0, .onShareMemoryTimer 1] := by
  intro h
  have hSubmit : ∀ peers, (start 0 : UploadStatisticModule Unit).run [.submitUploadInfo 0 peers 0] =
      some ((start 0).submitUploadInfo 0 peers 0) := fun _ => rfl
  have hRunning : ∀ peers,
      ((start 0 : UploadStatisticModule Unit).submitUploadInfo 0 peers 0).isRunning = true :=
    fun _ => rfl
  obtain ⟨t, hTimer⟩ := h.inside [.submitUploadInfo 0 (peersBelow 257) 0] 1 (by simp)
  rw [run_concat, hSubmit, Option.bind_some, step_onShareMemoryTimer] at hTimer
  have hFits := (onShareMemoryTimer_eq_some (hRunning _) hTimer).1
  have hLength := ((start 0 : UploadStatisticModule Unit).recorded_submit_perm 0 0
    (peersBelow 257)).length_eq
  rw [recorded, keys, List.length_map] at hLength
  have hAll : ∀ peers : SortedSet Address,
      (start 0 : UploadStatisticModule Unit).recordedOf peers = peers.elements :=
    fun peers => List.filter_eq_self.mpr fun address _ => decide_eq_true (Or.inl rfl)
  rw [hLength, hAll, length_peersBelow] at hFits
  exact absurd hFits (by decide)

end UploadStatisticModule

end Statistic
