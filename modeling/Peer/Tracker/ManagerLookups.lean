import Peer.Tracker.Manager

/-! Where lookups go. As long as every lookup finds its number in the list index, no
index holds a null pointer; the group asked is the one with the number of the group
that reports, exactly when the two remainders agree. -/
namespace Tracker

open Basis Storage P2P OrderedMap

namespace TrackerManager

/-- No index holds a null pointer. -/
structure RealGroups (m : TrackerManager) : Prop where
  list_mod : allReal m.listModIndexer = true
  list_endpoint : allReal m.listEndpointIndexer = true
  report_mod : allReal m.reportModIndexer = true
  report_endpoint : allReal m.reportEndpointIndexer = true

/-- A lookup of the RID finds its number in the list index, or no index at all. -/
def KeyPresent (m : TrackerManager) (rid : Guid) : Prop :=
  m.listModIndexer.length = 0 ∨ m.groupKey rid ∈ m.listModIndexer.keys

/-- The number a lookup computes is that of every group that reports the RID, as far as
the list index has that number. -/
def LookupFits (m : TrackerManager) (rid : Guid) : Prop :=
  m.KeyPresent rid ∧ (m.isRunning = true → ∀ modNo group,
    (modNo, some group) ∈ m.reportModIndexer → group.reports modNo rid = true →
      modNo ∈ m.listModIndexer.keys → m.groupKey rid = modNo)

/-- Lookups of the RID change no index, and the group asked has the number of every
group that reports the RID and is in the list index. -/
structure LooksUpRight (m : TrackerManager) (rid : Guid) : Prop where
  doList : (m.doList rid).1 = m
  deleteRidRecord : m.deleteRidRecord rid = m
  asks : m.isRunning = true → ∀ modNo group, (modNo, some group) ∈ m.reportModIndexer →
    group.reports modNo rid = true → modNo ∈ m.listModIndexer.keys →
      (m.doList rid).2 = some modNo

section Indexers

variable {K : Type} [Before K] {indexer : OrderedMap K (Option TrackerGroup)} {k : K}

omit [Before K] in
theorem allReal_iff : allReal indexer = true ↔ ∀ entry ∈ indexer, entry.2.isSome = true :=
  List.all_eq_true

theorem find?_real (h : allReal indexer = true) (hThere : ¬ Absent indexer k) :
    ∃ group, indexer.find? k = some (some group) := by
  cases hFind : indexer.find? k with
  | none => exact absurd (find?_eq_none.mp hFind) hThere
  | some pointer =>
    obtain ⟨j, hMem, -⟩ := mem_of_find? hFind
    obtain ⟨group, rfl⟩ := Option.isSome_iff_exists.mp (allReal_iff.mp h _ hMem)
    exact ⟨group, rfl⟩

/-- Setting a pointer leaves the others, and the null pointer it may start from is gone. -/
theorem allReal_update (h : allReal indexer = true) (group : TrackerGroup) :
    allReal (indexer.update k none fun _ => some group) = true := by
  rw [allReal_iff] at h ⊢
  intro entry hEntry
  obtain ⟨old, hOld, rfl⟩ := List.mem_map.mp hEntry
  split
  · rfl
  · rename_i hApart
    by_cases hAbsent : Absent indexer k
    · rw [(insert_perm hAbsent).mem_iff, List.mem_cons] at hOld
      obtain rfl | hOld := hOld
      · exact absurd (equivalent_self k) hApart
      · exact h old hOld
    · rw [insert_of_not_absent hAbsent] at hOld
      exact h old hOld

theorem allReal_insert (h : allReal indexer = true) (group : TrackerGroup) :
    allReal (indexer.insert k (some group)) = true := by
  rw [allReal_iff] at h ⊢
  intro entry hEntry
  by_cases hAbsent : Absent indexer k
  · rw [(insert_perm hAbsent).mem_iff, List.mem_cons] at hEntry
    obtain rfl | hOld := hEntry
    · rfl
    · exact h entry hOld
  · rw [insert_of_not_absent hAbsent] at hEntry
    exact h entry hEntry

end Indexers

theorem absent_nat_iff {V : Type} {index : OrderedMap Nat V} {k : Nat} :
    Absent index k ↔ k ∉ index.keys := absent_iff eq_of_equivalent

/-- Every kept tracker has its number in the map. -/
theorem mem_keys_modMap {isVod : Bool} {type : TrackerType} {trackers : List TrackerInfo}
    {tracker : TrackerInfo} (h : tracker ∈ trackers.filter (keeps isVod type)) :
    tracker.modNo ∈ (modMap isVod type trackers).keys := by
  unfold modMap
  generalize trackers.filter (keeps isVod type) = kept at h ⊢
  -- a number that is in the map stays, and the tracker's own turn puts it there
  suffices hFold : ∀ (map : OrderedMap Nat (List TrackerInfo)),
      (tracker ∈ kept ∨ tracker.modNo ∈ map.keys) →
      tracker.modNo ∈ (kept.foldl (fun map tracker => map.update tracker.modNo [] fun set =>
        if tracker ∈ set then set else set ++ [tracker]) map).keys from hFold [] (Or.inl h)
  clear h
  induction kept with
  | nil =>
    rintro map (hMem | hMem)
    · cases hMem
    · exact hMem
  | cons first rest ih =>
    intro map hCase
    apply ih
    rw [keys_update, mem_keys_insert eq_of_equivalent]
    obtain hMem | hMem := hCase
    · obtain rfl | hRest := List.mem_cons.mp hMem
      · exact Or.inr (Or.inl rfl)
      · exact Or.inl hRest
    · exact Or.inr (Or.inr hMem)

/-- An update gives every number of the map a group, and none is null. -/
theorem setGroups_spec (groupCount : Nat) (map : OrderedMap Nat (List TrackerInfo))
    {indexer : ModIndexer} (h : allReal indexer = true) :
    ∃ indexer', setGroups groupCount map indexer = some indexer' ∧ allReal indexer' = true ∧
      ∀ k ∈ map.keys, k ∈ indexer'.keys := by
  have hFilter : allReal (indexer.filter fun entry => (map.find? entry.1).isSome) = true := by
    rw [allReal_iff] at h ⊢
    exact fun entry hEntry => h entry (List.mem_of_mem_filter hEntry)
  unfold setGroups
  generalize (indexer.filter fun entry => (map.find? entry.1).isSome) = kept at hFilter
  clear h
  suffices hFold : ∀ f : ModIndexer → Nat × List TrackerInfo → Option ModIndexer,
      (∀ indexer entry group,
        (indexer.insert entry.1 (some .create)).find? entry.1 = some (some group) →
        f indexer entry = some ((indexer.insert entry.1 (some .create)).update entry.1 none
          fun _ => some (.setTrackers groupCount entry.2))) →
      ∀ kept : ModIndexer, allReal kept = true → ∃ indexer',
        map.foldlM f kept = some indexer' ∧ allReal indexer' = true ∧
        (∀ k ∈ kept.keys, k ∈ indexer'.keys) ∧ ∀ k ∈ map.keys, k ∈ indexer'.keys by
    refine (hFold _ (fun indexer entry group hFind => ?_) kept hFilter).imp fun _ h =>
      ⟨h.1, h.2.1, h.2.2.2⟩
    simp only [hFind]
  clear hFilter
  intro f hf
  induction map with
  | nil => exact fun kept hKept => ⟨kept, rfl, hKept, fun k hk => hk, fun k hk => by cases hk⟩
  | cons entry rest ih =>
    intro kept hKept
    have hInsert : allReal (kept.insert entry.1 (some .create)) = true := allReal_insert hKept _
    have hThere : ¬ Absent (kept.insert entry.1 (some TrackerGroup.create)) entry.1 := by
      rw [absent_nat_iff, not_not]
      exact (mem_keys_insert eq_of_equivalent).mpr (Or.inl rfl)
    obtain ⟨group, hFind⟩ := find?_real hInsert hThere
    have hUpdate := allReal_update (k := entry.1) hInsert (.setTrackers groupCount entry.2)
    obtain ⟨indexer', hSome, hReal, hOld, hNew⟩ := ih _ hUpdate
    have hMore : ∀ k, k = entry.1 ∨ k ∈ kept.keys → k ∈ indexer'.keys := by
      intro k hk
      apply hOld
      rw [keys_update, mem_keys_insert eq_of_equivalent, mem_keys_insert eq_of_equivalent]
      exact Or.inr hk
    refine ⟨indexer', ?_, hReal, fun k hk => hMore k (Or.inr hk), ?_⟩
    · rw [List.foldlM_cons, hf kept entry group hFind]
      exact hSome
    · intro k hk
      obtain rfl | hRest := List.mem_cons.mp hk
      · exact hMore _ (Or.inl rfl)
      · exact hNew k hRest

/-- Building the endpoint index adds no group, and every pointer in it is real. -/
theorem setEndpoints_spec (isVod : Bool) (type : TrackerType) (trackers : List TrackerInfo)
    {indexer : ModIndexer} (h : allReal indexer = true)
    (hThere : ∀ tracker ∈ trackers.filter (keeps isVod type), tracker.modNo ∈ indexer.keys) :
    (setEndpoints isVod type trackers indexer).1 = indexer ∧
      allReal (setEndpoints isVod type trackers indexer).2 = true := by
  unfold setEndpoints
  generalize trackers.filter (keeps isVod type) = kept at hThere ⊢
  suffices hFold : ∀ endpoints : EndpointIndexer, allReal endpoints = true →
      (kept.foldl (fun (indexers : ModIndexer × EndpointIndexer) tracker =>
        (indexers.1.update tracker.modNo none id, indexers.2.update tracker.endpoint none fun _ =>
          (indexers.1.find? tracker.modNo).getD none)) (indexer, endpoints)).1 = indexer ∧
      allReal (kept.foldl (fun (indexers : ModIndexer × EndpointIndexer) tracker =>
        (indexers.1.update tracker.modNo none id, indexers.2.update tracker.endpoint none fun _ =>
          (indexers.1.find? tracker.modNo).getD none)) (indexer, endpoints)).2 = true from
    hFold [] rfl
  induction kept with
  | nil => exact fun endpoints hEndpoints => ⟨rfl, hEndpoints⟩
  | cons tracker rest ih =>
    intro endpoints hEndpoints
    have hHere : ¬ Absent indexer tracker.modNo := by
      rw [absent_nat_iff, not_not]
      exact hThere tracker List.mem_cons_self
    obtain ⟨group, hFind⟩ := find?_real h hHere
    rw [List.foldl_cons]
    dsimp only
    rw [update_id _ hHere, hFind]
    exact ih (fun other hOther => hThere other (List.mem_cons_of_mem _ hOther)) _
      (allReal_update hEndpoints group)

theorem setIndexers_spec (isVod : Bool) (type : TrackerType) (groupCount : Nat)
    (trackers : List TrackerInfo) {indexer : ModIndexer} (h : allReal indexer = true) :
    ∃ indexers, setIndexers isVod type groupCount trackers indexer = some indexers ∧
      allReal indexers.1 = true ∧ allReal indexers.2 = true := by
  unfold setIndexers
  split
  · exact ⟨([], []), rfl, rfl, rfl⟩
  · obtain ⟨indexer', hSome, hReal, hKeys⟩ :=
      setGroups_spec groupCount (modMap isVod type trackers) h
    obtain ⟨hSame, hEndpoints⟩ := setEndpoints_spec isVod type trackers hReal
      fun tracker hTracker => hKeys _ (mem_keys_modMap hTracker)
    refine ⟨setEndpoints isVod type trackers indexer', ?_, ?_, hEndpoints⟩
    · rw [hSome]
      rfl
    · rw [hSame]
      exact hReal

variable {m : TrackerManager}

theorem RealGroups.setTrackerList (h : m.RealGroups) (groupCount : Nat)
    (trackers : List TrackerInfo) (type : TrackerType) :
    ∃ m', m.setTrackerList groupCount trackers type = some m' ∧ m'.RealGroups := by
  unfold TrackerManager.setTrackerList
  cases type with
  | list =>
    obtain ⟨indexers, hSome, hMod, hEndpoint⟩ :=
      setIndexers_spec m.isVod .list groupCount trackers h.list_mod
    refine ⟨{ m with listModIndexer := indexers.1, listEndpointIndexer := indexers.2 }, ?_,
      ⟨hMod, hEndpoint, h.report_mod, h.report_endpoint⟩⟩
    simp [hSome, hMod]
  | report =>
    obtain ⟨indexers, hSome, hMod, hEndpoint⟩ :=
      setIndexers_spec m.isVod .report groupCount trackers h.report_mod
    refine ⟨{ m with reportModIndexer := indexers.1, reportEndpointIndexer := indexers.2 }, ?_,
      ⟨h.list_mod, h.list_endpoint, hMod, hEndpoint⟩⟩
    simp [hSome, hMod]

theorem realGroups_create (isVod : Bool) : (create isVod).RealGroups := ⟨rfl, rfl, rfl, rfl⟩

theorem RealGroups.start (h : m.RealGroups) (file : Option (Nat × List TrackerInfo)) :
    ∃ m', m.start file = some m' ∧ m'.RealGroups := by
  have hRunning : ∀ m' : TrackerManager, m'.RealGroups → { m' with isRunning := true }.RealGroups :=
    fun m' hReal => ⟨hReal.list_mod, hReal.list_endpoint, hReal.report_mod, hReal.report_endpoint⟩
  unfold TrackerManager.start
  split
  · exact ⟨m, rfl, h⟩
  · cases file with
    | none => exact ⟨_, rfl, hRunning m h⟩
    | some file =>
      dsimp only
      split
      · exact ⟨_, rfl, hRunning m h⟩
      · obtain ⟨m', hSome, hReal⟩ := h.setTrackerList file.1 file.2 .list
        rw [hSome]
        exact ⟨_, rfl, hRunning m' hReal⟩

theorem RealGroups.stop (h : m.RealGroups) : ∃ m', m.stop = some m' ∧ m'.RealGroups := by
  unfold TrackerManager.stop
  split
  · exact ⟨m, rfl, h⟩
  · rw [if_pos (by simp [h.list_mod, h.list_endpoint, h.report_mod, h.report_endpoint])]
    exact ⟨_, rfl, ⟨rfl, rfl, rfl, rfl⟩⟩

theorem RealGroups.onResponsePacket (h : m.RealGroups) (endpoint : SocketAddr) (type : TrackerType) :
    m.onResponsePacket endpoint type = some m := by
  have hReal : ∀ indexer : EndpointIndexer, allReal indexer = true →
      indexer.find? endpoint ≠ some none := by
    intro indexer hIndexer hFind
    obtain ⟨j, hMem, -⟩ := mem_of_find? hFind
    have hSome := allReal_iff.mp hIndexer _ hMem
    cases hSome
  unfold TrackerManager.onResponsePacket
  cases type with
  | list => simp [hReal _ h.list_endpoint]
  | report => simp [hReal _ h.report_endpoint]

/-- A lookup of a present number writes nothing. -/
theorem KeyPresent.update_eq {rid : Guid} (h : m.KeyPresent rid) :
    m.listModIndexer.length = 0 ∨ m.listModIndexer.update (m.groupKey rid) none id = m.listModIndexer := by
  apply h.imp_right
  intro hMem
  apply update_id
  rw [absent_nat_iff, not_not]
  exact hMem

theorem KeyPresent.doList {rid : Guid} (h : m.KeyPresent rid) : (m.doList rid).1 = m := by
  unfold TrackerManager.doList
  split
  · rfl
  · rename_i hSome
    have hSome' : ¬ m.listModIndexer.length = 0 := fun hZero => hSome (by simp [hZero])
    rw [h.update_eq.resolve_left hSome']

/-- `DeleteRidRecord` leaves the index as it was exactly when it finds its number. -/
theorem deleteRidRecord_eq_iff {rid : Guid} : m.deleteRidRecord rid = m ↔ m.KeyPresent rid := by
  unfold TrackerManager.deleteRidRecord
  constructor
  · intro hSame
    split at hSame
    · rename_i hZero
      exact Or.inl hZero
    · right
      have hIndexer := congrArg TrackerManager.listModIndexer hSame
      change m.listModIndexer.update (m.groupKey rid) none id = m.listModIndexer at hIndexer
      rw [← hIndexer, keys_update, mem_keys_insert eq_of_equivalent]
      exact Or.inl rfl
  · intro h
    split
    · rfl
    · rename_i hSome
      rw [h.update_eq.resolve_left hSome]

/-- Lookups of a RID are right exactly when it fits. -/
theorem RealGroups.looksUpRight_iff (h : m.RealGroups) (rid : Guid) :
    m.LooksUpRight rid ↔ m.LookupFits rid := by
  constructor
  · intro hRight
    refine ⟨deleteRidRecord_eq_iff.mp hRight.deleteRidRecord, ?_⟩
    intro hRunning modNo group hMem hReports hListed
    have hAsked := hRight.asks hRunning modNo group hMem hReports hListed
    unfold TrackerManager.doList at hAsked
    split at hAsked
    · cases hAsked
    · obtain ⟨_, -, hKey⟩ := Option.map_eq_some_iff.mp hAsked
      exact hKey
  · rintro ⟨hPresent, hFits⟩
    refine ⟨hPresent.doList, deleteRidRecord_eq_iff.mpr hPresent, ?_⟩
    intro hRunning modNo group hMem hReports hListed
    have hKey := hFits hRunning modNo group hMem hReports hListed
    have hSome : m.listModIndexer.length ≠ 0 := by
      intro hZero
      rw [List.length_eq_zero_iff.mp hZero] at hListed
      cases hListed
    have hThere : ¬ Absent m.listModIndexer modNo := by
      rw [absent_nat_iff, not_not]
      exact hListed
    obtain ⟨found, hFind⟩ := find?_real h.list_mod hThere
    unfold TrackerManager.doList
    rw [if_neg (by simp [hRunning, hSome]), hKey, hFind]
    rfl

/-- A list index with the numbers below its size, and groups that report modulo that size. -/
theorem lookupFits_of_dense (hKeys : ∀ k, k ∈ m.listModIndexer.keys ↔ k < m.listModIndexer.length)
    (hCounts : ∀ modNo group, (modNo, some group) ∈ m.reportModIndexer →
      group.groupCount = m.listModIndexer.length) (rid : Guid) : m.LookupFits rid := by
  constructor
  · obtain hZero | hPos := Nat.eq_zero_or_pos m.listModIndexer.length
    · exact Or.inl hZero
    · exact Or.inr ((hKeys _).mpr (Nat.mod_lt _ hPos))
  · intro _ modNo group hMem hReports _
    simp only [TrackerGroup.reports, Bool.and_eq_true, beq_iff_eq] at hReports
    rw [hCounts modNo group hMem] at hReports
    exact hReports.2

/-- A lookup finds its number. -/
def LookupsPresent (m : TrackerManager) : ManagerAction → Prop
  | .doList rid => m.KeyPresent rid
  | .deleteRidRecord rid => m.KeyPresent rid
  | _ => True

/-- With real groups no call goes through a null pointer, and lookups of present numbers
leave real groups. -/
theorem RealGroups.next (h : m.RealGroups) (a : ManagerAction) :
    ∃ m', m.next a = some m' ∧ (LookupsPresent m a → m'.RealGroups) := by
  have hKeep : ∀ answer : Option TrackerManager, (∃ m', answer = some m' ∧ m'.RealGroups) →
      ∃ m', answer = some m' ∧ (LookupsPresent m a → m'.RealGroups) := by
    rintro answer ⟨m', hSome, hReal⟩
    exact ⟨m', hSome, fun _ => hReal⟩
  cases a with
  | start file => exact hKeep _ (h.start file)
  | stop => exact hKeep _ h.stop
  | setTrackerList groupCount trackers type => exact hKeep _ (h.setTrackerList groupCount trackers type)
  | doList rid =>
    refine ⟨_, rfl, fun hPresent => ?_⟩
    rw [KeyPresent.doList hPresent]
    exact h
  | deleteRidRecord rid =>
    refine ⟨_, rfl, fun hPresent => ?_⟩
    rw [deleteRidRecord_eq_iff.mpr hPresent]
    exact h
  | onResponsePacket endpoint type => exact hKeep _ ⟨m, h.onResponsePacket endpoint type, h⟩
  | doReport => exact hKeep _ ⟨m, if_pos h.report_mod, h⟩

/-- In a run whose lookups find their number no index ever holds a null pointer and no
call goes through one; and there lookups of a RID are right exactly when it fits. -/
theorem lookups_of_run {isVod : Bool} {m : TrackerManager}
    (run : Reaches Step LookupsPresent (create isVod) m) :
    m.RealGroups ∧ (∀ a, (m.next a).isSome = true) ∧
      ∀ rid, m.LooksUpRight rid ↔ m.LookupFits rid := by
  have hReal : m.RealGroups := by
    apply run.invariant (P := RealGroups) (realGroups_create isVod)
    intro x a y hx hPresent hStep
    obtain ⟨y', hSome, hNext⟩ := hx.next a
    rw [Step, hSome, Option.some.injEq] at hStep
    exact hStep ▸ hNext hPresent
  refine ⟨hReal, ?_, hReal.looksUpRight_iff⟩
  intro a
  obtain ⟨m', hSome, -⟩ := hReal.next a
  rw [hSome]
  rfl

section Samples

/-- A tracker with a number. -/
def numbered (modNo : Nat) : TrackerInfo := ⟨0, modNo, ⟨1, 1⟩, 0, false⟩

/-- The RID that is 5 in its last eight bytes. -/
def ridFive : Guid := ⟨[0, 0, 0, 0, 0, 0, 0, 0, 5, 0, 0, 0, 0, 0, 0, 0], rfl⟩

instance (m : TrackerManager) (rid : Guid) : Decidable (m.KeyPresent rid) := by
  unfold KeyPresent
  infer_instance

instance (m : TrackerManager) (a : ManagerAction) : Decidable (LookupsPresent m a) := by
  cases a <;> (unfold LookupsPresent; infer_instance)

/-- Two groups for lookups and reports, and a lookup that fits. -/
theorem lookups_of_twoGroups : ∃ m : TrackerManager, (m.RealGroups ∧ (∀ a, (m.next a).isSome = true) ∧
    ∀ rid, m.LooksUpRight rid ↔ m.LookupFits rid) ∧ m.listModIndexer.length = 2 := by
  obtain ⟨m, run, hTest⟩ := Reaches.exists_of_checked next
    (fun m a => decide (LookupsPresent m a)) (create true)
    [.start none, .setTrackerList 2 [numbered 0, numbered 1] .list,
      .setTrackerList 2 [numbered 0, numbered 1] .report, .doList ridFive]
    (fun m => decide (m.listModIndexer.length = 2)) (by decide +kernel)
  have hRun : Reaches Step LookupsPresent (create true) m :=
    run.mono fun x a hMet => of_decide_eq_true hMet
  exact ⟨m, lookups_of_run hRun, of_decide_eq_true hTest⟩

/-- With numbers that are no remainders a lookup adds a null pointer, through which
`StopAllGroups` calls; and with a list index smaller than the announced count it asks
another group than the one that reports. -/
theorem lookups_fail :
    (∃ m, Reaches Step (fun _ _ => True) (create true) m ∧ m.next .stop = none) ∧
    (∃ m, Reaches Step (fun _ _ => True) (create true) m ∧ m.isRunning = true ∧
      (1, some ⟨4, [numbered 1]⟩) ∈ m.reportModIndexer ∧
        TrackerGroup.reports ⟨4, [numbered 1]⟩ 1 ridFive = true ∧
          1 ∈ m.listModIndexer.keys ∧ (m.doList ridFive).2 = some 2) := by
  constructor
  · obtain ⟨m, run, hTest⟩ := Reaches.exists_of_checked next (fun _ _ => true) (create true)
      [.start none, .setTrackerList 4 [numbered 1] .list, .doList ridFive]
      (fun m => (m.next .stop).isNone) (by decide +kernel)
    exact ⟨m, run.mono fun _ _ _ => trivial, Option.isNone_iff_eq_none.mp hTest⟩
  · obtain ⟨m, run, hTest⟩ := Reaches.exists_of_checked next (fun _ _ => true) (create true)
      [.start none, .setTrackerList 4 [numbered 0, numbered 1, numbered 2] .list,
        .setTrackerList 4 [numbered 1] .report]
      (fun m => decide (m.isRunning = true ∧ (1, some ⟨4, [numbered 1]⟩) ∈ m.reportModIndexer ∧
        TrackerGroup.reports ⟨4, [numbered 1]⟩ 1 ridFive = true ∧
          1 ∈ m.listModIndexer.keys ∧ (m.doList ridFive).2 = some 2)) (by decide +kernel)
    exact ⟨m, run.mono fun _ _ _ => trivial, of_decide_eq_true hTest⟩

end Samples

end TrackerManager

end Tracker
