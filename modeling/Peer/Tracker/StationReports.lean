import Peer.Tracker.Station

/-! A station hears the answers to its reports as long as the tracker in use is an object
of the present map and list. New objects replace them whenever the list of trackers is
set, also for the tracker in use, so a list may only be set while none is in use. -/
namespace Tracker

open Basis P2P OrderedMap

def StationAction.trackers : StationAction → List TrackerInfo
  | .setTrackers _ trackers _ => trackers
  | _ => []

/-- No two trackers of a list have one endpoint. -/
def EndpointsApart (trackers : List TrackerInfo) : Prop :=
  (trackers.map TrackerInfo.endpoint).Nodup

/-- An initialised iterator of the list. -/
def ListIterator.PointsInto (iterator : ListIterator) (list : List Nat) : Prop :=
  iterator = .last ∨ ∃ client ∈ list, iterator = .at client

namespace TrackerStation

/-- The call empties the map and the list. -/
def Replaces (s : TrackerStation) : StationAction → Prop
  | .setTrackers _ _ _ => True
  | .stop => s.isRunning = true
  | _ => False

/-- Clients are replaced while no tracker is in use, by trackers of different endpoints. -/
def ReplacesUnused (s : TrackerStation) (a : StationAction) : Prop :=
  EndpointsApart a.trackers ∧ (s.Replaces a → s.usingTracker = none)

/-- The client is the value of the map under its endpoint and a client of the list. -/
def Present (s : TrackerStation) (client : Nat) : Prop :=
  ∃ tracker, s.heap[client]? = some tracker ∧
    s.trackerClientMap.find? tracker.endpoint = some client ∧ client ∈ s.trackerClientList

/-- What the reporting side of a station promises. -/
structure Hears (s : TrackerStation) : Prop where
  stored : ∀ client, s.usingTracker = some client → s.Present client
  pointsInto : s.tryingTrackerIterator.PointsInto s.trackerClientList
  reports : ∀ noResources transactionId, ∃ answer, s.doReport noResources transactionId = some answer ∧
    ∀ client, answer.2 = some client → ∃ info ∈ s.latest, s.infoOf client = some info
  responses : ∀ client tracker packet, s.usingTracker = some client →
    s.heap[client]? = some tracker → packet.endpoint = tracker.endpoint →
      (s.onReportResponsePacket packet).2 = some client

/-- Map and list hold the same clients, those of the latest trackers, and the pointers and
the iterator hold some of them. -/
structure Paired (s : TrackerStation) : Prop where
  listed : ∀ client ∈ s.trackerClientList, s.Present client ∧
    ∃ info ∈ s.latest, s.infoOf client = some info
  mapped : ∀ entry ∈ s.trackerClientMap, entry.2 ∈ s.trackerClientList
  current : ∀ client, s.currentReportTracker = some client → client ∈ s.trackerClientList
  trying : ∀ client, s.tryingReportTracker = some client → client ∈ s.trackerClientList
  pointsInto : s.tryingTrackerIterator.PointsInto s.trackerClientList
  untried : s.tryingReportTracker = none → s.tryingTrackerIterator = .last

variable {s : TrackerStation}

theorem Paired.used (h : s.Paired) {client : Nat} (hUsing : s.usingTracker = some client) :
    client ∈ s.trackerClientList := by
  obtain hCurrent | ⟨-, hTrying⟩ := Option.or_eq_some_iff.mp hUsing
  · exact h.current client hCurrent
  · exact h.trying client hTrying

theorem Paired.list_ne_nil (h : s.Paired) (hMap : s.trackerClientMap.isEmpty = false) :
    s.trackerClientList ≠ [] := by
  intro hNil
  cases hEntries : s.trackerClientMap with
  | nil => simp [hEntries] at hMap
  | cons entry rest =>
      have hMem := h.mapped entry (by simp [hEntries])
      simp [hNil] at hMem

theorem mem_of_successor {list : List Nat} {client other : Nat}
    (h : successor list client = .at other) : other ∈ list := by
  unfold successor at h
  split at h
  · cases h
  · rename_i next rest hDrop
    cases h
    apply List.mem_of_mem_drop (i := list.idxOf client + 1)
    simp [hDrop]

theorem successor_ne_unset (list : List Nat) (client : Nat) : successor list client ≠ .unset := by
  unfold successor
  split <;> simp

/-- An iterator of a list with clients moves on to one of them. -/
theorem advance_mem {list : List Nat} {iterator : ListIterator} (hPoints : iterator.PointsInto list)
    (hList : list ≠ []) : ∃ client ∈ list, advance list iterator = some client := by
  have hHead : ∃ client ∈ list, list.head? = some client :=
    ⟨list.head hList, List.head_mem hList, List.head?_eq_some_head hList⟩
  obtain rfl | ⟨client, hMem, rfl⟩ := hPoints
  · exact hHead
  · unfold advance
    simp only [if_pos hMem]
    cases hNext : successor list client with
    | unset => exact absurd hNext (successor_ne_unset list client)
    | last => exact hHead
    | «at» other => exact ⟨other, mem_of_successor hNext, rfl⟩

theorem Paired.countSilence (h : s.Paired) : s.countSilence.Paired := by
  unfold TrackerStation.countSilence
  split
  · exact h
  · split
    · exact ⟨h.listed, h.mapped, nofun, h.trying, h.pointsInto, h.untried⟩
    · exact ⟨h.listed, h.mapped, h.current, h.trying, h.pointsInto, h.untried⟩

theorem countSilence_trackerClientList (s : TrackerStation) :
    s.countSilence.trackerClientList = s.trackerClientList := by
  unfold countSilence
  split
  · rfl
  · split <;> rfl

theorem Paired.submit (h : s.Paired) (hList : s.trackerClientList ≠ []) (transactionId : Nat) :
    ∃ answer, s.submit transactionId = some answer ∧ answer.1.Paired ∧
      ∀ client, answer.2 = some client → client ∈ s.trackerClientList := by
  unfold TrackerStation.submit
  split
  · rename_i client hCurrent
    refine ⟨_, rfl, ⟨h.listed, h.mapped, ?_, h.trying, h.pointsInto, h.untried⟩, ?_⟩
    · exact fun other hOther => h.current other hOther
    · intro other hOther
      exact h.current other (hCurrent.trans hOther)
  · obtain ⟨client, hMem, hAdvance⟩ := advance_mem h.pointsInto hList
    rw [hAdvance, Option.map_some]
    have hOnly : ∀ other, some client = some other → other ∈ s.trackerClientList := by
      rintro _ ⟨⟩
      exact hMem
    refine ⟨_, rfl, ⟨h.listed, h.mapped, ?_, hOnly, Or.inr ⟨client, hMem, rfl⟩, nofun⟩, hOnly⟩
    exact fun other hOther => h.current other hOther

/-- A report goes to a client of the list and leaves pairs. -/
theorem Paired.doReport (h : s.Paired) (noResources : Bool) (transactionId : Nat) :
    ∃ answer, s.doReport noResources transactionId = some answer ∧ answer.1.Paired ∧
      ∀ client, answer.2 = some client → client ∈ s.trackerClientList := by
  unfold TrackerStation.doReport
  by_cases hMap : s.trackerClientMap.isEmpty = true
  · exact ⟨_, if_pos hMap, h, by simp⟩
  have hList := h.list_ne_nil (by simpa using hMap)
  rw [if_neg hMap, if_neg (by simpa using hList)]
  split
  · exact ⟨_, rfl, h, by simp⟩
  · rw [← countSilence_trackerClientList s] at hList ⊢
    exact h.countSilence.submit hList transactionId

theorem Paired.hears (h : s.Paired) : s.Hears where
  stored client hUsing := (h.listed client (h.used hUsing)).1
  pointsInto := h.pointsInto
  reports noResources transactionId := by
    obtain ⟨answer, hSome, -, hMem⟩ := h.doReport noResources transactionId
    exact ⟨answer, hSome, fun client hClient => (h.listed client (hMem client hClient)).2⟩
  responses client tracker packet hUsing hClient hEndpoint := by
    obtain ⟨other, hOther, hFind, -⟩ := (h.listed client (h.used hUsing)).1
    obtain rfl := Option.some.inj (hClient.symm.trans hOther)
    unfold onReportResponsePacket
    rw [hEndpoint, hFind]
    dsimp only
    split <;> rfl

theorem Paired.onReportResponsePacket (h : s.Paired) (packet : ReportResponse) :
    (s.onReportResponsePacket packet).1.Paired := by
  unfold TrackerStation.onReportResponsePacket
  cases hFind : s.trackerClientMap.find? packet.endpoint with
  | none => exact h
  | some client =>
      obtain ⟨endpoint, hEntry, -⟩ := mem_of_find? hFind
      have hMem := h.mapped (endpoint, client) hEntry
      dsimp only
      split
      · exact h
      · refine ⟨h.listed, h.mapped, ?_, h.trying, h.pointsInto, h.untried⟩
        intro other hOther
        obtain hCurrent | ⟨-, hNew⟩ := Option.or_eq_some_iff.mp hOther
        · exact h.current other hCurrent
        · cases hNew
          exact hMem

/-- The map of a list of trackers has an entry for each, with its client. -/
theorem clientMap_entries {trackers : List TrackerInfo} (hApart : EndpointsApart trackers)
    (start : Nat) :
    let map := (trackers.zipIdx start).foldl (fun (map : OrderedMap SocketAddr Nat) entry =>
      map.insert entry.1.endpoint entry.2) []
    Distinct map ∧
      map.Perm ((trackers.zipIdx start).map fun entry => (entry.1.endpoint, entry.2)) := by
  have hMap : (trackers.zipIdx start).map (fun entry => entry.1.endpoint) =
      trackers.map TrackerInfo.endpoint := by
    rw [← Function.comp_def TrackerInfo.endpoint Prod.fst, ← List.map_map, List.zipIdx_map_fst]
  have hDistinct : Distinct ((trackers.zipIdx start).map fun entry => (entry.1.endpoint, entry.2)) := by
    unfold EndpointsApart at hApart
    rw [← hMap] at hApart
    apply List.pairwise_map.mpr
    apply (List.pairwise_map.mp hApart).imp
    intro a b hNe
    by_contra hSame
    exact hNe (SocketAddr.equivalent_iff.mp (by simpa using hSame))
  have hPerm := foldl_insert_perm (m := ([] : OrderedMap SocketAddr Nat)) hDistinct
    (fun _ _ _ hNil => absurd hNil List.not_mem_nil)
  rw [List.foldl_map, List.nil_append] at hPerm
  exact ⟨hDistinct.perm hPerm.symm, hPerm⟩

/-- Setting a list while no tracker is in use pairs map and list again. -/
theorem paired_setTrackers {groupCount : Nat} {trackers : List TrackerInfo} {order : List Nat}
    (hUnused : s.usingTracker = none) (hApart : EndpointsApart trackers)
    (hOrder : order.Perm (s.created trackers)) :
    (s.setTrackers groupCount trackers order).Paired := by
  obtain ⟨hCurrent, hTrying⟩ := Option.or_eq_none_iff.mp hUnused
  obtain ⟨hDistinct, hPerm⟩ := clientMap_entries hApart s.heap.length
  have hClient : ∀ client ∈ order, ∃ index, client = s.heap.length + index ∧ index < trackers.length := by
    intro client hMem
    have hRange := hOrder.mem_iff.mp hMem
    simp only [created, List.mem_range'_1] at hRange
    exact ⟨client - s.heap.length, by omega, by omega⟩
  unfold setTrackers
  rw [hUnused]
  refine ⟨?_, ?_, ?_, ?_, Or.inl rfl, fun _ => rfl⟩
  · intro client hMem
    obtain ⟨index, rfl, hIndex⟩ := hClient client hMem
    have hHeap : (s.heap ++ newClients groupCount trackers)[s.heap.length + index]? =
        some ⟨trackers[index], groupCount⟩ := by
      rw [List.getElem?_append_right (by omega)]
      simp [newClients, hIndex]
    refine ⟨⟨_, hHeap, ?_, hMem⟩, trackers[index], List.getElem_mem hIndex, ?_⟩
    · apply (find?_eq_some (fun _ _ => SocketAddr.equivalent_iff.mp) hDistinct).mpr
      apply hPerm.mem_iff.mpr
      apply List.mem_map.mpr
      refine ⟨(trackers[index], s.heap.length + index), ?_, rfl⟩
      apply List.mk_mem_zipIdx_iff_le_and_getElem?_sub.mpr
      simp [hIndex]
    · unfold infoOf
      rw [hHeap]
      rfl
  · intro entry hEntry
    obtain ⟨pair, hPair, rfl⟩ := List.mem_map.mp (hPerm.mem_iff.mp hEntry)
    apply hOrder.mem_iff.mpr
    have hBounds := List.mem_zipIdx hPair
    simp only [created, List.mem_range'_1]
    omega
  · intro client hSome
    cases hCurrent.symm.trans hSome
  · intro client hSome
    cases hTrying.symm.trans hSome

theorem paired_stop (h : s.Paired) (hUnused : s.isRunning = true → s.usingTracker = none) :
    s.stop.Paired := by
  unfold stop
  split
  · exact h
  · rename_i hRunning
    obtain ⟨hCurrent, hTrying⟩ := Option.or_eq_none_iff.mp (hUnused (by simpa using hRunning))
    have hLast := h.untried hTrying
    refine ⟨nofun, nofun, ?_, ?_, Or.inl hLast, fun _ => hLast⟩
    · intro client hSome
      cases hCurrent.symm.trans hSome
    · intro client hSome
      cases hTrying.symm.trans hSome

/-- Each call that replaces only unused clients keeps the pairs. -/
theorem Paired.next (h : s.Paired) {a : StationAction} {t : TrackerStation}
    (hUnused : s.ReplacesUnused a) (hStep : Step s a t) : t.Paired := by
  unfold Step at hStep
  cases a with
  | start =>
    cases hStep
    exact ⟨h.listed, h.mapped, h.current, h.trying, h.pointsInto, h.untried⟩
  | stop =>
    cases hStep
    exact paired_stop h hUnused.2
  | setTrackers groupCount trackers order =>
    obtain ⟨hOrder, hSome⟩ := Option.ite_none_right_eq_some.mp hStep
    cases hSome
    exact paired_setTrackers (hUnused.2 trivial) hUnused.1 hOrder
  | doReport noResources transactionId =>
    obtain ⟨answer, hSome, hPaired, -⟩ := h.doReport noResources transactionId
    rw [TrackerStation.next, hSome, Option.map_some, Option.some.injEq] at hStep
    exact hStep ▸ hPaired
  | onReportResponsePacket packet =>
    cases hStep
    exact h.onReportResponsePacket packet

/-- A client in use that is replaced is in use still and in no map. -/
theorem Paired.not_hears (h : s.Paired) {a : StationAction} {t : TrackerStation} {client : Nat}
    (hStep : Step s a t) (hReplaces : s.Replaces a) (hUsing : s.usingTracker = some client) :
    ¬ t.Hears := by
  obtain ⟨⟨tracker, hHeap, -⟩, -⟩ := h.listed client (h.used hUsing)
  have hOld := (List.getElem?_eq_some_iff.mp hHeap).1
  intro hHears
  unfold Step at hStep
  cases a with
  | stop =>
    cases hStep
    have hRunning : s.isRunning = true := hReplaces
    have hStop : s.stop = { s.clearAllClient with isRunning := false } := by
      unfold stop
      rw [hRunning]
      rfl
    rw [hStop] at hHears
    obtain ⟨-, -, -, hMem⟩ := hHears.stored client hUsing
    cases hMem
  | setTrackers groupCount trackers order =>
    obtain ⟨hOrder, hSome⟩ := Option.ite_none_right_eq_some.mp hStep
    cases hSome
    have hStill : (s.setTrackers groupCount trackers order).usingTracker = some client := by
      unfold setTrackers
      rw [hUsing]
      dsimp only
      split <;> exact hUsing
    obtain ⟨-, -, -, hMem⟩ := hHears.stored client hStill
    have hRange := hOrder.mem_iff.mp hMem
    simp only [created, List.mem_range'_1] at hRange
    omega
  | start => cases hReplaces
  | doReport noResources transactionId => cases hReplaces
  | onReportResponsePacket packet => cases hReplaces

/-- From its first list on, a station whose clients are replaced only while none is in use
hears all answers, and it stops to hear with the first call that replaces one in use. -/
theorem hears_of_run {groupCount : Nat} {trackers : List TrackerInfo} {order : List Nat}
    (hOrder : order.Perm (create.created trackers)) (hApart : EndpointsApart trackers)
    (run : Reaches Step ReplacesUnused (create.setTrackers groupCount trackers order) s) :
    s.Hears ∧ ∀ a t, Step s a t → EndpointsApart a.trackers →
      (t.Hears ↔ (s.Replaces a → s.usingTracker = none)) := by
  have hPaired : s.Paired := by
    apply run.invariant (P := Paired) (paired_setTrackers rfl hApart hOrder)
    intro x a y hx hUnused hStep
    exact hx.next hUnused hStep
  refine ⟨hPaired.hears, ?_⟩
  intro a t hStep hEndpoints
  constructor
  · intro hHears hReplaces
    cases hUsing : s.usingTracker with
    | none => rfl
    | some client => exact absurd hHears (hPaired.not_hears hStep hReplaces hUsing)
  · intro hUnused
    exact (hPaired.next ⟨hEndpoints, hUnused⟩ hStep).hears

section Samples

/-- A tracker at a port. -/
def atPort (port : UInt16) : TrackerInfo := ⟨0, 0, ⟨1, port⟩, 0, false⟩

instance (trackers : List TrackerInfo) : Decidable (EndpointsApart trackers) := by
  unfold EndpointsApart
  infer_instance

instance (s : TrackerStation) (a : StationAction) : Decidable (s.Replaces a) := by
  cases a <;> (unfold Replaces; infer_instance)

instance (s : TrackerStation) (a : StationAction) : Decidable (s.ReplacesUnused a) := by
  unfold ReplacesUnused
  infer_instance

/-- A station of two trackers that reports to the second, hears it and reports again. -/
theorem hears_of_twoTrackers : ∃ s : TrackerStation, (s.Hears ∧ ∀ a t, Step s a t →
    EndpointsApart a.trackers → (t.Hears ↔ (s.Replaces a → s.usingTracker = none))) ∧
      s.currentReportTracker = some 1 := by
  obtain ⟨s, run, hTest⟩ := Reaches.exists_of_checked next
    (fun s a => decide (s.ReplacesUnused a))
    (create.setTrackers 1 [atPort 1, atPort 2] [1, 0])
    [.start, .doReport false 7, .onReportResponsePacket ⟨⟨1, 2⟩, 7, 0⟩, .doReport false 8]
    (fun s => decide (s.currentReportTracker = some 1)) (by decide +kernel)
  have hRun : Reaches Step ReplacesUnused (create.setTrackers 1 [atPort 1, atPort 2] [1, 0]) s :=
    run.mono fun _ _ hMet => of_decide_eq_true hMet
  exact ⟨s, hears_of_run (by decide +kernel) (by decide +kernel) hRun, of_decide_eq_true hTest⟩

/-- A list that keeps the tracker in use makes the next report come from an object that the
answer does not reach; a list that drops it leaves reports going there. -/
theorem hears_fails :
    (∃ s, Reaches Step (fun _ _ => True) (create.setTrackers 1 [atPort 1] [0]) s ∧
      s.usingTracker = some 0 ∧ s.trackerClientMap.find? ⟨1, 1⟩ = some 1 ∧
        (s.doReport false 8).map Prod.snd = some (some 0) ∧
          (s.onReportResponsePacket ⟨⟨1, 1⟩, 8, 0⟩).2 = some 1 ∧ ¬ s.Hears) ∧
    (∃ s, Reaches Step (fun _ _ => True) (create.setTrackers 1 [atPort 1] [0]) s ∧
      s.latest = [atPort 2] ∧ (s.doReport false 8).map Prod.snd = some (some 0) ∧
        s.infoOf 0 = some (atPort 1)) := by
  constructor
  · obtain ⟨s, run, hTest⟩ := Reaches.exists_of_checked next (fun _ _ => true)
      (create.setTrackers 1 [atPort 1] [0])
      [.start, .doReport false 7, .onReportResponsePacket ⟨⟨1, 1⟩, 7, 0⟩,
        .setTrackers 1 [atPort 1] [1]]
      (fun s => decide (s.usingTracker = some 0 ∧ s.trackerClientMap.find? ⟨1, 1⟩ = some 1 ∧
        (s.doReport false 8).map Prod.snd = some (some 0) ∧
          (s.onReportResponsePacket ⟨⟨1, 1⟩, 8, 0⟩).2 = some 1 ∧ s.trackerClientList = [1]))
      (by decide +kernel)
    obtain ⟨hUsing, hFind, hReport, hResponse, hList⟩ := of_decide_eq_true hTest
    refine ⟨s, run.mono fun _ _ _ => trivial, hUsing, hFind, hReport, hResponse, ?_⟩
    intro hHears
    obtain ⟨-, -, -, hMem⟩ := hHears.stored 0 hUsing
    simp [hList] at hMem
  · obtain ⟨s, run, hTest⟩ := Reaches.exists_of_checked next (fun _ _ => true)
      (create.setTrackers 1 [atPort 1] [0])
      [.start, .doReport false 7, .onReportResponsePacket ⟨⟨1, 1⟩, 7, 0⟩,
        .setTrackers 1 [atPort 2] [1]]
      (fun s => decide (s.latest = [atPort 2] ∧
        (s.doReport false 8).map Prod.snd = some (some 0) ∧ s.infoOf 0 = some (atPort 1)))
      (by decide +kernel)
    exact ⟨s, run.mono fun _ _ _ => trivial, of_decide_eq_true hTest⟩

end Samples

end TrackerStation

end Tracker
