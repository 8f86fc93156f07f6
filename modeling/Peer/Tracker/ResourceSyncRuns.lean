import Mathlib.Data.Finset.Card
import Mathlib.Data.Finset.SymmDiff
import Peer.Tracker.ResourceSync

/-! The client believes the tracker to have its synchronised resources. Where its own
resources are as it believes, the tracker has them so and no update is on its way, as long
as a change that takes back an update sent before waits for its confirmation. -/
namespace Tracker

open Basis

universe u

variable {α : Type u} [LinearOrder α]

/-- The resources of a list of updates. -/
def touched (updates : List (ReportResource α)) : List α :=
  updates.map ReportResource.resourceId

section Updates

variable {x : α} {updates : List (ReportResource α)} {set : SortedSet α}

/-- Updates that say of each resource whether it has a property. -/
theorem mem_applyUpdates {V : α → Prop}
    (hValue : ∀ update ∈ updates, (update.isAdd = true ↔ V update.resourceId)) :
    x ∈ applyUpdates updates set ↔ x ∈ touched updates ∧ V x ∨ x ∉ touched updates ∧ x ∈ set := by
  unfold applyUpdates touched
  induction updates generalizing set with
  | nil => simp
  | cons update rest ih =>
      rw [List.foldl_cons, ih fun other hMem => hValue other (List.mem_cons_of_mem _ hMem)]
      have hHead := hValue update List.mem_cons_self
      rw [List.map_cons, List.mem_cons]
      by_cases hRest : x ∈ rest.map ReportResource.resourceId
      · simp [hRest]
      · by_cases hSame : x = update.resourceId
        · subst hSame
          unfold applyUpdate
          cases hAdd : update.isAdd <;> simp [hRest, hAdd] at hHead ⊢ <;> exact hHead
        · unfold applyUpdate
          cases update.isAdd <;> simp [hRest, hSame]

variable {room : Nat} {reals servers : List α}

/-- An update is about a resource of one of the sets, and adds those of the real ones. -/
theorem mem_mergeUpdates (hReals : reals.Pairwise (· < ·)) (hServers : servers.Pairwise (· < ·))
    {update : ReportResource α} (hMem : update ∈ mergeUpdates room reals servers) :
    (update.isAdd = true ↔ update.resourceId ∈ reals) ∧
      (update.resourceId ∈ reals ↔ update.resourceId ∉ servers) := by
  fun_induction mergeUpdates room reals servers with
  | case1 => cases hMem
  | case2 => cases hMem
  | case3 room real reals ih =>
      obtain ⟨hFirst, hRest⟩ := List.pairwise_cons.mp hReals
      obtain rfl | hTail := List.mem_cons.mp hMem
      · simp
      · have hOther := ih hRest hServers hTail
        grind
  | case4 room server servers ih =>
      obtain ⟨hFirst, hRest⟩ := List.pairwise_cons.mp hServers
      obtain rfl | hTail := List.mem_cons.mp hMem
      · simp
      · have hOther := ih hReals hRest hTail
        grind
  | case5 room real reals server servers hLess ih =>
      obtain ⟨hFirst, hRest⟩ := List.pairwise_cons.mp hReals
      have hAbove := (List.pairwise_cons.mp hServers).1
      obtain rfl | hTail := List.mem_cons.mp hMem
      · grind
      · have hOther := ih hRest hServers hTail
        grind
  | case6 room real reals server servers hNot hLess ih =>
      obtain ⟨hFirst, hRest⟩ := List.pairwise_cons.mp hServers
      have hAbove := (List.pairwise_cons.mp hReals).1
      obtain rfl | hTail := List.mem_cons.mp hMem
      · grind
      · have hOther := ih hReals hRest hTail
        grind
  | case7 room real reals server servers hNot hNot' ih =>
      obtain rfl : real = server := le_antisymm (not_lt.mp hNot') (not_lt.mp hNot)
      obtain ⟨hFirst, hRest⟩ := List.pairwise_cons.mp hReals
      obtain ⟨hFirst', hRest'⟩ := List.pairwise_cons.mp hServers
      have hOther := ih hRest hRest' hMem
      grind

theorem mem_of_touched (hReals : reals.Pairwise (· < ·)) (hServers : servers.Pairwise (· < ·))
    (hMem : x ∈ touched (mergeUpdates room reals servers)) : x ∈ reals ↔ x ∉ servers := by
  obtain ⟨update, hUpdate, rfl⟩ := List.mem_map.mp hMem
  exact (mem_mergeUpdates hReals hServers hUpdate).2

/-- The updates are in the order of their resources. -/
theorem touched_mergeUpdates_sorted (hReals : reals.Pairwise (· < ·))
    (hServers : servers.Pairwise (· < ·)) :
    (touched (mergeUpdates room reals servers)).Pairwise (· < ·) := by
  fun_induction mergeUpdates room reals servers with
  | case1 => exact List.Pairwise.nil
  | case2 => exact List.Pairwise.nil
  | case3 room real reals ih =>
      obtain ⟨hFirst, hRest⟩ := List.pairwise_cons.mp hReals
      refine List.pairwise_cons.mpr ⟨fun x hMem => ?_, ih hRest hServers⟩
      have hOne := mem_of_touched hRest hServers hMem
      grind
  | case4 room server servers ih =>
      obtain ⟨hFirst, hRest⟩ := List.pairwise_cons.mp hServers
      refine List.pairwise_cons.mpr ⟨fun x hMem => ?_, ih hReals hRest⟩
      have hOne := mem_of_touched hReals hRest hMem
      grind
  | case5 room real reals server servers hLess ih =>
      obtain ⟨hFirst, hRest⟩ := List.pairwise_cons.mp hReals
      have hAbove := (List.pairwise_cons.mp hServers).1
      refine List.pairwise_cons.mpr ⟨fun x hMem => ?_, ih hRest hServers⟩
      have hOne := mem_of_touched hRest hServers hMem
      grind
  | case6 room real reals server servers hNot hLess ih =>
      obtain ⟨hFirst, hRest⟩ := List.pairwise_cons.mp hServers
      have hAbove := (List.pairwise_cons.mp hReals).1
      refine List.pairwise_cons.mpr ⟨fun x hMem => ?_, ih hReals hRest⟩
      have hOne := mem_of_touched hReals hRest hMem
      grind
  | case7 room real reals server servers hNot hNot' ih =>
      exact ih (List.pairwise_cons.mp hReals).2 (List.pairwise_cons.mp hServers).2

/-- Fewer updates than there is room for are all. -/
theorem touched_of_room (hLength : (mergeUpdates room reals servers).length < room)
    (hApart : x ∈ reals ↔ x ∉ servers) : x ∈ touched (mergeUpdates room reals servers) := by
  fun_induction mergeUpdates room reals servers with
  | case1 => simp at hLength
  | case2 => simp at hApart
  | case3 room real reals ih =>
      rw [List.length_cons, Nat.add_lt_add_iff_right] at hLength
      have hTail := ih hLength
      simp only [touched, List.map_cons, List.mem_cons] at hTail ⊢
      grind
  | case4 room server servers ih =>
      rw [List.length_cons, Nat.add_lt_add_iff_right] at hLength
      have hTail := ih hLength
      simp only [touched, List.map_cons, List.mem_cons] at hTail ⊢
      grind
  | case5 room real reals server servers hLess ih =>
      rw [List.length_cons, Nat.add_lt_add_iff_right] at hLength
      have hTail := ih hLength
      simp only [touched, List.map_cons, List.mem_cons] at hTail ⊢
      grind
  | case6 room real reals server servers hNot hLess ih =>
      rw [List.length_cons, Nat.add_lt_add_iff_right] at hLength
      have hTail := ih hLength
      simp only [touched, List.map_cons, List.mem_cons] at hTail ⊢
      grind
  | case7 room real reals server servers hNot hNot' ih =>
      obtain rfl : real = server := le_antisymm (not_lt.mp hNot') (not_lt.mp hNot)
      apply ih hLength
      grind

end Updates

/-- What the client takes the tracker to have when it submits. -/
def SyncClient.believed (client : SyncClient α) : SortedSet α :=
  if client.lastResponseRidCount = 0 then ∅ else client.localResources

namespace SyncNet

/-- The tracker has the resource as the client believes, and no update of it is on its way. -/
def Settled (s : SyncNet α) (x : α) : Prop :=
  (x ∈ s.tracker ↔ x ∈ s.client.believed) ∧
    ∀ request ∈ s.requests, x ∉ touched request.updates

/-- Wherever the resources are as believed they are settled. -/
def AllSettled (s : SyncNet α) : Prop :=
  ∀ x, (x ∈ s.resources ↔ x ∈ s.client.believed) → s.Settled x

/-- The last report was about the resource, and it or its answer is on its way. -/
def Awaited (s : SyncNet α) (x : α) : Prop :=
  x ∈ touched s.client.lastUpdates ∧
    ((∃ request ∈ s.requests, request.transactionId = s.client.lastTransactionId) ∨
      ∃ answer ∈ s.answers, answer.transactionId = s.client.lastTransactionId)

/-- No resource that is as believed waits for a confirmation. -/
def NoneAwaited (s : SyncNet α) : Prop :=
  ∀ x, (x ∈ s.resources ↔ x ∈ s.client.believed) → s.Awaited x → s.Settled x

/-- A change that brings a resource back to what the client believes of it finds it settled
or its confirmation awaited; a confirmation awaited for such a resource is neither lost
nor made void by a new transaction. -/
def AwaitsConfirmation (s : SyncNet α) : SyncAction α → Prop
  | .changeResources now => ∀ x, (x ∈ now ↔ x ∈ s.client.believed) →
      (x ∈ s.resources ↔ x ∉ s.client.believed) → s.Settled x ∨ s.Awaited x
  | .doSubmit _ => s.NoneAwaited
  | .doList forOtherKind _ => forOtherKind = false → s.NoneAwaited
  | .loseRequest index => (∃ request, s.requests[index]? = some request ∧
      request.transactionId = s.client.lastTransactionId) → s.NoneAwaited
  | .loseAnswer index => (∃ answer, s.answers[index]? = some answer ∧
      answer.transactionId = s.client.lastTransactionId) → s.NoneAwaited
  | .deliverRequest => True
  | .deliverAnswer => True

/-- The invariant. Updates on their way say the opposite of what is believed; the last
count is that of a set that the tracker has left for good where it differs. -/
structure Consistent (s : SyncNet α) : Prop where
  settled : ∀ x, (x ∈ s.resources ↔ x ∈ s.client.believed) → s.Settled x ∨ s.Awaited x
  opposite : ∀ request ∈ s.requests, ∀ update ∈ request.updates,
    (update.isAdd = true ↔ update.resourceId ∉ s.client.believed)
  counted : s.client.lastResponseRidCount ≠ 0 →
    ∃ past : SortedSet α, past.card = s.client.lastResponseRidCount ∧
      ∀ x, (x ∈ s.tracker ↔ x ∈ s.client.believed) → (x ∈ past ↔ x ∈ s.client.believed)
  newestLast : s.requests.Pairwise fun request _ =>
    request.transactionId ≠ s.client.lastTransactionId
  requested : ∀ request ∈ s.requests, request.transactionId = s.client.lastTransactionId →
    request.updates = s.client.lastUpdates
  answered : ∀ answer ∈ s.answers, answer.transactionId = s.client.lastTransactionId →
    s.requests = [] ∧ answer.resourceCount = s.tracker.card ∧
      ∀ update ∈ s.client.lastUpdates, (update.isAdd = true ↔ update.resourceId ∈ s.tracker)
  restarted : s.client.lastResponseRidCount = 0 →
    s.client.localResources = ∅ ∨ s.tracker = ∅ ∧ s.requests = []

variable {s : SyncNet α}

theorem believed_of_ne (h : s.client.lastResponseRidCount ≠ 0) :
    s.client.believed = s.client.localResources := by
  unfold SyncClient.believed
  rw [if_neg h]

theorem believed_of_zero (h : s.client.lastResponseRidCount = 0) : s.client.believed = ∅ := by
  unfold SyncClient.believed
  rw [if_pos h]

theorem consistent_create (now : SortedSet α) : (create now).Consistent where
  settled x _ := by
    refine Or.inl ⟨?_, nofun⟩
    rw [believed_of_zero rfl]
    exact Iff.rfl
  opposite := nofun
  counted h := absurd rfl h
  newestLast := List.Pairwise.nil
  requested := nofun
  answered := nofun
  restarted _ := Or.inl rfl

theorem Consistent.allSettled (h : s.Consistent) (hNone : s.NoneAwaited) : s.AllSettled :=
  fun x hSame => (h.settled x hSame).elim id (hNone x hSame)

/-- Where the resources are as believed, the tracker has exactly them. -/
theorem AllSettled.tracker_eq (h : s.AllSettled) (hSame : s.resources = s.client.believed) :
    s.tracker = s.resources := by
  apply SortedSet.ext
  intro x
  rw [hSame]
  exact (h x (by rw [hSame])).1

/-- The count is that of the believed set then. -/
theorem Consistent.count_eq (h : s.Consistent) (hSettled : s.AllSettled)
    (hSame : s.resources = s.client.believed) :
    s.client.lastResponseRidCount = s.client.believed.card := by
  by_cases hZero : s.client.lastResponseRidCount = 0
  · rw [hZero, believed_of_zero hZero]
    rfl
  · obtain ⟨past, hCard, hPast⟩ := h.counted hZero
    have hEq : past = s.client.believed := by
      apply SortedSet.ext
      intro x
      apply hPast
      rw [hSettled.tracker_eq hSame, hSame]
    rw [← hCard, hEq]

/-- The updates of the next report. -/
def nextUpdates (s : SyncNet α) : List (ReportResource α) :=
  mergeUpdates maxReportRidCount s.resources.elements s.client.believed.elements

/-- The state after a report is sent. -/
def reported (s : SyncNet α) (transactionId : Nat) : SyncNet α :=
  { s with
    client :=
      { localResources := s.client.believed
        lastResponseRidCount := s.client.lastResponseRidCount
        lastTransactionId := transactionId
        lastUpdates := s.nextUpdates
        isSync := decide (s.resources = s.client.believed) }
    requests := s.requests ++ [⟨transactionId, s.nextUpdates⟩] }

theorem forgetRestarted_eq (client : SyncClient α) :
    client.forgetRestarted = { client with localResources := client.believed } := by
  unfold SyncClient.believed SyncClient.forgetRestarted
  split <;> rfl

/-- A consistent client always sends a report, never starts again from nothing, and takes
itself for synchronised if its resources are as it believes. -/
theorem Consistent.submit_eq (h : s.Consistent) (hSettled : s.AllSettled)
    (seventyPercent : Nat → Nat) (transactionId : Nat) : s.submit seventyPercent transactionId = s.reported transactionId := by
  unfold submit SyncClient.doSubmit
  rw [forgetRestarted_eq]
  dsimp only
  by_cases hSame : s.resources = s.client.believed
  · have hCard := h.count_eq hSettled hSame
    rw [if_neg (by simp [hSame]), if_neg (by omega), if_pos hCard]
    simp [reported, nextUpdates, SyncClient.doReport, hSame]
  · rw [if_pos (Or.inr hSame)]
    simp [reported, nextUpdates, SyncClient.doReport, hSame]

theorem believed_reported (transactionId : Nat) :
    (s.reported transactionId).client.believed = s.client.believed := by
  by_cases hZero : s.client.lastResponseRidCount = 0
  · rw [believed_of_zero hZero]
    exact believed_of_zero (s := s.reported transactionId) hZero
  · exact believed_of_ne (s := s.reported transactionId) hZero

theorem mem_nextUpdates {update : ReportResource α} (hMem : update ∈ s.nextUpdates) :
    (update.isAdd = true ↔ update.resourceId ∈ s.resources) ∧
      (update.resourceId ∈ s.resources ↔ update.resourceId ∉ s.client.believed) :=
  mem_mergeUpdates s.resources.sorted s.client.believed.sorted hMem

theorem mem_touched_nextUpdates {x : α} (hMem : x ∈ touched s.nextUpdates) :
    x ∈ s.resources ↔ x ∉ s.client.believed :=
  mem_of_touched s.resources.sorted s.client.believed.sorted hMem

theorem AllSettled.reported (h : s.AllSettled) (transactionId : Nat) :
    (s.reported transactionId).AllSettled := by
  intro x hSame
  rw [believed_reported] at hSame
  have hSettled := h x hSame
  refine ⟨?_, ?_⟩
  · rw [believed_reported]
    exact hSettled.1
  · intro request hMem hTouched
    obtain hOld | hNew := List.mem_append.mp hMem
    · exact hSettled.2 request hOld hTouched
    · obtain rfl := List.mem_singleton.mp hNew
      have hApart := mem_touched_nextUpdates hTouched
      have hSame' : x ∈ s.resources ↔ x ∈ s.client.believed := hSame
      rw [hSame'] at hApart
      exact iff_not_self hApart

theorem Consistent.reported (h : s.Consistent) (hSettled : s.AllSettled) {transactionId : Nat}
    (hFresh : s.Fresh transactionId) : (s.reported transactionId).Consistent where
  settled x hSame := Or.inl (hSettled.reported transactionId x hSame)
  opposite request hMem update hUpdate := by
    rw [believed_reported]
    obtain hOld | hNew := List.mem_append.mp hMem
    · exact h.opposite request hOld update hUpdate
    · obtain rfl := List.mem_singleton.mp hNew
      obtain ⟨hAdd, hApart⟩ := mem_nextUpdates hUpdate
      exact hAdd.trans hApart
  counted hNe := by
    rw [believed_reported]
    exact h.counted hNe
  newestLast := by
    apply List.pairwise_append.mpr
    refine ⟨List.Pairwise.imp_of_mem (fun hMem _ _ => hFresh.1 _ hMem) h.newestLast,
      List.pairwise_singleton _ _, ?_⟩
    intro request hMem _ _
    exact hFresh.1 request hMem
  requested request hMem hSame := by
    obtain hOld | hNew := List.mem_append.mp hMem
    · exact absurd hSame (hFresh.1 request hOld)
    · obtain rfl := List.mem_singleton.mp hNew
      rfl
  answered answer hMem hSame := absurd hSame (hFresh.2 answer hMem)
  restarted hZero := Or.inl (believed_of_zero (s := s) hZero)

/-- A new transaction of another packet. -/
theorem Consistent.renumber (h : s.Consistent) (hSettled : s.AllSettled) {transactionId : Nat}
    (hFresh : s.Fresh transactionId) : Consistent
      { s with client := { s.client with lastTransactionId := transactionId } } where
  settled x hSame := Or.inl (hSettled x hSame)
  opposite := h.opposite
  counted := h.counted
  newestLast := List.Pairwise.imp_of_mem (fun hMem _ _ => hFresh.1 _ hMem) h.newestLast
  requested request hMem hSame := absurd hSame (hFresh.1 request hMem)
  answered answer hMem hSame := absurd hSame (hFresh.2 answer hMem)
  restarted := h.restarted

/-- Losing packets of which none is about the last transaction, or while all is settled. -/
theorem Consistent.lose (h : s.Consistent) {requests : List (ReportRequest α)}
    {answers : List ReportAnswer} (hRequests : requests.Sublist s.requests)
    (hAnswers : answers.Sublist s.answers)
    (hKeeps : s.AllSettled ∨
      (∀ request ∈ s.requests, request.transactionId = s.client.lastTransactionId →
        request ∈ requests) ∧
      ∀ answer ∈ s.answers, answer.transactionId = s.client.lastTransactionId →
        answer ∈ answers) :
    Consistent { s with requests := requests, answers := answers } where
  settled x hSame := by
    have hSettled : s.Settled x → Settled { s with requests := requests, answers := answers } x :=
      fun hOld => ⟨hOld.1, fun request hMem => hOld.2 request (hRequests.mem hMem)⟩
    obtain hAll | ⟨hKeepsRequest, hKeepsAnswer⟩ := hKeeps
    · exact Or.inl (hSettled (hAll x hSame))
    · obtain hOld | ⟨hTouched, ⟨request, hMem, hLast⟩ | ⟨answer, hMem, hLast⟩⟩ := h.settled x hSame
      · exact Or.inl (hSettled hOld)
      · exact Or.inr ⟨hTouched, Or.inl ⟨request, hKeepsRequest request hMem hLast, hLast⟩⟩
      · exact Or.inr ⟨hTouched, Or.inr ⟨answer, hKeepsAnswer answer hMem hLast, hLast⟩⟩
  opposite request hMem := h.opposite request (hRequests.mem hMem)
  counted := h.counted
  newestLast := h.newestLast.sublist hRequests
  requested request hMem := h.requested request (hRequests.mem hMem)
  answered answer hMem hSame := by
    obtain ⟨hNone, hRest⟩ := h.answered answer (hAnswers.mem hMem) hSame
    rw [hNone] at hRequests
    exact ⟨List.sublist_nil.mp hRequests, hRest⟩
  restarted hZero := by
    obtain hEmpty | ⟨hTracker, hNone⟩ := h.restarted hZero
    · exact Or.inl hEmpty
    · rw [hNone] at hRequests
      exact Or.inr ⟨hTracker, List.sublist_nil.mp hRequests⟩

theorem Settled.deliverRequest {x : α} (h : s.Settled x) {request : ReportRequest α}
    {rest : List (ReportRequest α)} (hRequests : s.requests = request :: rest)
    (hOpposite : ∀ update ∈ request.updates,
      (update.isAdd = true ↔ update.resourceId ∉ s.client.believed)) :
    Settled { s with
      tracker := applyUpdates request.updates s.tracker
      requests := rest
      answers := s.answers ++
        [⟨request.transactionId, (applyUpdates request.updates s.tracker).card⟩] } x := by
  have hHead := h.2 request (by simp [hRequests])
  refine ⟨?_, fun other hOther => h.2 other ?_⟩
  · show x ∈ applyUpdates request.updates s.tracker ↔ x ∈ s.client.believed
    rw [mem_applyUpdates (V := (· ∉ s.client.believed)) hOpposite]
    simpa [hHead] using h.1
  · rw [hRequests]
    exact List.mem_cons_of_mem _ hOther

/-- Settled resources stay settled when a request of a consistent client arrives. -/
theorem Consistent.allSettled_deliverRequest (h : s.Consistent) (hSettled : s.AllSettled) :
    s.deliverRequest.AllSettled := by
  unfold SyncNet.deliverRequest
  cases hRequests : s.requests with
  | nil => exact hSettled
  | cons request rest =>
      intro x hSame
      exact (hSettled x hSame).deliverRequest hRequests (h.opposite request (by simp [hRequests]))

theorem Consistent.deliverRequest (h : s.Consistent) : s.deliverRequest.Consistent := by
  unfold SyncNet.deliverRequest
  cases hRequests : s.requests with
  | nil => exact h
  | cons request rest =>
      have hOpposite := h.opposite request (by simp [hRequests])
      have hMem : ∀ x, x ∈ applyUpdates request.updates s.tracker ↔
          x ∈ touched request.updates ∧ x ∉ s.client.believed ∨
            x ∉ touched request.updates ∧ x ∈ s.tracker :=
        fun x => mem_applyUpdates (V := (· ∉ s.client.believed)) hOpposite
      have hOrder : (request :: rest).Pairwise fun request _ =>
          request.transactionId ≠ s.client.lastTransactionId := hRequests ▸ h.newestLast
      have hRest : ∀ other ∈ rest, other ∈ s.requests := by
        intro other hOther
        rw [hRequests]
        exact List.mem_cons_of_mem _ hOther
      -- a resource that is as believed afterwards was so before and is not touched
      have hBack : ∀ x, (x ∈ applyUpdates request.updates s.tracker ↔ x ∈ s.client.believed) →
          (x ∈ s.tracker ↔ x ∈ s.client.believed) := by
        intro x hSame
        rw [hMem] at hSame
        by_cases hTouched : x ∈ touched request.updates
        · simp [hTouched] at hSame
        · simpa [hTouched] using hSame
      constructor
      case settled =>
        intro x hSame
        obtain hSettled | ⟨hTouched, hAwaited⟩ := h.settled x hSame
        · exact Or.inl (hSettled.deliverRequest hRequests hOpposite)
        · refine Or.inr ⟨hTouched, ?_⟩
          obtain ⟨other, hOther, hLast⟩ | ⟨answer, hAnswer, hLast⟩ := hAwaited
          · rw [hRequests] at hOther
            obtain rfl | hOther := List.mem_cons.mp hOther
            · exact Or.inr ⟨_, List.mem_append_right _ (List.mem_singleton_self _), hLast⟩
            · exact Or.inl ⟨other, hOther, hLast⟩
          · exact Or.inr ⟨answer, List.mem_append_left _ hAnswer, hLast⟩
      case opposite => exact fun other hOther => h.opposite other (hRest other hOther)
      case counted =>
        intro hNe
        obtain ⟨past, hCard, hPast⟩ := h.counted hNe
        exact ⟨past, hCard, fun x hSame => hPast x (hBack x hSame)⟩
      case newestLast => exact (List.pairwise_cons.mp hOrder).2
      case requested => exact fun other hOther => h.requested other (hRest other hOther)
      case answered =>
        intro answer hAnswer hSame
        obtain hOld | hNew := List.mem_append.mp hAnswer
        · have hNone := (h.answered answer hOld hSame).1
          rw [hRequests] at hNone
          cases hNone
        · obtain rfl := List.mem_singleton.mp hNew
          refine ⟨?_, rfl, ?_⟩
          · apply List.eq_nil_iff_forall_not_mem.mpr
            exact fun other hOther => (List.pairwise_cons.mp hOrder).1 other hOther hSame
          · intro update hUpdate
            have hLast := h.requested request (by simp [hRequests]) hSame
            have hThis : update ∈ request.updates := hLast ▸ hUpdate
            have hTouched : update.resourceId ∈ touched request.updates :=
              List.mem_map_of_mem hThis
            show update.isAdd = true ↔
              update.resourceId ∈ applyUpdates request.updates s.tracker
            rw [hMem, hOpposite update hThis]
            simp [hTouched]
      case restarted =>
        intro hZero
        obtain hEmpty | ⟨-, hNone⟩ := h.restarted hZero
        · exact Or.inl hEmpty
        · rw [hRequests] at hNone
          cases hNone

/-- The client before it hears the answer to its last report has the believed resources,
unless the tracker is empty. -/
theorem Consistent.local_eq (h : s.Consistent) (hTracker : s.tracker ≠ ∅) :
    s.client.localResources = s.client.believed := by
  by_cases hZero : s.client.lastResponseRidCount = 0
  · obtain hEmpty | ⟨hNone, -⟩ := h.restarted hZero
    · rw [hEmpty, believed_of_zero hZero]
    · exact absurd hNone hTracker
  · exact (believed_of_ne hZero).symm

/-- A state without requests on their way, whose last count is that of the tracker. -/
theorem consistent_of_idle (hNone : s.requests = [])
    (hCount : s.client.lastResponseRidCount = s.tracker.card)
    (hSettled : ∀ x, (x ∈ s.resources ↔ x ∈ s.client.believed) →
      (x ∈ s.tracker ↔ x ∈ s.client.believed))
    (hAnswered : ∀ answer ∈ s.answers, answer.transactionId = s.client.lastTransactionId →
      answer.resourceCount = s.tracker.card ∧
        ∀ update ∈ s.client.lastUpdates, (update.isAdd = true ↔ update.resourceId ∈ s.tracker)) :
    s.Consistent where
  settled x hSame := Or.inl ⟨hSettled x hSame, by simp [hNone]⟩
  opposite := by simp [hNone]
  counted _ := ⟨s.tracker, hCount.symm, fun _ hSame => hSame⟩
  newestLast := by simp [hNone]
  requested := by simp [hNone]
  answered answer hMem hSame := ⟨hNone, hAnswered answer hMem hSame⟩
  restarted hZero := Or.inr ⟨SortedSet.eq_empty_of_card (hCount.symm.trans hZero), hNone⟩

theorem Consistent.deliverAnswer (h : s.Consistent) : s.deliverAnswer.Consistent := by
  unfold SyncNet.deliverAnswer
  cases hAnswers : s.answers with
  | nil => exact h
  | cons answer rest =>
      have hRest : rest.Sublist s.answers := hAnswers ▸ List.sublist_cons_self answer rest
      unfold SyncClient.onReportResponsePacket
      dsimp only
      split
      case isFalse hOther =>
        apply h.lose (List.Sublist.refl _) hRest
        refine Or.inr ⟨fun _ hMem _ => hMem, fun other hMem hLast => ?_⟩
        rw [hAnswers] at hMem
        obtain rfl | hMem := List.mem_cons.mp hMem
        · exact absurd hLast hOther
        · exact hMem
      case isTrue hSame =>
        obtain ⟨hNone, hCount, hValues⟩ := h.answered answer (by simp [hAnswers]) hSame
        refine consistent_of_idle hNone hCount ?_ ?_
        · intro x
          show (x ∈ s.resources ↔ x ∈ if answer.resourceCount = 0 then ∅ else
              applyUpdates s.client.lastUpdates s.client.localResources) →
            (x ∈ s.tracker ↔ x ∈ if answer.resourceCount = 0 then ∅ else
              applyUpdates s.client.lastUpdates s.client.localResources)
          rw [hCount]
          by_cases hZero : s.tracker.card = 0
          · intro _
            rw [if_pos hZero, SortedSet.eq_empty_of_card hZero]
          · rw [if_neg hZero, mem_applyUpdates hValues, h.local_eq (ne_of_apply_ne _ hZero)]
            intro hResource
            by_cases hTouched : x ∈ touched s.client.lastUpdates
            · simp [hTouched]
            · have hBelieved : x ∈ s.resources ↔ x ∈ s.client.believed := by
                simpa [hTouched] using hResource
              have hSettled := (h.settled x hBelieved).resolve_right fun hAwaited =>
                hTouched hAwaited.1
              simpa [hTouched] using hSettled.1
        · intro other hOther hLast
          exact (h.answered other (hRest.mem hOther) hLast).2

theorem mem_eraseIdx_of_ne {β : Type*} {list : List β} {index : Nat} {value : β}
    (hMem : value ∈ list) (hNe : list[index]? ≠ some value) : value ∈ list.eraseIdx index := by
  obtain ⟨other, hOther⟩ := List.mem_iff_getElem?.mp hMem
  apply List.mem_eraseIdx_iff_getElem?.mpr
  refine ⟨other, ?_, hOther⟩
  rintro rfl
  exact hNe hOther

/-- Every step that waits for confirmations keeps the client consistent. -/
theorem Consistent.next (h : s.Consistent) {seventyPercent : Nat → Nat} {a : SyncAction α}
    {t : SyncNet α} (hGuard : s.AwaitsConfirmation a) (hStep : Step seventyPercent s a t) :
    t.Consistent := by
  unfold Step at hStep
  cases a with
  | changeResources now =>
    cases hStep
    refine ⟨?_, h.opposite, h.counted, h.newestLast, h.requested, h.answered, h.restarted⟩
    intro x hSame
    by_cases hBefore : x ∈ s.resources ↔ x ∈ s.client.believed
    · exact h.settled x hBefore
    · exact hGuard x hSame (by grind)
  | doSubmit transactionId =>
    obtain ⟨hFresh, hSome⟩ := Option.ite_none_right_eq_some.mp hStep
    cases hSome
    rw [h.submit_eq (h.allSettled hGuard)]
    exact h.reported (h.allSettled hGuard) hFresh
  | doList forOtherKind transactionId =>
    obtain ⟨hFresh, hSome⟩ := Option.ite_none_right_eq_some.mp hStep
    cases hSome
    cases forOtherKind with
    | true => exact h
    | false => exact h.renumber (h.allSettled (hGuard rfl)) hFresh
  | deliverRequest =>
    cases hStep
    exact h.deliverRequest
  | deliverAnswer =>
    cases hStep
    exact h.deliverAnswer
  | loseRequest index =>
    cases hStep
    apply h.lose (List.eraseIdx_sublist _ _) (List.Sublist.refl _)
    by_cases hLost : ∃ request, s.requests[index]? = some request ∧
      request.transactionId = s.client.lastTransactionId
    · exact Or.inl (h.allSettled (hGuard hLost))
    · refine Or.inr ⟨fun request hMem hLast => ?_, fun _ hMem _ => hMem⟩
      exact mem_eraseIdx_of_ne hMem fun hThis => hLost ⟨request, hThis, hLast⟩
  | loseAnswer index =>
    cases hStep
    apply h.lose (List.Sublist.refl _) (List.eraseIdx_sublist _ _)
    by_cases hLost : ∃ answer, s.answers[index]? = some answer ∧
      answer.transactionId = s.client.lastTransactionId
    · exact Or.inl (h.allSettled (hGuard hLost))
    · refine Or.inr ⟨fun _ hMem _ => hMem, fun answer hMem hLast => ?_⟩
      exact mem_eraseIdx_of_ne hMem fun hThis => hLost ⟨answer, hThis, hLast⟩

/-- Iterating a step that is always allowed. -/
theorem reaches_iterate {seventyPercent : Nat → Nat} (a : SyncAction α) {f : SyncNet α → SyncNet α}
    (hGuard : ∀ s : SyncNet α, s.AwaitsConfirmation a)
    (hStep : ∀ s : SyncNet α, s.next seventyPercent a = some (f s)) (count : Nat) (s : SyncNet α) :
    Reaches (Step seventyPercent) AwaitsConfirmation s (f^[count] s) := by
  induction count generalizing s with
  | zero => exact Reaches.refl s
  | succ count ih =>
      rw [Function.iterate_succ_apply]
      exact Reaches.head (hGuard s) (hStep s) (ih (f s))

/-- The state of a round before its answers arrive. -/
def served (s : SyncNet α) (transactionId : Nat) : SyncNet α :=
  SyncNet.deliverRequest^[(s.reported transactionId).requests.length] (s.reported transactionId)

theorem Consistent.served (h : s.Consistent) (hSettled : s.AllSettled) {transactionId : Nat}
    (hFresh : s.Fresh transactionId) :
    (s.served transactionId).Consistent ∧ (s.served transactionId).AllSettled :=
  Function.Iterate.rec (fun t : SyncNet α => t.Consistent ∧ t.AllSettled)
    ⟨h.reported hSettled hFresh, hSettled.reported transactionId⟩
    (fun _ hState => ⟨hState.1.deliverRequest, hState.1.allSettled_deliverRequest hState.2⟩) _

/-- A round is a run of the net. -/
theorem reaches_round (seventyPercent : Nat → Nat) {transactionId : Nat}
    (hNone : s.NoneAwaited) (hFresh : s.Fresh transactionId) :
    Reaches (Step seventyPercent) AwaitsConfirmation s (s.round seventyPercent transactionId) := by
  have hSubmit : s.next seventyPercent (.doSubmit transactionId) =
      some (s.submit seventyPercent transactionId) := if_pos hFresh
  apply Reaches.head (a := .doSubmit transactionId) hNone hSubmit
  apply Reaches.trans (reaches_iterate .deliverRequest (fun _ => trivial) (fun _ => rfl) _ _)
  exact reaches_iterate .deliverAnswer (fun _ => trivial) (fun _ => rfl) _ _

/-- All requests arrive, and each is answered under its transaction. -/
theorem deliverRequest_all (s : SyncNet α) : ∃ (tracker : SortedSet α) (answers : List ReportAnswer),
    SyncNet.deliverRequest^[s.requests.length] s =
      { s with tracker := tracker, requests := [], answers := s.answers ++ answers } ∧
    answers.map ReportAnswer.transactionId = s.requests.map ReportRequest.transactionId := by
  induction hRequests : s.requests generalizing s with
  | nil =>
      refine ⟨s.tracker, [], ?_, rfl⟩
      cases s
      cases hRequests
      simp
  | cons request rest ih =>
      rw [List.length_cons, Function.iterate_succ_apply]
      have hFirst : s.deliverRequest = { s with
          tracker := applyUpdates request.updates s.tracker
          requests := rest
          answers := s.answers ++
            [⟨request.transactionId, (applyUpdates request.updates s.tracker).card⟩] } := by
        unfold SyncNet.deliverRequest
        rw [hRequests]
      obtain ⟨tracker, answers, hAll, hIds⟩ := ih s.deliverRequest (by rw [hFirst])
      refine ⟨tracker, ⟨request.transactionId, (applyUpdates request.updates s.tracker).card⟩ ::
        answers, ?_, ?_⟩
      · rw [hAll, hFirst, List.append_assoc]
        rfl
      · rw [List.map_cons, List.map_cons, hIds]

/-- All answers arrive, and only that to the last packet counts. -/
theorem deliverAnswer_all {s : SyncNet α} {others : List ReportAnswer} {answer : ReportAnswer}
    (hAnswers : s.answers = others ++ [answer])
    (hOthers : ∀ other ∈ others, other.transactionId ≠ s.client.lastTransactionId) :
    SyncNet.deliverAnswer^[s.answers.length] s =
      { s with client := s.client.onReportResponsePacket answer, answers := [] } := by
  rw [hAnswers, List.length_append, List.length_singleton]
  induction others generalizing s with
  | nil =>
      show s.deliverAnswer = _
      unfold SyncNet.deliverAnswer
      rw [hAnswers]
      rfl
  | cons other rest ih =>
      have hFirst : s.deliverAnswer = { s with answers := rest ++ [answer] } := by
        unfold SyncNet.deliverAnswer SyncClient.onReportResponsePacket
        rw [hAnswers, List.cons_append]
        dsimp only
        rw [if_neg (hOthers other List.mem_cons_self)]
      rw [List.length_cons, Nat.add_right_comm, Function.iterate_succ_apply, hFirst]
      exact ih rfl fun later hMem => hOthers later (List.mem_cons_of_mem _ hMem)

/-- What a round without losses leaves. -/
theorem Consistent.round_eq (h : s.Consistent) (hSettled : s.AllSettled) (seventyPercent : Nat → Nat) {transactionId : Nat}
    (hFresh : s.Fresh transactionId) :
    s.round seventyPercent transactionId =
      { s with
        client :=
          { localResources := applyUpdates s.nextUpdates s.client.believed
            lastResponseRidCount := (s.served transactionId).tracker.card
            lastTransactionId := transactionId
            lastUpdates := s.nextUpdates
            isSync := decide (s.resources = s.client.believed) }
        tracker := (s.served transactionId).tracker
        requests := []
        answers := [] } ∧
    (∀ update ∈ s.nextUpdates,
      (update.isAdd = true ↔ update.resourceId ∈ (s.served transactionId).tracker)) ∧
    (s.served transactionId).resources = s.resources ∧
    (s.served transactionId).client.believed = s.client.believed := by
  have hServed := (h.served hSettled hFresh).1
  obtain ⟨tracker, answers, hAll, hIds⟩ := deliverRequest_all (s.reported transactionId)
  have hState : s.served transactionId = { s.reported transactionId with
      tracker := tracker, requests := [], answers := s.answers ++ answers } := hAll
  have hMap : answers.map ReportAnswer.transactionId =
      s.requests.map ReportRequest.transactionId ++ [transactionId] := by
    rw [hIds]
    exact List.map_append
  obtain ⟨others, ends, rfl, hOthers, hEnds⟩ := List.map_eq_append_iff.mp hMap
  obtain ⟨answer, rfl, hLast⟩ := List.map_eq_singleton_iff.mp hEnds
  rw [hState] at hServed
  obtain ⟨-, hCount, hValues⟩ := hServed.answered answer (by simp) hLast
  have hEarlier : ∀ other ∈ s.answers ++ others, other.transactionId ≠ transactionId := by
    intro other hMem
    obtain hOld | hNew := List.mem_append.mp hMem
    · exact hFresh.2 other hOld
    · have hThere := List.mem_map_of_mem (f := ReportAnswer.transactionId) hNew
      rw [hOthers] at hThere
      obtain ⟨request, hRequest, hSame⟩ := List.mem_map.mp hThere
      rw [← hSame]
      exact hFresh.1 request hRequest
  refine ⟨?_, ?_, ?_, ?_⟩
  · unfold SyncNet.round
    rw [h.submit_eq hSettled]
    show SyncNet.deliverAnswer^[(s.served transactionId).answers.length] (s.served transactionId) = _
    rw [hState, deliverAnswer_all 
      (List.append_assoc _ _ _).symm hEarlier]
    have hHeard : (s.reported transactionId).client.onReportResponsePacket answer = _ := if_pos hLast
    rw [hHeard, hCount]
    rfl
  · rw [hState]
    exact hValues
  · rw [hState]
    rfl
  · rw [hState]
    exact believed_reported transactionId

/-- The resources that differ from what the client believes of the tracker. -/
def difference (s : SyncNet α) : Finset α :=
  symmDiff s.resources.toFinset s.client.believed.toFinset

theorem mem_difference {x : α} :
    x ∈ s.difference ↔ (x ∈ s.resources ↔ x ∉ s.client.believed) := by
  unfold difference
  rw [Finset.mem_symmDiff, SortedSet.mem_toFinset, SortedSet.mem_toFinset]
  grind

/-- What differs after a round differed before it and was not in its report. -/
theorem Consistent.difference_round (h : s.Consistent) (hSettled : s.AllSettled)
    (seventyPercent : Nat → Nat) {transactionId : Nat} (hFresh : s.Fresh transactionId) :
    (s.round seventyPercent transactionId).difference ⊆
      s.difference \ (touched s.nextUpdates).toFinset := by
  obtain ⟨hRound, hValues, hResources, hBelieved⟩ := h.round_eq hSettled seventyPercent hFresh
  have hServed := (h.served hSettled hFresh).2
  have hKept : ∀ x, (x ∈ s.resources ↔ x ∈ s.client.believed) →
      (x ∈ (s.served transactionId).tracker ↔ x ∈ s.client.believed) := by
    intro x hSame
    rw [← hResources, ← hBelieved] at hSame
    rw [← hBelieved]
    exact (hServed x hSame).1
  have hTouched : ∀ x ∈ touched s.nextUpdates,
      (x ∈ s.resources ↔ x ∈ (s.served transactionId).tracker) := by
    intro x hMem
    obtain ⟨update, hUpdate, rfl⟩ := List.mem_map.mp hMem
    rw [← (mem_nextUpdates hUpdate).1, hValues update hUpdate]
  have hLocal : ∀ x, x ∈ applyUpdates s.nextUpdates s.client.believed ↔
      x ∈ touched s.nextUpdates ∧ x ∈ s.resources ∨
        x ∉ touched s.nextUpdates ∧ x ∈ s.client.believed :=
    fun x => mem_applyUpdates (V := (· ∈ s.resources)) fun update hUpdate =>
      (mem_nextUpdates hUpdate).1
  intro x hMem
  rw [mem_difference, hRound] at hMem
  rw [Finset.mem_sdiff, List.mem_toFinset, mem_difference]
  have hMem' : x ∈ s.resources ↔ x ∉ if (s.served transactionId).tracker.card = 0 then ∅ else
    applyUpdates s.nextUpdates s.client.believed := hMem
  by_cases hZero : (s.served transactionId).tracker.card = 0
  · -- an empty tracker has none of the resources
    have hEmpty := SortedSet.eq_empty_of_card hZero
    have hTouch := hTouched x
    have hSettle := hKept x
    rw [if_pos hZero] at hMem'
    rw [hEmpty] at hTouch hSettle
    simp only [SortedSet.not_mem_empty, not_false_eq_true, iff_true, iff_false, false_iff]
      at hMem' hTouch hSettle
    grind
  · rw [if_neg hZero, hLocal] at hMem'
    grind

/-- A round takes a full report off the difference, or all of it. -/
theorem Consistent.card_difference_round (h : s.Consistent) (hSettled : s.AllSettled)
    (seventyPercent : Nat → Nat) {transactionId : Nat} (hFresh : s.Fresh transactionId) :
    (s.round seventyPercent transactionId).difference = ∅ ∨
      (s.round seventyPercent transactionId).difference.card + maxReportRidCount ≤
        s.difference.card := by
  have hSubset := h.difference_round hSettled seventyPercent hFresh
  by_cases hRoom : s.nextUpdates.length < maxReportRidCount
  · apply Or.inl
    apply Finset.eq_empty_of_forall_notMem
    intro x hMem
    obtain ⟨hBefore, hUntouched⟩ := Finset.mem_sdiff.mp (hSubset hMem)
    apply hUntouched
    rw [List.mem_toFinset]
    exact touched_of_room hRoom (mem_difference.mp hBefore)
  · apply Or.inr
    have hThere : (touched s.nextUpdates).toFinset ⊆ s.difference := by
      intro x hMem
      exact mem_difference.mpr (mem_touched_nextUpdates (List.mem_toFinset.mp hMem))
    have hNodup : (touched s.nextUpdates).Nodup :=
      (touched_mergeUpdates_sorted s.resources.sorted s.client.believed.sorted).imp
        fun hLess => hLess.ne
    have hCard : (touched s.nextUpdates).toFinset.card = s.nextUpdates.length := by
      rw [List.toFinset_card_of_nodup hNodup]
      exact List.length_map _
    have hLess := Finset.card_le_card hSubset
    rw [Finset.card_sdiff_of_subset hThere, hCard] at hLess
    have hAll := Finset.card_le_card hThere
    omega

/-- Client, tracker and resources agree. -/
def AllEqual (s : SyncNet α) : Prop :=
  s.tracker = s.resources ∧ s.client.localResources = s.resources

/-- A round after which nothing can differ leaves all equal. -/
theorem Consistent.allEqual_round (h : s.Consistent) (hSettled : s.AllSettled)
    (seventyPercent : Nat → Nat) {transactionId : Nat} (hFresh : s.Fresh transactionId) (hNone : s.difference = ∅) :
    (s.round seventyPercent transactionId).AllEqual := by
  obtain ⟨hRound, -, hResources, hBelieved⟩ := h.round_eq hSettled seventyPercent hFresh
  have hSame : s.resources = s.client.believed := by
    apply SortedSet.ext
    intro x
    have hNot : x ∉ s.difference := by simp [hNone]
    rw [mem_difference] at hNot
    grind
  have hUpdates : s.nextUpdates = [] := by
    apply List.eq_nil_iff_forall_not_mem.mpr
    intro update hMem
    have hApart := (mem_nextUpdates hMem).2
    rw [hSame] at hApart
    exact iff_not_self hApart
  rw [hRound]
  constructor
  · show (s.served transactionId).tracker = s.resources
    rw [← hResources]
    apply (h.served hSettled hFresh).2.tracker_eq
    rw [hResources, hBelieved, hSame]
  · show applyUpdates s.nextUpdates s.client.believed = s.resources
    rw [hUpdates, hSame]
    rfl

theorem Consistent.round (h : s.Consistent) (hNone : s.NoneAwaited) (seventyPercent : Nat → Nat)
    {transactionId : Nat} (hFresh : s.Fresh transactionId) :
    (s.round seventyPercent transactionId).Consistent :=
  (reaches_round seventyPercent hNone hFresh).invariant (P := Consistent) h
    fun _ _ _ hState hGuard hStep => hState.next hGuard hStep

/-- With nothing on its way nothing is awaited. -/
theorem noneAwaited_of_quiet (hRequests : s.requests = []) (hAnswers : s.answers = []) :
    s.NoneAwaited := by
  rintro x - ⟨-, ⟨request, hMem, -⟩ | ⟨answer, hMem, -⟩⟩
  · simp [hRequests] at hMem
  · simp [hAnswers] at hMem

/-- Rounds without losses, one after the other. -/
def rounds (seventyPercent : Nat → Nat) (s : SyncNet α) (transactionIds : List Nat) : SyncNet α :=
  transactionIds.foldl (fun t transactionId => t.round seventyPercent transactionId) s

/-- One round more than the full reports that the difference fills makes all equal. -/
theorem Consistent.allEqual_rounds (h : s.Consistent) (hNone : s.NoneAwaited)
    (seventyPercent : Nat → Nat) {first : Nat} {rest : List Nat} (hFresh : s.Fresh first)
    (hEnough : s.difference.card ≤ maxReportRidCount * rest.length) :
    (rounds seventyPercent s (first :: rest)).AllEqual ∧
      (rounds seventyPercent s (first :: rest)).resources = s.resources := by
  induction rest generalizing s first with
  | nil =>
      refine ⟨h.allEqual_round (h.allSettled hNone) seventyPercent hFresh ?_, ?_⟩
      · exact Finset.card_eq_zero.mp (Nat.le_zero.mp hEnough)
      · show (s.round seventyPercent first).resources = s.resources
        rw [(h.round_eq (h.allSettled hNone) seventyPercent hFresh).1]
  | cons second rest ih =>
      have hRound := (h.round_eq (h.allSettled hNone) seventyPercent hFresh).1
      have hQuiet : (s.round seventyPercent first).Fresh second := by
        rw [hRound]
        exact ⟨nofun, nofun⟩
      have hNext : (s.round seventyPercent first).NoneAwaited := by
        rw [hRound]
        exact noneAwaited_of_quiet rfl rfl
      have hLess : (s.round seventyPercent first).difference.card ≤
          maxReportRidCount * rest.length := by
        obtain hNothing | hFewer := h.card_difference_round (h.allSettled hNone) seventyPercent hFresh
        · rw [hNothing, Finset.card_empty]
          exact Nat.zero_le _
        · rw [List.length_cons, Nat.mul_succ] at hEnough
          omega
      obtain ⟨hAll, hSame⟩ := ih (h.round hNone seventyPercent hFresh) hNext hQuiet hLess
      refine ⟨hAll, hSame.trans ?_⟩
      rw [hRound]

/-- The resources of which the client's synchronised set or the tracker has another view. -/
def openResources (s : SyncNet α) : Finset α :=
  symmDiff s.resources.toFinset s.client.localResources.toFinset ∪
    symmDiff s.resources.toFinset s.tracker.toFinset

theorem Consistent.difference_subset (h : s.Consistent) : s.difference ⊆ s.openResources := by
  intro x hMem
  rw [mem_difference] at hMem
  simp only [openResources, Finset.mem_union, Finset.mem_symmDiff, SortedSet.mem_toFinset]
  by_cases hTracker : s.tracker = ∅
  · by_cases hZero : s.client.lastResponseRidCount = 0
    · rw [believed_of_zero hZero] at hMem
      have hNot := SortedSet.not_mem_empty x
      rw [hTracker]
      grind
    · rw [believed_of_ne hZero] at hMem
      grind
  · rw [← h.local_eq hTracker] at hMem
    grind

/-- In every run that waits for the confirmation of what is taken back: a client that takes
itself for synchronised while nothing is on its way is so; and without losses all are equal
after a report for each fifty open resources and one more. -/
theorem synchronised_of_run {seventyPercent : Nat → Nat} {now : SortedSet α}
    (run : Reaches (Step seventyPercent) AwaitsConfirmation (create now) s) :
    (s.requests = [] → s.answers = [] → ∀ transactionId,
      (s.submit seventyPercent transactionId).client.isSync = true → s.tracker = s.resources) ∧
    ∀ first rest, s.Fresh first → s.AwaitsConfirmation (.doSubmit first) →
      (s.openResources.card + maxReportRidCount - 1) / maxReportRidCount ≤ rest.length →
        (rounds seventyPercent s (first :: rest)).AllEqual ∧
          (rounds seventyPercent s (first :: rest)).resources = s.resources := by
  have h : s.Consistent := run.invariant (P := Consistent) (consistent_create now)
    fun _ _ _ hState hGuard hStep => hState.next hGuard hStep
  constructor
  · intro hRequests hAnswers transactionId hSync
    have hSettled := h.allSettled (noneAwaited_of_quiet hRequests hAnswers)
    rw [h.submit_eq hSettled] at hSync
    exact hSettled.tracker_eq (of_decide_eq_true hSync)
  · intro first rest hFresh hNone hEnough
    apply h.allEqual_rounds hNone seventyPercent hFresh
    have hCard := Finset.card_le_card h.difference_subset
    unfold maxReportRidCount at hEnough ⊢
    omega

/-- A client that has the tracker's resources under too high a count sends nothing more. -/
theorem rounds_of_highCount {seventyPercent : Nat → Nat} (hQuiet : s.requests = [] ∧ s.answers = [])
    (hSame : s.resources = s.client.localResources)
    (hMore : s.resources.card < s.client.lastResponseRidCount) (transactionIds : List Nat) :
    rounds seventyPercent s transactionIds = s := by
  have hSubmit : ∀ transactionId, s.submit seventyPercent transactionId = s := by
    intro transactionId
    unfold submit SyncClient.doSubmit SyncClient.forgetRestarted
    rw [if_neg (Nat.ne_zero_of_lt hMore)]
    dsimp only
    rw [← hSame, if_neg (by simp), if_neg hMore.not_gt, if_neg hMore.ne']
    simp
  induction transactionIds with
  | nil => rfl
  | cons transactionId rest ih =>
      have hRound : s.round seventyPercent transactionId = s := by
        unfold SyncNet.round
        rw [hSubmit]
        dsimp only
        rw [hQuiet.1]
        show SyncNet.deliverAnswer^[s.answers.length] s = s
        rw [hQuiet.2]
        rfl
      unfold rounds at ih ⊢
      rw [List.foldl_cons, hRound, ih]

section Samples

/-- Seven tenths, rounded down. -/
def sevenTenths (count : Nat) : Nat := count * 7 / 10

instance (s : SyncNet α) (x : α) : Decidable (s.Settled x) :=
  inferInstanceAs (Decidable (_ ∧ ∀ request ∈ s.requests, _))

/-- Nothing in the last report is back as believed and not settled. -/
def reportOpen (s : SyncNet α) : Bool :=
  (touched s.client.lastUpdates).all fun x =>
    decide ((x ∈ s.resources ↔ x ∈ s.client.believed) → s.Settled x)

theorem noneAwaited_of_reportOpen (h : s.reportOpen = true) : s.NoneAwaited := by
  intro x hSame hAwaited
  unfold reportOpen at h
  exact of_decide_eq_true (List.all_eq_true.mp h x hAwaited.1) hSame

/-- A check that is enough: a change brings only settled resources back. -/
def confirmCheck (s : SyncNet α) : SyncAction α → Bool
  | .changeResources now =>
    (now.elements ++ s.client.believed.elements ++ s.resources.elements).all fun x =>
      decide ((x ∈ now ↔ x ∈ s.client.believed) →
        (x ∈ s.resources ↔ x ∉ s.client.believed) → s.Settled x)
  | _ => s.reportOpen

theorem awaitsConfirmation_of_check {a : SyncAction α} (h : s.confirmCheck a = true) :
    s.AwaitsConfirmation a := by
  cases a with
  | changeResources now =>
    intro x hNow hBefore
    by_cases hMem : x ∈ now.elements ++ s.client.believed.elements ++ s.resources.elements
    · exact Or.inl (of_decide_eq_true (List.all_eq_true.mp h x hMem) hNow hBefore)
    · simp only [List.mem_append, not_or, ← SortedSet.mem_def] at hMem
      exact absurd (hBefore.mpr hMem.1.2) hMem.2
  | doSubmit transactionId => exact noneAwaited_of_reportOpen h
  | doList forOtherKind transactionId => exact fun _ => noneAwaited_of_reportOpen h
  | loseRequest index => exact fun _ => noneAwaited_of_reportOpen h
  | loseAnswer index => exact fun _ => noneAwaited_of_reportOpen h
  | deliverRequest => trivial
  | deliverAnswer => trivial

/-- The resource 1 is reported and answered, 2 comes and its first report is lost; two
rounds later all are equal. -/
theorem synchronised_of_lostReport : ∃ s : SyncNet Nat,
    (s.requests = [] → s.answers = [] → ∀ transactionId,
      (s.submit sevenTenths transactionId).client.isSync = true → s.tracker = s.resources) ∧
    (rounds sevenTenths s [9, 10]).AllEqual ∧ s.tracker ≠ s.resources := by
  obtain ⟨s, run, hTest⟩ := Reaches.exists_of_checked (fun s => next s sevenTenths)
    confirmCheck (create (.ofList [1]))
    [.doSubmit 7, .deliverRequest, .deliverAnswer, .changeResources (.ofList [1, 2]),
      .doSubmit 8, .loseRequest 0]
    (fun s => decide (s.tracker ≠ s.resources ∧ s.Fresh 9 ∧ s.confirmCheck (.doSubmit 9) = true ∧
      s.openResources.card ≤ 50)) (by decide +kernel)
  have hRun : Reaches (Step sevenTenths) AwaitsConfirmation (create (.ofList [1])) s :=
    run.mono fun _ _ hMet => awaitsConfirmation_of_check hMet
  obtain ⟨hDiffer, hFresh, hCheck, hCard⟩ := of_decide_eq_true hTest
  obtain ⟨hSync, hRounds⟩ := synchronised_of_run hRun
  refine ⟨s, hSync, (hRounds 9 [10] hFresh (awaitsConfirmation_of_check hCheck) ?_).1, hDiffer⟩
  unfold maxReportRidCount
  rw [List.length_singleton]
  omega

/-- The resource 2 replaces 1, the report arrives and its answer is lost, and 1 replaces 2
again: the client takes itself for synchronised and the tracker has 2. And where 2 was
added and taken back, the tracker keeps it however many rounds follow. -/
theorem synchronised_fails :
    (∃ s, Reaches (Step sevenTenths) (fun _ _ => True) (create (.ofList [1])) s ∧
      s.requests = [] ∧ s.answers = [] ∧ (s.submit sevenTenths 9).client.isSync = true ∧
        s.resources = .ofList [1] ∧ s.tracker = .ofList [2]) ∧
    (∃ s, Reaches (Step sevenTenths) (fun _ _ => True) (create (.ofList [1])) s ∧
      s.requests = [] ∧ s.answers = [] ∧ ∀ transactionIds,
        (rounds sevenTenths s transactionIds).resources = .ofList [1] ∧
          (rounds sevenTenths s transactionIds).tracker = .ofList [1, 2]) := by
  constructor
  · obtain ⟨s, run, hTest⟩ := Reaches.exists_of_checked (fun s => next s sevenTenths)
      (fun _ _ => true) (create (.ofList [1]))
      [.doSubmit 7, .deliverRequest, .deliverAnswer, .changeResources (.ofList [2]),
        .doSubmit 8, .deliverRequest, .loseAnswer 0, .changeResources (.ofList [1])]
      (fun s => decide (s.requests = [] ∧ s.answers = [] ∧
        (s.submit sevenTenths 9).client.isSync = true ∧ s.resources = .ofList [1] ∧
          s.tracker = .ofList [2])) (by decide +kernel)
    exact ⟨s, run.mono fun _ _ _ => trivial, of_decide_eq_true hTest⟩
  · obtain ⟨s, run, hTest⟩ := Reaches.exists_of_checked (fun s => next s sevenTenths)
      (fun _ _ => true) (create (.ofList [1]))
      [.doSubmit 7, .deliverRequest, .deliverAnswer, .changeResources (.ofList [1, 2]),
        .doSubmit 8, .deliverRequest, .loseAnswer 0, .changeResources (.ofList [1]),
        .doSubmit 9, .deliverRequest, .deliverAnswer]
      (fun s => decide ((s.requests = [] ∧ s.answers = []) ∧
        s.resources = s.client.localResources ∧
          s.resources.card < s.client.lastResponseRidCount ∧ s.resources = .ofList [1] ∧
            s.tracker = .ofList [1, 2])) (by decide +kernel)
    obtain ⟨hQuiet, hSame, hMore, hResources, hTracker⟩ := of_decide_eq_true hTest
    refine ⟨s, run.mono fun _ _ _ => trivial, hQuiet.1, hQuiet.2, ?_⟩
    intro transactionIds
    rw [rounds_of_highCount hQuiet hSame hMore]
    exact ⟨hResources, hTracker⟩

end Samples

end SyncNet

end Tracker
