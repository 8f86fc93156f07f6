import Mathlib.Data.Finset.Sort
import Mathlib.Logic.Relation
import Peer.Tracker.ResourceSyncRuns

/-! What one report says: the first resources, in their order, of which the client and what
it believes of the tracker differ. Its response confirms exactly these. -/
namespace Tracker

open Basis

universe u

variable {α : Type u} [LinearOrder α]

section Merge

variable {reals servers : List α}

/-- With less room the same updates are made, only fewer. -/
theorem mergeUpdates_take {room more : Nat} (hRoom : room ≤ more) :
    mergeUpdates room reals servers = (mergeUpdates more reals servers).take room := by
  fun_induction mergeUpdates room reals servers generalizing more with
  | case1 reals servers => rw [List.take_zero]
  | case2 room =>
      obtain ⟨more, rfl⟩ := Nat.exists_eq_add_of_lt hRoom
      simp [mergeUpdates]
  | case3 room real reals ih =>
      obtain ⟨more, rfl⟩ := Nat.exists_eq_add_of_lt hRoom
      rw [mergeUpdates, List.take_succ_cons, ih (Nat.le_add_right room more)]
  | case4 room server servers ih =>
      obtain ⟨more, rfl⟩ := Nat.exists_eq_add_of_lt hRoom
      rw [mergeUpdates, List.take_succ_cons, ih (Nat.le_add_right room more)]
  | case5 room real reals server servers hLess ih =>
      obtain ⟨more, rfl⟩ := Nat.exists_eq_add_of_lt hRoom
      rw [mergeUpdates, if_pos hLess, List.take_succ_cons, ih (Nat.le_add_right room more)]
  | case6 room real reals server servers hNot hLess ih =>
      obtain ⟨more, rfl⟩ := Nat.exists_eq_add_of_lt hRoom
      rw [mergeUpdates, if_neg hNot, if_pos hLess, List.take_succ_cons, ih (Nat.le_add_right room more)]
  | case7 room real reals server servers hNot hNot' ih =>
      obtain ⟨more, rfl⟩ := Nat.exists_eq_add_of_lt hRoom
      rw [mergeUpdates, if_neg hNot, if_neg hNot', ih hRoom]

theorem length_mergeUpdates_le (room : Nat) :
    (mergeUpdates room reals servers).length ≤ reals.length + servers.length := by
  fun_induction mergeUpdates room reals servers with
  | case1 => exact Nat.zero_le _
  | case2 => exact Nat.zero_le _
  | case3 room real reals ih => simp only [List.length_cons] at ih ⊢; omega
  | case4 room server servers ih => simp only [List.length_cons] at ih ⊢; omega
  | case5 room real reals server servers hLess ih => simp only [List.length_cons] at ih ⊢; omega
  | case6 room real reals server servers hNot hLess ih =>
      simp only [List.length_cons] at ih ⊢; omega
  | case7 room real reals server servers hNot hNot' ih =>
      simp only [List.length_cons] at ih ⊢; omega

end Merge

/-- The resources that one of two sets has and the other has not, in their order. -/
def differing (now believed : SortedSet α) : List α :=
  (symmDiff now.toFinset believed.toFinset).sort

theorem mem_differing {now believed : SortedSet α} {x : α} :
    x ∈ differing now believed ↔ (x ∈ now ↔ x ∉ believed) := by
  rw [differing, Finset.mem_sort, Finset.mem_symmDiff]
  simp only [SortedSet.mem_toFinset]
  tauto

/-- Of enough room the loop of `DoReport` uses exactly what it needs. -/
theorem touched_mergeUpdates_eq (now believed : SortedSet α) {room : Nat}
    (hRoom : now.elements.length + believed.elements.length < room) :
    touched (mergeUpdates room now.elements believed.elements) = differing now believed := by
  have hSorted : (touched (mergeUpdates room now.elements believed.elements)).Pairwise (· < ·) :=
    touched_mergeUpdates_sorted now.sorted believed.sorted
  have hLength : (mergeUpdates room now.elements believed.elements).length < room :=
    (length_mergeUpdates_le room).trans_lt hRoom
  have hSame : (touched (mergeUpdates room now.elements believed.elements)).toFinset =
      symmDiff now.toFinset believed.toFinset := by
    ext x
    rw [List.mem_toFinset, ← Finset.mem_sort (· ≤ ·)]
    refine Iff.trans ⟨?_, ?_⟩ mem_differing.symm
    · exact mem_of_touched now.sorted believed.sorted
    · exact touched_of_room hLength
  rw [differing, ← hSame]
  exact ((List.toFinset_sort (· ≤ ·) (hSorted.imp fun h => h.ne)).mpr
    (hSorted.imp fun h => h.le)).symm

/-- The updates of a report: resources in order, as many as there is room for. -/
theorem mergeUpdates_eq (now believed : SortedSet α) (room : Nat) :
    mergeUpdates room now.elements believed.elements =
      ((differing now believed).take room).map fun x => ⟨x, decide (x ∈ now)⟩ := by
  obtain ⟨enough, hEnough, hRoom⟩ : ∃ enough, room ≤ enough ∧
      now.elements.length + believed.elements.length < enough :=
    ⟨room + (now.elements.length + believed.elements.length + 1), by omega, by omega⟩
  have hMarks : mergeUpdates enough now.elements believed.elements =
      (touched (mergeUpdates enough now.elements believed.elements)).map
        fun x => ⟨x, decide (x ∈ now)⟩ := by
    rw [touched, List.map_map]
    refine ((List.map_congr_left fun update hMem => ?_).trans (List.map_id _)).symm
    have hMark := (mem_mergeUpdates now.sorted believed.sorted hMem).1
    cases update with
    | mk resourceId isAdd =>
        cases isAdd <;> simpa [SortedSet.mem_def] using hMark
  rw [mergeUpdates_take hEnough, hMarks, touched_mergeUpdates_eq now believed hRoom, List.map_take]

namespace SyncClient

/-- What may happen at the client after a response of a transaction: reports and lists of
other transactions, other responses, and the same response again. -/
inductive Later (seventyPercent : Nat → Nat) (packet : ReportAnswer) :
    SyncClient α → SyncClient α → Prop where
  | submit (client : SyncClient α) (now : SortedSet α) (transactionId : Nat)
      (fresh : transactionId ≠ packet.transactionId) :
      Later seventyPercent packet client (client.doSubmit seventyPercent now transactionId).1
  | list (client : SyncClient α) (forOtherKind : Bool) (transactionId : Nat)
      (fresh : transactionId ≠ packet.transactionId) :
      Later seventyPercent packet client (client.doList forOtherKind transactionId)
  | answer (client : SyncClient α) (other : ReportAnswer)
      (same : other.transactionId = packet.transactionId → other = packet) :
      Later seventyPercent packet client (client.onReportResponsePacket other)

variable (client : SyncClient α) (now : SortedSet α) (transactionId : Nat)

/-- The list `DoReport` builds of the client's resources, and what its response does. -/
structure ReportRight : Prop where
  listed : (client.doReport now transactionId).2.updates =
    ((differing now client.localResources).take maxReportRidCount).map fun x => ⟨x, decide (x ∈ now)⟩
  once : (touched (client.doReport now transactionId).2.updates).Nodup
  marked : ∀ update ∈ (client.doReport now transactionId).2.updates,
    (update.isAdd = true ↔
      update.resourceId ∈ now ∧ update.resourceId ∉ client.localResources) ∧
    (update.isAdd = false ↔
      update.resourceId ∉ now ∧ update.resourceId ∈ client.localResources)
  confirmed : ∀ resourceCount,
    (differing now ((client.doReport now transactionId).1.onReportResponsePacket
        ⟨transactionId, resourceCount⟩).localResources).length +
      (client.doReport now transactionId).2.updates.length =
    (differing now client.localResources).length
  repeated : ∀ seventyPercent resourceCount later,
    Relation.ReflTransGen (Later seventyPercent ⟨transactionId, resourceCount⟩)
      ((client.doReport now transactionId).1.onReportResponsePacket
        ⟨transactionId, resourceCount⟩) later →
    later.onReportResponsePacket ⟨transactionId, resourceCount⟩ = later

variable {client now transactionId}

theorem onReportResponsePacket_of_ne {packet : ReportAnswer}
    (h : client.lastTransactionId ≠ packet.transactionId) :
    client.onReportResponsePacket packet = client := by
  unfold onReportResponsePacket
  rw [if_neg fun hSame => h hSame.symm]

/-- The same response twice, where the updates applied again change nothing. -/
theorem onReportResponsePacket_twice {packet : ReportAnswer}
    (h : applyUpdates client.lastUpdates (applyUpdates client.lastUpdates client.localResources) =
      applyUpdates client.lastUpdates client.localResources) :
    (client.onReportResponsePacket packet).onReportResponsePacket packet =
      client.onReportResponsePacket packet := by
  by_cases hSame : packet.transactionId = client.lastTransactionId
  · simp [onReportResponsePacket, hSame, h]
  · rw [onReportResponsePacket_of_ne fun hLast => hSame hLast.symm]
    exact onReportResponsePacket_of_ne fun hLast => hSame hLast.symm

/-- A response that changes nothing does not change anything later either. -/
theorem Later.keeps {seventyPercent : Nat → Nat} {packet : ReportAnswer}
    {later : SyncClient α} (hStep : Later seventyPercent packet client later)
    (h : client.onReportResponsePacket packet = client) :
    later.onReportResponsePacket packet = later := by
  cases hStep with
  | submit now transactionId fresh =>
      unfold doSubmit
      dsimp only
      split_ifs
      · exact onReportResponsePacket_of_ne fresh
      · exact onReportResponsePacket_of_ne fresh
      · exact onReportResponsePacket_of_ne fresh
      · exact onReportResponsePacket_of_ne fresh
      · -- The count is larger than that of the resources, so it is not 0.
        rename_i hMore hOther
        have hSome : client.lastResponseRidCount ≠ 0 := by
          intro hZero
          rw [forgetRestarted, if_pos hZero] at hMore hOther
          exact hOther (hZero.trans (Nat.le_zero.mp (hZero ▸ not_lt.mp hMore)).symm)
        rw [forgetRestarted, if_neg hSome]
        exact h
  | list forOtherKind transactionId fresh =>
      cases forOtherKind with
      | true => exact h
      | false => exact onReportResponsePacket_of_ne fresh
  | answer other same =>
      by_cases hOther : other.transactionId = packet.transactionId
      · rw [same hOther, h, h]
      · by_cases hLast : other.transactionId = client.lastTransactionId
        · apply onReportResponsePacket_of_ne
          unfold onReportResponsePacket
          rw [if_pos hLast]
          exact hLast ▸ hOther
        · rw [onReportResponsePacket_of_ne fun hSame => hLast hSame.symm]
          exact h

theorem marks_doReport {update : ReportResource α}
    (hMem : update ∈ (client.doReport now transactionId).2.updates) :
    (update.isAdd = true ↔ update.resourceId ∈ now) ∧
      (update.resourceId ∈ now ↔ update.resourceId ∉ client.localResources) :=
  mem_mergeUpdates now.sorted client.localResources.sorted hMem

/-- The response to a report, in terms of the updates reported. -/
theorem confirm_eq (resourceCount : Nat) :
    (client.doReport now transactionId).1.onReportResponsePacket ⟨transactionId, resourceCount⟩ =
      { (client.doReport now transactionId).1 with
        lastResponseRidCount := resourceCount
        localResources :=
          applyUpdates (client.doReport now transactionId).2.updates client.localResources } := by
  unfold onReportResponsePacket
  rw [if_pos (show transactionId = (client.doReport now transactionId).1.lastTransactionId from rfl)]
  rfl

theorem mem_confirmed {x : α} :
    x ∈ applyUpdates (client.doReport now transactionId).2.updates client.localResources ↔
      x ∈ touched (client.doReport now transactionId).2.updates ∧ x ∈ now ∨
      x ∉ touched (client.doReport now transactionId).2.updates ∧ x ∈ client.localResources :=
  mem_applyUpdates fun _ hMem => (marks_doReport hMem).1

/-- What was reported no longer differs, and all else differs as before. -/
theorem differing_confirmed :
    symmDiff now.toFinset (applyUpdates (client.doReport now transactionId).2.updates
        client.localResources).toFinset =
      symmDiff now.toFinset client.localResources.toFinset \
        (touched (client.doReport now transactionId).2.updates).toFinset := by
  ext x
  simp only [Finset.mem_symmDiff, Finset.mem_sdiff, SortedSet.mem_toFinset, List.mem_toFinset,
    mem_confirmed]
  tauto

/-- For every two sets the report lists the first of their differences, each once and marked
for the side that has it; the response removes exactly these, and repeated does nothing. -/
theorem report_exact (client : SyncClient α) (now : SortedSet α) (transactionId : Nat) :
    ReportRight client now transactionId := by
  have hOnce : (touched (client.doReport now transactionId).2.updates).Nodup :=
    (touched_mergeUpdates_sorted now.sorted client.localResources.sorted).imp fun h => h.ne
  refine ⟨mergeUpdates_eq _ _ _, hOnce, fun update hMem => ?_, fun resourceCount => ?_, ?_⟩
  · obtain ⟨hAdd, hApart⟩ := marks_doReport hMem
    cases hMark : update.isAdd <;> simp only [hMark] at hAdd <;> tauto
  · rw [confirm_eq]
    dsimp only
    have hSubset : (touched (client.doReport now transactionId).2.updates).toFinset ⊆
        symmDiff now.toFinset client.localResources.toFinset := by
      intro x hx
      rw [← Finset.mem_sort (· ≤ ·)]
      exact mem_differing.mpr
        (mem_of_touched now.sorted client.localResources.sorted (List.mem_toFinset.mp hx))
    have hCard := Finset.card_sdiff_add_card_eq_card hSubset
    rw [← differing_confirmed, List.toFinset_card_of_nodup hOnce] at hCard
    simpa only [differing, Finset.length_sort, touched, List.length_map] using hCard
  · intro seventyPercent resourceCount later run
    induction run with
    | refl =>
        apply onReportResponsePacket_twice
        apply SortedSet.ext
        intro x
        show x ∈ applyUpdates (client.doReport now transactionId).2.updates
            (applyUpdates (client.doReport now transactionId).2.updates client.localResources) ↔
          x ∈ applyUpdates (client.doReport now transactionId).2.updates client.localResources
        rw [mem_applyUpdates fun _ hMem => (marks_doReport hMem).1, mem_confirmed]
        tauto
    | tail _ hLast ih => exact hLast.keeps ih

end SyncClient

end Tracker
