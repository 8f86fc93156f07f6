import Peer.P2P.LiveRequests

/-! The accounts of the live requests. While a step runs a connection may be owed calls
for entries that are gone already, or have been called for entries that are still there;
a step ends with nothing owed. -/
namespace P2P

open Basis Storage Live

/-- How many of these requests point to connection `c`. -/
def countOf (c : Nat) (requests : List LiveRequest) : Nat :=
  requests.countP fun request => request.2.peerConnection = c

theorem countOf_append (c : Nat) (requests more : List LiveRequest) :
    countOf c (requests ++ more) = countOf c requests + countOf c more :=
  List.countP_append

theorem countOf_perm {requests more : List LiveRequest} (h : requests.Perm more) (c : Nat) :
    countOf c requests = countOf c more := h.countP_eq _

theorem foldl_add_perm (requests requestTasks : List LiveRequest) :
    (requests.foldl LiveSubPieceRequestManager.add requestTasks).Perm (requests ++ requestTasks) := by
  induction requests generalizing requestTasks with
  | nil => rfl
  | cons request rest ih =>
      apply (ih _).trans
      apply ((List.perm_orderedInsert _ request requestTasks).append_left rest).trans
      exact List.perm_middle

namespace LiveP2PDownloader

/-- What the calls, the counters and the entries have to do with each other. `debt c` is
how many calls connection `c` is owed; `lost c` are records that were taken out of its
request map in this step. -/
structure Accounted (debt : Nat → Int) (lost : Nat → List (Nat × LivePosition))
    (s : LiveP2PDownloader) : Prop where
  requesting_eq : ∀ c, (s.connections c).isRunning = true →
    (s.connections c).requestingCount = countOf c s.requestTasks + debt c
  issued_perm : s.issued.Perm (s.removed ++ s.requestTasks)
  calls_eq : ∀ c, (countOf c s.removed : Int) = s.calls.count c + debt c
  distinct : (s.requestTasks.map fun request =>
    (request.1, request.2.transactionId)).Nodup
  owner : ∀ request ∈ s.requestTasks, ∀ other ∈ s.requestTasks,
    request.2.transactionId = other.2.transactionId →
      request.2.peerConnection = other.2.peerConnection
  recorded : ∀ c, ∀ record ∈ (s.connections c).requestMap ++ lost c, ∀ request ∈ s.requestTasks,
    request.2.transactionId = record.1 → request.2.peerConnection = c
  taskSet_nodup : ∀ c, (s.connections c).taskSet.Nodup
  uncreated : ∀ c, s.created ≤ c → (s.connections c).isRunning = false ∧
    (s.connections c).requestMap = [] ∧ ∀ request ∈ s.requestTasks, request.2.peerConnection ≠ c

/-- The next ids are different, and neither an entry nor a record has one of them. -/
structure Fresh (lost : Nat → List (Nat × LivePosition)) (s : LiveP2PDownloader) : Prop where
  injective : Function.Injective s.ids
  entries : ∀ n, ∀ request ∈ s.requestTasks, request.2.transactionId ≠ s.ids n
  records : ∀ n c, ∀ record ∈ (s.connections c).requestMap ++ lost c, record.1 ≠ s.ids n

variable {s : LiveP2PDownloader} {debt : Nat → Int} {lost : Nat → List (Nat × LivePosition)}
  {c : Nat}

section Requests

/-- `conn` is the connection with other tasks, another window or another counter. -/
structure SameRequests (old conn : LivePeerConnection) : Prop where
  isRunning_of : conn.isRunning = true → old.isRunning = true
  requestMap_sub : ∀ record ∈ conn.requestMap, record ∈ old.requestMap
  taskSet_nodup : old.taskSet.Nodup → conn.taskSet.Nodup

/-- A connection is called or not, and its counter changes by what is then owed less. -/
theorem Accounted.change (h : Accounted debt lost s) {conn : LivePeerConnection}
    (hSame : SameRequests (s.connections c) conn) {calls : List Nat} {debt' : Nat → Int}
    (hCount : conn.isRunning = true →
      conn.requestingCount = (s.connections c).requestingCount + debt' c - debt c)
    (hOther : ∀ x, x ≠ c → debt' x = debt x)
    (hCalls : ∀ x, (calls.count x : Int) + debt' x = s.calls.count x + debt x)
    (hCreated : c < s.created ∨ conn.isRunning = false) :
    Accounted debt' lost (setConnection { s with calls := calls } c conn) := by
  constructor
  · intro x hRunning
    show ((Function.update s.connections c conn) x).requestingCount = _
    by_cases hx : x = c
    · subst hx
      have hNow : conn.isRunning = true := by simpa [setConnection] using hRunning
      rw [Function.update_self, hCount hNow, h.requesting_eq x (hSame.isRunning_of hNow)]
      show _ = (countOf x s.requestTasks : Int) + debt' x
      omega
    · have hNow : (s.connections x).isRunning = true := by simpa [setConnection, hx] using hRunning
      rw [Function.update_of_ne hx, h.requesting_eq x hNow, hOther x hx]
      rfl
  · exact h.issued_perm
  · intro x
    show (countOf x s.removed : Int) = calls.count x + debt' x
    rw [h.calls_eq x, hCalls x]
  · exact h.distinct
  · exact h.owner
  · intro x record hMem
    apply h.recorded x record
    by_cases hx : x = c
    · subst hx
      rcases List.mem_append.mp hMem with hOld | hLost
      · apply List.mem_append_left
        apply hSame.requestMap_sub
        simpa [setConnection] using hOld
      · exact List.mem_append_right _ hLost
    · simpa [setConnection, hx] using hMem
  · intro x
    show ((Function.update s.connections c conn) x).taskSet.Nodup
    by_cases hx : x = c
    · subst hx
      rw [Function.update_self]
      exact hSame.taskSet_nodup (h.taskSet_nodup x)
    · rw [Function.update_of_ne hx]
      exact h.taskSet_nodup x
  · intro x hLe
    obtain ⟨hRunning, hEmpty, hNone⟩ := h.uncreated x hLe
    show ((Function.update s.connections c conn) x).isRunning = false ∧
      ((Function.update s.connections c conn) x).requestMap = [] ∧ _
    by_cases hx : x = c
    · subst hx
      rw [Function.update_self]
      refine ⟨?_, ?_, hNone⟩
      · rcases hCreated with hLt | hStopped
        · exact absurd hLe (Nat.not_le.mpr hLt)
        · exact hStopped
      · apply List.eq_nil_iff_forall_not_mem.mpr
        intro record hMem
        have hOld := hSame.requestMap_sub record hMem
        rw [hEmpty] at hOld
        cases hOld
    · rw [Function.update_of_ne hx]
      exact ⟨hRunning, hEmpty, hNone⟩

theorem Fresh.change (h : Fresh lost s) {conn : LivePeerConnection}
    (hSame : SameRequests (s.connections c) conn) (calls : List Nat) :
    Fresh lost (setConnection { s with calls := calls } c conn) := by
  refine ⟨h.injective, h.entries, fun n x record hMem => ?_⟩
  apply h.records n x record
  by_cases hx : x = c
  · subst hx
    rcases List.mem_append.mp hMem with hOld | hLost
    · apply List.mem_append_left
      apply hSame.requestMap_sub
      simpa [setConnection] using hOld
    · exact List.mem_append_right _ hLost
  · simpa [setConnection, hx] using hMem

/-- A connection that runs was created. -/
theorem Accounted.created_of_running (h : Accounted debt lost s)
    (hRunning : (s.connections c).isRunning = true) : c < s.created := by
  by_contra hLe
  have := (h.uncreated c (Nat.not_lt.mp hLe)).1
  rw [hRunning] at this
  cases this

theorem mem_record {conn : LivePeerConnection} {isLiveLostPrejudgeEnable : Bool}
    {transactionId : Nat} {subpieces : List LivePosition} {record : Nat × LivePosition}
    (hMem : record ∈ (conn.record isLiveLostPrejudgeEnable transactionId subpieces).requestMap) :
    record ∈ conn.requestMap ∨ record.1 = transactionId := by
  unfold LivePeerConnection.record at hMem
  dsimp only at hMem
  split at hMem
  · generalize conn.requestMap = requestMap at hMem ⊢
    induction subpieces generalizing requestMap with
    | nil => exact Or.inl hMem
    | cons subpiece rest ih =>
        rcases ih _ hMem with hOld | hNew
        · rcases (List.mem_orderedInsert _).mp hOld with rfl | hOld
          · exact Or.inr rfl
          · exact Or.inl hOld
        · exact Or.inr hNew
  · exact Or.inl hMem

/-- A packet with a new id requests some different subpieces. -/
theorem Accounted.request (h : Accounted debt lost s) (hFresh : Fresh lost s)
    (hRunning : (s.connections c).isRunning = true) {subpieces : List LivePosition}
    (hNodup : subpieces.Nodup) (conn : LivePeerConnection)
    (hMap : ∀ record ∈ conn.requestMap, record ∈ (s.connections c).requestMap ∨
      record.1 = s.ids 0) (hTasks : conn.taskSet.Nodup)
    (hCount : conn.requestingCount = (s.connections c).requestingCount + subpieces.length)
    (timeout : Nat) :
    let requests : List LiveRequest :=
      subpieces.map fun subpiece => (subpiece, ⟨timeout, c, s.ids 0, s.now⟩)
    let s' : LiveP2PDownloader := { s with
      ids := fun n => s.ids (n + 1)
      requestTasks := requests.foldl LiveSubPieceRequestManager.add s.requestTasks
      issued := s.issued ++ requests
      connections := Function.update s.connections c conn }
    Accounted debt lost s' ∧ Fresh lost s' := by
  intro requests s'
  have hPerm : s'.requestTasks.Perm (requests ++ s.requestTasks) := foldl_add_perm _ _
  have hOf : ∀ request ∈ requests, request.2.peerConnection = c ∧
      request.2.transactionId = s.ids 0 := by
    intro request hMem
    obtain ⟨subpiece, -, rfl⟩ := List.mem_map.mp hMem
    exact ⟨rfl, rfl⟩
  have hMem : ∀ request, request ∈ s'.requestTasks ↔
      request ∈ requests ∨ request ∈ s.requestTasks := by
    intro request
    rw [hPerm.mem_iff, List.mem_append]
  have hHere : countOf c requests = subpieces.length := by
    rw [countOf, List.countP_eq_length.mpr fun request hRequest => by simp [hOf request hRequest]]
    exact List.length_map _
  have hElse : ∀ x, x ≠ c → countOf x requests = 0 := by
    intro x hx
    apply List.countP_eq_zero.mpr
    intro request hRequest
    simp [hOf request hRequest, Ne.symm hx]
  have hOldRecord : ∀ x, ∀ record ∈ (s'.connections x).requestMap ++ lost x,
      record ∈ (s.connections x).requestMap ++ lost x ∨ (x = c ∧ record.1 = s.ids 0) := by
    intro x record hRecord
    by_cases hx : x = c
    · subst hx
      rcases List.mem_append.mp hRecord with hNow | hLost
      · have hNow : record ∈ conn.requestMap := by simpa [s'] using hNow
        rcases hMap record hNow with hOld | hNew
        · exact Or.inl (List.mem_append_left _ hOld)
        · exact Or.inr ⟨rfl, hNew⟩
      · exact Or.inl (List.mem_append_right _ hLost)
    · exact Or.inl (by simpa [s', hx] using hRecord)
  constructor
  · constructor
    · intro x hNow
      rw [countOf_perm hPerm, countOf_append]
      by_cases hx : x = c
      · subst hx
        show ((Function.update s.connections x conn) x).requestingCount = _
        rw [Function.update_self, hCount, h.requesting_eq x hRunning, hHere]
        push_cast
        ring
      · have hOld : (s.connections x).isRunning = true := by simpa [s', hx] using hNow
        show ((Function.update s.connections c conn) x).requestingCount = _
        rw [Function.update_of_ne hx, h.requesting_eq x hOld, hElse x hx]
        simp
    · show (s.issued ++ requests).Perm (s.removed ++ s'.requestTasks)
      apply (h.issued_perm.append_right requests).trans
      rw [List.append_assoc]
      exact (List.perm_append_comm.trans hPerm.symm).append_left s.removed
    · exact h.calls_eq
    · apply (hPerm.map _).nodup_iff.mpr
      rw [List.map_append]
      apply List.Nodup.append
      · rw [List.map_map]
        apply hNodup.map
        intro a b hEq
        exact (Prod.mk.inj hEq).1
      · exact h.distinct
      · intro pair hNew hOld
        obtain ⟨request, hRequest, rfl⟩ := List.mem_map.mp hNew
        obtain ⟨other, hOther, hEq⟩ := List.mem_map.mp hOld
        exact hFresh.entries 0 other hOther
          ((Prod.mk.inj hEq).2.trans (hOf request hRequest).2)
    · intro request hRequest other hOther hEq
      rcases (hMem request).mp hRequest with hNew | hOld
      · rcases (hMem other).mp hOther with hNew' | hOld'
        · rw [(hOf request hNew).1, (hOf other hNew').1]
        · exact absurd (hEq.symm.trans (hOf request hNew).2) (hFresh.entries 0 other hOld')
      · rcases (hMem other).mp hOther with hNew' | hOld'
        · exact absurd (hEq.trans (hOf other hNew').2) (hFresh.entries 0 request hOld)
        · exact h.owner request hOld other hOld' hEq
    · intro x record hRecord request hRequest hEq
      rcases hOldRecord x record hRecord with hKnown | ⟨rfl, hId⟩
      · rcases (hMem request).mp hRequest with hNew | hOld
        · exact absurd (hEq.symm.trans (hOf request hNew).2) (hFresh.records 0 x record hKnown)
        · exact h.recorded x record hKnown request hOld hEq
      · rcases (hMem request).mp hRequest with hNew | hOld
        · exact (hOf request hNew).1
        · exact absurd (hEq.trans hId) (hFresh.entries 0 request hOld)
    · intro x
      show ((Function.update s.connections c conn) x).taskSet.Nodup
      by_cases hx : x = c
      · subst hx
        rwa [Function.update_self]
      · rw [Function.update_of_ne hx]
        exact h.taskSet_nodup x
    · intro x hLe
      have hx : x ≠ c := by
        rintro rfl
        exact absurd (h.created_of_running hRunning) (Nat.not_lt.mpr hLe)
      obtain ⟨hStopped, hEmpty, hNone⟩ := h.uncreated x hLe
      show ((Function.update s.connections c conn) x).isRunning = false ∧
        ((Function.update s.connections c conn) x).requestMap = [] ∧ _
      rw [Function.update_of_ne hx]
      refine ⟨hStopped, hEmpty, fun request hRequest => ?_⟩
      rcases (hMem request).mp hRequest with hNew | hOld
      · rw [(hOf request hNew).1]
        exact Ne.symm hx
      · exact hNone request hOld
  · constructor
    · intro m n hEq
      exact Nat.succ.inj (hFresh.injective hEq)
    · intro n request hRequest
      show request.2.transactionId ≠ s.ids (n + 1)
      rcases (hMem request).mp hRequest with hNew | hOld
      · rw [(hOf request hNew).2]
        intro hEq
        cases hFresh.injective hEq
      · exact hFresh.entries (n + 1) request hOld
    · intro n x record hRecord
      show record.1 ≠ s.ids (n + 1)
      rcases hOldRecord x record hRecord with hKnown | ⟨-, hId⟩
      · exact hFresh.records (n + 1) x record hKnown
      · rw [hId]
        intro hEq
        cases hFresh.injective hEq

end Requests

section Calls

/-- What holds while a step runs, and that no entry went away since `before`. -/
structure Held (debt : Nat → Int) (lost : Nat → List (Nat × LivePosition))
    (before s : LiveP2PDownloader) : Prop where
  accounted : Accounted debt lost s
  fresh : Fresh lost s
  kept : ∀ request ∈ before.requestTasks, request ∈ s.requestTasks
  now_eq : s.now = before.now

variable {before : LiveP2PDownloader}

theorem requestSubPieces_held (h : Held debt lost before s) (c blockCount : Nat)
    (needCheck : Bool) : Held debt lost before (s.requestSubPieces c blockCount needCheck) := by
  unfold requestSubPieces
  dsimp only
  split
  · exact h
  rename_i hGoes
  have hRunning : (s.connections c).isRunning = true := by
    simp only [Bool.or_eq_true, not_or, Bool.not_eq_true, Bool.not_eq_false'] at hGoes
    exact hGoes.1.1
  have hTaken := h.accounted.taskSet_nodup c
  have hDrop : ((s.connections c).taskSet.drop blockCount).Nodup :=
    hTaken.sublist (List.drop_sublist ..)
  split
  · have hSame : SameRequests (s.connections c)
        { s.connections c with taskSet := (s.connections c).taskSet.drop blockCount } :=
      ⟨id, fun _ => id, fun _ => hDrop⟩
    refine ⟨?_, h.fresh.change hSame s.calls, h.kept, h.now_eq⟩
    apply h.accounted.change hSame
    · intro _
      simp
    · intro x _
      rfl
    · intro x
      rfl
    · exact Or.inl (h.accounted.created_of_running hRunning)
  · have hSubpieces : (((s.connections c).taskSet.take blockCount).filter fun subpiece =>
        !needCheck || !s.hasSubPiece subpiece).Nodup :=
      (hTaken.sublist (List.take_sublist ..)).filter _
    obtain ⟨hAccounted, hFresh⟩ := h.accounted.request h.fresh hRunning hSubpieces
      { LivePeerConnection.record
          { s.connections c with taskSet := (s.connections c).taskSet.drop blockCount }
          s.isLiveLostPrejudgeEnable (s.ids 0)
          (((s.connections c).taskSet.take blockCount).filter fun subpiece =>
            !needCheck || !s.hasSubPiece subpiece) with
        requestingCount := (s.connections c).requestingCount + List.length _ }
      (fun record hRecord => mem_record hRecord) hDrop rfl
      (u32 ((s.connections c).rttAvg + s.getTimeoutAdjustment))
    refine ⟨hAccounted, hFresh, fun request hMem => ?_, h.now_eq⟩
    exact (foldl_add_perm _ _).mem_iff.mpr (List.mem_append_right _ (h.kept request hMem))

theorem requestLoop_held (c rounds : Nat) (h : Held debt lost before s) :
    Held debt lost before (requestLoop c rounds s) := by
  induction rounds generalizing s with
  | zero => exact h
  | succ rounds ih =>
      unfold requestLoop
      dsimp only
      generalize (if (s.connections c).isUdpServer = true then
        (s.connections c).configs.udpserverMaximumRequests else 6) = blockCount
      split
      · split
        · exact requestSubPieces_held h ..
        · exact ih (requestSubPieces_held h ..)
      · exact h

theorem requestTillFullWindow_held (h : Held debt lost before s) (c : Nat) :
    Held debt lost before (s.requestTillFullWindow c) := by
  unfold requestTillFullWindow
  split
  · exact h
  · exact requestLoop_held c _ h

/-- A round of a connection that runs moves tasks into its counter. -/
theorem requestSubPieces_progress (hRunning : (s.connections c).isRunning = true)
    {blockCount : Nat} (hPos : 0 < blockCount) (hTasks : (s.connections c).taskSet ≠ []) :
    ∃ requestMap, (s.requestSubPieces c blockCount false).connections c =
      { s.connections c with
        taskSet := (s.connections c).taskSet.drop blockCount
        requestMap := requestMap
        requestingCount := (s.connections c).requestingCount +
          ((s.connections c).taskSet.take blockCount).length } := by
  unfold requestSubPieces
  dsimp only
  rw [if_neg (by simp [hRunning, Nat.ne_of_gt hPos, hTasks])]
  simp only [Bool.not_false, Bool.true_or, List.filter_true]
  rw [if_neg (by simp [hTasks, Nat.ne_of_gt hPos])]
  exact ⟨_, Function.update_self ..⟩

theorem requestLoop_full (rounds : Nat) (hRunning : (s.connections c).isRunning = true)
    (hPos : 0 < (s.connections c).configs.udpserverMaximumRequests)
    (hLength : (s.connections c).taskSet.length ≤ rounds) :
    ((requestLoop c rounds s).connections c).windowSize ≤
        ((requestLoop c rounds s).connections c).requestingCount ∨
      ((requestLoop c rounds s).connections c).taskSet = [] := by
  induction rounds generalizing s with
  | zero => exact Or.inr (List.eq_nil_of_length_eq_zero (Nat.le_zero.mp hLength))
  | succ rounds ih =>
      unfold requestLoop
      dsimp only
      have hBlocks : 0 < (if (s.connections c).isUdpServer = true then
          (s.connections c).configs.udpserverMaximumRequests else 6) := by
        split <;> omega
      generalize (if (s.connections c).isUdpServer = true then
        (s.connections c).configs.udpserverMaximumRequests else 6) = blockCount at hBlocks ⊢
      by_cases hMore : (s.connections c).requestingCount < (s.connections c).windowSize ∧
          (s.connections c).taskSet ≠ []
      · obtain ⟨requestMap, hNext⟩ := requestSubPieces_progress hRunning hBlocks hMore.2
        have hSome := List.length_pos_iff.mpr hMore.2
        rw [if_pos hMore, if_neg (by rw [hNext, List.length_take]; dsimp only; omega)]
        apply ih
        · rw [hNext]
          exact hRunning
        · rw [hNext]
          exact hPos
        · rw [hNext, List.length_drop]
          omega
      · rw [if_neg hMore]
        by_cases hFull : (s.connections c).requestingCount < (s.connections c).windowSize
        · exact Or.inr (by simpa [hFull] using hMore)
        · exact Or.inl (Int.not_lt.mp hFull)

/-- `RequestTillFullWindow` leaves the window full or no task. -/
theorem requestTillFullWindow_full (hRunning : (s.connections c).isRunning = true)
    (hPos : 0 < (s.connections c).configs.udpserverMaximumRequests) :
    ((s.requestTillFullWindow c).connections c).windowSize ≤
        ((s.requestTillFullWindow c).connections c).requestingCount ∨
      ((s.requestTillFullWindow c).connections c).taskSet = [] := by
  unfold requestTillFullWindow
  rw [if_neg (by simp [hRunning])]
  exact requestLoop_full _ hRunning hPos (Nat.le_refl _)

/-- The debts after connection `c` was called. -/
def paid (debt : Nat → Int) (c : Nat) : Nat → Int :=
  fun x => debt x - if x = c then 1 else 0

/-- A call takes one off the counter of a connection that runs. -/
theorem called_held (h : Held debt lost before s) {conn : LivePeerConnection}
    (hSame : SameRequests (s.connections c) conn)
    (hCount : conn.isRunning = true →
      conn.requestingCount = (s.connections c).requestingCount - 1) :
    Held (paid debt c) lost before (setConnection { s with calls := s.calls ++ [c] } c conn) := by
  refine ⟨?_, h.fresh.change hSame _, h.kept, h.now_eq⟩
  apply h.accounted.change hSame
  · intro hRunning
    rw [hCount hRunning]
    simp only [paid, if_true]
    ring
  · intro x hx
    simp [paid, hx]
  · intro x
    rw [List.count_append, List.count_singleton]
    by_cases hx : x = c
    · subst hx
      simp only [paid, if_true, beq_self_eq_true]
      push_cast
      ring
    · simp [paid, hx, Ne.symm hx]
  · by_cases hRunning : conn.isRunning = true
    · exact Or.inl (h.accounted.created_of_running (hSame.isRunning_of hRunning))
    · exact Or.inr (by simpa using hRunning)

theorem called_stopped_held (h : Held debt lost before s)
    (hStopped : (s.connections c).isRunning = false) :
    Held (paid debt c) lost before { s with calls := s.calls ++ [c] } := by
  have hCalled : Held (paid debt c) lost before
      (setConnection { s with calls := s.calls ++ [c] } c (s.connections c)) := by
    apply called_held h ⟨id, fun _ => id, id⟩
    intro hRunning
    rw [hStopped] at hRunning
    cases hRunning
  unfold setConnection at hCalled
  rwa [Function.update_eq_self] at hCalled

theorem onSubPieceTimeout_held (h : Held debt lost before s) (c : Nat) :
    Held (paid debt c) lost before (s.onSubPieceTimeout c) := by
  unfold onSubPieceTimeout
  dsimp only
  split
  · rename_i hStopped
    exact called_stopped_held h (by simpa using hStopped)
  · apply requestTillFullWindow_held
    exact called_held h ⟨id, fun _ => id, id⟩ fun _ => rfl

theorem onSubPiece_held (h : Held debt lost before s) (c rtt : Nat) :
    Held (paid debt c) lost before (s.onSubPiece c rtt) := by
  unfold onSubPiece
  dsimp only
  split
  · rename_i hStopped
    exact called_stopped_held h (by simpa using hStopped)
  · apply requestTillFullWindow_held
    exact called_held h ⟨id, fun _ => id, id⟩ fun _ => rfl

/-- Each call pays one of what its connection is owed. -/
theorem timeouts_held (cs : List Nat) (h : Held debt lost before s) :
    Held (fun x => debt x - cs.count x) lost before (cs.foldl onSubPieceTimeout s) := by
  induction cs generalizing s debt with
  | nil => simpa using h
  | cons c rest ih =>
      have hDebt : (fun x => debt x - ((c :: rest).count x : Int)) =
          fun x => paid debt c x - rest.count x := by
        funext x
        unfold paid
        rw [List.count_cons]
        by_cases hx : x = c
        · subst hx
          simp only [beq_self_eq_true, if_true]
          push_cast
          ring
        · simp [hx, Ne.symm hx]
      rw [hDebt]
      exact ih (onSubPieceTimeout_held h c)

end Calls

section Erasures

/-- Entries are removed, and their connections are owed a call for each. -/
theorem Accounted.remove (h : Accounted debt lost s) {gone kept : List LiveRequest}
    (hPerm : s.requestTasks.Perm (gone ++ kept)) :
    Accounted (fun x => debt x + countOf x gone) lost
      { s with requestTasks := kept, removed := s.removed ++ gone } := by
  have hMem : ∀ request ∈ kept, request ∈ s.requestTasks := fun request hKept =>
    hPerm.mem_iff.mpr (List.mem_append_right _ hKept)
  constructor
  · intro x hRunning
    have hCount := h.requesting_eq x hRunning
    rw [countOf_perm hPerm, countOf_append] at hCount
    show (s.connections x).requestingCount = (countOf x kept : Int) + (debt x + countOf x gone)
    rw [hCount]
    push_cast
    ring
  · show s.issued.Perm (s.removed ++ gone ++ kept)
    rw [List.append_assoc]
    exact h.issued_perm.trans (hPerm.append_left s.removed)
  · intro x
    show (countOf x (s.removed ++ gone) : Int) = s.calls.count x + (debt x + countOf x gone)
    rw [countOf_append, Nat.cast_add, h.calls_eq x]
    ring
  · have hNodup := (hPerm.map fun request : LiveRequest =>
      (request.1, request.2.transactionId)).nodup_iff.mp h.distinct
    rw [List.map_append] at hNodup
    exact (List.nodup_append.mp hNodup).2.1
  · intro request hRequest other hOther
    exact h.owner request (hMem request hRequest) other (hMem other hOther)
  · intro x record hRecord request hRequest
    exact h.recorded x record hRecord request (hMem request hRequest)
  · exact h.taskSet_nodup
  · intro x hLe
    obtain ⟨hStopped, hEmpty, hNone⟩ := h.uncreated x hLe
    exact ⟨hStopped, hEmpty, fun request hRequest => hNone request (hMem request hRequest)⟩

theorem Fresh.remove (h : Fresh lost s) {kept removed : List LiveRequest}
    (hMem : ∀ request ∈ kept, request ∈ s.requestTasks) :
    Fresh lost { s with requestTasks := kept, removed := removed } :=
  ⟨h.injective, fun n request hKept => h.entries n request (hMem request hKept), h.records⟩

theorem countOf_singleton (x : Nat) (request : LiveRequest) :
    (countOf x [request] : Int) = if x = request.2.peerConnection then 1 else 0 := by
  unfold countOf
  rw [List.countP_singleton]
  by_cases hx : x = request.2.peerConnection
  · simp [hx]
  · simp [hx, Ne.symm hx]

/-- The connection of an erased entry is owed a call. -/
theorem Accounted.erase (h : Accounted debt lost s) {request : LiveRequest}
    (hMem : request ∈ s.requestTasks) :
    Accounted (fun x => debt x + if x = request.2.peerConnection then 1 else 0) lost
      (s.erase request) := by
  have hRemoved := h.remove (show s.requestTasks.Perm ([request] ++ s.requestTasks.erase request)
    from List.perm_cons_erase hMem)
  simp only [countOf_singleton] at hRemoved
  exact hRemoved

theorem Fresh.erase (h : Fresh lost s) (request : LiveRequest) : Fresh lost (s.erase request) :=
  h.remove fun _ hMem => List.mem_of_mem_erase hMem

/-- The sweep calls the connection of an entry and then erases the entry. -/
theorem sweep_accounted (requests : List LiveRequest) (hNodup : requests.Nodup)
    (hMem : ∀ request ∈ requests, request ∈ s.requestTasks) (h : Accounted debt lost s)
    (hFresh : Fresh lost s) :
    Accounted debt lost (requests.foldl
      (fun s request =>
        if request.2.timeout < s.now - request.2.requestTime then
          (s.onSubPieceTimeout request.2.peerConnection).erase request
        else s) s) := by
  induction requests generalizing s with
  | nil => exact h
  | cons request rest ih =>
      obtain ⟨hNotMem, hRest⟩ := List.nodup_cons.mp hNodup
      rw [List.foldl_cons]
      split
      · have hCalled : Held (paid debt request.2.peerConnection) lost s
            (s.onSubPieceTimeout request.2.peerConnection) :=
          onSubPieceTimeout_held ⟨h, hFresh, fun _ hOld => hOld, rfl⟩ _
        have hErased := hCalled.accounted.erase (hCalled.kept request (hMem request List.mem_cons_self))
        have hDebt : (fun x => paid debt request.2.peerConnection x +
            if x = request.2.peerConnection then (1 : Int) else 0) = debt := by
          funext x
          unfold paid
          ring
        rw [hDebt] at hErased
        apply ih hRest _ hErased (hCalled.fresh.erase request)
        intro other hOther
        apply (List.mem_erase_of_ne _).mpr
        · exact hCalled.kept other (hMem other (List.mem_cons_of_mem _ hOther))
        · rintro rfl
          exact hNotMem hOther
      · exact ih hRest (fun other hOther => hMem other (List.mem_cons_of_mem _ hOther)) h hFresh

/-- Records may be held in hand or forgotten. -/
theorem Accounted.hold (h : Accounted debt lost s) {lost' : Nat → List (Nat × LivePosition)}
    (hSub : ∀ x, ∀ record ∈ lost' x, record ∈ (s.connections x).requestMap ++ lost x) :
    Accounted debt lost' s := by
  refine { h with recorded := fun x record hRecord => ?_ }
  apply h.recorded x record
  rcases List.mem_append.mp hRecord with hMap | hLost
  · exact List.mem_append_left _ hMap
  · exact hSub x record hLost

theorem Fresh.hold (h : Fresh lost s) {lost' : Nat → List (Nat × LivePosition)}
    (hSub : ∀ x, ∀ record ∈ lost' x, record ∈ (s.connections x).requestMap ++ lost x) :
    Fresh lost' s := by
  refine { h with records := fun n x record hRecord => ?_ }
  apply h.records n x record
  rcases List.mem_append.mp hRecord with hMap | hLost
  · exact List.mem_append_left _ hMap
  · exact hSub x record hLost

/-- Every entry of a lost packet belongs to the connection that sent the packet. -/
theorem eraseAllLost_accounted (toDelete : List (Nat × LivePosition))
    (hMem : ∀ record ∈ toDelete, record ∈ lost c) (h : Accounted debt lost s)
    (hFresh : Fresh lost s) :
    Accounted (fun x => debt x + if x = c then ((eraseAllLost toDelete s).2 : Int) else 0) lost
      (eraseAllLost toDelete s).1 ∧ Fresh lost (eraseAllLost toDelete s).1 := by
  induction toDelete generalizing s debt with
  | nil => simpa [eraseAllLost] using ⟨h, hFresh⟩
  | cons record rest ih =>
      have hRest : ∀ other ∈ rest, other ∈ lost c := fun other hOther =>
        hMem other (List.mem_cons_of_mem _ hOther)
      unfold eraseAllLost eraseLost
      cases hFind : s.requestTasks.find? fun request =>
          decide (request.1 = record.2 ∧ request.2.transactionId = record.1) with
      | none =>
          simp only [Nat.zero_add]
          exact ih hRest h hFresh
      | some request =>
          have hHere := List.mem_of_find?_eq_some hFind
          have hId : request.2.transactionId = record.1 := by
            have hTest := List.find?_some hFind
            simp only [decide_eq_true_eq] at hTest
            exact hTest.2
          have hOwner : request.2.peerConnection = c := h.recorded c record
            (List.mem_append_right _ (hMem record List.mem_cons_self)) request hHere hId
          obtain ⟨hNext, hNextFresh⟩ := ih hRest (h.erase hHere) (hFresh.erase request)
          refine ⟨?_, hNextFresh⟩
          convert hNext using 2 with x
          rw [hOwner]
          by_cases hx : x = c
          · simp only [hx, if_true]
            push_cast
            ring
          · simp [hx]

end Erasures

section Packets

theorem countOf_eq_count (x : Nat) (requests : List LiveRequest) :
    countOf x requests = (requests.map fun request => request.2.peerConnection).count x := by
  unfold countOf List.count
  rw [List.countP_map]
  apply List.countP_congr
  intro request _
  simp

/-- At most one entry of a subpiece was requested by a packet. -/
theorem Accounted.matched_eq (h : Accounted debt lost s) (packet : LiveSubPiecePacket) :
    (s.requestTasks.filter (·.1 = packet.subPieceInfo)).filter (s.isMatched packet) =
      (((s.requestTasks.filter (·.1 = packet.subPieceInfo)).filter
        (s.isMatched packet)).getLast?).toList := by
  have hNodup : ((s.requestTasks.filter (·.1 = packet.subPieceInfo)).filter
      (s.isMatched packet)).map (fun request => (request.1, request.2.transactionId)) |>.Nodup :=
    h.distinct.sublist ((List.filter_sublist.trans List.filter_sublist).map _)
  have hSame : ∀ request ∈ (s.requestTasks.filter (·.1 = packet.subPieceInfo)).filter
      (s.isMatched packet),
      (request.1, request.2.transactionId) = (packet.subPieceInfo, packet.transactionId) := by
    intro request hMem
    obtain ⟨hRange, hMatched⟩ := List.mem_filter.mp hMem
    simp only [isMatched, Bool.and_eq_true, decide_eq_true_eq] at hMatched
    rw [of_decide_eq_true (List.mem_filter.mp hRange).2, hMatched.2]
  generalize (s.requestTasks.filter (·.1 = packet.subPieceInfo)).filter (s.isMatched packet) =
    found at hNodup hSame ⊢
  match found with
  | [] => rfl
  | [request] => rfl
  | first :: second :: rest =>
      rw [List.map_cons, List.map_cons, List.nodup_cons] at hNodup
      exact absurd (by simp [hSame first, hSame second]) hNodup.1

/-- The calls after the entries of a subpiece were erased, when one was matched. -/
theorem settle_accounted (h : Accounted debt (fun _ => []) s) (hFresh : Fresh (fun _ => []) s)
    (request : LiveRequest) (transactionId : Nat) (unmatched : List LiveRequest)
    (hDebt : ∀ x, debt x =
      (if x = request.2.peerConnection then 1 else 0) + countOf x unmatched) :
    let c := request.2.peerConnection
    let lostPackets := (s.connections c).deleteLostPackets transactionId
    let answered := (s.setConnection c lostPackets.1).onSubPiece c (s.now - request.2.requestTime)
    let timedOut :=
      (unmatched.map fun request => request.2.peerConnection).foldl onSubPieceTimeout answered
    let erased := eraseAllLost lostPackets.2 timedOut
    Accounted (fun _ => 0) (fun _ => [])
      ((List.replicate erased.2 c).foldl onSubPieceTimeout erased.1) := by
  intro c lostPackets answered timedOut erased
  let lost : Nat → List (Nat × LivePosition) := fun x => if x = c then lostPackets.2 else []
  have hLost : ∀ x, ∀ record ∈ lost x, record ∈ (s.connections x).requestMap ++ [] := by
    intro x record hRecord
    by_cases hx : x = c
    · subst hx
      simp only [lost, if_true] at hRecord
      exact List.mem_append_left _ ((List.takeWhile_sublist _).subset hRecord)
    · simp [lost, hx] at hRecord
  have hSame : SameRequests (s.connections c) lostPackets.1 :=
    ⟨id, fun _ hRecord => (List.dropWhile_sublist _).subset hRecord, id⟩
  have hTaken : Accounted debt lost (s.setConnection c lostPackets.1) := by
    apply (h.hold hLost).change hSame
    · intro _
      show (s.connections c).requestingCount = (s.connections c).requestingCount + debt c - debt c
      ring
    · intro x _
      rfl
    · intro x
      rfl
    · by_cases hRunning : (s.connections c).isRunning = true
      · exact Or.inl (h.created_of_running hRunning)
      · exact Or.inr (Bool.not_eq_true _ ▸ hRunning)
  have hTakenFresh : Fresh lost (s.setConnection c lostPackets.1) :=
    (hFresh.hold hLost).change hSame s.calls
  have hAnswered : Held (paid debt c) lost _ answered :=
    onSubPiece_held ⟨hTaken, hTakenFresh, fun _ hOld => hOld, rfl⟩ c _
  have hTimedOut := timeouts_held (unmatched.map fun request => request.2.peerConnection) hAnswered
  obtain ⟨hErased, hErasedFresh⟩ := eraseAllLost_accounted (c := c) lostPackets.2
    (fun record hRecord => by simpa [lost] using hRecord) hTimedOut.accounted hTimedOut.fresh
  have hPaid := timeouts_held (List.replicate erased.2 c)
    ⟨hErased, hErasedFresh, fun _ hOld => hOld, rfl⟩
  have hZero : Accounted _ (fun _ => []) _ :=
    hPaid.accounted.hold fun _ _ hRecord => by cases hRecord
  convert hZero using 1
  funext x
  rw [← countOf_eq_count, List.count_replicate, paid, hDebt x]
  by_cases hx : x = c
  · simp [hx, c, erased, timedOut]
  · simp [hx, c, Ne.symm hx]

/-- A packet removes the entries of its subpiece and what it overtook, each with its call. -/
theorem onSubPiecePacket_accounted (h : Accounted (fun _ => 0) (fun _ => []) s)
    (hFresh : Fresh (fun _ => []) s) (packet : LiveSubPiecePacket) :
    Accounted (fun _ => 0) (fun _ => []) (s.onSubPiecePacket packet) := by
  have hMatched := h.matched_eq packet
  unfold onSubPiecePacket
  dsimp only
  generalize hRange : s.requestTasks.filter (·.1 = packet.subPieceInfo) = range at hMatched ⊢
  have hPerm : s.requestTasks.Perm (range ++ s.requestTasks.filter (·.1 ≠ packet.subPieceInfo)) := by
    rw [← hRange]
    simpa using (List.filter_append_perm (fun request : LiveRequest =>
      decide (request.1 = packet.subPieceInfo)) s.requestTasks).symm
  have hSplit : ∀ x, (countOf x range : Int) = countOf x (range.filter (s.isMatched packet)) +
      countOf x (range.filter fun request => !s.isMatched packet request) := by
    intro x
    rw [← Nat.cast_add, ← countOf_append]
    exact congrArg _ (countOf_perm (List.filter_append_perm _ range) x).symm
  have hRemoved := h.remove hPerm
  have hRemovedFresh : Fresh (fun _ => []) { s with
      requestTasks := s.requestTasks.filter (·.1 ≠ packet.subPieceInfo)
      removed := s.removed ++ range } := hFresh.remove fun _ hMem => (List.mem_filter.mp hMem).1
  generalize hUnmatched : (range.filter fun request => !s.isMatched packet request) =
    unmatched at hSplit ⊢
  have hFold : ∀ t : LiveP2PDownloader,
      unmatched.foldl (fun s request => s.onSubPieceTimeout request.2.peerConnection) t =
      (unmatched.map fun request => request.2.peerConnection).foldl onSubPieceTimeout t :=
    fun t => List.foldl_map.symm
  simp only [hFold]
  cases hLast : (range.filter (s.isMatched packet)).getLast? with
  | none =>
      rw [hLast] at hMatched
      have hCalled := timeouts_held (unmatched.map fun request => request.2.peerConnection)
        ⟨hRemoved, hRemovedFresh, fun _ hOld => hOld, rfl⟩
      convert hCalled.accounted using 1
      funext x
      rw [← countOf_eq_count, hSplit x, hMatched]
      simp [countOf]
  | some request =>
      rw [hLast] at hMatched
      exact settle_accounted hRemoved hRemovedFresh request packet.transactionId unmatched
        fun x => by rw [hSplit x, hMatched, Option.toList_some, countOf_singleton, zero_add]

end Packets

section Runs

variable {t : LiveP2PDownloader} {a : (Nat → Nat) × LiveRequestAction}

/-- `NewTransactionID` gives different ids, and none that an outstanding request or a
request map still has. -/
def FreshIds (s : LiveP2PDownloader) (a : (Nat → Nat) × LiveRequestAction) : Prop :=
  Fresh (fun _ => []) { s with ids := a.1 }

/-- Nothing is owed between two steps. -/
abbrev Settled (s : LiveP2PDownloader) : Prop := Accounted (fun _ => 0) (fun _ => []) s

/-- The accounts of the requests. The counter of a connection that runs is the number of
its entries, and the number of its requests less that of its calls. Every request is
outstanding or was removed, and for what was removed its connection was called, entry
for entry. -/
structure AccountsFor (s : LiveP2PDownloader) : Prop where
  requesting_eq : ∀ c, (s.connections c).isRunning = true →
    (s.connections c).requestingCount = countOf c s.requestTasks
  requesting_eq_sub : ∀ c, (s.connections c).isRunning = true →
    (s.connections c).requestingCount = countOf c s.issued - s.calls.count c
  issued_perm : s.issued.Perm (s.removed ++ s.requestTasks)
  calls_eq : ∀ c, countOf c s.removed = s.calls.count c
  distinct : (s.requestTasks.map fun request =>
    (request.1, request.2.transactionId)).Nodup

theorem Accounted.accountsFor (h : Settled s) : AccountsFor s := by
  have hCalls : ∀ c, countOf c s.removed = s.calls.count c := by
    intro c
    have hEq := h.calls_eq c
    omega
  refine ⟨fun c hRunning => ?_, fun c hRunning => ?_, h.issued_perm, hCalls, h.distinct⟩
  · simpa using h.requesting_eq c hRunning
  · rw [h.requesting_eq c hRunning, countOf_perm h.issued_perm, countOf_append, hCalls c]
    push_cast
    ring

theorem create_settled : Settled create where
  requesting_eq c hRunning := by cases hRunning
  issued_perm := .refl _
  calls_eq _ := rfl
  distinct := List.nodup_nil
  owner _ hMem := by cases hMem
  recorded _ _ _ _ hMem := by cases hMem
  taskSet_nodup _ := List.nodup_nil
  uncreated _ _ := ⟨rfl, rfl, fun _ hMem => by cases hMem⟩

/-- A connection changes while nothing is requested. -/
theorem Accounted.set (h : Settled s) {conn : LivePeerConnection}
    (hSame : SameRequests (s.connections c) conn)
    (hCount : conn.requestingCount = (s.connections c).requestingCount) :
    Settled (s.setConnection c conn) := by
  apply h.change hSame
  · intro _
    simpa using hCount
  · intro x _
    rfl
  · intro x
    rfl
  · by_cases hRunning : conn.isRunning = true
    · exact Or.inl (h.created_of_running (hSame.isRunning_of hRunning))
    · exact Or.inr (by simpa using hRunning)

/-- A new connection takes a number that no entry has. -/
theorem Accounted.start (h : Settled s) (endPoint : Nat × Nat) (isUdpServer : Bool)
    (configs : LiveWindowConfigs) :
    Settled { s.setConnection s.created (.start endPoint isUdpServer configs) with
      created := s.created + 1 } := by
  obtain ⟨-, -, hNone⟩ := h.uncreated s.created (Nat.le_refl _)
  refine ⟨fun x hRunning => ?_, h.issued_perm, h.calls_eq, h.distinct, h.owner,
    fun x record hRecord => ?_, fun x => ?_, fun x hLe => ?_⟩
  · show ((Function.update s.connections s.created _) x).requestingCount =
      countOf x s.requestTasks + 0
    by_cases hx : x = s.created
    · subst hx
      rw [Function.update_self, countOf, List.countP_eq_zero.mpr]
      · rfl
      · intro request hMem
        simpa using hNone request hMem
    · rw [Function.update_of_ne hx]
      apply h.requesting_eq x
      simpa [setConnection, hx] using hRunning
  · by_cases hx : x = s.created
    · subst hx
      simp [setConnection, LivePeerConnection.start] at hRecord
    · apply h.recorded x record
      simpa [setConnection, hx] using hRecord
  · show ((Function.update s.connections s.created _) x).taskSet.Nodup
    by_cases hx : x = s.created
    · subst hx
      rw [Function.update_self]
      exact List.nodup_nil
    · rw [Function.update_of_ne hx]
      exact h.taskSet_nodup x
  · have hLt : s.created < x := hLe
    show ((Function.update s.connections s.created _) x).isRunning = false ∧
      ((Function.update s.connections s.created _) x).requestMap = [] ∧ _
    rw [Function.update_of_ne (Nat.ne_of_gt hLt)]
    exact h.uncreated x (Nat.le_of_lt hLt)

theorem addAssignedSubPiece_same (conn : LivePeerConnection) (subpiece : LivePosition) :
    SameRequests conn (conn.addAssignedSubPiece subpiece) ∧
      (conn.addAssignedSubPiece subpiece).requestingCount = conn.requestingCount := by
  unfold LivePeerConnection.addAssignedSubPiece
  split
  · exact ⟨⟨id, fun _ => id, id⟩, rfl⟩
  · rename_i hNew
    refine ⟨⟨id, fun _ => id, fun hNodup => ?_⟩, rfl⟩
    exact (List.perm_orderedInsert _ subpiece conn.taskSet).nodup_iff.mpr
      (List.nodup_cons.mpr ⟨hNew, hNodup⟩)

/-- Every step with new ids settles what it owes. -/
theorem next_settled (h : Settled s) (hFresh : FreshIds s a) (hStep : s.next a = some t) :
    Settled t := by
  obtain ⟨ids, action⟩ := a
  obtain rfl := Option.some.inj hStep
  have hIds : Settled { s with ids := ids } := { h with }
  have hHeld : Held (fun _ => 0) (fun _ => []) { s with ids := ids } { s with ids := ids } :=
    ⟨hIds, hFresh, fun _ hOld => hOld, rfl⟩
  cases action with
  | start endPoint isUdpServer configs => exact hIds.start endPoint isUdpServer configs
  | stop c => exact hIds.set ⟨fun hRunning => (by cases hRunning), fun _ => id, id⟩ rfl
  | addAssignedSubPiece c subpiece =>
      obtain ⟨hSame, hCount⟩ := addAssignedSubPiece_same (s.connections c) subpiece
      exact hIds.set hSame hCount
  | clearTaskQueue c => exact hIds.set ⟨id, fun _ => id, fun _ => List.nodup_nil⟩ rfl
  | onP2PTimer c times nowDownloadSpeed =>
      show Settled (onP2PTimer _ c times nowDownloadSpeed)
      unfold onP2PTimer
      split
      · exact hIds
      · split
        · have hSame : SameRequests (s.connections c)
              ((s.connections c).updateWindow nowDownloadSpeed) := ⟨id, fun _ => id, id⟩
          have hWindow : Held (fun _ => 0) (fun _ => []) { s with ids := ids }
              (setConnection { s with ids := ids } c
                ((s.connections c).updateWindow nowDownloadSpeed)) :=
            ⟨hIds.set hSame rfl, hFresh.change hSame s.calls, fun _ hOld => hOld, rfl⟩
          exact (requestTillFullWindow_held hWindow c).accounted
        · exact (requestTillFullWindow_held hHeld c).accounted
  | onSubPiece packet => exact onSubPiecePacket_accounted hIds hFresh packet
  | checkExternalTimeout =>
      exact sweep_accounted _ (List.Nodup.of_map _ h.distinct) (fun _ hMem => hMem) hIds hFresh
  | others now restTimeInSeconds isLiveLostPrejudgeEnable hasSubPiece => exact { h with }

theorem settled_of_run (run : Reaches Step FreshIds create s) : Settled s := by
  apply run.invariant create_settled
  intro before action after hBefore hMet hStep
  exact next_settled hBefore hMet hStep

/-- After any requests, replies, timeouts, losses and stops the accounts agree. -/
theorem accountsFor_of_run (run : Reaches Step FreshIds create s) : AccountsFor s :=
  (settled_of_run run).accountsFor

/-- Ids from `k` on are new when all ids in use are below `k`. -/
def idsBelow (s : LiveP2PDownloader) (k : Nat) : Bool :=
  (s.requestTasks.all fun request => request.2.transactionId < k) &&
    (List.range s.created).all fun c => (s.connections c).requestMap.all fun record => record.1 < k

theorem freshIds_of_below (h : Settled s) {k : Nat} (hBelow : s.idsBelow k = true)
    (action : LiveRequestAction) : FreshIds s (fun n => n + k, action) := by
  simp only [idsBelow, Bool.and_eq_true, List.all_eq_true, decide_eq_true_eq, List.mem_range]
    at hBelow
  refine ⟨fun m n hEq => Nat.add_right_cancel hEq, fun n request hMem => ?_,
    fun n c record hMem => ?_⟩
  · have := hBelow.1 request hMem
    show request.2.transactionId ≠ n + k
    omega
  · show record.1 ≠ n + k
    rw [List.append_nil] at hMem
    by_cases hCreated : c < s.created
    · have := hBelow.2 c hCreated record hMem
      omega
    · have hEmpty := (h.uncreated c (Nat.not_lt.mp hCreated)).2.1
      have hMem : record ∈ (s.connections c).requestMap := hMem
      rw [hEmpty] at hMem
      cases hMem

theorem exists_run (actions : List (Nat × LiveRequestAction)) (test : LiveP2PDownloader → Bool)
    (h : (execute (checked (fun s a => s.next (fun n => n + a.1, a.2)) fun s a => s.idsBelow a.1)
      create actions).any test = true) :
    ∃ s, Reaches Step FreshIds create s ∧ test s = true := by
  obtain ⟨s, hRun, hs⟩ := Reaches.exists_of_checked _ _ _ _ _ h
  refine ⟨s, ?_, hs⟩
  clear hs h
  induction hRun with
  | refl => exact .refl _
  | tail _ hMet hLast ih => exact ih.tail (freshIds_of_below (settled_of_run ih) hMet _) hLast

/-- Two connections request; a reply to the second packet of one overtakes the first, and
the request of the other for the same subpiece times out with it. -/
def overtaken : List (Nat × LiveRequestAction) :=
  [(0, .start (1, 1) false {}), (0, .start (2, 2) false {}),
    (0, .others 0 0 true fun _ => false),
    (0, .addAssignedSubPiece 0 ⟨10, 1⟩), (0, .onP2PTimer 0 1 0),
    (1, .addAssignedSubPiece 0 ⟨10, 2⟩), (1, .onP2PTimer 0 1 0),
    (2, .addAssignedSubPiece 1 ⟨10, 2⟩), (2, .addAssignedSubPiece 1 ⟨10, 3⟩),
    (2, .onP2PTimer 1 1 0),
    (3, .onSubPiece ⟨⟨10, 2⟩, (1, 1), 1⟩)]

theorem accountsFor_of_overtaken : ∃ s : LiveP2PDownloader,
    (s.requestTasks.map (·.1) = [⟨10, 3⟩] ∧ (s.connections 0).requestingCount = 0 ∧
      (s.connections 1).requestingCount = 1 ∧ s.calls = [0, 1, 0]) ∧ AccountsFor s := by
  obtain ⟨s, hRun, hs⟩ := exists_run overtaken
    (fun s => decide (s.requestTasks.map (·.1) = [⟨10, 3⟩] ∧
      (s.connections 0).requestingCount = 0 ∧ (s.connections 1).requestingCount = 1 ∧
      s.calls = [0, 1, 0])) (by decide +kernel)
  exact ⟨s, of_decide_eq_true hs, accountsFor_of_run hRun⟩

end Runs

end LiveP2PDownloader

end P2P
