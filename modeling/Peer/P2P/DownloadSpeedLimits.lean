import Peer.P2P.DownloadSpeedLimiter
import Mathlib.Data.List.Perm.Subperm

/-! What the limiter for requests keeps to, and when the count that it says is left is the
one that is left. -/
namespace P2P

open Basis Storage

namespace DownloadSpeedLimiter

variable {s : DownloadSpeedLimiter} {data : EndpointPacketInfo} {a : Action}
  {now subpieces transId config : Nat} {isSent openOld : Bool} {requests : List Request}
  {request : Request} {queue : List EndpointPacketInfo}

section Requests

/-- Whenever a packet goes out, what was requested in the tick is then less than the limit
and the subpieces of this packet together. -/
def WithinLimit (requests : List Request) : Prop :=
  ∀ before request, before ++ [request] <+: requests →
    ∀ perTick, request.limit = some perTick →
      requested (before ++ [request]) ≤ perTick + request.data.subpieces - 1

theorem Request.asked_le (request : Request) : request.asked ≤ request.data.subpieces := by
  unfold asked
  split
  · exact Nat.zero_le _
  · exact Nat.le_refl _

theorem requested_concat (requests : List Request) (request : Request) :
    requested (requests ++ [request]) = requested requests + request.asked := by
  simp [requested]

theorem withinLimit_nil : WithinLimit [] := by
  intro before request hPart
  have hNil := List.prefix_nil.mp hPart
  simp at hNil

/-- One more packet goes out below the limit. -/
theorem WithinLimit.concat (h : WithinLimit requests)
    (hRoom : ∀ perTick, request.limit = some perTick → requested requests < perTick) :
    WithinLimit (requests ++ [request]) := by
  intro before request' hPart perTick hLimit
  rcases List.prefix_concat_iff.mp hPart with hWhole | hPart
  · obtain ⟨rfl, hSame⟩ := List.append_inj' hWhole rfl
    obtain rfl : request' = request := by simpa using hSame
    have hLess := hRoom perTick hLimit
    have hAsked := request'.asked_le
    rw [requested_concat]
    omega
  · exact h before request' hPart perTick hLimit

end Requests

section Accounts

/-- What counts as sent is what was requested. -/
structure Accounted (s : DownloadSpeedLimiter) : Prop where
  lastSent_eq : s.lastSent = s.lastTransId
  sentCount_lt : s.sentCount < 2 ^ 32
  sentCount_eq : s.speedLimitInKBps < 2 ^ 31 → s.sentCount = requested s.requests
  perTick_lt : s.speedLimitInKBps < 2 ^ 31 → s.packetNumberPerTick < 2 ^ 23
  withinLimit : WithinLimit s.requests

theorem limit_eq_some {perTick : Nat} (h : s.limit = some perTick) :
    s.speedLimitInKBps < 2 ^ 31 ∧ s.packetNumberPerTick = perTick := by
  unfold limit at h
  split at h
  · simp at h
  · rename_i hLimit
    exact ⟨Nat.lt_of_not_le hLimit, Option.some.inj h⟩

@[simp] theorem submit_limit : (s.submit transId subpieces).limit = s.limit := by
  unfold submit
  split <;> rfl

/-- A packet goes out within the limit, and counts. -/
theorem Accounted.letOut (h : Accounted s) (hRoom : s.sentCount < s.packetNumberPerTick)
    (hFits : s.speedLimitInKBps < 2 ^ 31 → s.sentCount + data.subpieces < 2 ^ 32) :
    Accounted ((s.submit data.transId data.subpieces).letOut data isSent) := by
  have hWithin : ∀ isCopy, WithinLimit (s.requests ++ [⟨data, isCopy, s.limit⟩]) := by
    intro isCopy
    apply h.withinLimit.concat
    intro perTick hLimit
    obtain ⟨hLimited, rfl⟩ := limit_eq_some hLimit
    rw [← h.sentCount_eq hLimited]
    exact hRoom
  by_cases hCopy : data.transId = s.lastTransId
  · have hSame : s.submit data.transId data.subpieces = s := by simp [submit, hCopy]
    rw [hSame]
    refine ⟨hCopy, h.sentCount_lt, ?_, h.perTick_lt, hWithin _⟩
    intro hLimited
    show s.sentCount = requested (s.requests ++ [_])
    rw [requested_concat, h.sentCount_eq hLimited]
    simp [Request.asked, h.lastSent_eq, hCopy]
  · have hOther : s.submit data.transId data.subpieces =
        { s with
          sentCount := u32 (s.sentCount + data.subpieces)
          lastTransId := data.transId } := by simp [submit, hCopy]
    rw [hOther]
    refine ⟨rfl, u32_lt _, ?_, h.perTick_lt, hWithin _⟩
    intro hLimited
    show u32 (s.sentCount + data.subpieces) = requested (s.requests ++ [_])
    have hNotCopy : (s.lastSent == data.transId) = false := by
      rw [h.lastSent_eq]
      exact beq_false_of_ne (Ne.symm hCopy)
    rw [requested_concat, u32_of_lt (hFits hLimited), h.sentCount_eq hLimited]
    simp [Request.asked, hNotCopy]

/-- A packet goes out without a limit. -/
theorem Accounted.letOut_unlimited (h : Accounted s) (hNone : 2 ^ 31 ≤ s.speedLimitInKBps) :
    Accounted ({ s with lastTransId := data.transId }.letOut data isSent) := by
  have hNot : ¬ s.speedLimitInKBps < 2 ^ 31 := Nat.not_lt.mpr hNone
  refine ⟨rfl, h.sentCount_lt, fun hLimited => absurd hLimited hNot, fun hLimited => absurd hLimited hNot, ?_⟩
  apply h.withinLimit.concat
  intro perTick hLimit
  exact absurd (limit_eq_some hLimit).1 hNot

theorem drain_accounted (h : Accounted s)
    (hCounts : ∀ data ∈ queue, data.pieceCount = data.subpieces) :
    Accounted (drain now openOld queue s) := by
  induction queue generalizing s with
  | nil => exact ⟨h.lastSent_eq, h.sentCount_lt, h.sentCount_eq, h.perTick_lt, h.withinLimit⟩
  | cons data rest ih =>
      obtain ⟨hData, hRest⟩ := List.forall_mem_cons.mp hCounts
      unfold drain
      split
      · rename_i hRoom
        split
        · exact ih h hRest
        · have hSmall : data.subpieces < 2 ^ 16 := by
            rw [← hData]
            unfold EndpointPacketInfo.pieceCount
            split
            · decide
            · exact u16_lt _
          rw [hData]
          apply ih _ hRest
          apply h.letOut hRoom
          intro hLimited
          have hTick := h.perTick_lt hLimited
          omega
      · exact ⟨h.lastSent_eq, h.sentCount_lt, h.sentCount_eq, h.perTick_lt, h.withinLimit⟩

end Accounts

section Queue

/-- What a loop leaves is part of what was there. -/
theorem drain_sublist (queue : List EndpointPacketInfo) (s : DownloadSpeedLimiter) :
    ((drain now openOld queue s).sent ++ (drain now openOld queue s).dataQueue).Sublist
      (s.sent ++ queue) := by
  induction queue generalizing s with
  | nil =>
      simp [drain]
  | cons data rest ih =>
      unfold drain
      split
      · apply (ih _).trans
        have hSubmit : (s.submit data.transId data.pieceCount).sent = s.sent := by
          unfold submit
          split <;> rfl
        split
        · exact (List.sublist_cons_self data rest).append_left s.sent
        · unfold letOut
          dsimp only
          rw [hSubmit]
          split
          · rw [List.append_assoc, List.singleton_append]
          · exact (List.sublist_cons_self data rest).append_left s.sent
      · exact List.Sublist.refl _

theorem drain_dataQueue_suffix (queue : List EndpointPacketInfo) (s : DownloadSpeedLimiter) :
    (drain now openOld queue s).dataQueue <:+ queue := by
  induction queue generalizing s with
  | nil => exact List.suffix_refl _
  | cons data rest ih =>
      unfold drain
      split
      · exact (ih _).trans (List.suffix_cons data rest)
      · exact List.suffix_refl _

theorem doRequestSubPiece_subperm (s : DownloadSpeedLimiter) (data : EndpointPacketInfo)
    (hasStatistic : Bool) :
    ((s.doRequestSubPiece data hasStatistic).sent ++
        (s.doRequestSubPiece data hasStatistic).dataQueue).Subperm
      (data :: (s.sent ++ s.dataQueue)) := by
  have hSent : (s.sent ++ [data] ++ s.dataQueue).Perm (data :: (s.sent ++ s.dataQueue)) := by
    rw [List.append_assoc]
    exact List.perm_middle
  have hWaits : (s.sent ++ (s.dataQueue ++ [data])).Perm (data :: (s.sent ++ s.dataQueue)) := by
    rw [← List.append_assoc]
    exact List.perm_append_singleton _ _
  unfold doRequestSubPiece
  split
  · exact (List.sublist_cons_self _ _).subperm
  split
  · have hTail : (s.sent ++ (s.dataQueue.tail ++ [data])).Sublist
        (s.sent ++ (s.dataQueue ++ [data])) :=
      ((List.tail_sublist _).append_right _).append_left _
    exact hTail.subperm.trans hWaits.subperm
  split
  · split <;> exact hSent.subperm
  split
  · split
    · unfold submit
      split <;> exact hSent.subperm
    · exact hSent.subperm
  · exact hWaits.subperm

theorem doRequestSubPiece_length (hMax : 0 < s.maxDataQueueLength)
    (h : s.dataQueue.length ≤ s.maxDataQueueLength) (data : EndpointPacketInfo)
    (hasStatistic : Bool) :
    (s.doRequestSubPiece data hasStatistic).dataQueue.length ≤ s.maxDataQueueLength := by
  unfold doRequestSubPiece
  split
  · exact h
  split
  · show (s.dataQueue.tail ++ [data]).length ≤ _
    rw [List.length_append, List.length_tail, List.length_singleton]
    omega
  rename_i hFree
  split
  · split <;> exact h
  split
  · split
    · unfold submit
      split <;> exact h
    · exact h
  · show (s.dataQueue ++ [data]).length ≤ _
    rw [List.length_append, List.length_singleton]
    omega

/-- What the queue keeps to, whatever happens. -/
structure Queued (s : DownloadSpeedLimiter) : Prop where
  max_pos : 0 < s.maxDataQueueLength
  length_le : s.dataQueue.length ≤ s.maxDataQueueLength
  nodup : ((s.sent ++ s.dataQueue).map (·.packet)).Nodup
  packet_lt : ∀ data ∈ s.sent ++ s.dataQueue, data.packet < s.offered

theorem nodup_map_of_subperm {α β : Type} {f : α → β} {l l' : List α} (h : l.Subperm l')
    (hNodup : (l'.map f).Nodup) : (l.map f).Nodup := by
  obtain ⟨l'', hPerm, hPart⟩ := h
  exact (hPerm.map f).nodup_iff.mp (hNodup.sublist (hPart.map f))

/-- Some of what was there is left. -/
theorem Queued.of_subperm {t : DownloadSpeedLimiter} (h : Queued s)
    (hMax : t.maxDataQueueLength = s.maxDataQueueLength) (hOffered : t.offered = s.offered)
    (hLength : t.dataQueue.length ≤ s.dataQueue.length)
    (hPart : (t.sent ++ t.dataQueue).Subperm (s.sent ++ s.dataQueue)) : Queued t := by
  refine ⟨?_, ?_, nodup_map_of_subperm hPart h.nodup, ?_⟩
  · rw [hMax]
    exact h.max_pos
  · rw [hMax]
    exact hLength.trans h.length_le
  · intro data hData
    rw [hOffered]
    exact h.packet_lt data (hPart.subset hData)

theorem drain_same (now : Nat) (openOld : Bool) (queue : List EndpointPacketInfo)
    (s : DownloadSpeedLimiter) :
    (drain now openOld queue s).maxDataQueueLength = s.maxDataQueueLength ∧
      (drain now openOld queue s).offered = s.offered := by
  induction queue generalizing s with
  | nil => exact ⟨rfl, rfl⟩
  | cons data rest ih =>
      unfold drain
      split
      · obtain ⟨hMax, hOffered⟩ := ih (if s.isTimeOut data now then s else
          (s.submit data.transId data.pieceCount).letOut data (!data.isOldPacket || openOld))
        rw [hMax, hOffered]
        unfold letOut submit
        split
        · exact ⟨rfl, rfl⟩
        · split <;> exact ⟨rfl, rfl⟩
      · exact ⟨rfl, rfl⟩

theorem doRequestSubPiece_same (data : EndpointPacketInfo) (hasStatistic : Bool) :
    (s.doRequestSubPiece data hasStatistic).maxDataQueueLength = s.maxDataQueueLength ∧
      (s.doRequestSubPiece data hasStatistic).offered = s.offered := by
  unfold doRequestSubPiece submit letOut
  repeat' split
  all_goals exact ⟨rfl, rfl⟩

theorem Queued.next (h : Queued s) (a : Action) : Queued (next s a) := by
  cases a with
  | offer subpieces transId isOldPacket hasStatistic now =>
      obtain ⟨hMax, hOffered⟩ := doRequestSubPiece_same (s := { s with offered := s.offered + 1 })
        (s.offeredPacket subpieces transId isOldPacket now) hasStatistic
      have hPart := doRequestSubPiece_subperm { s with offered := s.offered + 1 }
        (s.offeredPacket subpieces transId isOldPacket now) hasStatistic
      unfold DownloadSpeedLimiter.next
      refine ⟨?_, ?_, nodup_map_of_subperm hPart ?_, ?_⟩
      · rw [hMax]
        exact h.max_pos
      · rw [hMax]
        exact doRequestSubPiece_length (s := { s with offered := s.offered + 1 }) h.max_pos
          h.length_le _ _
      · rw [List.map_cons]
        apply List.nodup_cons.mpr
        refine ⟨?_, h.nodup⟩
        intro hMem
        obtain ⟨data, hData, hSame⟩ := List.mem_map.mp hMem
        exact absurd (h.packet_lt data hData) (Nat.not_lt.mpr (Nat.le_of_eq hSame.symm))
      · intro data hData
        rw [hOffered]
        rcases List.mem_cons.mp (hPart.subset hData) with rfl | hData
        · exact Nat.lt_succ_self s.offered
        · exact (h.packet_lt data hData).trans (Nat.lt_succ_self s.offered)
  | tick now openOld =>
      show Queued (s.onTimerElapsed now openOld)
      unfold onTimerElapsed
      split
      · exact h
      · obtain ⟨hMax, hOffered⟩ := drain_same now openOld s.dataQueue
          { s with sentCount := 0, requests := [] }
        exact h.of_subperm hMax hOffered (drain_dataQueue_suffix _ _).length_le
          (drain_sublist _ _).subperm
  | setSpeedLimit speedLimitInKBps =>
      show Queued (s.setSpeedLimitInKBps speedLimitInKBps)
      unfold setSpeedLimitInKBps
      split
      · exact h
      · exact ⟨h.max_pos, h.length_le, h.nodup, h.packet_lt⟩
  | stop =>
      show Queued s.stop
      unfold stop
      split
      · exact h.of_subperm rfl rfl (Nat.zero_le _) ((List.nil_sublist _).append_left _).subperm
      · exact h

end Queue

section Runs

/-- Whether a packet that is offered goes out at once. -/
def goesOut (s : DownloadSpeedLimiter) : Bool :=
  s.dataQueue.length < s.maxDataQueueLength ∧ s.speedLimitInKBps ≠ 0 ∧
    (2 ^ 31 ≤ s.speedLimitInKBps ∨ s.sentCount < s.packetNumberPerTick)

theorem goesOut_iff : s.goesOut = true ↔ s.dataQueue.length < s.maxDataQueueLength ∧
    s.speedLimitInKBps ≠ 0 ∧
      (2 ^ 31 ≤ s.speedLimitInKBps ∨ s.sentCount < s.packetNumberPerTick) := by
  simp only [goesOut, decide_eq_true_eq]

/-- What is let out counts for what it is: a packet that goes out has its statistic, one that
waits has as many subpieces as are noted for it, and a limit is set when what counts as sent
is what was requested. -/
def Counts (s : DownloadSpeedLimiter) : Action → Prop
  | .offer subpieces transId isOldPacket hasStatistic now =>
      s.isRunning = true →
        if s.goesOut then
          hasStatistic = true ∧
            (s.speedLimitInKBps < 2 ^ 31 → s.sentCount + subpieces < 2 ^ 32)
        else (s.offeredPacket subpieces transId isOldPacket now).pieceCount = subpieces
  | .setSpeedLimit speedLimitInKBps =>
      s.isRunning = true → speedLimitInKBps < 2 ^ 31 → s.sentCount = requested s.requests
  | .tick .. => True
  | .stop => True

instance (s : DownloadSpeedLimiter) (a : Action) : Decidable (Counts s a) :=
  match a with
  | .offer .. => inferInstanceAs (Decidable (_ → _))
  | .setSpeedLimit _ => inferInstanceAs (Decidable (_ → _ → _))
  | .tick .. => instDecidableTrue
  | .stop => instDecidableTrue

/-- What holds between two actions. -/
structure Kept (s : DownloadSpeedLimiter) : Prop extends Queued s, Accounted s where
  pieceCount_eq : ∀ data ∈ s.dataQueue, data.pieceCount = data.subpieces

theorem Accounted.doRequestSubPiece (h : Accounted s) {hasStatistic : Bool}
    (hCounts : s.goesOut = true → hasStatistic = true ∧
      (s.speedLimitInKBps < 2 ^ 31 → s.sentCount + data.subpieces < 2 ^ 32)) :
    Accounted (s.doRequestSubPiece data hasStatistic) := by
  have hSame : ∀ queue, Accounted { s with dataQueue := queue } := fun _ =>
    ⟨h.lastSent_eq, h.sentCount_lt, h.sentCount_eq, h.perTick_lt, h.withinLimit⟩
  unfold DownloadSpeedLimiter.doRequestSubPiece
  split
  · exact h
  split
  · exact hSame _
  rename_i hRunning hFree
  obtain ⟨hLength, hSome⟩ : s.dataQueue.length < s.maxDataQueueLength ∧
      s.speedLimitInKBps ≠ 0 := by simpa using hFree
  split
  · rename_i hNone
    obtain ⟨rfl, -⟩ := hCounts (goesOut_iff.mpr ⟨hLength, hSome, Or.inl hNone⟩)
    split
    · exact h.letOut_unlimited hNone
    · rename_i hCopy
      have hTrans : data.transId = s.lastTransId := by simpa using hCopy
      have hOut : Accounted ({ s with lastTransId := data.transId }.letOut data true) :=
        h.letOut_unlimited hNone
      rw [hTrans] at hOut
      exact hOut
  split
  · rename_i hRoom
    obtain ⟨rfl, hFits⟩ := hCounts (goesOut_iff.mpr ⟨hLength, hSome, Or.inr hRoom⟩)
    exact h.letOut hRoom hFits
  · exact hSame _

theorem pieceCount_eq_doRequestSubPiece {hasStatistic : Bool}
    (h : ∀ data ∈ s.dataQueue, data.pieceCount = data.subpieces)
    (hCounts : s.isRunning = true → ¬ s.goesOut = true → data.pieceCount = data.subpieces) :
    ∀ data' ∈ (s.doRequestSubPiece data hasStatistic).dataQueue,
      data'.pieceCount = data'.subpieces := by
  unfold doRequestSubPiece
  split
  · exact h
  rename_i hRunning
  have hRunning : s.isRunning = true := by simpa using hRunning
  split
  · rename_i hFull
    intro data' hData'
    rcases List.mem_append.mp hData' with hOld | hNew
    · exact h data' (List.mem_of_mem_tail hOld)
    · rw [List.mem_singleton.mp hNew]
      apply hCounts hRunning
      intro hOut
      obtain ⟨hLess, hSome, -⟩ := goesOut_iff.mp hOut
      rcases hFull with hFull | hZero
      · exact Nat.not_lt.mpr hFull hLess
      · exact hSome hZero
  split
  · split <;> exact h
  split
  · unfold submit
    split
    · split <;> exact h
    · exact h
  · rename_i hLimited hNoRoom
    intro data' hData'
    rcases List.mem_append.mp hData' with hOld | hNew
    · exact h data' hOld
    · rw [List.mem_singleton.mp hNew]
      apply hCounts hRunning
      intro hOut
      rcases (goesOut_iff.mp hOut).2.2 with hNone | hRoom
      · exact hLimited hNone
      · exact hNoRoom hRoom

theorem Kept.next (h : Kept s) (hCounts : Counts s a) : Kept (next s a) := by
  have hQueued := h.toQueued.next a
  cases a with
  | offer subpieces transId isOldPacket hasStatistic now =>
      unfold Counts at hCounts
      by_cases hRunning : s.isRunning = true
      · have hCounts := hCounts hRunning
        have hOffered : Accounted { s with offered := s.offered + 1 } :=
          ⟨h.lastSent_eq, h.sentCount_lt, h.sentCount_eq, h.perTick_lt, h.withinLimit⟩
        refine ⟨hQueued, hOffered.doRequestSubPiece ?_,
          pieceCount_eq_doRequestSubPiece h.pieceCount_eq ?_⟩
        · intro hOut
          have hOut : s.goesOut = true := hOut
          rw [if_pos hOut] at hCounts
          exact hCounts
        · intro _ hOut
          have hOut : ¬ s.goesOut = true := hOut
          rw [if_neg hOut] at hCounts
          exact hCounts
      · have hStopped : s.isRunning = false := by simpa using hRunning
        have hSame : DownloadSpeedLimiter.next s
            (.offer subpieces transId isOldPacket hasStatistic now) =
            { s with offered := s.offered + 1 } := by
          simp [DownloadSpeedLimiter.next, doRequestSubPiece, hStopped]
        rw [hSame] at hQueued ⊢
        exact ⟨hQueued, ⟨h.lastSent_eq, h.sentCount_lt, h.sentCount_eq, h.perTick_lt,
          h.withinLimit⟩, h.pieceCount_eq⟩
  | tick now openOld =>
      refine ⟨hQueued, ?_, ?_⟩
      · show Accounted (s.onTimerElapsed now openOld)
        unfold onTimerElapsed
        split
        · exact h.toAccounted
        · apply drain_accounted _ h.pieceCount_eq
          exact ⟨h.lastSent_eq, Nat.two_pow_pos 32, fun _ => rfl, h.perTick_lt, withinLimit_nil⟩
      · show ∀ data ∈ (s.onTimerElapsed now openOld).dataQueue, _
        unfold onTimerElapsed
        split
        · exact h.pieceCount_eq
        · intro data hData
          exact h.pieceCount_eq data ((drain_dataQueue_suffix _ _).subset hData)
  | setSpeedLimit speedLimitInKBps =>
      show Kept (s.setSpeedLimitInKBps speedLimitInKBps)
      unfold setSpeedLimitInKBps
      split
      · exact h
      · rename_i hNew
        have hRunning : s.isRunning = true := by
          cases hIs : s.isRunning
          · exact absurd (Or.inl hIs) hNew
          · rfl
        refine ⟨⟨h.max_pos, h.length_le, h.nodup, h.packet_lt⟩,
          ⟨h.lastSent_eq, h.sentCount_lt, hCounts hRunning, ?_, h.withinLimit⟩, h.pieceCount_eq⟩
        intro _
        have hProduct := u32_lt (speedLimitInKBps * 1000)
        show u32 (speedLimitInKBps * 1000) / 1000 < 2 ^ 23
        omega
  | stop =>
      refine ⟨hQueued, ?_, ?_⟩
      · show Accounted s.stop
        unfold stop
        split
        · exact ⟨h.lastSent_eq, h.sentCount_lt, h.sentCount_eq, h.perTick_lt, h.withinLimit⟩
        · exact h.toAccounted
      · show ∀ data ∈ s.stop.dataQueue, _
        unfold stop
        split
        · exact fun data hData => absurd hData List.not_mem_nil
        · exact h.pieceCount_eq

/-- What is left of the limit for the tick. -/
def restCount (s : DownloadSpeedLimiter) (p2pDownloadSpeedLimit : Nat) : Nat :=
  match s.limit with
  | none => p2pDownloadSpeedLimit
  | some perTick => min (perTick - requested s.requests) p2pDownloadSpeedLimit

/-- `GetRestCount` says what is left unless more was requested than the limit allows. -/
theorem Accounted.getRestCount_eq_iff (h : Accounted s) (config : Nat) :
    s.getRestCount config = s.restCount config ↔
      ∀ perTick, s.limit = some perTick → requested s.requests ≤ perTick ∨ config = 0 := by
  cases hLimit : s.limit with
  | none =>
      have hNone : 2 ^ 31 ≤ s.speedLimitInKBps := by
        by_contra hLess
        rw [limit, if_neg hLess] at hLimit
        cases hLimit
      have hEq : s.getRestCount config = s.restCount config := by
        rw [getRestCount, if_pos hNone, restCount, hLimit]
      simp [hEq]
  | some perTick =>
      obtain ⟨hLimited, rfl⟩ := limit_eq_some hLimit
      have hTick := h.perTick_lt hLimited
      have hCount := h.sentCount_lt
      have hDifference : subU32 s.packetNumberPerTick s.sentCount =
          if s.sentCount ≤ s.packetNumberPerTick then s.packetNumberPerTick - s.sentCount
          else s.packetNumberPerTick + 2 ^ 32 - s.sentCount := by
        split
        · rename_i hLe
          exact subU32_of_le (by omega) hLe
        · unfold subU32
          exact u32_of_lt (by omega)
      have hRest : s.getRestCount config =
          min (subU32 s.packetNumberPerTick s.sentCount) config := by
        unfold getRestCount
        rw [if_neg (Nat.not_le.mpr hLimited)]
        split <;> omega
      have hWant : s.restCount config = min (s.packetNumberPerTick - s.sentCount) config := by
        unfold restCount
        rw [hLimit, ← h.sentCount_eq hLimited]
      rw [hRest, hWant, hDifference, ← h.sentCount_eq hLimited]
      constructor
      · intro hEq perTick hSame
        obtain rfl := Option.some.inj hSame
        split at hEq <;> omega
      · intro hLe
        rcases hLe _ rfl with hLe | hZero
        · rw [if_pos hLe]
        · simp [hZero]

/-- What is promised of a limiter: no packet is sent twice, the queue is bounded, whatever
goes out is within the limit for the tick, and `GetRestCount` tells what is left of it in
just those states where not more was requested. -/
structure RequestsLimited (s : DownloadSpeedLimiter) : Prop where
  sent_nodup : (s.sent.map (·.packet)).Nodup
  length_le : s.dataQueue.length ≤ s.maxDataQueueLength
  withinLimit : WithinLimit s.requests
  rest_iff : ∀ config, s.getRestCount config = s.restCount config ↔
    ∀ perTick, s.limit = some perTick → requested s.requests ≤ perTick ∨ config = 0

/-- In every run whose packets count for what they are, the limiter keeps to its limit. -/
theorem requestsLimited {maxDataQueueLength sentCount : Nat} (hMax : 0 < maxDataQueueLength)
    (hSent : sentCount < 2 ^ 32) (packetLifeLimitInMs tickIntervalInMs : Nat)
    (run : Reaches Step Counts
      (create maxDataQueueLength packetLifeLimitInMs tickIntervalInMs sentCount) s) :
    RequestsLimited s := by
  have hKept : Kept s := by
    apply run.invariant
    · have hNone : ¬ (2 ^ 32 - 1 < 2 ^ 31) := by decide
      exact ⟨⟨hMax, Nat.zero_le _, List.nodup_nil, fun _ hData => absurd hData List.not_mem_nil⟩,
        ⟨rfl, hSent, fun hLimited => absurd hLimited hNone, fun hLimited => absurd hLimited hNone,
          withinLimit_nil⟩, fun _ hData => absurd hData List.not_mem_nil⟩
    · intro before a after hBefore hCounts hStep
      rw [← show next before a = after from hStep]
      exact hBefore.next hCounts
  refine ⟨?_, hKept.length_le, hKept.withinLimit, hKept.toAccounted.getRestCount_eq_iff⟩
  have hNodup := hKept.nodup
  rw [List.map_append] at hNodup
  exact hNodup.of_append_left

/-- A limit of five subpieces, of which three and then four are requested. -/
theorem requestsLimited_of_five :
    RequestsLimited ([.tick 0 true, .setSpeedLimit 5, .offer 3 1 false true 10,
      .offer 4 2 false true 20].foldl next (create 600 2500 0 7)) := by
  have hTick : Reaches Step Counts (create 600 2500 0 7) (next _ (.tick 0 true)) :=
    Reaches.single (.tick 0 true) trivial rfl
  have hLimit : Reaches Step Counts (create 600 2500 0 7) (next _ (.setSpeedLimit 5)) :=
    hTick.tail (a := .setSpeedLimit 5) (by decide +kernel) rfl
  have hFirst : Reaches Step Counts (create 600 2500 0 7) (next _ (.offer 3 1 false true 10)) :=
    hLimit.tail (a := .offer 3 1 false true 10) (by decide +kernel) rfl
  exact requestsLimited (by decide) (by decide) 2500 0
    (hFirst.tail (a := .offer 4 2 false true 20) (by decide +kernel) rfl)

/-- A packet of two subpieces under a limit of one: what is left wraps. -/
theorem requestsLimited_fails : ¬ ∀ (maxDataQueueLength packetLifeLimitInMs tickIntervalInMs
    sentCount : Nat) (s : DownloadSpeedLimiter), 0 < maxDataQueueLength → sentCount < 2 ^ 32 →
    Reaches Step (fun _ _ => True)
      (create maxDataQueueLength packetLifeLimitInMs tickIntervalInMs sentCount) s →
    ∀ config, s.getRestCount config = s.restCount config := by
  intro h
  have hEq := h 600 2500 0 0 _ (by decide) (by decide)
    (Reaches.of_foldl next _ [.tick 0 true, .setSpeedLimit 1, .offer 2 1 false true 10]) 1024
  exact absurd hEq (by decide +kernel)

end Runs

end DownloadSpeedLimiter

end P2P
