import Peer.P2P.UploadSpeedLimiter

/-! What the limiter keeps to: no packet is lost or sent twice, the queue is ordered and
bounded, and four tick intervals in a row let out no more than the limit. -/
namespace P2P

open Basis Storage

namespace UploadSpeedLimiter

variable {s t : UploadSpeedLimiter} {limit q now count : Nat} {queue : List EndpointPacketInfo}
  {data : EndpointPacketInfo} {a : Action} {acts : List Action}

section Drain

/-- What the loop of a tick leaves of a queue, when so many count as sent before. -/
structure DrainedFrom (q now count : Nat) (queue : List EndpointPacketInfo) (d : Drained) :
    Prop where
  count_eq : d.sentCount = count + d.sent.length
  count_le : d.sentCount ≤ q
  kept_of_lt : d.sentCount < q → d.kept = []
  perm : queue.Perm (d.sent ++ d.timedOut ++ d.kept)
  sent_sublist : d.sent.Sublist queue
  kept_sublist : d.kept.Sublist queue
  timedOut : ∀ p ∈ d.timedOut, p.isTimeOut now = true
  sent_first : queue.Pairwise EndpointPacketInfo.Before →
    ∀ p ∈ d.sent, ∀ p' ∈ d.kept, p.Before p'

theorem drain_spec (hq : q < 2 ^ 32) (queue : List EndpointPacketInfo) (hCount : count ≤ q) :
    DrainedFrom q now count queue (drain q now count queue) := by
  induction queue generalizing count with
  | nil =>
      exact ⟨rfl, hCount, fun _ => rfl, List.Perm.nil, List.Sublist.slnil, List.Sublist.slnil,
        fun p hp => absurd hp List.not_mem_nil, fun _ p hp => absurd hp List.not_mem_nil⟩
  | cons data rest ih =>
      unfold drain
      split
      · rename_i hOut
        have h := ih hCount
        generalize drain q now count rest = d at h
        refine ⟨h.count_eq, h.count_le, h.kept_of_lt, ?_, h.sent_sublist.cons _,
          h.kept_sublist.cons _, ?_, fun hSorted => h.sent_first (List.pairwise_cons.mp hSorted).2⟩
        · rw [List.append_assoc]
          refine ((h.perm.cons data).trans ?_)
          rw [List.append_assoc]
          exact List.perm_middle.symm
        · intro p hp
          rcases List.mem_cons.mp hp with rfl | hp
          · exact hOut
          · exact h.timedOut p hp
      split
      · rename_i hOut hRoom
        have hStep : u32 (count + 1) = count + 1 := u32_of_lt (by omega)
        rw [hStep]
        have h : DrainedFrom q now (count + 1) rest (drain q now (count + 1) rest) := ih hRoom
        generalize drain q now (count + 1) rest = d at h
        refine ⟨?_, h.count_le, h.kept_of_lt, h.perm.cons data, h.sent_sublist.cons_cons _,
          h.kept_sublist.cons _, h.timedOut, ?_⟩
        · rw [h.count_eq, List.length_cons]
          omega
        · intro hSorted p hp p' hp'
          obtain ⟨hFirst, hRest⟩ := List.pairwise_cons.mp hSorted
          rcases List.mem_cons.mp hp with rfl | hp
          · exact hFirst p' (h.kept_sublist.subset hp')
          · exact h.sent_first hRest p hp p' hp'
      · rename_i hOut hFull
        have h := ih hCount
        generalize drain q now count rest = d at h
        have hNone : d.sent = [] := by
          have hEq := h.count_eq
          have hLe := h.count_le
          exact List.eq_nil_of_length_eq_zero (by omega)
        refine ⟨h.count_eq, h.count_le, ?_, ?_, h.sent_sublist.cons _, h.kept_sublist.cons_cons _,
          h.timedOut, ?_⟩
        · intro hLess
          dsimp only at hLess
          have hEq := h.count_eq
          rw [hNone, List.length_nil] at hEq
          omega
        · exact (h.perm.cons data).trans List.perm_middle.symm
        · intro _ p hp
          rw [hNone] at hp
          exact absurd hp List.not_mem_nil

end Drain

section Kept

/-- How many packets the limiter would still send at once. -/
def room (s : UploadSpeedLimiter) : Nat := s.quota - s.sentCount

/-- All the packets that were offered. -/
def packets (s : UploadSpeedLimiter) : List EndpointPacketInfo :=
  s.sent ++ s.sentUnlimited ++ s.dataQueue ++ s.discarded

/-- What holds of the limiter between two actions. -/
structure Kept (limit : Nat) (s : UploadSpeedLimiter) : Prop where
  limit_eq : s.speedLimitInKBps = limit
  perTick_eq : s.packetNumberPerTick = limit / 4
  perSecond_eq : s.packetNumberMakeUpPerSecond = limit % 4
  makeUp_le : s.packetNumberMakeUp ≤ if s.times % 4 = 0 then limit % 4 else 0
  offered_perm : ((packets s).map (·.packet)).Perm (List.range s.offered)
  length_le : s.dataQueue.length ≤ uplimitMaxDataQueueLength
  sorted : s.dataQueue.Pairwise EndpointPacketInfo.Before
  empty_of_lt : s.sentCount < s.quota → s.dataQueue = []
  empty_of_zero : limit = 0 → s.dataQueue = []

theorem Kept.quota_eq (h : Kept limit s) (hLimit : limit < 2 ^ 31) :
    s.quota = limit / 4 + s.packetNumberMakeUp := by
  have hMakeUp := h.makeUp_le
  unfold quota
  rw [h.perTick_eq]
  apply u32_of_lt
  split at hMakeUp <;> omega

theorem Kept.packet_lt (h : Kept limit s) (hData : data ∈ s.dataQueue) : data.packet < s.offered := by
  apply List.mem_range.mp
  apply h.offered_perm.mem_iff.mp
  apply List.mem_map.mpr
  exact ⟨data, by simp [packets, hData], rfl⟩

/-- What an action may do to the queue: what is sent leaves before everything that stays,
what an offer discards comes behind everything that stays, and a tick discards what has timed
out. -/
structure InOrder (s : UploadSpeedLimiter) (a : Action) (t : UploadSpeedLimiter)
    (out gone : List EndpointPacketInfo) : Prop where
  sent_eq : t.sent = s.sent ++ out
  discarded_eq : t.discarded = s.discarded ++ gone
  sorted : out.Pairwise EndpointPacketInfo.Before
  sent_first : ∀ p ∈ out, ∀ p' ∈ t.dataQueue, p.Before p'
  gone_last : match a with
    | .offer .. => ∀ p ∈ gone, ∀ p' ∈ t.dataQueue, p'.Before p
    | .tick now => ∀ p ∈ gone, p.isTimeOut now = true

/-- An offer keeps everything. -/
structure OfferKeeps (s t : UploadSpeedLimiter) (data : EndpointPacketInfo) : Prop where
  limit_eq : t.speedLimitInKBps = s.speedLimitInKBps
  perTick_eq : t.packetNumberPerTick = s.packetNumberPerTick
  perSecond_eq : t.packetNumberMakeUpPerSecond = s.packetNumberMakeUpPerSecond
  makeUp_eq : t.packetNumberMakeUp = s.packetNumberMakeUp
  times_eq : t.times = s.times
  offered_eq : t.offered = s.offered
  packets_perm : (packets t).Perm (data :: packets s)
  length_le : t.dataQueue.length ≤ uplimitMaxDataQueueLength
  sorted : t.dataQueue.Pairwise EndpointPacketInfo.Before
  empty_of_lt : t.sentCount < t.quota → t.dataQueue = []
  empty_of_zero : s.speedLimitInKBps = 0 → t.dataQueue = []
  sent_le : t.sent.length + t.room ≤ s.sent.length + s.room

theorem quota_lt (s : UploadSpeedLimiter) : s.quota < 2 ^ 32 := u32_lt _

theorem doSendPacket_keeps (hLength : s.dataQueue.length ≤ uplimitMaxDataQueueLength)
    (hSorted : s.dataQueue.Pairwise EndpointPacketInfo.Before)
    (hEmpty : s.sentCount < s.quota → s.dataQueue = [])
    (hZero : s.speedLimitInKBps = 0 → s.dataQueue = [])
    (hNew : ∀ p ∈ s.dataQueue, p.packet < data.packet) (ignore : Bool) :
    OfferKeeps s (s.doSendPacket data ignore) data ∧
      ∃ out gone, ∀ priority version now,
        InOrder s (.offer priority version ignore now) (s.doSendPacket data ignore) out gone := by
  have hInserted := insertByPriority_sorted hSorted hNew
  have hPerm := insertByPriority_perm EndpointPacketInfo.priority data s.dataQueue
  have hQuota := s.quota_lt
  unfold doSendPacket
  split
  · refine ⟨⟨rfl, rfl, rfl, rfl, rfl, rfl, ?_, hLength, hSorted, hEmpty, hZero, Nat.le_refl _⟩,
      [], [], fun _ _ _ => ⟨by simp, by simp, List.Pairwise.nil, by simp, by simp⟩⟩
    apply List.perm_iff_count.mpr
    intro p
    simp only [packets, List.count_append, List.count_cons, List.count_nil]
    omega
  split
  · rename_i hNothing
    have hNone := hZero hNothing
    refine ⟨⟨rfl, rfl, rfl, rfl, rfl, rfl, ?_, hLength, hSorted, hEmpty, hZero, Nat.le_refl _⟩,
      [], [data], fun _ _ _ => ⟨by simp, rfl, List.Pairwise.nil, by simp, by simp [hNone]⟩⟩
    apply List.perm_iff_count.mpr
    intro p
    simp only [packets, List.count_append, List.count_cons, List.count_nil]
    omega
  split
  · -- The queue is full: what is last in it goes.
    rename_i hLimited hSome hFull
    have hQueue : insertByPriority EndpointPacketInfo.priority data s.dataQueue ≠ [] := by
      intro hNil
      rw [hNil] at hPerm
      exact List.not_mem_nil (hPerm.mem_iff.mpr List.mem_cons_self)
    have hLast := List.getLast?_eq_some_getLast hQueue
    have hCut := List.dropLast_append_getLast hQueue
    have hMore : ¬ s.sentCount < s.quota := by
      intro hLess
      rw [hEmpty hLess] at hFull
      exact absurd hFull (by decide)
    refine ⟨⟨rfl, rfl, rfl, rfl, rfl, rfl, ?_, ?_, hInserted.sublist (List.dropLast_sublist _),
      fun hLess => absurd hLess hMore, fun hNothing => absurd hNothing hSome, Nat.le_refl _⟩, [],
      [(insertByPriority EndpointPacketInfo.priority data s.dataQueue).getLast hQueue],
      fun _ _ _ => ⟨by simp [discardLast, insert], ?_, List.Pairwise.nil, by simp, ?_⟩⟩
    · apply List.perm_iff_count.mpr
      intro p
      have hCount := hPerm.count_eq p
      rw [← hCut] at hCount
      simp only [packets, discardLast, insert, hLast, Option.toList_some, List.count_append,
        List.count_cons, List.count_nil] at hCount ⊢
      omega
    · show (insertByPriority _ _ _).dropLast.length ≤ _
      rw [List.length_dropLast, length_insertByPriority]
      omega
    · simp [discardLast, insert, hLast]
    · intro p hp p' hp'
      rw [List.mem_singleton.mp hp]
      exact earlier_getLast hInserted hQueue hp'
  split
  · rename_i hLimited hSome hFree hRoom
    have hNone := hEmpty hRoom
    have hStep : u32 (s.sentCount + 1) = s.sentCount + 1 := u32_of_lt (by omega)
    refine ⟨⟨rfl, rfl, rfl, rfl, rfl, rfl, ?_, hLength, hSorted, fun _ => hNone, hZero, ?_⟩,
      [data], [], fun _ _ _ => ⟨rfl, by simp, List.pairwise_singleton _ _, by simp [hNone], by simp⟩⟩
    · apply List.perm_iff_count.mpr
      intro p
      simp only [packets, List.count_append, List.count_cons, List.count_nil]
      omega
    · show (s.sent ++ [data]).length + (s.quota - u32 (s.sentCount + 1)) ≤
        s.sent.length + (s.quota - s.sentCount)
      rw [hStep, List.length_append, List.length_singleton]
      omega
  · rename_i hLimited hSome hFree hFull
    refine ⟨⟨rfl, rfl, rfl, rfl, rfl, rfl, ?_, ?_, hInserted, fun hLess => absurd hLess hFull,
      fun hNothing => absurd hNothing hSome, Nat.le_refl _⟩,
      [], [], fun _ _ _ => ⟨by simp [insert], by simp [insert], List.Pairwise.nil, by simp, by simp⟩⟩
    · apply List.perm_iff_count.mpr
      intro p
      have hCount := hPerm.count_eq p
      simp only [packets, insert, List.count_append, List.count_cons] at hCount ⊢
      omega
    · show (insertByPriority _ _ _).length ≤ _
      rw [length_insertByPriority]
      omega

theorem Kept.offer (h : Kept limit s) (priority version now : Nat) (ignore : Bool) :
    Kept limit (next s (.offer priority version ignore now)) ∧
      (next s (.offer priority version ignore now)).times = s.times ∧
      (next s (.offer priority version ignore now)).sent.length +
          (next s (.offer priority version ignore now)).room ≤ s.sent.length + s.room ∧
      ∃ out gone, InOrder s (.offer priority version ignore now)
        (next s (.offer priority version ignore now)) out gone := by
  have hZero : s.speedLimitInKBps = 0 → s.dataQueue = [] := by
    rw [h.limit_eq]
    exact h.empty_of_zero
  have hNew : ∀ p ∈ s.dataQueue, p.packet < (s.offeredPacket priority version now).packet :=
    fun p hp => h.packet_lt hp
  obtain ⟨hKeeps, out, gone, hOrder⟩ := doSendPacket_keeps
    (s := { s with offered := s.offered + 1 }) h.length_le h.sorted h.empty_of_lt hZero hNew ignore
  have hOrder := hOrder priority version now
  refine ⟨⟨hKeeps.limit_eq.trans h.limit_eq, hKeeps.perTick_eq.trans h.perTick_eq,
    hKeeps.perSecond_eq.trans h.perSecond_eq, ?_, ?_, hKeeps.length_le, hKeeps.sorted,
    hKeeps.empty_of_lt, ?_⟩, hKeeps.times_eq, hKeeps.sent_le, out, gone,
    ⟨hOrder.sent_eq, hOrder.discarded_eq, hOrder.sorted, hOrder.sent_first, hOrder.gone_last⟩⟩
  · unfold next
    rw [hKeeps.makeUp_eq, hKeeps.times_eq]
    exact h.makeUp_le
  · unfold next
    rw [hKeeps.offered_eq]
    refine (hKeeps.packets_perm.map _).trans ?_
    rw [List.map_cons, List.range_succ]
    exact (h.offered_perm.cons s.offered).trans (List.perm_append_singleton _ _).symm
  · intro hNothing
    exact hKeeps.empty_of_zero (h.limit_eq.trans hNothing)

theorem Kept.tick (h : Kept limit s) (now : Nat) :
    Kept limit (next s (.tick now)) ∧
      (next s (.tick now)).times = u32 (s.times + 1) ∧
      (next s (.tick now)).sent.length + (next s (.tick now)).room =
        s.sent.length + (next s (.tick now)).quota ∧
      ∃ out gone, InOrder s (.tick now) (next s (.tick now)) out gone := by
  obtain ⟨t, hTick⟩ : ∃ t, t = next s (.tick now) := ⟨_, rfl⟩
  have hDrain : DrainedFrom t.quota now 0 s.dataQueue (drain t.quota now 0 s.dataQueue) :=
    drain_spec t.quota_lt s.dataQueue (Nat.zero_le _)
  have hQueue : t.dataQueue = (drain t.quota now 0 s.dataQueue).kept := by rw [hTick]; rfl
  have hCount : t.sentCount = (drain t.quota now 0 s.dataQueue).sentCount := by rw [hTick]; rfl
  have hSent : t.sent = s.sent ++ (drain t.quota now 0 s.dataQueue).sent := by rw [hTick]; rfl
  have hGone : t.discarded = s.discarded ++ (drain t.quota now 0 s.dataQueue).timedOut := by
    rw [hTick]
    rfl
  have hTimes : t.times = u32 (s.times + 1) := by rw [hTick]; rfl
  have hMakeUp : t.packetNumberMakeUp =
      if t.times % 4 = 0 then s.packetNumberMakeUpPerSecond else 0 := by rw [hTick]; rfl
  have hSame : t.speedLimitInKBps = s.speedLimitInKBps ∧
      t.packetNumberPerTick = s.packetNumberPerTick ∧
      t.packetNumberMakeUpPerSecond = s.packetNumberMakeUpPerSecond ∧ t.offered = s.offered ∧
      t.sentUnlimited = s.sentUnlimited := by
    rw [hTick]
    exact ⟨rfl, rfl, rfl, rfl, rfl⟩
  rw [← hTick]
  clear hTick
  generalize drain t.quota now 0 s.dataQueue = d at hDrain hQueue hCount hSent hGone
  obtain ⟨hLimit, hPerTick, hPerSecond, hOffered, hUnlimited⟩ := hSame
  have hCountEq := hDrain.count_eq
  have hCountLe := hDrain.count_le
  refine ⟨⟨hLimit.trans h.limit_eq, hPerTick.trans h.perTick_eq, hPerSecond.trans h.perSecond_eq,
    ?_, ?_, ?_, ?_, ?_, ?_⟩, hTimes, ?_, d.sent, d.timedOut, hSent, hGone, ?_, ?_, hDrain.timedOut⟩
  · rw [hMakeUp, h.perSecond_eq]
  · rw [hOffered]
    refine List.Perm.trans (List.Perm.map _ ?_) h.offered_perm
    apply List.perm_iff_count.mpr
    intro p
    have hPerm := hDrain.perm.count_eq p
    simp only [packets, hSent, hUnlimited, hQueue, hGone, List.count_append] at hPerm ⊢
    omega
  · rw [hQueue]
    exact hDrain.kept_sublist.length_le.trans h.length_le
  · rw [hQueue]
    exact h.sorted.sublist hDrain.kept_sublist
  · rw [hQueue, hCount]
    exact hDrain.kept_of_lt
  · intro hNothing
    have hSublist := hDrain.kept_sublist
    rw [h.empty_of_zero hNothing] at hSublist
    rw [hQueue]
    exact List.sublist_nil.mp hSublist
  · unfold room
    rw [hSent, hCount, List.length_append]
    omega
  · exact h.sorted.sublist hDrain.sent_sublist
  · rw [hQueue]
    exact hDrain.sent_first h.sorted

end Kept

section Windows

def Action.isTick : Action → Bool
  | .offer .. => false
  | .tick _ => true

/-- How many tick intervals some actions touch: every tick begins one, and what comes before
the first tick belongs to another. -/
def intervals : List Action → Nat
  | [] => 0
  | _ :: rest => rest.countP Action.isTick + 1

/-- The quotas of the next ticks. -/
def allowance (limit : Nat) : Nat → Nat → Nat
  | _, 0 => 0
  | times, ticks + 1 =>
      limit / 4 + (if u32 (times + 1) % 4 = 0 then limit % 4 else 0) +
        allowance limit (u32 (times + 1)) ticks

theorem u32_succ_mod (times : Nat) : u32 (times + 1) % 4 = (times + 1) % 4 := by
  unfold u32
  exact Nat.mod_mod_of_dvd _ (by decide)

/-- Three ticks make up for the remainder at most once, and not if the tick before did. -/
theorem allowance_le (limit times : Nat) {ticks : Nat} (h : ticks ≤ 3) :
    allowance limit times ticks + (if times % 4 = 0 then limit % 4 else 0) + limit / 4 ≤ limit := by
  have hModulo := Nat.div_add_mod limit 4
  have hNext := u32_succ_mod
  match ticks with
  | 0 =>
      unfold allowance
      split <;> omega
  | 1 =>
      simp only [allowance, hNext]
      split <;> split <;> omega
  | 2 =>
      simp only [allowance, hNext]
      have hTwo : (u32 (times + 1) + 1) % 4 = (times + 2) % 4 := by
        have hOne := hNext times
        omega
      rw [hTwo]
      split <;> split <;> split <;> omega
  | 3 =>
      simp only [allowance, hNext]
      have hOne := hNext times
      have hTwo := hNext (u32 (times + 1))
      have hThree : (u32 (u32 (times + 1) + 1) + 1) % 4 = (times + 3) % 4 := by omega
      have hTwo : (u32 (times + 1) + 1) % 4 = (times + 2) % 4 := by omega
      rw [hTwo, hThree]
      split <;> split <;> split <;> split <;> omega
  | ticks + 4 => omega

/-- What actions send is within the room and the quotas of their ticks. -/
theorem Kept.sent_le (h : Kept limit s) (hLimit : limit < 2 ^ 31) (acts : List Action) :
    (acts.foldl next s).sent.length + (acts.foldl next s).room ≤
      s.sent.length + s.room + allowance limit s.times (acts.countP Action.isTick) := by
  induction acts generalizing s with
  | nil => simp [allowance]
  | cons a acts ih =>
      rw [List.foldl_cons]
      cases a with
      | offer priority version ignore now =>
          obtain ⟨hNext, hTimes, hLe, -⟩ := h.offer priority version now ignore
          have hRest := ih hNext
          rw [hTimes] at hRest
          rw [List.countP_cons_of_neg (by simp [Action.isTick])]
          omega
      | tick now =>
          obtain ⟨hNext, hTimes, hEq, -⟩ := h.tick now
          have hRest := ih hNext
          have hMakeUp := hNext.makeUp_le
          rw [hNext.quota_eq hLimit] at hEq
          rw [hTimes] at hRest hMakeUp
          rw [List.countP_cons_of_pos (by simp [Action.isTick])]
          unfold allowance
          omega

/-- Four tick intervals in a row let out no more than the limit. -/
theorem Kept.window_le (h : Kept limit s) (hLimit : limit < 2 ^ 31) (acts : List Action)
    (hWindow : intervals acts ≤ 4) :
    (acts.foldl next s).sent.length ≤ s.sent.length + limit := by
  cases acts with
  | nil => exact Nat.le_add_right _ _
  | cons a acts =>
      have hTicks : acts.countP Action.isTick ≤ 3 := Nat.le_of_succ_le_succ hWindow
      rw [List.foldl_cons]
      cases a with
      | offer priority version ignore now =>
          obtain ⟨hNext, hTimes, hLe, -⟩ := h.offer priority version now ignore
          have hRest := hNext.sent_le hLimit acts
          have hMakeUp := h.makeUp_le
          have hQuota := h.quota_eq hLimit
          have hAllowance := allowance_le limit s.times hTicks
          rw [hTimes] at hRest
          unfold room at hRest hLe
          omega
      | tick now =>
          obtain ⟨hNext, hTimes, hEq, -⟩ := h.tick now
          have hRest := hNext.sent_le hLimit acts
          have hMakeUp := hNext.makeUp_le
          have hAllowance := allowance_le limit (next s (.tick now)).times hTicks
          rw [hNext.quota_eq hLimit] at hEq
          omega

end Windows

section Runs

/-- A limiter when its limit is set for the first time, not watching live. -/
def start (limit packetNumberPerTick sentCount times : Nat) : UploadSpeedLimiter :=
  (create packetNumberPerTick sentCount times).setSpeedLimitInKBps limit

theorem start_kept (hLimit : limit < 2 ^ 31) (packetNumberPerTick sentCount times : Nat) :
    Kept limit (start limit packetNumberPerTick sentCount times) := by
  have hNew : ¬ (create packetNumberPerTick sentCount times).speedLimitInKBps = limit := by
    show ¬ 2 ^ 32 - 1 = limit
    omega
  have hWhole : u32 (limit / 4 * 4) = limit / 4 * 4 := u32_of_lt (by omega)
  have hRest : subU32 limit (limit / 4 * 4) = limit % 4 := by
    rw [subU32_of_le (by omega) (Nat.div_mul_le_self limit 4)]
    omega
  unfold start setSpeedLimitInKBps
  rw [if_neg hNew, hWhole, hRest]
  exact ⟨rfl, rfl, rfl, Nat.zero_le _, List.Perm.nil, Nat.zero_le _, List.Pairwise.nil,
    fun _ => rfl, fun _ => rfl⟩

/-- What is promised of a limiter: every packet offered is in one place, the queue is bounded
and empty while quota remains, packets leave in order, and a second's worth of ticks sends no
more than the limit within it. -/
structure UploadLimited (limit : Nat) (s : UploadSpeedLimiter) : Prop where
  offered_perm : ((packets s).map (·.packet)).Perm (List.range s.offered)
  length_le : s.dataQueue.length ≤ uplimitMaxDataQueueLength
  empty_of_lt : s.sentCount < s.quota → s.dataQueue = []
  inOrder : ∀ a, ∃ out gone, InOrder s a (next s a) out gone
  window_le : ∀ acts, intervals acts ≤ 4 →
    (acts.foldl next s).sent.length ≤ s.sent.length + limit

/-- Whatever is offered and however the timer ticks, the limiter keeps to its limit. -/
theorem uploadLimited (hLimit : limit < 2 ^ 31) (packetNumberPerTick sentCount times : Nat)
    (run : Reaches Step (fun _ _ => True) (start limit packetNumberPerTick sentCount times) s) :
    UploadLimited limit s := by
  have hKept : Kept limit s := by
    apply run.invariant (start_kept hLimit packetNumberPerTick sentCount times)
    intro before a after hBefore _ hStep
    rw [← show next before a = after from hStep]
    cases a with
    | offer priority version ignore now => exact (hBefore.offer priority version now ignore).1
    | tick now => exact (hBefore.tick now).1
  refine ⟨hKept.offered_perm, hKept.length_le, hKept.empty_of_lt, ?_, hKept.window_le hLimit⟩
  intro a
  cases a with
  | offer priority version ignore now => exact (hKept.offer priority version now ignore).2.2.2
  | tick now => exact (hKept.tick now).2.2.2

/-- A limit of two packets a second, behind an offer and a tick. -/
theorem uploadLimited_of_two :
    UploadLimited 2 ([.offer 1 0 false 0, .tick 250].foldl next (start 2 0 0 3)) :=
  uploadLimited (by decide) 0 0 3
    (Reaches.of_foldl next (start 2 0 0 3) [.offer 1 0 false 0, .tick 250])

/-- Packets that ignore the limit are sent beyond it. -/
theorem uploadLimited_fails : ¬ ∀ (limit packetNumberPerTick sentCount times : Nat)
    (s : UploadSpeedLimiter), limit < 2 ^ 31 →
    Reaches Step (fun _ _ => True) (start limit packetNumberPerTick sentCount times) s →
    ∀ acts, intervals acts ≤ 4 →
      (acts.foldl next s).sent.length + (acts.foldl next s).sentUnlimited.length ≤
        s.sent.length + s.sentUnlimited.length + limit := by
  intro h
  have hLe := h 1 0 0 0 (start 1 0 0 0) (by decide) (Reaches.refl _)
    [.offer 1 0 true 0, .offer 1 0 true 0] (by decide)
  exact absurd hLe (by decide +kernel)

end Runs

end UploadSpeedLimiter

end P2P
