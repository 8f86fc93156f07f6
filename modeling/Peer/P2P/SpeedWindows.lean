import Peer.Basis.TimeRing
import Peer.P2P.UploadConnections

/-! What the windows of a speed meter show, in terms of the bytes that were submitted. The
seconds of a window are counted down in unsigned numbers, and the slot of the present second
is the one of a minute ago. -/
namespace P2P

open Basis Storage

namespace ByteSpeedMeter

/-- `Start` of a meter that does not run. -/
def start (tick : Nat) : ByteSpeedMeter := { clear with startTime := tick }.checkTickCount tick

/-- `CalcSpeedInDuration`, which leaves the meter as `checkTickCount` does. -/
def calcSpeedInDuration (meter : ByteSpeedMeter) (duration tick : Nat) : Nat :=
  let meter := meter.checkTickCount tick
  let lastSec := subU32 meter.currentSec 1
  let bound := subU32 lastSec duration
  let bytes := ((List.range (lastSec - bound)).map
    fun k => meter.historyBytes ((bound + 1 + k) % 60)).sum
  let elapsed := if u32 (tick - meter.startTime) = 0 then 1 else u32 (tick - meter.startTime)
  if elapsed > duration * 1000 then u32 (bytes / duration) else u32 (1000 * bytes / elapsed)

def secondByteSpeed (meter : ByteSpeedMeter) (tick : Nat) : Nat := meter.calcSpeedInDuration 1 tick

def recentByteSpeed (meter : ByteSpeedMeter) (tick : Nat) : Nat := meter.calcSpeedInDuration 20 tick

def recentMinuteByteSpeed (meter : ByteSpeedMeter) (tick : Nat) : Nat :=
  meter.calcSpeedInDuration 60 tick

/-- The windows of these four. -/
def windows : List Nat := [1, 5, 20, 60]

/-- A call of the meter: `SubmitBytes`, or a query of a window. -/
inductive Call where
  | submitBytes (bytes tick : Nat)
  | query (duration tick : Nat)

def Call.tick : Call → Nat
  | .submitBytes _ tick => tick
  | .query _ tick => tick

def call (meter : ByteSpeedMeter) : Call → ByteSpeedMeter
  | .submitBytes bytes tick => meter.submitBytes bytes tick
  | .query _ tick => meter.checkTickCount tick

/-- The meter after `Start` and a sequence of calls. -/
def after (started : Nat) (calls : List Call) : ByteSpeedMeter := calls.foldl call (start started)

/-- The bytes a call submits in a second. -/
def Call.bytesIn (second : Nat) : Call → Nat
  | .submitBytes bytes tick => if tick / 1000 = second then bytes else 0
  | .query _ _ => 0

/-- The bytes submitted in a second. -/
def bytesIn (calls : List Call) (second : Nat) : Nat := (calls.map (Call.bytesIn second)).sum

/-- The bytes submitted in the whole seconds, at most `duration`, before that of `tick`. -/
def bytesBefore (calls : List Call) (duration tick : Nat) : Nat :=
  ∑ second ∈ Finset.Ico (tick / 1000 - duration) (tick / 1000), bytesIn calls second

/-- Start, calls and a last tick in the order of time. -/
def InOrder (started : Nat) (calls : List Call) (tick : Nat) : Prop :=
  (started :: (calls.map Call.tick ++ [tick])).Pairwise (· ≤ ·)

/-- The speed of a window: its bytes per second, or those since the start. -/
def speed (duration elapsed bytes : Nat) : Nat :=
  if elapsed > duration * 1000 then bytes / duration else 1000 * bytes / elapsed

/-- A query sees the bytes of its window. In the first seconds of the clock it sees none,
or those of the present second; the widest window sees the present second in the place of
the one a minute before. -/
def SeesWindow (calls : List Call) (duration tick : Nat) : Prop :=
  if tick / 1000 = 0 then duration < 16 ∨ bytesIn calls 0 = 0
  else if tick / 1000 ≤ duration then bytesBefore calls duration tick = 0
  else duration < 60 ∨ bytesIn calls (tick / 1000 - 60) = bytesIn calls (tick / 1000)

/-- No number of a query is too large for its type: the second, the milliseconds since
`Start` where they are compared with the window, and the speed. -/
structure Fits (started : Nat) (calls : List Call) (duration tick : Nat) : Prop where
  second : tick / 1000 < 2 ^ 32
  elapsed : duration * 1000 < tick - started → duration * 1000 < u32 (tick - started)
  speed : speed duration (tick - started) (bytesBefore calls duration tick) < 2 ^ 32

variable {meter : ByteSpeedMeter} {amount slots : Nat → Nat} {started duration tick now : Nat}
  {calls : List Call}

theorem ring_checkTickCount (h : TimeRing 60 meter.currentSec amount meter.historyBytes)
    (hLe : meter.currentSec ≤ tick / 1000) (hFit : tick / 1000 < 2 ^ 32) :
    (meter.checkTickCount tick).currentSec = tick / 1000 ∧
      TimeRing 60 (tick / 1000) amount (meter.checkTickCount tick).historyBytes := by
  unfold checkTickCount
  rw [u32_of_lt hFit]
  dsimp only
  rw [subU32_of_le hFit hLe]
  by_cases hSame : tick / 1000 = meter.currentSec
  · simp only [hSame, if_true, true_and]
    exact h
  · simp only [hSame, if_false, true_and]
    apply h.advance hLe
    · intro s hs hTurn
      rw [if_neg (by omega), if_neg]
      simp only [List.any_eq_true, List.mem_range, beq_iff_eq, not_exists, not_and]
      intro k hk
      exact TimeRing.mod_ne (by omega) (by omega)
    · intro s hs hLast
      by_cases hTurn : 60 ≤ tick / 1000 - meter.currentSec
      · rw [if_pos hTurn]
      · rw [if_neg hTurn, if_pos]
        simp only [List.any_eq_true, List.mem_range, beq_iff_eq]
        exact ⟨s - (meter.currentSec + 1), by omega, by congr 1; omega⟩
    · intro slot
      split_ifs
      · exact Or.inr rfl
      · exact Or.inr rfl
      · exact Or.inl rfl

@[simp] theorem startTime_checkTickCount : (meter.checkTickCount tick).startTime = meter.startTime := by
  unfold checkTickCount
  dsimp only
  split <;> rfl

theorem startTime_call (c : Call) : (meter.call c).startTime = meter.startTime := by
  cases c <;> simp [call, submitBytes]

theorem startTime_after : (after started calls).startTime = started := by
  unfold after
  induction calls using List.reverseRecOn with
  | nil => simp [start]
  | append_singleton before c ih =>
      rw [List.foldl_append, List.foldl_cons, List.foldl_nil, startTime_call, ih]

theorem bytesIn_append (c : Call) (second : Nat) :
    bytesIn (calls ++ [c]) second = bytesIn calls second + c.bytesIn second := by
  simp [bytesIn]

theorem InOrder.split {c : Call} (h : InOrder started (calls ++ [c]) tick) :
    InOrder started calls c.tick ∧ c.tick ≤ tick := by
  unfold InOrder at h ⊢
  rw [List.map_append, List.map_singleton, ← List.cons_append, List.pairwise_append] at h
  exact ⟨h.1, h.2.2 c.tick (by simp) tick (by simp)⟩

theorem InOrder.started_le (h : InOrder started calls tick) : started ≤ tick :=
  (List.pairwise_cons.mp h).1 tick (by simp)

theorem InOrder.le_of_mem (h : InOrder started calls tick) {c : Call} (hMem : c ∈ calls) :
    started ≤ c.tick :=
  (List.pairwise_cons.mp h).1 c.tick
    (List.mem_append_left _ (List.mem_map_of_mem hMem))

/-- A call keeps the ring. -/
theorem ring_call {c : Call} (h : TimeRing 60 meter.currentSec amount meter.historyBytes)
    (hLe : meter.currentSec ≤ c.tick / 1000) (hFit : c.tick / 1000 < 2 ^ 32)
    (hSum : amount (c.tick / 1000) + c.bytesIn (c.tick / 1000) < 2 ^ 32) :
    (meter.call c).currentSec = c.tick / 1000 ∧
      TimeRing 60 (c.tick / 1000) (fun second => amount second + c.bytesIn second)
        (meter.call c).historyBytes := by
  obtain ⟨hSec, hRing⟩ := ring_checkTickCount h hLe hFit
  cases c with
  | query duration now => exact ⟨hSec, hRing⟩
  | submitBytes bytes now =>
      have hSec : (meter.checkTickCount now).currentSec = now / 1000 := hSec
      have hRing : TimeRing 60 (now / 1000) amount (meter.checkTickCount now).historyBytes := hRing
      have hSum : amount (now / 1000) + bytes < 2 ^ 32 := by
        simpa [Call.tick, Call.bytesIn] using hSum
      refine ⟨hSec, ?_⟩
      show TimeRing 60 (now / 1000) _ (meter.submitBytes bytes now).historyBytes
      apply hRing.add (by decide)
      · have hNow := hRing.recent (now / 1000) le_rfl (by omega)
        simp only [submitBytes, hSec, if_true]
        rw [hNow, u32_of_lt hSum]
      · intro slot hSlot
        simp only [submitBytes, hSec, if_neg hSlot]
      · simp [Call.bytesIn]
      · intro second hSecond
        simp [Call.bytesIn, Ne.symm hSecond]

/-- The invariant of a run: the ring holds the bytes submitted in each second. -/
theorem ring_after (hOrder : InOrder started calls tick) (hFit : tick / 1000 < 2 ^ 32)
    (hSums : ∀ second, bytesIn calls second < 2 ^ 32) :
    (after started calls).currentSec ≤ tick / 1000 ∧
      TimeRing 60 (after started calls).currentSec (bytesIn calls)
        (after started calls).historyBytes := by
  induction calls using List.reverseRecOn generalizing tick with
  | nil =>
      have hLe : started / 1000 ≤ tick / 1000 := Nat.div_le_div_right hOrder.started_le
      have hClear : TimeRing 60 clear.currentSec (bytesIn []) clear.historyBytes := .start 60 0
      have hStart : (start started).currentSec = started / 1000 ∧
          TimeRing 60 (started / 1000) (bytesIn []) (start started).historyBytes := by
        unfold start
        apply ring_checkTickCount
        · exact hClear
        · exact Nat.zero_le _
        · exact hLe.trans_lt hFit
      show (start started).currentSec ≤ _ ∧ TimeRing 60 (start started).currentSec _ _
      rw [hStart.1]
      exact ⟨hLe, hStart.2⟩
  | append_singleton before c ih =>
      obtain ⟨hBefore, hLast⟩ := hOrder.split
      have hLe : c.tick / 1000 ≤ tick / 1000 := Nat.div_le_div_right hLast
      simp only [bytesIn_append] at hSums
      obtain ⟨hNow, hRing⟩ := ih hBefore (hLe.trans_lt hFit) fun second =>
        (Nat.le_add_right _ _).trans_lt (hSums second)
      obtain ⟨hSec, hRing⟩ := ring_call hRing hNow (hLe.trans_lt hFit) (hSums _)
      have hStep : after started (before ++ [c]) = (after started before).call c := by
        simp [after]
      have hBytes : bytesIn (before ++ [c]) = fun second => bytesIn before second + c.bytesIn second :=
        funext fun second => bytesIn_append c second
      rw [hStep, hBytes, hSec]
      exact ⟨hLe, hRing⟩

/-- What the loop of `CalcSpeedInDuration` adds up in the second `now`. -/
def counted (slots : Nat → Nat) (duration now : Nat) : Nat :=
  ((List.range (subU32 now 1 - subU32 (subU32 now 1) duration)).map
    fun k => slots ((subU32 (subU32 now 1) duration + 1 + k) % 60)).sum

theorem sum_map_range (f : Nat → Nat) (n : Nat) :
    ((List.range n).map f).sum = ∑ k ∈ Finset.range n, f k := by
  induction n with
  | zero => rfl
  | succ n ih => rw [Finset.sum_range_succ, ← ih, List.range_succ]; simp

/-- In the second 0 the loop goes down from the end of the range of seconds, and meets the
slot of the present second at its sixteenth round. -/
theorem counted_zero (h : TimeRing 60 0 amount slots) (hDuration : duration ≤ 60) :
    counted slots duration 0 = 0 ↔ duration < 16 ∨ amount 0 = 0 := by
  have hCount : counted slots duration 0 =
      ∑ k ∈ Finset.range duration, slots ((2 ^ 32 - duration + k) % 60) := by
    have hLast : subU32 0 1 = 2 ^ 32 - 1 := by decide +kernel
    rw [counted, hLast, subU32_of_le (by omega) (by omega), sum_map_range]
    congr 1
    · congr 1
      omega
    · funext k
      congr 2
      omega
  have hFirst : slots 0 = amount 0 := h.recent 0 le_rfl (by decide)
  rw [hCount, Finset.sum_eq_zero_iff]
  constructor
  · intro hAll
    refine or_iff_not_imp_left.mpr fun hLong => ?_
    have hSlot := hAll (duration - 16) (Finset.mem_range.mpr (by omega))
    rwa [show (2 ^ 32 - duration + (duration - 16)) % 60 = 0 by omega, hFirst] at hSlot
  · intro hCase k hk
    have hk := Finset.mem_range.mp hk
    by_cases hSlot : (2 ^ 32 - duration + k) % 60 = 0
    · rw [hSlot, hFirst]
      exact hCase.resolve_left (by omega)
    · exact h.unused _ (Nat.mod_lt _ (by decide)) (by omega)

/-- As long as the clock shows no more seconds than the window has, the loop ends at once. -/
theorem counted_early (hPos : 0 < now) (hEarly : now ≤ duration) (hDuration : duration ≤ 60) :
    counted slots duration now = 0 := by
  have hLast : subU32 now 1 = now - 1 := subU32_of_le (by omega) hPos
  have hBound : now - 1 ≤ subU32 (now - 1) duration := by
    unfold subU32
    rw [u32_of_lt (by omega)]
    omega
  rw [counted, hLast, Nat.sub_eq_zero_of_le hBound]
  rfl

/-- Later the loop adds up the window, of a minute with the present second for its first. -/
theorem counted_late (h : TimeRing 60 now amount slots) (hFit : now < 2 ^ 32)
    (hLate : duration < now) (hDuration : duration ≤ 60) :
    counted slots duration now = ∑ second ∈ Finset.Ico (now - duration) now, amount second ↔
      duration < 60 ∨ amount (now - 60) = amount now := by
  have hCount : counted slots duration now =
      ∑ k ∈ Finset.range duration, slots ((now - duration + k) % 60) := by
    rw [counted, subU32_of_le hFit (by omega), subU32_of_le (by omega) (by omega), sum_map_range]
    congr 1
    · congr 1
      omega
    · funext k
      congr 2
      omega
  rw [hCount]
  by_cases hShort : duration < 60
  · rw [h.sum_slots (by omega) (by omega), show now - duration + duration = now by omega]
    simp [hShort]
  · obtain rfl : duration = 60 := by omega
    have hFirst : slots ((now - 60 + 0) % 60) = amount now := by
      rw [show (now - 60 + 0) % 60 = now % 60 by omega]
      exact h.recent now le_rfl (by omega)
    have hRest : ∑ k ∈ Finset.range 59, slots ((now - 60 + (k + 1)) % 60) =
        ∑ second ∈ Finset.Ico (now - 59) now, amount second := by
      have hSum : ∑ k ∈ Finset.range 59, slots ((now - 59 + k) % 60) =
          ∑ second ∈ Finset.Ico (now - 59) (now - 59 + 59), amount second :=
        h.sum_slots (by omega) (by omega)
      rw [show now - 59 + 59 = now by omega] at hSum
      rw [← hSum]
      refine Finset.sum_congr rfl fun k _ => ?_
      rw [show now - 60 + (k + 1) = now - 59 + k by omega]
    have hWindow : ∑ second ∈ Finset.Ico (now - 60) now, amount second =
        amount (now - 60) + ∑ second ∈ Finset.Ico (now - 59) now, amount second := by
      rw [Finset.sum_eq_sum_Ico_succ_bot (by omega), show now - 60 + 1 = now - 59 by omega]
    rw [show Finset.range 60 = Finset.range (59 + 1) from rfl, Finset.sum_range_succ', hFirst, hRest,
      hWindow]
    omega

/-- The loop adds up the bytes of the window exactly if the query sees it. -/
theorem counted_iff (h : TimeRing 60 (tick / 1000) (bytesIn calls) slots)
    (hFit : tick / 1000 < 2 ^ 32) (hDuration : duration ≤ 60) :
    counted slots duration (tick / 1000) = bytesBefore calls duration tick ↔
      SeesWindow calls duration tick := by
  unfold SeesWindow
  split
  · rename_i hZero
    have hNone : bytesBefore calls duration tick = 0 := by
      unfold bytesBefore
      rw [hZero]
      simp
    rw [hNone, hZero]
    exact counted_zero (hZero ▸ h) hDuration
  · split
    · rename_i hPos hEarly
      rw [counted_early (Nat.pos_of_ne_zero hPos) hEarly hDuration]
      exact eq_comm
    · rename_i _ hLate
      exact counted_late h hFit (not_le.mp hLate) hDuration

/-- At the tick of the start no earlier second has bytes. -/
theorem bytesBefore_started (hOrder : InOrder started calls tick) (hTick : tick ≤ started) :
    bytesBefore calls duration tick = 0 := by
  unfold bytesBefore bytesIn
  refine Finset.sum_eq_zero fun second hSecond => ?_
  have hSecond := (Finset.mem_Ico.mp hSecond).2
  refine List.sum_eq_zero fun bytes hBytes => ?_
  obtain ⟨c, hMem, rfl⟩ := List.mem_map.mp hBytes
  have hLe : tick / 1000 ≤ c.tick / 1000 :=
    Nat.div_le_div_right (hTick.trans (hOrder.le_of_mem hMem))
  cases c with
  | query duration now => rfl
  | submitBytes bytes now =>
      have hLe : tick / 1000 ≤ now / 1000 := hLe
      exact if_neg (by omega)

/-- After any calls in the order of time, a query of a window that sees its bytes shows the
speed of the window. -/
theorem window_speed (hDuration : duration ∈ windows) (hOrder : InOrder started calls tick)
    (hSums : ∀ second, bytesIn calls second < 2 ^ 32) (hFits : Fits started calls duration tick)
    (hSees : SeesWindow calls duration tick) :
    (after started calls).calcSpeedInDuration duration tick =
      speed duration (tick - started) (bytesBefore calls duration tick) := by
  have hBounds : 1 ≤ duration ∧ duration ≤ 60 := by
    simp only [windows, List.mem_cons, List.not_mem_nil, or_false] at hDuration
    omega
  obtain ⟨hNow, hRing⟩ := ring_after hOrder hFits.second hSums
  obtain ⟨hSec, hRing⟩ := ring_checkTickCount hRing hNow hFits.second
  have hBytes := (counted_iff hRing hFits.second hBounds.2).mpr hSees
  have hSpeed := hFits.speed
  have hCode : (after started calls).calcSpeedInDuration duration tick =
      let elapsed := if u32 (tick - started) = 0 then 1 else u32 (tick - started)
      if elapsed > duration * 1000 then u32 (bytesBefore calls duration tick / duration)
      else u32 (1000 * bytesBefore calls duration tick / elapsed) := by
    rw [← hBytes]
    unfold calcSpeedInDuration counted
    dsimp only
    rw [startTime_checkTickCount, startTime_after, hSec]
  rw [hCode]
  dsimp only
  unfold speed at hSpeed ⊢
  by_cases hLong : duration * 1000 < tick - started
  · have hElapsed := hFits.elapsed hLong
    rw [if_pos hLong] at hSpeed ⊢
    have hSome : u32 (tick - started) ≠ 0 := by omega
    rw [if_neg hSome, if_pos hElapsed, u32_of_lt hSpeed]
  · rw [if_neg hLong] at hSpeed ⊢
    rw [u32_of_lt (show tick - started < 2 ^ 32 by omega)]
    by_cases hZero : tick - started = 0
    · rw [bytesBefore_started hOrder (by omega), if_pos hZero, if_neg (by omega)]
      simp [u32]
    · rw [if_neg hZero, if_neg hLong, u32_of_lt hSpeed]

/-- The submissions of 10 s, seen by the window of 5 s in the next second. -/
theorem window_speed_next :
    (after 10000 [.submitBytes 5000 10200, .query 1 10500]).calcSpeedInDuration 5 11000 = 5000 :=
  window_speed (by decide) (by simp [InOrder, Call.tick])
    (fun second => by simp [bytesIn, Call.bytesIn]; split <;> decide)
    ⟨by decide, by decide +kernel, by decide +kernel⟩ (by unfold SeesWindow; decide +kernel)

/-- The window of a minute shows bytes of the present second, of which it should show none. -/
theorem window_speed_fails :
    ¬ ∀ (started : Nat) (calls : List Call) (tick duration : Nat), duration ∈ windows →
      InOrder started calls tick → (∀ second, bytesIn calls second < 2 ^ 32) →
      (after started calls).calcSpeedInDuration duration tick =
        speed duration (tick - started) (bytesBefore calls duration tick) := by
  intro hAll
  have hMinute := hAll 100000 [.submitBytes 60000 200000] 200500 60 (by decide)
    (by simp [InOrder, Call.tick])
    (fun second => by simp [bytesIn, Call.bytesIn]; split <;> decide)
  revert hMinute
  decide +kernel

end ByteSpeedMeter

end P2P
