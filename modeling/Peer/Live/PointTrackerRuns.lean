import Mathlib.Data.Nat.ModEq
import Peer.Live.PointTracker

/-! The live point never moves back: a point that is taken is a whole interval ahead of the one
that was extrapolated, and the half interval added to what is reported is less than that. -/
namespace Live

open Basis Storage

namespace LivePointTracker

variable {s : LivePointTracker} {liveInterval offset last now now' start : Nat}
  {told : List (Nat × Nat)} {calls : List LivePointCall} {call : LivePointCall}

/-! ## The extrapolation -/

/-- A point after a time, in whole intervals. -/
def extrapolated (liveInterval blockId elapsed : Nat) : Nat :=
  blockId + liveInterval * (elapsed / (liveInterval * 1000))

theorem extrapolated_mono (liveInterval blockId : Nat) {elapsed elapsed' : Nat}
    (h : elapsed ≤ elapsed') :
    extrapolated liveInterval blockId elapsed ≤ extrapolated liveInterval blockId elapsed' :=
  Nat.add_le_add_left (Nat.mul_le_mul_left _ (Nat.div_le_div_right h)) _

theorem le_extrapolated (liveInterval blockId elapsed : Nat) :
    blockId ≤ extrapolated liveInterval blockId elapsed := Nat.le_add_right _ _

theorem extrapolated_modEq (liveInterval blockId elapsed : Nat) :
    extrapolated liveInterval blockId elapsed ≡ blockId [MOD liveInterval] := by
  unfold extrapolated Nat.ModEq
  rw [Nat.add_mul_mod_self_left]

/-- Half an interval more is at most one interval more. -/
theorem extrapolated_adjusted_le (hPos : 0 < liveInterval) (blockId elapsed : Nat) :
    extrapolated liveInterval blockId (elapsed + 500 * liveInterval) ≤
      extrapolated liveInterval blockId elapsed + liveInterval := by
  have hHalf : elapsed + 500 * liveInterval ≤ elapsed + liveInterval * 1000 := by omega
  have hDiv : (elapsed + 500 * liveInterval) / (liveInterval * 1000) ≤
      elapsed / (liveInterval * 1000) + 1 := by
    rw [← Nat.add_div_right _ (by omega)]
    exact Nat.div_le_div_right hHalf
  unfold extrapolated
  have hMul := Nat.mul_le_mul_left liveInterval hDiv
  rw [Nat.mul_add, Nat.mul_one] at hMul
  omega

/-- Real time is not exceeded by more than was added to it. -/
theorem extrapolated_le (liveInterval blockId elapsed : Nat) :
    1000 * extrapolated liveInterval blockId elapsed ≤ 1000 * blockId + elapsed := by
  have hFloor := Nat.div_mul_le_self elapsed (liveInterval * 1000)
  unfold extrapolated
  calc 1000 * (blockId + liveInterval * (elapsed / (liveInterval * 1000)))
      = 1000 * blockId + elapsed / (liveInterval * 1000) * (liveInterval * 1000) := by ring
    _ ≤ 1000 * blockId + elapsed := by omega

/-- Right after a point was taken it is reported itself. -/
theorem extrapolated_start (hPos : 0 < liveInterval) (blockId : Nat) :
    extrapolated liveInterval blockId (500 * liveInterval) = blockId := by
  unfold extrapolated
  rw [Nat.div_eq_of_lt (by omega), Nat.mul_zero, Nat.add_zero]

/-! ## The tracker -/

theorem elapsed_eq (hStart : s.ticksSinceLivePointLastSet = some start) (hTime : TimeFits s now) :
    u32 (now - start) = now - start ∧
      u32 (now - start + 500 * s.liveInterval) = now - start + 500 * s.liveInterval := by
  have h := hTime start hStart
  exact ⟨u32_of_lt (by omega), u32_of_lt (by omega)⟩

theorem report_running (hStart : s.ticksSinceLivePointLastSet = some start)
    (hTime : TimeFits s now) : s.report now =
      u32 (extrapolated s.liveInterval s.livePointStart.blockId
        (now - start + 500 * s.liveInterval)) := by
  obtain ⟨hElapsed, hAdjusted⟩ := elapsed_eq hStart hTime
  unfold report getCurrentLivePoint extrapolated
  rw [hStart]
  dsimp only
  rw [if_pos rfl, hElapsed, hAdjusted, Nat.add_comm, u32_add_left, Nat.add_comm]

theorem unadjusted_running (hStart : s.ticksSinceLivePointLastSet = some start)
    (hTime : TimeFits s now) : (s.getCurrentLivePoint false now).blockId =
      u32 (extrapolated s.liveInterval s.livePointStart.blockId (now - start)) := by
  obtain ⟨hElapsed, -⟩ := elapsed_eq hStart hTime
  unfold getCurrentLivePoint extrapolated
  rw [hStart]
  dsimp only
  rw [if_neg Bool.false_ne_true, hElapsed, Nat.add_comm, u32_add_left, Nat.add_comm]

theorem report_idle (hIdle : s.ticksSinceLivePointLastSet = none) (now : Nat) :
    s.report now = s.livePointStart.blockId := by
  unfold report getCurrentLivePoint
  rw [hIdle]

theorem report_eq (hStart : s.ticksSinceLivePointLastSet = some start) (hTime : TimeFits s now)
    (hFits : PointFits s now) : s.report now =
      extrapolated s.liveInterval s.livePointStart.blockId
        (now - start + 500 * s.liveInterval) := by
  rw [report_running hStart hTime]
  exact u32_of_lt (hFits start hStart)

theorem unadjusted_eq (hStart : s.ticksSinceLivePointLastSet = some start)
    (hTime : TimeFits s now) (hFits : PointFits s now) :
    (s.getCurrentLivePoint false now).blockId =
      extrapolated s.liveInterval s.livePointStart.blockId (now - start) := by
  rw [unadjusted_running hStart hTime]
  have hLe := extrapolated_mono s.liveInterval s.livePointStart.blockId
    (Nat.le_add_right (now - start) (500 * s.liveInterval))
  exact u32_of_lt (hLe.trans_lt (hFits start hStart))

theorem TimeFits.earlier (h : TimeFits s now') (hLe : now ≤ now') : TimeFits s now :=
  fun start hStart => (Nat.sub_le_sub_right hLe start).trans_lt (h start hStart)

theorem PointFits.earlier (h : PointFits s now') (hLe : now ≤ now') : PointFits s now := by
  intro start hStart
  have hMono := extrapolated_mono s.liveInterval s.livePointStart.blockId
    (Nat.add_le_add_right (Nat.sub_le_sub_right hLe start) (500 * s.liveInterval))
  exact hMono.trans_lt (h start hStart)

/-- What is known of a tracker after points were told, the last one at `last`. -/
structure Tracked (liveInterval offset : Nat) (s : LivePointTracker) (told : List (Nat × Nat))
    (last : Nat) : Prop where
  liveInterval_eq : s.liveInterval = liveInterval
  firstSubPiece : s.livePointStart.subPieceIndex = 0
  idle : s.ticksSinceLivePointLastSet = none →
    s.livePointStart.blockId = 0 ∧ ∀ point ∈ told, point.1 = 0
  start_mem : ∀ start, s.ticksSinceLivePointLastSet = some start →
    (s.livePointStart.blockId, start) ∈ told
  start_le : ∀ start, s.ticksSinceLivePointLastSet = some start → start ≤ last
  told_le : ∀ start, s.ticksSinceLivePointLastSet = some start → ∀ point ∈ told, ∀ now, last ≤ now →
    point.1 ≤ extrapolated liveInterval s.livePointStart.blockId (now - start)

/-- What is told is on the grid. -/
def Told (liveInterval offset : Nat) (told : List (Nat × Nat)) : Prop :=
  ∀ point ∈ told, point.1 < 2 ^ 32 ∧ point.1 ≡ offset [MOD liveInterval]

theorem report_mono (hLe : now ≤ now') (hTime : TimeFits s now')
    (hFits : PointFits s now') : s.report now ≤ s.report now' := by
  cases hStart : s.ticksSinceLivePointLastSet with
  | none => rw [report_idle hStart, report_idle hStart]
  | some start =>
      rw [report_eq hStart (hTime.earlier hLe) (hFits.earlier hLe), report_eq hStart hTime hFits]
      exact extrapolated_mono _ _ (Nat.add_le_add_right (Nat.sub_le_sub_right hLe start) _)

theorem Tracked.reportRight (h : Tracked liveInterval offset s told last)
    (hTold : Told liveInterval offset told) (hLast : last ≤ now) (hTime : TimeFits s now)
    (hFits : PointFits s now) : ReportRight liveInterval offset told now (s.report now) := by
  cases hStart : s.ticksSinceLivePointLastSet with
  | none =>
      obtain ⟨hZero, hAll⟩ := h.idle hStart
      rw [report_idle hStart, hZero]
      refine ⟨?_, fun point hPoint => (hAll point hPoint).le, ?_⟩
      · intro hSome
        obtain ⟨point, hPoint⟩ := List.exists_mem_of_ne_nil _ hSome
        rw [← hAll point hPoint]
        exact (hTold point hPoint).2
      · intro hSome
        obtain ⟨point, hPoint⟩ := List.exists_mem_of_ne_nil _ hSome
        exact ⟨point, hPoint, by omega⟩
  | some start =>
      have hMem := h.start_mem start hStart
      rw [report_eq hStart hTime hFits, h.liveInterval_eq]
      refine ⟨fun _ => ?_, fun point hPoint => ?_, fun _ => ⟨_, hMem, ?_⟩⟩
      · exact (extrapolated_modEq _ _ _).trans (hTold _ hMem).2
      · exact (h.told_le start hStart point hPoint now hLast).trans
          (extrapolated_mono _ _ (Nat.le_add_right _ _))
      · have hReal := extrapolated_le liveInterval s.livePointStart.blockId
          (now - start + 500 * liveInterval)
        dsimp only
        omega

/-! ## One call -/

/-- A told point is taken if it is ahead of the extrapolated one. -/
theorem before_iff {s : LivePointTracker} {blockId : Nat}
    (hFirst : s.livePointStart.subPieceIndex = 0) :
    (s.getCurrentLivePoint false now).before ⟨blockId, 0⟩ = true ↔
      (s.getCurrentLivePoint false now).blockId < blockId := by
  have hIndex : (s.getCurrentLivePoint false now).subPieceIndex = 0 := by
    unfold getCurrentLivePoint
    split <;> exact hFirst
  unfold LivePosition.before
  rw [hIndex]
  simp

/-- A point on the grid that is ahead is a whole interval ahead. -/
theorem le_of_ahead {blockId point elapsed : Nat} (hPoint : point ≡ offset [MOD liveInterval])
    (hBlock : blockId ≡ offset [MOD liveInterval])
    (hAhead : extrapolated liveInterval blockId elapsed < point) :
    extrapolated liveInterval blockId elapsed + liveInterval ≤ point :=
  Nat.ModEq.add_le_of_lt (((extrapolated_modEq _ _ _).trans hBlock).trans hPoint.symm) hAhead

theorem toldPoints_concat_none (now : Nat) :
    toldPoints (calls ++ [⟨now, none⟩]) = toldPoints calls := by
  simp [toldPoints]

theorem toldPoints_concat_some (now blockId : Nat) :
    toldPoints (calls ++ [⟨now, some blockId⟩]) = toldPoints calls ++ [(blockId, now)] := by
  simp [toldPoints]

theorem Tracked.later (h : Tracked liveInterval offset s told last) (hLe : last ≤ now) :
    Tracked liveInterval offset s told now where
  liveInterval_eq := h.liveInterval_eq
  firstSubPiece := h.firstSubPiece
  idle := h.idle
  start_mem := h.start_mem
  start_le start hStart := (h.start_le start hStart).trans hLe
  told_le start hStart point hPoint now' hNow :=
    h.told_le start hStart point hPoint now' (hLe.trans hNow)

/-- The tracker with a point that was taken. -/
def taken (s : LivePointTracker) (blockId now : Nat) : LivePointTracker :=
  { s with ticksSinceLivePointLastSet := some now, livePointStart := ⟨blockId, 0⟩ }

theorem timeFits_taken (hSmall : s.liveInterval < 2 ^ 16) (blockId now : Nat) :
    TimeFits (s.taken blockId now) now := by
  intro start hStart
  obtain rfl := Option.some.inj hStart
  show now - now < 2 ^ 32 - 500 * s.liveInterval
  omega

theorem taken_fits (hPos : 0 < s.liveInterval) (hSmall : s.liveInterval < 2 ^ 16) {blockId : Nat}
    (hLt : blockId < 2 ^ 32) (now : Nat) : PointFits (s.taken blockId now) now ∧
      (s.taken blockId now).report now = blockId := by
  have hSelf : extrapolated s.liveInterval blockId (now - now + 500 * s.liveInterval) = blockId := by
    rw [Nat.sub_self, Nat.zero_add]
    exact extrapolated_start hPos blockId
  have hFits : PointFits (s.taken blockId now) now := by
    intro start hStart
    obtain rfl := Option.some.inj hStart
    exact hSelf.trans_lt hLt
  refine ⟨hFits, ?_⟩
  rw [report_eq rfl (timeFits_taken hSmall blockId now) hFits]
  exact hSelf

/-- A point that is told and taken. -/
theorem Tracked.taken {blockId : Nat} (h : Tracked liveInterval offset s told last)
    (hAll : ∀ point ∈ told, point.1 ≤ blockId) :
    Tracked liveInterval offset (s.taken blockId now) (told ++ [(blockId, now)]) now where
  liveInterval_eq := h.liveInterval_eq
  firstSubPiece := rfl
  idle hNone := by cases hNone
  start_mem start hStart := by
    obtain rfl := Option.some.inj hStart
    exact List.mem_append_right _ (List.mem_singleton_self _)
  start_le start hStart := (Option.some.inj hStart).ge
  told_le start hStart point hPoint later hLater := by
    apply le_trans _ (le_extrapolated _ _ _)
    rcases List.mem_append.mp hPoint with hOld | hNew
    · exact hAll point hOld
    · exact (congrArg Prod.fst (List.mem_singleton.mp hNew)).le

/-- A point that is told and not taken. -/
theorem Tracked.ignored {blockId : Nat} (h : Tracked liveInterval offset s told now)
    (hTime : TimeFits s now) (hFits : PointFits s now)
    (hBehind : blockId ≤ (s.getCurrentLivePoint false now).blockId) :
    Tracked liveInterval offset s (told ++ [(blockId, now)]) now where
  liveInterval_eq := h.liveInterval_eq
  firstSubPiece := h.firstSubPiece
  idle hNone := by
    obtain ⟨hZero, hAll⟩ := h.idle hNone
    refine ⟨hZero, fun point hPoint => ?_⟩
    rcases List.mem_append.mp hPoint with hOld | hNew
    · exact hAll point hOld
    · rw [List.mem_singleton.mp hNew]
      unfold getCurrentLivePoint at hBehind
      rw [hNone] at hBehind
      dsimp only at hBehind
      omega
  start_mem start hStart := List.mem_append_left _ (h.start_mem start hStart)
  start_le := h.start_le
  told_le start hStart point hPoint later hLater := by
    rcases List.mem_append.mp hPoint with hOld | hNew
    · exact h.told_le start hStart point hOld later hLater
    · rw [List.mem_singleton.mp hNew]
      rw [unadjusted_eq hStart hTime hFits, h.liveInterval_eq] at hBehind
      exact hBehind.trans (extrapolated_mono _ _ (Nat.sub_le_sub_right hLater start))

/-- What is known of the tracker goes on, and what is reported does not move back: a point that
is taken is at least what was reported. -/
theorem Tracked.step (hPos : 0 < liveInterval) (hSmall : liveInterval < 2 ^ 16)
    (h : Tracked liveInterval offset s (toldPoints calls) last)
    (hTold : Told liveInterval offset (toldPoints (calls ++ [call]))) (hLast : last ≤ call.now)
    (hTime : TimeFits s call.now) (hFits : PointFits s call.now) :
    Tracked liveInterval offset (s.step call) (toldPoints (calls ++ [call])) call.now ∧
      s.report call.now ≤ (s.step call).report call.now ∧
      TimeFits (s.step call) call.now ∧ PointFits (s.step call) call.now := by
  have hNow := h.later hLast
  obtain ⟨now, told⟩ := call
  cases told with
  | none =>
      rw [toldPoints_concat_none]
      exact ⟨hNow, le_rfl, hTime, hFits⟩
  | some blockId =>
      rw [toldPoints_concat_some] at hTold ⊢
      obtain ⟨hLt, hGrid⟩ := hTold (blockId, now) (by simp)
      unfold LivePointTracker.step setCurrentLivePoint
      dsimp only at hNow hTime hFits ⊢
      split
      · rename_i hBefore
        have hAhead := (before_iff h.firstSubPiece).mp hBefore
        have hReport : s.report now ≤ blockId := by
          cases hStart : s.ticksSinceLivePointLastSet with
          | none =>
              rw [report_idle hStart, (h.idle hStart).1]
              exact Nat.zero_le _
          | some start =>
              have hStartGrid := (hTold _ (List.mem_append_left _ (h.start_mem start hStart))).2
              rw [unadjusted_eq hStart hTime hFits, h.liveInterval_eq] at hAhead
              rw [report_eq hStart hTime hFits, h.liveInterval_eq]
              exact (extrapolated_adjusted_le hPos _ _).trans
                (le_of_ahead hGrid hStartGrid hAhead)
        have hAll : ∀ point ∈ toldPoints calls, point.1 ≤ blockId := by
          intro point hPoint
          cases hStart : s.ticksSinceLivePointLastSet with
          | none =>
              rw [(h.idle hStart).2 point hPoint]
              exact Nat.zero_le _
          | some start =>
              rw [unadjusted_eq hStart hTime hFits, h.liveInterval_eq] at hAhead
              exact (hNow.told_le start hStart point hPoint now le_rfl).trans hAhead.le
        obtain ⟨hStill, hSame⟩ := taken_fits (s := s) (h.liveInterval_eq ▸ hPos)
          (h.liveInterval_eq ▸ hSmall) hLt now
        exact ⟨h.taken hAll, hReport.trans hSame.ge,
          timeFits_taken (h.liveInterval_eq ▸ hSmall) blockId now, hStill⟩
      · rename_i hBefore
        rw [before_iff h.firstSubPiece, Nat.not_lt] at hBefore
        exact ⟨hNow.ignored hTime hFits hBefore, le_rfl, hTime, hFits⟩

/-! ## Runs -/

/-- The claims about a run: what is reported never moves back, and every report is right. -/
structure PointRight (liveInterval offset : Nat) (calls : List LivePointCall) : Prop where
  nondecreasing : ((create liveInterval).reports calls).Pairwise (· ≤ ·)
  right : ∀ before call, before ++ [call] <+: calls →
    ReportRight liveInterval offset (toldPoints before) call.now
      (((create liveInterval).after before).report call.now) ∧
    ReportRight liveInterval offset (toldPoints (before ++ [call])) call.now
      (((create liveInterval).after (before ++ [call])).report call.now)

theorem tracked_create (hPos : 0 < liveInterval) (offset now : Nat) :
    Tracked liveInterval offset (create liveInterval) (toldPoints []) now where
  liveInterval_eq := if_neg hPos.ne'
  firstSubPiece := rfl
  idle _ := ⟨rfl, fun _ hPoint => nomatch hPoint⟩
  start_mem _ hStart := nomatch hStart
  start_le _ hStart := nomatch hStart
  told_le _ hStart := nomatch hStart

theorem told_of_isPrefix {before : List LivePointCall} (h : OnGrid liveInterval offset calls)
    (hBefore : before <+: calls) : Told liveInterval offset (toldPoints before) :=
  fun point hPoint => h.told point ((hBefore.filterMap _).subset hPoint)

/-- The time fits at every call. -/
def TimesFit (liveInterval : Nat) (calls : List LivePointCall) : Prop :=
  ∀ before call, before ++ [call] <+: calls →
    TimeFits ((create liveInterval).after before) call.now

/-- The extrapolated block id is a block id at every call. -/
def PointsFit (liveInterval : Nat) (calls : List LivePointCall) : Prop :=
  ∀ before call, before ++ [call] <+: calls →
    PointFits ((create liveInterval).after before) call.now

/-- The time of the last call, or any time if there is none. -/
def IsLast (calls : List LivePointCall) (last : Nat) : Prop := ∀ call ∈ calls, call.now ≤ last

/-- What is known at a time after a run. -/
structure RunRight (liveInterval offset : Nat) (calls : List LivePointCall) (now : Nat) : Prop where
  tracked : Tracked liveInterval offset ((create liveInterval).after calls) (toldPoints calls) now
  nondecreasing : ((create liveInterval).reports calls).Pairwise (· ≤ ·)
  reports_le : TimeFits ((create liveInterval).after calls) now →
    PointFits ((create liveInterval).after calls) now → ∀ r ∈ (create liveInterval).reports calls,
      r ≤ ((create liveInterval).after calls).report now

theorem onGrid_isPrefix {before : List LivePointCall} (h : OnGrid liveInterval offset calls)
    (hBefore : before <+: calls) : OnGrid liveInterval offset before :=
  ⟨told_of_isPrefix h hBefore, h.times.sublist hBefore.sublist⟩

theorem isLast_of_concat (h : OnGrid liveInterval offset (calls ++ [call])) :
    IsLast calls call.now := fun other hOther =>
  (List.pairwise_append.mp h.times).2.2 other hOther call (List.mem_singleton_self _)

theorem runRight_concat (hPos : 0 < liveInterval) (hSmall : liveInterval < 2 ^ 16)
    (h : RunRight liveInterval offset calls call.now)
    (hGrid : OnGrid liveInterval offset (calls ++ [call]))
    (hTime : TimeFits ((create liveInterval).after calls) call.now)
    (hFits : PointFits ((create liveInterval).after calls) call.now) (hNow : call.now ≤ now) :
    RunRight liveInterval offset (calls ++ [call]) now := by
  obtain ⟨hStep, hAhead, -, -⟩ := h.tracked.step hPos hSmall hGrid.told le_rfl hTime hFits
  have hOld := h.reports_le hTime hFits
  have hNew : ∀ r ∈ (create liveInterval).reports (calls ++ [call]),
      r ≤ (((create liveInterval).after calls).step call).report call.now := by
    intro r hr
    rw [reports_concat, after_concat] at hr
    rcases List.mem_append.mp hr with hMem | hMem
    · exact (hOld r hMem).trans hAhead
    · rcases List.mem_pair.mp hMem with rfl | rfl
      · exact hAhead
      · exact le_rfl
  refine ⟨?_, ?_, ?_⟩
  · rw [after_concat]
    exact hStep.later hNow
  · rw [reports_concat, after_concat]
    apply List.pairwise_append.mpr
    refine ⟨h.nondecreasing, List.pairwise_pair.mpr hAhead, ?_⟩
    intro r hr other hOther
    rcases List.mem_pair.mp hOther with rfl | rfl
    · exact hOld r hr
    · exact (hOld r hr).trans hAhead
  · rw [after_concat]
    intro hLaterTime hLaterFits r hr
    exact (hNew r hr).trans (report_mono hNow hLaterTime hLaterFits)

/-- In a run in which everything fits. -/
theorem runRight (hPos : 0 < liveInterval) (hSmall : liveInterval < 2 ^ 16)
    (hGrid : OnGrid liveInterval offset calls) (hTime : TimesFit liveInterval calls)
    (hFits : PointsFit liveInterval calls) :
    ∀ now, IsLast calls now → RunRight liveInterval offset calls now := by
  induction calls using List.reverseRecOn with
  | nil =>
      exact fun now _ =>
        ⟨tracked_create hPos offset now, List.Pairwise.nil, fun _ _ r hr => nomatch hr⟩
  | append_singleton calls call ih =>
      intro now hLast
      have hPart : calls <+: calls ++ [call] := List.prefix_append _ _
      have hBefore := ih (onGrid_isPrefix hGrid hPart)
        (fun before other hOther => hTime before other (hOther.trans hPart))
        (fun before other hOther => hFits before other (hOther.trans hPart))
      exact runRight_concat hPos hSmall (hBefore call.now (isLast_of_concat hGrid)) hGrid
        (hTime calls call (List.prefix_refl _)) (hFits calls call (List.prefix_refl _))
        (hLast call (by simp))

/-- The point from which the tracker goes on was told. -/
theorem start_mem_told (liveInterval : Nat) (calls : List LivePointCall) : ∀ start,
    ((create liveInterval).after calls).ticksSinceLivePointLastSet = some start →
      (((create liveInterval).after calls).livePointStart.blockId, start) ∈ toldPoints calls := by
  induction calls using List.reverseRecOn with
  | nil => exact fun _ hStart => nomatch hStart
  | append_singleton calls call ih =>
      intro start hStart
      rw [after_concat] at hStart ⊢
      obtain ⟨now, told⟩ := call
      cases told with
      | none =>
          rw [toldPoints_concat_none]
          exact ih start hStart
      | some blockId =>
          rw [toldPoints_concat_some]
          unfold step setCurrentLivePoint at hStart ⊢
          dsimp only at hStart ⊢
          split_ifs at hStart ⊢
          · obtain rfl := Option.some.inj hStart
            exact List.mem_append_right _ (List.mem_singleton_self _)
          · exact List.mem_append_left _ (ih start hStart)

theorem liveInterval_after (hPos : 0 < liveInterval) (calls : List LivePointCall) :
    ((create liveInterval).after calls).liveInterval = liveInterval := by
  induction calls using List.reverseRecOn with
  | nil => exact if_neg hPos.ne'
  | append_singleton calls call ih =>
      rw [after_concat]
      unfold step setCurrentLivePoint
      split
      · exact ih
      · split_ifs <;> exact ih

/-- A block id that wraps is reported below the point it goes on from. -/
theorem pointFits_of_above (hLt : s.livePointStart.blockId < 2 ^ 32)
    (hTime : TimeFits s now)
    (hAbove : ∀ start, s.ticksSinceLivePointLastSet = some start →
      s.livePointStart.blockId ≤ s.report now) : PointFits s now := by
  intro start hStart
  have hLe := hAbove start hStart
  have hElapsed := hTime start hStart
  have hReal := extrapolated_le s.liveInterval s.livePointStart.blockId
    (now - start + 500 * s.liveInterval)
  have hFrom := le_extrapolated s.liveInterval s.livePointStart.blockId
    (now - start + 500 * s.liveInterval)
  rw [report_running hStart hTime] at hLe
  show extrapolated s.liveInterval s.livePointStart.blockId
    (now - start + 500 * s.liveInterval) < 2 ^ 32
  by_contra hNot
  -- It has gone on by less than 2^32 / 1000 blocks, so it wraps once.
  have hWrap : u32 (extrapolated s.liveInterval s.livePointStart.blockId
      (now - start + 500 * s.liveInterval)) = extrapolated s.liveInterval
      s.livePointStart.blockId (now - start + 500 * s.liveInterval) - 2 ^ 32 := by
    unfold u32
    omega
  omega

/-- In a run with block ids of one grid and times that fit, the live point is right exactly if
no extrapolated block id wraps around. -/
theorem pointRight_iff (hPos : 0 < liveInterval) (hSmall : liveInterval < 2 ^ 16)
    (hGrid : OnGrid liveInterval offset calls) (hTime : TimesFit liveInterval calls) :
    PointRight liveInterval offset calls ↔ PointsFit liveInterval calls := by
  constructor
  · intro h before call hBefore
    have hPart : before <+: calls := (List.prefix_append _ _).trans hBefore
    have hTold := told_of_isPrefix hGrid hPart
    intro start hStart
    have hMem := start_mem_told liveInterval before start hStart
    exact pointFits_of_above (hTold _ hMem).1 (hTime before call hBefore)
      (fun _ _ => (h.right before call hBefore).1.above _ hMem) start hStart
  · intro h
    have hRun : ∀ before, before <+: calls → ∀ now, IsLast before now →
        RunRight liveInterval offset before now :=
      fun before hBefore => runRight hPos hSmall (onGrid_isPrefix hGrid hBefore)
        (fun other call hOther => hTime other call (hOther.trans hBefore))
        (fun other call hOther => h other call (hOther.trans hBefore))
    refine ⟨?_, ?_⟩
    · -- The time of the last call is as good as any.
      have hLast : ∃ last, IsLast calls last := by
        rcases List.eq_nil_or_concat calls with rfl | ⟨before, call, rfl⟩
        · exact ⟨0, fun _ hMem => nomatch hMem⟩
        · rw [List.concat_eq_append] at hGrid ⊢
          refine ⟨call.now, fun other hOther => ?_⟩
          rcases List.mem_append.mp hOther with hOld | hNew
          · exact isLast_of_concat hGrid other hOld
          · rw [List.mem_singleton.mp hNew]
      obtain ⟨last, hLast⟩ := hLast
      exact (hRun calls (List.prefix_refl _) last hLast).nondecreasing
    · intro before call hBefore
      have hPart : before <+: calls := (List.prefix_append _ _).trans hBefore
      have hHere := onGrid_isPrefix hGrid hBefore
      have hNowTime := hTime before call hBefore
      have hNowFits := h before call hBefore
      have hTracked := (hRun before hPart call.now (isLast_of_concat hHere)).tracked
      obtain ⟨hStep, -, hStepTime, hStepFits⟩ :=
        hTracked.step hPos hSmall hHere.told le_rfl hNowTime hNowFits
      rw [after_concat]
      exact ⟨hTracked.reportRight (onGrid_isPrefix hGrid hPart).told le_rfl hNowTime hNowFits,
        hStep.reportRight hHere.told le_rfl hStepTime hStepFits⟩

/-- Times fit if the whole run is short. -/
theorem timesFit_of_early (hPos : 0 < liveInterval)
    (h : ∀ call ∈ calls, call.now < 2 ^ 32 - 500 * liveInterval) : TimesFit liveInterval calls := by
  intro before call hBefore start _
  rw [liveInterval_after hPos]
  exact (Nat.sub_le _ _).trans_lt (h call (hBefore.subset (by simp)))

/-- Two blocks of ten seconds, the second of which is told late. -/
def twoPoints : List LivePointCall := [⟨0, some 100⟩, ⟨16000, some 110⟩, ⟨26000, none⟩]

theorem pointRight_iff_twoPoints : PointRight 10 0 twoPoints ↔ PointsFit 10 twoPoints :=
  pointRight_iff (by decide) (by decide) ⟨by decide, by decide⟩
    (timesFit_of_early (by decide) (by decide))

/-- The last block id of the grid, ten seconds ago. -/
def lastPoint : List LivePointCall := [⟨0, some 4294967286⟩, ⟨10000, none⟩]

theorem pointRight_fails :
    OnGrid 10 6 lastPoint ∧ TimesFit 10 lastPoint ∧ ¬ PointRight 10 6 lastPoint := by
  refine ⟨⟨by decide, by decide⟩, timesFit_of_early (by decide) (by decide), fun h => ?_⟩
  have hReports : (create 10).reports lastPoint = [0, 4294967286, 0, 0] := by decide +kernel
  have hSorted := h.nondecreasing
  rw [hReports] at hSorted
  exact absurd hSorted (by decide)

end LivePointTracker

end Live
