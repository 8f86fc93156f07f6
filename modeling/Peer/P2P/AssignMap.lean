import Mathlib.Data.List.Dedup
import Mathlib.Data.List.Nodup
import Peer.P2P.PieceTaskAgreement

/-! What the assigner asks for in one round over all piece tasks: only what is wanted and
missing, all of it that is not requested, and nothing more often than one task allows. -/
namespace P2P

open Storage

variable {g : ProtocolPieces} {r : RidInfo} {v : AssignerView} {t t' : PieceInfoEx}
  {s : SubPieceInfo} {tasks seen : List PieceInfoEx} {pieceTasks : List (PieceInfoEx × Nat)}
  {counted countedEnd eofFile : Bool} {index need : Nat}

/-- What the loops of `CaclSubPieceAssignMap` visit for a task. -/
def visited (g : ProtocolPieces) (r : RidInfo) (t : PieceInfoEx) : List SubPieceInfo :=
  subPiecesTo t (assignedEnd g r t)

/-- The subpieces of the file from the start of a task to its end, under their names. -/
def wantedOf (r : RidInfo) (t : PieceInfoEx) : List SubPieceInfo :=
  ((List.range' t.subpieceIndex (t.subpieceIndexEnd + 1 - t.subpieceIndex)).filter fun i =>
    t.pieceIndex * subpieceNumPerPiece + i < r.capacity t.blockIndex).map fun i =>
      SubPieceInfo.make t.blockIndex (t.pieceIndex * subpieceNumPerPiece + i)

/-- How many of the subpieces wanted of a task are missing. -/
def missingOf (r : RidInfo) (v : AssignerView) (t : PieceInfoEx) : Nat :=
  (wantedOf r t).countP fun s => !v.hasSubPiece s

/-- How many subpieces wanted of any task are missing and not requested. -/
def freshOf (r : RidInfo) (v : AssignerView) (pieceTasks : List (PieceInfoEx × Nat)) : Nat :=
  ((pieceTasks.flatMap fun task => wantedOf r task.1).dedup.filter fun s =>
    !v.hasSubPiece s && !v.isRequesting s).length

/-- How often the whole may be repeated, by the number of subpieces that are not requested. -/
def repeats (count : Nat) : Nat :=
  if count < 32 then 4 else if count < 64 then 2 else if count < 96 then 1 else 0

/-- How often a missing subpiece may be asked for redundantly because of one task: the first
task of a round has two more requests when hardly anything of it is missing and one when
little is, and what is requested already may be requested once more. -/
def allowedExtra (v : AssignerView) (index need : Nat) (s : SubPieceInfo) : Nat :=
  let again := if v.isRequesting s then 1 else 0
  match v.mode with
  | .normal => if index = 0 then (if need ≤ 3 then 2 else if need ≤ 10 then 1 else again) else again
  | .continuous =>
      if index = 0 then (if need ≤ 5 then 2 else if need ≤ 15 then 1 else again) else again
  | .fast => again
  | .other => 0

/-- How often one round may ask for a missing subpiece because of one task: once if it is
not requested, and redundantly, all that as often as the round is repeated. -/
def allowed (r : RidInfo) (v : AssignerView) (pieceTasks : List (PieceInfoEx × Nat)) (index : Nat)
    (t : PieceInfoEx) (s : SubPieceInfo) : Nat :=
  (1 + repeats (freshOf r v pieceTasks)) *
    ((if v.isRequesting s then 0 else 1) + allowedExtra v index (missingOf r v t) s)

/-- What the assigner promises of one round. -/
structure AssignExact (g : ProtocolPieces) (r : RidInfo) (v : AssignerView)
    (pieceTasks : List (PieceInfoEx × Nat)) : Prop where
  sound : ∀ s ∈ caclSubPieceAssignMap g r v pieceTasks, v.hasSubPiece s = false ∧
    ∃ task ∈ pieceTasks, Wanted r task.1 s.blockIndex s.subpieceIndex
  complete : ∀ task ∈ pieceTasks, ∀ b k, Wanted r task.1 b k →
    ∃ s : SubPieceInfo, s.blockIndex = b ∧ s.subpieceIndex = k ∧
      (v.hasSubPiece s = false → v.isRequesting s = false →
        s ∈ caclSubPieceAssignMap g r v pieceTasks)
  bounded : ∀ s ∈ caclSubPieceAssignMap g r v pieceTasks, ∃ (index : Nat) (task : PieceInfoEx × Nat),
    pieceTasks[index]? = some task ∧ Wanted r task.1 s.blockIndex s.subpieceIndex ∧
      (caclSubPieceAssignMap g r v pieceTasks).count s ≤ allowed r v pieceTasks index task.1 s

/-- What is wanted of every task has names, the loop of the task ends with it and inside the
file, and no two tasks have a subpiece in common. -/
structure Apart (g : ProtocolPieces) (r : RidInfo) (pieceTasks : List (PieceInfoEx × Nat)) :
    Prop where
  named : ∀ task ∈ pieceTasks, Wants r task.1 → Named task.1
  atEof : ∀ task ∈ pieceTasks,
    r.fileLength ≤ g.getEndPosition task.1.getPieceInfo r.blockSize →
      eofIndex r task.1 < task.1.subpieceIndex ∨
        (lastIndex r task.1 = eofIndex r task.1 ∧ lastIndex r task.1 ≤ task.1.subpieceIndexEnd)
  beforeEof : ∀ task ∈ pieceTasks,
    g.getEndPosition task.1.getPieceInfo r.blockSize < r.fileLength →
      task.1.subpieceIndexEnd < task.1.subpieceIndex ∨ task.1.subpieceIndexEnd ≤ lastIndex r task.1
  apart : ∀ task ∈ pieceTasks, ∀ other ∈ pieceTasks, task.1 ≠ other.1 →
    task.1.getPieceInfo = other.1.getPieceInfo →
      min (min task.1.subpieceIndexEnd other.1.subpieceIndexEnd) (lastIndex r task.1) <
        max task.1.subpieceIndex other.1.subpieceIndex

section Task

/-- Each item only gives copies of itself. -/
theorem count_flatMap_of_only {α : Type} [DecidableEq α] {f : α → List α}
    (hOnly : ∀ x, ∀ y ∈ f x, y = x) (l : List α) (x : α) :
    (l.flatMap f).count x = l.count x * (f x).length := by
  induction l with
  | nil => simp
  | cons y rest ih =>
      rw [List.flatMap_cons, List.count_append, ih, List.count_cons]
      by_cases hEq : y = x
      · subst hEq
        have hAll : (f y).count y = (f y).length :=
          List.count_eq_length.mpr fun z hz => (hOnly y z hz).symm
        rw [hAll, beq_self_eq_true, if_pos rfl, Nat.add_mul, Nat.one_mul, Nat.add_comm]
      · have hNone : (f y).count x = 0 :=
          List.count_eq_zero.mpr fun hMem => hEq (hOnly y x hMem).symm
        rw [hNone, Nat.zero_add, if_neg (by simpa using hEq), Nat.add_zero]

theorem filter_eq_flatMap {α : Type} (p : α → Bool) (l : List α) :
    l.filter p = l.flatMap fun x => [x].filter p := by
  induction l with
  | nil => rfl
  | cons x rest ih =>
      rw [List.flatMap_cons, ← ih]
      cases hp : p x <;> simp [hp]

/-- The redundant requests for a task are decided for each subpiece alone. -/
theorem redundant_eq_flatMap (v : AssignerView) (index : Nat) (eofFile : Bool) (need : Nat)
    (l : List SubPieceInfo) :
    redundant v index eofFile need l = l.flatMap fun s => redundant v index eofFile need [s] := by
  unfold redundant redundantAll
  cases v.mode with
  | other => simp
  | _ =>
      dsimp only
      split_ifs <;> first | exact filter_eq_flatMap _ _ | simp

theorem redundant_of_held (hHeld : v.hasSubPiece s = true) :
    redundant v index eofFile need [s] = [] := by
  unfold redundant redundantAll
  cases v.mode with
  | other => rfl
  | _ =>
      dsimp only
      split_ifs <;> simp [redundantFirst, hHeld]

theorem count_redundant (l : List SubPieceInfo) : (redundant v index eofFile need l).count s =
    l.count s * (redundant v index eofFile need [s]).length := by
  rw [redundant_eq_flatMap]
  exact count_flatMap_of_only (fun x y hy => List.mem_singleton.mp (mem_of_redundant hy)) l s

theorem length_redundantFirst_le (few more need : Nat) (s : SubPieceInfo) :
    (redundantFirst v few more need s).length ≤ if need ≤ few then 2 else if need ≤ more then 1
      else if v.isRequesting s then 1 else 0 := by
  unfold redundantFirst
  cases v.hasSubPiece s <;> cases v.isRequesting s <;>
    cases v.isRequestingTimeout s v.configs.continuousRedundantDecisionTimeout <;> simp <;>
    split_ifs <;> simp

theorem length_filter_requesting_le (p : SubPieceInfo → Bool) (s : SubPieceInfo) :
    ([s].filter fun s => !v.hasSubPiece s && (v.isRequesting s && p s)).length ≤
      if v.isRequesting s then 1 else 0 := by
  cases hRequesting : v.isRequesting s with
  | false => simp [hRequesting]
  | true => exact List.length_filter_le _ _

/-- One task asks for nothing redundantly more often than it may. -/
theorem length_redundant_le (index : Nat) (eofFile : Bool) (need : Nat) (s : SubPieceInfo) :
    (redundant v index eofFile need [s]).length ≤ allowedExtra v index need s := by
  have hAll : (redundantAll v [s]).length ≤ if v.isRequesting s then 1 else 0 := by
    simpa [redundantAll] using length_filter_requesting_le (v := v) (fun _ => true) s
  have hMaybe (c : Prop) [Decidable c] (p : SubPieceInfo → Bool) :
      (if c then [s].filter fun s => !v.hasSubPiece s && (v.isRequesting s && p s) else []).length ≤
        if v.isRequesting s then 1 else 0 := by
    split
    · exact length_filter_requesting_le p s
    · exact Nat.zero_le _
  have hSingle (few more : Nat) :
      ([s].flatMap (redundantFirst v few more need)).length ≤ if need ≤ few then 2
        else if need ≤ more then 1 else if v.isRequesting s then 1 else 0 := by
    rw [List.flatMap_singleton]
    exact length_redundantFirst_le few more need s
  have hAgain (few more : Nat) : (if v.isRequesting s then 1 else 0) ≤ if need ≤ few then 2
      else if need ≤ more then 1 else if v.isRequesting s then 1 else 0 := by
    split_ifs <;> omega
  unfold redundant allowedExtra
  cases v.mode with
  | normal =>
      dsimp only
      by_cases hFirst : index = 0
      · rw [if_pos (Or.inl (by omega)), if_pos hFirst, if_pos hFirst]
        split
        · exact hAll.trans (hAgain 3 10)
        · exact hSingle 3 10
      · rw [if_neg hFirst, if_neg hFirst]
        split
        · split
          · exact hAll
          · exact hMaybe _ _
        · exact Nat.zero_le _
  | continuous =>
      dsimp only
      split
      · exact hSingle 5 15
      · split
        · exact hAll
        · exact hMaybe _ _
  | fast =>
      dsimp only
      split
      · exact hAll
      · exact Nat.zero_le _
  | other => exact Nat.zero_le _

/-- How often a missing subpiece is asked for because of one task: once if it is not
requested, and redundantly. -/
def timesFor (g : ProtocolPieces) (r : RidInfo) (v : AssignerView) (eofFile : Bool) (index : Nat)
    (t : PieceInfoEx) (s : SubPieceInfo) : Nat :=
  let need := ((visited g r t).filter fun s => !v.hasSubPiece s).length
  (if v.isRequesting s then 0 else 1) + (redundant v index eofFile need [s]).length

/-- All requests for one task. -/
def assignedFor (g : ProtocolPieces) (r : RidInfo) (v : AssignerView) (index : Nat)
    (eofFile : Bool) (t : PieceInfoEx) : List SubPieceInfo :=
  (assignTask g r v index eofFile t).1 ++ (assignTask g r v index eofFile t).2

theorem mem_assignedFor (h : s ∈ assignedFor g r v index eofFile t) :
    s ∈ visited g r t ∧ v.hasSubPiece s = false := by
  rcases List.mem_append.mp h with hNormal | hExtra
  · have hMissing := List.mem_of_mem_filter hNormal
    exact ⟨List.mem_of_mem_filter hMissing, by simpa using (List.mem_filter.mp hMissing).2⟩
  · refine ⟨mem_of_redundant hExtra, ?_⟩
    by_contra hHeld
    simp only [assignTask] at hExtra
    rw [← List.count_pos_iff, count_redundant, redundant_of_held (by simpa using hHeld)] at hExtra
    simp at hExtra

theorem mem_assignedFor_of_free (hVisited : s ∈ visited g r t) (hMissing : v.hasSubPiece s = false)
    (hFree : v.isRequesting s = false) : s ∈ assignedFor g r v index eofFile t := by
  apply List.mem_append_left
  simpa [assignTask, visited, hMissing, hFree] using hVisited

theorem count_assignedFor (hNodup : (visited g r t).Nodup) (hVisited : s ∈ visited g r t)
    (hMissing : v.hasSubPiece s = false) :
    (assignedFor g r v index eofFile t).count s = timesFor g r v eofFile index t s := by
  have hOne := List.count_eq_one_of_mem hNodup hVisited
  rw [assignedFor, List.count_append, timesFor]
  simp only [assignTask]
  rw [← visited, count_redundant, hOne, Nat.one_mul]
  congr 1
  cases hFree : v.isRequesting s with
  | true =>
      rw [if_pos rfl, List.count_eq_zero]
      intro hMem
      simpa [hFree] using (List.mem_filter.mp hMem).2
  | false =>
      rw [if_neg (by simp), List.count_filter (by simpa using hFree),
        List.count_filter (by simpa using hMissing), hOne]

end Task

section Round

/-- The library tells any two different tasks apart. -/
def ProtocolPieces.Distinguishes (g : ProtocolPieces) : Prop :=
  ∀ t t', g.sameKey t t' = true ↔ t = t'

theorem any_sameKey_iff (hKey : g.Distinguishes) (t : PieceInfoEx) (seen : List PieceInfoEx) :
    seen.any (g.sameKey t) = true ↔ t ∈ seen := by
  simp [List.any_eq_true, hKey t]

/-- The head of the tasks is treated, unless it was before. -/
theorem assignTasks_cons (hKey : g.Distinguishes) (t : PieceInfoEx) (rest : List PieceInfoEx) :
    (assignTasks g r v eofFile index seen (t :: rest)).1 =
      if t ∈ seen then (assignTasks g r v eofFile (index + 1) seen rest).1
      else assignedFor g r v index eofFile t ++
        (assignTasks g r v eofFile (index + 1) (t :: seen) rest).1 := by
  rw [assignTasks]
  by_cases hSeen : t ∈ seen
  · rw [if_pos ((any_sameKey_iff hKey t seen).mpr hSeen), if_pos hSeen]
  · rw [if_neg (mt (any_sameKey_iff hKey t seen).mp hSeen), if_neg hSeen]
    rfl

/-- What the round asks for comes from a task that was not treated before. -/
theorem mem_assignTasks (hKey : g.Distinguishes)
    (h : s ∈ (assignTasks g r v eofFile index seen tasks).1) :
    ∃ t ∈ tasks, t ∉ seen ∧ s ∈ visited g r t ∧ v.hasSubPiece s = false := by
  induction tasks generalizing index seen with
  | nil => simp [assignTasks] at h
  | cons u rest ih =>
      rw [assignTasks_cons hKey] at h
      split at h
      · obtain ⟨t, hMem, hRest⟩ := ih h
        exact ⟨t, List.mem_cons_of_mem u hMem, hRest⟩
      · rename_i hSeen
        rcases List.mem_append.mp h with hHere | hLater
        · exact ⟨u, List.mem_cons_self, hSeen, mem_assignedFor hHere⟩
        · obtain ⟨t, hMem, hNew, hRest⟩ := ih hLater
          exact ⟨t, List.mem_cons_of_mem u hMem, fun hOld => hNew (List.mem_cons_of_mem u hOld), hRest⟩

/-- A missing subpiece that is not requested is asked for. -/
theorem mem_assignTasks_of_free (hKey : g.Distinguishes) (ht : t ∈ tasks) (hNew : t ∉ seen)
    (hVisited : s ∈ visited g r t) (hMissing : v.hasSubPiece s = false)
    (hFree : v.isRequesting s = false) : s ∈ (assignTasks g r v eofFile index seen tasks).1 := by
  induction tasks generalizing index seen with
  | nil => cases ht
  | cons u rest ih =>
      rw [assignTasks_cons hKey]
      by_cases hHead : t = u
      · subst hHead
        rw [if_neg hNew]
        exact List.mem_append_left _ (mem_assignedFor_of_free hVisited hMissing hFree)
      · have hRest := (List.mem_cons.mp ht).resolve_left hHead
        split
        · exact ih hRest hNew
        · exact List.mem_append_right _ (ih hRest (by simp [hHead, hNew]))

/-- Where no other task visits a subpiece, one task alone decides how often it is asked
for. -/
theorem count_assignTasks (hKey : g.Distinguishes) (hNodup : ∀ t ∈ tasks, (visited g r t).Nodup)
    (hApart : ∀ t ∈ tasks, ∀ t' ∈ tasks, s ∈ visited g r t → s ∈ visited g r t' → t = t')
    (h : s ∈ (assignTasks g r v eofFile index seen tasks).1) :
    ∃ i t, tasks[i]? = some t ∧ s ∈ visited g r t ∧
      (assignTasks g r v eofFile index seen tasks).1.count s =
        timesFor g r v eofFile (index + i) t s := by
  induction tasks generalizing index seen with
  | nil => simp [assignTasks] at h
  | cons u rest ih =>
      have hLater (seen') (hIn : s ∈ (assignTasks g r v eofFile (index + 1) seen' rest).1) :
          ∃ i t, (u :: rest)[i]? = some t ∧ s ∈ visited g r t ∧
            (assignTasks g r v eofFile (index + 1) seen' rest).1.count s =
              timesFor g r v eofFile (index + i) t s := by
        obtain ⟨i, t, hGet, hVisited, hCount⟩ :=
          ih (fun t ht => hNodup t (List.mem_cons_of_mem u ht))
            (fun t ht t' ht' => hApart t (List.mem_cons_of_mem u ht) t' (List.mem_cons_of_mem u ht'))
            hIn
        refine ⟨i + 1, t, hGet, hVisited, ?_⟩
        rw [hCount, Nat.add_assoc, Nat.add_comm 1 i]
      rw [assignTasks_cons hKey] at h ⊢
      split at h
      · rename_i hSeen
        rw [if_pos hSeen]
        exact hLater seen h
      · rename_i hSeen
        rw [if_neg hSeen, List.count_append]
        have hAll : s ∈ (assignTasks g r v eofFile index seen (u :: rest)).1 := by
          rw [assignTasks_cons hKey, if_neg hSeen]
          exact h
        obtain ⟨t, -, -, -, hMissing⟩ := mem_assignTasks hKey hAll
        by_cases hHere : s ∈ visited g r u
        · refine ⟨0, u, rfl, hHere, ?_⟩
          have hNone : (assignTasks g r v eofFile (index + 1) (u :: seen) rest).1.count s = 0 := by
            rw [List.count_eq_zero]
            intro hIn
            obtain ⟨t', ht', hNew, hVisited, -⟩ := mem_assignTasks hKey hIn
            have hEq := hApart u List.mem_cons_self t' (List.mem_cons_of_mem u ht') hHere hVisited
            exact hNew (hEq ▸ List.mem_cons_self)
          rw [hNone, count_assignedFor (hNodup u List.mem_cons_self) hHere hMissing]
          rfl
        · have hNone : (assignedFor g r v index eofFile u).count s = 0 :=
            List.count_eq_zero.mpr fun hIn => hHere (mem_assignedFor hIn).1
          rw [hNone, Nat.zero_add]
          apply hLater
          rcases List.mem_append.mp h with hIn | hIn
          · exact absurd (mem_assignedFor hIn).1 hHere
          · exact hIn

/-- Two tasks with a common subpiece ask for it twice. -/
theorem two_le_count (hKey : g.Distinguishes) (hNe : t ≠ t') (ht : t ∈ tasks) (ht' : t' ∈ tasks)
    (hNew : t ∉ seen) (hNew' : t' ∉ seen) (hVisited : s ∈ visited g r t)
    (hVisited' : s ∈ visited g r t') (hMissing : v.hasSubPiece s = false)
    (hFree : v.isRequesting s = false) :
    2 ≤ (assignTasks g r v eofFile index seen tasks).1.count s := by
  induction tasks generalizing index seen with
  | nil => cases ht
  | cons u rest ih =>
      have hBoth {w other : PieceInfoEx} (hHead : u = w) (hOther : other ∈ rest) (hw : w ∉ seen)
          (hNotSeen : other ∉ seen) (hDiff : other ≠ w) (hwVisited : s ∈ visited g r w)
          (hOtherVisited : s ∈ visited g r other) :
          2 ≤ (assignTasks g r v eofFile index seen (u :: rest)).1.count s := by
        subst hHead
        rw [assignTasks_cons hKey, if_neg hw, List.count_append]
        have hHere : 0 < (assignedFor g r v index eofFile u).count s :=
          List.count_pos_iff.mpr (mem_assignedFor_of_free hwVisited hMissing hFree)
        have hLater : 0 < (assignTasks g r v eofFile (index + 1) (u :: seen) rest).1.count s :=
          List.count_pos_iff.mpr (mem_assignTasks_of_free hKey hOther (by simp [hDiff, hNotSeen])
            hOtherVisited hMissing hFree)
        omega
      by_cases hHead : u = t
      · have hIn := (List.mem_cons.mp ht').resolve_left fun hEq => hNe (hHead.symm.trans hEq.symm)
        exact hBoth hHead hIn hNew hNew' (Ne.symm hNe) hVisited hVisited'
      · have hIn := (List.mem_cons.mp ht).resolve_left fun hEq => hHead hEq.symm
        by_cases hHead' : u = t'
        · exact hBoth hHead' hIn hNew' hNew hNe hVisited' hVisited
        · have hIn' := (List.mem_cons.mp ht').resolve_left fun hEq => hHead' hEq.symm
          rw [assignTasks_cons hKey]
          split
          · exact ih hIn hIn' hNew hNew'
          · rw [List.count_append]
            have hLater : 2 ≤
                (assignTasks g r v eofFile (index + 1) (u :: seen) rest).1.count s :=
              ih hIn hIn' (by simp [hNew, Ne.symm hHead]) (by simp [hNew', Ne.symm hHead'])
            omega

/-- The number of subpieces that are not requested, task by task. -/
theorem count_assignTasks_cons (hKey : g.Distinguishes) (t : PieceInfoEx)
    (rest : List PieceInfoEx) : (assignTasks g r v eofFile index seen (t :: rest)).2 =
      if t ∈ seen then (assignTasks g r v eofFile (index + 1) seen rest).2
      else (assignTask g r v index eofFile t).1.length +
        (assignTasks g r v eofFile (index + 1) (t :: seen) rest).2 := by
  rw [assignTasks]
  by_cases hSeen : t ∈ seen
  · rw [if_pos ((any_sameKey_iff hKey t seen).mpr hSeen), if_pos hSeen]
  · rw [if_neg (mt (any_sameKey_iff hKey t seen).mp hSeen), if_neg hSeen]

/-- Whatever is missing and not requested counts. -/
theorem length_le_count (hKey : g.Distinguishes) {fresh : List SubPieceInfo} (hNodup : fresh.Nodup)
    (h : ∀ s ∈ fresh, v.hasSubPiece s = false ∧ v.isRequesting s = false ∧
      ∃ t ∈ tasks, t ∉ seen ∧ s ∈ visited g r t) :
    fresh.length ≤ (assignTasks g r v eofFile index seen tasks).2 := by
  induction tasks generalizing index seen fresh with
  | nil =>
      cases fresh with
      | nil => exact Nat.zero_le _
      | cons s rest =>
          obtain ⟨-, -, t, ht, -⟩ := h s List.mem_cons_self
          cases ht
  | cons u rest ih =>
      rw [count_assignTasks_cons hKey]
      by_cases hSeen : u ∈ seen
      · rw [if_pos hSeen]
        refine ih hNodup fun s hs => ?_
        obtain ⟨hMissing, hFree, t, ht, hNew, hVisited⟩ := h s hs
        refine ⟨hMissing, hFree, t, (List.mem_cons.mp ht).resolve_left fun hEq => ?_, hNew, hVisited⟩
        exact hNew (hEq ▸ hSeen)
      · rw [if_neg hSeen, List.length_eq_length_filter_add fun s => decide (s ∈ visited g r u)]
        refine Nat.add_le_add ?_ (ih (hNodup.filter _) fun s hs => ?_)
        · -- What the first task visits is among its own requests.
          refine (List.subperm_of_subset (hNodup.filter _) fun s hs => ?_).length_le
          obtain ⟨hMem, hVisited⟩ := List.mem_filter.mp hs
          obtain ⟨hMissing, hFree, -⟩ := h s hMem
          have hIn : s ∈ visited g r u := of_decide_eq_true hVisited
          simpa [assignTask, visited, hMissing, hFree] using hIn
        · obtain ⟨hMem, hNot⟩ := List.mem_filter.mp hs
          obtain ⟨hMissing, hFree, t, ht, hNew, hVisited⟩ := h s hMem
          have hOther : t ≠ u := fun hEq => by simp [← hEq, hVisited] at hNot
          exact ⟨hMissing, hFree, t, (List.mem_cons.mp ht).resolve_left hOther,
            by simp [hOther, hNew], hVisited⟩

theorem count_le_length (hKey : g.Distinguishes) :
    (assignTasks g r v eofFile index seen tasks).2 ≤
      (assignTasks g r v eofFile index seen tasks).1.length := by
  induction tasks generalizing index seen with
  | nil => exact Nat.le_refl _
  | cons u rest ih =>
      rw [count_assignTasks_cons hKey, assignTasks_cons hKey]
      split
      · exact ih
      · rw [List.length_append, assignedFor, List.length_append]
        have hRest : (assignTasks g r v eofFile (index + 1) (u :: seen) rest).2 ≤
            (assignTasks g r v eofFile (index + 1) (u :: seen) rest).1.length := ih
        omega

/-- Repeating the whole multiplies every count. -/
theorem count_caclSubPieceAssignMap (s : SubPieceInfo) :
    (caclSubPieceAssignMap g r v pieceTasks).count s =
      (1 + repeats (assignTasks g r v (eofOf g r (pieceTasks.map (·.1))) 0 []
        (pieceTasks.map (·.1))).2) *
        (assignTasks g r v (eofOf g r (pieceTasks.map (·.1))) 0 [] (pieceTasks.map (·.1))).1.count s := by
  have hRepeat (l : List SubPieceInfo) (n : Nat) :
      (List.replicate n l).flatten.count s = n * l.count s := by
    simp [List.count_flatten]
  unfold caclSubPieceAssignMap
  dsimp only
  rw [List.count_append, hRepeat, Nat.add_mul, Nat.one_mul]
  rfl

theorem mem_caclSubPieceAssignMap : s ∈ caclSubPieceAssignMap g r v pieceTasks ↔
    s ∈ (assignTasks g r v (eofOf g r (pieceTasks.map (·.1))) 0 [] (pieceTasks.map (·.1))).1 := by
  rw [← List.count_pos_iff, count_caclSubPieceAssignMap, ← List.count_pos_iff]
  constructor
  · exact fun h => Nat.pos_of_mul_pos_left h
  · exact fun h => Nat.mul_pos (by omega) h

end Round

section Names

theorem wants_of_wanted (hr : r.Valid) (h : TaskOf r t) {b k : Nat} (hWanted : Wanted r t b k) :
    Wants r t := by
  obtain ⟨-, i, hLo, hHi, hLe, -⟩ := (wanted_iff hr h).mp hWanted
  unfold Wants
  omega

/-- Where what is wanted has names, so has the whole piece. -/
theorem named_of_names (hr : r.Valid) (h : TaskOf r t)
    (hNames : ∀ b k, Wanted r t b k → ∃ s : SubPieceInfo, s.blockIndex = b ∧ s.subpieceIndex = k)
    (hWants : Wants r t) : Named t := by
  unfold Wants at hWants
  obtain ⟨s, hBlock, hSub⟩ := hNames _ _ ((wanted_iff hr h).mpr
    ⟨rfl, t.subpieceIndex, Nat.le_refl _, by omega, by omega, rfl⟩)
  have hBlockLt := s.blockIndex_lt
  have hSubLt := s.subpieceIndex_lt
  exact ⟨by omega, by omega⟩

theorem mem_wantedOf : s ∈ wantedOf r t ↔ ∃ i, t.subpieceIndex ≤ i ∧ i ≤ t.subpieceIndexEnd ∧
    t.pieceIndex * subpieceNumPerPiece + i < r.capacity t.blockIndex ∧
      s = SubPieceInfo.make t.blockIndex (t.pieceIndex * subpieceNumPerPiece + i) := by
  unfold wantedOf
  rw [List.mem_map]
  constructor
  · rintro ⟨i, hMem, rfl⟩
    obtain ⟨hRange, hIn⟩ := List.mem_filter.mp hMem
    rw [List.mem_range'_1] at hRange
    exact ⟨i, by omega, by omega, of_decide_eq_true hIn, rfl⟩
  · rintro ⟨i, hLo, hHi, hIn, rfl⟩
    exact ⟨i, List.mem_filter.mpr ⟨List.mem_range'_1.mpr (by omega), decide_eq_true hIn⟩, rfl⟩

theorem Named.mem_wantedOf_iff (hNamed : Named t) (h : TaskOf r t) :
    s ∈ wantedOf r t ↔ Wanted r t s.blockIndex s.subpieceIndex := by
  have hEnd := h.end_lt
  simp only [subpieceNumPerPiece] at hEnd
  rw [mem_wantedOf]
  constructor
  · rintro ⟨i, hLo, hHi, hIn, rfl⟩
    obtain ⟨hBlock, hSub⟩ := hNamed.make_eq (show i ≤ 127 by omega)
    exact ⟨hBlock, by rw [hSub]; exact hIn, i, hLo, hHi, hSub⟩
  · rintro ⟨hBlock, hIn, i, hLo, hHi, hSub⟩
    obtain ⟨hBlock', hSub'⟩ := hNamed.make_eq (show i ≤ 127 by omega)
    exact ⟨i, hLo, hHi, hSub ▸ hIn, SubPieceInfo.ext (hBlock.trans hBlock'.symm)
      (hSub.trans hSub'.symm)⟩

theorem Named.nodup_wantedOf (hNamed : Named t) (h : TaskOf r t) : (wantedOf r t).Nodup := by
  have hEnd := h.end_lt
  simp only [subpieceNumPerPiece] at hEnd
  refine List.Nodup.map_on (fun i hi j hj hEq => ?_) (List.Nodup.filter _ List.nodup_range')
  have hi := List.mem_range'_1.mp (List.mem_of_mem_filter hi)
  have hj := List.mem_range'_1.mp (List.mem_of_mem_filter hj)
  exact hNamed.make_inj (by omega) (by omega) hEq

end Names

section Tasks

variable (hr : r.Valid) (hg : g.Computes counted countedEnd)
include hr hg

theorem assignedEnd_le (h : TaskOf r t) : assignedEnd g r t ≤ 127 := by
  have hEnd := h.end_lt
  simp only [subpieceNumPerPiece] at hEnd
  rcases assignedEnd_eq hg (h.placed hr) with ⟨-, hEq, hLe⟩ | ⟨-, hEq⟩ <;> omega

theorem nodup_visited (h : TaskOf r t) (hNamed : Named t) : (visited g r t).Nodup := by
  have hEnd := assignedEnd_le hr hg h
  apply List.Nodup.map_on _ List.nodup_range'
  intro i hi j hj hEq
  rw [List.mem_range'_1] at hi hj
  exact hNamed.make_inj (by omega) (by omega) hEq

/-- The loop of a task reaches all that is wanted of it. -/
theorem visited_of_wanted (h : TaskOf r t) (hNamed : Named t)
    (hWanted : Wanted r t s.blockIndex s.subpieceIndex) : s ∈ visited g r t := by
  have hp := h.placed hr
  have hLast := hp.last_le
  have hEof := hp.last_le_eof
  obtain ⟨hBlock, i, hLo, hHi, hLe, hSub⟩ := (wanted_iff hr h).mp hWanted
  obtain ⟨hBlock', hSub'⟩ := hNamed.make_eq (show i ≤ 127 by omega)
  refine mem_subPiecesTo.mpr ⟨i, hLo, ?_, SubPieceInfo.ext (hBlock.trans hBlock'.symm)
    (hSub.trans hSub'.symm)⟩
  rcases assignedEnd_eq hg hp with ⟨-, hEnd, -⟩ | ⟨-, hEnd⟩ <;> omega

theorem visited_iff_of_apart (hTasks : ∀ task ∈ pieceTasks, TaskOf r task.1)
    (hApart : Apart g r pieceTasks) {task : PieceInfoEx × Nat} (hMem : task ∈ pieceTasks)
    (s : SubPieceInfo) :
    s ∈ visited g r task.1 ↔ Wanted r task.1 s.blockIndex s.subpieceIndex := by
  have hAll := (requested_wanted_iff hr hg (hTasks task hMem)).mpr
    ⟨hApart.named task hMem, hApart.atEof task hMem, hApart.beforeEof task hMem⟩
  rw [← hAll]
  constructor
  · exact fun hs => ⟨s, hs, rfl, rfl⟩
  · rintro ⟨other, hOther, hBlock, hSub⟩
    exact SubPieceInfo.ext hBlock hSub ▸ hOther

/-- The loop of a task visits what is wanted of it, each once. -/
theorem visited_perm_wantedOf (hTasks : ∀ task ∈ pieceTasks, TaskOf r task.1)
    (hApart : Apart g r pieceTasks) {task : PieceInfoEx × Nat} (hMem : task ∈ pieceTasks) :
    (visited g r task.1).Nodup ∧ (visited g r task.1).Perm (wantedOf r task.1) := by
  have hTask := hTasks task hMem
  have hVisited := visited_iff_of_apart hr hg hTasks hApart hMem
  by_cases hWants : Wants r task.1
  · have hNamed := hApart.named task hMem hWants
    have hNodup := nodup_visited hr hg hTask hNamed
    refine ⟨hNodup, (List.perm_ext_iff_of_nodup hNodup (hNamed.nodup_wantedOf hTask)).mpr
      fun s => ?_⟩
    rw [hVisited s, hNamed.mem_wantedOf_iff hTask]
  · have hNone : visited g r task.1 = [] := List.eq_nil_iff_forall_not_mem.mpr fun s hs =>
      hWants (wants_of_wanted hr hTask ((hVisited s).mp hs))
    have hNone' : wantedOf r task.1 = [] := List.eq_nil_iff_forall_not_mem.mpr fun s hs => by
      obtain ⟨i, hLo, hHi, hIn, -⟩ := mem_wantedOf.mp hs
      exact hWants (wants_of_wanted hr hTask ⟨rfl, hIn, i, hLo, hHi, rfl⟩)
    rw [hNone, hNone']
    exact ⟨List.nodup_nil, List.Perm.nil⟩

omit hg in
/-- Tasks that want one subpiece are the same task. -/
theorem eq_of_wanted (hTasks : ∀ task ∈ pieceTasks, TaskOf r task.1) (hApart : Apart g r pieceTasks)
    {task other : PieceInfoEx × Nat} (hMem : task ∈ pieceTasks) (hOther : other ∈ pieceTasks)
    {b k : Nat} (hWanted : Wanted r task.1 b k) (hWanted' : Wanted r other.1 b k) :
    task.1 = other.1 := by
  by_contra hNe
  have hLast := ((hTasks task hMem).placed hr).last_le
  have hLast' := ((hTasks other hOther).placed hr).last_le
  obtain ⟨hBlock, i, hLo, hHi, hLe, hSub⟩ := (wanted_iff hr (hTasks task hMem)).mp hWanted
  obtain ⟨hBlock', j, hLo', hHi', hLe', hSub'⟩ := (wanted_iff hr (hTasks other hOther)).mp hWanted'
  have hSame : task.1.pieceIndex = other.1.pieceIndex ∧ i = j := by
    simp only [subpieceNumPerPiece] at hSub hSub'
    omega
  have hPiece : task.1.getPieceInfo = other.1.getPieceInfo := by
    rw [PieceInfoEx.getPieceInfo, PieceInfoEx.getPieceInfo, hSame.1, ← hBlock, ← hBlock']
  have hLt := hApart.apart task hMem other hOther hNe hPiece
  omega

/-- Apart tasks count at least what is wanted of them, missing and not requested. -/
theorem freshOf_le (hKey : g.Distinguishes) (hTasks : ∀ task ∈ pieceTasks, TaskOf r task.1)
    (hApart : Apart g r pieceTasks) (v : AssignerView) (eofFile : Bool) : freshOf r v pieceTasks ≤
      (assignTasks g r v eofFile 0 [] (pieceTasks.map (·.1))).2 := by
  refine length_le_count hKey ((List.nodup_dedup _).filter _) fun s hs => ?_
  obtain ⟨hMem, hFresh⟩ := List.mem_filter.mp hs
  obtain ⟨task, hTask, hIn⟩ := List.mem_flatMap.mp (List.mem_dedup.mp hMem)
  simp only [Bool.and_eq_true, Bool.not_eq_true'] at hFresh
  exact ⟨hFresh.1, hFresh.2, task.1, List.mem_map_of_mem hTask, List.not_mem_nil,
    (visited_perm_wantedOf hr hg hTasks hApart hTask).2.mem_iff.mpr hIn⟩

omit hr hg in
/-- The fewer there are, the more often they are repeated. -/
theorem repeats_anti {few more : Nat} (h : few ≤ more) : repeats more ≤ repeats few := by
  unfold repeats
  split_ifs <;> omega

theorem AssignExact.of_apart (hKey : g.Distinguishes) (hTasks : ∀ task ∈ pieceTasks, TaskOf r task.1)
    (hApart : Apart g r pieceTasks) (v : AssignerView) : AssignExact g r v pieceTasks := by
  have hVisited (task : PieceInfoEx × Nat) (hMem : task ∈ pieceTasks) (s : SubPieceInfo) :
      s ∈ visited g r task.1 ↔ Wanted r task.1 s.blockIndex s.subpieceIndex :=
    visited_iff_of_apart hr hg hTasks hApart hMem s
  constructor
  · intro s hs
    obtain ⟨t, ht, -, hIn, hMissing⟩ := mem_assignTasks hKey (mem_caclSubPieceAssignMap.mp hs)
    obtain ⟨task, hMem, rfl⟩ := List.mem_map.mp ht
    exact ⟨hMissing, task, hMem, (hVisited task hMem s).mp hIn⟩
  · intro task hMem b k hWanted
    obtain ⟨s, hs, hBlock, hSub⟩ := ((requested_wanted_iff hr hg (hTasks task hMem)).mpr
      ⟨hApart.named task hMem, hApart.atEof task hMem, hApart.beforeEof task hMem⟩ b k).mpr hWanted
    exact ⟨s, hBlock, hSub, fun hMissing hFree => mem_caclSubPieceAssignMap.mpr
      (mem_assignTasks_of_free hKey (List.mem_map_of_mem hMem) List.not_mem_nil hs hMissing hFree)⟩
  · intro s hs
    obtain ⟨i, t, hGet, hIn, hCount⟩ := count_assignTasks hKey
      (fun t ht => by
        obtain ⟨task, hMem, rfl⟩ := List.mem_map.mp ht
        exact (visited_perm_wantedOf hr hg hTasks hApart hMem).1)
      (fun t ht t' ht' hs hs' => by
        obtain ⟨task, hMem, rfl⟩ := List.mem_map.mp ht
        obtain ⟨other, hOther, rfl⟩ := List.mem_map.mp ht'
        exact eq_of_wanted hr hTasks hApart hMem hOther ((hVisited task hMem _).mp hs)
          ((hVisited other hOther _).mp hs'))
      (mem_caclSubPieceAssignMap.mp hs)
    rw [List.getElem?_map] at hGet
    obtain ⟨task, hTask, rfl⟩ := Option.map_eq_some_iff.mp hGet
    have hMem := List.mem_of_getElem? hTask
    refine ⟨i, task, hTask, (hVisited task hMem s).mp hIn, ?_⟩
    have hNeed : ((visited g r task.1).filter fun s => !v.hasSubPiece s).length =
        missingOf r v task.1 := by
      rw [← List.countP_eq_length_filter, missingOf]
      exact (visited_perm_wantedOf hr hg hTasks hApart hMem).2.countP_eq _
    rw [count_caclSubPieceAssignMap, hCount, Nat.zero_add, timesFor, hNeed]
    refine Nat.mul_le_mul ?_ (Nat.add_le_add_left (length_redundant_le ..) _)
    exact Nat.add_le_add_left (repeats_anti (freshOf_le hr hg hKey hTasks hApart v _)) 1

omit hr hg in
/-- A subpiece that is the only missing one is asked for at most five times because of one
task. -/
theorem allowed_of_other {v : AssignerView} (hMode : v.mode = .other)
    (hFree : v.isRequesting s = false) : allowed r v pieceTasks index t s ≤ 5 := by
  have hRepeats : ∀ n, repeats n ≤ 4 := fun n => by
    unfold repeats
    split_ifs <;> omega
  have hFew := hRepeats (freshOf r v pieceTasks)
  simp only [allowed, allowedExtra, hMode, hFree, Bool.false_eq_true, if_false]
  omega

/-- When nothing is held, whatever the loops visit is asked for, so they must keep to the
wanted subpieces; and when a single subpiece is missing, two tasks for it are too many. -/
theorem Apart.of_assignExact (hKey : g.Distinguishes)
    (hTasks : ∀ task ∈ pieceTasks, TaskOf r task.1)
    (hExact : ∀ v, AssignExact g r v pieceTasks) : Apart g r pieceTasks := by
  let only (holds : SubPieceInfo → Bool) : AssignerView :=
    ⟨.default, .other, holds, fun _ => false, fun _ _ => false, fun _ => 0⟩
  let nothing : AssignerView := only fun _ => false
  have hAsked {task : PieceInfoEx × Nat} (hMem : task ∈ pieceTasks) {s : SubPieceInfo}
      (hs : s ∈ visited g r task.1) : s ∈ caclSubPieceAssignMap g r nothing pieceTasks :=
    mem_caclSubPieceAssignMap.mpr (mem_assignTasks_of_free hKey (List.mem_map_of_mem hMem)
      List.not_mem_nil hs rfl rfl)
  have hOnce {task other : PieceInfoEx × Nat} (hMem : task ∈ pieceTasks) (hOther : other ∈ pieceTasks)
      {s : SubPieceInfo} (hs : s ∈ visited g r task.1) (hs' : s ∈ visited g r other.1) :
      task.1 = other.1 := by
    by_contra hNe
    let v : AssignerView := only fun x => x != s
    have hMissing : v.hasSubPiece s = false := by simp [v, only]
    obtain ⟨round, hRound⟩ : ∃ round, round = assignTasks g r v
      (eofOf g r (pieceTasks.map (·.1))) 0 [] (pieceTasks.map (·.1)) := ⟨_, rfl⟩
    have hTwo : 2 ≤ round.1.count s := hRound ▸ two_le_count hKey hNe (List.mem_map_of_mem hMem)
      (List.mem_map_of_mem hOther) List.not_mem_nil List.not_mem_nil hs hs' hMissing rfl
    -- Only one subpiece is asked for, so that there are as many requests as copies of it.
    have hAll : round.1.count s = round.1.length := by
      refine List.count_eq_length.mpr fun x hx => ?_
      obtain ⟨-, -, -, -, hOnly⟩ := mem_assignTasks hKey (hRound ▸ hx)
      have hSame : x = s := by simpa [v, only] using hOnly
      exact hSame.symm
    have hCount : round.2 ≤ round.1.length := hRound ▸ count_le_length hKey
    have hIn : s ∈ caclSubPieceAssignMap g r v pieceTasks :=
      mem_caclSubPieceAssignMap.mpr (hRound ▸ List.count_pos_iff.mp (by omega))
    obtain ⟨index, t, -, -, hLe⟩ := (hExact v).bounded s hIn
    have hFive := hLe.trans (allowed_of_other rfl rfl)
    rw [count_caclSubPieceAssignMap, ← hRound] at hFive
    by_cases hFew : round.2 < 32
    · rw [show repeats round.2 = 4 from if_pos hFew] at hFive
      omega
    · have hMany := Nat.mul_le_mul_right (round.1.count s) (Nat.le_add_right 1 (repeats round.2))
      omega
  have hNamed {task : PieceInfoEx × Nat} (hMem : task ∈ pieceTasks) :
      Wants r task.1 → Named task.1 :=
    named_of_names hr (hTasks task hMem) fun b k hWanted => by
      obtain ⟨s, hBlock, hSub, -⟩ := (hExact nothing).complete task hMem b k hWanted
      exact ⟨s, hBlock, hSub⟩
  have hReached {task : PieceInfoEx × Nat} (hMem : task ∈ pieceTasks) {s : SubPieceInfo}
      (hs : Wanted r task.1 s.blockIndex s.subpieceIndex) : s ∈ visited g r task.1 :=
    visited_of_wanted hr hg (hTasks task hMem)
      (hNamed hMem (wants_of_wanted hr (hTasks task hMem) hs)) hs
  have hVisited {task : PieceInfoEx × Nat} (hMem : task ∈ pieceTasks) {s : SubPieceInfo}
      (hs : s ∈ visited g r task.1) : Wanted r task.1 s.blockIndex s.subpieceIndex := by
    obtain ⟨-, other, hOther, hWanted⟩ := (hExact nothing).sound s (hAsked hMem hs)
    rw [hOnce hMem hOther hs (hReached hOther hWanted)]
    exact hWanted
  have hEnds {task : PieceInfoEx × Nat} (hMem : task ∈ pieceTasks) :=
    (requested_wanted_iff hr hg (hTasks task hMem)).mp fun b k => by
      constructor
      · rintro ⟨s, hs, rfl, rfl⟩
        exact hVisited hMem hs
      · intro hWanted
        obtain ⟨s, rfl, rfl, -⟩ := (hExact nothing).complete task hMem b k hWanted
        exact ⟨s, hReached hMem hWanted, rfl, rfl⟩
  refine ⟨fun task hMem => hNamed hMem, fun task hMem => (hEnds hMem).2.1,
    fun task hMem => (hEnds hMem).2.2, ?_⟩
  intro task hMem other hOther hNe hPiece
  by_contra hGe
  have hPlaced := (hTasks task hMem).placed hr
  have hLast := hPlaced.last_le
  -- The later of the two starts is common to both tasks.
  let i := max task.1.subpieceIndex other.1.subpieceIndex
  have hIn : task.1.pieceIndex * subpieceNumPerPiece + i < r.capacity task.1.blockIndex :=
    (hPlaced.inside_iff i (by omega)).mpr (by omega)
  obtain ⟨hBlock, hIndex⟩ := PieceInfo.mk.inj hPiece
  have hs : Wanted r task.1 task.1.blockIndex (task.1.pieceIndex * subpieceNumPerPiece + i) :=
    ⟨rfl, hIn, i, by omega, by omega, rfl⟩
  have hs' : Wanted r other.1 task.1.blockIndex (task.1.pieceIndex * subpieceNumPerPiece + i) :=
    ⟨hBlock, hBlock ▸ hIn, i, by omega, by omega, by rw [hIndex]⟩
  obtain ⟨s, hName, hSub, -⟩ := (hExact nothing).complete task hMem _ _ hs
  rw [← hName, ← hSub] at hs hs'
  exact hNe (hOnce hMem hOther (hReached hMem hs) (hReached hOther hs'))

/-- The assigner asks for what is wanted, all of it and not too often, whatever is held and
requested, exactly when what is wanted has names, the loops end with the tasks and the tasks
are apart. -/
theorem assignExact_iff (hKey : g.Distinguishes)
    (hTasks : ∀ task ∈ pieceTasks, TaskOf r task.1) :
    (∀ v, AssignExact g r v pieceTasks) ↔ Apart g r pieceTasks :=
  ⟨Apart.of_assignExact hr hg hKey hTasks, fun hApart v => .of_apart hr hg hKey hTasks hApart v⟩

end Tasks

section Instances

theorem protocolPieces_distinguishes (counted countedEnd : Bool) :
    (protocolPieces counted countedEnd).Distinguishes :=
  fun t t' => by simp [protocolPieces]

/-- Nothing is there and nothing is requested. -/
def freshView : AssignerView where
  configs := .default
  mode := .normal
  hasSubPiece _ := false
  isRequesting _ := false
  isRequestingTimeout _ _ := false
  getRequestingCount _ := 0

/-- The rest of a piece, and the next piece. -/
theorem assignExact_of_twoPieces : AssignExact (protocolPieces true false)
    oneBlock freshView [(⟨0, 3, 5, 127⟩, 0), (⟨0, 4, 0, 127⟩, 0)] := by
  have hTasks : ∀ task ∈ [((⟨0, 3, 5, 127⟩ : PieceInfoEx), 0), (⟨0, 4, 0, 127⟩, 0)],
      TaskOf oneBlock task.1 := by
    intro task hMem
    simp only [List.mem_cons, List.not_mem_nil, or_false] at hMem
    rcases hMem with rfl | rfl <;> exact ⟨by decide, by decide, by decide, by decide⟩
  exact (assignExact_iff oneBlock_addressable.toValid (protocolPieces_computes true false)
    (protocolPieces_distinguishes true false) hTasks).mpr
    ⟨by decide +kernel, by decide +kernel, by decide +kernel, by decide +kernel⟩ freshView

/-- Two drivers with a task for one piece, of which one begins later. -/
def commonPiece : List (PieceInfoEx × Nat) := [(⟨0, 0, 0, 127⟩, 0), (⟨0, 0, 5, 127⟩, 1)]

/-- What the two tasks have in common is asked for twice. -/
theorem assignExact_fails :
    ¬ AssignExact (protocolPieces true false) oneBlock freshView commonPiece := by
  intro h
  have hIn : SubPieceInfo.make 0 5 ∈
      caclSubPieceAssignMap (protocolPieces true false) oneBlock freshView commonPiece := by
    decide +kernel
  obtain ⟨index, task, hGet, -, hLe⟩ := h.bounded _ hIn
  have hOver : ∀ i < 2, ∀ task ∈ commonPiece[i]?,
      allowed oneBlock freshView commonPiece i task.1 (.make 0 5) <
      (caclSubPieceAssignMap (protocolPieces true false) oneBlock freshView commonPiece).count
        (.make 0 5) := by
    decide +kernel
  have hIndex : index < 2 := (List.getElem?_eq_some_iff.mp hGet).1
  exact absurd hLe (Nat.not_le.mpr (hOver index hIndex task hGet))

end Instances

end P2P
