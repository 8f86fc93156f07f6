import Peer.P2P.VodRequests

/-! The window of a VOD connection and its tasks. What requesting does to the tasks and to
the counter is said once; answers, timeouts and timers build on it. -/
namespace P2P

open Basis Storage

namespace P2PDownloader

variable {env : Surroundings} {s t u : P2PDownloader} {c : Nat}

/-- The live tasks of a connection. -/
def liveCount (c : Nat) (tasks : List VodRequest) : Nat :=
  tasks.countP fun entry => entry.2.peerConnection = c ∧ entry.2.dead = false

/-- The tasks are distinct and have been allocated. -/
structure Distinct (s : P2PDownloader) : Prop where
  nodup : (s.requestTasks.map fun entry => entry.2.id).Nodup
  id_lt : ∀ entry ∈ s.requestTasks, entry.2.id < s.allocated

/-- From `s` to `t`, `n` live tasks of connection `c` were added. -/
structure Adds (c n : Nat) (s t : P2PDownloader) : Prop where
  live_eq : ∀ x, liveCount x t.requestTasks =
    liveCount x s.requestTasks + if x = c then n else 0
  kept : ∀ entry ∈ s.requestTasks, entry ∈ t.requestTasks
  owner : ∀ entry ∈ t.requestTasks, entry ∈ s.requestTasks ∨ entry.2.peerConnection = c
  distinct : Distinct s → Distinct t
  created_eq : t.created = s.created

section Adding

theorem Adds.refl (c : Nat) (s : P2PDownloader) : Adds c 0 s s :=
  ⟨fun x => by simp, fun _ => id, fun _ => Or.inl, id, rfl⟩

theorem Adds.trans {m n : Nat} (left : Adds c m s t) (right : Adds c n t u) :
    Adds c (m + n) s u := by
  refine ⟨fun x => ?_, fun entry hMem => right.kept entry (left.kept entry hMem),
    fun entry hMem => ?_, fun h => right.distinct (left.distinct h),
    right.created_eq.trans left.created_eq⟩
  · rw [right.live_eq x, left.live_eq x]
    split <;> omega
  · obtain hOld | hNew := right.owner entry hMem
    · exact left.owner entry hOld
    · exact Or.inr hNew

/-- One task, wherever the multimap puts it. -/
theorem add_adds (s : P2PDownloader) (info : SubPieceInfo) (timeout c : Nat) :
    Adds c 1 s (s.add info timeout c) := by
  have hPerm : (s.add info timeout c).requestTasks.Perm
      ((info, ⟨s.allocated, timeout, c, 0, false⟩) :: s.requestTasks) :=
    List.perm_orderedInsert _ _ _
  refine ⟨fun x => ?_, fun entry hMem => ?_, fun entry hMem => ?_, fun h => ⟨?_, ?_⟩, rfl⟩
  · rw [liveCount, hPerm.countP_eq, List.countP_cons, liveCount]
    by_cases hx : c = x
    · simp [hx]
    · simp [hx, Ne.symm hx]
  · exact hPerm.mem_iff.mpr (List.mem_cons_of_mem _ hMem)
  · obtain rfl | hOld := List.mem_cons.mp (hPerm.mem_iff.mp hMem)
    · exact Or.inr rfl
    · exact Or.inl hOld
  · rw [(hPerm.map _).nodup_iff, List.map_cons, List.nodup_cons]
    refine ⟨fun hOld => ?_, h.nodup⟩
    obtain ⟨entry, hMem, hId⟩ := List.mem_map.mp hOld
    exact absurd hId (Nat.ne_of_lt (h.id_lt entry hMem))
  · intro entry hMem
    show entry.2.id < s.allocated + 1
    obtain rfl | hOld := List.mem_cons.mp (hPerm.mem_iff.mp hMem)
    · exact Nat.lt_succ_self _
    · exact Nat.lt_succ_of_lt (h.id_lt entry hOld)

theorem addAll_adds (subpieces : List SubPieceInfo) (s : P2PDownloader) (c : Nat) :
    let t := subpieces.foldl (fun s info => s.add info (env.timeouts s.allocated) c) s
    Adds c subpieces.length s t ∧ t.connections = s.connections := by
  induction subpieces generalizing s with
  | nil => exact ⟨.refl c s, rfl⟩
  | cons info rest ih =>
      obtain ⟨hAdds, hSame⟩ := ih (s.add info (env.timeouts s.allocated) c)
      refine ⟨?_, hSame⟩
      rw [List.length_cons, Nat.add_comm]
      exact (add_adds s info _ c).trans hAdds

end Adding

/-- The requests of connection `c`, of which `delta` are not counted. -/
structure Requests (c delta : Nat) (s t : P2PDownloader) : Prop where
  others : ∀ x, x ≠ c → t.connections x = s.connections x
  isRunning_eq : (t.connections c).isRunning = (s.connections c).isRunning
  peerVersion_eq : (t.connections c).peerVersion = (s.connections c).peerVersion
  windowSize_eq : (t.connections c).windowSize = (s.connections c).windowSize
  currDeltaSize_eq : (t.connections c).currDeltaSize = (s.connections c).currDeltaSize
  settledAtZero_eq : (t.connections c).settledAtZero = (s.connections c).settledAtZero
  deltaTaken_eq : (t.connections c).deltaTaken = (s.connections c).deltaTaken + delta
  adds : ∃ n, Adds c n s t ∧
    (t.connections c).requestingCount + delta = (s.connections c).requestingCount + n

section Requesting

theorem Requests.refl (c : Nat) (s : P2PDownloader) : Requests c 0 s s :=
  ⟨fun _ _ => rfl, rfl, rfl, rfl, rfl, rfl, rfl, 0, .refl c s, rfl⟩

theorem Requests.trans {d e : Nat} (left : Requests c d s t) (right : Requests c e t u) :
    Requests c (d + e) s u := by
  obtain ⟨m, hLeft, hLeftCount⟩ := left.adds
  obtain ⟨n, hRight, hRightCount⟩ := right.adds
  refine ⟨fun x hx => (right.others x hx).trans (left.others x hx),
    right.isRunning_eq.trans left.isRunning_eq, right.peerVersion_eq.trans left.peerVersion_eq,
    right.windowSize_eq.trans left.windowSize_eq,
    right.currDeltaSize_eq.trans left.currDeltaSize_eq,
    right.settledAtZero_eq.trans left.settledAtZero_eq, ?_, m + n, hLeft.trans hRight, ?_⟩
  · rw [right.deltaTaken_eq, left.deltaTaken_eq, Nat.add_assoc]
  · omega

/-- Requested packets leave: the version asks for one subpiece a packet, or its packets do. -/
def Sends (env : Surroundings) (conn : PeerConnection) : Prop :=
  conn.peerVersion < 0x101 ∨ conn.sends env = true

theorem PeerConnection.sends_congr {conn conn' : PeerConnection}
    (h : conn'.peerVersion = conn.peerVersion) : conn'.sends env = conn.sends env := by
  simp only [PeerConnection.sends, h]

/-- A connection assigned to, seen from the connections. -/
theorem setConnection_self (conn : PeerConnection) :
    (s.setConnection c conn).connections c = conn := by
  simp [setConnection]

theorem setConnection_other {x : Nat} (hx : x ≠ c) (conn : PeerConnection) :
    (s.setConnection c conn).connections x = s.connections x := by
  simp [setConnection, hx]

/-- Assign a queue only. -/
theorem setQueue_requests (s : P2PDownloader) (c : Nat) (queue : List SubPieceInfo) :
    Requests c 0 s (s.setConnection c { s.connections c with taskQueue := queue }) := by
  refine ⟨fun x hx => setConnection_other hx _, ?_, ?_, ?_, ?_, ?_, ?_, 0,
    ⟨fun x => by simp [setConnection], fun _ => id, fun _ => Or.inl, fun h => ⟨h.1, h.2⟩, rfl⟩, ?_⟩
  all_goals simp [setConnection_self]

/-- Some tasks are added and counted. -/
theorem counted_requests {n : Nat} (hAdds : Adds c n s t) (hSame : t.connections = s.connections)
    (hFits : (s.connections c).requestingCount + n < 2 ^ 32) :
    Requests c 0 s (t.setConnection c { t.connections c with
      requestingCount := u32 ((t.connections c).requestingCount + n) }) := by
  rw [hSame, u32_of_lt hFits]
  refine ⟨fun x hx => ?_, ?_, ?_, ?_, ?_, ?_, ?_, n,
    ⟨hAdds.live_eq, hAdds.kept, hAdds.owner, fun h => ⟨(hAdds.distinct h).1, (hAdds.distinct h).2⟩,
      hAdds.created_eq⟩, ?_⟩
  · rw [setConnection_other hx, hSame]
  all_goals simp [setConnection_self]

/-- `RequestSubPieces` of a version whose packets leave. -/
theorem requestSubPieces_requests (s : P2PDownloader) {c subpieceCount : Nat} (needCheck : Bool)
    (hSends : (s.connections c).sends env = true)
    (hFits : (s.connections c).requestingCount + subpieceCount < 2 ^ 32) :
    Requests c 0 s (s.requestSubPieces env c subpieceCount needCheck) ∧
      ((s.requestSubPieces env c subpieceCount needCheck).connections c).requestingCount ≤
        (s.connections c).requestingCount + subpieceCount := by
  unfold requestSubPieces
  dsimp only
  split
  · exact ⟨.refl c s, Nat.le_add_right _ _⟩
  have hQueue := setQueue_requests s c ((s.connections c).taskQueue.drop subpieceCount)
  generalize hTaken : s.setConnection c { s.connections c with
    taskQueue := (s.connections c).taskQueue.drop subpieceCount } = taken at hQueue ⊢
  have hSame : (taken.connections c).requestingCount = (s.connections c).requestingCount := by
    rw [← hTaken, setConnection_self]
  generalize hPieces : ((s.connections c).taskQueue.take subpieceCount).filter
    (fun info => !needCheck || !env.hasSubPiece info) = subpieces
  have hLength : subpieces.length ≤ subpieceCount := by
    rw [← hPieces]
    exact (List.length_filter_le _ _).trans (List.length_take_le _ _)
  split
  · exact ⟨hQueue, hSame ▸ Nat.le_add_right _ _⟩
  obtain ⟨hAdds, hConns⟩ := addAll_adds subpieces taken c
  unfold sendPacket
  rw [PeerConnection.sends_congr hQueue.peerVersion_eq, if_pos hSends]
  have hSmall : (taken.connections c).requestingCount + subpieces.length < 2 ^ 32 := by omega
  refine ⟨hQueue.trans (counted_requests hAdds hConns hSmall), ?_⟩
  rw [setConnection_self, hConns, u32_of_lt hSmall]
  show (taken.connections c).requestingCount + subpieces.length ≤ _
  omega

/-- `RequestSubPiece`, which counts only what it sends. -/
theorem requestSubPiece_requests (s : P2PDownloader) {c : Nat} (info : SubPieceInfo)
    (needCheck : Bool) (hFits : (s.connections c).requestingCount + 1 < 2 ^ 32) :
    Requests c 0 s (s.requestSubPiece env c info needCheck) ∧
      ((s.requestSubPiece env c info needCheck).connections c).requestingCount ≤
        (s.connections c).requestingCount + 1 := by
  unfold requestSubPiece
  dsimp only
  split
  · exact ⟨.refl c s, Nat.le_succ _⟩
  split
  · exact ⟨.refl c s, Nat.le_succ _⟩
  have hAdds := add_adds s info (env.timeouts s.allocated) c
  refine ⟨counted_requests (t := s.add info (env.timeouts s.allocated) c) hAdds rfl hFits, ?_⟩
  show ((s.setConnection c _).connections c).requestingCount ≤ _
  rw [setConnection_self, u32_of_lt hFits]

/-- The loop asks for no more than the window. -/
theorem requestLoop_requests (c : Nat) (needCheck : Bool) (rounds : Nat) (s : P2PDownloader)
    (hSends : Sends env (s.connections c))
    (hSmall : max (s.connections c).windowSize (s.connections c).requestingCount < 2 ^ 31) :
    Requests c 0 s (requestLoop env c needCheck rounds s) ∧
      ((requestLoop env c needCheck rounds s).connections c).requestingCount ≤
        max (s.connections c).windowSize (s.connections c).requestingCount := by
  induction rounds generalizing s with
  | zero => exact ⟨.refl c s, Nat.le_max_right _ _⟩
  | succ rounds ih =>
      have hDone : Requests c 0 s s ∧ (s.connections c).requestingCount ≤
          max (s.connections c).windowSize (s.connections c).requestingCount :=
        ⟨.refl c s, Nat.le_max_right _ _⟩
      unfold requestLoop
      dsimp only
      split
      case isFalse => exact hDone
      rename_i hLess
      split
      · exact hDone
      rename_i info rest hQueue
      -- one round stays within the window, so that the next one starts within it
      have hRound : ∀ t, Requests c 0 s t ∧ (t.connections c).requestingCount ≤
          (s.connections c).windowSize → Requests c 0 s (requestLoop env c needCheck rounds t) ∧
          ((requestLoop env c needCheck rounds t).connections c).requestingCount ≤
            max (s.connections c).windowSize (s.connections c).requestingCount := by
        intro t ⟨hReq, hLe⟩
        have hWindow := hReq.windowSize_eq
        obtain ⟨hRest, hBound⟩ := ih t
          (by rwa [Sends, hReq.peerVersion_eq, PeerConnection.sends_congr hReq.peerVersion_eq])
          (by omega)
        exact ⟨hReq.trans hRest, by omega⟩
      apply hRound
      split
      · rename_i hVersion
        obtain hOld | hNew := hSends
        · omega
        generalize hRemaining : (s.connections c).windowSize - (s.connections c).requestingCount =
          remaining
        generalize hCount : (if p2pDownloadMultiSubpiecesCount ≤ remaining then
          p2pDownloadMultiSubpiecesCount else remaining) = count
        have hLe : count ≤ remaining := by
          rw [← hCount]
          split <;> omega
        obtain ⟨hReq, hBound⟩ := requestSubPieces_requests s needCheck hNew
          (show (s.connections c).requestingCount + count < 2 ^ 32 by omega)
        exact ⟨hReq, by omega⟩
      · obtain ⟨hReq, hLe⟩ := requestSubPiece_requests s info needCheck
          (c := c) (by omega)
        refine ⟨hReq.trans (setQueue_requests _ c _), ?_⟩
        rw [popFront, setConnection_self]
        show ((s.requestSubPiece env c info needCheck).connections c).requestingCount ≤ _
        omega

end Requesting

/-- A running connection with `live` live tasks, of which `owed` have been settled in the
counter already. What `RequestTillFullWindow` took off is not counted, unless it was made
up for by settling a task with the counter at zero. -/
structure Connected (live owed : Nat) (conn : PeerConnection) : Prop where
  live_eq : live + conn.settledAtZero = conn.requestingCount + owed + conn.deltaTaken
  settledAtZero_le : conn.settledAtZero ≤ conn.deltaTaken
  requestingCount_le : conn.requestingCount ≤ peerConnectionMaxWindowSize
  le_windowSize : peerConnectionMinWindowSize ≤ conn.windowSize
  windowSize_le : conn.windowSize ≤ peerConnectionMaxWindowSize
  currDeltaSize_le : conn.currDeltaSize ≤ peerConnectionMinDeltaSize + 2

section Window

variable {live owed : Nat}

/-- Assign to the window around the loop. -/
theorem setWindow_requests {windowSize : Nat} {delta : Nat} {w : P2PDownloader}
    (h : Requests c 0 (s.setConnection c { s.connections c with windowSize := windowSize }) w)
    {conn : PeerConnection}
    (hConn : conn = { w.connections c with
      windowSize := (s.connections c).windowSize
      requestingCount := (w.connections c).requestingCount - delta
      deltaTaken := (w.connections c).deltaTaken + delta })
    (hDelta : delta ≤ (w.connections c).requestingCount) :
    Requests c delta s (w.setConnection c conn) := by
  obtain ⟨n, hAdds, hCount⟩ := h.adds
  have hRunning := h.isRunning_eq
  have hVersion := h.peerVersion_eq
  have hCurr := h.currDeltaSize_eq
  have hZero := h.settledAtZero_eq
  have hTaken := h.deltaTaken_eq
  rw [setConnection_self] at hCount hRunning hVersion hCurr hZero hTaken
  subst hConn
  refine ⟨fun x hx => ?_, ?_, ?_, ?_, ?_, ?_, ?_, n,
    ⟨hAdds.live_eq, hAdds.kept, hAdds.owner,
      fun hOld => ⟨(hAdds.distinct ⟨hOld.1, hOld.2⟩).1, (hAdds.distinct ⟨hOld.1, hOld.2⟩).2⟩,
      hAdds.created_eq⟩, ?_⟩
  · rw [setConnection_other hx, h.others x hx, setConnection_other hx]
  all_goals rw [setConnection_self]
  · exact hRunning
  · exact hVersion
  · exact hCurr
  · exact hZero
  · show (w.connections c).deltaTaken + delta = _
    rw [hTaken]
    rfl
  · show (w.connections c).requestingCount - delta + delta = _
    have hSame : (w.connections c).requestingCount + 0 = (s.connections c).requestingCount + n :=
      hCount
    omega

/-- `RequestTillFullWindow` of a connection that runs. Where the window is widened by a
delta, the counter is at most the widened window, and the delta comes off both. -/
theorem requestTillFullWindow_requests (h : Connected live owed (s.connections c))
    (hRunning : (s.connections c).isRunning = true) (hSends : Sends env (s.connections c))
    (needCheck : Bool) :
    ∃ delta, Requests c delta s (s.requestTillFullWindow env c needCheck) ∧
      ((s.requestTillFullWindow env c needCheck).connections c).requestingCount ≤
        max (s.connections c).windowSize (s.connections c).requestingCount := by
  have hLow := h.le_windowSize
  have hHigh := h.windowSize_le
  have hRequesting := h.requestingCount_le
  have hCurr := h.currDeltaSize_le
  simp only [peerConnectionMinWindowSize, peerConnectionMaxWindowSize,
    peerConnectionMinDeltaSize] at hLow hHigh hRequesting hCurr
  unfold requestTillFullWindow
  dsimp only
  rw [if_neg (by simp [hRunning])]
  generalize hConn : s.connections c = conn at hLow hHigh hRequesting hCurr hSends ⊢
  generalize hDelta : (if (!needCheck && decide (subU32 conn.windowSize conn.requestingCount <
    conn.currDeltaSize)) = true then subU32 (u32 (conn.currDeltaSize + conn.requestingCount))
      conn.windowSize else 0) = delta
  -- the window less the counter wraps when the counter is larger, and then there is no delta
  have hTaken : delta = 0 ∨
      delta ≤ 4 ∧ conn.requestingCount ≤ conn.windowSize ∧ delta ≤ conn.requestingCount := by
    rw [← hDelta]
    split
    case isFalse => exact Or.inl rfl
    rename_i hNarrow
    simp only [Bool.and_eq_true, decide_eq_true_eq] at hNarrow
    have hLess := hNarrow.2
    by_cases hLe : conn.requestingCount ≤ conn.windowSize
    · rw [subU32_of_le (by omega) hLe] at hLess
      rw [u32_of_lt (by omega), subU32_of_le (by omega) (by omega)]
      exact Or.inr (by omega)
    · unfold subU32 u32 at hLess
      omega
  rw [u32_of_lt (by omega)]
  generalize hWide : s.setConnection c { conn with windowSize := conn.windowSize + delta } = wide
  have hWideConn : wide.connections c = { conn with windowSize := conn.windowSize + delta } := by
    rw [← hWide, setConnection_self]
  obtain ⟨hReq, hLe⟩ := requestLoop_requests c needCheck conn.taskQueue.length wide
    (by rw [hWideConn]; exact hSends) (by rw [hWideConn]; dsimp only; omega)
  generalize requestLoop env c needCheck conn.taskQueue.length wide = w at hReq hLe ⊢
  obtain ⟨n, -, hCount⟩ := hReq.adds
  have hWindow := hReq.windowSize_eq
  rw [hWideConn] at hLe hCount hWindow
  dsimp only at hLe hCount hWindow
  rw [← hWide] at hReq
  subst hConn
  refine ⟨delta, ?_⟩
  split
  · have hOff : subU32 (w.connections c).requestingCount delta =
        (w.connections c).requestingCount - delta := subU32_of_le (by omega) (by omega)
    refine ⟨setWindow_requests hReq ?_ (by omega), ?_⟩
    · rw [hOff, hWindow, subU32_of_le (by omega) (by omega), Nat.add_sub_cancel]
    · rw [setConnection_self, hOff]
      dsimp only
      omega
  · obtain rfl : delta = 0 := by omega
    refine ⟨?_, hLe⟩
    have hConn : w.connections c = { w.connections c with
        windowSize := (s.connections c).windowSize
        requestingCount := (w.connections c).requestingCount - 0
        deltaTaken := (w.connections c).deltaTaken + 0 } := by
      rw [← Nat.add_zero (s.connections c).windowSize, ← hWindow]
      rfl
    have hSame := setWindow_requests hReq hConn (Nat.zero_le _)
    rwa [setConnection, Function.update_eq_self] at hSame

end Window

/-- Every running connection is `Connected`, and no task belongs to one not created. -/
structure Accounted (owed : Nat → Nat) (s : P2PDownloader) : Prop where
  distinct : Distinct s
  connected : ∀ c, (s.connections c).isRunning = true →
    Connected (liveCount c s.requestTasks) (owed c) (s.connections c)
  uncreated : ∀ c, s.created ≤ c → (s.connections c).isRunning = false ∧
    ∀ entry ∈ s.requestTasks, entry.2.peerConnection ≠ c

/-- What holds within a step: the accounts, and bounds in terms of the state before it. -/
structure Held (env : Surroundings) (owed : Nat → Nat) (before s : P2PDownloader) : Prop where
  accounted : Accounted owed s
  sends : ∀ c, (s.connections c).isRunning = true → Sends env (s.connections c)
  windowSize_eq : ∀ c, (s.connections c).windowSize = (before.connections c).windowSize
  requestingCount_le : ∀ c, (s.connections c).requestingCount ≤
    max (before.connections c).windowSize (before.connections c).requestingCount

/-- Nothing the accounts read differs, but that the connection may have stopped. -/
structure SameWindow (conn conn' : PeerConnection) : Prop where
  isRunning_of : conn'.isRunning = true → conn.isRunning = true
  peerVersion_eq : conn'.peerVersion = conn.peerVersion
  windowSize_eq : conn'.windowSize = conn.windowSize
  requestingCount_eq : conn'.requestingCount = conn.requestingCount
  currDeltaSize_eq : conn'.currDeltaSize = conn.currDeltaSize
  deltaTaken_eq : conn'.deltaTaken = conn.deltaTaken
  settledAtZero_eq : conn'.settledAtZero = conn.settledAtZero

section Holding

variable {owed owed' : Nat → Nat} {before : P2PDownloader}

theorem Accounted.created_of_running (h : Accounted owed s)
    (hRunning : (s.connections c).isRunning = true) : c < s.created := by
  by_contra hNot
  rw [(h.uncreated c (Nat.le_of_not_lt hNot)).1] at hRunning
  cases hRunning

theorem Held.requests {delta : Nat} (h : Held env owed before s) (hReq : Requests c delta s t)
    (hRunning : (s.connections c).isRunning = true)
    (hBound : (t.connections c).requestingCount ≤
      max (s.connections c).windowSize (s.connections c).requestingCount) :
    Held env owed before t := by
  obtain ⟨n, hAdds, hCount⟩ := hReq.adds
  refine ⟨⟨hAdds.distinct h.accounted.distinct, fun x hRuns => ?_, fun x hLe => ?_⟩,
    fun x hRuns => ?_, fun x => ?_, fun x => ?_⟩
  · by_cases hx : x = c
    · subst hx
      have hConn := h.accounted.connected x hRunning
      refine ⟨?_, ?_, ?_, ?_, ?_, ?_⟩
      · have hLive := hConn.live_eq
        rw [hAdds.live_eq x, hReq.settledAtZero_eq, hReq.deltaTaken_eq, if_pos rfl]
        omega
      · rw [hReq.settledAtZero_eq, hReq.deltaTaken_eq]
        exact Nat.le_add_right_of_le hConn.settledAtZero_le
      · exact hBound.trans (Nat.max_le.mpr ⟨hConn.windowSize_le, hConn.requestingCount_le⟩)
      · exact hReq.windowSize_eq ▸ hConn.le_windowSize
      · exact hReq.windowSize_eq ▸ hConn.windowSize_le
      · exact hReq.currDeltaSize_eq ▸ hConn.currDeltaSize_le
    · rw [hReq.others x hx] at hRuns ⊢
      rw [hAdds.live_eq x, if_neg hx]
      exact h.accounted.connected x hRuns
  · rw [hAdds.created_eq] at hLe
    have hNe : x ≠ c := (Nat.ne_of_lt ((h.accounted.created_of_running hRunning).trans_le hLe)).symm
    rw [hReq.others x hNe]
    refine ⟨(h.accounted.uncreated x hLe).1, fun entry hMem => ?_⟩
    obtain hOld | hOwner := hAdds.owner entry hMem
    · exact (h.accounted.uncreated x hLe).2 entry hOld
    · exact hOwner ▸ hNe.symm
  · by_cases hx : x = c
    · subst hx
      rw [Sends, hReq.peerVersion_eq, PeerConnection.sends_congr hReq.peerVersion_eq]
      exact h.sends x hRunning
    · rw [hReq.others x hx] at hRuns ⊢
      exact h.sends x hRuns
  · by_cases hx : x = c
    · subst hx
      exact hReq.windowSize_eq.trans (h.windowSize_eq x)
    · rw [hReq.others x hx]
      exact h.windowSize_eq x
  · by_cases hx : x = c
    · subst hx
      rw [h.windowSize_eq x] at hBound
      exact hBound.trans (Nat.max_le.mpr ⟨Nat.le_max_left _ _, h.requestingCount_le x⟩)
    · rw [hReq.others x hx]
      exact h.requestingCount_le x

theorem requestTillFullWindow_held (h : Held env owed before s) (c : Nat) (needCheck : Bool) :
    Held env owed before (s.requestTillFullWindow env c needCheck) ∧
      ∀ entry ∈ s.requestTasks, entry ∈ (s.requestTillFullWindow env c needCheck).requestTasks := by
  by_cases hRunning : (s.connections c).isRunning = true
  · obtain ⟨delta, hReq, hBound⟩ := requestTillFullWindow_requests
      (h.accounted.connected c hRunning) hRunning (h.sends c hRunning) needCheck
    obtain ⟨n, hAdds, -⟩ := hReq.adds
    exact ⟨h.requests hReq hRunning hBound, hAdds.kept⟩
  · have hSame : s.requestTillFullWindow env c needCheck = s := by
      unfold requestTillFullWindow
      simp [hRunning]
    rw [hSame]
    exact ⟨h, fun _ => id⟩

/-- Assign to a connection without touching the tasks. -/
theorem Held.set {conn : PeerConnection} (h : Held env owed before s)
    (hOwed : ∀ x, x ≠ c → owed' x = owed x)
    (hRunning : conn.isRunning = true → (s.connections c).isRunning = true)
    (hConn : conn.isRunning = true → Connected (liveCount c s.requestTasks) (owed' c) conn)
    (hVersion : conn.peerVersion = (s.connections c).peerVersion)
    (hWindow : conn.windowSize = (s.connections c).windowSize)
    (hCount : conn.requestingCount ≤ (s.connections c).requestingCount) :
    Held env owed' before (s.setConnection c conn) := by
  refine ⟨⟨⟨h.accounted.distinct.1, h.accounted.distinct.2⟩, fun x hRuns => ?_, fun x hLe => ?_⟩,
    fun x hRuns => ?_, fun x => ?_, fun x => ?_⟩
  all_goals by_cases hx : x = c
  · subst hx
    rw [setConnection_self] at hRuns ⊢
    exact hConn hRuns
  · rw [setConnection_other hx] at hRuns ⊢
    rw [hOwed x hx]
    exact h.accounted.connected x hRuns
  · subst hx
    rw [setConnection_self]
    obtain ⟨hStopped, hNone⟩ := h.accounted.uncreated x hLe
    refine ⟨?_, hNone⟩
    by_contra hRuns
    rw [hRunning (by simpa using hRuns)] at hStopped
    cases hStopped
  · rw [setConnection_other hx]
    exact h.accounted.uncreated x hLe
  · subst hx
    rw [setConnection_self] at hRuns ⊢
    rw [Sends, hVersion, PeerConnection.sends_congr hVersion]
    exact h.sends x (hRunning hRuns)
  · rw [setConnection_other hx] at hRuns ⊢
    exact h.sends x hRuns
  · subst hx
    rw [setConnection_self, hWindow]
    exact h.windowSize_eq x
  · rw [setConnection_other hx]
    exact h.windowSize_eq x
  · subst hx
    rw [setConnection_self]
    exact hCount.trans (h.requestingCount_le x)
  · rw [setConnection_other hx]
    exact h.requestingCount_le x

/-- Assign what the accounts do not read. -/
theorem Held.setOther {conn : PeerConnection} (h : Held env owed before s)
    (hSame : SameWindow (s.connections c) conn) :
    Held env owed before (s.setConnection c conn) := by
  obtain ⟨hRunning, hVersion, hWindow, hCount, hDelta, hTaken, hZero⟩ := hSame
  apply h.set (fun _ _ => rfl) hRunning _ hVersion hWindow hCount.le
  intro hRuns
  obtain ⟨hLive, hLe, hRequesting, hLow, hHigh, hCurr⟩ :=
    h.accounted.connected c (hRunning hRuns)
  refine ⟨?_, ?_, ?_, ?_, ?_, ?_⟩
  · rw [hZero, hCount, hTaken]
    exact hLive
  · rw [hZero, hTaken]
    exact hLe
  · exact hCount ▸ hRequesting
  · exact hWindow ▸ hLow
  · exact hWindow ▸ hHigh
  · exact hDelta ▸ hCurr

theorem requestNextSubpiece_held (h : Held env owed before s) (c : Nat) :
    Held env owed before (s.requestNextSubpiece env c) ∧
      ∀ entry ∈ s.requestTasks, entry ∈ (s.requestNextSubpiece env c).requestTasks := by
  unfold requestNextSubpiece
  dsimp only
  split
  · exact ⟨h.setOther ⟨id, rfl, rfl, rfl, rfl, rfl, rfl⟩, fun _ => id⟩
  · have hReset : Held env owed before
        (s.setConnection c { s.connections c with accumulativeSubpieceNum := 0 }) :=
      h.setOther ⟨id, rfl, rfl, rfl, rfl, rfl, rfl⟩
    exact requestTillFullWindow_held hReset c true

/-- The number owed after connection `c` was called for one of its tasks. -/
def owing (c : Nat) : Nat → Nat := fun x => if x = c then 1 else 0

/-- The call for a live task. With the counter at zero the task is one that was not counted. -/
theorem onSettled_held (h : Held env (fun _ => 0) before s) {entry : VodRequest}
    (hMem : entry ∈ s.requestTasks) (hLive : entry.2.dead = false) :
    Held env (owing entry.2.peerConnection) before (s.onSettled env entry.2.peerConnection) ∧
      ∀ other ∈ s.requestTasks,
        other ∈ (s.onSettled env entry.2.peerConnection).requestTasks := by
  generalize hOwner : entry.2.peerConnection = c
  have hPos : 0 < liveCount c s.requestTasks := by
    apply List.countP_pos_iff.mpr
    exact ⟨entry, hMem, by simp [hOwner, hLive]⟩
  unfold onSettled
  dsimp only
  split
  · rename_i hStopped
    refine ⟨?_, fun _ => id⟩
    have hHeld : Held env (owing c) before (s.setConnection c (s.connections c)) := by
      apply h.set (fun x hx => by simp [owing, hx]) id _ rfl rfl le_rfl
      intro hRuns
      rw [hRuns] at hStopped
      cases hStopped
    rwa [setConnection, Function.update_eq_self] at hHeld
  · rename_i hRuns
    have hRunning : (s.connections c).isRunning = true := by simpa using hRuns
    obtain ⟨hEq, hLe, hRequesting, hLow, hHigh, hCurr⟩ := h.accounted.connected c hRunning
    refine requestNextSubpiece_held (s := s.setConnection c _)
      (h.set (fun x hx => by simp [owing, hx]) (fun _ => hRunning) ?_ ?_ ?_ ?_) c
    case refine_2 => rfl
    case refine_3 => rfl
    case refine_4 =>
      dsimp only
      split <;> omega
    case refine_1 =>
      intro _
      by_cases hZero : 0 < (s.connections c).requestingCount
      · refine ⟨?_, ?_, ?_, hLow, hHigh, hCurr⟩
        all_goals simp only [if_pos hZero, owing, if_true]
        · omega
        · exact hLe
        · omega
      · refine ⟨?_, ?_, ?_, hLow, hHigh, hCurr⟩
        all_goals simp only [if_neg hZero, owing, if_true]
        · omega
        · omega
        · exact hRequesting

end Holding

section Tasks

variable {before : P2PDownloader}

/-- The tasks around one of them, which alone has its number. -/
theorem exists_around (h : Distinct s) {entry : VodRequest} (hMem : entry ∈ s.requestTasks) :
    ∃ left right, s.requestTasks = left ++ entry :: right ∧
      ∀ other ∈ left ++ right, other.2.id ≠ entry.2.id := by
  obtain ⟨left, right, hSplit⟩ := List.append_of_mem hMem
  refine ⟨left, right, hSplit, fun other hOther hEq => ?_⟩
  have hNodup := h.nodup
  rw [hSplit, (List.perm_middle.map _).nodup_iff, List.map_cons, List.nodup_cons] at hNodup
  exact hNodup.1 (List.mem_map.mpr ⟨other, hOther, hEq⟩)

theorem liveCount_around (x : Nat) (left right : List VodRequest) (entry : VodRequest) :
    liveCount x (left ++ entry :: right) = liveCount x (left ++ right) +
      if entry.2.peerConnection = x ∧ entry.2.dead = false then 1 else 0 := by
  rw [liveCount, List.perm_middle.countP_eq, List.countP_cons, liveCount]
  simp

/-- The tasks without one of them. -/
theorem erase_around {left right : List VodRequest} {entry : VodRequest}
    (hSplit : s.requestTasks = left ++ entry :: right)
    (hOthers : ∀ other ∈ left ++ right, other.2.id ≠ entry.2.id) :
    (s.erase entry.2.id).requestTasks = left ++ right := by
  show s.requestTasks.filter _ = _
  rw [hSplit, List.filter_append, List.filter_cons_of_neg (by simp), ← List.filter_append,
    List.filter_eq_self.mpr]
  intro other hOther
  simpa using hOthers other hOther

/-- The tasks with one of them assigned to. -/
theorem modify_around {left right : List VodRequest} {entry : VodRequest}
    (f : SubPieceRequestTask → SubPieceRequestTask)
    (hSplit : s.requestTasks = left ++ entry :: right)
    (hOthers : ∀ other ∈ left ++ right, other.2.id ≠ entry.2.id) :
    (s.modify entry.2.id f).requestTasks = left ++ (entry.1, f entry.2) :: right := by
  have hSame : ∀ tasks : List VodRequest, (∀ other ∈ tasks, other.2.id ≠ entry.2.id) →
      (tasks.map fun other => if other.2.id = entry.2.id then (other.1, f other.2) else other) =
        tasks := by
    intro tasks hTasks
    conv_rhs => rw [← List.map_id tasks]
    apply List.map_congr_left
    intro other hOther
    rw [if_neg (hTasks other hOther)]
    rfl
  show s.requestTasks.map _ = _
  rw [hSplit, List.map_append, List.map_cons,
    hSame left fun other hOther => hOthers other (List.mem_append_left _ hOther),
    hSame right fun other hOther => hOthers other (List.mem_append_right _ hOther), if_pos rfl]

/-- Other tasks, from the tasks there were. -/
theorem Held.setTasks {owed owed' : Nat → Nat} (h : Held env owed before s)
    {tasks : List VodRequest} (hDistinct : Distinct { s with requestTasks := tasks })
    (hLive : ∀ x, liveCount x tasks + owed x = liveCount x s.requestTasks + owed' x)
    (hOwner : ∀ entry ∈ tasks, ∃ old ∈ s.requestTasks,
      entry.2.peerConnection = old.2.peerConnection) :
    Held env owed' before { s with requestTasks := tasks } := by
  refine ⟨⟨hDistinct, fun x hRuns => ?_, fun x hLe => ?_⟩, h.sends, h.windowSize_eq,
    h.requestingCount_le⟩
  · have hConn := h.accounted.connected x hRuns
    have hEq := hConn.live_eq
    have hMoved := hLive x
    refine { hConn with live_eq := ?_ }
    show liveCount x tasks + (s.connections x).settledAtZero =
      (s.connections x).requestingCount + owed' x + (s.connections x).deltaTaken
    omega
  · obtain ⟨hStopped, hNone⟩ := h.accounted.uncreated x hLe
    refine ⟨hStopped, fun entry hMem => ?_⟩
    obtain ⟨old, hOld, hEq⟩ := hOwner entry hMem
    exact hEq ▸ hNone old hOld

/-- The entry goes, which settles its call if it was live. -/
theorem erase_held {owed : Nat → Nat} {entry : VodRequest} (h : Held env owed before s)
    (hMem : entry ∈ s.requestTasks)
    (hOwed : ∀ x, owed x = if entry.2.peerConnection = x ∧ entry.2.dead = false then 1 else 0) :
    Held env (fun _ => 0) before (s.erase entry.2.id) := by
  obtain ⟨left, right, hSplit, hOthers⟩ := exists_around h.accounted.distinct hMem
  have hTasks := erase_around hSplit hOthers
  have hSub : (s.erase entry.2.id).requestTasks.Sublist s.requestTasks := List.filter_sublist
  apply h.setTasks
  · exact ⟨h.accounted.distinct.nodup.sublist (hSub.map _),
      fun other hOther => h.accounted.distinct.id_lt other (hSub.subset hOther)⟩
  · intro x
    show liveCount x (s.erase entry.2.id).requestTasks + _ = _
    rw [hTasks, hSplit, liveCount_around, hOwed x, Nat.add_zero]
  · intro other hOther
    exact ⟨other, hSub.subset hOther, rfl⟩

/-- A task is assigned to, and keeps its number and its connection. -/
theorem modify_held {owed owed' : Nat → Nat} {entry : VodRequest} (h : Held env owed before s)
    (hMem : entry ∈ s.requestTasks) (f : SubPieceRequestTask → SubPieceRequestTask)
    (hId : (f entry.2).id = entry.2.id)
    (hOwner : (f entry.2).peerConnection = entry.2.peerConnection)
    (hOwed : ∀ x, (if entry.2.peerConnection = x ∧ (f entry.2).dead = false then 1 else 0) + owed x =
      (if entry.2.peerConnection = x ∧ entry.2.dead = false then 1 else 0) + owed' x) :
    Held env owed' before (s.modify entry.2.id f) ∧
      (entry.1, f entry.2) ∈ (s.modify entry.2.id f).requestTasks := by
  obtain ⟨left, right, hSplit, hOthers⟩ := exists_around h.accounted.distinct hMem
  have hTasks := modify_around f hSplit hOthers
  have hIds : (s.modify entry.2.id f).requestTasks.map (fun other => other.2.id) =
      s.requestTasks.map fun other => other.2.id := by
    rw [hTasks, hSplit]
    simp [hId]
  refine ⟨h.setTasks ⟨?_, fun other hOther => ?_⟩ (fun x => ?_) (fun other hOther => ?_), ?_⟩
  · show ((s.modify entry.2.id f).requestTasks.map _).Nodup
    rw [hIds]
    exact h.accounted.distinct.nodup
  · have hOld : other.2.id ∈ s.requestTasks.map fun other => other.2.id := by
      rw [← hIds]
      exact List.mem_map.mpr ⟨other, hOther, rfl⟩
    obtain ⟨old, hOldMem, hEq⟩ := List.mem_map.mp hOld
    show other.2.id < s.allocated
    exact hEq ▸ h.accounted.distinct.id_lt old hOldMem
  · show liveCount x (s.modify entry.2.id f).requestTasks + _ = _
    have hMoved := hOwed x
    rw [hTasks, hSplit, liveCount_around, liveCount_around, hOwner]
    dsimp only
    omega
  · have hOther : other ∈ (s.modify entry.2.id f).requestTasks := hOther
    rw [hTasks, List.perm_middle.mem_iff] at hOther
    obtain rfl | hOld := List.mem_cons.mp hOther
    · exact ⟨entry, hMem, hOwner⟩
    · refine ⟨other, ?_, rfl⟩
      rw [hSplit, List.perm_middle.mem_iff]
      exact List.mem_cons_of_mem _ hOld
  · rw [hTasks]
    simp

theorem mem_of_entryOf {id : Nat} {entry : VodRequest} (h : s.entryOf id = some entry) :
    entry ∈ s.requestTasks :=
  List.mem_of_find?_eq_some h

/-- An answered task: called for if live, then erased. -/
theorem answerTask_held {entry : VodRequest} (h : Held env (fun _ => 0) before s)
    (hMem : entry ∈ s.requestTasks) (endPoint : Nat × Nat) :
    Held env (fun _ => 0) before (s.answerTask env endPoint entry).1 := by
  unfold answerTask
  dsimp only
  split
  · by_cases hDead : entry.2.dead = true
    · rw [if_pos hDead]
      exact erase_held h hMem fun x => by simp [hDead]
    · rw [if_neg hDead]
      have hLive : entry.2.dead = false := by simpa using hDead
      obtain ⟨hCalled, hKept⟩ := onSettled_held h hMem hLive
      exact erase_held hCalled (hKept entry hMem) fun x => by simp [owing, hLive, eq_comm]
  · exact h

theorem answerLoop_held (info : SubPieceInfo) (endPoint : Nat × Nat) (rounds : Nat)
    (id : Option Nat) (h : Held env (fun _ => 0) before s) :
    Held env (fun _ => 0) before (answerLoop env info endPoint rounds id s) := by
  induction rounds generalizing id s with
  | zero => exact h
  | succ rounds ih =>
      cases id with
      | none => exact h
      | some id =>
          unfold answerLoop
          cases hEntry : s.entryOf id with
          | none => exact h
          | some entry =>
              dsimp only
              split
              · exact ih _ (answerTask_held h (mem_of_entryOf hEntry) endPoint)
              · exact h

/-- A task grows older; one that times out is called for, then dead. -/
theorem ageTask_held {entry : VodRequest} (h : Held env (fun _ => 0) before s)
    (hMem : entry ∈ s.requestTasks) :
    Held env (fun _ => 0) before (s.ageTask env entry).1 := by
  obtain ⟨info, task⟩ := entry
  unfold ageTask
  dsimp only
  generalize u32 (task.requestTimeElapse + 250) = elapse
  obtain ⟨hAged, hAgedMem⟩ := modify_held h hMem
    (fun _ => { task with requestTimeElapse := elapse }) rfl rfl fun _ => rfl
  dsimp only at hAged hAgedMem
  split
  · rename_i hOld
    exact erase_held hAged hAgedMem fun x => by simp [hOld.1]
  · split
    · rename_i hLate
      have hLive : task.dead = false := by simpa using hLate.1
      obtain ⟨hCalled, hKept⟩ := onSettled_held hAged hAgedMem hLive
      exact (modify_held hCalled (hKept _ hAgedMem) (fun task => { task with dead := true }) rfl rfl
        fun x => by simp [owing, hLive, eq_comm]).1
    · exact hAged

theorem ageLoop_held (rounds : Nat) (id : Option Nat) (h : Held env (fun _ => 0) before s) :
    Held env (fun _ => 0) before (ageLoop env rounds id s) := by
  induction rounds generalizing id s with
  | zero => exact h
  | succ rounds ih =>
      cases id with
      | none => exact h
      | some id =>
          unfold ageLoop
          cases hEntry : s.entryOf id with
          | none => exact h
          | some entry => exact ih _ (ageTask_held h (mem_of_entryOf hEntry))

end Tasks

section Steps

variable {before : P2PDownloader} {a : Surroundings × VodAction}

/-- The packets of every connection that runs leave. -/
def AllSend (s : P2PDownloader) (a : Surroundings × VodAction) : Prop :=
  ∀ c, (s.connections c).isRunning = true → Sends a.1 (s.connections c)

/-- Nothing is owed between two steps. -/
abbrev Settled (s : P2PDownloader) : Prop := Accounted (fun _ => 0) s

/-- No step leaves a counter above both the window before it and the counter before it. -/
def Bounded (before s : P2PDownloader) : Prop :=
  ∀ c, (s.connections c).requestingCount ≤
    max (before.connections c).windowSize (before.connections c).requestingCount

theorem limitMinMax_bounds {value low high : Nat} (h : low ≤ high) :
    low ≤ PeerConnection.limitMinMax value low high ∧
      PeerConnection.limitMinMax value low high ≤ high := by
  unfold PeerConnection.limitMinMax
  dsimp only
  split <;> split <;> omega

/-- A new window, with the counter as it was. -/
theorem updateWindow_connected {live owed : Nat} {conn : PeerConnection}
    (h : Connected live owed conn) (nowDownloadSpeed connectedTime : Nat) (isSlow : Bool) :
    Connected live owed (conn.updateWindow nowDownloadSpeed connectedTime isSlow) := by
  have hWindow : peerConnectionMinWindowSize ≤ peerConnectionMaxWindowSize := by decide
  refine { h with
    le_windowSize := (limitMinMax_bounds hWindow).1
    windowSize_le := (limitMinMax_bounds hWindow).2
    currDeltaSize_le := ?_ }
  unfold PeerConnection.updateWindow
  dsimp only
  split
  · exact le_rfl
  · split <;> decide

theorem Accounted.setWindow (h : Settled s) {nowDownloadSpeed connectedTime : Nat}
    {isSlow : Bool} : Settled (s.setConnection c
      ((s.connections c).updateWindow nowDownloadSpeed connectedTime isSlow)) := by
  refine ⟨⟨h.distinct.1, h.distinct.2⟩, fun x hRuns => ?_, fun x hLe => ?_⟩
  all_goals by_cases hx : x = c
  · subst hx
    rw [setConnection_self] at hRuns ⊢
    exact updateWindow_connected (h.connected x hRuns) _ _ _
  · rw [setConnection_other hx] at hRuns ⊢
    exact h.connected x hRuns
  · subst hx
    rw [setConnection_self]
    exact h.uncreated x hLe
  · rw [setConnection_other hx]
    exact h.uncreated x hLe

theorem onP2PTimer_settled (h : Held env (fun _ => 0) before s)
    (c times nowDownloadSpeed connectedTime : Nat) (isSlow : Bool) :
    Settled (s.onP2PTimer env c times nowDownloadSpeed connectedTime isSlow) ∧
      Bounded before (s.onP2PTimer env c times nowDownloadSpeed connectedTime isSlow) := by
  unfold onP2PTimer
  dsimp only
  split
  · exact ⟨h.accounted, h.requestingCount_le⟩
  have hRequested : Held env (fun _ => 0) before
      (if (s.connections c).accumulativeSubpieceNum ≠ 0 then
        (s.setConnection c { s.connections c with
          accumulativeSubpieceNum := 0 }).requestTillFullWindow env c true
      else s) := by
    split
    · have hReset : Held env (fun _ => 0) before
          (s.setConnection c { s.connections c with accumulativeSubpieceNum := 0 }) :=
        h.setOther ⟨id, rfl, rfl, rfl, rfl, rfl, rfl⟩
      exact (requestTillFullWindow_held hReset c true).1
    · exact h
  split
  · refine ⟨hRequested.accounted.setWindow, fun x => ?_⟩
    by_cases hx : x = c
    · subst hx
      rw [setConnection_self]
      exact hRequested.requestingCount_le x
    · rw [setConnection_other hx]
      exact hRequested.requestingCount_le x
  · exact ⟨hRequested.accounted, hRequested.requestingCount_le⟩

/-- A new connection takes a number that no task has. -/
theorem start_settled (h : Settled s) (endPoint : Nat × Nat) (peerVersion : Nat) :
    Settled { s.setConnection s.created (.start endPoint peerVersion) with
      created := s.created + 1 } := by
  obtain ⟨-, hNone⟩ := h.uncreated s.created le_rfl
  refine ⟨⟨h.distinct.1, h.distinct.2⟩, fun x hRuns => ?_, fun x hLe => ?_⟩
  · show Connected (liveCount x s.requestTasks) 0 ((s.setConnection s.created _).connections x)
    by_cases hx : x = s.created
    · subst hx
      have hZero : liveCount s.created s.requestTasks = 0 := by
        apply List.countP_eq_zero.mpr
        intro entry hMem
        simp [hNone entry hMem]
      rw [setConnection_self, hZero]
      exact ⟨rfl, le_rfl, Nat.zero_le _, le_rfl,
        (by decide : peerConnectionMinWindowSize ≤ peerConnectionMaxWindowSize),
        Nat.le_add_right _ _⟩
    · have hOld : (s.connections x).isRunning = true := by
        rw [← setConnection_other hx (.start endPoint peerVersion)]
        exact hRuns
      rw [setConnection_other hx]
      exact h.connected x hOld
  · have hLt : s.created < x := hLe
    show ((s.setConnection s.created _).connections x).isRunning = false ∧ _
    rw [setConnection_other (Nat.ne_of_gt hLt)]
    exact h.uncreated x hLt.le

theorem next_settled (h : Settled s) (hSend : AllSend s a) (hStep : s.next a = some t) :
    Settled t ∧ Bounded s t := by
  obtain ⟨env, action⟩ := a
  obtain rfl := Option.some.inj hStep
  have hHeld : Held env (fun _ => 0) s s :=
    ⟨h, hSend, fun _ => rfl, fun _ => Nat.le_max_right _ _⟩
  have hAfter : ∀ {u}, Held env (fun _ => 0) s u → Settled u ∧ Bounded s u :=
    fun hu => ⟨hu.accounted, hu.requestingCount_le⟩
  cases action with
  | start endPoint peerVersion =>
      refine ⟨start_settled h endPoint peerVersion, fun x => ?_⟩
      show ((s.setConnection s.created _).connections x).requestingCount ≤ _
      by_cases hx : x = s.created
      · subst hx
        rw [setConnection_self]
        exact Nat.zero_le _
      · rw [setConnection_other hx]
        exact Nat.le_max_right _ _
  | stop c =>
      exact hAfter (hHeld.setOther ⟨fun hRuns => (by cases hRuns), rfl, rfl, rfl, rfl, rfl, rfl⟩)
  | addAssignedSubPiece c info =>
      apply hAfter
      apply hHeld.setOther
      unfold PeerConnection.addAssignedSubPiece
      split <;> exact ⟨id, rfl, rfl, rfl, rfl, rfl, rfl⟩
  | clearTaskQueue c =>
      apply hAfter
      apply hHeld.setOther
      unfold PeerConnection.clearTaskQueue
      split <;> exact ⟨id, rfl, rfl, rfl, rfl, rfl, rfl⟩
  | requestTillFullWindow c needCheck => exact hAfter (requestTillFullWindow_held hHeld c needCheck).1
  | onP2PTimer c times nowDownloadSpeed connectedTime isSlow =>
      exact onP2PTimer_settled hHeld c times nowDownloadSpeed connectedTime isSlow
  | onSubPiece rounds info endPoint => exact hAfter (answerLoop_held info endPoint rounds _ hHeld)
  | checkExternalTimeout rounds => exact hAfter (ageLoop_held rounds _ hHeld)

theorem create_settled : Settled create where
  distinct := ⟨List.nodup_nil, fun _ hMem => by cases hMem⟩
  connected _ hRuns := by cases hRuns
  uncreated _ _ := ⟨rfl, fun _ hMem => by cases hMem⟩

/-- The accounts of the windows. For a connection that runs, the counter is the number of
its live tasks, less what its delta requests took off and plus what was settled with the
counter at zero. So it is at most the number of live tasks, and that number where no delta
was taken off; it never wraps; and a step leaves it at most at the window or where it was. -/
structure WindowAccounts (s : P2PDownloader) : Prop where
  live_eq : ∀ c, (s.connections c).isRunning = true →
    liveCount c s.requestTasks + (s.connections c).settledAtZero =
      (s.connections c).requestingCount + (s.connections c).deltaTaken
  requesting_le_live : ∀ c, (s.connections c).isRunning = true →
    (s.connections c).requestingCount ≤ liveCount c s.requestTasks
  requesting_eq_live : ∀ c, (s.connections c).isRunning = true →
    (s.connections c).deltaTaken = 0 →
      (s.connections c).requestingCount = liveCount c s.requestTasks
  requesting_le : ∀ c, (s.connections c).isRunning = true →
    (s.connections c).requestingCount ≤ peerConnectionMaxWindowSize
  step_le : ∀ a t, AllSend s a → s.next a = some t → Bounded s t

theorem Accounted.windowAccounts (h : Settled s) : WindowAccounts s where
  live_eq c hRuns := (h.connected c hRuns).live_eq
  requesting_le_live c hRuns := by
    obtain ⟨hEq, hLe, -⟩ := h.connected c hRuns
    omega
  requesting_eq_live c hRuns hNone := by
    obtain ⟨hEq, hLe, -⟩ := h.connected c hRuns
    omega
  requesting_le c hRuns := (h.connected c hRuns).requestingCount_le
  step_le _ _ hSend hStep := (next_settled h hSend hStep).2

/-- After any requests, replies, duplicates, timeouts and window changes the accounts agree. -/
theorem windowAccounts_of_run (run : Reaches Step AllSend create s) : WindowAccounts s := by
  have hSettled : Settled s := by
    apply run.invariant create_settled
    intro before action after hBefore hSend hStep
    exact (next_settled hBefore hSend hStep).1
  exact hSettled.windowAccounts

/-- A run in which all packets are open. -/
theorem exists_open_run (actions : List (Surroundings × VodAction))
    (test : P2PDownloader → Bool)
    (h : (execute (checked next fun _ a => a.1.openRequestSubpiecePacketOld) create actions).any
      test = true) : ∃ s, Reaches Step AllSend create s ∧ test s = true := by
  obtain ⟨s, hRun, hs⟩ := Reaches.exists_of_checked _ _ _ _ _ h
  refine ⟨s, hRun.mono fun x a hOpen c _ => Or.inr ?_, hs⟩
  simp [PeerConnection.sends, hOpen]

/-- Packets are open, nothing has arrived, and a task waits a second. -/
def openSurroundings : Surroundings := ⟨fun _ => 1000, fun _ => false, true, 0x104, 0x105⟩

/-- Twelve subpieces are requested with a window of 10 and a delta of 2. -/
def twelveRequests : List (Surroundings × VodAction) :=
  (openSurroundings, .start (1, 1) 0x105) ::
    (List.range 12).map (fun i => (openSurroundings, .addAssignedSubPiece 0 (.make 0 i))) ++
    List.replicate 2 (openSurroundings, .requestTillFullWindow 0 false)

/-- The two that the delta adds are live, and not counted. -/
theorem requesting_eq_live_fails : ¬ ∀ s, Reaches Step AllSend create s → ∀ c,
    (s.connections c).isRunning = true →
      (s.connections c).requestingCount = liveCount c s.requestTasks := by
  intro hAll
  obtain ⟨s, hRun, hs⟩ := exists_open_run twelveRequests
    (fun s => decide ((s.connections 0).isRunning = true ∧
      (s.connections 0).requestingCount = 10 ∧ liveCount 0 s.requestTasks = 12))
    (by decide +kernel)
  obtain ⟨hRuns, hCount, hLive⟩ := of_decide_eq_true hs
  have hEq := hAll s hRun 0 hRuns
  omega

/-- Then two answers, one of them twice, and the other tasks time out. -/
def twelveSettled : List (Surroundings × VodAction) :=
  twelveRequests ++ [3, 3, 4].map (fun i => (openSurroundings, .onSubPiece 20 (.make 0 i) (1, 1))) ++
    List.replicate 5 (openSurroundings, .checkExternalTimeout 20)

theorem windowAccounts_of_twelve : ∃ s : P2PDownloader,
    ((s.connections 0).isRunning = true ∧ (s.connections 0).requestingCount = 0 ∧
      (s.connections 0).settledAtZero = 2 ∧ s.requestTasks.length = 10) ∧ WindowAccounts s := by
  obtain ⟨s, hRun, hs⟩ := exists_open_run twelveSettled
    (fun s => decide ((s.connections 0).isRunning = true ∧
      (s.connections 0).requestingCount = 0 ∧ (s.connections 0).settledAtZero = 2 ∧
      s.requestTasks.length = 10)) (by decide +kernel)
  exact ⟨s, of_decide_eq_true hs, windowAccounts_of_run hRun⟩

end Steps

end P2PDownloader

end P2P
