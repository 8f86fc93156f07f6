import Peer.P2P.UploadConnections
import Mathlib.Data.List.Nodup

/-! The three containers of the upload connections agree, uploads stay few, and what
a kick round leaves. The speed statistic of a connection is never started, so that
every speed a kick round reads is zero, and the order of addresses decides who goes. -/
namespace P2P

open Basis Storage OrderedMap

theorem SocketAddr.eq_of_equivalent (a b : SocketAddr) (h : equivalent a b = true) : a = b :=
  SocketAddr.equivalent_iff.mp h

/-- The statistic has not been started. -/
def SpeedInfoStatistic.Idle (info : SpeedInfoStatistic) : Prop :=
  info.isRunning = false ∧ info.nowUploadSpeed = 0

theorem SpeedInfoStatistic.Idle.getSpeedInfo {info : SpeedInfoStatistic} (h : info.Idle)
    (tick : Nat) : info.getSpeedInfo tick = info := by
  unfold SpeedInfoStatistic.getSpeedInfo
  simp [h.1]

namespace UploadConnections

/-- The containers agree, and no statistic runs. -/
structure Agrees (m : UploadConnections) : Prop where
  connecting_distinct : Distinct m.acceptConnectingPeers
  uploading_distinct : Distinct m.acceptUploadingPeers
  speed_distinct : Distinct m.uploadingPeersSpeed
  uploading_subset : ∀ ep ∈ m.acceptUploadingPeers.keys, ep ∈ m.acceptConnectingPeers.keys
  speed_keys : ∀ ep, ep ∈ m.uploadingPeersSpeed.keys ↔ ep ∈ m.acceptUploadingPeers.keys
  idle : ∀ entry ∈ m.acceptConnectingPeers, entry.2.speedInfo.Idle

theorem agrees_empty : empty.Agrees := by
  constructor <;> simp [empty, Distinct, keys]

variable {m : UploadConnections} {now : Nat} {ep : SocketAddr} {limits : UploadLimits}

theorem find?_isSome_iff {V : Type} {index : OrderedMap SocketAddr V} :
    (index.find? ep).isSome = true ↔ ep ∈ index.keys := by
  rw [← not_iff_not, Bool.not_eq_true, Option.isSome_eq_false_iff, Option.isNone_iff_eq_none,
    find?_eq_none, absent_iff SocketAddr.eq_of_equivalent]

theorem isPeerConnected_iff : m.isPeerConnected ep = true ↔ ep ∈ m.acceptConnectingPeers.keys :=
  find?_isSome_iff

theorem isPeerAcceptedForUpload_iff :
    m.isPeerAcceptedForUpload ep = true ↔ ep ∈ m.acceptUploadingPeers.keys :=
  find?_isSome_iff

theorem mem_keys_updatePeer {f : PeerUploadInfo → PeerUploadInfo} {j : SocketAddr} :
    j ∈ (m.updatePeer now ep f).acceptConnectingPeers.keys ↔
      j = ep ∨ j ∈ m.acceptConnectingPeers.keys := by
  unfold updatePeer
  rw [keys_update, mem_keys_insert SocketAddr.eq_of_equivalent]

/-- Writing to the record of a peer, which does not start its statistic. -/
theorem Agrees.updatePeer (h : m.Agrees) {f : PeerUploadInfo → PeerUploadInfo}
    (hf : ∀ info : PeerUploadInfo, info.speedInfo.Idle → (f info).speedInfo.Idle) :
    (m.updatePeer now ep f).Agrees := by
  refine ⟨h.connecting_distinct.update _ f, h.uploading_distinct, h.speed_distinct, ?_,
    h.speed_keys, ?_⟩
  · intro j hj
    exact mem_keys_updatePeer.mpr (Or.inr (h.uploading_subset j hj))
  · have hInsert : ∀ entry ∈ insert m.acceptConnectingPeers ep (PeerUploadInfo.create now),
        entry.2.speedInfo.Idle := by
      intro entry hEntry
      by_cases hAbsent : Absent m.acceptConnectingPeers ep
      · rw [(insert_perm hAbsent).mem_iff, List.mem_cons] at hEntry
        obtain rfl | hOld := hEntry
        · exact ⟨rfl, rfl⟩
        · exact h.idle entry hOld
      · rw [insert_of_not_absent hAbsent] at hEntry
        exact h.idle entry hEntry
    intro entry hEntry
    obtain ⟨old, hOld, rfl⟩ := List.mem_map.mp hEntry
    split
    · exact hf old.2 (hInsert old hOld)
    · exact hInsert old hOld

theorem Agrees.addUploadConnection (h : m.Agrees) (hMem : ep ∈ m.acceptConnectingPeers.keys) :
    (m.addUploadConnection now ep).Agrees := by
  refine ⟨h.connecting_distinct, h.uploading_distinct.insert ep (),
    h.speed_distinct.update (0, now) (fun _ => (0, now)), ?_, ?_, h.idle⟩
  · intro j hj
    obtain rfl | hOld := (mem_keys_insert SocketAddr.eq_of_equivalent).mp hj
    · exact hMem
    · exact h.uploading_subset j hOld
  · intro j
    unfold UploadConnections.addUploadConnection
    rw [keys_update, mem_keys_insert SocketAddr.eq_of_equivalent,
      mem_keys_insert SocketAddr.eq_of_equivalent, h.speed_keys]

theorem Agrees.updatePeerUploadSpeed (h : m.Agrees) (hMem : ep ∈ m.acceptUploadingPeers.keys)
    (speed : Nat) : (m.updatePeerUploadSpeed now ep speed).Agrees := by
  refine ⟨h.connecting_distinct, h.uploading_distinct,
    h.speed_distinct.update (0, now) (fun _ => (speed, now)), h.uploading_subset, ?_, h.idle⟩
  intro j
  unfold UploadConnections.updatePeerUploadSpeed
  rw [keys_update, mem_keys_insert SocketAddr.eq_of_equivalent, h.speed_keys]
  constructor
  · rintro (rfl | hj)
    · exact hMem
    · exact hj
  · exact Or.inr

theorem Agrees.stopUpload (h : m.Agrees) (ep : SocketAddr) : (m.stopUpload ep).Agrees := by
  refine ⟨h.connecting_distinct, h.uploading_distinct.erase ep, h.speed_distinct.erase ep, ?_, ?_,
    h.idle⟩
  · intro j hj
    exact h.uploading_subset j ((mem_keys_erase SocketAddr.eq_of_equivalent).mp hj).1
  · intro j
    show j ∈ keys (erase _ _) ↔ j ∈ keys (erase _ _)
    rw [mem_keys_erase SocketAddr.eq_of_equivalent, mem_keys_erase SocketAddr.eq_of_equivalent,
      h.speed_keys]

theorem Agrees.kickConnection (h : m.Agrees) (ep : SocketAddr) : (m.kickConnection ep).Agrees := by
  have hStop := h.stopUpload ep
  refine ⟨h.connecting_distinct.erase ep, hStop.uploading_distinct, hStop.speed_distinct, ?_,
    hStop.speed_keys, ?_⟩
  · intro j hj
    obtain ⟨hOld, hNe⟩ := (mem_keys_erase SocketAddr.eq_of_equivalent).mp hj
    exact (mem_keys_erase SocketAddr.eq_of_equivalent).mpr ⟨h.uploading_subset j hOld, hNe⟩
  · intro entry hEntry
    exact h.idle entry ((erase_sublist _ _).subset hEntry)

/-- Dropping a bad upload makes room for one. -/
theorem kickABad_spec (now : Nat) (limits : UploadLimits) (candidate : PeerUploadInfo)
    (h : m.Agrees) :
    (m.kickABadUploadConnection now limits candidate).1.Agrees ∧
      (m.kickABadUploadConnection now limits candidate).1.acceptConnectingPeers =
        m.acceptConnectingPeers ∧
      (m.kickABadUploadConnection now limits candidate).1.acceptUploadingPeers.length +
        (if (m.kickABadUploadConnection now limits candidate).2 then 1 else 0) =
          m.acceptUploadingPeers.length := by
  unfold kickABadUploadConnection
  split
  · rename_i bad hFind
    exact ⟨h.stopUpload bad, rfl, h.uploading_distinct.length_erase (List.mem_of_find?_eq_some hFind)⟩
  · exact ⟨h, rfl, rfl⟩

/-- What `AcceptsNewUploadConnection` leaves: no more uploads than before, and when it
accepts under a limit, room for one more among the limit and four. -/
structure Accepts (limits : UploadLimits) (m m' : UploadConnections) (accepted : Bool) : Prop where
  agrees : m'.Agrees
  connecting : ∀ j ∈ m.acceptConnectingPeers.keys, j ∈ m'.acceptConnectingPeers.keys
  uploading_le : m'.acceptUploadingPeers.length ≤ m.acceptUploadingPeers.length
  room : accepted = true → 0 ≤ limits.speedLimitInKBps → 0 < limits.maxUploadPeers →
    m'.acceptUploadingPeers.length + 1 ≤
      max m.acceptUploadingPeers.length (limits.maxUploadPeers.toNat + 4)

theorem asUInt32_of_nonneg {n : Int} (h : 0 ≤ n) (hLt : n < 2 ^ 31) : asUInt32 n = n.toNat := by
  unfold asUInt32
  rw [Int.emod_eq_of_lt h (by omega)]

theorem fewUploads_le (h : m.fewUploads limits = true) (hPos : 0 < limits.maxUploadPeers) :
    m.acceptUploadingPeers.length ≤ limits.maxUploadPeers.toNat + 3 := by
  have hLt := limits.maxUploadPeers_lt
  unfold fewUploads at h
  rw [decide_eq_true_eq, asUInt32_of_nonneg (Int.le_of_lt hPos) hLt] at h
  exact Nat.le_trans h (u32_le _)

theorem Agrees.accepts (h : m.Agrees) (now : Nat) (ep : SocketAddr) (limits : UploadLimits) :
    Accepts limits m (m.acceptsNewUploadConnection now ep limits).1
      (m.acceptsNewUploadConnection now ep limits).2 := by
  have hRead : (m.updatePeer now ep id).Agrees := h.updatePeer fun info hInfo => hInfo
  have hKeys : ∀ j ∈ m.acceptConnectingPeers.keys,
      j ∈ (m.updatePeer now ep id).acceptConnectingPeers.keys :=
    fun j hj => mem_keys_updatePeer.mpr (Or.inr hj)
  unfold acceptsNewUploadConnection
  split
  case isTrue hNoLimit =>
    exact ⟨h, fun j hj => hj, Nat.le_refl _, fun _ hLimit _ => by omega⟩
  split
  case isTrue hNone => exact ⟨h, fun j hj => hj, Nat.le_refl _, fun hAccept => by cases hAccept⟩
  split
  case isTrue hRoom =>
    show Accepts limits m m true
    refine ⟨h, fun j hj => hj, Nat.le_refl _, fun _ _ hPos => ?_⟩
    rw [asUInt32_of_nonneg (Int.le_of_lt hPos) limits.maxUploadPeers_lt] at hRoom
    omega
  have hKick := kickABad_spec now limits (m.peerUploadInfo now ep) hRead
  dsimp only
  generalize (m.updatePeer now ep id).kickABadUploadConnection now limits
    (m.peerUploadInfo now ep) = result at hKick ⊢
  obtain ⟨m', kicked⟩ := result
  obtain ⟨hAgrees, hSame, hLength⟩ := hKick
  dsimp only at hAgrees hLength ⊢
  have hConnecting : ∀ j ∈ m.acceptConnectingPeers.keys, j ∈ m'.acceptConnectingPeers.keys :=
    hSame ▸ hKeys
  change _ = m.acceptUploadingPeers.length at hLength
  split
  case isTrue hKicked =>
    show Accepts limits m m' true
    rw [if_pos hKicked] at hLength
    exact ⟨hAgrees, hConnecting, by omega, fun _ _ _ => by omega⟩
  rename_i hKept
  rw [if_neg hKept, Nat.add_zero] at hLength
  split
  case isTrue hFew =>
    show Accepts limits m m' true
    refine ⟨hAgrees, hConnecting, Nat.le_of_eq hLength, fun _ _ hPos => ?_⟩
    have hLe := fewUploads_le (Bool.and_eq_true_iff.mp hFew).1 hPos
    omega
  split
  case isTrue hFew =>
    show Accepts limits m m' true
    refine ⟨hAgrees, hConnecting, Nat.le_of_eq hLength, fun _ _ hPos => ?_⟩
    have hLe := fewUploads_le (Bool.and_eq_true_iff.mp hFew).2 hPos
    omega
  case isFalse =>
    exact ⟨hAgrees, hConnecting, Nat.le_of_eq hLength, fun hAccept => by cases hAccept⟩

/-- A request keeps the containers in agreement; under a limit it adds an upload only
while there are at most three more than the limit, or in place of another. -/
theorem Agrees.onRequestSubPiecePacket (h : m.Agrees) (served : Bool) (id : Nat) :
    (m.onRequestSubPiecePacket now ep limits served id).Agrees ∧
      (0 ≤ limits.speedLimitInKBps → 0 < limits.maxUploadPeers →
        (m.onRequestSubPiecePacket now ep limits served id).acceptUploadingPeers.length ≤
          max m.acceptUploadingPeers.length (limits.maxUploadPeers.toNat + 4)) := by
  -- whatever was decided about the upload, the rest writes to the record of the peer
  have hRest : ∀ m' : UploadConnections, m'.Agrees → (0 ≤ limits.speedLimitInKBps →
      0 < limits.maxUploadPeers → m'.acceptUploadingPeers.length ≤
        max m.acceptUploadingPeers.length (limits.maxUploadPeers.toNat + 4)) →
      ∀ result, result = (let m' := m'.updateUploadHeartbeat now ep
        if served then m'.tryAddUniqueTransactionId now ep id else m') →
      result.Agrees ∧ (0 ≤ limits.speedLimitInKBps → 0 < limits.maxUploadPeers →
        result.acceptUploadingPeers.length ≤
          max m.acceptUploadingPeers.length (limits.maxUploadPeers.toNat + 4)) := by
    rintro m' hAgrees hLength result rfl
    have hHeart : (m'.updateUploadHeartbeat now ep).Agrees := hAgrees.updatePeer fun info hInfo => hInfo
    dsimp only
    split
    · refine ⟨hHeart.updatePeer fun info hInfo => ?_, hLength⟩
      split
      · exact hInfo
      · unfold PeerUploadInfo.updateLastDataTransID
        dsimp only
        split <;> exact hInfo
    · exact ⟨hHeart, hLength⟩
  have hHeart : (m.updateConnectionHeartbeat now ep).Agrees :=
    h.updatePeer fun info hInfo => hInfo
  have hSame : (m.updateConnectionHeartbeat now ep).acceptUploadingPeers = m.acceptUploadingPeers := rfl
  have hHere : ep ∈ (m.updateConnectionHeartbeat now ep).acceptConnectingPeers.keys :=
    mem_keys_updatePeer.mpr (Or.inl rfl)
  unfold UploadConnections.onRequestSubPiecePacket
  split
  · exact ⟨h, fun _ _ => Nat.le_max_left _ _⟩
  · dsimp only
    by_cases hUpload : (m.updateConnectionHeartbeat now ep).isPeerAcceptedForUpload ep = true
    · rw [if_pos hUpload]
      exact hRest _ hHeart (fun _ _ => Nat.le_max_left _ _) _ rfl
    · rw [if_neg hUpload]
      have hAccepts := hHeart.accepts now ep limits
      generalize (m.updateConnectionHeartbeat now ep).acceptsNewUploadConnection now ep limits = answer
        at hAccepts ⊢
      obtain ⟨m', accepted⟩ := answer
      dsimp only at hAccepts ⊢
      cases accepted with
      | false =>
        refine ⟨hAccepts.agrees, fun _ _ => ?_⟩
        exact Nat.le_trans hAccepts.uploading_le (Nat.le_max_left _ _)
      | true =>
        apply hRest (m'.addUploadConnection now ep)
        · exact hAccepts.agrees.addUploadConnection (hAccepts.connecting ep hHere)
        · intro hLimit hPos
          exact Nat.le_trans (length_insert_le _ _ _) (hAccepts.room rfl hLimit hPos)
        · rfl

theorem Agrees.onConnectPacket (h : m.Agrees) (isWatchingLive : Bool) (ipPoolSize : Nat)
    (inst : Option Bool) (isLive : Bool) :
    (m.onConnectPacket now ep limits isWatchingLive ipPoolSize inst isLive).Agrees := by
  unfold UploadConnections.onConnectPacket
  split
  · exact h
  · split
    · exact h
    · apply Agrees.updatePeer
      · split
        · exact h
        · exact h.updatePeer fun info _ => ⟨rfl, rfl⟩
      · exact fun info hInfo => hInfo

theorem Agrees.onHeartbeatPacket (h : m.Agrees) : (m.onHeartbeatPacket now ep).Agrees := by
  unfold UploadConnections.onHeartbeatPacket
  split
  · exact h.updatePeer fun info hInfo => hInfo
  · exact h

theorem Agrees.onReportSpeedPacket (h : m.Agrees) (speed : Nat) :
    (m.onReportSpeedPacket now ep speed).Agrees := by
  have hHeart : (m.updateConnectionHeartbeat now ep).Agrees :=
    h.updatePeer fun info hInfo => hInfo
  unfold UploadConnections.onReportSpeedPacket
  split
  · exact h
  · dsimp only
    split
    · rename_i hUpload
      exact hHeart.updatePeerUploadSpeed (isPeerAcceptedForUpload_iff.mp hUpload) speed
    · exact hHeart

theorem Agrees.onSubPieceSent (h : m.Agrees) (bytes : Nat) :
    (m.onSubPieceSent now ep bytes).Agrees := by
  unfold UploadConnections.onSubPieceSent
  split
  · exact h.updatePeer fun info hInfo => hInfo
  · exact h

theorem Agrees.kickTimedOutConnections (h : m.Agrees) : (m.kickTimedOutConnections now).Agrees := by
  unfold UploadConnections.kickTimedOutConnections
  generalize m.acceptConnectingPeers = entries
  induction entries generalizing m with
  | nil => exact h
  | cons entry rest ih =>
    apply ih
    dsimp only
    split
    · exact h.kickConnection entry.1
    · exact h

section KickBad

/-- What a peer is really sent: the bytes its meter has recorded. -/
def uploadSpeed (now : Nat) (info : PeerUploadInfo) : Nat :=
  info.speedInfo.uploadSpeedMeter.currentByteSpeed now

/-- The connections a kick round can take, in the order of their addresses. -/
def unprotected (m : UploadConnections) (now protection : Nat) :
    OrderedMap SocketAddr PeerUploadInfo :=
  m.acceptConnectingPeers.filter fun entry => isUnprotected now protection entry.2

/-- How many connections there are too many. -/
def excess (m : UploadConnections) (limits : UploadLimits) : Nat :=
  m.acceptConnectingPeers.length - limits.maxConnectPeers.toNat

/-- What `KickBadConnections(s KBps, t)` promises. -/
structure KickPromise (now : Nat) (limits : UploadLimits) (desirable protection : Nat)
    (m m' : UploadConnections) : Prop where
  bound : (m'.acceptConnectingPeers.length : Int) ≤ limits.maxConnectPeers ∨
    ∀ entry ∈ m'.acceptConnectingPeers, isUnprotected now protection entry.2 = false ∨
      desirable * 1024 ≤ uploadSpeed now entry.2
  few : m.acceptConnectingPeers.length - m'.acceptConnectingPeers.length ≤ m.excess limits
  slowest : ∀ entry ∈ m.acceptConnectingPeers, entry ∉ m'.acceptConnectingPeers →
    ∀ other ∈ m'.acceptConnectingPeers, isUnprotected now protection other.2 = true →
      uploadSpeed now entry.2 ≤ uploadSpeed now other.2

/-- Without limits nothing need be kicked; with them, none of the unprotected
connections whose addresses come first is faster than one of the others. -/
def KickFits (now : Nat) (limits : UploadLimits) (desirable protection : Nat)
    (m : UploadConnections) : Prop :=
  if limits.maxConnectPeers < 0 ∨ limits.speedLimitInKBps < 0 then
    (m.acceptConnectingPeers.length : Int) ≤ limits.maxConnectPeers ∨
      ∀ entry ∈ m.unprotected now protection, desirable * 1024 ≤ uploadSpeed now entry.2
  else
    desirable = 0 ∨ ∀ entry ∈ (m.unprotected now protection).take (m.excess limits),
      ∀ other ∈ (m.unprotected now protection).drop (m.excess limits),
        uploadSpeed now entry.2 ≤ uploadSpeed now other.2

/-- Reading the record of a peer that is there changes nothing. -/
theorem updatePeer_id (h : ep ∈ m.acceptConnectingPeers.keys) : m.updatePeer now ep id = m := by
  have hThere : ¬ Absent m.acceptConnectingPeers ep := by
    rw [absent_iff SocketAddr.eq_of_equivalent]
    exact not_not.mpr h
  unfold updatePeer
  rw [update_id _ hThere]

theorem Agrees.peerUploadInfo_eq (h : m.Agrees) {info : PeerUploadInfo}
    (hMem : (ep, info) ∈ m.acceptConnectingPeers) : m.peerUploadInfo now ep = info := by
  unfold peerUploadInfo
  rw [(find?_eq_some SocketAddr.eq_of_equivalent h.connecting_distinct).mpr hMem]
  rfl

/-- With all speeds zero the loop takes the first unprotected connections. -/
theorem Agrees.kickLoop (h : m.Agrees) {desirable protection need : Nat} (hPos : 0 < desirable)
    {entries : OrderedMap SocketAddr PeerUploadInfo} (hDistinct : Distinct entries)
    (hMem : ∀ entry ∈ entries, entry ∈ m.acceptConnectingPeers) :
    (UploadConnections.kickLoop now desirable protection (entries.map fun entry => (0, entry.1))
      need m).Agrees ∧
    (UploadConnections.kickLoop now desirable protection (entries.map fun entry => (0, entry.1))
      need m).acceptConnectingPeers = m.acceptConnectingPeers.filter fun entry =>
        entry.1 ∉ keys ((entries.filter fun entry => isUnprotected now protection entry.2).take need) := by
  induction entries generalizing m need with
  | nil =>
    refine ⟨h, ?_⟩
    simp [UploadConnections.kickLoop, keys]
  | cons entry rest ih =>
    obtain ⟨hApart, hRest⟩ := List.pairwise_cons.mp hDistinct
    have hHere := hMem entry List.mem_cons_self
    have hInfo : m.peerUploadInfo now entry.1 = entry.2 := h.peerUploadInfo_eq hHere
    have hKey : entry.1 ∈ m.acceptConnectingPeers.keys := List.mem_map_of_mem hHere
    rw [List.map_cons, UploadConnections.kickLoop]
    by_cases hNeed : need = 0
    · rw [if_pos (Or.inl hNeed), hNeed]
      refine ⟨h, ?_⟩
      simp [keys]
    · rw [if_neg (by omega), hInfo, updatePeer_id hKey]
      dsimp only
      by_cases hUnprotected : isUnprotected now protection entry.2 = true
      · have hFilter : (entry :: rest).filter (fun entry => isUnprotected now protection entry.2) =
            entry :: rest.filter (fun entry => isUnprotected now protection entry.2) :=
          List.filter_cons_of_pos hUnprotected
        rw [if_pos hUnprotected, hFilter]
        obtain ⟨last, rfl⟩ : ∃ last, need = last + 1 := ⟨need - 1, by omega⟩
        have hStay : ∀ other ∈ rest, other ∈ (m.kickConnection entry.1).acceptConnectingPeers := by
          intro other hOther
          apply List.mem_filter.mpr
          refine ⟨hMem other (List.mem_cons_of_mem _ hOther), ?_⟩
          rw [equivalent_comm, hApart other hOther]
          rfl
        obtain ⟨hAgrees, hPeers⟩ := @ih _ (h.kickConnection entry.1) last hRest hStay
        rw [Nat.add_sub_cancel]
        refine ⟨hAgrees, hPeers.trans ?_⟩
        show (m.acceptConnectingPeers.filter _).filter _ = _
        rw [List.filter_filter, List.take_succ_cons]
        apply List.filter_congr
        intro other _
        by_cases hSame : other.1 = entry.1
        · simp [hSame, keys]
        · have hOther : equivalent other.1 entry.1 = false := by
            rw [← Bool.not_eq_true, SocketAddr.equivalent_iff]
            exact hSame
          simp [hSame, hOther, keys]
      · have hFilter : (entry :: rest).filter (fun entry => isUnprotected now protection entry.2) =
            rest.filter (fun entry => isUnprotected now protection entry.2) :=
          List.filter_cons_of_neg hUnprotected
        rw [if_neg hUnprotected, hFilter]
        exact ih h hRest (fun other hOther => hMem other (List.mem_cons_of_mem _ hOther))

/-- The connections a kick round takes. -/
def kicked (m : UploadConnections) (now : Nat) (limits : UploadLimits) (desirable protection : Nat) :
    OrderedMap SocketAddr PeerUploadInfo :=
  if limits.maxConnectPeers < 0 ∨ limits.speedLimitInKBps < 0 ∨ desirable = 0 then []
  else (m.unprotected now protection).take (m.excess limits)

theorem kicked_sublist (m : UploadConnections) (now : Nat) (limits : UploadLimits)
    (desirable protection : Nat) :
    (m.kicked now limits desirable protection).Sublist m.acceptConnectingPeers := by
  unfold kicked
  split
  · exact List.nil_sublist _
  · exact (List.take_sublist _ _).trans List.filter_sublist

theorem Agrees.withSpeedsRead (h : m.Agrees) : m.withSpeedsRead now = m := by
  have hSame : (m.acceptConnectingPeers.map fun entry =>
      (entry.1, { entry.2 with speedInfo := entry.2.speedInfo.getSpeedInfo now })) =
        m.acceptConnectingPeers := by
    apply (List.map_congr_left _).trans (List.map_id _)
    intro entry hEntry
    rw [(h.idle entry hEntry).getSpeedInfo]
    rfl
  unfold UploadConnections.withSpeedsRead
  rw [hSame]

theorem Agrees.kickUploadConnectionMap (h : m.Agrees) :
    m.kickUploadConnectionMap now = m.acceptConnectingPeers.map fun entry => (0, entry.1) := by
  have hZero : (m.acceptConnectingPeers.map fun entry =>
      ((entry.2.speedInfo.getSpeedInfo now).nowUploadSpeed, entry.1)) =
        m.acceptConnectingPeers.map fun entry => (0, entry.1) := by
    apply List.map_congr_left
    intro entry hEntry
    rw [(h.idle entry hEntry).getSpeedInfo, (h.idle entry hEntry).2]
  unfold UploadConnections.kickUploadConnectionMap
  rw [hZero]
  apply List.Pairwise.insertionSort_eq
  apply List.pairwise_map.mpr
  exact List.pairwise_of_forall fun _ _ => Nat.le_refl 0

/-- A kick round takes the connections of `kicked` and no others. -/
theorem Agrees.kickBadConnections (h : m.Agrees) (limits : UploadLimits)
    (desirable protection : Nat) :
    (m.kickBadConnections now limits desirable protection).Agrees ∧
    (m.kickBadConnections now limits desirable protection).acceptConnectingPeers =
      m.acceptConnectingPeers.filter fun entry =>
        entry.1 ∉ keys (m.kicked now limits desirable protection) := by
  have hNone : m.acceptConnectingPeers = m.acceptConnectingPeers.filter fun entry =>
      decide (entry.1 ∉ keys ([] : OrderedMap SocketAddr PeerUploadInfo)) := by
    simp [keys]
  unfold UploadConnections.kickBadConnections kicked
  by_cases hLimits : limits.maxConnectPeers < 0 ∨ limits.speedLimitInKBps < 0
  · rw [if_pos hLimits, if_pos (by tauto)]
    exact ⟨h, hNone⟩
  · have hMax : asUInt32 limits.maxConnectPeers = limits.maxConnectPeers.toNat :=
      asUInt32_of_nonneg (by omega) limits.maxConnectPeers_lt
    rw [if_neg hLimits, hMax, h.kickUploadConnectionMap, h.withSpeedsRead]
    by_cases hZero : desirable = 0
    · rw [if_pos (Or.inr (Or.inr hZero)), hZero]
      split
      · cases hEntries : m.acceptConnectingPeers with
        | nil => simp_all
        | cons entry rest =>
          rw [List.map_cons, UploadConnections.kickLoop, if_pos (Or.inr (Nat.le_refl 0))]
          exact ⟨h, hEntries ▸ hNone⟩
      · exact ⟨h, hNone⟩
    · have hKicks : ¬ (limits.maxConnectPeers < 0 ∨ limits.speedLimitInKBps < 0 ∨ desirable = 0) := by
        tauto
      rw [if_neg hKicks]
      split
      · exact h.kickLoop (Nat.pos_of_ne_zero hZero) h.connecting_distinct fun entry hEntry => hEntry
      · rename_i hFew
        have hExcess : m.excess limits = 0 := Nat.sub_eq_zero_of_le (Nat.not_lt.mp hFew)
        rw [hExcess, List.take_zero]
        exact ⟨h, hNone⟩

/-- Entries of an agreeing map with one key are one. -/
theorem Agrees.eq_of_key (h : m.Agrees) {entry other : SocketAddr × PeerUploadInfo}
    (hEntry : entry ∈ m.acceptConnectingPeers) (hOther : other ∈ m.acceptConnectingPeers)
    (hKey : entry.1 = other.1) : entry = other := by
  have hFind := (find?_eq_some SocketAddr.eq_of_equivalent h.connecting_distinct).mpr hEntry
  have hFind' := (find?_eq_some SocketAddr.eq_of_equivalent h.connecting_distinct).mpr hOther
  rw [hKey, hFind', Option.some.injEq] at hFind
  exact Prod.ext hKey hFind.symm

/-- Taking a part of the connections leaves the others. -/
theorem Agrees.mem_rest_iff (h : m.Agrees) {taken : OrderedMap SocketAddr PeerUploadInfo}
    (hTaken : taken.Sublist m.acceptConnectingPeers) {entry : SocketAddr × PeerUploadInfo} :
    entry ∈ m.acceptConnectingPeers.filter (fun entry => entry.1 ∉ keys taken) ↔
      entry ∈ m.acceptConnectingPeers ∧ entry ∉ taken := by
  rw [List.mem_filter, decide_eq_true_eq]
  constructor
  · rintro ⟨hEntry, hKey⟩
    exact ⟨hEntry, fun hMem => hKey (List.mem_map_of_mem hMem)⟩
  · rintro ⟨hEntry, hMem⟩
    refine ⟨hEntry, fun hKey => ?_⟩
    obtain ⟨other, hOther, hSame⟩ := List.mem_map.mp hKey
    exact hMem (h.eq_of_key hEntry (hTaken.subset hOther) hSame.symm ▸ hOther)

theorem Agrees.nodup (h : m.Agrees) : m.acceptConnectingPeers.Nodup :=
  List.Nodup.of_map Prod.fst h.connecting_distinct.nodup_keys

theorem Agrees.length_rest (h : m.Agrees) {taken : OrderedMap SocketAddr PeerUploadInfo}
    (hTaken : taken.Sublist m.acceptConnectingPeers) :
    taken.length + (m.acceptConnectingPeers.filter fun entry => entry.1 ∉ keys taken).length =
      m.acceptConnectingPeers.length := by
  have hPerm : (taken ++ m.acceptConnectingPeers.filter fun entry => entry.1 ∉ keys taken).Perm
      m.acceptConnectingPeers := by
    apply (List.perm_ext_iff_of_nodup _ h.nodup).mpr
    · intro entry
      rw [List.mem_append, h.mem_rest_iff hTaken]
      constructor
      · rintro (hMem | ⟨hEntry, -⟩)
        · exact hTaken.subset hMem
        · exact hEntry
      · intro hEntry
        by_cases hMem : entry ∈ taken
        · exact Or.inl hMem
        · exact Or.inr ⟨hEntry, hMem⟩
    · apply List.nodup_append.mpr
      refine ⟨h.nodup.sublist hTaken, h.nodup.filter _, ?_⟩
      rintro entry hMem other hOther rfl
      exact ((h.mem_rest_iff hTaken).mp hOther).2 hMem
  rw [← hPerm.length_eq, List.length_append]

/-- A kick round keeps its promise exactly when the order of addresses fits. -/
theorem Agrees.kickPromise_iff (h : m.Agrees) (limits : UploadLimits) (desirable protection : Nat) :
    KickPromise now limits desirable protection m
      (m.kickBadConnections now limits desirable protection) ↔
        KickFits now limits desirable protection m := by
  have hTaken := kicked_sublist m now limits desirable protection
  have hAfter : (m.kickBadConnections now limits desirable protection).acceptConnectingPeers = _ :=
    (h.kickBadConnections limits desirable protection).2
  have hMem : ∀ entry, entry ∈ (m.kickBadConnections now limits desirable protection).acceptConnectingPeers ↔
      entry ∈ m.acceptConnectingPeers ∧ entry ∉ m.kicked now limits desirable protection := by
    intro entry
    rw [hAfter]
    exact h.mem_rest_iff hTaken
  have hLength := h.length_rest hTaken
  rw [← hAfter] at hLength
  have hUnprotected : ∀ entry, entry ∈ m.unprotected now protection ↔
      entry ∈ m.acceptConnectingPeers ∧ isUnprotected now protection entry.2 = true :=
    fun entry => List.mem_filter
  generalize m.kickBadConnections now limits desirable protection = m' at hMem hLength ⊢
  unfold KickFits
  by_cases hLimits : limits.maxConnectPeers < 0 ∨ limits.speedLimitInKBps < 0
  · have hKicked : m.kicked now limits desirable protection = [] := if_pos (by tauto)
    rw [hKicked, List.length_nil, Nat.zero_add] at hLength
    simp only [hKicked, List.not_mem_nil, not_false_eq_true, and_true] at hMem
    rw [if_pos hLimits]
    constructor
    · intro hPromise
      rw [← hLength]
      apply hPromise.bound.imp_right
      intro hAll entry hEntry
      obtain ⟨hHere, hTrue⟩ := (hUnprotected entry).mp hEntry
      apply (hAll entry ((hMem entry).mpr hHere)).resolve_left
      rw [hTrue]
      exact Bool.noConfusion
    · intro hFits
      refine ⟨?_, by omega, ?_⟩
      · rw [hLength]
        apply hFits.imp_right
        intro hAll entry hEntry
        by_cases hTrue : isUnprotected now protection entry.2 = true
        · exact Or.inr (hAll entry ((hUnprotected entry).mpr ⟨(hMem entry).mp hEntry, hTrue⟩))
        · exact Or.inl (Bool.eq_false_iff.mpr hTrue)
      · intro entry hEntry hGone
        exact absurd ((hMem entry).mpr hEntry) hGone
  · rw [if_neg hLimits]
    by_cases hZero : desirable = 0
    · have hKicked : m.kicked now limits desirable protection = [] := if_pos (by tauto)
      rw [hKicked, List.length_nil, Nat.zero_add] at hLength
      simp only [hKicked, List.not_mem_nil, not_false_eq_true, and_true] at hMem
      refine iff_of_true ⟨Or.inr ?_, by omega, ?_⟩ (Or.inl hZero)
      · intro entry _
        rw [hZero, Nat.zero_mul]
        exact Or.inr (Nat.zero_le _)
      · intro entry hEntry hGone
        exact absurd ((hMem entry).mpr hEntry) hGone
    · have hKicked : m.kicked now limits desirable protection =
          (m.unprotected now protection).take (m.excess limits) := if_neg (by tauto)
      rw [hKicked] at hLength hMem
      have hNodup : (m.unprotected now protection).Nodup := h.nodup.filter _
      have hSplit : ∀ entry, entry ∈ m.unprotected now protection →
          (entry ∉ (m.unprotected now protection).take (m.excess limits) ↔
            entry ∈ (m.unprotected now protection).drop (m.excess limits)) := by
        intro entry hEntry
        have hApart := List.disjoint_take_drop hNodup (Nat.le_refl (m.excess limits))
        rw [← List.take_append_drop (m.excess limits) (m.unprotected now protection),
          List.mem_append] at hEntry
        exact ⟨hEntry.resolve_left, fun hDrop hTake => hApart hTake hDrop⟩
      have hTakeLength := List.length_take (i := m.excess limits) (l := m.unprotected now protection)
      constructor
      · intro hPromise
        refine Or.inr fun entry hEntry other hOther => ?_
        obtain ⟨hOtherHere, hTrue⟩ := (hUnprotected other).mp (List.mem_of_mem_drop hOther)
        have hEntryHere := ((hUnprotected entry).mp (List.mem_of_mem_take hEntry)).1
        apply hPromise.slowest entry hEntryHere
        · exact fun hStay => ((hMem entry).mp hStay).2 hEntry
        · exact (hMem other).mpr ⟨hOtherHere, (hSplit other (List.mem_of_mem_drop hOther)).mpr hOther⟩
        · exact hTrue
      · intro hFits
        refine ⟨?_, by omega, ?_⟩
        · by_cases hEnough : m.excess limits ≤ (m.unprotected now protection).length
          · left
            have hExcess : m.acceptConnectingPeers.length ≤
                limits.maxConnectPeers.toNat + m.excess limits := by
              unfold excess
              omega
            omega
          · right
            intro entry hEntry
            left
            rw [List.take_of_length_le (by omega)] at hMem
            obtain ⟨hHere, hStays⟩ := (hMem entry).mp hEntry
            by_contra hTrue
            exact hStays ((hUnprotected entry).mpr ⟨hHere, Bool.not_eq_false _ ▸ hTrue⟩)
        · intro entry hEntry hGone other hOther hTrue
          have hTake : entry ∈ (m.unprotected now protection).take (m.excess limits) := by
            by_contra hStays
            exact hGone ((hMem entry).mpr ⟨hEntry, hStays⟩)
          obtain ⟨hOtherHere, hStays⟩ := (hMem other).mp hOther
          exact hFits.resolve_left hZero entry hTake other
            ((hSplit other ((hUnprotected other).mpr ⟨hOtherHere, hTrue⟩)).mp hStays)

end KickBad

end UploadConnections

namespace UploadDesk

open UploadConnections

/-- One thing that happens. -/
def Step (s : UploadDesk) (a : UploadDeskAction) (t : UploadDesk) : Prop := s.next a = t

theorem agrees_next {s : UploadDesk} (h : s.connections.Agrees) (a : UploadDeskAction) :
    (s.next a).connections.Agrees := by
  cases a with
  | elapse => exact h
  | connect => exact h.onConnectPacket ..
  | requestSubPiece => exact (h.onRequestSubPiecePacket ..).1
  | heartbeat => exact h.onHeartbeatPacket
  | reportSpeed => exact h.onReportSpeedPacket _
  | subPieceSent => exact h.onSubPieceSent _
  | kickBad => exact (h.kickBadConnections ..).1
  | kickTimedOut => exact h.kickTimedOutConnections
  | kickAll => exact agrees_empty
  | closeSession => exact h.kickConnection _

theorem agrees_of_run {guard : UploadDesk → UploadDeskAction → Prop} {s : UploadDesk}
    (run : Reaches Step guard start s) : s.connections.Agrees := by
  apply run.invariant (P := fun s => s.connections.Agrees) agrees_empty
  rintro x a y hAgrees - rfl
  exact agrees_next hAgrees a

/-- Requests are decided under a finite speed limit and at most `bound` uploads. -/
def UploadsLimited (bound : Nat) (_ : UploadDesk) : UploadDeskAction → Prop
  | .requestSubPiece _ limits _ _ =>
    0 ≤ limits.speedLimitInKBps ∧ 0 < limits.maxUploadPeers ∧ limits.maxUploadPeers ≤ bound
  | _ => True

theorem kickConnection_uploading_le (m : UploadConnections) (ep : SocketAddr) :
    (m.kickConnection ep).acceptUploadingPeers.length ≤ m.acceptUploadingPeers.length :=
  (erase_sublist _ _).length_le

theorem kickTimedOut_uploading_le (m : UploadConnections) (now : Nat) :
    (m.kickTimedOutConnections now).acceptUploadingPeers.length ≤ m.acceptUploadingPeers.length := by
  unfold kickTimedOutConnections
  generalize m.acceptConnectingPeers = entries
  induction entries generalizing m with
  | nil => exact Nat.le_refl _
  | cons entry rest ih =>
    apply Nat.le_trans (ih _)
    dsimp only
    split
    · exact kickConnection_uploading_le _ _
    · exact Nat.le_refl _

theorem kickLoop_uploading_le (m : UploadConnections) (now desirable protection need : Nat)
    (entries : List (Nat × SocketAddr)) :
    (kickLoop now desirable protection entries need m).acceptUploadingPeers.length ≤
      m.acceptUploadingPeers.length := by
  induction entries generalizing m need with
  | nil => exact Nat.le_refl _
  | cons entry rest ih =>
    unfold kickLoop
    split
    · exact Nat.le_refl _
    · dsimp only
      split
      · exact Nat.le_trans (ih _ _) (kickConnection_uploading_le m entry.2)
      · exact ih _ _

/-- Only a request can add an upload. -/
theorem uploading_le_next {s : UploadDesk} (h : s.connections.Agrees) {bound : Nat}
    {a : UploadDeskAction} (hLimited : UploadsLimited bound s a)
    (hLe : s.connections.acceptUploadingPeers.length ≤ bound + 4) :
    (s.next a).connections.acceptUploadingPeers.length ≤ bound + 4 := by
  cases a with
  | elapse => exact hLe
  | connect ep limits isWatchingLive ipPoolSize inst isLive =>
    show (s.connections.onConnectPacket _ _ _ _ _ _ _).acceptUploadingPeers.length ≤ _
    unfold onConnectPacket
    split
    · exact hLe
    · split
      · exact hLe
      · dsimp only
        split <;> exact hLe
  | requestSubPiece ep limits served id =>
    obtain ⟨hSpeed, hPos, hBound⟩ := hLimited
    apply Nat.le_trans ((h.onRequestSubPiecePacket served id).2 hSpeed hPos)
    exact Nat.max_le.mpr ⟨hLe, by omega⟩
  | heartbeat ep =>
    show (s.connections.onHeartbeatPacket _ _).acceptUploadingPeers.length ≤ _
    unfold onHeartbeatPacket
    split <;> exact hLe
  | reportSpeed ep speed =>
    show (s.connections.onReportSpeedPacket _ _ _).acceptUploadingPeers.length ≤ _
    unfold onReportSpeedPacket
    split
    · exact hLe
    · dsimp only
      split <;> exact hLe
  | subPieceSent ep bytes =>
    show (s.connections.onSubPieceSent _ _ _).acceptUploadingPeers.length ≤ _
    unfold onSubPieceSent
    split <;> exact hLe
  | kickBad limits desirable protection =>
    show (s.connections.kickBadConnections _ _ _ _).acceptUploadingPeers.length ≤ _
    unfold kickBadConnections
    split
    · exact hLe
    · split
      · exact Nat.le_trans (kickLoop_uploading_le _ _ _ _ _ _) hLe
      · exact hLe
  | kickTimedOut => exact Nat.le_trans (kickTimedOut_uploading_le _ _) hLe
  | kickAll => exact Nat.zero_le _
  | closeSession ep => exact Nat.le_trans (kickConnection_uploading_le _ ep) hLe

theorem uploading_le_of_run {bound : Nat} {s : UploadDesk}
    (run : Reaches Step (UploadsLimited bound) start s) :
    s.connections.acceptUploadingPeers.length ≤ bound + 4 := by
  have hBoth : s.connections.Agrees ∧ s.connections.acceptUploadingPeers.length ≤ bound + 4 := by
    apply run.invariant (P := fun s => s.connections.Agrees ∧
      s.connections.acceptUploadingPeers.length ≤ bound + 4) ⟨agrees_empty, Nat.zero_le _⟩
    rintro x a y ⟨hAgrees, hLe⟩ hLimited rfl
    exact ⟨agrees_next hAgrees a, uploading_le_next hAgrees hLimited hLe⟩
  exact hBoth.2

/-- The bookkeeping of a state: the containers agree, a request under a finite limit
adds an upload only up to four above it, and a kick round keeps its promise exactly
when the first unprotected connections are none of the faster ones. -/
structure Bookkeeping (s : UploadDesk) : Prop where
  uploading_subset : ∀ ep, s.connections.isPeerAcceptedForUpload ep = true →
    s.connections.isPeerConnected ep = true
  speed_keys : ∀ ep, ep ∈ s.connections.uploadingPeersSpeed.keys ↔
    ep ∈ s.connections.acceptUploadingPeers.keys
  request : ∀ ep (limits : UploadLimits) served id, 0 ≤ limits.speedLimitInKBps →
    0 < limits.maxUploadPeers →
      (s.next (.requestSubPiece ep limits served id)).connections.acceptUploadingPeers.length ≤
        max s.connections.acceptUploadingPeers.length (limits.maxUploadPeers.toNat + 4)
  kick : ∀ limits desirable protection,
    KickPromise s.now limits desirable protection s.connections
      (s.next (.kickBad limits desirable protection)).connections ↔
        KickFits s.now limits desirable protection s.connections

/-- Every reachable state is booked so, and while the limits stay below a bound there
are at most four uploads more than it. -/
theorem bookkeeping_of_run {s : UploadDesk} (run : Reaches Step (fun _ _ => True) start s) :
    s.Bookkeeping ∧ ∀ bound t, Reaches Step (UploadsLimited bound) start t →
      t.connections.acceptUploadingPeers.length ≤ bound + 4 := by
  have hAgrees := agrees_of_run run
  refine ⟨⟨?_, hAgrees.speed_keys, ?_, ?_⟩, fun bound t => uploading_le_of_run⟩
  · intro ep hUpload
    exact isPeerConnected_iff.mpr
      (hAgrees.uploading_subset ep (isPeerAcceptedForUpload_iff.mp hUpload))
  · intro ep limits served id hSpeed hPos
    exact (hAgrees.onRequestSubPiecePacket served id).2 hSpeed hPos
  · exact fun limits desirable protection => hAgrees.kickPromise_iff limits desirable protection

section Samples

/-- One connection, one upload, and no speed limit worth the name. -/
def oneConnection : UploadLimits where
  speedLimitInKBps := 100
  maxConnectPeers := 1
  maxUploadPeers := 1
  uploadDataSpeed := 0

/-- Two peers connect, the first is sent 100 KB, and the kick round comes two seconds later. -/
def fastPeerFirst : List UploadDeskAction :=
  [.connect ⟨1, 1⟩ oneConnection false 0 (some false) false,
    .connect ⟨2, 1⟩ oneConnection false 0 (some false) false,
    .elapse 25000,
    .requestSubPiece ⟨1, 1⟩ oneConnection true 7,
    .subPieceSent ⟨1, 1⟩ 102400,
    .elapse 2000]

theorem bookkeeping_of_fastPeerFirst :
    (fastPeerFirst.foldl next start).Bookkeeping ∧
      ∀ bound t, Reaches Step (UploadsLimited bound) start t →
        t.connections.acceptUploadingPeers.length ≤ bound + 4 :=
  bookkeeping_of_run (.of_foldl next start fastPeerFirst)

/-- The round kicks the peer that gets 20 KB a second and keeps the one that gets nothing. -/
theorem fastPeerFirst_kicked :
    ∃ s, Reaches Step (fun _ _ => True) start s ∧
      ¬ KickPromise s.now oneConnection 8 20 s.connections
        (s.next (.kickBad oneConnection 8 20)).connections := by
  have run := Reaches.of_foldl next start fastPeerFirst
  refine ⟨_, run, ?_⟩
  intro hPromise
  have hFits := ((agrees_of_run run).kickPromise_iff oneConnection 8 20).mp hPromise
  revert hFits
  unfold KickFits
  decide +kernel

end Samples

end UploadDesk

end P2P
