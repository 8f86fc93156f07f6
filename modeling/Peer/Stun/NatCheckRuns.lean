import Mathlib.Tactic
import Peer.Stun.NatCheck

/-! Every check comes to one result, as long as each reply that arrives is to a
request of the present step. Any other reply breaks the check it meets. -/
namespace Stun

open Basis

/-- The kind of packet that the state waits for. -/
def CheckState.action : CheckState → Option PacketAction
  | .isNatChecking => some .natCheckSameRoute
  | .fullCornChecking => some .natCheckDiffIp
  | .symmetricChecking => some .natCheckSameRoute
  | .restrictedChecking => some .natCheckDiffPort
  | .upnpChecking => some .natCheckForUpnp
  | .idle | .complete => none

namespace NatCheckClient

variable {c : NatCheckClient} {a : PacketAction}

/-- A bound on the ticks until the result: four for each request still to come. -/
def remaining (c : NatCheckClient) : Nat :=
  let left := c.natCheckServerList.length - c.serverIter
  match c.checkState with
  | .isNatChecking => (4 - c.times) + 4 * (left + 3)
  | .fullCornChecking => (4 - c.times) + 4 * (left + 2)
  | .symmetricChecking => (4 - c.times) + 4 * (left + 1)
  | _ => 4 - c.times

theorem remaining_pos (h : c.times ≤ 3) : 0 < c.remaining := by
  simp only [remaining]
  split <;> omega

theorem natCheckpacket_of_action (h : c.checkState.action = some a) :
    ∃ request, c.natCheckpacket = some request ∧ request.action = a := by
  unfold natCheckpacket
  cases hState : c.checkState with
  | idle | complete => simp [hState, CheckState.action] at h
  | _ =>
      simp only [hState, CheckState.action, Option.some.injEq] at h
      exact ⟨_, rfl, h⟩

/-- The client goes on with one more request, of the kind its new state waits for. -/
structure Asks (c : NatCheckClient) (spent : Nat) (moved : NatCheckClient × List Effect) :
    Prop where
  request : ∃ request a, moved.2 = [.doSendPacket request] ∧ request.action = a ∧
    moved.1.checkState.action = some a
  timer : moved.1.timer = true
  natTimer : moved.1.natTimer = c.natTimer
  servers : moved.1.natCheckServerList = c.natCheckServerList
  iter_le : moved.1.serverIter ≤ moved.1.natCheckServerList.length
  times_le : moved.1.times ≤ 3
  upnp_iff : moved.1.checkState = .upnpChecking ↔ c.checkState = .upnpChecking
  remaining_le : moved.1.remaining + spent ≤ c.remaining

/-- The client comes to a result, of the check that goes on. -/
structure Ends (c : NatCheckClient) (moved : NatCheckClient × List Effect) : Prop where
  report : if c.checkState = .upnpChecking then
      ∃ port, moved.2 = [.onUpnpCheck port] ∨
        moved.2 = [.onUpnpCheck port, .writeConfigAfterCheck .typeFullConeNat]
    else ∃ natType, moved.2 = [.onGetNATType natType, .writeConfigAfterCheck natType]
  timer : moved.1.timer = false
  natTimer : moved.1.natTimer = c.natTimer
  iter_le : moved.1.serverIter ≤ moved.1.natCheckServerList.length
  times_le : moved.1.times ≤ 3
  state : moved.1.checkState = .complete ∨ moved.1.checkState = .isNatChecking ∨
    moved.1.checkState = .symmetricChecking

/-- Sending from a state that waits for a packet. -/
theorem asks_of_send {c c' : NatCheckClient} {spent : Nat}
    (hAction : c'.checkState.action = some a) (hNatTimer : c'.natTimer = c.natTimer)
    (hServers : c'.natCheckServerList = c.natCheckServerList)
    (hIter : c'.serverIter ≤ c'.natCheckServerList.length) (hTimes : c'.times ≤ 3)
    (hUpnp : c'.checkState = .upnpChecking ↔ c.checkState = .upnpChecking)
    (hRemaining : c'.remaining + spent ≤ c.remaining) :
    Asks c spent c'.doSendNatCheckpacket := by
  obtain ⟨request, hRequest, hKind⟩ := natCheckpacket_of_action hAction
  constructor
  · exact ⟨request, a, by simp [doSendNatCheckpacket, hRequest], hKind, hAction⟩
  · rfl
  · exact hNatTimer
  · exact hServers
  · exact hIter
  · exact hTimes
  · exact hUpnp
  · exact hRemaining

theorem ends_completeWith {c c' : NatCheckClient} (hState : c.checkState ≠ .upnpChecking)
    (hTimer : c'.timer = false) (hNatTimer : c'.natTimer = c.natTimer)
    (hIter : c'.serverIter ≤ c'.natCheckServerList.length) (hTimes : c'.times ≤ 3)
    (natType : NatType) : Ends c (c'.completeWith natType) := by
  constructor
  · rw [if_neg hState]
    exact ⟨natType, rfl⟩
  · exact hTimer
  · exact hNatTimer
  · exact hIter
  · exact hTimes
  · exact .inl rfl

theorem ends_giveUp {c c' : NatCheckClient} (hState : c.checkState ≠ .upnpChecking)
    (hTimer : c'.timer = false) (hNatTimer : c'.natTimer = c.natTimer)
    (hIter : c'.serverIter ≤ c'.natCheckServerList.length) (hTimes : c'.times ≤ 3)
    (hLast : c'.checkState = .isNatChecking ∨ c'.checkState = .symmetricChecking) :
    Ends c c'.giveUp := by
  constructor
  · rw [if_neg hState]
    exact ⟨.typeError, rfl⟩
  · exact hTimer
  · exact hNatTimer
  · exact hIter
  · exact hTimes
  · exact .inr hLast

/-- What a tick comes to: the request again, the next one, or a result. -/
def TimesOut (c : NatCheckClient) (result : Option (NatCheckClient × List Effect)) : Prop :=
  ∃ moved, result = some moved ∧
    ((Asks c 1 moved ∧ (c.times < 3 → moved.1.checkState = c.checkState)) ∨
      (Ends c moved ∧ ¬ c.times < 3))

theorem TimesOut.of_ends {moved : NatCheckClient × List Effect} (hLast : ¬ c.times < 3)
    (h : Ends c moved) : TimesOut c (some moved) :=
  ⟨moved, rfl, .inr ⟨h, hLast⟩⟩

/-- The next server is asked. -/
theorem TimesOut.of_server {servers : List String} {i : Nat} (hLast : ¬ c.times < 3)
    (hLt : i < servers.length) {ask : String → NatCheckClient × List Effect}
    (h : ∀ server, Asks c 1 (ask server)) : TimesOut c (servers[i]?.map ask) := by
  rw [List.getElem?_eq_getElem hLt]
  exact ⟨_, rfl, .inl ⟨h _, fun hTimes => absurd hTimes hLast⟩⟩

theorem timesOut_onHandleTimeOut (hAction : c.checkState.action = some a) (hTimes : c.times ≤ 3)
    (hIter : c.serverIter ≤ c.natCheckServerList.length) : TimesOut c c.onHandleTimeOut := by
  unfold onHandleTimeOut
  by_cases hAgain : c.times < 3
  · rw [if_pos hAgain]
    refine ⟨_, rfl, .inl ⟨?_, fun _ => rfl⟩⟩
    refine asks_of_send (a := a) hAction rfl rfl hIter ?_ Iff.rfl ?_
    · show c.times + 1 ≤ 3
      omega
    · simp only [remaining]
      split <;> omega
  rw [if_neg hAgain]
  cases hState : c.checkState with
  | idle | complete => simp [hState, CheckState.action] at hAction
  | isNatChecking =>
      simp only []
      split
      · rename_i hLeft
        have hLt : c.serverIter < c.natCheckServerList.length := by omega
        apply TimesOut.of_server hAgain hLt
        intro server
        refine asks_of_send (a := .natCheckSameRoute) rfl rfl rfl hLt (Nat.zero_le 3) ?_ ?_
        · simp [hState]
        · simp only [remaining, hState]
          omega
      · apply TimesOut.of_ends hAgain
        exact ends_giveUp (by simp [hState]) rfl rfl hIter hTimes (.inl rfl)
  | fullCornChecking =>
      simp only []
      split
      · split
        · rename_i hLeft
          have hLt : c.serverIter < c.natCheckServerList.length := by omega
          apply TimesOut.of_server hAgain hLt
          intro server
          refine asks_of_send (a := .natCheckSameRoute) rfl rfl rfl hLt (Nat.zero_le 3) ?_ ?_
          · simp [hState]
          · simp only [remaining, hState]
            omega
        · apply TimesOut.of_ends hAgain
          exact ends_giveUp (by simp [hState]) rfl rfl hIter (Nat.zero_le 3) (.inr rfl)
      · apply TimesOut.of_ends hAgain
        apply ends_completeWith
        · simp [hState]
        · rfl
        · rfl
        · exact hIter
        · exact hTimes
  | symmetricChecking =>
      simp only []
      split
      · apply TimesOut.of_ends hAgain
        exact ends_giveUp (by simp [hState]) rfl rfl hIter hTimes (.inr rfl)
      · rename_i hLeft
        have hLt : c.serverIter < c.natCheckServerList.length := by omega
        apply TimesOut.of_server hAgain hLt
        intro server
        refine asks_of_send (a := .natCheckSameRoute) rfl rfl rfl hLt (Nat.zero_le 3) ?_ ?_
        · simp [hState]
        · simp only [remaining, hState]
          omega
  | restrictedChecking =>
      apply TimesOut.of_ends hAgain
      apply ends_completeWith
      · simp [hState]
      · rfl
      · rfl
      · exact hIter
      · exact hTimes
  | upnpChecking =>
      apply TimesOut.of_ends hAgain
      constructor
      · rw [if_pos hState]
        exact ⟨0, .inl rfl⟩
      · rfl
      · rfl
      · exact hIter
      · exact hTimes
      · exact .inl rfl

/-- A reply of the kind that is waited for brings the next request or the result. -/
theorem onUdpReceive_cases {packet : ServerPacket}
    (hAction : c.checkState.action = some packet.action)
    (hIter : c.serverIter ≤ c.natCheckServerList.length) :
    Asks c 0 (c.onUdpReceive packet) ∨ Ends c (c.onUdpReceive packet) := by
  cases packet with
  | natCheckSameRoute detectedIp detectUdpPort =>
      cases hState : c.checkState with
      | isNatChecking =>
          left
          simp only [onUdpReceive, onReceiveNatCheckSameRoutePacket, hState]
          refine asks_of_send (a := .natCheckDiffIp) rfl rfl rfl hIter (Nat.zero_le 3) ?_ ?_
          · simp [hState]
          · simp only [remaining, hState]
            omega
      | symmetricChecking =>
          simp only [onUdpReceive, onReceiveNatCheckSameRoutePacket, hState]
          split
          · right
            apply ends_completeWith
            · simp [hState]
            · rfl
            · rfl
            · exact hIter
            · exact Nat.zero_le 3
          · left
            refine asks_of_send (a := .natCheckDiffPort) rfl rfl rfl hIter (Nat.zero_le 3) ?_ ?_
            · simp [hState]
            · simp only [remaining, hState]
              omega
      | _ => simp [hState, CheckState.action, ServerPacket.action] at hAction
  | natCheckDiffIp | natCheckDiffPort =>
      have hNot : c.checkState ≠ .upnpChecking := by
        intro hState
        simp [hState, CheckState.action, ServerPacket.action] at hAction
      right
      apply ends_completeWith
      · exact hNot
      · rfl
      · rfl
      · exact hIter
      · exact Nat.zero_le 3
  | natCheckForUpnp sendUdpUpnpPort =>
      have hState : c.checkState = .upnpChecking := by
        cases hState : c.checkState <;>
          simp [hState, CheckState.action, ServerPacket.action] at hAction ⊢
      right
      constructor
      · rw [if_pos hState]
        exact ⟨_, .inr rfl⟩
      · rfl
      · rfl
      · exact hIter
      · exact Nat.zero_le 3
      · exact .inl rfl

/-- A packet while a check goes on moves the state or stops the timer. -/
theorem onUdpReceive_ne (hAction : c.checkState.action = some a) (packet : ServerPacket)
    (hTimer : c.timer = true) : (c.onUdpReceive packet).1.checkState ≠ c.checkState ∨
      (c.onUdpReceive packet).1.timer ≠ c.timer := by
  have hNot : c.checkState ≠ .complete := by
    intro hState
    simp [hState, CheckState.action] at hAction
  cases packet with
  | natCheckSameRoute detectedIp detectUdpPort =>
      simp only [onUdpReceive, onReceiveNatCheckSameRoutePacket]
      cases hState : c.checkState with
      | isNatChecking => simp [doSendNatCheckpacket]
      | symmetricChecking =>
          left
          simp only []
          split <;> simp [doSendNatCheckpacket, completeWith]
      | _ => simp [hTimer]
  | natCheckDiffIp | natCheckDiffPort | natCheckForUpnp => exact .inl hNot.symm

/-- The first request, or the saved type without a check. -/
theorem startCheck_cases {around : Surroundings} (hServers : around.natCheckServers ≠ [])
    (hTimes : c.times ≤ 3) : ∃ c', c'.natTimer = false ∧ c'.timer = c.timer ∧
      c'.serverIter ≤ c'.natCheckServerList.length ∧ c'.times ≤ 3 ∧
      ((∃ natType, c.startCheck around = some (c', [.onGetNATType natType]) ∧
          c'.checkState = c.checkState) ∨
        (c.startCheck around = some c'.doSendNatCheckpacket ∧
          c'.checkState = .isNatChecking ∧
          c'.remaining ≤ 4 * (c'.natCheckServerList.length + 3))) := by
  cases hList : around.natCheckServers with
  | nil => exact absurd hList hServers
  | cons server rest =>
      simp only [startCheck, hList, List.isEmpty_cons, Bool.false_eq_true, if_false,
        List.getElem?_cons_zero, Option.map_some]
      have hIter : 1 ≤ (server :: rest).length := by simp
      split
      · refine ⟨{ c with
          natTimer := false
          natCheckServerList := server :: rest
          serverIter := 1
          endpoint := ⟨server, 13478⟩
          localIps := around.localIps
          localFirstIp := around.localFirstIp
          localPort := around.localUdpPort
          checkState := .isNatChecking }, rfl, rfl, hIter, hTimes, .inr ⟨rfl, rfl, ?_⟩⟩
        simp only [remaining]
        omega
      · refine ⟨_, ?_, ?_, ?_, ?_, .inl ⟨_, rfl, rfl⟩⟩
        · rfl
        · rfl
        · exact hIter
        · exact hTimes

end NatCheckClient

namespace System

variable {s t : System}

/-- The request belongs to the present step of a check. -/
def Belongs (s : System) (request : Nat) : Prop :=
  s.presentFrom ≤ request

/-- Replies are to requests of the present step, or come too late to do harm; a
UPnP check begins when no other one goes on. -/
def Fits (s : System) : Event → Prop
  | .udpRecv request packet => s.Belongs request ∨
      (packet.action = .natCheckSameRoute ∧ s.client.checkState = .complete)
  | .evokeNatcheck localUdpPort innerUdpPort exUdpPort =>
      s.Ignored localUdpPort innerUdpPort exUdpPort ∨ s.client.checkState ≠ .upnpChecking
  | .natTimer _ | .timer => True

instance (s : System) (e : Event) : Decidable (s.Fits e) :=
  match e with
  | .udpRecv request packet =>
      inferInstanceAs (Decidable (s.presentFrom ≤ request ∨
        (packet.action = .natCheckSameRoute ∧ s.client.checkState = .complete)))
  | .evokeNatcheck localUdpPort innerUdpPort exUdpPort =>
      inferInstanceAs (Decidable (s.Ignored localUdpPort innerUdpPort exUdpPort ∨
        s.client.checkState ≠ .upnpChecking))
  | .natTimer _ | .timer => inferInstanceAs (Decidable True)

/-- Every check has one result: never more than one, and while there is none the
timer runs and has ticked at most four times for each request the check can make. -/
structure OneResult (s : System) : Prop where
  natChecks_le : s.natChecks ≤ 1
  natReports_le : s.natReports ≤ s.natChecks
  nat_going : s.natReports < s.natChecks → s.client.timer = true ∧
    s.ticks < 4 * (s.client.natCheckServerList.length + 3)
  upnpReports_le : s.upnpReports ≤ s.upnpChecks
  upnpChecks_le : s.upnpChecks ≤ s.upnpReports + 1
  upnp_going : s.upnpReports < s.upnpChecks → s.client.timer = true ∧
    s.ticks < 4 * (s.client.natCheckServerList.length + 3)

/-- What a check in any phase has. -/
structure Sound (s : System) : Prop where
  isRunning : s.stun.isRunning = true
  iter_le : s.client.serverIter ≤ s.client.natCheckServerList.length
  times_le : s.client.times ≤ 3

/-- The state `Start` leaves: the client as constructed, and its first timer runs. -/
structure Waiting (s : System) : Prop extends Sound s where
  checkState : s.client.checkState = .idle
  natTimer : s.client.natTimer = true
  timer : s.client.timer = false
  natCheckReturned : s.stun.natCheckReturned = false
  sent : s.sent = []
  natChecks : s.natChecks = 0
  natReports : s.natReports = 0
  upnpChecks : s.upnpChecks = 0
  upnpReports : s.upnpReports = 0

/-- A check goes on, of the NAT or of the ports of UPnP. -/
structure Going (upnp : Bool) (s : System) : Prop extends Sound s where
  natTimer : s.client.natTimer = false
  timer : s.client.timer = true
  upnp_iff : s.client.checkState = .upnpChecking ↔ upnp = true
  natCheckReturned : s.stun.natCheckReturned = upnp
  present : ∃ a, s.client.checkState.action = some a ∧
    ∀ i request, s.presentFrom ≤ i → s.sent[i]? = some request → request.action = a
  ticks_le : s.ticks + s.client.remaining ≤ 4 * (s.client.natCheckServerList.length + 3)
  natChecks : s.natChecks = 1
  natReports : s.natReports = upnp.toNat
  upnpChecks : s.upnpChecks = s.upnpReports + upnp.toNat

/-- No check goes on, and the NAT type is reported. -/
structure Settled (s : System) : Prop extends Sound s where
  natTimer : s.client.natTimer = false
  timer : s.client.timer = false
  state : s.client.checkState = .complete ∨ s.client.checkState = .isNatChecking ∨
    s.client.checkState = .symmetricChecking ∨ (s.client.checkState = .idle ∧ s.sent = [])
  natCheckReturned : s.stun.natCheckReturned = true
  present : s.sent.length ≤ s.presentFrom
  natChecks : s.natChecks = 1
  natReports : s.natReports = 1
  upnpChecks : s.upnpChecks = s.upnpReports

inductive Phase (s : System) : Prop where
  | waiting (h : s.Waiting)
  | going (upnp : Bool) (h : s.Going upnp)
  | settled (h : s.Settled)

/-- What no effect touches is as before. -/
theorem after_eq {β : Type} {f : System → β} (hEach : ∀ s effect, f (s.perform effect) = f s)
    (s : System) (moved : NatCheckClient × List Effect) :
    f (s.after moved) = f { s with client := moved.1 } := by
  obtain ⟨c, effects⟩ := moved
  show f (effects.foldl perform { s with client := c }) = f { s with client := c }
  generalize { s with client := c } = s
  induction effects generalizing s with
  | nil => rfl
  | cons effect rest ih => rw [List.foldl_cons, ih, hEach]

theorem after_ticks (s : System) (moved : NatCheckClient × List Effect) :
    (s.after moved).ticks = s.ticks :=
  after_eq (f := ticks) (fun _ effect => by cases effect <;> rfl) s moved

theorem after_client (s : System) (moved : NatCheckClient × List Effect) :
    (s.after moved).client = moved.1 :=
  after_eq (f := client) (fun _ effect => by cases effect <;> rfl) s moved

theorem Waiting.oneResult (h : s.Waiting) : s.OneResult := by
  constructor <;> simp [h.natChecks, h.natReports, h.upnpChecks, h.upnpReports]

theorem Going.ticks_lt {upnp : Bool} (h : s.Going upnp) :
    s.ticks < 4 * (s.client.natCheckServerList.length + 3) := by
  have hLe := h.ticks_le
  have hPos := NatCheckClient.remaining_pos h.times_le
  omega

theorem Going.oneResult {upnp : Bool} (h : s.Going upnp) : s.OneResult := by
  have hGoing := And.intro h.timer h.ticks_lt
  have hReports := h.natReports
  have hChecks := h.upnpChecks
  have hBool : upnp.toNat ≤ 1 := Bool.toNat_le upnp
  constructor
  · exact h.natChecks.le
  · rw [h.natChecks]
    omega
  · exact fun _ => hGoing
  · omega
  · omega
  · exact fun _ => hGoing

theorem Settled.oneResult (h : s.Settled) : s.OneResult := by
  constructor <;> simp [h.natChecks, h.natReports, h.upnpChecks]

theorem Phase.oneResult (h : s.Phase) : s.OneResult := by
  cases h with
  | waiting h => exact h.oneResult
  | going upnp h => exact h.oneResult
  | settled h => exact h.oneResult

/-- The next request of a check, or the same one again. -/
theorem Going.asks {upnp : Bool} (h : s.Going upnp) {spent from' : Nat}
    {moved : NatCheckClient × List Effect} (hAsks : s.client.Asks spent moved)
    (hFrom : from' = s.sent.length ∨
      (from' = s.presentFrom ∧ moved.1.checkState = s.client.checkState)) :
    Going upnp { s.after moved with presentFrom := from', ticks := s.ticks + spent } := by
  obtain ⟨⟨request, a, hSend, hKind, hAction⟩, hTimer, hNatTimer, hServers, hIter, hTimes,
    hUpnp, hRemaining⟩ := hAsks
  obtain ⟨c, effects⟩ := moved
  obtain rfl : effects = [.doSendPacket request] := hSend
  refine ⟨⟨h.isRunning, hIter, hTimes⟩, hNatTimer.trans h.natTimer, hTimer,
    hUpnp.trans h.upnp_iff, h.natCheckReturned, ⟨a, hAction, ?_⟩, ?_, h.natChecks, h.natReports,
    h.upnpChecks⟩
  · intro i sent hFrom' hSent
    show sent.action = a
    have hSent : (s.sent ++ [request])[i]? = some sent := hSent
    by_cases hLt : i < s.sent.length
    · rcases hFrom with hAll | ⟨hSame, hState⟩
      · have hGe : from' ≤ i := hFrom'
        omega
      · obtain ⟨a', hAction', hPresent⟩ := h.present
        have hState : c.checkState = s.client.checkState := hState
        have hEq : a = a' := by
          rw [hState, hAction'] at hAction
          exact (Option.some.inj hAction).symm
        rw [List.getElem?_append_left hLt] at hSent
        exact (hPresent i sent (hSame ▸ hFrom') hSent).trans hEq.symm
    · rw [List.getElem?_append_right (by omega)] at hSent
      have hOnly : sent ∈ [request] := List.mem_of_getElem? hSent
      rw [List.mem_singleton.mp hOnly]
      exact hKind
  · have hLe := h.ticks_le
    have hServers : c.natCheckServerList = s.client.natCheckServerList := hServers
    have hRemaining : c.remaining + spent ≤ s.client.remaining := hRemaining
    show s.ticks + spent + c.remaining ≤ 4 * (c.natCheckServerList.length + 3)
    rw [hServers]
    omega

/-- The result of a check. -/
theorem Going.ends {upnp : Bool} (h : s.Going upnp) {ticks : Nat}
    {moved : NatCheckClient × List Effect} (hEnds : s.client.Ends moved) :
    Settled { s.after moved with presentFrom := s.sent.length, ticks := ticks } := by
  obtain ⟨hReport, hTimer, hNatTimer, hIter, hTimes, hState⟩ := hEnds
  obtain ⟨c, effects⟩ := moved
  have hLast : c.checkState = .complete ∨ c.checkState = .isNatChecking ∨
      c.checkState = .symmetricChecking ∨ (c.checkState = .idle ∧ s.sent = []) :=
    hState.imp_right (Or.imp_right .inl)
  cases upnp with
  | false =>
      have hNot : s.client.checkState ≠ .upnpChecking := by
        intro hUpnp
        cases h.upnp_iff.mp hUpnp
      rw [if_neg hNot] at hReport
      obtain ⟨natType, hEffects⟩ := hReport
      obtain rfl : effects = [.onGetNATType natType, .writeConfigAfterCheck natType] := hEffects
      refine ⟨⟨?_, hIter, hTimes⟩, hNatTimer.trans h.natTimer, hTimer, hLast, ?_, le_rfl,
        h.natChecks, ?_, h.upnpChecks⟩
      · exact (StunModule.onGetNATType_isRunning _ _).trans h.isRunning
      · exact StunModule.onGetNATType_natCheckReturned _ _
      · show s.natReports + 1 = 1
        rw [h.natReports]
        rfl
  | true =>
      rw [if_pos (h.upnp_iff.mpr rfl)] at hReport
      obtain ⟨port, hEffects⟩ := hReport
      have hChecks : s.upnpChecks = s.upnpReports + 1 := h.upnpChecks
      have hRunning := (StunModule.onUpnpCheck_isRunning s.stun port).trans h.isRunning
      have hReturned := StunModule.onUpnpCheck_natCheckReturned h.natCheckReturned port
      rcases hEffects with hEffects | hEffects
      · obtain rfl : effects = _ := hEffects
        exact ⟨⟨hRunning, hIter, hTimes⟩, hNatTimer.trans h.natTimer, hTimer, hLast, hReturned,
          le_rfl, h.natChecks, h.natReports, hChecks⟩
      · obtain rfl : effects = _ := hEffects
        exact ⟨⟨hRunning, hIter, hTimes⟩, hNatTimer.trans h.natTimer, hTimer, hLast, hReturned,
          le_rfl, h.natChecks, h.natReports, hChecks⟩

/-- The first check begins, or the saved type is reported at once. -/
theorem Waiting.natTimer_step (h : s.Waiting) {around : Surroundings}
    (hServers : around.natCheckServers ≠ []) :
    ∃ t, s.next (.natTimer around) = some t ∧ t.Phase := by
  obtain ⟨c, hNatTimer, hTimer, hIter, hTimes, hSaved | hCheck⟩ :=
    NatCheckClient.startCheck_cases hServers h.times_le
  · obtain ⟨natType, hStart, hState⟩ := hSaved
    refine ⟨_, by rw [next, hStart]; rfl, .settled ?_⟩
    have hIdle : c.checkState = .idle := hState.trans h.checkState
    refine ⟨⟨?_, hIter, hTimes⟩, hNatTimer, hTimer.trans h.timer,
      .inr (.inr (.inr ⟨hIdle, h.sent⟩)), ?_, le_rfl, ?_, ?_, ?_⟩
    · exact (StunModule.onGetNATType_isRunning _ _).trans h.isRunning
    · exact StunModule.onGetNATType_natCheckReturned _ _
    · show s.natChecks + 1 = 1
      rw [h.natChecks]
    · show s.natReports + 1 = 1
      rw [h.natReports]
    · exact h.upnpChecks.trans h.upnpReports.symm
  · obtain ⟨hStart, hState, hRemaining⟩ := hCheck
    have hAction : c.checkState.action = some .natCheckSameRoute := by
      rw [hState]
      rfl
    obtain ⟨request, hRequest, hKind⟩ := NatCheckClient.natCheckpacket_of_action hAction
    have hSend : c.doSendNatCheckpacket =
        ({ c with timer := true }, [.doSendPacket request]) := by
      rw [NatCheckClient.doSendNatCheckpacket, hRequest]
      rfl
    rw [hSend] at hStart
    refine ⟨_, by rw [next, hStart]; rfl, .going false ?_⟩
    refine ⟨⟨h.isRunning, hIter, hTimes⟩, hNatTimer, rfl, ?_, h.natCheckReturned,
      ⟨_, hAction, ?_⟩, ?_, ?_, h.natReports, h.upnpChecks.trans h.upnpReports.symm⟩
    · simp [after, perform, hState]
    · intro i sent _ hSent
      have hSent : (s.sent ++ [request])[i]? = some sent := hSent
      rw [h.sent] at hSent
      have hOnly : sent ∈ [request] := List.mem_of_getElem? hSent
      rw [List.mem_singleton.mp hOnly]
      exact hKind
    · show 0 + c.remaining ≤ _
      rw [Nat.zero_add]
      exact hRemaining
    · show s.natChecks + 1 = 1
      rw [h.natChecks]

theorem Going.timer_step {upnp : Bool} (h : s.Going upnp) :
    ∃ t, s.next .timer = some t ∧ t.Phase := by
  obtain ⟨a, hAction, -⟩ := h.present
  obtain ⟨moved, hMoved, ⟨hAsks, hSame⟩ | ⟨hEnds, hLast⟩⟩ :=
    NatCheckClient.timesOut_onHandleTimeOut hAction h.times_le h.iter_le
  · refine ⟨_, by rw [next, hMoved]; rfl, .going upnp (h.asks hAsks ?_)⟩
    split
    · rename_i hAgain
      exact .inr ⟨rfl, hSame hAgain⟩
    · exact .inl rfl
  · refine ⟨_, by rw [next, hMoved]; rfl, .settled ?_⟩
    rw [if_neg hLast]
    exact h.ends hEnds

theorem Going.udpRecv_step {upnp : Bool} (h : s.Going upnp) {request : Nat}
    {packet : ServerPacket} (hBelongs : s.Belongs request)
    (hEnabled : s.Enabled (.udpRecv request packet)) :
    ∃ t, s.next (.udpRecv request packet) = some t ∧ t.Phase := by
  obtain ⟨a, hAction, hPresent⟩ := h.present
  obtain ⟨sent, hSent, hKind⟩ := (Option.any_eq_true _ _).mp hEnabled
  have hSame : packet.action = a :=
    (of_decide_eq_true hKind).symm.trans (hPresent request sent hBelongs hSent)
  rw [← hSame] at hAction
  refine ⟨_, by rw [next, if_pos h.isRunning], ?_⟩
  rcases NatCheckClient.onUdpReceive_cases hAction h.iter_le with hAsks | hEnds
  · have hGoing := h.asks hAsks (.inl rfl)
    rw [Nat.add_zero, ← after_ticks s] at hGoing
    exact .going upnp hGoing
  · exact .settled (h.ends hEnds)

/-- What comes too late for the last check does nothing. -/
theorem Settled.udpRecv_step (h : s.Settled) {request : Nat} {packet : ServerPacket}
    (hFits : s.Fits (.udpRecv request packet)) (hEnabled : s.Enabled (.udpRecv request packet)) :
    ∃ t, s.next (.udpRecv request packet) = some t ∧ t.Phase ∧
      t.client.checkState = s.client.checkState ∧ t.client.timer = s.client.timer := by
  rcases hFits with hBelongs | ⟨hKind, hState⟩
  · obtain ⟨sent, hSent, -⟩ := (Option.any_eq_true _ _).mp hEnabled
    have hLt := (List.getElem?_eq_some_iff.mp hSent).1
    have hGe : s.presentFrom ≤ request := hBelongs
    have hAll := h.present
    omega
  · cases packet with
    | natCheckSameRoute detectedIp detectUdpPort =>
        have hQuiet : s.client.onUdpReceive (.natCheckSameRoute detectedIp detectUdpPort) =
            ({ s.client with timer := false, times := 0 }, []) := by
          simp only [NatCheckClient.onUdpReceive,
            NatCheckClient.onReceiveNatCheckSameRoutePacket, hState]
        refine ⟨{ s with
            client := { s.client with timer := false, times := 0 }
            presentFrom := s.sent.length },
          by rw [next, if_pos h.isRunning, hQuiet]; rfl, .settled ?_, rfl, h.timer.symm⟩
        exact ⟨⟨h.isRunning, h.iter_le, Nat.zero_le 3⟩, h.natTimer, rfl, h.state,
          h.natCheckReturned, le_rfl, h.natChecks, h.natReports, h.upnpChecks⟩
    | natCheckDiffIp | natCheckDiffPort | natCheckForUpnp => cases hKind

/-- A check of the ports begins. -/
theorem Settled.evokeNatcheck_step (h : s.Settled) (localUdpPort innerUdpPort exUdpPort : Nat) :
    ∃ t, s.next (.evokeNatcheck localUdpPort innerUdpPort exUdpPort) = some t ∧ t.Phase := by
  by_cases hIgnored : s.Ignored localUdpPort innerUdpPort exUdpPort
  · exact ⟨s, by rw [next, if_pos hIgnored], .settled h⟩
  · refine ⟨_, by rw [next, if_neg hIgnored], .going true ?_⟩
    refine ⟨⟨h.isRunning, h.iter_le, h.times_le⟩, h.natTimer, rfl, ?_, h.natCheckReturned,
      ⟨.natCheckForUpnp, rfl, ?_⟩, ?_, h.natChecks, h.natReports, ?_⟩
    · exact ⟨fun _ => rfl, fun _ => rfl⟩
    · intro i sent hFrom hSent
      have hGe : s.sent.length ≤ i := hFrom
      have hSent : (s.sent ++ [_])[i]? = some sent := hSent
      rw [List.getElem?_append_right hGe] at hSent
      have hOnly := List.mem_singleton.mp (List.mem_of_getElem? hSent)
      rw [hOnly]
    · show 0 + (4 - s.client.times) ≤ _
      omega
    · show s.upnpChecks + 1 = s.upnpReports + 1
      rw [h.upnpChecks]

theorem Waiting.not_enabled (h : s.Waiting) (request : Nat) (packet : ServerPacket) :
    ¬ s.Enabled (.udpRecv request packet) := by
  simp [Enabled, h.sent]

/-- An event that fits leads to another phase. -/
theorem Phase.step (h : s.Phase) {e : Event} (hFits : s.Fits e) (hEnabled : s.Enabled e) :
    ∃ t, s.next e = some t ∧ t.Phase := by
  cases h with
  | waiting h =>
      cases e with
      | natTimer around => exact h.natTimer_step hEnabled.2
      | timer =>
          have hOn : s.client.timer = true := hEnabled
          rw [h.timer] at hOn
          cases hOn
      | udpRecv request packet => exact absurd hEnabled (h.not_enabled request packet)
      | evokeNatcheck localUdpPort innerUdpPort exUdpPort =>
          have hIgnored : s.Ignored localUdpPort innerUdpPort exUdpPort :=
            .inr (.inr h.natCheckReturned)
          exact ⟨s, by rw [next, if_pos hIgnored], .waiting h⟩
  | going upnp h =>
      cases e with
      | natTimer around =>
          have hOn := hEnabled.1
          rw [h.natTimer] at hOn
          cases hOn
      | timer => exact h.timer_step
      | udpRecv request packet =>
          rcases hFits with hBelongs | ⟨-, hState⟩
          · exact h.udpRecv_step hBelongs hEnabled
          · obtain ⟨a, hAction, -⟩ := h.present
            rw [hState] at hAction
            cases hAction
      | evokeNatcheck localUdpPort innerUdpPort exUdpPort =>
          have hIgnored : s.Ignored localUdpPort innerUdpPort exUdpPort := by
            cases upnp with
            | false => exact .inr (.inr h.natCheckReturned)
            | true => exact hFits.resolve_right fun hNot => hNot (h.upnp_iff.mpr rfl)
          exact ⟨s, by rw [next, if_pos hIgnored], .going upnp h⟩
  | settled h =>
      cases e with
      | natTimer around =>
          have hOn := hEnabled.1
          rw [h.natTimer] at hOn
          cases hOn
      | timer =>
          have hOn : s.client.timer = true := hEnabled
          rw [h.timer] at hOn
          cases hOn
      | udpRecv request packet =>
          obtain ⟨t, hNext, hPhase, -⟩ := h.udpRecv_step hFits hEnabled
          exact ⟨t, hNext, hPhase⟩
      | evokeNatcheck localUdpPort innerUdpPort exUdpPort =>
          exact h.evokeNatcheck_step localUdpPort innerUdpPort exUdpPort

/-- No event reads past the end of the list of servers. -/
theorem Phase.exists_next (h : s.Phase) {e : Event} (hEnabled : s.Enabled e) :
    ∃ t, s.next e = some t := by
  cases e with
  | natTimer around =>
      obtain ⟨t, hNext, -⟩ := h.step (e := .natTimer around) trivial hEnabled
      exact ⟨t, hNext⟩
  | timer =>
      obtain ⟨t, hNext, -⟩ := h.step (e := .timer) trivial hEnabled
      exact ⟨t, hNext⟩
  | udpRecv request packet =>
      rw [next]
      split
      · exact ⟨_, rfl⟩
      · exact ⟨_, rfl⟩
  | evokeNatcheck localUdpPort innerUdpPort exUdpPort =>
      rw [next]
      split
      · exact ⟨_, rfl⟩
      · exact ⟨_, rfl⟩

/-- A packet keeps to the claim: each check still has one result, and a packet that
does not belong to the present step changes neither the state nor the timer. -/
def Harmless (s : System) (request : Nat) (packet : ServerPacket) : Prop :=
  ∃ t, s.next (.udpRecv request packet) = some t ∧ t.OneResult ∧
    (¬ s.Belongs request →
      t.client.checkState = s.client.checkState ∧ t.client.timer = s.client.timer)

/-- After the result a reply of another kind than the first one brings a second
result, and one of that kind does so unless the check ended in `COMPLETE`. -/
theorem Settled.not_harmless (h : s.Settled) {request : Nat} {packet : ServerPacket}
    (hEnabled : s.Enabled (.udpRecv request packet))
    (hFits : ¬ s.Fits (.udpRecv request packet)) : ¬ s.Harmless request packet := by
  rintro ⟨t, hNext, hOne, hUnless⟩
  have hSame := (hUnless fun hBelongs => hFits (.inl hBelongs)).1
  rw [next, if_pos h.isRunning] at hNext
  obtain rfl := Option.some.inj hNext
  cases packet with
  | natCheckSameRoute detectedIp detectUdpPort =>
      have hSame : ((s.client.onUdpReceive
          (.natCheckSameRoute detectedIp detectUdpPort)).1).checkState = s.client.checkState := by
        rw [← after_client s]
        exact hSame
      simp only [NatCheckClient.onUdpReceive,
        NatCheckClient.onReceiveNatCheckSameRoutePacket] at hSame
      rcases h.state with hState | hState | hState | ⟨-, hSent⟩
      · exact hFits (.inr ⟨rfl, hState⟩)
      · simp [hState, NatCheckClient.doSendNatCheckpacket] at hSame
      · simp only [hState] at hSame
        split at hSame <;>
          simp [NatCheckClient.doSendNatCheckpacket, NatCheckClient.completeWith] at hSame
      · simp [Enabled, hSent] at hEnabled
  | natCheckDiffIp | natCheckDiffPort =>
      have hLe : s.natReports + 1 ≤ s.natChecks := hOne.natReports_le
      rw [h.natReports, h.natChecks] at hLe
      omega
  | natCheckForUpnp sendUdpUpnpPort =>
      have hLe : s.upnpReports + 1 ≤ s.upnpChecks := hOne.upnpReports_le
      rw [h.upnpChecks] at hLe
      omega

/-- A packet that does not belong to the present step does harm, but for one that
comes when the check is over and its kind is ignored. -/
theorem Phase.harmless_iff (h : s.Phase) {request : Nat} {packet : ServerPacket}
    (hEnabled : s.Enabled (.udpRecv request packet)) :
    s.Harmless request packet ↔ s.Fits (.udpRecv request packet) := by
  constructor
  · intro hHarmless
    by_contra hFits
    cases h with
    | waiting h => exact h.not_enabled request packet hEnabled
    | going upnp h =>
        obtain ⟨t, hNext, -, hUnless⟩ := hHarmless
        obtain ⟨a, hAction, -⟩ := h.present
        obtain ⟨hState, hTimer⟩ := hUnless fun hBelongs => hFits (.inl hBelongs)
        rw [next, if_pos h.isRunning] at hNext
        obtain rfl := Option.some.inj hNext
        have hClient := after_client s (s.client.onUdpReceive packet)
        rcases NatCheckClient.onUdpReceive_ne hAction packet h.timer with hNe | hNe
        · exact hNe (hClient ▸ hState)
        · exact hNe (hClient ▸ hTimer)
    | settled h => exact h.not_harmless hEnabled hFits hHarmless
  · intro hFits
    obtain ⟨t, hNext, hPhase⟩ := h.step hFits hEnabled
    refine ⟨t, hNext, hPhase.oneResult, fun hLate => ?_⟩
    cases h with
    | waiting h => exact absurd hEnabled (h.not_enabled request packet)
    | going upnp h =>
        obtain ⟨a, hAction, -⟩ := h.present
        rw [(hFits.resolve_left hLate).2] at hAction
        cases hAction
    | settled h =>
        obtain ⟨t', hNext', -, hSame⟩ := h.udpRecv_step hFits hEnabled
        obtain rfl : t = t' := Option.some.inj (hNext.symm.trans hNext')
        exact hSame

/-- In every run of events that fit, every check has one result, no event reads past
the end of the list of servers, and a packet does harm exactly when it does not fit. -/
theorem oneResult_of_run {start : System} (hStart : start.Waiting)
    (run : Reaches (fun s e t => s.next e = some t) (fun s e => s.Enabled e ∧ s.Fits e) start s) :
    s.OneResult ∧ (∀ e, s.Enabled e → ∃ t, s.next e = some t) ∧
      ∀ request packet, s.Enabled (.udpRecv request packet) →
        (s.Harmless request packet ↔ s.Fits (.udpRecv request packet)) := by
  have hPhase : s.Phase := by
    apply run.invariant (.waiting hStart)
    intro s e t hPhase ⟨hEnabled, hFits⟩ hNext
    obtain ⟨t', hNext', hPhase'⟩ := hPhase.step hFits hEnabled
    obtain rfl : t = t' := Option.some.inj (hNext.symm.trans hNext')
    exact hPhase'
  exact ⟨hPhase.oneResult, fun e hEnabled => hPhase.exists_next hEnabled,
    fun request packet hEnabled => hPhase.harmless_iff hEnabled⟩

/-- A client as constructed, after `Start` with a path for its results. -/
def started : System where
  client :=
    { checkState := .idle, natTimer := false, timer := false, endpoint := ⟨"", 0⟩
      endpointSymnCheck := ⟨"", 0⟩, times := 0, localIps := [], localFirstIp := 0
      localPort := 0, detectPort := 0, detectIp := 0, upnpExUdpPort := 0, isNat := false
      natCheckServerList := [], serverIter := 0, configPath := "" : NatCheckClient }.start "peer"
  stun :=
    { isRunning := true, isNeededStun := true, natType := .typeError
      natCheckReturned := false, upnpExUdpPort := 0 }
  natcheckPair := (0, 0)
  sent := []
  presentFrom := 0
  natChecks := 0
  natReports := 0
  upnpChecks := 0
  upnpReports := 0
  ticks := 0

theorem waiting_started : started.Waiting := by
  constructor <;> first | rfl | constructor <;> simp [started, NatCheckClient.start]

/-- One server, and no result from before. -/
def oneServer : Surroundings where
  natCheckServers := ["10.0.0.1"]
  localIps := [1]
  localFirstIp := 1
  localUdpPort := 5041
  saved := .found .typeError false 0 0
  day := 1
  natNeedCheckMinDays := 3

/-- A NAT check whose first request gets a reply only when it is sent again, and after
it a check of the ports. -/
theorem oneResult_of_replies : ∃ s : System, s.OneResult ∧ s.natReports = 1 ∧
    s.upnpReports = 1 ∧ s.stun.natType = .typeFullConeNat := by
  obtain ⟨s, run, hTest⟩ := Reaches.exists_of_checked next
    (fun s e => decide (s.Enabled e ∧ s.Fits e)) started
    [.natTimer oneServer, .timer, .udpRecv 1 (.natCheckSameRoute 7 5041), .udpRecv 2 .natCheckDiffIp,
      .evokeNatcheck 5041 5041 6000, .udpRecv 3 (.natCheckForUpnp 6000)]
    (fun s => s.natReports = 1 ∧ s.upnpReports = 1 ∧ s.stun.natType = .typeFullConeNat)
    (by decide +kernel)
  have hRun := run.mono fun _ _ hCheck => of_decide_eq_true hCheck
  obtain ⟨hOne, -, -⟩ := oneResult_of_run waiting_started hRun
  exact ⟨s, hOne, of_decide_eq_true hTest⟩

/-- A reply that comes after the last server was given up brings a second result. The
second reply to a request that was sent again leaves a check without a timer. -/
theorem oneResult_fails :
    (∃ s, Reaches (fun s e t => s.next e = some t) Enabled started s ∧
      s.natReports = 2 ∧ ¬ s.OneResult) ∧
    ∃ s, Reaches (fun s e t => s.next e = some t) Enabled started s ∧
      s.natReports = 0 ∧ s.client.timer = false ∧ ¬ s.OneResult := by
  constructor
  · obtain ⟨s, run, hTest⟩ := Reaches.exists_of_checked next
      (fun s e => decide (s.Enabled e)) started
      [.natTimer oneServer, .timer, .timer, .timer, .timer,
        .udpRecv 3 (.natCheckSameRoute 7 5041), .udpRecv 4 .natCheckDiffIp]
      (fun s => s.natReports = 2) (by decide +kernel)
    have hTwo : s.natReports = 2 := of_decide_eq_true hTest
    refine ⟨s, run.mono fun _ _ hCheck => of_decide_eq_true hCheck, hTwo, fun hOne => ?_⟩
    have hLe := hOne.natReports_le.trans hOne.natChecks_le
    omega
  · obtain ⟨s, run, hTest⟩ := Reaches.exists_of_checked next
      (fun s e => decide (s.Enabled e)) started
      [.natTimer oneServer, .timer, .udpRecv 0 (.natCheckSameRoute 7 5041),
        .udpRecv 1 (.natCheckSameRoute 7 5041)]
      (fun s => s.natReports = 0 ∧ s.natChecks = 1 ∧ s.client.timer = false) (by decide +kernel)
    obtain ⟨hNone, hChecks, hTimer⟩ := of_decide_eq_true hTest
    refine ⟨s, run.mono fun _ _ hCheck => of_decide_eq_true hCheck, hNone, hTimer, fun hOne => ?_⟩
    have hOn := (hOne.nat_going (by omega)).1
    rw [hTimer] at hOn
    cases hOn

end System

end Stun
