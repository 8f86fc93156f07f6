import Mathlib.Tactic
import Peer.Network.TcpConnection

/-! Packets come out of a connection as they were sent, and go into it one at a time and
in order, as long as no read ends behind a match inside a packet and a policy file
request comes when nothing waits to be written. -/
namespace Network

open Basis

variable {Packet : Type} {archive : Archive Packet}

theorem separate_delimiters : Separate delimiters := by
  constructor <;> decide +kernel

theorem emptyLine_mem : emptyLine ∈ delimiters := by decide +kernel

theorem policyFileRequest_mem : policyFileRequest ∈ delimiters := by decide +kernel

theorem policyFileRequest_match : matchEnd delimiters policyFileRequest = some 22 := by
  decide +kernel

/-- The first match in what is sent for an item. -/
theorem Item.exists_matchEnd (archive : Archive Packet) (item : Item Packet) :
    ∃ n, matchEnd delimiters (item.encode archive) = some n := by
  cases item with
  | packet p => exact Basis.exists_matchEnd emptyLine_mem (by decide) _
  | policyRequest => exact ⟨22, policyFileRequest_match⟩

theorem Item.encode_pos (archive : Archive Packet) (item : Item Packet) :
    0 < (item.encode archive).length := by
  cases item with
  | packet p => exact Nat.succ_pos _
  | policyRequest => exact List.length_pos_iff.mpr (separate_delimiters.ne_nil _ policyFileRequest_mem)

/-- A packet is not taken for a policy file request. -/
def Item.Plain (archive : Archive Packet) : Item Packet → Prop
  | packet p => ∀ n ∈ matchEnd delimiters (archive.encode p),
      istartsWith ((archive.encode p).take n) policyFileRequest = false
  | policyRequest => True

/-- A read that has brought `received` bytes of these items ends well: where it ends
inside of one, that is before the first match in it. -/
def EndsWell (archive : Archive Packet) : List (Item Packet) → Nat → Prop
  | [], _ => True
  | item :: rest, received =>
      (∀ n ∈ matchEnd delimiters (item.encode archive), received < n) ∨
        (item.Plain archive ∧ (item.encode archive).length ≤ received ∧
          EndsWell archive rest (received - (item.encode archive).length))

instance (archive : Archive Packet) (item : Item Packet) : Decidable (item.Plain archive) := by
  cases item <;> unfold Item.Plain <;> infer_instance

instance decidableEndsWell (archive : Archive Packet) :
    (items : List (Item Packet)) → (received : Nat) → Decidable (EndsWell archive items received)
  | [], _ => isTrue trivial
  | item :: rest, received =>
      have := decidableEndsWell archive rest (received - (item.encode archive).length)
      inferInstanceAs (Decidable ((∀ n ∈ matchEnd delimiters (item.encode archive), received < n) ∨
        (item.Plain archive ∧ _ ∧ _)))

/-- The items that are there as a whole. -/
def arrived (archive : Archive Packet) : List (Item Packet) → Nat → List (Item Packet)
  | [], _ => []
  | item :: rest, received =>
      if (item.encode archive).length ≤ received then
        item :: arrived archive rest (received - (item.encode archive).length)
      else []

theorem endsWell_zero (items : List (Item Packet)) : EndsWell archive items 0 := by
  cases items with
  | nil => trivial
  | cons item rest => exact .inl fun n h => matchEnd_pos separate_delimiters h

theorem EndsWell.cons {item : Item Packet} {rest : List (Item Packet)} {received : Nat}
    (h : EndsWell archive (item :: rest) received)
    (hLe : (item.encode archive).length ≤ received) : item.Plain archive ∧
      EndsWell archive rest (received - (item.encode archive).length) := by
  rcases h with hLt | ⟨hPlain, -, hRest⟩
  · obtain ⟨n, hMatch⟩ := item.exists_matchEnd archive
    have hEnd := hLt n hMatch
    have hIn := matchEnd_le hMatch
    omega
  · exact ⟨hPlain, hRest⟩

theorem EndsWell.append {done rest : List (Item Packet)} {received : Nat}
    (h : EndsWell archive (done ++ rest) ((stream archive done).length + received)) :
    EndsWell archive rest received := by
  induction done with
  | nil => simpa [stream] using h
  | cons item done ih =>
      have hLength : (stream archive (item :: done)).length =
          (item.encode archive).length + (stream archive done).length := by
        simp [stream]
      rw [hLength] at h
      have hRest := (EndsWell.cons h (by omega)).2
      apply ih
      rwa [show (item.encode archive).length + (stream archive done).length + received -
        (item.encode archive).length = (stream archive done).length + received by omega] at hRest

theorem arrived_append (archive : Archive Packet) (done rest : List (Item Packet)) (received : Nat) :
    arrived archive (done ++ rest) ((stream archive done).length + received) =
      done ++ arrived archive rest received := by
  induction done with
  | nil => simp [stream]
  | cons item done ih =>
      have hLength : (stream archive (item :: done)).length =
          (item.encode archive).length + (stream archive done).length := by
        simp [stream]
      rw [hLength, List.cons_append, arrived, if_pos (by omega)]
      rw [show (item.encode archive).length + (stream archive done).length + received -
        (item.encode archive).length = (stream archive done).length + received by omega, ih]
      rfl

/-- The buffer of a connection that is in step begins with the items to come. -/
structure InStep (archive : Archive Packet) (request coming : Bytes)
    (rest : List (Item Packet)) : Prop where
  bytes : request ++ coming = stream archive rest
  endsWell : EndsWell archive rest request.length

section InStep

variable {request coming : Bytes} {item : Item Packet} {rest : List (Item Packet)} {n : Nat}

/-- Where there is a match, the first item is there as a whole. -/
theorem InStep.whole (h : InStep archive request coming (item :: rest))
    (hMatch : matchEnd delimiters request = some n) :
    ∃ more, request = item.encode archive ++ more := by
  have hBytes : request ++ coming = item.encode archive ++ stream archive rest := h.bytes
  by_cases hLe : (item.encode archive).length ≤ request.length
  · have hPrefix : item.encode archive <+: request :=
      List.prefix_of_prefix_length_le ⟨_, hBytes.symm⟩ ⟨_, rfl⟩ hLe
    obtain ⟨more, hMore⟩ := hPrefix
    exact ⟨more, hMore.symm⟩
  · have hPrefix : request <+: item.encode archive :=
      List.prefix_of_prefix_length_le ⟨_, rfl⟩ ⟨_, hBytes.symm⟩ (by omega)
    obtain ⟨more, hMore⟩ := hPrefix
    have hItem : matchEnd delimiters (item.encode archive) = some n := by
      rw [← hMore]
      exact matchEnd_append separate_delimiters hMatch more
    have hIn := matchEnd_le hMatch
    rcases h.endsWell with hLt | ⟨-, hGe, -⟩
    · have hEnd := hLt n hItem
      omega
    · omega

theorem InStep.ne_nil (h : InStep archive request coming rest)
    (hMatch : matchEnd delimiters request = some n) : ∃ item items, rest = item :: items := by
  cases rest with
  | cons item items => exact ⟨item, items, rfl⟩
  | nil =>
      have hNil : request ++ coming = [] := h.bytes
      rw [(List.append_eq_nil_iff.mp hNil).1] at hMatch
      cases hMatch

/-- The first match is that of the first item. -/
theorem matchEnd_of_whole {more : Bytes}
    (hMatch : matchEnd delimiters (item.encode archive ++ more) = some n) :
    matchEnd delimiters (item.encode archive) = some n := by
  obtain ⟨m, hItem⟩ := item.exists_matchEnd archive
  have hSame := matchEnd_append separate_delimiters hItem more
  rwa [hSame, ← hItem] at hMatch

theorem InStep.tail (h : InStep archive (item.encode archive ++ request) coming (item :: rest)) :
    item.Plain archive ∧ InStep archive request coming rest := by
  have hBytes : item.encode archive ++ request ++ coming =
      item.encode archive ++ stream archive rest := h.bytes
  obtain ⟨hPlain, hRest⟩ := h.endsWell.cons (by simp)
  refine ⟨hPlain, ?_, ?_⟩
  · rw [List.append_assoc] at hBytes
    exact List.append_cancel_left hBytes
  · simpa using hRest

/-- Where there is no match, no item is there as a whole. -/
theorem InStep.arrived_eq (h : InStep archive request coming rest)
    (hNone : matchEnd delimiters request = none) : arrived archive rest request.length = [] := by
  cases rest with
  | nil => rfl
  | cons item rest =>
      rw [arrived, if_neg]
      intro hLe
      have hBytes : request ++ coming = item.encode archive ++ stream archive rest := h.bytes
      obtain ⟨more, hMore⟩ : item.encode archive <+: request :=
        List.prefix_of_prefix_length_le ⟨_, hBytes.symm⟩ ⟨_, rfl⟩ hLe
      obtain ⟨m, hItem⟩ := item.exists_matchEnd archive
      have hSome := matchEnd_append separate_delimiters hItem more
      rw [hMore, hNone] at hSome
      cases hSome

end InStep

namespace TcpConnection

variable {c : TcpConnection Packet} {more : Bytes} {n : Nat}

/-- A whole packet at the head of the buffer is handed over, and nothing else is taken. -/
theorem handleRecv_packet (hLawful : archive.Lawful) {p : Packet}
    (hHandles : archive.handles (archive.action p) = true)
    (hRequest : c.request = archive.encode p ++ more) (hPolicy : c.isPolicy n = false) :
    c.handleRecv archive n =
      { c with request := more, delivered := c.delivered ++ [p] } := by
  have hBytes : c.request =
      archive.action p :: (archive.write p ++ (emptyLine ++ more)) := by
    rw [hRequest]
    simp [Archive.encode]
  have hRead := hLawful p hHandles (emptyLine ++ more)
  simp only [handleRecv, hPolicy, hBytes, hHandles, hRead, if_true, Bool.false_eq_true, if_false,
    List.drop_left]
  rfl

/-- A policy file request is answered. -/
theorem handleRecv_policyRequest (hRequest : c.request = policyFileRequest ++ more)
    (hMatch : c.due = some n) : c.isPolicy n = true ∧ c.handleRecv archive n =
      { c with
        request := more
        sendList := c.sendList ++ [.crossDomain]
        writing := c.writing ++ [(.crossDomain, true)] } := by
  have hEnd : n = 22 := by
    rw [due, hRequest, matchEnd_append separate_delimiters policyFileRequest_match] at hMatch
    exact (Option.some.inj hMatch).symm
  have hLength : policyFileRequest.length = 22 := by decide +kernel
  have hPolicy : c.isPolicy n = true := by
    rw [isPolicy, hRequest, hEnd, ← hLength, List.take_left]
    decide +kernel
  refine ⟨hPolicy, ?_⟩
  rw [handleRecv, if_pos hPolicy]
  simp only [tcpSend, hRequest, hEnd, ← hLength, List.drop_left]

/-- Every call of the handler takes something from the buffer. -/
theorem handleRecv_request_lt (archive : Archive Packet) (hMatch : c.due = some n) :
    (c.handleRecv archive n).request.length < c.request.length := by
  have hPos := matchEnd_pos separate_delimiters hMatch
  have hLe := matchEnd_le hMatch
  unfold handleRecv
  split
  · show (c.request.drop n).length < c.request.length
    rw [List.length_drop]
    omega
  · cases hRequest : c.request with
    | nil =>
        rw [hRequest, List.length_nil] at hLe
        omega
    | cons action is =>
        simp only []
        split <;> simp only [List.length_drop, List.length_cons] <;> omega

/-- The list of buffers to write and the write that has been started: packets, of which
the first is being written unless a write failed, or the answer to a policy request. -/
inductive Writes (c : TcpConnection Packet) : Prop where
  | packets (ps : List Packet) (sendList : c.sendList = ps.map .packet) (closed : c.closed = false)
      (failed : c.failed = true → ps ≠ [] ∧ c.writing = [])
      (writing : c.failed = false → c.writing = ps.head?.toList.map fun p => (.packet p, false))
  | crossDomain (sendList : c.sendList = [.crossDomain])
      (stopped : c.failed = true ∨ c.closed = true → c.writing = [])
      (writing : c.failed = false → c.closed = false → c.writing = [(.crossDomain, true)])

theorem Writes.writing_le (h : c.Writes) : c.writing.length ≤ 1 := by
  cases h with
  | packets ps _ _ failed writing =>
      cases hFailed : c.failed with
      | true => simp [(failed hFailed).2]
      | false =>
          rw [writing hFailed]
          cases ps <;> simp
  | crossDomain _ stopped writing =>
      by_cases hOver : c.failed = true ∨ c.closed = true
      · simp [stopped hOver]
      · rw [writing (by simpa using fun h => hOver (.inl h)) (by simpa using fun h => hOver (.inr h))]
        simp

/-- The head of the list is what is being written. -/
theorem Writes.busy (h : c.Writes) (hNe : c.sendList ≠ []) (hFailed : c.failed = false)
    (hClosed : c.closed = false) :
    ∃ buffer needClose, c.sendList.head? = some buffer ∧ c.writing = [(buffer, needClose)] := by
  cases h with
  | packets ps sendList _ _ writing =>
      cases ps with
      | nil => exact absurd sendList hNe
      | cons p rest => exact ⟨.packet p, false, by rw [sendList]; rfl, writing hFailed⟩
  | crossDomain sendList _ writing =>
      exact ⟨.crossDomain, true, by rw [sendList]; rfl, writing hFailed hClosed⟩

theorem Writes.doSend (h : c.Writes) (hOpen : Buffer.crossDomain ∉ c.sendList) (p : Packet) :
    (c.doSend p).Writes ∧ (c.doSend p).sendList = c.sendList ++ [.packet p] ∧
      (c.doSend p).written = c.written := by
  cases h with
  | crossDomain sendList _ _ => simp [sendList] at hOpen
  | packets ps sendList closed failed writing =>
      cases ps with
      | nil =>
          have hFailed : c.failed = false := by
            cases hFailed : c.failed with
            | false => rfl
            | true => exact absurd rfl (failed hFailed).1
          have hNil : c.sendList = [] := sendList
          have hIdle : c.writing = [] := writing hFailed
          have hSend : c.doSend p =
              { c with sendList := [.packet p], writing := [(.packet p, false)] } := by
            simp [TcpConnection.doSend, tcpSend, hNil, hIdle]
          rw [hSend]
          refine ⟨.packets [p] rfl closed (fun h => ?_) (fun _ => rfl), by rw [hNil]; rfl, rfl⟩
          rw [show c.failed = true from h] at hFailed
          cases hFailed
      | cons q rest =>
          have hSend : c.doSend p = { c with sendList := c.sendList ++ [.packet p] } := by
            simp [TcpConnection.doSend, sendList]
          rw [hSend]
          refine ⟨.packets (q :: rest ++ [p]) ?_ closed (fun h => ⟨by simp, (failed h).2⟩)
            (fun h => writing h), rfl, rfl⟩
          show c.sendList ++ [.packet p] = _
          rw [sendList]
          simp

/-- The end of a write takes its buffer from the list, in order, or ends the writing. -/
theorem Writes.handleTcpSend (h : c.Writes) {i : Nat} {ec : Bool} {c' : TcpConnection Packet}
    (hEnd : c.handleTcpSend i ec = some c') : c'.Writes ∧
      c'.written.filterMap Buffer.packet? ++ c'.sendList.filterMap Buffer.packet? =
        c.written.filterMap Buffer.packet? ++ c.sendList.filterMap Buffer.packet? ∧
      c'.request = c.request ∧ c'.delivered = c.delivered := by
  obtain ⟨⟨buffer, needClose⟩, hWrite, hEnd⟩ := Option.bind_eq_some_iff.mp hEnd
  have hFirst : c.writing = [(buffer, needClose)] ∧ i = 0 := by
    have hLe := h.writing_le
    obtain ⟨hLt, hGet⟩ := List.getElem?_eq_some_iff.mp hWrite
    obtain ⟨x, hOne⟩ := List.length_eq_one_iff.mp (show c.writing.length = 1 by omega)
    simp only [hOne] at hGet hLt
    have hZero : i = 0 := by simpa using hLt
    subst hZero
    exact ⟨hOne.trans (by simpa using hGet), rfl⟩
  obtain ⟨hWriting, rfl⟩ := hFirst
  simp only [hWriting, List.eraseIdx_zero, List.tail_cons] at hEnd
  split at hEnd
  · -- The write failed: its buffer stays in the list, and no other one is started.
    obtain rfl := Option.some.inj hEnd
    refine ⟨?_, rfl, rfl, rfl⟩
    cases h with
    | packets ps sendList closed failed writing =>
        refine .packets ps sendList closed (fun _ => ⟨?_, rfl⟩) nofun
        rintro rfl
        cases hFailed : c.failed with
        | true => exact absurd rfl (failed hFailed).1
        | false =>
            have hNil := writing hFailed
            rw [hWriting] at hNil
            cases hNil
    | crossDomain sendList stopped writing =>
        exact .crossDomain sendList (fun _ => rfl) nofun
  · cases h with
    | packets ps sendList closed failed writing =>
        have hFailed : c.failed = false := by
          cases hFailed : c.failed with
          | false => rfl
          | true =>
              have hNil := (failed hFailed).2
              rw [hWriting] at hNil
              cases hNil
        have hHead := writing hFailed
        rw [hWriting] at hHead
        cases ps with
        | nil => cases hHead
        | cons p rest =>
            obtain ⟨rfl, rfl⟩ : buffer = .packet p ∧ needClose = false := by
              simpa using hHead
            have hList : c.sendList = .packet p :: rest.map .packet := sendList
            cases rest with
            | nil =>
                simp only [hList, List.map_nil, Bool.false_eq_true, if_false,
                  Option.some.injEq] at hEnd
                subst hEnd
                refine ⟨.packets [] rfl closed ?_ fun _ => rfl, ?_, rfl, rfl⟩
                · intro h
                  rw [show c.failed = true from h] at hFailed
                  cases hFailed
                · simp [hList, Buffer.packet?]
            | cons q rest =>
                simp only [hList, List.map_cons, Bool.false_eq_true, if_false,
                  Option.some.injEq] at hEnd
                subst hEnd
                refine ⟨.packets (q :: rest) rfl closed ?_ fun _ => rfl, ?_, rfl, rfl⟩
                · intro h
                  rw [show c.failed = true from h] at hFailed
                  cases hFailed
                · simp [hList, tcpSend, Buffer.packet?]
    | crossDomain sendList stopped writing =>
        have hOpen : c.failed = false ∧ c.closed = false := by
          by_contra hNot
          have hNil := stopped (by simpa [or_iff_not_imp_left] using hNot)
          rw [hWriting] at hNil
          cases hNil
        have hHead := writing hOpen.1 hOpen.2
        rw [hWriting] at hHead
        obtain ⟨rfl, rfl⟩ : buffer = .crossDomain ∧ needClose = true := by simpa using hHead
        simp only [if_true, Option.some.injEq] at hEnd
        subst hEnd
        refine ⟨.crossDomain sendList (fun _ => rfl) nofun, ?_, rfl, rfl⟩
        simp [Buffer.packet?]

end TcpConnection

namespace Conversation

variable {s t : Conversation Packet}

/-- Reads end well, a policy file request comes when nothing is to be written, and
nothing is given to `DoSend` after one. -/
def Fits (archive : Archive Packet) (s : Conversation Packet) : Event Packet → Prop
  | .read bytes => EndsWell archive s.items (s.received + bytes)
  | .handleRecv => ∀ n ∈ s.connection.due, s.connection.isPolicy n = true →
      s.connection.sendList = []
  | .doSend _ => Buffer.crossDomain ∉ s.connection.sendList
  | .handleTcpSend _ _ => True

instance (archive : Archive Packet) (s : Conversation Packet) [DecidableEq Packet]
    (e : Event Packet) : Decidable (s.Fits archive e) := by
  cases e <;> unfold Fits <;> infer_instance

/-- Every kind of packet that comes in has a handler. -/
def Registered (archive : Archive Packet) (items : List (Item Packet)) : Prop :=
  ∀ p, Item.packet p ∈ items → archive.handles (archive.action p) = true

/-- What a connection promises. The packets handed over are those that have come in as a
whole, once no match is left in the buffer. What is given to `DoSend` is written or
waits, in order, and its head is being written while the socket works. -/
structure Exchange (archive : Archive Packet) (s : Conversation Packet) : Prop where
  delivered_prefix :
    s.connection.delivered <+: (arrived archive s.items s.received).filterMap Item.packet?
  delivered_eq : s.connection.due = none →
    s.connection.delivered = (arrived archive s.items s.received).filterMap Item.packet?
  delivered_all : s.connection.due = none → s.received = (stream archive s.items).length →
    s.connection.delivered = s.items.filterMap Item.packet?
  progress : ∀ n, s.connection.due = some n →
    (s.connection.handleRecv archive n).request.length < s.connection.request.length
  writing_le : s.connection.writing.length ≤ 1
  inOrder : s.connection.written.filterMap Buffer.packet? ++
    s.connection.sendList.filterMap Buffer.packet? = s.given
  busy : s.connection.sendList ≠ [] → s.connection.failed = false → s.connection.closed = false →
    ∃ buffer needClose, s.connection.sendList.head? = some buffer ∧
      s.connection.writing = [(buffer, needClose)]

/-- The items handled so far and those to come. -/
structure Framed (archive : Archive Packet) (s : Conversation Packet)
    (done rest : List (Item Packet)) : Prop where
  items : s.items = done ++ rest
  delivered : s.connection.delivered = done.filterMap Item.packet?
  received : s.received = (stream archive done).length + s.connection.request.length
  inStep : InStep archive s.connection.request
    ((stream archive s.items).drop s.received) rest

/-- Both sides of the connection. -/
structure Sound (archive : Archive Packet) (s : Conversation Packet) : Prop where
  registered : Registered archive s.items
  framed : ∃ done rest, Framed archive s done rest
  writes : s.connection.Writes
  inOrder : s.connection.written.filterMap Buffer.packet? ++
    s.connection.sendList.filterMap Buffer.packet? = s.given

theorem sound_begin {items : List (Item Packet)} (h : Registered archive items) :
    Sound archive (begin items) := by
  refine ⟨h, ⟨[], items, rfl, rfl, rfl, rfl, endsWell_zero items⟩, ?_, rfl⟩
  exact .packets [] rfl rfl nofun fun _ => rfl

theorem arrived_all (items : List (Item Packet)) :
    arrived archive items (stream archive items).length = items := by
  have hAll := arrived_append archive items [] 0
  simpa [arrived] using hAll

theorem Sound.exchange (h : Sound archive s) : Exchange archive s := by
  obtain ⟨done, rest, hFramed⟩ := h.framed
  have hArrived : arrived archive s.items s.received =
      done ++ arrived archive rest s.connection.request.length := by
    rw [hFramed.items, hFramed.received, arrived_append]
  have hIdle (hNone : s.connection.due = none) :
      s.connection.delivered = (arrived archive s.items s.received).filterMap Item.packet? := by
    rw [hArrived, hFramed.inStep.arrived_eq hNone, List.append_nil, hFramed.delivered]
  constructor
  · rw [hArrived, hFramed.delivered, List.filterMap_append]
    exact List.prefix_append _ _
  · exact hIdle
  · intro hNone hAll
    rw [hIdle hNone, hAll, arrived_all]
  · exact fun n hDue => TcpConnection.handleRecv_request_lt archive hDue
  · exact h.writes.writing_le
  · exact h.inOrder
  · exact h.writes.busy

/-- More of the stream comes in. -/
theorem Sound.read {bytes : Nat} (h : Sound archive s) (hFits : s.Fits archive (.read bytes))
    (hNext : s.next archive (.read bytes) = some t) : Sound archive t := by
  obtain ⟨done, rest, hItems, hDelivered, hReceived, hInStep⟩ := h.framed
  rw [next] at hNext
  split at hNext
  · rename_i hCan
    obtain rfl := Option.some.inj hNext
    have hTaken : (((stream archive s.items).drop s.received).take bytes).length = bytes := by
      rw [List.length_take, List.length_drop]
      omega
    refine ⟨h.registered, ⟨done, rest, hItems, hDelivered, ?_, ?_, ?_⟩, ?_, h.inOrder⟩
    · simp only [List.length_append, hTaken]
      omega
    · have hBytes := hInStep.bytes
      simp only
      rw [List.append_assoc, ← List.drop_drop, List.take_append_drop]
      exact hBytes
    · have hEnds : EndsWell archive (done ++ rest)
          ((stream archive done).length + (s.connection.request.length + bytes)) := by
        rw [← hItems, ← Nat.add_assoc, ← hReceived]
        exact hFits
      simp only [List.length_append, hTaken]
      exact hEnds.append
    · cases h.writes with
      | packets ps sendList closed failed writing =>
          exact .packets ps sendList closed failed writing
      | crossDomain sendList stopped writing => exact .crossDomain sendList stopped writing
  · cases hNext

/-- The item at the head of the buffer is handled. -/
theorem Sound.handleRecv (hLawful : archive.Lawful) (h : Sound archive s)
    (hFits : s.Fits archive .handleRecv) (hNext : s.next archive .handleRecv = some t) :
    Sound archive t := by
  obtain ⟨done, rest, hFramed⟩ := h.framed
  obtain ⟨n, hDue, rfl⟩ := Option.map_eq_some_iff.mp hNext
  obtain ⟨item, items, rfl⟩ := hFramed.inStep.ne_nil hDue
  obtain ⟨more, hRequest⟩ := hFramed.inStep.whole hDue
  have hInStep := hFramed.inStep
  rw [hRequest] at hInStep
  obtain ⟨hPlain, hTail⟩ := hInStep.tail
  have hReceived : s.received = (stream archive (done ++ [item])).length + more.length := by
    rw [hFramed.received, hRequest]
    simp [stream, Nat.add_assoc]
  have hItems : s.items = done ++ [item] ++ items := by
    rw [hFramed.items]
    simp
  cases item with
  | packet p =>
      have hHead : matchEnd delimiters ((Item.packet p).encode archive ++ more) = some n := by
        rw [← hRequest]
        exact hDue
      have hMatch : matchEnd delimiters (archive.encode p) = some n := matchEnd_of_whole hHead
      have hPolicy : s.connection.isPolicy n = false := by
        have hIn := matchEnd_le hMatch
        have hTake : s.connection.request.take n = (archive.encode p).take n := by
          rw [hRequest]
          exact List.take_append_of_le_length hIn
        rw [TcpConnection.isPolicy, hTake]
        exact hPlain n hMatch
      have hHandles : archive.handles (archive.action p) = true := by
        apply h.registered p
        rw [hFramed.items]
        simp
      rw [TcpConnection.handleRecv_packet hLawful hHandles hRequest hPolicy]
      refine ⟨h.registered, ⟨done ++ [.packet p], items, hItems, ?_, hReceived, hTail⟩, ?_,
        h.inOrder⟩
      · simp [hFramed.delivered, Item.packet?]
      · cases h.writes with
        | packets ps sendList closed failed writing =>
            exact .packets ps sendList closed failed writing
        | crossDomain sendList stopped writing => exact .crossDomain sendList stopped writing
  | policyRequest =>
      obtain ⟨hPolicy, hHandle⟩ := TcpConnection.handleRecv_policyRequest hRequest hDue
      have hNil : s.connection.sendList = [] := hFits n hDue hPolicy
      rw [hHandle]
      refine ⟨h.registered, ⟨done ++ [.policyRequest], items, hItems, ?_, hReceived, hTail⟩, ?_, ?_⟩
      · simp [hFramed.delivered, Item.packet?]
      · cases h.writes with
        | packets ps sendList closed failed writing =>
            rw [hNil] at sendList
            have hEmpty : ps = [] := List.map_eq_nil_iff.mp sendList.symm
            have hFailed : s.connection.failed = false := by
              cases hFailed : s.connection.failed with
              | false => rfl
              | true => exact absurd hEmpty (failed hFailed).1
            have hIdle : s.connection.writing = [] := by
              rw [writing hFailed, hEmpty]
              rfl
            refine .crossDomain (by simp [hNil]) ?_ fun _ _ => by simp [hIdle]
            rintro (hOver | hOver)
            · rw [show s.connection.failed = true from hOver] at hFailed
              cases hFailed
            · rw [show s.connection.closed = true from hOver] at closed
              cases closed
        | crossDomain sendList _ _ =>
            rw [hNil] at sendList
            cases sendList
      · simp [← h.inOrder, Buffer.packet?]

theorem Sound.step (hLawful : archive.Lawful) (h : Sound archive s) {e : Event Packet}
    (hFits : s.Fits archive e) (hNext : s.next archive e = some t) : Sound archive t := by
  cases e with
  | read bytes => exact h.read hFits hNext
  | handleRecv => exact h.handleRecv hLawful hFits hNext
  | doSend p =>
      obtain rfl := Option.some.inj hNext
      obtain ⟨done, rest, hItems, hDelivered, hReceived, hInStep⟩ := h.framed
      obtain ⟨hWrites, hList, hWritten⟩ := h.writes.doSend hFits p
      have hSame : (s.connection.doSend p).request = s.connection.request ∧
          (s.connection.doSend p).delivered = s.connection.delivered := by
        simp only [TcpConnection.doSend]
        split <;> exact ⟨rfl, rfl⟩
      refine ⟨h.registered, ⟨done, rest, hItems, hSame.2.trans hDelivered, ?_, ?_⟩, hWrites, ?_⟩
      · rw [hSame.1]
        exact hReceived
      · rw [hSame.1]
        exact hInStep
      · rw [hList, hWritten, ← h.inOrder]
        simp [Buffer.packet?]
  | handleTcpSend i ec =>
      obtain ⟨connection, hEnd, rfl⟩ := Option.map_eq_some_iff.mp hNext
      obtain ⟨done, rest, hItems, hDelivered, hReceived, hInStep⟩ := h.framed
      obtain ⟨hWrites, hOrder, hRequest, hSame⟩ := h.writes.handleTcpSend hEnd
      refine ⟨h.registered, ⟨done, rest, hItems, hSame.trans hDelivered, ?_, ?_⟩, hWrites,
        hOrder.trans h.inOrder⟩
      · rw [hRequest]
        exact hReceived
      · rw [hRequest]
        exact hInStep

/-- In every run of reads, handlers and writes that fit, packets come out as they were
sent, and what is given to `DoSend` is written one at a time and in order. -/
theorem exchange_of_run (hLawful : archive.Lawful) {items : List (Item Packet)}
    (hItems : Registered archive items)
    (run : Reaches (fun s e t => s.next archive e = some t) (Fits archive) (begin items) s) :
    Exchange archive s := by
  have hSound : Sound archive s :=
    run.invariant (sound_begin hItems) fun s e t hSound hFits hNext =>
      hSound.step hLawful hFits hNext
  exact hSound.exchange

/-- Packets of five bytes. -/
structure FiveBytes where
  a : UInt8
  b : UInt8
  c : UInt8
  d : UInt8
  e : UInt8
  deriving DecidableEq

def fiveBytes : Archive FiveBytes where
  action _ := 1
  write p := [p.a, p.b, p.c, p.d, p.e]
  handles action := action = 1
  read _ is :=
    match is with
    | a :: b :: c :: d :: e :: _ => (⟨a, b, c, d, e⟩, 5)
    | _ => (⟨0, 0, 0, 0, 0⟩, is.length)

theorem lawful_fiveBytes : fiveBytes.Lawful :=
  fun _ _ _ => rfl

/-- Two packets in two reads, the second one with an empty line in it, then a packet to
send, and a policy file request when that is written. -/
theorem exchange_of_twoReads : ∃ s : Conversation FiveBytes,
    Exchange fiveBytes s ∧ s.connection.delivered = [⟨1, 2, 3, 4, 5⟩, ⟨13, 10, 13, 10, 7⟩] ∧
      s.connection.written = [.packet ⟨6, 6, 6, 6, 6⟩, .crossDomain] := by
  let items : List (Item FiveBytes) :=
    [.packet ⟨1, 2, 3, 4, 5⟩, .packet ⟨13, 10, 13, 10, 7⟩, .policyRequest]
  obtain ⟨s, run, hTest⟩ := Reaches.exists_of_checked (next fiveBytes)
    (fun s e => decide (s.Fits fiveBytes e)) (begin items)
    [.read 3, .read 17, .handleRecv, .handleRecv, .doSend ⟨6, 6, 6, 6, 6⟩, .handleTcpSend 0 false,
      .read 22, .handleRecv, .handleTcpSend 0 false]
    (fun s => s.connection.delivered = [⟨1, 2, 3, 4, 5⟩, ⟨13, 10, 13, 10, 7⟩] ∧
      s.connection.written = [.packet ⟨6, 6, 6, 6, 6⟩, .crossDomain]) (by decide +kernel)
  have hRun := run.mono fun _ _ hCheck => of_decide_eq_true hCheck
  have hItems : Registered fiveBytes items := fun _ _ => rfl
  exact ⟨s, exchange_of_run lawful_fiveBytes hItems hRun, of_decide_eq_true hTest⟩

/-- A read that ends behind an empty line inside a packet spoils the packet. A policy file
request while a packet is being written starts a second write. -/
theorem exchange_fails :
    (∃ s, Reaches (fun s e t => s.next fiveBytes e = some t) (fun _ _ => True)
        (begin [.packet ⟨13, 10, 13, 10, 7⟩]) s ∧
      s.connection.delivered = [⟨0, 0, 0, 0, 0⟩] ∧ ¬ Exchange fiveBytes s) ∧
    ∃ s, Reaches (fun s e t => s.next fiveBytes e = some t) (fun _ _ => True)
        (begin [.policyRequest]) s ∧
      s.connection.writing = [(.packet ⟨6, 6, 6, 6, 6⟩, false), (.crossDomain, true)] ∧
      ¬ Exchange fiveBytes s := by
  constructor
  · obtain ⟨s, run, hTest⟩ := Reaches.exists_of_checked (next fiveBytes) (fun _ _ => true)
      (begin [.packet ⟨13, 10, 13, 10, 7⟩]) [.read 5, .handleRecv]
      (fun s => s.connection.delivered = [⟨0, 0, 0, 0, 0⟩] ∧
        (arrived fiveBytes s.items s.received).filterMap Item.packet? = []) (by decide +kernel)
    obtain ⟨hDelivered, hArrived⟩ := of_decide_eq_true hTest
    refine ⟨s, run.mono fun _ _ _ => trivial, hDelivered, fun hExchange => ?_⟩
    have hPrefix := hExchange.delivered_prefix
    rw [hDelivered, hArrived] at hPrefix
    cases List.prefix_nil.mp hPrefix
  · obtain ⟨s, run, hTest⟩ := Reaches.exists_of_checked (next fiveBytes) (fun _ _ => true)
      (begin [.policyRequest]) [.doSend ⟨6, 6, 6, 6, 6⟩, .read 22, .handleRecv]
      (fun s : Conversation FiveBytes => decide
        (s.connection.writing = [(.packet ⟨6, 6, 6, 6, 6⟩, false), (.crossDomain, true)]))
      (by decide +kernel)
    have hTwo := of_decide_eq_true hTest
    refine ⟨s, run.mono fun _ _ _ => trivial, hTwo, fun hExchange => ?_⟩
    have hLe := hExchange.writing_le
    rw [hTwo] at hLe
    exact absurd hLe (by decide)

end Conversation

end Network
