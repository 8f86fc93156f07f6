import Peer.Live.HttpDownloaderCalls

/-! Whatever happens to a stream, a downloader and the request manager agree on what is
requested, and what the open client asked for is the task in front. -/
namespace Live.Http

open Basis

namespace LiveStream

variable {s t : LiveStream} {g g' blockId : Nat} {f : LiveHttpDownloader → LiveHttpDownloader}
  {answers : Answers}

theorem Invariant.onTimerElapsed (h : s.Invariant) (hConnects : answers.connectFails = false) :
    Settles (fun rounds => s.onTimerElapsed answers rounds g) Invariant := by
  have hTimer : (s.modify g fun d => { d with sleepTimer := false }).Invariant := by
    apply h.modify rfl rfl rfl
    intro hCurrent
    have hShape := h.shape g hCurrent
    exact ⟨hShape.active, hShape.busy, hShape.pausing, hShape.numbered⟩
  by_cases hStays : (s.downloaders g).isRunning = false ∨ (s.downloaders g).isHttpPausing = true
  · apply Settles.of_add 0 _ hTimer
    intro rounds
    rw [LiveStream.onTimerElapsed, modify_self]
    exact if_pos hStays
  · rw [not_or, Bool.not_eq_false, Bool.not_eq_true] at hStays
    have hCurrent := (h.running g).mp hStays.1
    have hShape := h.shape g hCurrent
    let woken := s.modify g fun d => { d with sleepTimer := false, status := .closed }
    have hLinked : woken.Linked := h.toLinked.modify rfl rfl rfl
    have hEq : ∀ rounds, s.onTimerElapsed answers rounds g =
        if (s.downloaders g).blockTasks ≠ [] then woken.doConnect answers rounds g
        else woken.httpRequestNextBlock answers rounds g := by
      intro rounds
      simp [LiveStream.onTimerElapsed, hStays, woken]
    simp only [hEq]
    cases hTasks : (s.downloaders g).blockTasks with
    | nil =>
        simp only [ne_eq, not_true_eq_false, if_false]
        have hInactive : (s.downloaders g).status.isActive = false := by
          rw [← Bool.not_eq_true]
          intro hActive
          obtain ⟨c, -, -, hTask⟩ := hShape.active hActive
          simp [hTasks] at hTask
        have hQuiet : Quiet (s.downloaders g) := quiet_of_inactive hShape hInactive
        apply (hLinked.httpRequestNextBlock hCurrent _ _ hConnects).mono
        · intro t hSearch
          apply hSearch.invariant hCurrent
          · rw [modify_self]
            apply shape_of_quiet rfl
            · exact hQuiet
            · intro _
              exact ⟨rfl, hTasks⟩
            · exact hShape.numbered
          · rw [modify_self]
            exact hStays.2
        · rw [modify_self]
          exact hTasks
        · rw [modify_self]
    | cons blockId rest =>
        simp only [ne_eq, reduceCtorEq, not_false_eq_true, if_true]
        have hNil : rest = [] := by
          have hSingle := h.single g
          rw [hTasks, List.length_cons] at hSingle
          exact List.eq_nil_of_length_eq_zero (by omega)
        subst hNil
        have hWoken : (woken.downloaders g).blockTasks = [blockId] := by
          rw [modify_self]
          exact hTasks
        have hRunning : (woken.downloaders g).isRunning = true := by
          rw [modify_self]
          exact hStays.1
        apply Settles.of_add 1
        · intro rounds
          rw [LiveStream.doConnect, if_pos hRunning, hWoken, hConnects]
        · refine ⟨hLinked.modify rfl rfl rfl, fun g' hCurrent' => ?_⟩
          rw [modify_current, modify_current, hCurrent] at hCurrent'
          cases hCurrent'
          rw [modify_self]
          have hOpened : (woken.downloaders g).openConnection false blockId =
              (woken.downloaders g).opened blockId := by
            rw [LiveHttpDownloader.opened, ← hWoken]
          rw [hOpened]
          apply LiveHttpDownloader.Shape.opened
          rw [modify_self]
          exact hStays.2

theorem Invariant.requestNextBlock_p2p (h : s.Invariant) :
    Settles (fun rounds => s.requestNextBlock answers rounds (.p2p g)) Invariant := by
  cases hFound : s.findBlock (.p2p g) answers with
  | none =>
      apply Settles.of_add 1 _ h
      intro rounds
      rw [requestNextBlock, hFound]
  | some blockId =>
      have hRemoved := h.removed blockId
      apply Settles.of_add 5
      · intro rounds
        rw [requestNextBlock_eq h.toLinked hFound, addBlockTask]
      · refine ⟨hRemoved.toLinked.transfer ⟨rfl, rfl, rfl, rfl, fun _ => rfl, fun _ => rfl⟩ ?_
          hRemoved.single hRemoved.fresh, hRemoved.shape⟩
        intro g' b
        show b ∈ ((s.removed blockId).downloaders g').blockTasks ↔
          Function.update (s.removed blockId).liveBlockRequestingMap blockId (some (.p2p g)) b = _
        rw [hRemoved.owned]
        by_cases hEq : b = blockId
        · simp [hEq, removed_map]
        · rw [Function.update_of_ne hEq]

theorem client_eq_some {phases : List Phase} {c : HttpClient} (h : s.client g phases = some c) :
    (s.downloaders g).httpClient = some c ∧ c.phase ∈ phases := by
  obtain ⟨hClient, hPhase⟩ := Option.filter_eq_some_iff.mp h
  exact ⟨hClient, by simpa using hPhase⟩

/-- A client that connects or waits has a downloader that is not pausing. -/
theorem Invariant.resumed_of_busy (h : s.Invariant) {c : HttpClient}
    (hClient : (s.downloaders g).httpClient = some c) (hIdle : c.phase ≠ .idle)
    (hOpen : c.phase ≠ .closed) (hCurrent : s.liveHttpDownloader = some g) :
    (s.downloaders g).blockTasks = [c.blockId] ∧ (s.downloaders g).isHttpPausing = false := by
  have hActive := (h.shape g hCurrent).busy c hClient hIdle hOpen
  obtain ⟨c', hSame, -, hTasks, -, hResumed⟩ := h.active hCurrent hActive
  rw [hClient] at hSame
  cases hSame
  exact ⟨hTasks, hResumed⟩

theorem Invariant.connectSucced (h : s.Invariant) {c : HttpClient}
    (hClient : (s.downloaders g).httpClient = some c) (hPhase : c.phase = .connecting) :
    (s.modify g .onConnectSucced).Invariant := by
  apply h.modify rfl rfl rfl
  intro hCurrent
  obtain ⟨hTasks, hResumed⟩ := h.resumed_of_busy hClient (by simp [hPhase]) (by simp [hPhase]) hCurrent
  constructor
  · intro _
    exact ⟨{ c with phase := .requesting }, by simp [LiveHttpDownloader.onConnectSucced, hClient],
      by simp, hTasks⟩
  · intro _ _ _ _
    rfl
  · intro hPausing
    have hContra : (s.downloaders g).isHttpPausing = true := hPausing
    simp [hResumed] at hContra
  · intro c' hClient'
    obtain ⟨c'', hFormer, rfl⟩ := Option.map_eq_some_iff.mp hClient'
    exact (h.shape g hCurrent).numbered c'' hFormer

theorem Invariant.connectFailed (h : s.Invariant) {c : HttpClient}
    (hClient : (s.downloaders g).httpClient = some c) (hPhase : c.phase = .connecting) :
    ((s.modify g .onConnectFailed).modify g (.closeNumbered c.id)).Invariant := by
  have hFields : ∀ d : LiveHttpDownloader, d.onConnectFailed.blockTasks = d.blockTasks ∧
      d.onConnectFailed.isRunning = d.isRunning ∧ d.onConnectFailed.liveStream = d.liveStream ∧
      d.onConnectFailed.isHttpPausing = d.isHttpPausing := by
    intro d
    unfold LiveHttpDownloader.onConnectFailed
    dsimp only
    split
    · split <;> exact ⟨rfl, rfl, rfl, rfl⟩
    · exact ⟨rfl, rfl, rfl, rfl⟩
  obtain ⟨hTasks, hRunning, hStream, hPausing⟩ := hFields (s.downloaders g)
  rw [modify_modify]
  apply h.modify (f := fun d => d.onConnectFailed.closeNumbered c.id) hTasks hRunning hStream
  intro hCurrent
  obtain ⟨-, hResumed⟩ := h.resumed_of_busy hClient (by simp [hPhase]) (by simp [hPhase]) hCurrent
  have hLt := (h.shape g hCurrent).numbered c hClient
  have hFailed : (s.downloaders g).onConnectFailed.status.isActive = false ∧
      (s.downloaders g).onConnectFailed.clients = (s.downloaders g).clients ∧
      ∃ c', (s.downloaders g).onConnectFailed.httpClient = some c' ∧ c'.id = c.id := by
    simp only [LiveHttpDownloader.onConnectFailed, (h.running g).mpr hCurrent, if_true]
    split
    · exact ⟨rfl, rfl, c, hClient, rfl⟩
    · exact ⟨rfl, rfl, c.close,
        by simp [LiveHttpDownloader.sleepForConnect, LiveHttpDownloader.closeHttpClient, hClient], rfl⟩
  obtain ⟨hStatus, hClients, c', hClient', hId⟩ := hFailed
  have hOnly : ∀ x, ((s.downloaders g).onConnectFailed.closeNumbered c.id).httpClient = some x →
      x = c'.close := by
    intro x hX
    simp only [LiveHttpDownloader.closeNumbered, hClient', Option.map_some, hId, if_true,
      Option.some.injEq] at hX
    exact hX.symm
  have hClosed : ((s.downloaders g).onConnectFailed.closeNumbered c.id).status.isActive = false := hStatus
  apply shape_of_quiet hClosed
  · intro x hX
    rw [hOnly x hX]
    exact .inr rfl
  · intro hContra
    have hStill : (s.downloaders g).onConnectFailed.isHttpPausing = true := hContra
    simp [hPausing, hResumed] at hStill
  · intro x hX
    rw [hOnly x hX]
    show c'.id < (s.downloaders g).onConnectFailed.clients
    rw [hId, hClients]
    exact hLt

theorem Invariant.headerSucced (h : s.Invariant) {c : HttpClient}
    (hClient : (s.downloaders g).httpClient = some c) (hPhase : c.phase = .requesting)
    (statusCode : Nat) (hConnects : answers.connectFails = false) {supplies : List Supply}
    (hSupplies : ∀ supply ∈ supplies, ∀ x ∈ supply.answers, x.connectFails = false) :
    Settles (fun rounds => (s.settle g).onRecvHttpHeaderSucced rounds g statusCode supplies answers)
      Invariant := by
  obtain ⟨hSettled, hActive, hIdle⟩ := h.settle hClient (by simp [hPhase]) (by simp [hPhase])
  have hGet : (s.settle g).liveHttpDownloader = s.liveHttpDownloader := rfl
  by_cases hCurrent : s.liveHttpDownloader = some g
  · have hRunning := (hSettled.running g).mpr hCurrent
    obtain ⟨c', hClient', hOpen, hTasks, hLt, hResumed⟩ := hSettled.active hCurrent (by
      simpa [LiveStream.settle] using hActive hCurrent)
    simp only [onRecvHttpHeaderSucced, if_pos hRunning]
    by_cases hCode : statusCode = 200 ∨ statusCode = 206
    · simp only [if_pos hCode]
      have hReceiving : ((s.settle g).modify g fun d =>
          { d with status := .recvingResponseData }).Invariant := by
        apply hSettled.modify rfl rfl rfl
        intro _
        constructor
        · intro _
          exact ⟨c', hClient', hOpen, hTasks⟩
        · intro _ _ _ _
          rfl
        · intro hPausing
          have hContra : ((s.settle g).downloaders g).isHttpPausing = true := hPausing
          simp [hResumed] at hContra
        · intro x hX
          exact (hSettled.shape g hCurrent).numbered x hX
      have hReady : ((s.settle g).modify g fun d =>
          { d with status := .recvingResponseData }).Ready g c.id := by
        intro _
        rw [modify_self]
        exact ⟨rfl, _, hIdle, rfl, rfl⟩
      apply (hReceiving.requestSubPiece hReady hConnects hSupplies).mono
      intro t hReceived
      exact hReceived.invariant
    · simp only [if_neg hCode]
      apply (hSettled.toLinked.closeAndSleep hCurrent hResumed (hSettled.shape g hCurrent).numbered).mono
      intro t hSlept
      exact hSlept.1
  · apply Settles.of_add 0 _ hSettled
    intro rounds
    simp [onRecvHttpHeaderSucced, hSettled.not_running hCurrent]

/-- A read ends with data. -/
theorem Invariant.data (h : s.Invariant) {c : HttpClient}
    (hClient : (s.downloaders g).httpClient = some c) (hPhase : c.phase = .reading)
    {switches : List Switch}
    (hSwitches : ∀ change ∈ switches, ∀ x ∈ change.answers, x.connectFails = false)
    (hConnects : answers.connectFails = false) {supplies : List Supply}
    (hSupplies : ∀ supply ∈ supplies, ∀ x ∈ supply.answers, x.connectFails = false) :
    Settles (fun rounds => (s.settle g).onRecvHttpDataSucced rounds g c.blockId switches
      (LiveStream.requestSubPiece answers rounds g supplies))
      (Received answers supplies (s.settle g) g c.id) := by
  obtain ⟨hSettled, hActive, hIdle⟩ := h.settle hClient (by simp [hPhase]) (by simp [hPhase])
  apply hSettled.onRecvHttpDataSucced
  · intro hCurrent
    refine ⟨?_, _, hIdle, rfl, rfl⟩
    simpa [LiveStream.settle] using hActive hCurrent
  · intro hCurrent
    have hTasks := (h.resumed_of_busy hClient (by simp [hPhase]) (by simp [hPhase]) hCurrent).1
    simpa [LiveStream.settle] using hTasks
  · exact hSwitches
  · intro t hInvariant hReady
    exact hInvariant.requestSubPiece hReady hConnects hSupplies

/-- The connection ends after data. With a chunked response `OnComplete` follows, which
needs a task. -/
theorem Received.dataEnd {supplies : List Supply} {c : HttpClient}
    (h : Received answers supplies s g c.id t) (hConnects : answers.connectFails = false)
    {isChunked : Bool} (hFound : isChunked = true → .blockComplete ∈ supplies →
      s.findBlock (.http g) answers ≠ none) :
    Settles (fun rounds => (if (t.downloaders g).hasHandler c.id then
        if isChunked then t.onComplete answers rounds g else t.onError rounds g
      else some t).map (·.modify g (.closeNumbered c.id))) Invariant := by
  by_cases hHandler : (t.downloaders g).hasHandler c.id = true
  · simp only [if_pos hHandler]
    cases isChunked with
    | false => exact h.invariant.onError h.resumed c.id
    | true =>
        by_cases hCurrent : t.liveHttpDownloader = some g
        · cases hTasks : (t.downloaders g).blockTasks with
          | nil =>
              obtain ⟨hMem, hNone⟩ := h.front hCurrent hTasks hHandler
              exact absurd hNone (hFound rfl hMem)
          | cons blockId rest =>
              obtain ⟨c', hClient, hSame⟩ : ∃ c', (t.downloaders g).httpClient = some c' ∧ c'.id = c.id := by
                obtain ⟨c', hClient, hOpen⟩ := (Option.any_eq_true _ _).mp hHandler
                exact ⟨c', hClient, (by simpa using hOpen : c'.id = c.id ∧ _).1⟩
              simp only [if_true, ← hSame]
              apply (h.invariant.toLinked.onComplete hCurrent hTasks hConnects).map
              intro u hCompleted
              exact hCompleted.closeNumbered h.invariant hCurrent hClient (h.resumed hCurrent)
        · simp only [LiveStream.onComplete, h.invariant.not_running hCurrent, Bool.false_eq_true,
            if_false, if_true, Option.map_some]
          exact .const (h.invariant.closeNumbered fun hContra => absurd hContra hCurrent)
  · simp only [if_neg hHandler, Option.map_some]
    apply Settles.const
    apply h.invariant.closeNumbered
    intro _ _
    simpa using hHandler

end LiveStream

def Action.answers : Action → List Answers
  | .start | .stop | .pause | .p2pRemove _ | .connectSucced _ | .connectFailed _ | .headerFailed _
  | .dataFailed _ => []
  | .resume answers | .dataRateChanged answers | .posted _ answers | .timerElapsed _ answers
  | .p2pRequest _ answers => [answers]
  | .headerSucced _ _ supplies answers => answers :: supplies.flatMap Supply.answers
  | .data _ switches supplies answers | .dataEnd _ _ switches supplies answers =>
    answers :: (switches.flatMap Switch.answers ++ supplies.flatMap Supply.answers)

namespace LiveStream

variable {s t : LiveStream} {g g' blockId : Nat} {f : LiveHttpDownloader → LiveHttpDownloader}
  {answers : Answers}

/-- No `Connect` fails before it returns. If the data that ends a chunked response complete
the block, the search for the next block is not refused. -/
def Met (s : LiveStream) (a : Action) : Prop :=
  (∀ x ∈ a.answers, x.connectFails = false) ∧
    ∀ g switches supplies answers, a = .dataEnd g true switches supplies answers →
      .blockComplete ∈ supplies → s.findBlock (.http g) answers ≠ none

theorem findBlock_settle {request : Owner} :
    (s.settle g).findBlock request answers = s.findBlock request answers := by
  have hTake : (s.settle g).mayTake request = s.mayTake request := by
    funext candidate
    unfold mayTake isTimeout
    have hPausing : ∀ g', ((s.settle g).downloaders g').isHttpPausing =
        (s.downloaders g').isHttpPausing := by
      intro g'
      by_cases hEq : g' = g
      · subst hEq
        simp [LiveStream.settle]
      · rw [LiveStream.settle, modify_of_ne hEq]
    simp only [hPausing]
    rfl
  rw [findBlock, findBlock, hTake]

/-- Every action that meets the condition returns and keeps the invariant. -/
theorem Invariant.next (h : s.Invariant) {a : Action} (hMet : s.Met a) :
    Settles (fun rounds => s.next rounds a) Invariant := by
  obtain ⟨hConnects, hFound⟩ := hMet
  have hFlat : ∀ {switches : List Switch}, (∀ x ∈ switches.flatMap Switch.answers, x.connectFails = false) →
      ∀ change ∈ switches, ∀ x ∈ change.answers, x.connectFails = false :=
    fun hAll change hMem x hX => hAll x (List.mem_flatMap.mpr ⟨change, hMem, hX⟩)
  have hFlat' : ∀ {supplies : List Supply}, (∀ x ∈ supplies.flatMap Supply.answers, x.connectFails = false) →
      ∀ supply ∈ supplies, ∀ x ∈ supply.answers, x.connectFails = false :=
    fun hAll supply hMem x hX => hAll x (List.mem_flatMap.mpr ⟨supply, hMem, hX⟩)
  cases a with
  | start => exact .const h.start
  | stop => exact .const h.stop
  | pause =>
      simp only [LiveStream.next]
      cases hCurrent : s.liveHttpDownloader with
      | none => exact .const h
      | some g => exact (h.pause hCurrent).mono fun t hT => hT.1
  | resume answers =>
      simp only [LiveStream.next]
      cases hCurrent : s.liveHttpDownloader with
      | none => exact .const h
      | some g => exact (h.resume g (hConnects answers (by simp [Action.answers]))).mono fun t hT => hT.1
  | dataRateChanged answers =>
      simp only [LiveStream.next]
      cases hCurrent : s.liveHttpDownloader with
      | none => exact .const h
      | some g =>
          simp only [onDataRateChanged]
          by_cases hPausing : (s.downloaders g).isHttpPausing = true
          · simp only [if_pos hPausing]
            exact .const h
          · simp only [if_neg hPausing]
            apply (h.pause hCurrent).bind
            intro t hPaused
            exact (hPaused.1.resume g (hConnects answers (by simp [Action.answers]))).mono
              fun u hU => hU.1
  | posted g answers =>
      simp only [LiveStream.next]
      by_cases hMem : g ∈ s.posted
      · simp only [if_pos hMem]
        have hTaken : { s with posted := s.posted.erase g }.Invariant := ⟨{ h.toLinked with }, h.shape⟩
        exact (hTaken.resume g (hConnects answers (by simp [Action.answers]))).mono fun t hT => hT.1
      · simp only [if_neg hMem]
        exact .const h
  | timerElapsed g answers =>
      simp only [LiveStream.next]
      by_cases hTimer : (s.downloaders g).sleepTimer = true
      · simp only [if_pos hTimer]
        exact h.onTimerElapsed (hConnects answers (by simp [Action.answers]))
      · simp only [if_neg hTimer]
        exact .const h
  | p2pRequest g answers => exact h.requestNextBlock_p2p
  | p2pRemove blockId => exact h.removeBlockTask blockId
  | connectSucced g =>
      simp only [LiveStream.next]
      cases hClient : s.client g [.connecting] with
      | none => exact .const h
      | some c =>
          obtain ⟨hC, hPhase⟩ := client_eq_some hClient
          exact .const (h.connectSucced hC (by simpa using hPhase))
  | connectFailed g =>
      simp only [LiveStream.next]
      cases hClient : s.client g [.connecting] with
      | none => exact .const h
      | some c =>
          obtain ⟨hC, hPhase⟩ := client_eq_some hClient
          exact .const (h.connectFailed hC (by simpa using hPhase))
  | headerSucced g statusCode supplies answers =>
      simp only [LiveStream.next]
      cases hClient : s.client g [.requesting] with
      | none => exact .const h
      | some c =>
          obtain ⟨hC, hPhase⟩ := client_eq_some hClient
          exact h.headerSucced hC (by simpa using hPhase) statusCode
            (hConnects answers (by simp [Action.answers]))
            (hFlat' fun x hX => hConnects x (by simp only [Action.answers, List.mem_cons]; exact .inr hX))
  | headerFailed g =>
      simp only [LiveStream.next]
      cases hClient : s.client g [.requesting] with
      | none => exact .const h
      | some c =>
          obtain ⟨hC, hPhase⟩ := client_eq_some hClient
          rw [List.mem_singleton] at hPhase
          exact h.onError (fun hCurrent => (h.resumed_of_busy hC (by simp [hPhase]) (by simp [hPhase]) hCurrent).2) c.id
  | data g switches supplies answers =>
      simp only [LiveStream.next]
      cases hClient : s.client g [.reading] with
      | none => exact .const h
      | some c =>
          obtain ⟨hC, hPhase⟩ := client_eq_some hClient
          apply (h.data hC (by simpa using hPhase)
            (hFlat fun x hX => hConnects x (List.mem_cons_of_mem _ (List.mem_append_left _ hX)))
            (hConnects answers (by simp [Action.answers]))
            (hFlat' fun x hX => hConnects x (List.mem_cons_of_mem _ (List.mem_append_right _ hX)))).mono
          intro t hReceived
          exact hReceived.invariant
  | dataEnd g isChunked switches supplies answers =>
      simp only [LiveStream.next]
      cases hClient : s.client g [.reading] with
      | none => exact .const h
      | some c =>
          obtain ⟨hC, hPhase⟩ := client_eq_some hClient
          apply (h.data hC (by simpa using hPhase)
            (hFlat fun x hX => hConnects x (List.mem_cons_of_mem _ (List.mem_append_left _ hX)))
            (hConnects answers (by simp [Action.answers]))
            (hFlat' fun x hX => hConnects x (List.mem_cons_of_mem _ (List.mem_append_right _ hX)))).bind
          intro t hReceived
          apply hReceived.dataEnd (hConnects answers (by simp [Action.answers]))
          intro hChunked hMem
          subst hChunked
          rw [findBlock_settle]
          exact hFound g switches supplies answers rfl hMem
  | dataFailed g =>
      simp only [LiveStream.next]
      cases hClient : s.client g [.requesting, .reading] with
      | none => exact .const h
      | some c =>
          obtain ⟨hC, hPhase⟩ := client_eq_some hClient
          have hBusy : c.phase ≠ .idle ∧ c.phase ≠ .closed := by
            obtain hEq | hEq : c.phase = .requesting ∨ c.phase = .reading := by simpa using hPhase
            · simp [hEq]
            · simp [hEq]
          exact h.onError (fun hCurrent => (h.resumed_of_busy hC hBusy.1 hBusy.2 hCurrent).2) c.id

/-- The action happens and comes to an end. -/
def Step (s : LiveStream) (a : Action) (t : LiveStream) : Prop :=
  Settles (fun rounds => s.next rounds a) (· = t)

/-- What an active downloader asked for is its task in front, the tasks are what the manager
says that the downloader requests, and data are stored under the block they came for. -/
structure Paired (s : LiveStream) : Prop where
  requested : ∀ g, (s.downloaders g).isRunning = true → (s.downloaders g).status.isActive = true →
    ∃ c, (s.downloaders g).httpClient = some c ∧ c.phase ≠ .closed ∧
      (s.downloaders g).blockTasks.head? = some c.blockId
  owned : ∀ g blockId, blockId ∈ (s.downloaders g).blockTasks ↔
    s.liveBlockRequestingMap blockId = some (.http g)
  stored : ∀ entry ∈ s.stored, entry.1 = entry.2

theorem Invariant.paired (h : s.Invariant) : s.Paired where
  requested g hRunning hActive := by
    obtain ⟨c, hClient, hOpen, hTasks⟩ := (h.shape g ((h.running g).mp hRunning)).active hActive
    exact ⟨c, hClient, hOpen, by rw [hTasks]; rfl⟩
  owned := h.owned
  stored := h.stored

theorem invariant_initial : initial.Invariant where
  owned g blockId := by simp [initial, LiveHttpDownloader.absent]
  single g := by simp [initial, LiveHttpDownloader.absent]
  running g := by simp [initial, LiveHttpDownloader.absent]
  idle := by simp [initial]
  bounded g := by simp [initial]
  fresh g _ := rfl
  streamed g := rfl
  stored entry hMem := by cases hMem
  shape g hCurrent := by cases hCurrent

/-- In every run whose actions meet the condition the pairing holds, and every further
action that meets it comes to an end. -/
theorem paired_of_run (run : Reaches Step Met initial s) :
    s.Paired ∧ ∀ a, s.Met a → ∃ t, Step s a t := by
  have hInvariant : s.Invariant := by
    apply run.invariant (P := Invariant) invariant_initial
    intro x a y hx hMet hStep
    exact (hx.next hMet).elim hStep
  refine ⟨hInvariant.paired, fun a hMet => ?_⟩
  obtain ⟨t, hReturns, -⟩ := hInvariant.next hMet
  exact ⟨t, t, hReturns, rfl⟩

section Samples

/-- The search is shown one block, and the request for it is late. -/
def oneBlock (blockId : Nat) : Answers := ⟨[(blockId, true)], false⟩

theorem took {guard : LiveStream → Action → Prop} (run : Reaches Step guard initial s) (a : Action)
    (hMet : guard s a) (h : ∀ rounds, s.next (rounds + 8) a = some t) :
    Reaches Step guard initial t :=
  run.tail hMet (.of_add 8 h rfl)

theorem met_of_quiet {a : Action} (hAnswers : (a.answers.all fun x => !x.connectFails) = true)
    (hEnd : ∀ g switches supplies answers, a ≠ .dataEnd g true switches supplies answers) : s.Met a := by
  refine ⟨fun x hMem => ?_, fun g switches supplies answers hEq =>
    absurd hEq (hEnd g switches supplies answers)⟩
  simpa using List.all_eq_true.mp hAnswers x hMem

/-- A block is requested and received in part, the P2P downloader takes it over, and the
posted `Resume` requests another one. -/
theorem paired_of_stolen : ∃ s, (s.Paired ∧ ∀ a, s.Met a → ∃ t, Step s a t) ∧
    s.stored = [(5, 5)] ∧ s.liveBlockRequestingMap 5 = some (.p2p 0) ∧
      s.liveBlockRequestingMap 10 = some (.http 0) := by
  have hMet : ∀ {x : LiveStream} {a : Action}, (a.answers.all fun x => !x.connectFails) = true →
      (∀ g switches supplies answers, a ≠ .dataEnd g true switches supplies answers) → x.Met a :=
    met_of_quiet
  have opened := took (.refl initial) .start (hMet rfl nofun) fun _ => rfl
  have resumed := took opened (.resume (oneBlock 5)) (hMet rfl nofun) fun _ => rfl
  have connected := took resumed (.connectSucced 0) (hMet rfl nofun) fun _ => rfl
  have reading := took connected (.headerSucced 0 200 [] (oneBlock 5)) (hMet rfl nofun) fun _ => rfl
  have stored := took reading (.data 0 [] [] (oneBlock 5)) (hMet rfl nofun) fun _ => rfl
  have stolen := took stored (.p2pRequest 0 (oneBlock 5)) (hMet rfl nofun) fun _ => rfl
  have again := took stolen (.posted 0 (oneBlock 10)) (hMet rfl nofun) fun _ => rfl
  exact ⟨_, paired_of_run again, rfl, rfl, rfl⟩

/-- A connection that fails within `Connect` leaves a downloader that is connecting and whose
client is closed. A chunked response whose last data complete the block, while memory is
short, makes `OnComplete` read the front of no tasks. -/
theorem paired_fails :
    (∃ s, Reaches Step (fun _ _ => True) initial s ∧
      (s.downloaders 0).isRunning = true ∧ (s.downloaders 0).status = .connecting ∧
        (∃ c, (s.downloaders 0).httpClient = some c ∧ c.phase = .closed) ∧ ¬ s.Paired) ∧
    (∃ s a, Reaches Step (fun _ _ => True) initial s ∧
      (∀ rounds, s.next (rounds + 8) a = none) ∧ ¬ ∃ t, Step s a t) := by
  have first : Reaches Step (fun _ _ => True) initial initial := .refl initial
  have opened := took first .start trivial fun _ => rfl
  constructor
  · have failed := took opened (.resume ⟨[(5, true)], true⟩) trivial fun _ => rfl
    refine ⟨_, failed, rfl, rfl, ⟨_, rfl, rfl⟩, ?_⟩
    intro hPaired
    obtain ⟨c, hClient, hOpen, -⟩ := hPaired.requested 0 rfl rfl
    cases hClient
    exact hOpen rfl
  · have resumed := took opened (.resume (oneBlock 5)) trivial fun _ => rfl
    have connected := took resumed (.connectSucced 0) trivial fun _ => rfl
    have reading := took connected (.headerSucced 0 200 [] (oneBlock 5)) trivial fun _ => rfl
    refine ⟨_, .dataEnd 0 true [] [.blockComplete] ⟨[], false⟩, reading, fun _ => rfl, ?_⟩
    rintro ⟨t, _, ⟨enough, hReturns⟩, rfl⟩
    have hNone := hReturns (enough + 8) (Nat.le_add_right ..)
    cases hNone

end Samples

end LiveStream

end Live.Http
