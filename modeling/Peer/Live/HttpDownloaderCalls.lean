import Peer.Live.HttpDownloaderTasks

/-! What calls of the driver and callbacks of the clients keep. Most callbacks come back
to the tasks, and a change of the data rate may stop the downloader in between. -/
namespace Live.Http

open Basis

def Switch.answers : Switch → List Answers
  | .leaves => []
  | .returns _ answers => [answers]

def Supply.answers : Supply → List Answers
  | .buffered switches => switches.flatMap Switch.answers
  | .blockComplete | .contentEnds => []

namespace LiveStream

variable {s t : LiveStream} {g g' blockId : Nat} {f : LiveHttpDownloader → LiveHttpDownloader}
  {answers : Answers}

/-! ## Calls of the driver -/

/-- The client neither connects nor waits for anything. -/
def Quiet (d : LiveHttpDownloader) : Prop :=
  ∀ c, d.httpClient = some c → c.phase = .idle ∨ c.phase = .closed

theorem quiet_of_inactive {d : LiveHttpDownloader} (h : d.Shape) (hStatus : d.status.isActive = false) :
    Quiet d := by
  intro c hClient
  by_contra hBusy
  rw [not_or] at hBusy
  have hActive := h.busy c hClient hBusy.1 hBusy.2
  simp [hStatus] at hActive

/-- A quiet downloader that is made idle. -/
theorem shape_of_quiet {d : LiveHttpDownloader} (hStatus : d.status.isActive = false)
    (hQuiet : Quiet d) (hPausing : d.isHttpPausing = true → d.status = .closed ∧ d.blockTasks = [])
    (hNumbered : ∀ c, d.httpClient = some c → c.id < d.clients) : d.Shape where
  active hActive := by simp [hStatus] at hActive
  busy c hClient hIdle hClosed := ((hQuiet c hClient).elim hIdle hClosed).elim
  pausing := hPausing
  numbered := hNumbered

theorem quiet_closeHttpClient (d : LiveHttpDownloader) : Quiet d.closeHttpClient := by
  intro c hClient
  obtain ⟨c', -, rfl⟩ := Option.map_eq_some_iff.mp hClient
  exact .inr rfl

theorem numbered_closeHttpClient {d : LiveHttpDownloader}
    (h : ∀ c, d.httpClient = some c → c.id < d.clients) :
    ∀ c, d.closeHttpClient.httpClient = some c → c.id < d.clients := by
  intro c hClient
  obtain ⟨c', hFormer, rfl⟩ := Option.map_eq_some_iff.mp hClient
  exact h c' hFormer

theorem Invariant.pause (h : s.Invariant) (hCurrent : s.liveHttpDownloader = some g) :
    Settles (fun rounds => s.pause rounds g) fun t => t.Invariant ∧ s.Keeps t := by
  have hRunning := (h.running g).mpr hCurrent
  have hStream : (s.downloaders g).liveStream = true := (h.streamed g).trans hRunning
  by_cases hPausing : (s.downloaders g).isHttpPausing = true
  · apply Settles.of_add 1 _ ⟨h, .refl s⟩
    intro rounds
    rw [LiveStream.pause, if_pos hPausing]
  · have hLinked : (s.modify g .beginPause).Linked := h.toLinked.modify rfl rfl rfl
    have hKeeps : s.Keeps (s.modify g .beginPause) := keeps_modify rfl rfl
    have hCleared := hLinked.cleared_self (g := g) (.inl (by rw [modify_self]; rfl))
    apply Settles.of_add 6
    · intro rounds
      rw [LiveStream.pause, if_neg hPausing, hLinked.removeBlockTasks_eq]
      · rfl
      · rw [modify_self]
        exact hStream
    · have hThen := hKeeps.trans (keeps_cleared (s.modify g .beginPause) g)
      constructor
      · refine ⟨(hLinked.cleared g).modify rfl rfl rfl, fun g' hCurrent' => ?_⟩
        rw [modify_current, hThen.current, hCurrent] at hCurrent'
        cases hCurrent'
        rw [modify_self, hCleared, modify_self]
        apply shape_of_quiet rfl
        · exact quiet_closeHttpClient _
        · intro _
          exact ⟨rfl, rfl⟩
        · exact numbered_closeHttpClient (h.shape g hCurrent).numbered
      · exact hThen.trans (keeps_modify rfl rfl)

theorem Invariant.resume (h : s.Invariant) (g : Nat) (hConnects : answers.connectFails = false) :
    Settles (fun rounds => s.resume answers rounds g) fun t => t.Invariant ∧ s.Keeps t := by
  by_cases hPausing : (s.downloaders g).isHttpPausing = true
  · have hLinked : (s.modify g fun d => { d with isHttpPausing := false, status := .closed }).Linked :=
      h.toLinked.modify rfl rfl rfl
    have hKeeps : s.Keeps (s.modify g fun d => { d with isHttpPausing := false, status := .closed }) :=
      keeps_modify rfl rfl
    simp only [LiveStream.resume, if_pos hPausing]
    by_cases hCurrent : s.liveHttpDownloader = some g
    · have hShape := h.shape g hCurrent
      have hFormer := hShape.pausing hPausing
      have hQuiet : Quiet (s.downloaders g) := quiet_of_inactive hShape (by rw [hFormer.1]; rfl)
      apply (hLinked.httpRequestNextBlock hCurrent _ _ hConnects).mono
      · intro t hSearch
        refine ⟨hSearch.invariant hCurrent ?_ ?_, hKeeps.trans hSearch.keeps⟩
        · rw [modify_self]
          apply shape_of_quiet rfl
          · exact hQuiet
          · intro hContra
            cases hContra
          · exact hShape.numbered
        · rw [modify_self]
      · rw [modify_self]
        exact hFormer.2
      · rw [modify_self]
    · have hStream : (s.downloaders g).liveStream = false := by
        rw [h.streamed, ← Bool.not_eq_true, h.running]
        exact hCurrent
      have hStopped := h.modify (f := fun d => { d with isHttpPausing := false, status := .closed })
        rfl rfl rfl fun hContra => absurd hContra hCurrent
      apply Settles.of_add 0 _ ⟨hStopped, hKeeps⟩
      intro rounds
      rw [LiveStream.httpRequestNextBlock, modify_self, if_neg (by simp [hStream])]
  · simp only [LiveStream.resume, if_neg hPausing]
    exact .const ⟨h, .refl s⟩

theorem Invariant.start (h : s.Invariant) : s.start.Invariant := by
  unfold LiveStream.start
  split
  · exact h
  · rename_i hStopped
    have hNone := h.idle.mp (by simpa using hStopped)
    have hTasks : ∀ g, (Function.update s.downloaders s.created .started g).blockTasks =
        (s.downloaders g).blockTasks := by
      intro g
      by_cases hEq : g = s.created
      · subst hEq
        rw [Function.update_self, h.fresh s.created (Nat.le_refl _)]
        rfl
      · rw [Function.update_of_ne hEq]
    refine ⟨⟨?_, ?_, ?_, ?_, ?_, ?_, ?_, h.stored⟩, ?_⟩
    · intro g blockId
      rw [hTasks, h.owned]
    · intro g
      rw [hTasks]
      exact h.single g
    · intro g
      by_cases hEq : g = s.created
      · subst hEq
        simp [LiveHttpDownloader.started]
      · have hIdle := h.running g
        rw [hNone] at hIdle
        simpa [hEq, Ne.symm hEq] using hIdle
    · constructor <;> intro hContra <;> cases hContra
    · intro g hCurrent
      cases hCurrent
      exact Nat.lt_succ_self _
    · intro g hCreated
      rw [hTasks]
      exact h.fresh g (Nat.le_of_succ_le hCreated)
    · intro g
      by_cases hEq : g = s.created
      · subst hEq
        simp [LiveHttpDownloader.started]
      · simpa [hEq] using h.streamed g
    · intro g hCurrent
      cases hCurrent
      show (Function.update s.downloaders s.created .started s.created).Shape
      rw [Function.update_self]
      apply shape_of_quiet rfl
      · intro c hClient
        cases hClient
      · intro _
        exact ⟨rfl, rfl⟩
      · intro c hClient
        cases hClient

theorem Invariant.stop (h : s.Invariant) : s.stop.Invariant := by
  unfold LiveStream.stop
  split
  · cases hCurrent : s.liveHttpDownloader with
    | none => exact h
    | some g =>
        have hTasks : ∀ g', ((s.modify g .stop).downloaders g').blockTasks =
            (s.downloaders g').blockTasks := by
          intro g'
          by_cases hEq : g' = g
          · subst hEq
            rw [modify_self]
            rfl
          · rw [modify_of_ne hEq]
        refine ⟨⟨?_, ?_, ?_, ?_, ?_, ?_, ?_, h.stored⟩, ?_⟩
        · intro g' blockId
          rw [hTasks]
          exact h.owned g' blockId
        · intro g'
          rw [hTasks]
          exact h.single g'
        · intro g'
          by_cases hEq : g' = g
          · subst hEq
            rw [modify_self]
            simp [LiveHttpDownloader.stop]
          · have hOther := h.running g'
            rw [hCurrent] at hOther
            rw [modify_of_ne hEq]
            simpa [Ne.symm hEq] using hOther
        · exact ⟨fun _ => rfl, fun _ => rfl⟩
        · intro g' hContra
          cases hContra
        · intro g' hCreated
          rw [hTasks]
          exact h.fresh g' hCreated
        · intro g'
          by_cases hEq : g' = g
          · subst hEq
            rw [modify_self]
            rfl
          · rw [modify_of_ne hEq]
            exact h.streamed g'
        · intro g' hContra
          cases hContra
  · exact h

/-- A stream that a change of the data rate leaves has no downloader, and one that it comes
back to has a new one. -/
structure Switched (s t : LiveStream) : Prop where
  invariant : t.Invariant
  created : s.created ≤ t.created
  current : ∀ g, t.liveHttpDownloader = some g → s.created ≤ g

theorem Invariant.switch_leaves (h : s.Invariant) :
    s.Switched s.stop ∧ s.stop.isRunning = false := by
  have hStop := h.stop
  unfold LiveStream.stop at hStop ⊢
  cases hRunning : s.isRunning with
  | false =>
      have hNone := h.idle.mp hRunning
      rw [if_neg (by simp)]
      exact ⟨⟨h, Nat.le_refl _, fun g hCurrent => by simp [hNone] at hCurrent⟩, hRunning⟩
  | true =>
      simp only [hRunning, if_true] at hStop ⊢
      cases hCurrent : s.liveHttpDownloader with
      | none => simp [h.idle.mpr hCurrent] at hRunning
      | some g =>
          rw [hCurrent] at hStop
          exact ⟨⟨hStop, Nat.le_refl _, fun g' hContra => by cases hContra⟩, rfl⟩

theorem Invariant.switch (h : s.Invariant) (change : Switch)
    (hConnects : ∀ answers ∈ change.answers, answers.connectFails = false) :
    Settles (fun rounds => s.switch rounds change) s.Switched := by
  obtain ⟨hLeft, hStopped⟩ := h.switch_leaves
  cases change with
  | leaves => exact .const hLeft
  | returns httpPaused answers =>
      have hStart := hLeft.invariant.start
      have hCurrent : s.stop.start.liveHttpDownloader = some s.stop.created := by
        simp [LiveStream.start, hStopped]
      have hCreated : s.stop.start.created = s.stop.created + 1 := by
        simp [LiveStream.start, hStopped]
      have hBack : s.Switched s.stop.start := by
        refine ⟨hStart, ?_, fun g hG => ?_⟩
        · have hLe := hLeft.created
          omega
        · rw [hCurrent] at hG
          cases hG
          exact hLeft.created
      simp only [LiveStream.switch, hCurrent]
      cases httpPaused with
      | true => exact .const hBack
      | false =>
          apply (hStart.resume s.stop.created (hConnects answers (by simp [Switch.answers]))).mono
          rintro t ⟨hResumed, hKeeps⟩
          refine ⟨hResumed, ?_, ?_⟩
          · rw [hKeeps.created]
            exact hBack.created
          · rw [hKeeps.current]
            exact hBack.current

theorem Invariant.switchAll (h : s.Invariant) {switches : List Switch}
    (hConnects : ∀ change ∈ switches, ∀ answers ∈ change.answers, answers.connectFails = false) :
    Settles (fun rounds => switchAll rounds s switches)
      fun t => t.Invariant ∧ (t = s ∨ s.Switched t) := by
  induction switches generalizing s with
  | nil => exact .const ⟨h, .inl rfl⟩
  | cons first rest ih =>
      simp only [LiveStream.switchAll]
      apply (h.switch first (hConnects first (by simp))).bind
      intro t hFirst
      apply (ih hFirst.invariant fun change hMem => hConnects change (by simp [hMem])).mono
      rintro u ⟨hInvariant, rfl | hRest⟩
      · exact ⟨hInvariant, .inr hFirst⟩
      · exact ⟨hInvariant, .inr ⟨hInvariant, Nat.le_trans hFirst.created hRest.created,
          fun g hCurrent => Nat.le_trans hFirst.created (hRest.current g hCurrent)⟩⟩

/-! ## Callbacks of the client -/

theorem Invariant.active (h : s.Invariant) (hCurrent : s.liveHttpDownloader = some g)
    (hActive : (s.downloaders g).status.isActive = true) :
    ∃ c, (s.downloaders g).httpClient = some c ∧ c.phase ≠ .closed ∧
      (s.downloaders g).blockTasks = [c.blockId] ∧ c.id < (s.downloaders g).clients ∧
      (s.downloaders g).isHttpPausing = false := by
  have hShape := h.shape g hCurrent
  obtain ⟨c, hClient, hOpen, hTasks⟩ := hShape.active hActive
  refine ⟨c, hClient, hOpen, hTasks, hShape.numbered c hClient, ?_⟩
  rw [← Bool.not_eq_true]
  intro hPausing
  have hNil := (hShape.pausing hPausing).2
  simp [hTasks] at hNil

/-- Removing the task of a downloader lets a search take what it could take before. -/
theorem findBlock_of_removed {request : Owner} (hPausing : ∀ g',
      (s.downloaders g').isHttpPausing = true → (t.downloaders g').isHttpPausing = true)
    (hMap : ∀ b, t.liveBlockRequestingMap b = s.liveBlockRequestingMap b ∨
      t.liveBlockRequestingMap b = none)
    (hNone : t.findBlock request answers = none) : s.findBlock request answers = none := by
  rw [findBlock, Option.map_eq_none_iff, List.find?_eq_none] at hNone ⊢
  intro candidate hMem hTake
  apply hNone candidate hMem
  unfold mayTake at hTake ⊢
  obtain hSame | hGone := hMap candidate.1
  · rw [hSame]
    cases hOwner : s.liveBlockRequestingMap candidate.1 with
    | none => rfl
    | some owner =>
        rw [hOwner] at hTake
        cases owner with
        | p2p k => exact hTake
        | http g' =>
            simp only [isTimeout, Bool.and_eq_true, Bool.or_eq_true] at hTake ⊢
            exact ⟨hTake.1, hTake.2.imp_right (hPausing g')⟩
  · rw [hGone]

/-- How `OnComplete` ends for a downloader with a task. -/
structure Completed (answers : Answers) (s : LiveStream) (g : Nat) (t : LiveStream) : Prop where
  linked : t.Linked
  keeps : s.Keeps t
  outcome : (s.findBlock (.http g) answers = none ∧
      t.downloaders g = { s.downloaders g with status := .closed, blockTasks := [] }) ∨
    ∃ blockId, t.downloaders g =
      LiveHttpDownloader.opened blockId { s.downloaders g with status := .closed, blockTasks := [] }

theorem Linked.onComplete (h : s.Linked) (hCurrent : s.liveHttpDownloader = some g)
    {rest : List Nat} (hTasks : (s.downloaders g).blockTasks = blockId :: rest)
    (hConnects : answers.connectFails = false) :
    Settles (fun rounds => s.onComplete answers rounds g) (Completed answers s g) := by
  let idle := s.modify g fun d => { d with status := .closed }
  have hLinked : idle.Linked := h.modify rfl rfl rfl
  have hKeeps : s.Keeps idle := keeps_modify rfl rfl
  have hEntry : idle.liveBlockRequestingMap blockId = some (.http g) := h.entry_of_tasks hTasks
  have hIdleTasks : (idle.downloaders g).blockTasks = blockId :: rest := by
    rw [modify_self]
    exact hTasks
  have hCleared : idle.cleared g = idle.removed blockId := by
    rw [LiveStream.cleared, hIdleTasks]
  have hSelf : (idle.removed blockId).downloaders g =
      { s.downloaders g with status := .closed, blockTasks := [] } := by
    rw [← hCleared, hLinked.cleared_self (.inr (by rw [modify_self])), modify_self]
  have hThen := hKeeps.trans (keeps_removed idle blockId)
  have hSearch := (hLinked.removed blockId).httpRequestNextBlock
    (by rw [hThen.current, hCurrent]) (by rw [hSelf]) (by rw [hSelf]) hConnects
  have hRemove : Settles (fun rounds => idle.removeBlockTask rounds blockId)
      (· = idle.removed blockId) :=
    .of_add 4 (hLinked.removeBlockTask_eq blockId) rfl
  simp only [LiveStream.onComplete, if_pos ((h.running g).mpr hCurrent), hTasks]
  apply hRemove.bind
  rintro _ rfl
  rw [hSelf]
  apply hSearch.mono
  intro t hSearched
  refine ⟨hSearched.linked, hThen.trans hSearched.keeps, ?_⟩
  cases hFound : (idle.removed blockId).findBlock (.http g) answers with
  | none =>
      refine .inl ⟨findBlock_of_removed (fun g' hPausing => ?_) (fun b => ?_) hFound, ?_⟩
      · by_cases hEq : g' = g
        · subst hEq
          rw [hSelf]
          exact hPausing
        · rw [removed_of_ne (by rw [hEntry]; simpa using Ne.symm hEq), modify_of_ne hEq]
          exact hPausing
      · rw [removed_map]
        by_cases hEq : b = blockId
        · subst hEq
          exact .inr eraseEntry_self
        · exact .inl (Function.update_of_ne hEq ..)
      · rw [hSearched.refused hFound, hSelf]
  | some next =>
      rw [hSearched.found next hFound, hSelf]
      exact .inr ⟨next, rfl⟩

/-- `DoClose` and `SleepForConnect` -/
theorem Linked.closeAndSleep (h : s.Linked) (hCurrent : s.liveHttpDownloader = some g)
    (hResumed : (s.downloaders g).isHttpPausing = false)
    (hNumbered : ∀ c, (s.downloaders g).httpClient = some c → c.id < (s.downloaders g).clients) :
    Settles (fun rounds => (s.doClose rounds g).map (·.modify g .sleepForConnect)) fun t =>
      t.Invariant ∧ (t.downloaders g).status = .sleeping := by
  have hLinked : (s.modify g .closeDown).Linked := h.modify rfl rfl rfl
  have hKeeps : s.Keeps (s.modify g .closeDown) := keeps_modify rfl rfl
  have hStream : ((s.modify g .closeDown).downloaders g).liveStream = true := by
    rw [modify_self]
    exact (h.streamed g).trans ((h.running g).mpr hCurrent)
  have hSelf := hLinked.cleared_self (g := g) (.inr (by rw [modify_self]; rfl))
  have hThen := hKeeps.trans (keeps_cleared (s.modify g .closeDown) g)
  have hClose : Settles (fun rounds => s.doClose rounds g)
      (· = (s.modify g .closeDown).cleared g) :=
    .of_add 5 (hLinked.removeBlockTasks_eq hStream) rfl
  apply hClose.map
  rintro _ rfl
  refine ⟨⟨(hLinked.cleared g).modify rfl rfl rfl, fun g' hCurrent' => ?_⟩, by rw [modify_self]; rfl⟩
  rw [modify_current, hThen.current, hCurrent] at hCurrent'
  cases hCurrent'
  rw [modify_self, hSelf, modify_self]
  apply shape_of_quiet rfl
  · exact quiet_closeHttpClient _
  · intro hPausing
    have hContra : (s.downloaders g).isHttpPausing = true := hPausing
    simp [hResumed] at hContra
  · exact numbered_closeHttpClient (numbered_closeHttpClient hNumbered)

theorem Linked.not_running (h : s.Linked) (hCurrent : s.liveHttpDownloader ≠ some g) :
    (s.downloaders g).isRunning = false := by
  rw [← Bool.not_eq_true, h.running]
  exact hCurrent

/-- Closing a client that gave up its handler, or one that was replaced, changes nothing. -/
theorem Invariant.closeNumbered (h : s.Invariant) {id : Nat}
    (hGone : s.liveHttpDownloader = some g → (s.downloaders g).status.isActive = true →
      (s.downloaders g).hasHandler id = false) :
    (s.modify g (.closeNumbered id)).Invariant := by
  apply h.modify rfl rfl rfl
  intro hCurrent
  have hShape := h.shape g hCurrent
  constructor
  · intro hActive
    obtain ⟨c, hClient, hOpen, hTasks⟩ := hShape.active hActive
    have hOther := hGone hCurrent hActive
    simp only [LiveHttpDownloader.hasHandler, hClient, Option.any_some, decide_eq_false_iff_not,
      not_and, not_not] at hOther
    have hNe : c.id ≠ id := fun hEq => hOpen (hOther hEq)
    exact ⟨c, by simp [LiveHttpDownloader.closeNumbered, hClient, hNe], hOpen, hTasks⟩
  · intro c hClient hIdle hOpen
    obtain ⟨c', hFormer, rfl⟩ := Option.map_eq_some_iff.mp hClient
    by_cases hId : c'.id = id
    · rw [if_pos hId] at hOpen
      exact absurd rfl hOpen
    · rw [if_neg hId] at hIdle hOpen
      exact hShape.busy c' hFormer hIdle hOpen
  · exact hShape.pausing
  · intro c hClient
    obtain ⟨c', hFormer, rfl⟩ := Option.map_eq_some_iff.mp hClient
    have hLt := hShape.numbered c' hFormer
    split <;> exact hLt

/-- A client fails and closes itself. -/
theorem Invariant.onError (h : s.Invariant) (hResumed : s.liveHttpDownloader = some g →
      (s.downloaders g).isHttpPausing = false) (id : Nat) :
    Settles (fun rounds => (s.onError rounds g).map (·.modify g (.closeNumbered id))) Invariant := by
  by_cases hCurrent : s.liveHttpDownloader = some g
  · simp only [LiveStream.onError, if_pos ((h.running g).mpr hCurrent)]
    apply (h.toLinked.closeAndSleep hCurrent (hResumed hCurrent) (h.shape g hCurrent).numbered).map
    intro t ⟨hInvariant, hSleeping⟩
    apply hInvariant.closeNumbered
    intro _ hActive
    rw [hSleeping] at hActive
    cases hActive
  · simp only [LiveStream.onError, h.not_running hCurrent, Bool.false_eq_true, if_false, Option.map_some]
    exact .const (h.closeNumbered fun hContra => absurd hContra hCurrent)

/-- A client is past a phase, so what it waited for is over. -/
theorem Invariant.settle (h : s.Invariant) {c : HttpClient}
    (hClient : (s.downloaders g).httpClient = some c) (hIdle : c.phase ≠ .idle)
    (hOpen : c.phase ≠ .closed) :
    (s.settle g).Invariant ∧ (s.liveHttpDownloader = some g →
      (s.downloaders g).status.isActive = true) ∧
      ((s.settle g).downloaders g).httpClient = some { c with phase := .idle } := by
  have hSettled : ((s.settle g).downloaders g).httpClient = some { c with phase := .idle } := by
    simp [LiveStream.settle, hClient]
  refine ⟨?_, fun hCurrent => (h.shape g hCurrent).busy c hClient hIdle hOpen, hSettled⟩
  apply h.modify rfl rfl rfl
  intro hCurrent
  have hShape := h.shape g hCurrent
  constructor
  · intro hActive
    obtain ⟨c', hSame, -, hTasks⟩ := hShape.active hActive
    refine ⟨{ c' with phase := .idle }, by simp [hSame], by simp, hTasks⟩
  · intro c' hClient' hIdle'
    obtain ⟨c'', -, rfl⟩ := Option.map_eq_some_iff.mp hClient'
    exact absurd rfl hIdle'
  · exact hShape.pausing
  · intro c' hClient'
    obtain ⟨c'', hFormer, rfl⟩ := Option.map_eq_some_iff.mp hClient'
    exact hShape.numbered c'' hFormer

/-- The downloader, if it runs, waits with an idle client for the next subpiece. -/
def Ready (s : LiveStream) (g id : Nat) : Prop :=
  s.liveHttpDownloader = some g → (s.downloaders g).status.isActive = true ∧
    ∃ c, (s.downloaders g).httpClient = some c ∧ c.phase = .idle ∧ c.id = id

/-- Where reading subpieces ends. The task is gone only if the search for another one was
refused after the block was found to be complete. -/
structure Received (answers : Answers) (supplies : List Supply) (s : LiveStream) (g id : Nat)
    (t : LiveStream) : Prop where
  invariant : t.Invariant
  resumed : t.liveHttpDownloader = some g → (t.downloaders g).isHttpPausing = false
  front : t.liveHttpDownloader = some g → (t.downloaders g).blockTasks = [] →
    (t.downloaders g).hasHandler id = true →
    .blockComplete ∈ supplies ∧ s.findBlock (.http g) answers = none

theorem Completed.received (h : Completed answers s g t) (hInvariant : s.Invariant) {id : Nat}
    (hReady : s.Ready g id) (hCurrent : s.liveHttpDownloader = some g) (supplies : List Supply) :
    Received answers (.blockComplete :: supplies) s g id t := by
  obtain ⟨hActive, c, hClient, hIdle, rfl⟩ := hReady hCurrent
  obtain ⟨_, -, -, -, -, hResumed⟩ := hInvariant.active hCurrent hActive
  have hShape := hInvariant.shape g hCurrent
  obtain ⟨hRefused, hSelf⟩ | ⟨blockId, hSelf⟩ := h.outcome
  · constructor
    · refine ⟨h.linked, fun g' hCurrent' => ?_⟩
      rw [h.keeps.current, hCurrent] at hCurrent'
      cases hCurrent'
      rw [hSelf]
      apply shape_of_quiet rfl
      · intro c' hClient'
        rw [hClient] at hClient'
        cases hClient'
        exact .inl hIdle
      · intro _
        exact ⟨rfl, rfl⟩
      · exact hShape.numbered
    · intro _
      rw [hSelf]
      exact hResumed
    · intro _ _ _
      exact ⟨by simp, hRefused⟩
  · constructor
    · refine ⟨h.linked, fun g' hCurrent' => ?_⟩
      rw [h.keeps.current, hCurrent] at hCurrent'
      cases hCurrent'
      rw [hSelf]
      exact .opened blockId hResumed
    · intro _
      rw [hSelf]
      exact hResumed
    · intro _ hNil
      rw [hSelf] at hNil
      cases hNil

theorem Received.mono {supplies supplies' : List Supply} {id : Nat}
    (h : Received answers supplies s g id t) (hSub : supplies ⊆ supplies') :
    Received answers supplies' s g id t :=
  { h with front := fun hCurrent hNil hHandler => (h.front hCurrent hNil hHandler).imp_left (hSub ·) }

theorem hasHandler_closeNumbered (d : LiveHttpDownloader) (id : Nat) :
    (d.closeNumbered id).hasHandler id = false := by
  cases hClient : d.httpClient with
  | none => simp [LiveHttpDownloader.hasHandler, LiveHttpDownloader.closeNumbered, hClient]
  | some c =>
      by_cases hId : c.id = id
      · simp [LiveHttpDownloader.hasHandler, LiveHttpDownloader.closeNumbered, hClient, hId,
          HttpClient.close]
      · simp [LiveHttpDownloader.hasHandler, LiveHttpDownloader.closeNumbered, hClient, hId]

theorem Completed.closeNumbered (h : Completed answers s g t) (hInvariant : s.Invariant)
    (hCurrent : s.liveHttpDownloader = some g) {c : HttpClient}
    (hClient : (s.downloaders g).httpClient = some c)
    (hResumed : (s.downloaders g).isHttpPausing = false) :
    (t.modify g (.closeNumbered c.id)).Invariant := by
  have hShape := hInvariant.shape g hCurrent
  refine ⟨h.linked.modify rfl rfl rfl, fun g' hCurrent' => ?_⟩
  rw [modify_current, h.keeps.current, hCurrent] at hCurrent'
  cases hCurrent'
  rw [modify_self]
  obtain ⟨-, hSelf⟩ | ⟨blockId, hSelf⟩ := h.outcome
  · rw [hSelf]
    apply shape_of_quiet rfl
    · intro c' hClient'
      simp only [LiveHttpDownloader.closeNumbered, hClient, Option.map_some, if_true,
        Option.some.injEq] at hClient'
      subst hClient'
      exact .inr rfl
    · intro _
      exact ⟨rfl, rfl⟩
    · intro c' hClient'
      simp only [LiveHttpDownloader.closeNumbered, hClient, Option.map_some, if_true,
        Option.some.injEq] at hClient'
      subst hClient'
      exact hShape.numbered c hClient
  · have hLt := hShape.numbered c hClient
    have hSame : (t.downloaders g).closeNumbered c.id = t.downloaders g := by
      have hNe : (s.downloaders g).clients ≠ c.id := by omega
      rw [hSelf]
      simp [LiveHttpDownloader.closeNumbered, LiveHttpDownloader.opened,
        LiveHttpDownloader.openConnection, hNe]
    rw [hSame, hSelf]
    exact .opened blockId hResumed

/-- The end of the content is reached: the task is complete and the client closes itself. -/
theorem Invariant.contentEnds (h : s.Invariant) (hCurrent : s.liveHttpDownloader = some g)
    (hActive : (s.downloaders g).status.isActive = true) {c : HttpClient}
    (hClient : (s.downloaders g).httpClient = some c) (hConnects : answers.connectFails = false)
    (supplies : List Supply) :
    Settles (fun rounds => (s.onComplete answers rounds g).map (·.modify g (.closeNumbered c.id)))
      (Received answers supplies s g c.id) := by
  obtain ⟨_, -, -, hTasks, -, hResumed⟩ := h.active hCurrent hActive
  apply (h.toLinked.onComplete hCurrent hTasks hConnects).map
  intro t hCompleted
  constructor
  · exact hCompleted.closeNumbered h hCurrent hClient hResumed
  · intro _
    rw [modify_self]
    obtain ⟨-, hSelf⟩ | ⟨blockId, hSelf⟩ := hCompleted.outcome
    · show (t.downloaders g).isHttpPausing = false
      rw [hSelf]
      exact hResumed
    · show (t.downloaders g).isHttpPausing = false
      rw [hSelf]
      exact hResumed
  · intro _ _ hHandler
    rw [modify_self, hasHandler_closeNumbered] at hHandler
    cases hHandler

/-- The read from the socket is under way. -/
theorem Invariant.asyncRead (h : s.Invariant) {c : HttpClient}
    (hClient : (s.downloaders g).httpClient = some c) (hIdle : c.phase = .idle)
    (hActive : (s.downloaders g).status.isActive = true)
    (hCurrent : s.liveHttpDownloader = some g) (supplies : List Supply) :
    Received answers supplies s g c.id
      (s.modify g fun d => { d with httpClient := some c.asyncRead }) := by
  obtain ⟨c', hSame, -, hTasks, hLt, hResumed⟩ := h.active hCurrent hActive
  rw [hClient] at hSame
  cases hSame
  have hRead : c.asyncRead = { c with phase := .reading } := by
    simp [HttpClient.asyncRead, HttpClient.isRequesting, hIdle]
  constructor
  · apply h.modify rfl rfl rfl
    intro _
    constructor
    · intro _
      exact ⟨_, rfl, by simp [hRead], by simp [hRead, hTasks]⟩
    · intro _ _ _ _
      exact hActive
    · exact (h.shape g hCurrent).pausing
    · intro c' hClient'
      cases hClient'
      rw [hRead]
      exact hLt
  · intro _
    rw [modify_self]
    exact hResumed
  · intro _ hNil
    rw [modify_self] at hNil
    exact absurd (hTasks.symm.trans hNil) (by simp)

theorem requestSubPiece_stopped {rounds : Nat} (supplies : List Supply)
    (hStopped : (s.downloaders g).isRunning = false) :
    requestSubPiece answers rounds g supplies s = some s := by
  unfold requestSubPiece
  rw [if_pos hStopped]

theorem Invariant.received_stopped (h : s.Invariant) (hCurrent : s.liveHttpDownloader ≠ some g)
    {supplies : List Supply} {id : Nat} : Received answers supplies s g id s where
  invariant := h
  resumed hContra := absurd hContra hCurrent
  front hContra := absurd hContra hCurrent

theorem Invariant.store (h : s.Invariant) {entry : Nat × Nat} (hEntry : entry.1 = entry.2) :
    { s with stored := s.stored ++ [entry] }.Invariant := by
  refine ⟨{ h.toLinked with stored := fun e hMem => ?_ }, h.shape⟩
  obtain hOld | hNew := List.mem_append.mp hMem
  · exact h.stored e hOld
  · rw [List.mem_singleton.mp hNew]
    exact hEntry

/-- A subpiece is stored and the next one asked for. -/
theorem Invariant.onRecvHttpDataSucced (h : s.Invariant) {id requested : Nat}
    (hReady : s.Ready g id) (hRequested : s.liveHttpDownloader = some g →
      (s.downloaders g).blockTasks = [requested])
    {switches : List Switch}
    (hSwitches : ∀ change ∈ switches, ∀ x ∈ change.answers, x.connectFails = false)
    {supplies : List Supply}
    (hRest : ∀ t : LiveStream, t.Invariant → t.Ready g id →
      Settles (fun rounds => requestSubPiece answers rounds g supplies t)
        (Received answers supplies t g id)) :
    Settles (fun rounds => s.onRecvHttpDataSucced rounds g requested switches
      (requestSubPiece answers rounds g supplies)) (Received answers supplies s g id) := by
  by_cases hCurrent : s.liveHttpDownloader = some g
  · have hTasks := hRequested hCurrent
    have hStored := h.store (show (requested, requested).1 = requested from rfl)
    simp only [LiveStream.onRecvHttpDataSucced, if_pos ((h.running g).mpr hCurrent), hTasks]
    apply (hStored.switchAll hSwitches).bind
    rintro t ⟨hInvariant, rfl | hSwitched⟩
    · apply (hRest _ hStored hReady).mono
      intro u hReceived
      exact { hReceived with }
    · have hLt := h.bounded g hCurrent
      have hAway : t.liveHttpDownloader ≠ some g := by
        intro hBack
        have hLe := hSwitched.current g hBack
        dsimp only at hLe
        omega
      apply Settles.of_add 0 (fun rounds => requestSubPiece_stopped supplies (hInvariant.not_running hAway))
      exact ⟨hInvariant, fun hContra => absurd hContra hAway, fun hContra => absurd hContra hAway⟩
  · apply Settles.of_add 0 _ (h.received_stopped hCurrent)
    intro rounds
    simp [LiveStream.onRecvHttpDataSucced, h.not_running hCurrent]

/-- Reading subpieces keeps the pairing. The induction is on what is come upon. -/
theorem Invariant.requestSubPiece (h : s.Invariant) {id : Nat} (hReady : s.Ready g id)
    (hConnects : answers.connectFails = false) {supplies : List Supply}
    (hSupplies : ∀ supply ∈ supplies, ∀ x ∈ supply.answers, x.connectFails = false) :
    Settles (fun rounds => requestSubPiece answers rounds g supplies s)
      (Received answers supplies s g id) := by
  induction supplies generalizing s with
  | nil =>
      by_cases hCurrent : s.liveHttpDownloader = some g
      · obtain ⟨hActive, c, hClient, hIdle, rfl⟩ := hReady hCurrent
        obtain ⟨c', hSame, -, hTasks, -⟩ := h.active hCurrent hActive
        have hConnected : c.isConnected = true := by simp [HttpClient.isConnected, hIdle]
        apply Settles.of_add 0 _ (h.asyncRead hClient hIdle hActive hCurrent [])
        intro rounds
        simp [LiveStream.requestSubPiece, (h.running g).mpr hCurrent, hTasks, hClient, hConnected]
      · exact .of_add 0 (fun _ => requestSubPiece_stopped _ (h.not_running hCurrent))
          (h.received_stopped hCurrent)
  | cons supply rest ih =>
      by_cases hCurrent : s.liveHttpDownloader = some g
      · obtain ⟨hActive, c, hClient, hIdle, rfl⟩ := hReady hCurrent
        obtain ⟨c', hSame, -, hTasks, -⟩ := h.active hCurrent hActive
        have hConnected : c.isConnected = true := by simp [HttpClient.isConnected, hIdle]
        have hRunning := (h.running g).mpr hCurrent
        rw [hClient] at hSame
        cases hSame
        have hEq : ∀ rounds, LiveStream.requestSubPiece answers rounds g (supply :: rest) s =
            match supply with
            | .blockComplete => s.onComplete answers rounds g
            | .contentEnds => (s.onComplete answers rounds g).map (·.modify g (.closeNumbered c.id))
            | .buffered switches => s.onRecvHttpDataSucced rounds g c.blockId switches
                (LiveStream.requestSubPiece answers rounds g rest) := by
          intro rounds
          cases supply <;>
            simp [LiveStream.requestSubPiece, hRunning, hTasks, hClient, hConnected]
        simp only [hEq]
        cases supply with
        | blockComplete =>
            apply (h.toLinked.onComplete hCurrent hTasks hConnects).mono
            intro t hCompleted
            exact (hCompleted.received h hReady hCurrent []).mono (by simp)
        | contentEnds => exact h.contentEnds hCurrent hActive hClient hConnects _
        | buffered switches =>
            have hRest : ∀ x ∈ rest, ∀ y ∈ x.answers, y.connectFails = false :=
              fun x hMem => hSupplies x (by simp [hMem])
            apply (h.onRecvHttpDataSucced hReady (fun _ => hTasks) _
              fun t hInvariant hNext => ih hInvariant hNext hRest).mono
            · intro t hReceived
              exact hReceived.mono (by simp)
            · intro change hMem x hAnswer
              apply hSupplies (.buffered switches) (by simp) x
              exact List.mem_flatMap.mpr ⟨change, hMem, hAnswer⟩
      · exact .of_add 0 (fun _ => requestSubPiece_stopped _ (h.not_running hCurrent))
          (h.received_stopped hCurrent)

end LiveStream

end Live.Http
