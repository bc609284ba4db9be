import ZeroFido.Nfc.AutoAccept

/-!
# Late responses

The worker takes a copy of a request and of `processing_generation`, runs the command with the
mutex released, and offers the response to `zf_transport_nfc_store_response`, which accepts it only
for the session and the generation that are being processed. Meanwhile the exchange may have been
reset any number of times, and other requests queued.

`request_generation` counts the requests and `processing_generation` the requests and the resets
since the last one, both from one to `2 ^ 32 - 1` and round again (`generation`). A stale response
is refused because its generation has passed, as long as the counters have not come round: with
fewer than `2 ^ 32` requests, and as long as the callback has run no CTAP2 command itself or the
resets too are that few (`late_response_refused`). Without commands of the callback the number of
resets does not matter, since a reset leaves no session that is being processed.
-/

set_option autoImplicit false
set_option relaxedAutoImplicit false

namespace ZeroFido.Nfc

open Foundations

section Generations

/-- The value of a generation counter that has been advanced `count` times. -/
def generation (count : ℕ) : ℕ := if count = 0 then 0 else (count - 1) % (2 ^ 32 - 1) + 1

theorem nextGeneration_generation (count : ℕ) :
    nextGeneration (generation count) = generation (count + 1) := by
  obtain rfl | hpos := Nat.eq_zero_or_pos count
  · rfl
  rw [generation, generation, if_neg (Nat.pos_iff_ne_zero.mp hpos),
    if_neg (Nat.succ_ne_zero count), Nat.add_sub_cancel, nextGeneration]
  by_cases hround : (count - 1) % (2 ^ 32 - 1) + 1 = 2 ^ 32 - 1
  · rw [hround, if_pos (by decide)]
    omega
  · have hbelow : (count - 1) % (2 ^ 32 - 1) < 2 ^ 32 - 1 := Nat.mod_lt _ (by decide)
    rw [Nat.mod_eq_of_lt (by omega), if_neg (by omega)]
    omega

/-- Two counts below the length of the cycle are told apart. -/
theorem generation_injective {first second : ℕ} (hfirst : 0 < first) (hfirst' : first < 2 ^ 32)
    (hsecond : 0 < second) (hsecond' : second < 2 ^ 32)
    (h : generation first = generation second) : first = second := by
  unfold generation at h
  rw [if_neg (by omega), if_neg (by omega), Nat.mod_eq_of_lt (by omega),
    Nat.mod_eq_of_lt (by omega)] at h
  omega

theorem nextSessionId_ne_zero (current : ℕ) : nextSessionId current ≠ 0 := by
  unfold nextSessionId
  split_ifs <;> omega

end Generations

section Invariant

/-- What the worker holds of the request it has taken. -/
structure Taken (request : RunningRequest) (origin : QueuedRequest) : Prop where
  taken : request.origin = some origin
  requestCopy : request.requestCopy = origin.request
  requestKind : request.requestKind = origin.kind
  requestGeneration : request.requestGeneration = generation origin.number
  sessionId : request.sessionId ≠ 0
  pos : 0 < origin.number

/-- How the counters, the current request and the worker's copy relate. -/
structure Generations (app : NfcApp) : Prop where
  requestGeneration : app.requestGeneration = generation app.queued
  processingGeneration :
    app.processingGeneration = generation (app.queued + app.resetsSinceQueue)
  resets : app.resetsSinceQueue ≤ app.resets
  session : app.appletSelected = true → app.sessionId ≠ 0
  processing : app.directs = 0 → app.processingSessionId ≠ 0 → app.resetsSinceQueue = 0
  pending : app.requestPending = true → ∃ request,
    app.current = some request ∧ request.number = app.queued ∧ app.resetsSinceQueue = 0 ∧
      0 < request.number ∧ app.transportArena.take app.requestLen = request.request ∧
      app.requestKind = request.kind ∧ app.processingSessionId ≠ 0
  running : ∀ request, app.worker = .running request → ∃ origin,
    Taken request origin ∧ origin.number ≤ app.queued ∧
      (origin.number = app.queued → app.resetsSinceQueue = 0 → app.current = some origin)
  alone : CallbackAlone app

variable {app next : NfcApp}

theorem Generations.adjust (h : Generations app) (hadjusts : Adjusts app next) :
    Generations next where
  requestGeneration := by rw [hadjusts.requestGeneration, hadjusts.queued, h.requestGeneration]
  processingGeneration := by
    rw [hadjusts.processingGeneration, hadjusts.queued, hadjusts.resetsSinceQueue,
      h.processingGeneration]
  resets := by
    rw [hadjusts.resetsSinceQueue, hadjusts.resets]
    exact h.resets
  session := by
    rw [hadjusts.sessionId]
    exact fun hselected ↦ h.session (hadjusts.appletSelected hselected)
  processing := by
    rw [hadjusts.directs, hadjusts.resetsSinceQueue]
    intro hdirects hprocessing
    obtain hsame | hzero := hadjusts.processingSessionId
    · exact h.processing hdirects (hsame ▸ hprocessing)
    · exact absurd hzero hprocessing
  pending := by
    intro hpending
    obtain ⟨hbefore, hsession, hkind, hrequest⟩ := hadjusts.pending hpending
    rw [hadjusts.current, hadjusts.queued, hadjusts.resetsSinceQueue, hrequest, hkind, hsession]
    exact h.pending hbefore
  running := by
    rw [hadjusts.worker, hadjusts.queued, hadjusts.resetsSinceQueue, hadjusts.current]
    exact h.running
  alone := h.alone.adjust hadjusts

/-- A reset advances the generation; the worker's request is no longer the current one. -/
theorem Generations.reset (h : Generations app) : Generations (resetExchange app) where
  requestGeneration := h.requestGeneration
  processingGeneration := by
    change nextGeneration app.processingGeneration =
      generation (app.queued + (app.resetsSinceQueue + 1))
    rw [h.processingGeneration, nextGeneration_generation, Nat.add_assoc]
  resets := Nat.succ_le_succ h.resets
  session := h.session
  processing := fun _ hzero ↦ absurd rfl hzero
  pending := fun hpending ↦ absurd hpending (by simp [resetExchange])
  running := by
    intro request hworker
    obtain ⟨origin, htaken, hle, -⟩ := h.running request hworker
    exact ⟨origin, htaken, hle, fun _ hzero ↦ absurd hzero (Nat.succ_ne_zero _)⟩
  alone := .of_not_pending rfl

theorem Generations.start (h : Generations app) : Generations (startSession app) :=
  Generations.reset ⟨h.requestGeneration, h.processingGeneration, h.resets,
    fun _ ↦ nextSessionId_ne_zero _, h.processing, h.pending, h.running, h.alone⟩

/-- A request is queued for the session of the applet that is selected. -/
theorem Generations.queue (h : Generations app) (hselected : app.appletSelected = true)
    (hcallback : app.callback = .idle) {kind : RequestKind} {request : Bytes}
    (hqueue : queueRequest app kind request = (true, next)) : Generations next := by
  obtain ⟨-, -, -, rfl⟩ := queueRequest_queued hqueue
  have hgeneration : nextGeneration app.requestGeneration = generation (app.queued + 1) := by
    rw [h.requestGeneration, nextGeneration_generation]
  exact
    { requestGeneration := hgeneration
      processingGeneration := hgeneration
      resets := Nat.zero_le _
      session := h.session
      processing := fun _ _ ↦ rfl
      pending := by
        intro _
        refine ⟨_, rfl, rfl, rfl, Nat.succ_pos _, ?_, rfl, h.session hselected⟩
        simp [writeArena]
      running := by
        intro running hworker
        obtain ⟨origin, htaken, hle, -⟩ := h.running running hworker
        refine ⟨origin, htaken, Nat.le_succ_of_le hle, fun hlast ↦ ?_⟩
        exact absurd hlast (Nat.ne_of_lt (Nat.lt_succ_of_le hle))
      alone := .of_idle hcallback }

/-- A request that is marked as cancelled is the same request. -/
theorem Taken.of_cancelSession {worker : Worker} {sessionId : ℕ} {request : RunningRequest}
    (h : worker.cancelSession sessionId = .running request) :
    ∃ original, worker = .running original ∧ ∀ origin, Taken original origin →
      Taken request origin := by
  unfold Worker.cancelSession at h
  split at h
  next original =>
    split_ifs at h
    · refine ⟨original, rfl, fun origin htaken ↦ ?_⟩
      rw [← Worker.running.inj h]
      exact { htaken with }
    · exact ⟨request, h, fun _ ↦ id⟩
  next => exact ⟨request, h, fun _ ↦ id⟩

theorem Generations.cancel (h : Generations app) : Generations (cancelCurrentRequest app) := by
  unfold cancelCurrentRequest
  split_ifs
  · refine ⟨h.requestGeneration, h.processingGeneration, h.resets, h.session, h.processing,
      h.pending, fun request hworker ↦ ?_, h.alone⟩
    obtain ⟨original, horiginal, hsame⟩ := Taken.of_cancelSession hworker
    obtain ⟨origin, htaken, hrest⟩ := h.running original horiginal
    exact ⟨origin, hsame origin htaken, hrest⟩
  · exact h.adjust (.of_core rfl)

/-- The callback takes the session for a command of its own. -/
theorem Generations.direct (h : Generations app) (hpending : app.requestPending = false)
    (extended : Bool) : Generations (startCtap2Direct app extended) := by
  unfold startCtap2Direct
  split_ifs
  · exact h.adjust (adjusts_sendStatusWord _ _)
  · exact ⟨h.requestGeneration, h.processingGeneration, h.resets, h.session,
      fun hnone ↦ absurd hnone (Nat.succ_ne_zero _),
      fun hset ↦ absurd (hset.symm.trans hpending) (by simp), h.running,
      .of_not_pending hpending⟩

/-- Changing the arena, the flag and the callback is of no consequence while no request is
pending. -/
theorem Generations.of_callback (h : Generations app) (hpending : app.requestPending = false)
    (arena : Bytes) (autoAccept : Bool) (callback : Callback) :
    Generations { app with
      transportArena := arena
      transportAutoAcceptTransaction := autoAccept
      callback } :=
  ⟨h.requestGeneration, h.processingGeneration, h.resets, h.session, h.processing,
    fun hset ↦ absurd (hset.symm.trans hpending) (by simp), h.running, .of_not_pending hpending⟩

theorem Generations.section {selects : Prop} (h : Generations app)
    (hsection : Section selects app next) : Generations next := by
  induction hsection with
  | adjust hadjusts => exact h.adjust hadjusts
  | reset app => exact h.reset
  | cancel hkeeps hdeselected => exact h.cancel
  | start hselects => exact h.start
  | queue hselected hcallback hqueue => exact h.queue hselected hcallback hqueue
  | direct hselected hpending hcallback => exact h.direct hpending _
  | u2f hpending hcallback => exact h.of_callback hpending _ _ _
  | trans hfirst hsecond ih ih' => exact ih' (ih h)

/-- A worker that is not running a command holds no copy. -/
theorem Generations.of_worker (h : Generations app) (autoAccept : Bool) (worker : Worker)
    (hworker : ∀ request, worker ≠ .running request) :
    Generations { app with transportAutoAcceptTransaction := autoAccept, worker } :=
  ⟨h.requestGeneration, h.processingGeneration, h.resets, h.session, h.processing, h.pending,
    fun request hrunning ↦ absurd hrunning (hworker request), h.alone⟩

/-- The worker takes the current request. -/
theorem Generations.take (h : Generations app) (hpending : app.requestPending = true)
    (htaken : workerTakes app ≠ app) : Generations (workerTakes app) := by
  obtain ⟨origin, hcurrent, hlast, hreset, hpos, harena, hkind, hsession⟩ := h.pending hpending
  rw [(workerTakes_taken htaken).2]
  refine ⟨h.requestGeneration, h.processingGeneration, h.resets, h.session, h.processing,
    fun hset ↦ absurd hset (by simp), fun request hworker ↦ ?_, .of_not_pending rfl⟩
  rw [← Worker.running.inj hworker]
  refine ⟨origin, ⟨hcurrent, harena, hkind, ?_, hsession, hpos⟩, Nat.le_of_eq hlast,
    fun _ _ ↦ hcurrent⟩
  change app.processingGeneration = generation origin.number
  rw [h.processingGeneration, hreset, hlast, Nat.add_zero]

end Invariant

section Runs

theorem Generations.step (handlers : Handlers) (app : NfcApp) (event : NfcEvent)
    (h : Generations app) : Generations (nfcStep handlers app event) := by
  have hchange := nfcStep_change handlers h.alone event
  generalize nfcStep handlers app event = next at hchange ⊢
  cases hchange with
  | unchanged => exact h
  | handled hrunning hcallback hsection => exact h.section hsection
  | returned hsaved hsection =>
    have hpending : app.requestPending = false := by
      refine h.alone fun hidle ↦ ?_
      rw [hidle] at hsaved
      exact absurd hsaved (by simp [Callback.savedAutoAccept])
    exact (h.of_callback hpending _ _ _).section hsection
  | taken hworker hpending htaken => exact h.take hpending htaken
  | stored request response hworker =>
    have hstored := h.adjust (adjusts_workerStores app request response)
    exact hstored.of_worker _ (.stored request) (by simp)
  | finished request hreturns hworker => exact h.of_worker _ .idle (by simp)
  | stopped =>
    exact Generations.cancel ⟨h.requestGeneration, h.processingGeneration, h.resets, h.session,
      h.processing, h.pending, h.running, h.alone⟩

theorem generations_start : Generations {} where
  requestGeneration := rfl
  processingGeneration := rfl
  resets := Nat.le_refl _
  session := fun hselected ↦ absurd hselected (by simp)
  processing := fun _ _ ↦ rfl
  pending := fun hpending ↦ absurd hpending (by simp)
  running := fun _ hworker ↦ absurd hworker (by simp)
  alone := .of_idle rfl

/-- The counters have not come round: fewer than `2 ^ 32` requests were queued, and unless the
callback has run no CTAP2 command, requests and resets together are that few too. -/
def FewerThanCycle (app : NfcApp) : Prop :=
  app.queued < 2 ^ 32 ∧ (app.directs = 0 ∨ app.queued + app.resets < 2 ^ 32)

variable {app : NfcApp} {request : RunningRequest}

/-- The generation of the worker's request passes with the request. -/
theorem Generations.current_of_accepted (h : Generations app) (hfew : FewerThanCycle app)
    (hworker : app.worker = .running request)
    (hsession : app.processingSessionId = request.sessionId)
    (hgeneration : app.processingGeneration = request.requestGeneration) :
    ∃ current, app.current = some current ∧ Taken request current := by
  obtain ⟨origin, htaken, hle, hcurrent⟩ := h.running request hworker
  have hpos := htaken.pos
  obtain ⟨hqueued, hcycle⟩ := hfew
  rw [h.processingGeneration, htaken.requestGeneration] at hgeneration
  have hsmall : app.queued + app.resetsSinceQueue < 2 ^ 32 := by
    obtain hdirects | hresets := hcycle
    · have hreset := h.processing hdirects (hsession ▸ htaken.sessionId)
      rw [hreset]
      exact hqueued
    · have hsince := h.resets
      omega
  have hsame : app.queued + app.resetsSinceQueue = origin.number :=
    generation_injective (by omega) hsmall hpos (by omega) hgeneration
  exact ⟨origin, hcurrent (by omega) (by omega), htaken⟩

/-- The response that is made available is the worker's. -/
theorem storeResponse_available (sessionId requestGeneration : ℕ) (response : Option Bytes)
    (responseIsU2f : Bool)
    (haccepted : storeResponse app sessionId requestGeneration response responseIsU2f ≠ app)
    (hready : (storeResponse app sessionId requestGeneration response responseIsU2f).responseReady =
      true) :
    response = some
      ((storeResponse app sessionId requestGeneration response responseIsU2f).transportArena.take
        (storeResponse app sessionId requestGeneration response responseIsU2f).responseLen) := by
  unfold storeResponse at haccepted hready ⊢
  split_ifs at haccepted hready ⊢ with hrefused
  · exact absurd rfl haccepted
  · cases response with
    | none => exact absurd hready (by simp)
    | some bytes =>
      dsimp only at hready ⊢
      split_ifs at hready ⊢
      simp [writeArena]

/-- Between `app` and `next` the worker has stored the response to the current request, and if the
reader can now read a response, it is this one. -/
structure AnswersCurrent (app next : NfcApp) (request : RunningRequest) (response : Option Bytes) :
    Prop where
  current : ∃ current, app.current = some current ∧ request.origin = some current ∧
    request.requestCopy = current.request ∧ request.requestKind = current.kind
  available : next.responseReady = true →
    response = some (next.transportArena.take next.responseLen)

theorem workerResponse_some {response : Option Bytes} {bytes : Bytes}
    (h : workerResponse request response = some bytes) : response = some bytes := by
  unfold workerResponse at h
  split at h
  · exact absurd h (by simp)
  · exact Option.eq_some_of_filter_eq_some h

/-- A response that is accepted answers the current request. -/
theorem Generations.answersCurrent (h : Generations app) (hfew : FewerThanCycle app)
    (hworker : app.worker = .running request) (response : Option Bytes)
    (haccepted : workerStores app request response ≠ app) :
    AnswersCurrent app (workerStores app request response) request response where
  current := by
    have hmatch : app.processingSessionId = request.sessionId ∧
        app.processingGeneration = request.requestGeneration := by
      by_contra hstale
      refine haccepted (if_pos ?_)
      rw [not_and_or] at hstale
      exact hstale.elim Or.inl fun hgeneration ↦ Or.inr (Or.inl hgeneration)
    obtain ⟨current, hcurrent, htaken⟩ :=
      h.current_of_accepted hfew hworker hmatch.1 hmatch.2
    exact ⟨current, hcurrent, htaken.taken, htaken.requestCopy, htaken.requestKind⟩
  available := by
    intro hready
    exact workerResponse_some (storeResponse_available _ _ _ _ haccepted hready)

/-- In every run, what the worker offers either changes nothing or answers the request that is
current when it is stored. -/
theorem late_response_refused (handlers : Handlers) (events : List NfcEvent)
    (hfew : FewerThanCycle (run (nfcStep handlers) {} events)) (request : RunningRequest)
    (hworker : (run (nfcStep handlers) {} events).worker = .running request)
    (response : Option Bytes) :
    let app := run (nfcStep handlers) {} events
    let next := workerStores app request response
    next = app ∨ AnswersCurrent app next request response := by
  intro app next
  have hgenerations : Generations app :=
    run_invariant_always (Generations.step handlers) events generations_start
  by_cases haccepted : next = app
  · exact Or.inl haccepted
  · exact Or.inr (hgenerations.answersCurrent hfew hworker response haccepted)

/-- The field is lost and the reader asks again while the worker is running the first request. -/
def askedAgain : List NfcEvent :=
  [selectFido, sendGetAssertion true, .workerTakes, .disconnect, selectFido, sendGetAssertion true]

theorem late_response_refused_askedAgain :
    let app := run (nfcStep .withoutU2f) {} askedAgain
    let request : RunningRequest :=
      { sessionId := 1, requestGeneration := 1, requestKind := .ctap2, requestCopy := [0x02, 0xA0],
        oldAutoAccept := false,
        origin := some { number := 1, kind := .ctap2, request := [0x02, 0xA0] }, cancelled := true }
    let next := workerStores app request (some [0x00])
    app.worker = .running request ∧
      (next = app ∨ AnswersCurrent app next request (some [0x00])) := by
  intro app request next
  have hworker : app.worker = .running request := by decide +kernel
  refine ⟨hworker, late_response_refused .withoutU2f askedAgain ?_ request hworker (some [0x00])⟩
  refine ⟨?_, Or.inl ?_⟩
  · decide +kernel
  · decide +kernel

end Runs

end ZeroFido.Nfc
