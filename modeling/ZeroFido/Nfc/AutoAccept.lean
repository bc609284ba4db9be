import ZeroFido.Nfc.Step

/-!
# Automatic approval over NFC

A command that arrives over NFC is approved by the tap itself: whoever runs it sets
`transport_auto_accept_transaction` and puts the old value back when the command returns. The worker
and the callback both do this, with the mutex released while the command runs.

A reset of the exchange makes the transport look free while the worker is still inside its command,
so the callback can start a command of its own meanwhile. It then saves the value the worker has
set. As long as the callback returns first the pairs are nested and the flag is restored
(`auto_accept_restored`). When the worker finishes first, the callback sets the flag again for good
(`auto_accept_leaks`).
-/

set_option autoImplicit false
set_option relaxedAutoImplicit false

namespace ZeroFido.Nfc

open Foundations

section Invariant

/-- The request on the worker's stack. -/
def Worker.request : Worker → Option RunningRequest
  | .idle => none
  | .running request => some request
  | .stored request => some request

/-- The nesting of the two save and restore pairs: the worker's is the outer one. -/
structure AutoAcceptNested (app : NfcApp) : Prop where
  idle : app.worker = .idle → app.callback = .idle → app.transportAutoAcceptTransaction = false
  worker : ∀ request, app.worker.request = some request →
    app.transportAutoAcceptTransaction = true ∧ request.oldAutoAccept = false
  callback : ∀ oldAutoAccept, app.callback.savedAutoAccept = some oldAutoAccept →
    app.transportAutoAcceptTransaction = true ∧ oldAutoAccept = app.worker.request.isSome
  alone : CallbackAlone app

variable {app next : NfcApp}

theorem Worker.request_eq_none {worker : Worker} : worker.request = none ↔ worker = .idle := by
  cases worker <;> simp [Worker.request]

/-- Cancelling a request leaves what the worker has saved. -/
theorem Worker.cancelSession_request (worker : Worker) (sessionId : ℕ) :
    (worker.cancelSession sessionId).request.map RunningRequest.oldAutoAccept =
      worker.request.map RunningRequest.oldAutoAccept := by
  unfold Worker.cancelSession
  split
  · split_ifs <;> rfl
  · rfl

theorem cancelCurrentRequest_saved (app : NfcApp) :
    (cancelCurrentRequest app).worker.request.map RunningRequest.oldAutoAccept =
      app.worker.request.map RunningRequest.oldAutoAccept := by
  unfold cancelCurrentRequest
  split_ifs
  · exact Worker.cancelSession_request _ _
  · rfl

/-- The invariant is about the flag, the callback, and what the worker has saved. -/
theorem AutoAcceptNested.of_eq (h : AutoAcceptNested app) (halone : CallbackAlone next)
    (hflag : next.transportAutoAcceptTransaction = app.transportAutoAcceptTransaction)
    (hcallback : next.callback = app.callback)
    (hworker : next.worker.request.map RunningRequest.oldAutoAccept =
      app.worker.request.map RunningRequest.oldAutoAccept) : AutoAcceptNested next where
  idle := by
    intro hidle hfree
    have hnone : app.worker.request = none := by
      rw [Worker.request_eq_none.mpr hidle] at hworker
      exact Option.map_eq_none_iff.mp hworker.symm
    rw [hflag]
    exact h.idle (Worker.request_eq_none.mp hnone) (hcallback.symm.trans hfree)
  worker := by
    intro request hrequest
    rw [hrequest] at hworker
    obtain ⟨request', hrequest', hsaved⟩ := Option.map_eq_some_iff.mp hworker.symm
    obtain ⟨hset, hold⟩ := h.worker request' hrequest'
    exact ⟨hflag.trans hset, hsaved.symm.trans hold⟩
  callback := by
    intro oldAutoAccept hsaved
    rw [hcallback] at hsaved
    obtain ⟨hset, hold⟩ := h.callback oldAutoAccept hsaved
    have hbusy : next.worker.request.isSome = app.worker.request.isSome := by
      rw [← Option.isSome_map (f := RunningRequest.oldAutoAccept), hworker, Option.isSome_map]
    exact ⟨hflag.trans hset, hold.trans hbusy.symm⟩
  alone := halone

theorem AutoAcceptNested.adjust (h : AutoAcceptNested app) (hadjusts : Adjusts app next) :
    AutoAcceptNested next := by
  refine h.of_eq (h.alone.adjust hadjusts) hadjusts.autoAccept hadjusts.callback ?_
  rw [hadjusts.worker]

/-- The callback starts a command: it saves whether the worker is running one. -/
theorem AutoAcceptNested.start (h : AutoAcceptNested app) (hcallback : app.callback = .idle)
    (halone : CallbackAlone next)
    (hset : next.transportAutoAcceptTransaction = true)
    (hsaved : next.callback.savedAutoAccept = some app.transportAutoAcceptTransaction)
    (hworker : next.worker = app.worker) : AutoAcceptNested next where
  idle := by
    intro _ hfree
    rw [hfree] at hsaved
    exact absurd hsaved (by simp [Callback.savedAutoAccept])
  worker := by
    intro request hrequest
    rw [hworker] at hrequest
    exact ⟨hset, (h.worker request hrequest).2⟩
  callback := by
    intro oldAutoAccept hold
    have heq : app.transportAutoAcceptTransaction = oldAutoAccept :=
      Option.some.inj (hsaved.symm.trans hold)
    refine ⟨hset, ?_⟩
    rw [hworker, ← heq]
    cases hrequest : app.worker.request with
    | none => exact h.idle (Worker.request_eq_none.mp hrequest) hcallback
    | some request => exact (h.worker request hrequest).1
  alone := halone

theorem AutoAcceptNested.section {selects : Prop} (h : AutoAcceptNested app)
    (hsection : Section selects app next) : AutoAcceptNested next := by
  induction hsection with
  | adjust hadjusts => exact h.adjust hadjusts
  | reset app => exact h.of_eq (.of_not_pending rfl) rfl rfl rfl
  | cancel hkeeps hdeselected =>
    exact h.of_eq (h.alone.section (Section.cancel hkeeps hdeselected))
      (cancelCurrentRequest_fields _).2.2 (cancelCurrentRequest_fields _).1
      (cancelCurrentRequest_saved _)
  | start hselects => exact h.of_eq (.of_not_pending rfl) rfl rfl rfl
  | queue hselected hcallback hqueue =>
    obtain ⟨-, -, -, rfl⟩ := queueRequest_queued hqueue
    exact h.of_eq (.of_idle hcallback) rfl rfl rfl
  | direct hselected hpending hcallback =>
    unfold startCtap2Direct
    split_ifs
    · exact h.adjust (adjusts_sendStatusWord _ _)
    · exact h.start hcallback (.of_not_pending hpending) rfl rfl rfl
  | u2f hpending hcallback => exact h.start hcallback (.of_not_pending hpending) rfl rfl rfl
  | trans hfirst hsecond ih ih' => exact ih' (ih h)

/-- The callback's command returns: the flag is what the worker makes of it. -/
theorem AutoAcceptNested.leave (h : AutoAcceptNested app) {oldAutoAccept : Bool}
    (hsaved : app.callback.savedAutoAccept = some oldAutoAccept) (arena : Bytes) :
    AutoAcceptNested (leaveCommand app oldAutoAccept arena) where
  idle := by
    intro hidle _
    have hold := (h.callback oldAutoAccept hsaved).2
    change oldAutoAccept = false
    change app.worker = .idle at hidle
    rw [hold, hidle]
    rfl
  worker := by
    intro request hrequest
    change app.worker.request = some request at hrequest
    have hold := (h.callback oldAutoAccept hsaved).2
    change oldAutoAccept = true ∧ _
    rw [hold, hrequest]
    exact ⟨rfl, (h.worker request hrequest).2⟩
  callback := fun _ hnone ↦ absurd hnone (by simp [leaveCommand, Callback.savedAutoAccept])
  alone := .of_idle rfl

/-- The worker takes a request, which only happens while the callback is idle. -/
theorem AutoAcceptNested.take (h : AutoAcceptNested app) (hworker : app.worker = .idle)
    (hpending : app.requestPending = true) (htaken : workerTakes app ≠ app) :
    AutoAcceptNested (workerTakes app) := by
  have hcallback : app.callback = .idle := by
    by_contra hbusy
    exact absurd (hpending.symm.trans (h.alone hbusy)) (by simp)
  rw [(workerTakes_taken htaken).2]
  exact
    { idle := fun hidle ↦ absurd hidle (by simp)
      worker := by
        intro request hrequest
        refine ⟨rfl, ?_⟩
        rw [← Option.some.inj hrequest]
        exact h.idle hworker hcallback
      callback := by
        intro oldAutoAccept hsaved
        change app.callback.savedAutoAccept = some oldAutoAccept at hsaved
        rw [hcallback] at hsaved
        exact absurd hsaved (by simp [Callback.savedAutoAccept])
      alone := .of_idle hcallback }

end Invariant

section Runs

/-- The worker does not finish a request while the callback is running a command. -/
def CallbackReturnsFirst (app : NfcApp) (event : NfcEvent) : Prop :=
  event = .workerReturns → ∀ request, app.worker = .stored request → app.callback = .idle

variable {app : NfcApp}

theorem AutoAcceptNested.step (handlers : Handlers) (app : NfcApp) (event : NfcEvent)
    (hfirst : CallbackReturnsFirst app event) (h : AutoAcceptNested app) :
    AutoAcceptNested (nfcStep handlers app event) := by
  have hchange := nfcStep_change handlers h.alone event
  generalize nfcStep handlers app event = next at hchange ⊢
  cases hchange with
  | unchanged => exact h
  | handled hrunning hcallback hsection => exact h.section hsection
  | returned hsaved hsection => exact (h.leave hsaved _).section hsection
  | taken hworker hpending htaken => exact h.take hworker hpending htaken
  | stored request response hworker =>
    have hadjusts := adjusts_workerStores app request response
    have halone := h.alone.adjust hadjusts
    refine h.of_eq ?_ hadjusts.autoAccept hadjusts.callback ?_
    · exact halone
    · rw [hworker]
      rfl
  | finished request hevent hworker =>
    have hcallback := hfirst hevent _ hworker
    refine ⟨fun _ _ ↦ ?_, fun _ hnone ↦ absurd hnone (by simp [Worker.request]), ?_, h.alone⟩
    · exact (h.worker _ (by rw [hworker]; rfl)).2
    · intro oldAutoAccept hsaved
      change app.callback.savedAutoAccept = some oldAutoAccept at hsaved
      rw [hcallback] at hsaved
      exact absurd hsaved (by simp [Callback.savedAutoAccept])
  | stopped =>
    obtain ⟨hcallback, hpending, hflag⟩ := cancelCurrentRequest_fields { app with stopping := true }
    refine h.of_eq ?_ hflag hcallback (cancelCurrentRequest_saved _)
    intro hbusy
    rw [hcallback] at hbusy
    exact hpending.trans (h.alone hbusy)

theorem autoAcceptNested_start : AutoAcceptNested {} where
  idle := fun _ _ ↦ rfl
  worker := fun _ hnone ↦ absurd hnone (by simp [Worker.request])
  callback := fun _ hnone ↦ absurd hnone (by simp [Callback.savedAutoAccept])
  alone := .of_idle rfl

/-- In every run in which the worker never finishes a request while the callback is running a
command, the flag is cleared in every state in which neither is running one. -/
theorem auto_accept_restored (handlers : Handlers) (events : List NfcEvent)
    (hfirst : EveryStep (nfcStep handlers) CallbackReturnsFirst {} events)
    (before after : List NfcEvent) (hsplit : events = before ++ after)
    (hworker : (run (nfcStep handlers) {} before).worker = .idle)
    (hcallback : (run (nfcStep handlers) {} before).callback = .idle) :
    (run (nfcStep handlers) {} before).transportAutoAcceptTransaction = false := by
  rw [hsplit] at hfirst
  obtain ⟨hbefore, -⟩ := (everyStep_append before after).mp hfirst
  have hnested := run_invariant (AutoAcceptNested.step handlers) hbefore autoAcceptNested_start
  exact hnested.idle hworker hcallback

/-- The SELECT command of the FIDO applet, in a block. -/
def selectFido : NfcEvent :=
  .iBlock 0x02 ([0x00, 0xA4, 0x04, 0x00, 0x08] ++ fidoAid) false
    { fido2Enabled := true, u2fEnabled := false } {}

/-- A getAssertion in a CTAP message, from a reader with or without GET RESPONSE. -/
def sendGetAssertion (getResponse : Bool) : NfcEvent :=
  .iBlock 0x03 [0x80, 0x10, if getResponse then 0x80 else 0x00, 0x00, 0x02, 0x02, 0xA0] false
    { fido2Enabled := true, u2fEnabled := false } {}

/-- The reader is removed and comes back while the worker is running its first command; the second
command is run by the callback and returns after the worker has finished. -/
def overlappingCommands : List NfcEvent :=
  [selectFido, sendGetAssertion true, .workerTakes, .rats, selectFido, sendGetAssertion false,
    .workerStores (some [0x00]), .workerReturns, .callbackReturns [0x00] {}]

/-- A command of the worker during which the reader starts anew, a direct one after it, and another
one of the worker. -/
def commandsInTurn : List NfcEvent :=
  [selectFido, sendGetAssertion true, .workerTakes, .rats, .workerStores (some [0x00]),
    .workerReturns, selectFido, sendGetAssertion false, .callbackReturns [0x00] {}, selectFido,
    sendGetAssertion true, .workerTakes, .workerStores (some [0x00]), .workerReturns]

theorem auto_accept_restored_commandsInTurn :
    (run (nfcStep .withoutU2f) {} commandsInTurn).transportAutoAcceptTransaction = false := by
  refine auto_accept_restored .withoutU2f commandsInTurn ?_ commandsInTurn [] (by simp) ?_ ?_
  · simp only [commandsInTurn, EveryStep, CallbackReturnsFirst, selectFido, sendGetAssertion,
      reduceCtorEq, false_implies, true_implies, and_true, true_and]
    constructor
    · intro request _
      decide +kernel
    · intro request _
      decide +kernel
  · decide +kernel
  · decide +kernel

theorem auto_accept_leaks :
    ¬∀ (handlers : Handlers) (events : List NfcEvent),
      (run (nfcStep handlers) {} events).worker = .idle →
      (run (nfcStep handlers) {} events).callback = .idle →
      (run (nfcStep handlers) {} events).transportAutoAcceptTransaction = false := by
  intro hclaim
  have hset : (run (nfcStep .withoutU2f) {} overlappingCommands).transportAutoAcceptTransaction =
      true := by decide +kernel
  have hcleared := hclaim .withoutU2f overlappingCommands (by decide +kernel) (by decide +kernel)
  exact absurd (hset.symm.trans hcleared) (by simp)

end Runs

end ZeroFido.Nfc
