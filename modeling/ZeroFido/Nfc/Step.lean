import ZeroFido.Nfc.Effects

/-!
# What a step of the transport can do

The callback runs a command of its own only while no request is pending (`CallbackAlone`), and
`Change` lists the ways in which one step changes the state: a section of the callback (`Section`),
the end of a command that the callback runs itself, the three sections of the worker, and the stop
of the transport. `nfcStep_change` says that these are all.

A section starts a session only when its event selects the applet (`reselects`), by SELECT or by the
U2F VERSION command to an applet that is not selected.
-/

set_option autoImplicit false
set_option relaxedAutoImplicit false

namespace ZeroFido.Nfc

open Foundations

section Events

/-- The APDU starts a session. -/
def selectsApplet (app : NfcApp) (apduBytes : Bytes) (capabilities : NfcCapabilities) : Bool :=
  match parseApdu apduBytes with
  | none => false
  | some apdu =>
    isFidoSelectApdu apdu ||
      (!app.appletSelected && capabilities.u2fEnabled && isU2fVersionApdu apdu &&
        !exchangeBusy app)

/-- The APDU that an event delivers: a bare frame, a block of its own, or the end of a receive
chain. -/
def deliveredApdu (app : NfcApp) : NfcEvent → Option (Bytes × NfcCapabilities)
  | .bareApdu frame capabilities _ => if isBareApdu frame then some (frame, capabilities) else none
  | .iBlock _ payload chained capabilities _ =>
    if chained || requestWorkerActive app then none
    else if app.commandChainActive then
      some ((writeArena app.transportArena app.requestLen payload).take
        (app.requestLen + payload.length), capabilities)
    else some (payload, capabilities)
  | _ => none

/-- The event is handled, and it starts a session. -/
def reselects (app : NfcApp) (event : NfcEvent) : Bool :=
  !app.stopping && app.callback == .idle &&
    match deliveredApdu app event with
    | none => false
    | some (apduBytes, capabilities) => selectsApplet app apduBytes capabilities

variable (handlers : Handlers) {selects : Prop} {app : NfcApp}

theorem section_sendDesfireVersionPart (app : NfcApp) :
    Section selects app (sendDesfireVersionPart app) := by
  unfold sendDesfireVersionPart
  split_ifs
  · exact .adjust ((adjusts_sendApduPayload _ _ _).after (.of_core rfl))
  · exact .adjust ((adjusts_sendApduPayload _ _ _).after (.of_core rfl))

theorem section_handleApdu (hcallback : app.callback = .idle) (apduBytes : Bytes)
    (capabilities : NfcCapabilities) (surroundings : Surroundings)
    (hselects : selectsApplet app apduBytes capabilities = true ↔ selects) :
    Section selects app (handleApdu handlers app apduBytes capabilities surroundings) := by
  unfold handleApdu
  have hattach : Adjusts app { app with arenaAttached := true } := .of_core rfl
  refine Section.trans (.adjust hattach) ?_
  dsimp only
  split
  · exact .adjust (adjusts_sendStatusWord _ _)
  · rename_i apdu hparse
    split_ifs with _ hselect hversion _ hdeselected
    · refine .adjust ((adjusts_sendStatusWord _ _).after ?_)
      constructor <;> simp
    · refine section_handleSelect _ apdu _ _ fun hfido ↦ hselects.mp ?_
      simp [selectsApplet, hparse, hfido]
    · refine section_sendU2fVersionImmediate handlers _ apdu surroundings fun hbusy ↦
        hselects.mp ?_
      have hfree : exchangeBusy app = false := Bool.not_eq_true _ ▸ hbusy
      simp only [selectsApplet, hparse, hversion, hfree, Bool.not_false, Bool.and_true, Bool.or_true]
    · exact .adjust ((adjusts_sendApduPayload _ _ _).after (.of_core rfl))
    · exact section_sendDesfireVersionPart _
    · exact .adjust (adjusts_sendStatusWord _ _)
    · exact .adjust (adjusts_sendStatusWord _ _)
    · refine section_handleAppletApdu handlers ?_ ?_ apdu capabilities surroundings ?_
      · simpa using hdeselected
      · exact hcallback
      · intro hcla hselected
        have hselect := hselects.mpr hselected
        simp [selectsApplet, hparse, isFidoSelectApdu, isU2fVersionApdu, hcla] at hselect

theorem section_handleNativeDesfire (app : NfcApp) (additionalFrame : Bool) :
    Section selects app (handleNativeDesfire app additionalFrame) := by
  unfold handleNativeDesfire
  split_ifs <;> exact .adjust (.of_core rfl)

theorem section_handleAssembledPayload (hcallback : app.callback = .idle)
    (hpending : app.requestPending = false) (payload : Bytes) (capabilities : NfcCapabilities)
    (surroundings : Surroundings)
    (hselects : selectsApplet app ((writeArena app.transportArena app.requestLen payload).take
      (app.requestLen + payload.length)) capabilities = true ↔ selects) :
    Section selects app (handleAssembledPayload handlers app payload capabilities surroundings) := by
  unfold handleAssembledPayload
  split_ifs
  · exact .resetThen (adjusts_sendStatusWord _ _)
  · refine (section_handleApdu handlers ?_ _ _ _ ?_).after (.adjust ?_)
    · exact hcallback
    · exact hselects
    · exact Adjusts.trans
        (.of_free hpending (writeArena app.transportArena app.requestLen payload) 0 app.requestKind)
        (.of_core rfl)

/-- A worker that is not active has no request pending. -/
theorem not_pending_of_not_active (h : ¬requestWorkerActive app = true) :
    app.requestPending = false := by
  unfold requestWorkerActive at h
  simp only [Bool.or_eq_true, not_or, Bool.not_eq_true] at h
  exact h.2

/-- The effect of a chained block. -/
theorem section_appendRxChainPayload {result : RxChainAppendResult} {next : NfcApp}
    (hpending : app.requestPending = false) {requestPcb : UInt8} {payload : Bytes}
    (h : appendRxChainPayload app requestPcb payload = (result, next)) : Adjusts app next := by
  unfold appendRxChainPayload at h
  split_ifs at h
  · rw [← (Prod.mk.inj h).2]
    exact Adjusts.refl app
  · rw [← (Prod.mk.inj h).2]
    exact Adjusts.refl app
  · rw [← (Prod.mk.inj h).2]
    exact .of_core rfl
  · rw [← (Prod.mk.inj h).2]
    exact Adjusts.trans (.of_free hpending (writeArena app.transportArena app.requestLen payload)
      (app.requestLen + payload.length) app.requestKind) (.of_core rfl)

theorem section_handleIso4Payload (hcallback : app.callback = .idle) (requestPcb : UInt8)
    (payload : Bytes) (chained : Bool) (capabilities : NfcCapabilities)
    (surroundings : Surroundings)
    (hselects : ∀ apduBytes,
      deliveredApdu app (.iBlock requestPcb payload chained capabilities surroundings) =
        some (apduBytes, capabilities) →
      (selectsApplet app apduBytes capabilities = true ↔ selects)) :
    Section selects app
      (handleIso4Payload handlers app requestPcb payload chained capabilities surroundings) := by
  unfold handleIso4Payload
  split_ifs with _ _ hactive hchained hassembled
  · exact .refl app
  · exact section_handleNativeDesfire app _
  · exact .adjust (adjusts_sendBusyStatus app)
  · have hpending := not_pending_of_not_active hactive
    split
    all_goals
      rename_i next happend
      have hadjusts := section_appendRxChainPayload hpending happend
    · exact .adjust hadjusts
    · exact .adjust hadjusts
    · exact (Section.adjust hadjusts).trans (.resetThen (adjusts_clearTxChain _))
    · exact (Section.adjust hadjusts).trans (.resetThen (adjusts_sendStatusWord _ _))
  · refine section_handleAssembledPayload handlers hcallback (not_pending_of_not_active hactive)
      payload capabilities surroundings (hselects _ ?_)
    simp [deliveredApdu, hactive, hchained, hassembled]
  · exact section_sendDeferredResponseOrWtx app _
  · refine section_handleApdu handlers hcallback payload capabilities surroundings (hselects _ ?_)
    simp [deliveredApdu, hactive, hchained, hassembled]

/-- A new activation, a deselection or the loss of the field cancels the request and resets the
exchange. -/
theorem section_teardownRfActivation (hkeeps : ¬selects) (app : NfcApp) :
    Section selects app (teardownRfActivation app) := by
  have hdeselect : Adjusts app { app with appletSelected := false, desfireProbeFrame := 0 } := by
    constructor <;> simp
  exact (Section.adjust hdeselect).trans
    ((Section.cancel hkeeps rfl).trans (.resetThen (adjusts_clearTxChain _)))

theorem section_sleepProbe (app : NfcApp) : Section selects app (sleepProbe app) := by
  have hdeselect : Adjusts app { app with appletSelected := false, desfireProbeFrame := 0 } := by
    constructor <;> simp
  exact (Section.adjust hdeselect).trans (.resetThen (adjusts_clearTxChain _))

theorem reselects_of_delivered {event : NfcEvent} (hrunning : app.stopping = false)
    (hcallback : app.callback = .idle) {apduBytes : Bytes} {capabilities : NfcCapabilities}
    (hdelivered : deliveredApdu app event = some (apduBytes, capabilities)) :
    selectsApplet app apduBytes capabilities = true ↔ reselects app event = true := by
  simp [reselects, hrunning, hcallback, hdelivered]

theorem not_reselects_of_not_delivered {event : NfcEvent}
    (hdelivered : deliveredApdu app event = none) : ¬reselects app event = true := by
  simp [reselects, hdelivered]

/-- The callback obeys the relation. -/
theorem section_handleReaderEvent (hrunning : app.stopping = false)
    (hcallback : app.callback = .idle) (event : NfcEvent) :
    Section (reselects app event = true) app (handleReaderEvent handlers app event) := by
  cases event with
  | pollRestart => exact section_teardownRfActivation (not_reselects_of_not_delivered rfl) app
  | rats => exact section_teardownRfActivation (not_reselects_of_not_delivered rfl) app
  | deselect => exact section_teardownRfActivation (not_reselects_of_not_delivered rfl) app
  | disconnect => exact section_teardownRfActivation (not_reselects_of_not_delivered rfl) app
  | probeSleep => exact section_sleepProbe app
  | rAck sent =>
    simp only [handleReaderEvent]
    split_ifs
    · exact .adjust (adjusts_sendNextTxChainBlock app sent)
    · exact .adjust (.of_core rfl)
  | bareApdu frame capabilities surroundings =>
    simp only [handleReaderEvent]
    split_ifs with hbare
    · refine section_handleApdu handlers hcallback frame capabilities surroundings ?_
      exact reselects_of_delivered hrunning hcallback (by simp [deliveredApdu, hbare])
    · exact .refl app
  | iBlock pcb payload chained capabilities surroundings =>
    have hcompleted : Adjusts app { app with txChainCompleted := false } := .of_core rfl
    refine Section.trans (.adjust hcompleted)
      (section_handleIso4Payload handlers ?_ pcb payload chained capabilities surroundings ?_)
    · exact hcallback
    · intro apduBytes hdelivered
      exact reselects_of_delivered hrunning hcallback hdelivered
  | callbackReturns response surroundings => exact .refl app
  | workerTakes => exact .refl app
  | workerStores response => exact .refl app
  | workerReturns => exact .refl app
  | stop => exact .refl app

end Events

section Changes

/-- What a command of the callback restores when it returns. -/
def Callback.savedAutoAccept : Callback → Option Bool
  | .idle => none
  | .ctap2Direct oldAutoAccept _ => some oldAutoAccept
  | .u2fImmediate oldAutoAccept _ => some oldAutoAccept

/-- A command of the callback has returned and left its response in the arena. -/
def leaveCommand (app : NfcApp) (oldAutoAccept : Bool) (arena : Bytes) : NfcApp :=
  { app with
    transportArena := arena
    transportAutoAcceptTransaction := oldAutoAccept
    callback := .idle }

/-- The ways in which one step changes the state. -/
inductive Change (app : NfcApp) (event : NfcEvent) : NfcApp → Prop where
  | unchanged : Change app event app
  | handled {next : NfcApp} (hrunning : app.stopping = false) (hcallback : app.callback = .idle)
    (h : Section (reselects app event = true) app next) : Change app event next
  | returned {next : NfcApp} {oldAutoAccept : Bool} {arena : Bytes}
    (hsaved : app.callback.savedAutoAccept = some oldAutoAccept)
    (h : Section False (leaveCommand app oldAutoAccept arena) next) : Change app event next
  | taken (hworker : app.worker = .idle) (hpending : app.requestPending = true)
    (h : workerTakes app ≠ app) : Change app event (workerTakes app)
  | stored (request : RunningRequest) (response : Option Bytes)
    (hworker : app.worker = .running request) :
    Change app event { workerStores app request response with worker := .stored request }
  | finished (request : RunningRequest) (hevent : event = .workerReturns)
    (hworker : app.worker = .stored request) :
    Change app event
      { app with transportAutoAcceptTransaction := request.oldAutoAccept, worker := .idle }
  | stopped : Change app event (cancelCurrentRequest { app with stopping := true })

variable (handlers : Handlers) {app : NfcApp}

/-- The end of a CTAP2 command that the callback ran. -/
theorem section_finishCtap2Direct (hpending : app.requestPending = false)
    (oldAutoAccept extended : Bool) (response : Bytes) (surroundings : Surroundings) :
    Section False (leaveCommand app oldAutoAccept (writeArena app.transportArena 0 response))
      (finishCtap2Direct app oldAutoAccept extended response surroundings) := by
  unfold finishCtap2Direct
  dsimp only
  have hended : Adjusts
      (leaveCommand app oldAutoAccept (writeArena app.transportArena 0 response))
      { app with
        transportArena := writeArena app.transportArena 0 response
        transportAutoAcceptTransaction := oldAutoAccept
        processing := false
        processingSessionId := 0
        requestKind := .none
        callback := .idle } := by
    constructor <;> simp [leaveCommand, hpending]
  refine Section.trans (.adjust hended) ?_
  have hrelease (sent : NfcApp) (hsent : sent.requestPending = false) :
      Adjusts sent (releaseArena sent) := by
    constructor <;> simp [releaseArena, hsent]
  split_ifs
  · exact .adjust ((adjusts_sendStatusWord _ _).after (hrelease _ hpending))
  · refine .adjust ((hrelease _ ?_).after (adjusts_sendApduPayload _ _ _))
    cases hafter : (sendApduPayload _ response swSuccess).requestPending with
    | false => rfl
    | true => exact ((adjusts_sendApduPayload _ _ _).pending hafter).1.symm.trans hpending
  · exact .adjust (adjusts_beginChainedApduPayload _ _ _ _)
  · exact (section_sendGetResponse _ _ _).after (.adjust (adjusts_offerResponse _ _ _))

/-- No request is pending while the callback runs a command. -/
def CallbackAlone (app : NfcApp) : Prop := app.callback ≠ .idle → app.requestPending = false

/-- A step of the callback's own command. -/
theorem change_callbackReturns (hpending : CallbackAlone app) (event : NfcEvent)
    (response : Bytes) (surroundings : Surroundings) :
    Change app event (callbackReturns app response surroundings) := by
  unfold callbackReturns
  split
  next => exact .unchanged
  next oldAutoAccept extended hcallback =>
    have hfree : app.requestPending = false := hpending (by simp [hcallback])
    exact .returned (by rw [hcallback]; rfl)
      (section_finishCtap2Direct hfree oldAutoAccept extended response surroundings)
  next oldAutoAccept apdu hcallback =>
    exact .returned (by rw [hcallback]; rfl)
      (section_sendU2fResponse (leaveCommand app oldAutoAccept _) apdu response surroundings)

/-- Every step is one of the changes. -/
theorem nfcStep_change (hpending : CallbackAlone app) (event : NfcEvent) :
    Change app event (nfcStep handlers app event) := by
  have hreader (event : NfcEvent) : Change app event
      (if app.stopping || app.callback != .idle then app
        else handleReaderEvent handlers app event) := by
    split_ifs with hrefused
    · exact .unchanged
    · simp only [Bool.or_eq_true, bne_iff_ne, ne_eq, not_or, Bool.not_eq_true, not_not] at hrefused
      exact .handled hrefused.1 hrefused.2
        (section_handleReaderEvent handlers hrefused.1 hrefused.2 event)
  cases event with
  | stop => exact .stopped
  | callbackReturns response surroundings => exact change_callbackReturns hpending _ _ _
  | workerTakes =>
    simp only [nfcStep]
    split
    next hworker =>
      by_cases htaken : workerTakes app = app
      · rw [htaken]
        exact .unchanged
      · refine .taken hworker ?_ htaken
        by_contra hidle
        exact htaken (by simp [workerTakes, hidle])
    next => exact .unchanged
  | workerStores response =>
    simp only [nfcStep]
    split
    next hworker => exact .stored _ response hworker
    next => exact .unchanged
  | workerReturns =>
    simp only [nfcStep]
    split
    next hworker => exact .finished _ rfl hworker
    next => exact .unchanged
  | pollRestart => exact hreader .pollRestart
  | rats => exact hreader .rats
  | deselect => exact hreader .deselect
  | disconnect => exact hreader .disconnect
  | probeSleep => exact hreader .probeSleep
  | rAck sent => exact hreader (.rAck sent)
  | bareApdu frame capabilities surroundings =>
    exact hreader (.bareApdu frame capabilities surroundings)
  | iBlock pcb payload chained capabilities surroundings =>
    exact hreader (.iBlock pcb payload chained capabilities surroundings)

end Changes

section Alone

variable {app next : NfcApp}

theorem CallbackAlone.of_not_pending (h : next.requestPending = false) : CallbackAlone next :=
  fun _ ↦ h

theorem CallbackAlone.of_idle (h : next.callback = .idle) : CallbackAlone next :=
  fun hbusy ↦ absurd h hbusy

theorem startCtap2Direct_requestPending (app : NfcApp) (extended : Bool) :
    (startCtap2Direct app extended).requestPending = app.requestPending := by
  unfold startCtap2Direct
  split_ifs <;> rfl

theorem cancelCurrentRequest_fields (app : NfcApp) :
    (cancelCurrentRequest app).callback = app.callback ∧
      (cancelCurrentRequest app).requestPending = app.requestPending ∧
      (cancelCurrentRequest app).transportAutoAcceptTransaction =
        app.transportAutoAcceptTransaction := by
  unfold cancelCurrentRequest
  split_ifs <;> exact ⟨rfl, rfl, rfl⟩

theorem CallbackAlone.adjust (halone : CallbackAlone app) (hadjusts : Adjusts app next) :
    CallbackAlone next := by
  intro hbusy
  cases hpending : next.requestPending with
  | false => rfl
  | true =>
    have hbefore := halone (hadjusts.callback ▸ hbusy)
    exact absurd ((hadjusts.pending hpending).1.symm.trans hbefore) (by simp)

theorem CallbackAlone.section {selects : Prop} (halone : CallbackAlone app)
    (h : Section selects app next) : CallbackAlone next := by
  induction h with
  | adjust hadjusts => exact halone.adjust hadjusts
  | reset app => exact .of_not_pending rfl
  | cancel hkeeps hdeselected =>
    intro hbusy
    rw [(cancelCurrentRequest_fields _).1] at hbusy
    exact (cancelCurrentRequest_fields _).2.1.trans (halone hbusy)
  | start hselects => exact .of_not_pending rfl
  | queue hselected hcallback hqueue =>
    obtain ⟨-, -, -, rfl⟩ := queueRequest_queued hqueue
    exact .of_idle hcallback
  | direct hselected hpending hcallback =>
    exact .of_not_pending ((startCtap2Direct_requestPending _ _).trans hpending)
  | u2f hpending hcallback => exact .of_not_pending hpending
  | trans hfirst hsecond ih ih' => exact ih' (ih halone)

/-- A response that is stored ends the processing of its request. -/
theorem adjusts_storeResponse (app : NfcApp) (sessionId requestGeneration : ℕ)
    (response : Option Bytes) (responseIsU2f : Bool) :
    Adjusts app (storeResponse app sessionId requestGeneration response responseIsU2f) := by
  unfold storeResponse
  split_ifs
  · exact Adjusts.refl app
  · split
    · constructor <;> simp
    · split_ifs <;> constructor <;> simp

theorem adjusts_workerStores (app : NfcApp) (request : RunningRequest) (response : Option Bytes) :
    Adjusts app (workerStores app request response) := adjusts_storeResponse app _ _ _ _

/-- The worker that takes a request, in full. -/
theorem workerTakes_taken (h : workerTakes app ≠ app) :
    app.requestLen ≤ maxMsgSize ∧ workerTakes app = { app with
      requestPending := false
      transportAutoAcceptTransaction := true
      arenaAttached := false
      transportArena := zeroBytes transportArenaSize
      worker := .running {
        sessionId := app.processingSessionId
        requestGeneration := app.processingGeneration
        requestKind := app.requestKind
        requestCopy := app.transportArena.take app.requestLen
        oldAutoAccept := app.transportAutoAcceptTransaction
        origin := app.current } } := by
  unfold workerTakes at h ⊢
  split_ifs at h ⊢ with hrefused
  · exact absurd rfl h
  · simp only [Bool.or_eq_true, decide_eq_true_eq, not_or, not_lt] at hrefused
    exact ⟨hrefused.2, rfl⟩

theorem CallbackAlone.change {event : NfcEvent} (halone : CallbackAlone app)
    (h : Change app event next) : CallbackAlone next := by
  cases h with
  | unchanged => exact halone
  | handled hrunning hcallback hsection => exact halone.section hsection
  | returned hsaved hsection => exact (CallbackAlone.of_idle rfl).section hsection
  | taken hworker hpending htaken =>
    rw [(workerTakes_taken htaken).2]
    exact .of_not_pending rfl
  | stored request response hworker =>
    have hstored := halone.adjust (adjusts_workerStores app request response)
    exact hstored
  | finished request hevent hworker => exact halone
  | stopped =>
    intro hbusy
    rw [(cancelCurrentRequest_fields _).1] at hbusy
    exact (cancelCurrentRequest_fields _).2.1.trans (halone hbusy)

end Alone

end ZeroFido.Nfc
