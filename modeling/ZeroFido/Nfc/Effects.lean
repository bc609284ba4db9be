import ZeroFido.Nfc.Engine

/-!
# What a section of the callback can do

Every section of the NFC callback is a sequence of a few effects on the part of the state that the
results are about: small adjustments, a reset of the exchange, a cancellation, the start of a
session, queueing a request, and the start of a command that the callback runs itself. `Section` is
the relation of such sequences, and the lemmas of this module say that each function of the
dispatcher obeys it. An invariant is then checked effect by effect.
-/

set_option autoImplicit false
set_option relaxedAutoImplicit false

namespace ZeroFido.Nfc

section Relations

/-- A change that leaves the sessions, the generations, the flag and the threads alone. The applet
may be deselected, the session of the processed request forgotten, and a pending request dropped,
but not altered. -/
structure Adjusts (app next : NfcApp) : Prop where
  stopping : next.stopping = app.stopping
  sessionId : next.sessionId = app.sessionId
  canceledSessionId : next.canceledSessionId = app.canceledSessionId
  autoAccept : next.transportAutoAcceptTransaction = app.transportAutoAcceptTransaction
  worker : next.worker = app.worker
  callback : next.callback = app.callback
  requestGeneration : next.requestGeneration = app.requestGeneration
  processingGeneration : next.processingGeneration = app.processingGeneration
  queued : next.queued = app.queued
  resetsSinceQueue : next.resetsSinceQueue = app.resetsSinceQueue
  resets : next.resets = app.resets
  directs : next.directs = app.directs
  current : next.current = app.current
  appletSelected : next.appletSelected = true → app.appletSelected = true
  processingSessionId : next.processingSessionId = app.processingSessionId ∨
    next.processingSessionId = 0
  pending : next.requestPending = true → app.requestPending = true ∧
    next.processingSessionId = app.processingSessionId ∧ next.requestKind = app.requestKind ∧
    next.transportArena.take next.requestLen = app.transportArena.take app.requestLen

/-- The sequences of effects; a session is started only if `reselects`, and a request is cancelled
only if not. -/
inductive Section (reselects : Prop) : NfcApp → NfcApp → Prop where
  | adjust {app next : NfcApp} (h : Adjusts app next) : Section reselects app next
  | reset (app : NfcApp) : Section reselects app (resetExchange app)
  | cancel {app : NfcApp} (hkeeps : ¬reselects) (h : app.appletSelected = false) :
    Section reselects app (cancelCurrentRequest app)
  | start {app : NfcApp} (h : reselects) : Section reselects app (startSession app)
  | queue {app next : NfcApp} {kind : RequestKind} {request : Bytes}
    (hselected : app.appletSelected = true) (hcallback : app.callback = .idle)
    (h : queueRequest app kind request = (true, next)) : Section reselects app next
  | direct {app : NfcApp} {extended : Bool} (hselected : app.appletSelected = true)
    (hpending : app.requestPending = false) (hcallback : app.callback = .idle) :
    Section reselects app (startCtap2Direct app extended)
  | u2f {app : NfcApp} {apdu : NfcApdu} (hpending : app.requestPending = false)
    (hcallback : app.callback = .idle) : Section reselects app (startU2fImmediate app apdu)
  | trans {app middle next : NfcApp} (first : Section reselects app middle)
    (second : Section reselects middle next) : Section reselects app next

variable {reselects : Prop} {app middle next : NfcApp}

theorem Adjusts.refl (app : NfcApp) : Adjusts app app := by
  constructor <;> simp

theorem Adjusts.trans (h : Adjusts app middle) (h' : Adjusts middle next) : Adjusts app next where
  stopping := h'.stopping.trans h.stopping
  sessionId := h'.sessionId.trans h.sessionId
  canceledSessionId := h'.canceledSessionId.trans h.canceledSessionId
  autoAccept := h'.autoAccept.trans h.autoAccept
  worker := h'.worker.trans h.worker
  callback := h'.callback.trans h.callback
  requestGeneration := h'.requestGeneration.trans h.requestGeneration
  processingGeneration := h'.processingGeneration.trans h.processingGeneration
  queued := h'.queued.trans h.queued
  resetsSinceQueue := h'.resetsSinceQueue.trans h.resetsSinceQueue
  resets := h'.resets.trans h.resets
  directs := h'.directs.trans h.directs
  current := h'.current.trans h.current
  appletSelected := fun hselected ↦ h.appletSelected (h'.appletSelected hselected)
  processingSessionId := by
    obtain hsame | hzero := h'.processingSessionId
    · rw [hsame]
      exact h.processingSessionId
    · exact Or.inr hzero
  pending := by
    intro hpending
    obtain ⟨hmiddle, hsession', hkind', hrequest'⟩ := h'.pending hpending
    obtain ⟨happ, hsession, hkind, hrequest⟩ := h.pending hmiddle
    exact ⟨happ, hsession'.trans hsession, hkind'.trans hkind, hrequest'.trans hrequest⟩

theorem Adjusts.after (h' : Adjusts middle next) (h : Adjusts app middle) : Adjusts app next :=
  h.trans h'

theorem Section.refl (app : NfcApp) : Section reselects app app := .adjust (Adjusts.refl app)

theorem Section.after (h' : Section reselects middle next) (h : Section reselects app middle) :
    Section reselects app next := h.trans h'

theorem Section.thenAdjust (h : Section reselects app middle) (h' : Adjusts middle next) :
    Section reselects app next := h.trans (.adjust h')

end Relations

section Adjustments

/-- The state without the fields that only steer the replies. -/
def NfcApp.core (app : NfcApp) : NfcApp :=
  { app with
    processing := false
    processingCancelRequested := false
    responseReady := false
    responseIsU2f := false
    responseIsError := false
    commandChainActive := false
    ctapGetResponseSupported := false
    txChainActive := false
    txChainCompleted := false
    txChainData := []
    txChainOffset := 0
    desfireProbeFrame := 0
    rxChainLastValid := false
    rxChainLastPcb := 0
    rxChainDuplicateCount := 0
    rxChainLastOffset := 0
    rxChainLastLen := 0
    responseLen := 0
    responseOffset := 0
    errorStatusWord := 0
    arenaAttached := false
    transmitted := [] }

variable {app next : NfcApp}

/-- Changing only those fields is an adjustment. -/
theorem Adjusts.of_core (h : next.core = app.core) : Adjusts app next := by
  have hfield {Field : Type} (field : NfcApp → Field) : field next.core = field app.core := by
    rw [h]
  have harena : next.transportArena = app.transportArena := hfield NfcApp.transportArena
  have hlen : next.requestLen = app.requestLen := hfield NfcApp.requestLen
  exact
    { stopping := hfield NfcApp.stopping
      sessionId := hfield NfcApp.sessionId
      canceledSessionId := hfield NfcApp.canceledSessionId
      autoAccept := hfield NfcApp.transportAutoAcceptTransaction
      worker := hfield NfcApp.worker
      callback := hfield NfcApp.callback
      requestGeneration := hfield NfcApp.requestGeneration
      processingGeneration := hfield NfcApp.processingGeneration
      queued := hfield NfcApp.queued
      resetsSinceQueue := hfield NfcApp.resetsSinceQueue
      resets := hfield NfcApp.resets
      directs := hfield NfcApp.directs
      current := hfield NfcApp.current
      appletSelected := fun hselected ↦ (hfield NfcApp.appletSelected).symm.trans hselected
      processingSessionId := Or.inl (hfield NfcApp.processingSessionId)
      pending := fun hpending ↦ ⟨(hfield NfcApp.requestPending).symm.trans hpending,
        hfield NfcApp.processingSessionId, hfield NfcApp.requestKind, by rw [harena, hlen]⟩ }

/-- While no request is pending, the arena and the request fields may change too. -/
theorem Adjusts.of_free (hpending : app.requestPending = false) (arena : Bytes) (requestLen : ℕ)
    (requestKind : RequestKind) :
    Adjusts app { app with transportArena := arena, requestLen, requestKind } := by
  constructor <;> simp [hpending]

theorem adjusts_clearTxChain (app : NfcApp) : Adjusts app (clearTxChain app) := .of_core rfl

theorem adjusts_sendStatusWord (app : NfcApp) (statusWord : UInt16) :
    Adjusts app (sendStatusWord app statusWord) := .of_core rfl

theorem adjusts_sendApduPayload (app : NfcApp) (data : Bytes) (statusWord : UInt16) :
    Adjusts app (sendApduPayload app data statusWord) := by
  unfold sendApduPayload
  split_ifs <;> exact .of_core rfl

theorem adjusts_sendNextTxChainBlock (app : NfcApp) (sent : Bool) :
    Adjusts app (sendNextTxChainBlock app sent) := by
  unfold sendNextTxChainBlock
  dsimp only
  split_ifs <;> exact .of_core rfl

theorem adjusts_beginChainedApduPayload (app : NfcApp) (data : Bytes) (statusWord : UInt16)
    (sent : Bool) : Adjusts app (beginChainedApduPayload app data statusWord sent) := by
  unfold beginChainedApduPayload
  split_ifs
  · exact .of_core rfl
  · exact (adjusts_sendNextTxChainBlock _ sent).after (.of_core rfl)

theorem adjusts_sendBusyStatus (app : NfcApp) : Adjusts app (sendBusyStatus app) :=
  adjusts_sendApduPayload app _ _

/-- A response that is offered ends whatever was being processed. -/
theorem adjusts_offerResponse (app : NfcApp) (responseLen : ℕ) (responseIsU2f : Bool) :
    Adjusts app (offerResponse app responseLen responseIsU2f) := by
  constructor <;> simp [offerResponse]

end Adjustments

section Sections

variable {reselects : Prop} {app : NfcApp}

theorem Section.resetThen {next : NfcApp} (h : Adjusts (resetExchange app) next) :
    Section reselects app next := (Section.reset app).thenAdjust h

theorem section_sendGetResponse (app : NfcApp) (apdu : NfcApdu) (pendingApproval : Bool) :
    Section reselects app (sendGetResponse app apdu pendingApproval) := by
  unfold sendGetResponse
  dsimp only
  split_ifs
  all_goals first
    | exact .adjust (adjusts_sendStatusWord _ _)
    | exact .adjust (adjusts_sendApduPayload _ _ _)
    | exact .resetThen (adjusts_sendStatusWord _ _)
    | exact (Section.adjust (adjusts_sendApduPayload _ _ _)).trans (.reset _)
    | exact .adjust ((adjusts_sendApduPayload _ _ _).after (.of_core rfl))

theorem section_sendDeferredResponseOrWtx (app : NfcApp) (sent : Bool) :
    Section reselects app (sendDeferredResponseOrWtx app sent) := by
  unfold sendDeferredResponseOrWtx
  dsimp only
  split_ifs
  all_goals first
    | exact .adjust (adjusts_sendApduPayload _ _ _)
    | exact .adjust (adjusts_beginChainedApduPayload _ _ _ _)
    | exact (Section.adjust (adjusts_sendStatusWord _ _)).trans (.reset _)
    | exact (Section.adjust (adjusts_sendApduPayload _ _ _)).trans (.reset _)

theorem section_handleSelect (app : NfcApp) (apdu : NfcApdu) (fido2Enabled u2fEnabled : Bool)
    (hreselects : isFidoSelectApdu apdu = true → reselects) :
    Section reselects app (handleSelect app apdu fido2Enabled u2fEnabled) := by
  unfold handleSelect
  by_cases hselect : isFidoSelectApdu apdu = true
  · rw [if_neg (by simp [hselect])]
    refine (Section.start (hreselects hselect)).thenAdjust ?_
    exact (adjusts_clearTxChain _).trans (adjusts_sendApduPayload _ _ _)
  · rw [if_pos (by simp [hselect])]
    exact .adjust (adjusts_sendStatusWord _ _)

/-- A free exchange has no request pending. -/
theorem not_pending_of_not_busy (h : ¬exchangeBusy app = true) : app.requestPending = false := by
  cases hpending : app.requestPending with
  | false => rfl
  | true => exact absurd (by simp [exchangeBusy, hpending]) h

variable (handlers : Handlers)

theorem section_sendU2fResponse (app : NfcApp) (apdu : NfcApdu) (response : Bytes)
    (surroundings : Surroundings) :
    Section reselects app (sendU2fResponse app apdu response surroundings) := by
  unfold sendU2fResponse
  dsimp only
  split_ifs
  · exact .adjust (adjusts_sendStatusWord _ _)
  · exact .adjust (adjusts_sendApduPayload _ _ _)
  · exact .resetThen (adjusts_sendStatusWord _ _)
  · refine (section_sendGetResponse _ _ _).after (.adjust ?_)
    exact (adjusts_offerResponse app response.length true).trans (.of_core rfl)

/-- Writing to the arena of a free exchange. -/
theorem adjusts_writeArena (hpending : app.requestPending = false) (arena : Bytes) :
    Adjusts app { app with transportArena := arena } :=
  .of_free hpending arena app.requestLen app.requestKind

theorem section_sendU2fWithoutPresence (hpending : app.requestPending = false) (apdu : NfcApdu)
    (request : Bytes) (surroundings : Surroundings) :
    Section reselects app (sendU2fWithoutPresence handlers app apdu request surroundings) :=
  (section_sendU2fResponse _ _ _ _).after (.adjust (adjusts_writeArena hpending _))

theorem section_sendU2fVersionImmediate (app : NfcApp) (apdu : NfcApdu)
    (surroundings : Surroundings) (hreselects : ¬exchangeBusy app = true → reselects) :
    Section reselects app (sendU2fVersionImmediate handlers app apdu surroundings) := by
  unfold sendU2fVersionImmediate
  split_ifs with hbusy
  · exact .adjust (adjusts_sendBusyStatus _)
  · refine Section.trans (.start (hreselects hbusy)) ?_
    have hpending : (startSession app).requestPending = false := rfl
    dsimp only
    split
    · exact .adjust (adjusts_sendStatusWord _ _)
    · refine (section_sendU2fWithoutPresence handlers ?_ _ _ _).after
        (.adjust (adjusts_writeArena hpending _))
      exact hpending

theorem section_runU2fRequest (hpending : app.requestPending = false)
    (hcallback : app.callback = .idle) (apdu : NfcApdu) (request : Bytes)
    (surroundings : Surroundings) :
    Section reselects app (runU2fRequest handlers app apdu request surroundings) := by
  unfold runU2fRequest
  split
  · exact (section_sendU2fResponse _ _ _ _).after (.adjust (adjusts_writeArena hpending _))
  · split_ifs
    · exact .u2f hpending hcallback
    · exact section_sendU2fWithoutPresence handlers hpending _ _ _

theorem section_handleU2fApdu (hpending : app.requestPending = false)
    (hcallback : app.callback = .idle) (apdu : NfcApdu) (surroundings : Surroundings) :
    Section reselects app (handleU2fApdu handlers app apdu surroundings) := by
  unfold handleU2fApdu
  split
  · exact .adjust (adjusts_sendStatusWord _ _)
  · refine (section_runU2fRequest handlers ?_ ?_ _ _ _).after
      (.adjust (adjusts_writeArena hpending _))
    · exact hpending
    · exact hcallback

/-- What queueing a request does. -/
theorem queueRequest_queued {next : NfcApp} {kind : RequestKind} {request : Bytes}
    (h : queueRequest app kind request = (true, next)) :
    app.stopping = false ∧ 0 < request.length ∧ request.length ≤ maxMsgSize ∧ next = { app with
      arenaAttached := true
      transportArena := writeArena app.transportArena 0 request
      requestLen := request.length
      requestKind := kind
      requestPending := true
      processing := true
      processingCancelRequested := false
      canceledSessionId := 0
      processingSessionId := app.sessionId
      requestGeneration := nextGeneration app.requestGeneration
      processingGeneration := nextGeneration app.requestGeneration
      responseReady := false
      responseIsError := false
      responseIsU2f := false
      responseLen := 0
      responseOffset := 0
      queued := app.queued + 1
      resetsSinceQueue := 0
      handed := app.handed ++ [request]
      current := some { number := app.queued + 1, kind, request } } := by
  unfold queueRequest at h
  split_ifs at h with hrefused
  · simp at h
  · simp only [Bool.or_eq_true, decide_eq_true_eq, not_or, Bool.not_eq_true, not_lt] at hrefused
    obtain ⟨⟨⟨⟨⟨hrunning, hempty⟩, hlength⟩, -⟩, -⟩, -⟩ := hrefused
    exact ⟨hrunning, Nat.pos_of_ne_zero hempty, hlength, (Prod.mk.inj h).2.symm⟩

/-- A request that is refused is not queued. -/
theorem adjusts_of_refused {next : NfcApp} {kind : RequestKind} {request : Bytes}
    (h : queueRequest app kind request = (false, next)) : Adjusts app next := by
  unfold queueRequest at h
  split_ifs at h
  · rw [← (Prod.mk.inj h).2]
    exact .of_core rfl
  · simp at h

theorem section_finishCtap2Msg (hselected : app.appletSelected = true)
    (hpending : app.requestPending = false) (hcallback : app.callback = .idle) (extended : Bool) :
    Section reselects app (finishCtap2Msg app extended) := by
  unfold finishCtap2Msg
  dsimp only
  have hchain : Adjusts app { app with commandChainActive := false } := .of_core rfl
  refine Section.trans (.adjust hchain) ?_
  split_ifs
  · exact .direct hselected hpending hcallback
  · split
    · rename_i next hqueue
      exact .adjust ((adjusts_sendStatusWord _ _).after (adjusts_of_refused hqueue))
    · rename_i next hqueue
      refine (Section.queue ?_ ?_ hqueue).thenAdjust ?_
      · exact hselected
      · exact hcallback
      · exact (adjusts_sendBusyStatus _).after (.of_core rfl)

/-- A message that is taken changes the request in the arena and two flags. -/
theorem takeCtapMsg_taken {next : NfcApp} {apdu : NfcApdu}
    (h : takeCtapMsg app apdu = (true, next)) :
    ∃ arena requestLen getResponse, next = { app with
      transportArena := arena
      requestLen
      ctapGetResponseSupported := getResponse } := by
  unfold takeCtapMsg appendCtapChainedFragment beginCtapMsg at h
  split_ifs at h
  · simp at h
  · exact ⟨_, _, _, (Prod.mk.inj h).2.symm⟩
  · simp at h
  · exact ⟨_, _, _, (Prod.mk.inj h).2.symm⟩

/-- A message that is refused ends the chain it continues. -/
theorem takeCtapMsg_refused {next : NfcApp} {apdu : NfcApdu}
    (h : takeCtapMsg app apdu = (false, next)) : next = resetExchange app ∨ next = app := by
  unfold takeCtapMsg appendCtapChainedFragment beginCtapMsg at h
  split_ifs at h
  · exact Or.inl (Prod.mk.inj h).2.symm
  · simp at h
  · exact Or.inr (Prod.mk.inj h).2.symm
  · simp at h

theorem section_handleCtapMsg (hselected : app.appletSelected = true)
    (hcallback : app.callback = .idle) (apdu : NfcApdu) (capabilities : NfcCapabilities)
    (surroundings : Surroundings) :
    Section reselects app (handleCtapMsg app apdu capabilities surroundings) := by
  unfold handleCtapMsg
  split_ifs with _ _ _ hbusy
  · exact .resetThen (adjusts_sendStatusWord _ _)
  · exact .adjust (adjusts_sendStatusWord _ _)
  · exact section_sendGetResponse _ _ _
  · exact .adjust (adjusts_sendBusyStatus _)
  · have hpending := not_pending_of_not_busy hbusy
    split
    · rename_i next htake
      obtain rfl | rfl := takeCtapMsg_refused htake
      · exact .resetThen (adjusts_sendStatusWord _ _)
      · exact .adjust (adjusts_sendStatusWord _ _)
    · rename_i next htake
      obtain ⟨arena, requestLen, getResponse, rfl⟩ := takeCtapMsg_taken htake
      refine Section.trans (.adjust ?_) (section_finishCtap2Msg ?_ ?_ ?_ apdu.extended)
      · exact Adjusts.trans (.of_free hpending arena requestLen app.requestKind) (.of_core rfl)
      · exact hselected
      · exact hpending
      · exact hcallback

theorem section_handleChainedCtapMsg (app : NfcApp) (apdu : NfcApdu) :
    Section reselects app (handleChainedCtapMsg app apdu) := by
  unfold handleChainedCtapMsg
  split_ifs with _ hbusy
  · exact .resetThen (adjusts_sendStatusWord _ _)
  · exact .adjust (adjusts_sendBusyStatus _)
  · have hpending := not_pending_of_not_busy hbusy
    unfold appendCtapChainedFragment
    split_ifs
    · exact .resetThen (adjusts_sendStatusWord _ _)
    · refine .adjust ((adjusts_sendStatusWord _ _).after ?_)
      exact Adjusts.trans (.of_free hpending _ _ app.requestKind) (.of_core rfl)

theorem section_handleControlEnd (hkeeps : ¬reselects) (app : NfcApp) :
    Section reselects app (handleControlEnd app) := by
  have hdeselect : Adjusts app { app with appletSelected := false } := by
    constructor <;> simp
  refine (Section.adjust hdeselect).trans ((Section.cancel hkeeps rfl).trans (.resetThen ?_))
  exact (adjusts_clearTxChain _).trans (adjusts_sendStatusWord _ _)

theorem section_sendGetInfoResponse (hpending : app.requestPending = false)
    (surroundings : Surroundings) :
    Section reselects app (sendGetInfoResponse handlers app surroundings) := by
  have hinformed : Adjusts app { app with
      transportArena := writeArena app.transportArena 0 handlers.getInfoResponse
      handed := app.handed ++ [[ctapCmdGetInfo]] } := by
    constructor <;> simp [hpending]
  unfold sendGetInfoResponse
  refine Section.trans (.adjust hinformed) ?_
  dsimp only
  split_ifs
  · exact .adjust (adjusts_sendApduPayload _ _ _)
  · exact .adjust (adjusts_beginChainedApduPayload _ _ _ _)

theorem section_handleAppletApdu (hselected : app.appletSelected = true)
    (hcallback : app.callback = .idle) (apdu : NfcApdu) (capabilities : NfcCapabilities)
    (surroundings : Surroundings) (hkeeps : apdu.cla = 0x80 → ¬reselects) :
    Section reselects app (handleAppletApdu handlers app apdu capabilities surroundings) := by
  unfold handleAppletApdu
  split_ifs with hend _ _ _ hinfo _ _ _ _ _ _ _ hu2f
  · simp only [Bool.and_eq_true, beq_iff_eq] at hend
    exact section_handleControlEnd (hkeeps hend.1.1.1) app
  · exact .adjust (adjusts_sendStatusWord _ _)
  · exact .adjust (adjusts_sendStatusWord _ _)
  · exact .adjust (adjusts_sendBusyStatus _)
  · exact section_sendGetInfoResponse handlers (not_pending_of_not_busy hinfo) surroundings
  · exact .adjust (adjusts_sendStatusWord _ _)
  · exact section_sendGetResponse _ _ _
  · exact section_handleChainedCtapMsg app apdu
  · exact section_handleCtapMsg hselected hcallback apdu capabilities surroundings
  · exact .adjust (adjusts_sendStatusWord _ _)
  · exact .adjust (adjusts_sendStatusWord _ _)
  · exact .adjust (adjusts_sendBusyStatus _)
  · exact section_handleU2fApdu handlers (not_pending_of_not_busy hu2f) hcallback apdu surroundings
  · exact .adjust (adjusts_sendStatusWord _ _)

end Sections

end ZeroFido.Nfc
