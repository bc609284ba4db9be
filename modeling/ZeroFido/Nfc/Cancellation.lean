import ZeroFido.Nfc.AutoAccept

/-!
# Cancellation of a running request

A request that the worker is running is cancelled by writing its session to `canceled_session_id`;
the command asks `zf_transport_nfc_poll_cbor_control` from time to time and stops when it finds its
session there. Cancelling also deselects the applet, so that nothing can be queued before the reader
selects it again.

Until then the answer to the poll stays (`cancellation_sticky`). SELECT clears the field, whether or
not the cancelled command has noticed, and the command goes on (`cancelled_request_goes_on`).
-/

set_option autoImplicit false
set_option relaxedAutoImplicit false

namespace ZeroFido.Nfc

open Foundations

section Invariant

/-- A request of the session is being run although it was cancelled. -/
def CancelledRunning (app : NfcApp) (sessionId : ℕ) : Prop :=
  ∃ request, app.worker = .running request ∧ request.cancelled = true ∧
    request.sessionId = sessionId

/-- The cancellation is still recorded, and nothing is processed for another session. -/
structure CancelRecorded (app : NfcApp) (sessionId : ℕ) : Prop where
  deselected : app.appletSelected = false
  canceledSessionId : app.canceledSessionId = sessionId
  processingSessionId : app.processingSessionId = 0 ∨ app.processingSessionId = sessionId

/-- A cancelled request is recorded as such unless the transport is stopping. -/
structure CancelSticky (app : NfcApp) : Prop where
  recorded : ∀ sessionId, CancelledRunning app sessionId →
    app.stopping = true ∨ CancelRecorded app sessionId
  alone : CallbackAlone app

variable {app next : NfcApp} {sessionId : ℕ}

/-- Only the mark of the cancelled session is set. -/
theorem Worker.cancelSession_running {worker : Worker} {request : RunningRequest}
    (h : worker.cancelSession sessionId = .running request) :
    ∃ original, worker = .running original ∧ request.sessionId = original.sessionId ∧
      (request.cancelled = true → original.cancelled = true ∨ original.sessionId = sessionId) := by
  unfold Worker.cancelSession at h
  split at h
  next original =>
    split_ifs at h with hsession
    · refine ⟨original, rfl, ?_, fun _ ↦ Or.inr hsession⟩
      rw [← Worker.running.inj h]
    · refine ⟨original, rfl, ?_, fun hcancelled ↦ Or.inl ?_⟩
      · rw [Worker.running.inj h]
      · rw [Worker.running.inj h]
        exact hcancelled
  next => exact ⟨request, h, rfl, Or.inl⟩

theorem CancelledRunning.of_worker (h : CancelledRunning next sessionId)
    (hworker : next.worker = app.worker) : CancelledRunning app sessionId := by
  obtain ⟨request, hrequest, hcancelled, hsession⟩ := h
  exact ⟨request, hworker.symm.trans hrequest, hcancelled, hsession⟩

/-- A request that is found cancelled after `zf_transport_nfc_cancel_current_request_locked` was so
before, or it is the one being processed. -/
theorem CancelledRunning.of_cancelCurrentRequest
    (h : CancelledRunning (cancelCurrentRequest app) sessionId) :
    CancelledRunning app sessionId ∨
      (app.processingSessionId ≠ 0 ∧ app.processingSessionId = sessionId) := by
  obtain ⟨request, hrequest, hcancelled, hsession⟩ := h
  unfold cancelCurrentRequest at hrequest
  split_ifs at hrequest with hprocessing
  · obtain ⟨original, hworker, hsame, hmark⟩ := Worker.cancelSession_running hrequest
    obtain hbefore | hnow := hmark hcancelled
    · exact Or.inl ⟨original, hworker, hbefore, hsame.symm.trans hsession⟩
    · exact Or.inr ⟨hprocessing, hnow.symm.trans (hsame.symm.trans hsession)⟩
  · exact Or.inl ⟨request, hrequest, hcancelled, hsession⟩

/-- Cancelling a request records it, and keeps the record of the one cancelled before. -/
theorem CancelRecorded.cancel (hdeselected : app.appletSelected = false)
    (h : CancelRecorded app sessionId ∨
      (app.processingSessionId ≠ 0 ∧ app.processingSessionId = sessionId)) :
    CancelRecorded (cancelCurrentRequest app) sessionId := by
  unfold cancelCurrentRequest
  obtain hrecorded | ⟨hprocessing, hsession⟩ := h
  · split_ifs with hprocessing
    · obtain hzero | hsame := hrecorded.processingSessionId
      · exact absurd hzero hprocessing
      · exact ⟨hdeselected, hsame, Or.inr hsame⟩
    · exact ⟨hdeselected, hrecorded.canceledSessionId, hrecorded.processingSessionId⟩
  · rw [if_pos hprocessing]
    exact ⟨hdeselected, hsession, Or.inr hsession⟩

/-- A change that keeps the worker, the sessions and the deselection keeps the record. -/
theorem CancelSticky.of_eq (h : CancelSticky app) (halone : CallbackAlone next)
    (hworker : next.worker = app.worker) (hstopping : next.stopping = app.stopping)
    (hselected : next.appletSelected = true → app.appletSelected = true)
    (hcanceled : next.canceledSessionId = app.canceledSessionId)
    (hprocessing : next.processingSessionId = app.processingSessionId ∨
      next.processingSessionId = 0) : CancelSticky next where
  recorded := by
    intro sessionId hrunning
    obtain hstop | hrecorded := h.recorded sessionId (hrunning.of_worker hworker)
    · exact Or.inl (hstopping.trans hstop)
    · refine Or.inr ⟨?_, hcanceled.trans hrecorded.canceledSessionId, ?_⟩
      · by_contra hnext
        have hbefore := hselected (by simpa using hnext)
        exact absurd (hbefore.symm.trans hrecorded.deselected) (by simp)
      · obtain hsame | hzero := hprocessing
        · rw [hsame]
          exact hrecorded.processingSessionId
        · exact Or.inl hzero
  alone := halone

/-- While the applet is selected, a cancelled request can only be running in a transport that is
stopping. -/
theorem CancelSticky.of_selected (h : CancelSticky app) (hselected : app.appletSelected = true)
    (halone : CallbackAlone next) (hworker : next.worker = app.worker)
    (hstopping : next.stopping = app.stopping) : CancelSticky next where
  recorded := by
    intro sessionId hrunning
    obtain hstop | hrecorded := h.recorded sessionId (hrunning.of_worker hworker)
    · exact Or.inl (hstopping.trans hstop)
    · exact absurd (hselected.symm.trans hrecorded.deselected) (by simp)
  alone := halone

theorem CancelSticky.leave (h : CancelSticky app) (oldAutoAccept : Bool) (arena : Bytes) :
    CancelSticky (leaveCommand app oldAutoAccept arena) :=
  h.of_eq (.of_idle rfl) rfl rfl id rfl (Or.inl rfl)

theorem CancelSticky.adjust (h : CancelSticky app) (hadjusts : Adjusts app next) :
    CancelSticky next :=
  h.of_eq (h.alone.adjust hadjusts) hadjusts.worker hadjusts.stopping hadjusts.appletSelected
    hadjusts.canceledSessionId hadjusts.processingSessionId

theorem cancelCurrentRequest_stopping (app : NfcApp) :
    (cancelCurrentRequest app).stopping = app.stopping := by
  unfold cancelCurrentRequest
  split_ifs <;> rfl

theorem CancelSticky.cancel (h : CancelSticky app) (hdeselected : app.appletSelected = false)
    (halone : CallbackAlone (cancelCurrentRequest app)) :
    CancelSticky (cancelCurrentRequest app) where
  recorded := by
    intro sessionId hrunning
    rw [cancelCurrentRequest_stopping]
    obtain hbefore | hnow := hrunning.of_cancelCurrentRequest
    · obtain hstop | hrecorded := h.recorded sessionId hbefore
      · exact Or.inl hstop
      · exact Or.inr (CancelRecorded.cancel hdeselected (Or.inl hrecorded))
    · exact Or.inr (CancelRecorded.cancel hdeselected (Or.inr hnow))
  alone := halone

/-- A section that does not select the applet keeps the record; one that does must find no cancelled
request, and it cancels none. -/
theorem CancelSticky.section {selects : Prop} (h : CancelSticky app)
    (hsection : Section selects app next)
    (hselects : selects → ∀ sessionId, ¬CancelledRunning app sessionId) :
    CancelSticky next ∧ (selects → ∀ sessionId, ¬CancelledRunning next sessionId) := by
  -- The second part only needs that nothing but a cancellation marks the worker's request.
  have hkept {app next : NfcApp} (hworker : next.worker = app.worker)
      (hselects : selects → ∀ sessionId, ¬CancelledRunning app sessionId) :
      selects → ∀ sessionId, ¬CancelledRunning next sessionId :=
    fun hselected sessionId hrunning ↦
      hselects hselected sessionId (hrunning.of_worker hworker)
  induction hsection with
  | adjust hadjusts => exact ⟨h.adjust hadjusts, hkept hadjusts.worker hselects⟩
  | reset app =>
    exact ⟨h.of_eq (.of_not_pending rfl) rfl rfl id rfl (Or.inr rfl), hkept rfl hselects⟩
  | cancel hkeeps hdeselected =>
    have halone := h.alone.section (Section.cancel hkeeps hdeselected)
    exact ⟨h.cancel hdeselected halone, fun hselected ↦ absurd hselected hkeeps⟩
  | start hselected =>
    refine ⟨⟨fun sessionId hrunning ↦ ?_, .of_not_pending rfl⟩, hkept rfl hselects⟩
    exact absurd (hrunning.of_worker rfl) (hselects hselected sessionId)
  | queue hselected hcallback hqueue =>
    obtain ⟨-, -, -, rfl⟩ := queueRequest_queued hqueue
    exact ⟨h.of_selected hselected (.of_idle hcallback) rfl rfl, hkept rfl hselects⟩
  | direct hselected hpending hcallback =>
    unfold startCtap2Direct
    split_ifs
    · exact ⟨h.adjust (adjusts_sendStatusWord _ _), hkept rfl hselects⟩
    · exact ⟨h.of_selected hselected (.of_not_pending hpending) rfl rfl, hkept rfl hselects⟩
  | u2f hpending hcallback =>
    exact ⟨h.of_eq (.of_not_pending hpending) rfl rfl id rfl (Or.inl rfl), hkept rfl hselects⟩
  | trans hfirst hsecond ih ih' =>
    obtain ⟨hmiddle, hselects'⟩ := ih h hselects
    exact ih' hmiddle hselects'

end Invariant

section Runs

/-- While a cancelled request is still being run, the reader does not select the applet. -/
def NotReselected (app : NfcApp) (event : NfcEvent) : Prop :=
  (∃ sessionId, CancelledRunning app sessionId) → reselects app event = false

variable {app : NfcApp} {sessionId : ℕ}

theorem CancelSticky.step (handlers : Handlers) (app : NfcApp) (event : NfcEvent)
    (hevent : NotReselected app event) (h : CancelSticky app) :
    CancelSticky (nfcStep handlers app event) := by
  have hchange := nfcStep_change handlers h.alone event
  generalize nfcStep handlers app event = next at hchange ⊢
  cases hchange with
  | unchanged => exact h
  | handled hrunning hcallback hsection =>
    refine (h.section hsection fun hselected sessionId hcancelled ↦ ?_).1
    exact absurd (hselected.symm.trans (hevent ⟨sessionId, hcancelled⟩)) (by simp)
  | returned hsaved hsection =>
    exact ((h.leave _ _).section hsection False.elim).1
  | taken hworker hpending htaken =>
    rw [(workerTakes_taken htaken).2]
    refine ⟨fun sessionId hrunning ↦ ?_, .of_not_pending rfl⟩
    -- A request starts its run uncancelled.
    obtain ⟨request, hrequest, hcancelled, -⟩ := hrunning
    rw [← Worker.running.inj hrequest] at hcancelled
    exact absurd hcancelled (by simp)
  | stored request response hworker =>
    have halone := h.alone.adjust (adjusts_workerStores app request response)
    refine ⟨fun sessionId hrunning ↦ ?_, halone⟩
    obtain ⟨request', hrequest, -⟩ := hrunning
    exact absurd hrequest (by simp)
  | finished request hreturns hworker =>
    refine ⟨fun sessionId hrunning ↦ ?_, h.alone⟩
    obtain ⟨request', hrequest, -⟩ := hrunning
    exact absurd hrequest (by simp)
  | stopped =>
    refine ⟨fun sessionId _ ↦ Or.inl (cancelCurrentRequest_stopping _), fun hbusy ↦ ?_⟩
    obtain ⟨hcallback, hpending, -⟩ := cancelCurrentRequest_fields { app with stopping := true }
    rw [hcallback] at hbusy
    exact hpending.trans (h.alone hbusy)

/-- A recorded cancellation is what the poll looks for. -/
theorem CancelSticky.poll (h : CancelSticky app) (hrunning : CancelledRunning app sessionId) :
    pollCborControl app sessionId = .keepaliveCancel := by
  unfold pollCborControl
  obtain hstop | hrecorded := h.recorded sessionId hrunning
  · simp [hstop]
  · simp [hrecorded.canceledSessionId]

/-- In every run in which the reader does not select the applet while a cancelled request is still
being run, every poll that such a request makes tells it that it is cancelled. -/
theorem cancellation_sticky (handlers : Handlers) (events : List NfcEvent)
    (hevents : EveryStep (nfcStep handlers) NotReselected {} events)
    (before after : List NfcEvent) (hsplit : events = before ++ after) (sessionId : ℕ)
    (hrunning : CancelledRunning (run (nfcStep handlers) {} before) sessionId) :
    pollCborControl (run (nfcStep handlers) {} before) sessionId = .keepaliveCancel := by
  rw [hsplit] at hevents
  obtain ⟨hbefore, -⟩ := (everyStep_append before after).mp hevents
  have hstart : CancelSticky {} := by
    refine ⟨fun _ hnone ↦ ?_, .of_idle rfl⟩
    obtain ⟨request, hrequest, -⟩ := hnone
    exact absurd hrequest (by simp)
  exact (run_invariant (CancelSticky.step handlers) hbefore hstart).poll hrunning

/-- The field is lost while the worker is running a request. -/
def fieldLost : List NfcEvent := [selectFido, sendGetAssertion true, .workerTakes, .disconnect]

theorem cancellation_sticky_fieldLost :
    CancelledRunning (run (nfcStep .withoutU2f) {} fieldLost) 1 ∧
      pollCborControl (run (nfcStep .withoutU2f) {} fieldLost) 1 = .keepaliveCancel := by
  have hrunning : CancelledRunning (run (nfcStep .withoutU2f) {} fieldLost) 1 := by
    refine ⟨{ sessionId := 1, requestGeneration := 1, requestKind := .ctap2,
              requestCopy := [0x02, 0xA0], oldAutoAccept := false,
              origin := some { number := 1, kind := .ctap2, request := [0x02, 0xA0] },
              cancelled := true }, ?_, rfl, rfl⟩
    decide +kernel
  refine ⟨hrunning, cancellation_sticky .withoutU2f fieldLost ?_ fieldLost [] (by simp) 1 hrunning⟩
  refine ⟨?_, ?_, ?_, ?_, trivial⟩
  · rintro ⟨sessionId, request, hworker, -⟩
    exact absurd hworker (by simp)
  · rintro -
    decide +kernel
  · rintro -
    decide +kernel
  · rintro -
    decide +kernel

/-- The reader ends the exchange and selects the applet again while the worker is still running the
request. -/
def endThenSelect : List NfcEvent :=
  [selectFido, sendGetAssertion true, .workerTakes,
    .bareApdu [0x80, 0x12, 0x01, 0x00] { fido2Enabled := true, u2fEnabled := false } {},
    selectFido]

theorem cancelled_request_goes_on :
    ¬∀ (handlers : Handlers) (events : List NfcEvent) (sessionId : ℕ),
      CancelledRunning (run (nfcStep handlers) {} events) sessionId →
      pollCborControl (run (nfcStep handlers) {} events) sessionId = .keepaliveCancel := by
  intro hclaim
  have hpoll : pollCborControl (run (nfcStep .withoutU2f) {} endThenSelect) 1 = .success := by
    decide +kernel
  have hcancel := hclaim .withoutU2f endThenSelect 1
    ⟨{ sessionId := 1, requestGeneration := 1, requestKind := .ctap2, requestCopy := [0x02, 0xA0],
       oldAutoAccept := false,
       origin := some { number := 1, kind := .ctap2, request := [0x02, 0xA0] },
       cancelled := true }, by decide +kernel, rfl, rfl⟩
  exact absurd (hpoll.symm.trans hcancel) (by simp)

end Runs

end ZeroFido.Nfc
