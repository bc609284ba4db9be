import ZeroFido.Foundations.Process
import ZeroFido.Foundations.Run
import ZeroFido.Ctap.Policy
import ZeroFido.Pin.RequireAuth

/-!
# The shared state of the authenticator

The parts of `ZerofidoApp` that the CTAP commands share with the user interface: the credential
index, the maintenance gate, the prompt and the getNextAssertion queue. A command is a `Process`
whose sections are the parts of its code under `ui_mutex` and the work between them. The user
interface acts between any two sections: it answers the prompt, and it deletes credentials while
the gate is free (`ui/views.c`). File work is done by a holder of the gate only, so it is one
section.

Calls that leave the modelled code take their outcome from lists, as the calls of the device do: the
transport's control poll, building a response and the wait for the user. An empty list stands for
calls that all succeed. The observer's fields are not in the code; no section reads them.
-/

set_option autoImplicit false
set_option relaxedAutoImplicit false

namespace ZeroFido.Ctap

open Foundations Storage Store

section State

/-- `ZfApprovalState`. -/
inductive ApprovalState where
  | idle
  | pending
  | approved
  | denied
  | canceled
  | timedOut
  deriving DecidableEq, Repr

/-- `ZfInteractionKind`. -/
inductive InteractionKind where
  | approval
  | assertionSelection
  deriving DecidableEq, Repr

/-- The prompt. No selected record stands for `UINT16_MAX`. -/
structure Approval where
  state : ApprovalState := .idle
  kind : InteractionKind := .approval
  credentialIndices : List ℕ := []
  selectedRecordIndex : Option ℕ := none
  deriving DecidableEq, Repr

/-- `ZfAssertionQueue`. -/
structure AssertionQueue where
  active : Bool := false
  sessionId : ℕ := 0
  uvVerified : Bool := false
  userPresent : Bool := false
  count : ℕ := 0
  index : ℕ := 0
  expiresAt : ℕ := 0
  request : AssertionRequestData := { clientDataHash := zeroBytes clientDataHashLen, rpId := [] }
  recordIndices : List ℕ := []
  deriving DecidableEq, Repr

/-- What an assertion response says: the authenticator data, what was signed with it, the user and
the optional members. -/
structure AssertionResponse where
  credentialId : Bytes
  rpId : Bytes
  clientDataHash : Bytes
  userPresent : Bool
  userVerified : Bool
  signCount : ℕ
  userId : Bytes
  userName : Option Bytes
  userDisplayName : Option Bytes
  numberOfCredentials : Option ℕ
  userSelected : Bool
  deriving DecidableEq, Repr

/-- A getAssertion that returned success, with the index it was answered from. `selected` is the
credential the user chose, when the selection prompt was shown, and `deleted` has the positions that
deletions removed from the index after the matches were resolved. -/
structure Assertion where
  sessionId : ℕ
  request : GetAssertionRequest
  uvVerified : Bool
  store : CredentialStore
  recordIndex : ℕ
  record : CredentialRecord
  response : AssertionResponse
  prompted : Bool
  selected : Option Bytes
  deleted : List ℕ
  deriving DecidableEq, Repr

/-- What the queue was seeded with. -/
structure Seeding where
  sessionId : ℕ
  request : AssertionRequestData
  uvVerified : Bool
  userPresent : Bool
  credentialIds : List Bytes
  deriving DecidableEq, Repr

/-- What the observer is told. -/
inductive CtapEvent where
  /-- A getAssertion passed its first checks and cleared the queue. -/
  | accepted
  | asserted (assertion : Assertion)
  | seeded (seeding : Seeding)
  /-- A getNextAssertion returned success. -/
  | continued (sessionId : ℕ) (response : AssertionResponse)
  | registered (credentialId : Bytes)
  | deleted (credentialId : Bytes)
  /-- A reset passed its prompt and took the gate. -/
  | reset
  deriving DecidableEq, Repr

/-- Where the user interface is in `zerofido_delete_selected_credential`. -/
inductive UiPhase where
  | idle
  | deleting (credentialId : Bytes)
  | deleted (credentialId : Bytes) (result : StoreDeleteResult)
  deriving DecidableEq, Repr

/-- The settings of `ZfResolvedCapabilities` that the commands read. -/
structure Capabilities where
  pinUvAuthProtocol2Enabled : Bool := false
  advertiseFido21 : Bool := false
  autoAcceptRequests : Bool := false
  deriving DecidableEq, Repr

/-- The real times of the queue's expiry: when its window was last opened, by the seeding or by an
answer, the checks for calls of its session, each with the time its window was opened, and those of
the checks that an answer followed. -/
structure ExpiryTimes where
  openedAt : ℕ := 0
  checks : List (ℕ × ℕ) := []
  answered : List (ℕ × ℕ) := []
  deriving DecidableEq, Repr

/-- The shared state. -/
structure App where
  store : CredentialStore := []
  maintenanceBusy : Bool := false
  approval : Approval := {}
  assertionQueue : AssertionQueue := {}
  /-- `ui_events_enabled` and `running`. -/
  uiAvailable : Bool := true
  transportAutoAcceptTransaction : Bool := false
  pinState : Pin.ClientPinState := {}
  capabilities : Capabilities := {}
  ui : UiPhase := .idle
  /-- The power was lost while the user interface was deleting. -/
  stopped : Bool := false
  /-- Outcomes of the coming calls that answer with a status. -/
  statuses : List CtapStatus := []
  /-- Whether the coming waits for the user end normally. -/
  waits : List Bool := []
  device : Pin.Device
  /-- Observer: what has happened, newest last. -/
  record : List CtapEvent := []
  /-- Observer: the positions deleted since matches were last resolved. -/
  deletedPositions : List ℕ := []
  /-- Observer: the credential the user chose in the last selection prompt. -/
  selectedCredential : Option Bytes := none
  /-- Observer: when the window of the queue was opened, and when its expiry was checked. -/
  expiry : ExpiryTimes := {}

/-- What a command answers: a status other than success, or a response. -/
abbrev Reply (Value : Type) := Except CtapStatus Value

end State

section Sections

variable {Value : Type}

/-- A program of the device. -/
def onDevice (program : Program Pin.Device Value) : Program App Value := fun app ↦
  match program.run app.device with
  | .ok value device => .ok value { app with device }
  | .error reason device => .error reason { app with device }

/-- Tells the observer. -/
def announce (event : CtapEvent) : Program App Unit :=
  modify fun app ↦ { app with record := app.record ++ [event] }

/-- The status of the next call that leaves the modelled code. -/
def nextStatus : Program App CtapStatus :=
  modifyGet fun app ↦ (app.statuses.headD .success, { app with statuses := app.statuses.tail })

/-- Whether the next wait for the user ends normally. -/
def nextWait : Program App Bool :=
  modifyGet fun app ↦ (app.waits.headD true, { app with waits := app.waits.tail })

/-- `zf_transport_poll_cbor_control`. -/
def pollCborControl : Process App CtapStatus := Process.atomically nextStatus

/-- `zf_ctap_begin_maintenance`. -/
def beginMaintenance : Process App Bool := Process.atomically do
  if (← get).maintenanceBusy then
    return false
  modify fun app ↦ { app with maintenanceBusy := true }
  return true

/-- `zf_ctap_end_maintenance`. -/
def endMaintenance : Process App Unit := Process.atomically do
  modify fun app ↦ { app with maintenanceBusy := false }

/-- `zf_ctap_assertion_queue_clear`. -/
def assertionQueueClear : Program App Unit := do
  modify fun app ↦ { app with assertionQueue := {} }

/-- `zf_ctap_validate_pin_auth_protocol`. -/
def validatePinAuthProtocol (hasPinAuth hasPinProtocol : Bool) (pinProtocol : ℕ)
    (allowProtocol2 : Bool) : CtapStatus :=
  if !hasPinAuth then .success
  else if !hasPinProtocol then .missingParameter
  else if pinProtocol ≠ 1 ∧ (pinProtocol ≠ 2 ∨ !allowProtocol2) then .invalidParameter
  else .success

/-- `zf_ctap_effective_uv_requested`. -/
def effectiveUvRequested (hasPinAuth hasUv uv : Bool) : Bool := !hasPinAuth && hasUv && uv

/-- `zf_ctap_require_empty_payload`. -/
def requireEmptyPayload (requestLen : ℕ) : CtapStatus :=
  if requestLen = 1 then .success else .invalidLength

/-- The PIN check on a copy of the PIN state, which is published afterwards. -/
def checkPinAuth (crypto : Crypto) (request : Pin.AuthRequest) :
    Process App (CtapStatus × Bool) := do
  let pinState ← Process.atomically (return (← get).pinState)
  let (result, pinState) ← Process.atomically
    (onDevice (Pin.pinRequireAuth crypto pinState request))
  Process.atomically (modify fun app ↦ { app with pinState })
  return result

/-- `zf_ctap_require_pin_auth_with_state`. -/
def requirePinAuthWithState (crypto : Crypto) (request : Pin.AuthRequest) :
    Process App (CtapStatus × Bool) := do
  if !(← beginMaintenance) then
    return (.notAllowed, false)
  let result ← checkPinAuth crypto request
  endMaintenance
  return result

end Sections

section Prompts

/-- `zf_ctap_status_from_interaction_state`. -/
def statusFromInteractionState (state : ApprovalState) (timeoutIsDenied : Bool) : CtapStatus :=
  match state with
  | .timedOut => if timeoutIsDenied then .operationDenied else .userActionTimeout
  | .canceled => .keepaliveCancel
  | _ => .operationDenied

/-- The states in which an interaction has ended. -/
def ApprovalState.isTerminal : ApprovalState → Bool
  | .approved | .denied | .canceled | .timedOut => true
  | .idle | .pending => false

/-- `zerofido_ui_wait_for_interaction_result`: whether the user approved, if the interaction has
ended. -/
def waitForInteractionResult : Process App (Option Bool) := do
  if !(← Process.atomically nextWait) then
    return none
  let state ← Process.atomically (return (← get).approval.state)
  return if state.isTerminal then some (state == .approved) else none

/-- What comes of asking for a prompt. -/
inductive PromptOutcome where
  | refused
  | accepted
  | shown
  deriving DecidableEq, Repr

/-- The first section of `zerofido_ui_request_approval`. -/
def prepareApproval : Program App PromptOutcome := do
  let app ← get
  if !app.uiAvailable || app.maintenanceBusy then
    return .refused
  if app.capabilities.autoAcceptRequests || app.transportAutoAcceptTransaction then
    return .accepted
  set { app with approval := { state := .pending } }
  return .shown

/-- `zerofido_ui_request_approval`. -/
def uiRequestApproval : Process App (Option Bool) := do
  match ← Process.atomically prepareApproval with
  | .refused => return none
  | .accepted => return some true
  | .shown => waitForInteractionResult

/-- `zf_ctap_request_approval`. -/
def requestApproval : Process App CtapStatus := do
  match ← uiRequestApproval with
  | none => return .userActionTimeout
  | some true => return .success
  | some false =>
    let state ← Process.atomically (return (← get).approval.state)
    return statusFromInteractionState state false

/-- The first section of `zerofido_ui_request_assertion_selection`. -/
def prepareAssertionSelection (matchIndices : List ℕ) : Program App Bool := do
  let app ← get
  if !app.uiAvailable || app.maintenanceBusy then
    return false
  set { app with
    approval := { state := .pending, kind := .assertionSelection, credentialIndices := matchIndices }
    selectedCredential := none }
  return true

/-- `zerofido_ui_request_assertion_selection`: the selected record. -/
def uiRequestAssertionSelection (matchIndices : List ℕ) : Process App (Option ℕ) := do
  if matchIndices.isEmpty || maxCredentials < matchIndices.length then
    return none
  if !(← Process.atomically (prepareAssertionSelection matchIndices)) then
    return none
  if (← waitForInteractionResult) ≠ some true then
    return none
  Process.atomically (return (← get).approval.selectedRecordIndex)

/-- `zf_ctap_request_assertion_selection`. -/
def requestAssertionSelection (matchIndices : List ℕ) : Process App (Reply ℕ) := do
  match ← uiRequestAssertionSelection matchIndices with
  | some recordIndex => return .ok recordIndex
  | none =>
    let state ← Process.atomically (return (← get).approval.state)
    return .error (statusFromInteractionState state true)

/-- `zf_ctap_handle_empty_pin_auth_probe`. -/
def handleEmptyPinAuthProbe : Process App CtapStatus := do
  let status ← requestApproval
  if status ≠ .success then
    return status
  let pinIsSet ← Process.atomically (return (← get).pinState.pinSet)
  return if pinIsSet then .pinInvalid else .pinNotSet

end Prompts

section UserInterface

/-- What can happen between two sections of a command. -/
inductive UiEvent where
  /-- A dialog button, the back key, the prompt's deadline or a cancellation by the transport. -/
  | finishInteraction (state : ApprovalState)
  | selectAccount (menuIndex : ℕ)
  | beginDelete (selectedIndex : ℕ)
  | deleteFiles
  | endDelete
  | timePasses (milliseconds : ℕ)
  deriving DecidableEq, Repr

/-- `zerofido_ui_finish_interaction_locked`. -/
def finishInteractionLocked (app : App) (state : ApprovalState) : App :=
  if app.approval.state = .pending then
    { app with approval := { app.approval with state } }
  else app

/-- `zerofido_finish_assertion_selection_locked`. -/
def finishAssertionSelectionLocked (app : App) (menuIndex : ℕ) : App :=
  if app.approval.state = .pending ∧ app.approval.kind = .assertionSelection then
    match app.approval.credentialIndices[menuIndex]? with
    | none => app
    | some recordIndex =>
      match app.store[recordIndex]? with
      | none => app
      | some entry =>
        if entry.inUse then
          { app with
            approval := { app.approval with
              state := .approved
              selectedRecordIndex := some recordIndex }
            selectedCredential := some entry.credentialId }
        else app
  else app

/-- The first section of `zerofido_delete_selected_credential`. -/
def beginDelete (app : App) (selectedIndex : ℕ) : App :=
  match app.ui, app.store[selectedIndex]? with
  | .idle, some entry =>
    if app.approval.state = .pending ∨ app.maintenanceBusy then app
    else { app with maintenanceBusy := true, ui := .deleting entry.credentialId }
  | _, _ => app

/-- `zf_store_delete_record`, called without the mutex. -/
def deleteFiles (app : App) : App :=
  match app.ui with
  | .deleting credentialId =>
    match (deleteRecord app.store credentialId).run app.device with
    | .error _ device => { app with device, stopped := true }
    | .ok (result, store) device =>
      { app with
        device
        store
        ui := .deleted credentialId result
        deletedPositions := app.deletedPositions ++
          if result = .ok then (findIndexById app.store credentialId).toList else [] }
  | _ => app

/-- The last section of `zerofido_delete_selected_credential`. -/
def endDelete (app : App) : App :=
  match app.ui with
  | .deleted credentialId result =>
    let app := { app with maintenanceBusy := false, ui := .idle }
    if result = .ok then
      { app with assertionQueue := {}, record := app.record ++ [.deleted credentialId] }
    else app
  | _ => app

/-- One step of the user interface. -/
def uiStep (app : App) (event : UiEvent) : App :=
  if app.stopped then app
  else match event with
    | .finishInteraction state => finishInteractionLocked app state
    | .selectAccount menuIndex => finishAssertionSelectionLocked app menuIndex
    | .beginDelete selectedIndex => beginDelete app selectedIndex
    | .deleteFiles => deleteFiles app
    | .endDelete => endDelete app
    | .timePasses milliseconds =>
      { app with device := { app.device with clock := app.device.clock + milliseconds } }

end UserInterface

section Rules

variable {Value : Type} {app : App} {post : Value → App → Prop} {crash : App → Prop}

@[simp]
theorem ensures_onDevice (program : Program Pin.Device Value) :
    Ensures (onDevice program) post crash app ↔
      Ensures program (fun value device ↦ post value { app with device })
        (fun device ↦ crash { app with device }) app.device := by
  have hrun : (onDevice program).run app = match program.run app.device with
      | .ok value device => .ok value { app with device }
      | .error reason device => .error reason { app with device } := rfl
  unfold Ensures
  rw [hrun]
  cases program.run app.device <;> exact Iff.rfl

@[simp]
theorem ensures_announce {post : Unit → App → Prop} (event : CtapEvent) :
    Ensures (announce event) post crash app ↔
      post () { app with record := app.record ++ [event] } := Iff.rfl

end Rules

end ZeroFido.Ctap
