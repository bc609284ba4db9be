import ZeroFido.Ctap.Authenticator

/-!
# getAssertion and getNextAssertion

`ctap/commands/get_assertion.c` and `ctap/core/assertion_queue.c`. getAssertion takes one of three
paths: without user presence it answers the first match and queues the others, with several matches
and no allow list the user selects one, and otherwise the user approves and the first match is
answered. getNextAssertion answers the queued matches one after the other.
-/

set_option autoImplicit false
set_option relaxedAutoImplicit false

namespace ZeroFido.Ctap

open Foundations Storage Store

def assertionQueueTimeoutMs : ℕ := 30000

variable (crypto : Crypto)

section Response

/-- `zf_ctap_build_assertion_response_with_scratch`, with what it says for a record. -/
def assertionResponse (request : AssertionRequestData) (record : CredentialRecord)
    (userPresent uvVerified : Bool) (signCount : ℕ)
    (includeUserDetails includeCount : Bool) (matchCount : ℕ)
    (includeUserSelected userSelected : Bool) : AssertionResponse where
  credentialId := record.credentialId
  rpId := request.rpId
  clientDataHash := request.clientDataHash
  userPresent := userPresent
  userVerified := uvVerified
  signCount := signCount
  userId := record.userId
  userName := if includeUserDetails && record.userName ≠ [] then some record.userName else none
  userDisplayName :=
    if includeUserDetails && record.userDisplayName ≠ [] then some record.userDisplayName else none
  numberOfCredentials := if includeCount then some matchCount else none
  userSelected := includeUserSelected && userSelected

/-- `zf_prepare_assertion_response`. The statuses are those of the hmac-secret extension and of the
response encoder. -/
def prepareAssertionResponse (request : AssertionRequestData) (record : CredentialRecord)
    (userPresent uvVerified includeUserDetails includeCount : Bool) (matchCount : ℕ)
    (userSelected includeUserSelected : Bool) : Program App (Reply AssertionResponse) := do
  if record.signCount = uint32Max then
    return .error .other
  let status ← nextStatus
  if status ≠ .success then
    return .error status
  let status ← nextStatus
  if status ≠ .success then
    return .error status
  return .ok (assertionResponse request record userPresent uvVerified (record.signCount + 1)
    includeUserDetails includeCount matchCount includeUserSelected userSelected)

end Response

section Queue

/-- `zf_ctap_index_entry_matches_record` and `zf_ctap_queue_entry_matches_record`. -/
def indexEntryMatchesRecord (entry : CredentialIndexEntry) (record : CredentialRecord) : Bool :=
  entry.inUse && record.inUse && entry.credentialId == record.credentialId

/-- `zf_ctap_snapshot_index_entry_locked` and `zf_ctap_assertion_queue_snapshot_entry_locked`. -/
def snapshotIndexEntryLocked (app : App) (recordIndex : ℕ) : Option CredentialIndexEntry := do
  let entry ← app.store[recordIndex]?
  if entry.inUse then entry else none

/-- `zf_ctap_selected_record_still_current_locked`. -/
def selectedRecordStillCurrentLocked (app : App) (recordIndex : ℕ) (record : CredentialRecord) :
    Bool :=
  match app.store[recordIndex]? with
  | none => false
  | some entry => indexEntryMatchesRecord entry record

/-- `zf_ctap_assertion_queue_seed`. -/
def assertionQueueSeed (sessionId : ℕ) (request : GetAssertionRequest) (uvVerified : Bool)
    (matchIndices : List ℕ) : Program App Unit := do
  assertionQueueClear
  if matchIndices.length ≤ 1 then
    return
  let tick ← onDevice getTick
  let userPresent := !(request.hasUp && !request.up)
  modify fun app ↦ { app with
    assertionQueue :=
      { active := true
        sessionId
        uvVerified
        userPresent
        count := matchIndices.length
        index := 1
        expiresAt := (tick + assertionQueueTimeoutMs) % 2 ^ 32
        request := request.assertion
        recordIndices := matchIndices }
    expiry := { app.expiry with openedAt := app.device.clock } }
  let app ← get
  announce (.seeded
    { sessionId
      request := request.assertion
      uvVerified
      userPresent
      credentialIds := matchIndices.map fun index ↦ (entryAt app.store index).credentialId })

/-- `zf_ctap_assertion_queue_still_current_locked`. -/
def assertionQueueStillCurrentLocked (queue : AssertionQueue) (sessionId queueIndex recordIndex
    count : ℕ) (rpId : Bytes) : Bool :=
  queue.active && sessionId == queue.sessionId && queueIndex == queue.index &&
    count == queue.count && decide (queueIndex < queue.count) &&
    queue.recordIndices.getD queueIndex 0 == recordIndex && queue.request.rpId == rpId

/-- `zf_ctap_assertion_queue_clear_if_current`. -/
def assertionQueueClearIfCurrent (sessionId queueIndex recordIndex count : ℕ) (rpId : Bytes) :
    Process App Unit := Process.atomically do
  if assertionQueueStillCurrentLocked (← get).assertionQueue sessionId queueIndex recordIndex count
      rpId then
    assertionQueueClear

/-- `(int32_t)(tick - expires_at) >= 0`. -/
def isExpired (tick expiresAt : ℕ) : Bool :=
  decide ((tick + 2 ^ 32 - expiresAt) % 2 ^ 32 < 2 ^ 31)

/-- The section of `zf_ctap_assertion_queue_handle_next` that reads the queue: the queue as it is,
and the entry it points at. -/
def readAssertionQueue (sessionId : ℕ) :
    Program App (Reply (AssertionQueue × CredentialIndexEntry)) := do
  let app ← get
  let queue := app.assertionQueue
  let tick ← onDevice getTick
  -- The observer notes the calls that the expiry decides: others fail for another reason.
  if queue.active && sessionId == queue.sessionId then
    modify fun app ↦ { app with
      expiry := { app.expiry with
        checks := app.expiry.checks ++ [(app.expiry.openedAt, app.device.clock)] } }
  if !queue.active || isExpired tick queue.expiresAt || queue.count ≤ queue.index then
    assertionQueueClear
    return .error .notAllowed
  if sessionId ≠ queue.sessionId then
    return .error .invalidChannel
  match snapshotIndexEntryLocked app (queue.recordIndices.getD queue.index 0) with
  | none =>
    assertionQueueClear
    return .error .notAllowed
  | some entry => return .ok (queue, entry)

/-- The last section of `zf_ctap_assertion_queue_handle_next`. -/
def publishNextAssertion (sessionId queueIndex recordIndex matchCount : ℕ) (rpId : Bytes)
    (record : CredentialRecord) (counterHighWater : ℕ) (response : AssertionResponse) :
    Program App (Reply AssertionResponse) := do
  let app ← get
  let queueCurrent := assertionQueueStillCurrentLocked app.assertionQueue sessionId queueIndex
    recordIndex matchCount rpId
  if !(queueCurrent && selectedRecordStillCurrentLocked app recordIndex record) then
    if queueCurrent then
      assertionQueueClear
    return .error .notAllowed
  match publishCounterAdvance app.store record counterHighWater with
  | none =>
    assertionQueueClear
    return .error .other
  | some store =>
    let tick ← onDevice getTick
    let queue := { app.assertionQueue with
      index := queueIndex + 1
      expiresAt := (tick + assertionQueueTimeoutMs) % 2 ^ 32 }
    modify fun app ↦ { app with
      store
      assertionQueue := if queue.count ≤ queue.index then {} else queue
      expiry := { app.expiry with
        openedAt := app.device.clock
        answered := app.expiry.answered ++ [app.expiry.checks.getLastD (0, 0)] } }
    announce (.continued sessionId response)
    return .ok response

/-- The part of `zf_ctap_assertion_queue_handle_next` under the gate. -/
def answerNextAssertion (sessionId : ℕ) : Process App (Reply AssertionResponse) := do
  match ← Process.atomically (readAssertionQueue sessionId) with
  | .error status => return .error status
  | .ok (queue, entry) =>
    let queueIndex := queue.index
    let recordIndex := queue.recordIndices.getD queueIndex 0
    let clearIfCurrent := assertionQueueClearIfCurrent sessionId queueIndex recordIndex queue.count
      queue.request.rpId
    match ← Process.atomically (onDevice (loadRecord crypto entry)) with
    | none =>
      clearIfCurrent
      return .error .notAllowed
    | some record =>
      if record.rpId ≠ queue.request.rpId || !indexEntryMatchesRecord entry record then
        clearIfCurrent
        return .error .notAllowed
      if record.signCount = uint32Max then
        clearIfCurrent
        return .error .other
      match ← Process.atomically (prepareAssertionResponse queue.request record queue.userPresent
          queue.uvVerified queue.uvVerified false queue.count false false) with
      | .error status => return .error status
      | .ok response =>
        let status ← pollCborControl
        if status ≠ .success then
          clearIfCurrent
          return .error status
        let record := { record with signCount := record.signCount + 1 }
        match ← Process.atomically (onDevice (prepareCounterAdvance crypto entry record)) with
        | none =>
          clearIfCurrent
          return .error .other
        | some counterHighWater =>
          Process.atomically (publishNextAssertion sessionId queueIndex recordIndex queue.count
            queue.request.rpId record counterHighWater response)

/-- `zf_ctap_assertion_queue_handle_next`. -/
def assertionQueueHandleNext (sessionId : ℕ) : Process App (Reply AssertionResponse) := do
  let status ← pollCborControl
  if status ≠ .success then
    Process.atomically assertionQueueClear
    return .error status
  if !(← beginMaintenance) then
    return .error .notAllowed
  let reply ← answerNextAssertion crypto sessionId
  endMaintenance
  return reply

end Queue

section GetAssertion

/-- `zf_ctap_resolve_assertion_matches_snapshot`. -/
def resolveAssertionMatchesSnapshot (request : GetAssertionRequest) (uvVerified : Bool) :
    Process App (List ℕ) := Process.atomically do
  modify fun app ↦ { app with deletedPositions := [] }
  return resolveAssertionMatches crypto (← get).store request uvVerified

/-- `zf_ctap_load_assertion_record`. -/
def loadAssertionRecord (recordIndex : ℕ) (rpId : Bytes) :
    Process App (Option (CredentialRecord × CredentialIndexEntry)) := do
  match ← Process.atomically (return snapshotIndexEntryLocked (← get) recordIndex) with
  | none => return none
  | some entry =>
    match ← Process.atomically (onDevice (loadRecord crypto entry)) with
    | none => return none
    | some record =>
      if record.rpId ≠ rpId || !indexEntryMatchesRecord entry record then
        return none
      return some (record, entry)

/-- What `zf_ctap_finish_assertion` was called for. -/
structure AssertionCall where
  sessionId : ℕ
  request : GetAssertionRequest
  uvVerified : Bool
  resolveMatch : Bool
  userPresent : Bool
  includeUserDetails : Bool
  includeUserSelected : Bool
  pollBeforePublish : Bool
  deriving DecidableEq, Repr

/-- What the observer is told of an answer. -/
def AssertionCall.observed (call : AssertionCall) (app : App) (recordIndex : ℕ)
    (record : CredentialRecord) (response : AssertionResponse) : Assertion where
  sessionId := call.sessionId
  request := call.request
  uvVerified := call.uvVerified
  store := app.store
  recordIndex := recordIndex
  record := record
  response := response
  prompted := !call.resolveMatch
  selected := if call.resolveMatch then none else app.selectedCredential
  deleted := app.deletedPositions

/-- The section of `zf_ctap_publish_assertion_counter` under `ui_mutex`. -/
def publishAssertion (call : AssertionCall) (recordIndex : ℕ) (record : CredentialRecord)
    (counterHighWater : ℕ) (matchIndices : List ℕ) (seedAssertionQueue : Bool)
    (response : AssertionResponse) : Program App (Reply AssertionResponse) := do
  let app ← get
  if !selectedRecordStillCurrentLocked app recordIndex record then
    return .error .noCredentials
  match publishCounterAdvance app.store record counterHighWater with
  | none => return .error .other
  | some store =>
    announce (.asserted (call.observed app recordIndex record response))
    modify fun app ↦ { app with store }
    assertionQueueClear
    if seedAssertionQueue then
      assertionQueueSeed call.sessionId call.request call.uvVerified matchIndices
    return .ok response

/-- `zf_ctap_publish_assertion_counter`. -/
def publishAssertionCounter (call : AssertionCall) (recordIndex : ℕ) (entry : CredentialIndexEntry)
    (record : CredentialRecord) (matchIndices : List ℕ) (seedAssertionQueue : Bool)
    (response : AssertionResponse) : Process App (Reply AssertionResponse) := do
  let record := { record with signCount := record.signCount + 1 }
  match ← Process.atomically (onDevice (prepareCounterAdvance crypto entry record)) with
  | none => return .error .other
  | some counterHighWater =>
    Process.atomically (publishAssertion call recordIndex record counterHighWater matchIndices
      seedAssertionQueue response)

/-- The part of `zf_ctap_finish_assertion` that knows the record to use. -/
def answerAssertion (call : AssertionCall) (recordIndex : ℕ) (matchIndices : List ℕ)
    (matchCount : ℕ) : Process App (Reply AssertionResponse) := do
  let request := call.request
  let includeCount := request.hasUp && !request.up && !requestUsesAllowList request &&
    decide (1 < matchCount)
  match ← loadAssertionRecord crypto recordIndex request.assertion.rpId with
  | none => return .error .noCredentials
  | some (record, entry) =>
    match ← Process.atomically (prepareAssertionResponse request.assertion record call.userPresent
        call.uvVerified call.includeUserDetails includeCount matchCount call.includeUserSelected
        call.includeUserSelected) with
    | .error status => return .error status
    | .ok response =>
      if call.pollBeforePublish then
        let status ← pollCborControl
        if status ≠ .success then
          return .error status
        publishAssertionCounter crypto call recordIndex entry record matchIndices includeCount
          response
      else
        publishAssertionCounter crypto call recordIndex entry record matchIndices includeCount
          response

/-- `zf_ctap_finish_assertion` between taking the gate and giving it back. -/
def finishLocked (call : AssertionCall) (recordIndex : ℕ) :
    Process App (Reply AssertionResponse) := do
  if call.resolveMatch then
    match ← resolveAssertionMatchesSnapshot crypto call.request call.uvVerified with
    | [] => return .error .noCredentials
    | first :: others =>
      answerAssertion crypto call first (first :: others) (others.length + 1)
  else
    answerAssertion crypto call recordIndex [] 1

/-- `zf_ctap_finish_assertion`, with the cleanup of its caller. -/
def finishAssertion (call : AssertionCall) (recordIndex : ℕ) :
    Process App (Reply AssertionResponse) := do
  if !(← beginMaintenance) then
    return .error .notAllowed
  let reply ← finishLocked crypto call recordIndex
  endMaintenance
  return reply

/-- The checks of `zf_ctap_handle_get_assertion` before it clears the queue. -/
def getAssertionRejection (capabilities : Capabilities) (request : GetAssertionRequest) :
    CtapStatus :=
  let status := validatePinAuthProtocol request.hasPinAuth request.hasPinProtocol
    request.pinProtocol capabilities.pinUvAuthProtocol2Enabled
  if status ≠ .success then status
  else if request.assertion.hasHmacSecret ∧
      ((request.assertion.hmacSecretPinProtocol ≠ 1 ∧
        request.assertion.hmacSecretPinProtocol ≠ 2) ∨
        request.assertion.hmacSecretPinProtocol = 2 ∧ !capabilities.pinUvAuthProtocol2Enabled) then
    .invalidParameter
  else if request.assertion.hasHmacSecret ∧ request.hasUp ∧ !request.up then .unsupportedOption
  else .success

/-- The paths of `zf_ctap_handle_get_assertion`, once the PIN check is done. -/
def selectAssertion (capabilities : Capabilities) (sessionId : ℕ) (request : GetAssertionRequest)
    (uvVerified : Bool) : Process App (Reply AssertionResponse) := do
  let usesAllowList := requestUsesAllowList request
  if request.hasUp && !request.up then
    finishAssertion crypto
      { sessionId, request, uvVerified, resolveMatch := true, userPresent := false,
        includeUserDetails := uvVerified && !usesAllowList, includeUserSelected := false,
        pollBeforePublish := false } 0
  else
    let matchIndices ← resolveAssertionMatchesSnapshot crypto request uvVerified
    if !usesAllowList && decide (1 < matchIndices.length) then
      match ← requestAssertionSelection matchIndices with
      | .error status => return .error status
      | .ok selectedRecordIndex =>
        let status ← pollCborControl
        if status ≠ .success then
          return .error status
        finishAssertion crypto
          { sessionId, request, uvVerified, resolveMatch := false, userPresent := true,
            includeUserDetails := uvVerified, includeUserSelected := capabilities.advertiseFido21,
            pollBeforePublish := true } selectedRecordIndex
    else
      let status ← requestApproval
      if status ≠ .success then
        return .error status
      let status ← pollCborControl
      if status ≠ .success then
        return .error status
      finishAssertion crypto
        { sessionId, request, uvVerified, resolveMatch := true, userPresent := true,
          includeUserDetails := uvVerified && !usesAllowList, includeUserSelected := false,
          pollBeforePublish := true } 0

/-- `zf_ctap_handle_get_assertion` after it has cleared the queue. -/
def authorizeAssertion (capabilities : Capabilities) (sessionId : ℕ)
    (request : GetAssertionRequest) : Process App (Reply AssertionResponse) := do
  if request.hasPinAuth && request.pinAuth.isEmpty then
    return .error (← handleEmptyPinAuthProbe)
  if effectiveUvRequested request.hasPinAuth request.hasUv request.uv then
    return .error .unsupportedOption
  let (status, uvVerified) ← requirePinAuthWithState crypto
    { uvRequested := request.hasUv && request.uv
      hasPinAuth := request.hasPinAuth
      clientDataHash := request.assertion.clientDataHash
      pinAuth := request.pinAuth
      hasPinProtocol := request.hasPinProtocol
      pinProtocol := request.pinProtocol
      rpId := some request.assertion.rpId
      requiredPermissions := Pin.permissionGa }
  if status ≠ .success then
    return .error status
  let status ← pollCborControl
  if status ≠ .success then
    return .error status
  selectAssertion crypto capabilities sessionId request uvVerified

/-- The section of `zf_ctap_handle_get_assertion` that clears the queue. -/
def acceptAssertion : Program App Unit := do
  assertionQueueClear
  announce .accepted

/-- `zf_ctap_handle_get_assertion`, given what the parser made of the request. -/
def handleGetAssertion (capabilities : Capabilities) (sessionId : ℕ)
    (parsed : Reply GetAssertionRequest) : Process App (Reply AssertionResponse) := do
  match parsed with
  | .error status => return .error status
  | .ok request =>
    let status := getAssertionRejection capabilities request
    if status ≠ .success then
      return .error status
    Process.atomically acceptAssertion
    authorizeAssertion crypto capabilities sessionId request

end GetAssertion

end ZeroFido.Ctap
