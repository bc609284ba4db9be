import ZeroFido.Ctap.Authenticator
import ZeroFido.Store.Bootstrap
import ZeroFido.Pin.Lifecycle

/-!
# makeCredential and reset

`ctap/commands/make_credential.c` and `ctap/commands/reset.c`, the two commands that change which
credentials there are. makeCredential writes the new record, then removes the records it replaces
one after the other, and publishes both changes to the index at the end. Reset removes the files of
the U2F key, the PIN and every credential and then clears the index.
-/

set_option autoImplicit false
set_option relaxedAutoImplicit false

namespace ZeroFido.Ctap

open Foundations Storage Store

variable (crypto : Crypto)

section MakeCredential

/-- `ZfMakeCredentialRequest`, without the fields that only the parser and the response encoder
read. -/
structure MakeCredentialRequest where
  clientDataHash : Bytes
  rpId : Bytes
  userName : Bytes := []
  userDisplayName : Bytes := []
  userId : Bytes
  excludeList : List Bytes := []
  uv : Bool := false
  rk : Bool := false
  hasUv : Bool := false
  hasRk : Bool := false
  hasCredProtect : Bool := false
  credProtect : ℕ := 0
  pinAuth : Bytes := []
  pinProtocol : ℕ := 0
  hasPinAuth : Bool := false
  hasPinProtocol : Bool := false
  deriving DecidableEq, Repr

/-- `zf_crypto_generate_credential_keypair`. -/
def generateCredentialKeypair {Event : Type} (record : CredentialRecord) :
    Program (World Event) (Option CredentialRecord) := do
  match ← crypto.generateKeyAgreementKey with
  | none => return none
  | some key =>
    let iv ← randomFill wrapIvLen
    match ← crypto.enclaveSeal iv key.privateKey with
    | none => return none
    | some privateWrapped =>
      return some { record with
        publicX := key.publicX, publicY := key.publicY, privateIv := iv, privateWrapped }

/-- The section of `zf_ctap_handle_make_credential` that publishes a removal that failed part of the
way. -/
def publishPartialRemoval (deletedIndices : List ℕ) (removedCount : ℕ) : Program App Unit := do
  modify fun app ↦ { app with
    store := publishDeletedIndices app.store (deletedIndices.take removedCount) }
  assertionQueueClear

/-- The section of `zf_ctap_handle_make_credential` that publishes the new credential. -/
def publishCredential (deletedIndices : List ℕ) (record : CredentialRecord) :
    Program App Bool := do
  modify fun app ↦ { app with store := publishDeletedIndices app.store deletedIndices }
  match publishAddedRecord crypto (← get).store record with
  | none => return false
  | some store =>
    modify fun app ↦ { app with store }
    assertionQueueClear
    announce (.registered record.credentialId)
    return true

/-- The end of `zf_ctap_handle_make_credential`, once the old records are gone. -/
def addCredential (deletedIndices : List ℕ) (record : CredentialRecord) :
    Process App CtapStatus := do
  if !(← Process.atomically (publishCredential crypto deletedIndices record)) then
    let _ ← Process.atomically (onDevice (removeRecordFile record))
    return .keyStoreFull
  return .success

/-- The records that the new one replaces; a credential that is not resident replaces none. -/
def findReplacedIndices (request : MakeCredentialRequest) (residentKey : Bool) :
    Process App (Option (List ℕ)) :=
  if residentKey then
    Process.atomically do
      let store := (← get).store
      onDevice (findResidentCredentialIndicesForUser crypto store request.rpId request.userId
        maxCredentials)
  else pure (some [])

/-- The part of `zf_ctap_handle_make_credential` that removes the replaced records, the new one
being written. -/
def replaceCredentials (deletedIndices : List ℕ) (record : CredentialRecord) :
    Process App CtapStatus := do
  let (removed, removedCount) ← Process.atomically (do
    let store := (← get).store
    onDevice (removeCredentialFilesByIndices store deletedIndices 0))
  if !removed then
    if 0 < removedCount then
      Process.atomically (publishPartialRemoval deletedIndices removedCount)
    let _ ← Process.atomically (onDevice (removeRecordFile record))
    return .other
  addCredential crypto deletedIndices record

/-- The part of `zf_ctap_handle_make_credential` that knows which records are replaced. -/
def storeCredential (record : CredentialRecord) (residentKey : Bool) (deletedIndices : List ℕ) :
    Process App CtapStatus := do
  let count ← Process.atomically (return (← get).store.length)
  let effectiveCount :=
    if deletedIndices.length ≤ count then count - deletedIndices.length else count
  if maxCredentials ≤ effectiveCount then
    return .keyStoreFull
  if !(← Process.atomically (onDevice (recordFormatWriteRecord crypto record))) then
    return .keyStoreFull
  if residentKey && decide (0 < deletedIndices.length) then
    replaceCredentials crypto deletedIndices record
  else
    addCredential crypto deletedIndices record

/-- The part of `zf_ctap_handle_make_credential` under the gate. -/
def commitCredential (request : MakeCredentialRequest) (record : CredentialRecord)
    (residentKey : Bool) : Process App CtapStatus := do
  match ← findReplacedIndices crypto request residentKey with
  | none => return .other
  | some deletedIndices => storeCredential crypto record residentKey deletedIndices

/-- `zf_ctap_handle_make_credential` from the end of the user's approval on. -/
def createCredential (request : MakeCredentialRequest) (record : CredentialRecord)
    (residentKey : Bool) : Process App CtapStatus := do
  match ← Process.atomically (onDevice (generateCredentialKeypair crypto record)) with
  | none => return .keyStoreFull
  | some record =>
    let status ← Process.atomically nextStatus
    if status ≠ .success then
      return status
    let status ← pollCborControl
    if status ≠ .success then
      return status
    if !(← beginMaintenance) then
      return .notAllowed
    let status ← commitCredential crypto request record residentKey
    endMaintenance
    return status

/-- The exclude check of `zf_ctap_handle_make_credential`, under the gate; nothing when the gate is
taken. -/
def excludeCheck (request : MakeCredentialRequest) (uvVerified : Bool) :
    Process App (Option Bool) := do
  if !(← beginMaintenance) then
    return none
  let excluded ← Process.atomically (do
    let store := (← get).store
    some <$> onDevice (excludeListHasVisibleMatch crypto store request.rpId request.excludeList
      uvVerified))
  endMaintenance
  return excluded

/-- `zf_ctap_handle_make_credential` from the end of the PIN check on. -/
def registerCredential (createdAt : ℕ) (request : MakeCredentialRequest) (residentKey uvVerified :
    Bool) : Process App CtapStatus := do
  match ← excludeCheck crypto request uvVerified with
  | none => return .notAllowed
  | some true =>
    let status ← requestApproval
    return if status = .keepaliveCancel then status else .credentialExcluded
  | some false =>
    match ← Process.atomically (onDevice (prepareCredential request.rpId request.userId
        request.userName request.userDisplayName createdAt residentKey)) with
    | none => return .invalidParameter
    | some record =>
      let record :=
        if request.hasCredProtect then { record with credProtect := request.credProtect } else record
      let status ← requestApproval
      if status ≠ .success then
        return status
      let status ← pollCborControl
      if status ≠ .success then
        return status
      createCredential crypto request record residentKey

/-- `zf_ctap_handle_make_credential`, given what the parser made of the request and the time of the
real-time clock. -/
def handleMakeCredential (capabilities : Capabilities) (createdAt : ℕ)
    (parsed : Reply MakeCredentialRequest) : Process App CtapStatus := do
  match parsed with
  | .error status => return status
  | .ok request =>
    let status := validatePinAuthProtocol request.hasPinAuth request.hasPinProtocol
      request.pinProtocol capabilities.pinUvAuthProtocol2Enabled
    if status ≠ .success then
      return status
    if request.hasPinAuth && request.pinAuth.isEmpty then
      return ← handleEmptyPinAuthProbe
    if effectiveUvRequested request.hasPinAuth request.hasUv request.uv then
      return .unsupportedOption
    let residentKey := request.hasRk && request.rk
    let pinIsSet ← Process.atomically (return (← get).pinState.pinSet)
    if !request.hasPinAuth && pinIsSet && residentKey then
      return .pinRequired
    let (status, uvVerified) ← requirePinAuthWithState crypto
      { uvRequested := request.hasUv && request.uv
        hasPinAuth := request.hasPinAuth
        clientDataHash := request.clientDataHash
        pinAuth := request.pinAuth
        hasPinProtocol := request.hasPinProtocol
        pinProtocol := request.pinProtocol
        rpId := some request.rpId
        requiredPermissions := Pin.permissionMc }
    if status ≠ .success then
      return status
    let status ← pollCborControl
    if status ≠ .success then
      return status
    registerCredential crypto createdAt request residentKey uvVerified

end MakeCredential

section Reset

def u2fKeyFile : Path := childPath "u2f/key.u2f".toList
def u2fKeyFileTmp : Path := childPath "u2f/key.u2f.tmp".toList
def u2fCntFile : Path := childPath "u2f/cnt.u2f".toList
def u2fCntFileTmp : Path := childPath "u2f/cnt.u2f.tmp".toList

/-- `u2f_data_wipe`. -/
def u2fDataWipe {Event : Type} : Program (World Event) Bool :=
  removeAtomicFile u2fKeyFile u2fKeyFileTmp <&&> removeAtomicFile u2fCntFile u2fCntFileTmp

/-- The files that a reset removes, in its order. -/
def wipeFiles {Event : Type} (listing : Listing) : Program (World Event) Bool :=
  u2fDataWipe <&&> bootstrapWipeAppData listing

/-- The part of `zf_ctap_handle_reset` under the gate. -/
def resetLocked (listing : Listing) : Process App CtapStatus := do
  Process.atomically do
    assertionQueueClear
    announce .reset
  let wiped ← Process.atomically (onDevice (wipeFiles listing))
  if !wiped then
    return .other
  let (pinInit, nextPinState) ← Process.atomically (onDevice (Pin.pinInitWithResult crypto))
  Process.atomically (modify fun app ↦ { app with
    store := []
    pinState := if pinInit = .ok then nextPinState else {} })
  return if pinInit = .ok then .success else .other

/-- `zf_ctap_handle_reset`. The data directory is listed once, while its files are removed. -/
def handleReset (requestLen : ℕ) (listing : Listing) : Process App CtapStatus := do
  let status := requireEmptyPayload requestLen
  if status ≠ .success then
    return status
  let status ← requestApproval
  if status ≠ .success then
    return status
  if !(← beginMaintenance) then
    return .notAllowed
  let status ← resetLocked crypto listing
  endMaintenance
  return status

end Reset

end ZeroFido.Ctap
