import ZeroFido.Ctap.ParseShared
import ZeroFido.Pin.Lifecycle
import ZeroFido.Pin.Protocol

/-!
# The clientPIN command

`pin/client_pin/parse.c`, `response.c` and `operations.c`, and the command itself from
`pin/command.c`. The command works on a snapshot of the state and publishes it when it is done; the
only place where it lets go of the state in between is the wait for local consent, whose effect on
the published state is the parameter `interlude`.
-/

set_option autoImplicit false
set_option relaxedAutoImplicit false

namespace ZeroFido.Pin

open Foundations Storage Cbor Ctap

section Parse

def subcmdGetRetries : ℕ := 0x01
def subcmdGetKeyAgreement : ℕ := 0x02
def subcmdSetPin : ℕ := 0x03
def subcmdChangePin : ℕ := 0x04
def subcmdGetPinToken : ℕ := 0x05
def subcmdGetPinUvAuthTokenUsingPinWithPermissions : ℕ := 0x09

/-- `ZfClientPinRequest`. -/
structure ClientPinRequest where
  pinProtocol : ℕ := 0
  subcommand : ℕ := 0
  permissions : UInt64 := 0
  hasPinProtocol : Bool := false
  hasSubcommand : Bool := false
  hasKeyAgreement : Bool := false
  hasPinAuth : Bool := false
  hasNewPinEnc : Bool := false
  hasPinHashEnc : Bool := false
  hasPermissions : Bool := false
  hasRpId : Bool := false
  pinAuth : Bytes := []
  platformX : Bytes := []
  platformY : Bytes := []
  pinHashEnc : Bytes := []
  newPinEnc : Bytes := []
  rpId : Bytes := []
  deriving DecidableEq, Repr

/-- `zf_client_pin_subcommand_requires_pin_protocol`. -/
def subcommandRequiresPinProtocol (subcommand : ℕ) : Bool :=
  subcommand == subcmdGetKeyAgreement || subcommand == subcmdSetPin ||
    subcommand == subcmdChangePin || subcommand == subcmdGetPinToken ||
    subcommand == subcmdGetPinUvAuthTokenUsingPinWithPermissions

/-- The value of one key of the request map. Unknown keys are skipped. -/
def parseValue (request : ClientPinRequest) (key : ℕ) (cursor : Bytes) :
    Option (ClientPinRequest × Bytes) :=
  match key with
  | 1 => (readUint cursor).map fun (pinProtocol, rest) ↦
    ({ request with pinProtocol, hasPinProtocol := true }, rest)
  | 2 => (readUint cursor).map fun (subcommand, rest) ↦
    ({ request with subcommand, hasSubcommand := true }, rest)
  | 3 => (parseCoseP256KeyAgreement cursor).map fun ((platformX, platformY), rest) ↦
    ({ request with platformX, platformY, hasKeyAgreement := true }, rest)
  | 4 => (cborReadBytesCopy cursor pinAuthMaxLen).map fun (pinAuth, rest) ↦
    ({ request with pinAuth, hasPinAuth := true }, rest)
  | 5 => (cborReadBytesCopy cursor pinEncryptedNewPinMaxLen).map fun (newPinEnc, rest) ↦
    ({ request with newPinEnc, hasNewPinEnc := true }, rest)
  | 6 => (cborReadBytesCopy cursor pinEncryptedHashMaxLen).map fun (pinHashEnc, rest) ↦
    ({ request with pinHashEnc, hasPinHashEnc := true }, rest)
  | 9 => (readUint cursor).map fun (permissions, rest) ↦
    ({ request with permissions := UInt64.ofNat permissions, hasPermissions := true }, rest)
  | 10 => (cborReadTextCopy cursor maxRpIdLen).map fun (rpId, rest) ↦
    ({ request with rpId, hasRpId := true }, rest)
  | _ => (skip cursor).map fun rest ↦ (request, rest)

/-- The loop over the pairs of the request map. -/
def parsePairs : ℕ → List ℕ → ClientPinRequest → Bytes → Option (ClientPinRequest × Bytes)
  | 0, _, request, cursor => some (request, cursor)
  | pairs + 1, seenKeys, request, cursor => do
    let (key, cursor) ← readUint cursor
    let seenKeys ← markSeenKey seenKeys key
    let (request, cursor) ← parseValue request key cursor
    parsePairs pairs seenKeys request cursor

/-- `zf_client_pin_parse_request`. -/
def clientPinParseRequest (data : Bytes) : Except CtapStatus ClientPinRequest :=
  match (readMapStart data).bind fun (pairs, cursor) ↦ parsePairs pairs [] {} cursor with
  | none => .error .invalidCbor
  | some (request, cursor) =>
    if !request.hasSubcommand then
      .error .missingParameter
    else if request.hasPinProtocol && request.pinProtocol != pinProtocolV1 &&
        request.pinProtocol != pinProtocolV2 then
      .error .invalidParameter
    else if subcommandRequiresPinProtocol request.subcommand && !request.hasPinProtocol then
      .error .missingParameter
    else if cursor ≠ [] then
      .error .invalidCbor
    else
      .ok request

end Parse

section Response

/-- `zf_client_pin_response_single_uint`. -/
def responseSingleUint (key value outCapacity : ℕ) : Option Bytes := do
  let enc ← encoderInit outCapacity
  let enc ← enc.map 1
  let enc ← enc.uint key
  let enc ← enc.uint value
  some enc.written

/-- `zf_client_pin_response_single_bytes`. -/
def responseSingleBytes (key : ℕ) (value : Bytes) (outCapacity : ℕ) : Option Bytes := do
  if value.length = 0 then none else
  let enc ← encoderInit outCapacity
  let enc ← enc.map 1
  let enc ← enc.uint key
  let enc ← enc.bytes value
  some enc.written

/-- `zf_client_pin_response_retries`. -/
def responseRetries (state : ClientPinState) (outCapacity : ℕ) : Option Bytes :=
  responseSingleUint 3 state.pinRetries outCapacity

/-- `zf_client_pin_response_key_agreement`. -/
def responseKeyAgreement (state : ClientPinState) (outCapacity : ℕ) : Option Bytes := do
  let enc ← encoderInit outCapacity
  let enc ← enc.map 1
  let enc ← enc.uint 1
  let enc ← enc.p256CoseKey (-25) state.keyAgreement.publicX state.keyAgreement.publicY
  some enc.written

/-- `zf_client_pin_response_token`. -/
def responseToken (token : Bytes) (outCapacity : ℕ) : Option Bytes :=
  responseSingleBytes 2 token outCapacity

end Response

section Operations

variable (crypto : Crypto)

/-- What an operation of the command returns: the status, the response and the new state. -/
structure CommandResult where
  status : CtapStatus
  response : Bytes := []
  state : ClientPinState
  deriving DecidableEq, Repr

/-- `ZfApprovalState`. -/
inductive ApprovalState where
  | idle
  | pending
  | approved
  | denied
  | timedOut
  | canceled
  deriving DecidableEq, Repr

/-- The end of `zerofido_ui_request_approval`: no approval could be asked for, or the answer and the
interaction state that goes with it. -/
inductive ConsentOutcome where
  | unavailable
  | answered (approved : Bool) (interaction : ApprovalState)
  deriving DecidableEq, Repr

/-- `zf_client_pin_status_from_interaction_state`. -/
def statusFromInteractionState : ApprovalState → CtapStatus
  | .timedOut => .userActionTimeout
  | .canceled => .keepaliveCancel
  | _ => .operationDenied

def consentStatus : ConsentOutcome → CtapStatus
  | .unavailable => .userActionTimeout
  | .answered true _ => .success
  | .answered false interaction => statusFromInteractionState interaction

/-- `zf_pin_protocol_encrypted_pin_hash_len`. -/
def encryptedPinHashLen (pinProtocol : ℕ) : ℕ :=
  if pinProtocol = pinProtocolV2 then pinEncryptedHashMaxLen else pinHashLen

/-- `zf_client_pin_new_pin_ciphertext_len_is_valid`: the length of the plaintext. -/
def newPinCiphertextLen (pinProtocol ciphertextLen : ℕ) : Option ℕ :=
  let length := if pinProtocol = pinProtocolV2 then ciphertextLen - pinProtocol2IvLen
    else ciphertextLen
  if pinProtocol = pinProtocolV2 ∧ ciphertextLen ≤ pinProtocol2IvLen then none
  else if pinNewPinEncLengthIsValid length then some length
  else none

/-- `zf_client_pin_require_existing_pin`. -/
def requireExistingPin (state : ClientPinState) : CtapStatus :=
  if !state.pinSet then .pinNotSet
  else if state.pinAuthBlocked then .pinAuthBlocked
  else if state.pinRetries = 0 then .pinBlocked
  else .success

/-- `zf_client_pin_decrypt_new_pin`. -/
def decryptNewPin (request : ClientPinRequest) (keys : ProtocolKeys) (newPinPlainLen : ℕ) :
    Except CtapStatus Bytes :=
  match pinProtocolDecrypt crypto request.pinProtocol keys request.newPinEnc with
  | none => .error .pinAuthInvalid
  | some plain =>
    if plain.length ≠ newPinPlainLen then .error .pinAuthInvalid
    else
      match pinValidatePlaintextBlock plain with
      | none => .error .pinPolicyViolation
      | some pin => .ok pin

/-- `zf_client_pin_handle_set_pin`. -/
def clientPinHandleSetPin (state : ClientPinState) (request : ClientPinRequest) :
    Program Device CommandResult := do
  if state.pinSet then
    return { status := .pinAuthInvalid, state }
  if !request.hasKeyAgreement || !request.hasNewPinEnc || !request.hasPinAuth then
    return { status := .missingParameter, state }
  if !pinProtocolSupported request.pinProtocol then
    return { status := .invalidParameter, state }
  match newPinCiphertextLen request.pinProtocol request.newPinEnc.length with
  | none => return { status := .invalidParameter, state }
  | some newPinPlainLen =>
    match pinProtocolDeriveKeys crypto state request.pinProtocol request.platformX
        request.platformY with
    | none => return { status := .invalidParameter, state }
    | some keys =>
      if !pinProtocolHmacMatches crypto request.pinProtocol keys.hmacKey request.newPinEnc []
          request.pinAuth then
        return { status := .pinAuthInvalid, state }
      match decryptNewPin crypto request keys newPinPlainLen with
      | .error status => return { status, state }
      | .ok pin =>
        let (status, state) ← pinApplyPlaintext crypto state pin true
        return { status, state }

/-- `zf_client_pin_handle_change_pin`. -/
def clientPinHandleChangePin (state : ClientPinState) (request : ClientPinRequest) :
    Program Device CommandResult := do
  if requireExistingPin state ≠ .success then
    return { status := requireExistingPin state, state }
  if !request.hasKeyAgreement || !request.hasNewPinEnc || !request.hasPinHashEnc ||
      !request.hasPinAuth then
    return { status := .missingParameter, state }
  if !pinProtocolSupported request.pinProtocol then
    return { status := .invalidParameter, state }
  match newPinCiphertextLen request.pinProtocol request.newPinEnc.length with
  | none => return { status := .invalidParameter, state }
  | some newPinPlainLen =>
    if request.pinHashEnc.length ≠ encryptedPinHashLen request.pinProtocol then
      return { status := .invalidParameter, state }
    match pinProtocolDeriveKeys crypto state request.pinProtocol request.platformX
        request.platformY with
    | none => return { status := .invalidParameter, state }
    | some keys =>
      if !pinProtocolHmacMatches crypto request.pinProtocol keys.hmacKey request.newPinEnc
          request.pinHashEnc request.pinAuth then
        return { status := .pinAuthInvalid, state }
      let decrypted := (pinProtocolDecrypt crypto request.pinProtocol keys
        request.pinHashEnc).filter fun plain ↦ plain.length == pinHashLen
      match decrypted with
      | none =>
        let (status, state) ← pinAuthFailure crypto state
        return { status, state }
      | some currentPinHash =>
        let (status, state) ← pinVerifyHash crypto state currentPinHash
        if status ≠ .success then
          return { status, state }
        match decryptNewPin crypto request keys newPinPlainLen with
        | .error status => return { status, state }
        | .ok pin =>
          let (status, state) ← pinApplyPlaintext crypto state pin false
          return { status, state }

/-- The parameter checks of `zf_client_pin_handle_get_pin_token` before any key is derived. -/
def getPinTokenChecks (state : ClientPinState) (request : ClientPinRequest)
    (permissionsMode : Bool) : CtapStatus :=
  let supportedPermissions := permissionMc ||| permissionGa
  let recognizedPermissions := supportedPermissions ||| permissionCm ||| permissionBe |||
    permissionLbw ||| permissionAcfg
  if requireExistingPin state ≠ .success then requireExistingPin state
  else if !request.hasKeyAgreement || !request.hasPinHashEnc then .missingParameter
  else if !permissionsMode && (request.hasPermissions || request.hasRpId) then .invalidParameter
  else if permissionsMode && !request.hasPermissions then .missingParameter
  else if permissionsMode && request.permissions == 0 then .invalidParameter
  else if permissionsMode && request.permissions &&& ~~~recognizedPermissions != 0 then
    .invalidParameter
  else if permissionsMode && request.permissions &&& ~~~supportedPermissions != 0 then
    .unauthorizedPermission
  else if permissionsMode && request.permissions &&& (permissionMc ||| permissionGa) != 0 &&
      !request.hasRpId then
    .missingParameter
  else if !pinProtocolSupported request.pinProtocol ||
      request.pinHashEnc.length != encryptedPinHashLen request.pinProtocol then
    .invalidParameter
  else .success

/-- `zf_client_pin_request_permission_token_consent`, with the gate free when the wait ends. The
state is published for the wait; afterwards it is read back, and the PIN it holds must still be the
one the platform proved. -/
def requestPermissionTokenConsent (state : ClientPinState) (pinHashPlain : Bytes)
    (consent : ConsentOutcome) (interlude : ClientPinState → Program Device ClientPinState) :
    Program Device (CtapStatus × ClientPinState) := do
  let state ← interlude state
  if consentStatus consent ≠ .success then
    return (consentStatus consent, state)
  if !state.pinSet then
    return (.pinAuthInvalid, state)
  let equal := constantTimeEqual pinHashPlain state.pinHash pinHashLen
  note (.hashCompared equal)
  if !equal then
    return (.pinAuthInvalid, state)
  return (.success, state)

/-- The end of `zf_client_pin_handle_get_pin_token`: a fresh token is encrypted for the platform,
and becomes the current token once the response has been built. -/
def issuePinToken (state : ClientPinState) (request : ClientPinRequest) (keys : ProtocolKeys)
    (permissionsMode requireLocalConsent : Bool) (outCapacity : ℕ) :
    Program Device CommandResult := do
  let nextPinToken ← randomFill pinTokenLen
  match ← pinProtocolEncrypt crypto request.pinProtocol keys nextPinToken
      pinEncryptedTokenMaxLen with
  | none => return { status := .other, state }
  | some encryptedToken =>
    match responseToken encryptedToken outCapacity with
    | none => return { status := .other, state }
    | some response =>
      let rpId := if permissionsMode then some request.rpId else none
      let state := setTokenPermissions crypto { state with pinToken := nextPinToken }
        (if permissionsMode then request.permissions else permissionMc ||| permissionGa)
        permissionsMode requireLocalConsent rpId
      let state ← notePinTokenIssued state
      note (.tokenIssued (← get).clock { permissionsMode, rpId, managed := requireLocalConsent })
      return { status := .success, response, state }

/-- `zf_client_pin_handle_get_pin_token`. -/
def clientPinHandleGetPinToken (state : ClientPinState) (request : ClientPinRequest)
    (permissionsMode requireLocalConsent : Bool) (consent : ConsentOutcome)
    (interlude : ClientPinState → Program Device ClientPinState) (outCapacity : ℕ) :
    Program Device CommandResult := do
  let checked := getPinTokenChecks state request permissionsMode
  if checked ≠ .success then
    return { status := checked, state }
  match pinProtocolDeriveKeys crypto state request.pinProtocol request.platformX
      request.platformY with
  | none => return { status := .invalidParameter, state }
  | some keys =>
    let decrypted := (pinProtocolDecrypt crypto request.pinProtocol keys
      request.pinHashEnc).filter fun plain ↦ plain.length == pinHashLen
    match decrypted with
    | none =>
      let (status, state) ← pinAuthFailure crypto state
      return { status, state }
    | some pinHashPlain =>
      let (status, state) ← comparePinHash crypto state pinHashPlain
      if status ≠ .success then
        return { status, state }
      if requireLocalConsent then
        let (status, state) ← requestPermissionTokenConsent state pinHashPlain consent interlude
        if status ≠ .success then
          return { status, state }
        issuePinToken crypto state request keys permissionsMode requireLocalConsent outCapacity
      else
        issuePinToken crypto state request keys permissionsMode requireLocalConsent outCapacity

/-- The capabilities of the running profile that the command reads. -/
structure Capabilities where
  pinUvAuthProtocol2Enabled : Bool
  clientPinTokenRequiresConsent : Bool
  pinUvAuthTokenEnabled : Bool
  deriving DecidableEq, Repr

/-- `zerofido_pin_handle_command_with_session` from the snapshot to the state it publishes. -/
def pinHandleCommand (state : ClientPinState) (capabilities : Capabilities) (data : Bytes)
    (consent : ConsentOutcome) (interlude : ClientPinState → Program Device ClientPinState)
    (outCapacity : ℕ) : Program Device CommandResult := do
  match clientPinParseRequest data with
  | .error status => return { status, state }
  | .ok request =>
    if request.hasPinProtocol && request.pinProtocol == pinProtocolV2 &&
        !capabilities.pinUvAuthProtocol2Enabled then
      return { status := .invalidParameter, state }
    if request.subcommand = subcmdGetRetries then
      match responseRetries state outCapacity with
      | none => return { status := .other, state }
      | some response => return { status := .success, response, state }
    else if request.subcommand = subcmdGetKeyAgreement then
      match responseKeyAgreement state outCapacity with
      | none => return { status := .other, state }
      | some response => return { status := .success, response, state }
    else if request.subcommand = subcmdSetPin then
      clientPinHandleSetPin crypto state request
    else if request.subcommand = subcmdGetPinToken then
      clientPinHandleGetPinToken crypto state request false
        capabilities.clientPinTokenRequiresConsent consent interlude outCapacity
    else if request.subcommand = subcmdGetPinUvAuthTokenUsingPinWithPermissions then
      if !capabilities.pinUvAuthTokenEnabled then
        return { status := .invalidSubcommand, state }
      clientPinHandleGetPinToken crypto state request true true consent interlude outCapacity
    else if request.subcommand = subcmdChangePin then
      clientPinHandleChangePin crypto state request
    else
      return { status := .invalidSubcommand, state }

end Operations

end ZeroFido.Pin
