import ZeroFido.Ctap.MakeCredential
import ZeroFido.Ctap.MapFields
import ZeroFido.Ctap.Policy

/-!
# The parsers of makeCredential and getAssertion

`ctap/parse/make_credential.c` and `ctap/parse/get_assertion.c`, with what they use of
`ctap/parse/shared.c` and the input of `ctap/extensions/hmac_secret.c`. A loop over a nested map
carries what it has seen and the values it has read, which go into the request when the map has
been read.
-/

set_option autoImplicit false
set_option relaxedAutoImplicit false

namespace ZeroFido.Ctap

open Cbor Store

section Shared

/-- `ZfCtapTextKey`. -/
inductive TextKey where
  | unknown
  | alg
  | credProtect
  | displayName
  | hmacSecret
  | icon
  | id
  | name
  | publicKey
  | rk
  | type
  | up
  | uv
  deriving DecidableEq, Repr

/-- The texts that `zf_ctap_classify_text_key` knows. -/
def textKeys : List (Bytes × TextKey) :=
  [("alg".toUTF8.toList, .alg), ("credProtect".toUTF8.toList, .credProtect),
    ("displayName".toUTF8.toList, .displayName), ("hmac-secret".toUTF8.toList, .hmacSecret),
    ("icon".toUTF8.toList, .icon), ("id".toUTF8.toList, .id), ("name".toUTF8.toList, .name),
    ("public-key".toUTF8.toList, .publicKey), ("rk".toUTF8.toList, .rk),
    ("type".toUTF8.toList, .type), ("up".toUTF8.toList, .up), ("uv".toUTF8.toList, .uv)]

/-- `zf_ctap_classify_text_key`. -/
def classifyTextKey (text : Bytes) : TextKey :=
  ((textKeys.find? fun entry ↦ entry.1 == text).map (·.2)).getD .unknown

/-- `zf_ctap_cbor_read_text_discard`. -/
def cborReadTextDiscard (cursor : Bytes) : Option (Unit × Bytes) :=
  match readText cursor with
  | some (text, rest) => if 0 ∈ text then none else some ((), rest)
  | none => none

/-- Answers with the status when the condition holds. -/
def refuseIf (condition : Bool) (status : CtapStatus) : Parser Unit :=
  if condition then throw status else return ()

/-- What `zf_ctap_parse_options_map` sets. -/
structure RequestOptions where
  up : Bool
  hasUp : Bool
  uv : Bool
  hasUv : Bool
  rk : Bool
  hasRk : Bool
  deriving DecidableEq, Repr

/-- The options, and which have been seen. -/
structure OptionsFields extends RequestOptions where
  sawUp : Bool := false
  sawUv : Bool := false
  sawRk : Bool := false

/-- An option. -/
def parseOption (fields : OptionsFields) : Parser OptionsFields := do
  let key ← cborRead readText
  let value ← cborRead readBool
  match classifyTextKey key with
  | .up =>
    refuseIf fields.sawUp .invalidCbor
    return { fields with up := value, hasUp := true, sawUp := true }
  | .uv =>
    refuseIf fields.sawUv .invalidCbor
    return { fields with uv := value, hasUv := true, sawUv := true }
  | .rk =>
    refuseIf fields.sawRk .invalidCbor
    return { fields with rk := value, hasRk := true, sawRk := true }
  | _ => return fields

/-- `zf_ctap_parse_options_map`. -/
def parseOptionsMap (options : RequestOptions) : Parser RequestOptions := do
  let pairs ← cborRead readMapStart
  let fields ← repeated parseOption pairs { toRequestOptions := options }
  return fields.toRequestOptions

/-- What has been read of a credential descriptor. -/
structure DescriptorFields where
  credentialIdDigest : Bytes := zeroBytes 32
  sawId : Bool := false
  sawType : Bool := false
  publicKey : Bool := false

variable (crypto : Crypto)

/-- A pair of a credential descriptor. -/
def parseDescriptorField (fields : DescriptorFields) : Parser DescriptorFields := do
  let key ← cborRead readText
  match classifyTextKey key with
  | .id =>
    refuseIf fields.sawId .invalidCbor
    let credentialId ← cborRead readBytes
    refuseIf (credentialId.isEmpty || decide (maxDescriptorIdLen < credentialId.length)) .invalidCbor
    return { fields with credentialIdDigest := crypto.sha256 credentialId, sawId := true }
  | .type =>
    refuseIf fields.sawType .invalidCbor
    let type ← cborRead readText
    return { fields with sawType := true, publicKey := classifyTextKey type == .publicKey }
  | _ =>
    cborSkip
    return fields

/-- `zf_ctap_parse_credential_descriptor`: the digest of the id, and whether to include the entry.
-/
def parseCredentialDescriptor : Parser (Bytes × Bool) := do
  let pairs ← cborRead readMapStart
  let fields ← repeated (parseDescriptorField crypto) pairs {}
  refuseIf (!(fields.sawId && fields.sawType)) .invalidCbor
  return (fields.credentialIdDigest, fields.publicKey)

/-- A descriptor of a list of which the caller's array holds `capacity`. -/
def parseDescriptor (capacity : ℕ) (list : List Bytes) : Parser (List Bytes) := do
  let (digest, includeEntry) ← parseCredentialDescriptor crypto
  refuseIf (includeEntry && (decide (capacity ≤ list.length) || list.contains digest))
    .invalidParameter
  return if includeEntry then list ++ [digest] else list

/-- `zf_ctap_parse_descriptor_array`. -/
def parseDescriptorArray (capacity : ℕ) : Parser (List Bytes) := do
  let items ← cborRead readArrayStart
  repeated (parseDescriptor crypto capacity) items []

end Shared

section MakeCredential

/-- `ZfAttestationMode`. -/
inductive AttestationMode where
  | packed
  | none
  deriving DecidableEq, Repr

/-- `ZfMakeCredentialRequest`: what the handler reads, and what only the parser and the response
do. -/
structure ParsedMakeCredential extends MakeCredentialRequest where
  hasClientDataHash : Bool := false
  up : Bool := false
  hasUp : Bool := false
  hasUserId : Bool := false
  hasPubkeyCredParams : Bool := false
  es256Supported : Bool := false
  hmacSecretRequested : Bool := false
  hasAttestationFormatPreference : Bool := false
  preferredAttestationMode : AttestationMode := .packed
  deriving DecidableEq, Repr

/-- `zf_parse_make_credential_client_data_hash`. -/
def parseMakeCredentialClientDataHash (request : ParsedMakeCredential) :
    Parser ParsedMakeCredential := do
  let clientDataHash ← cborRead (cborReadBytesCopy · clientDataHashLen)
  refuseIf (clientDataHash.length != clientDataHashLen) .invalidCbor
  return { request with clientDataHash, hasClientDataHash := true }

/-- What has been read of the RP. -/
structure RpFields where
  rpId : Bytes
  sawId : Bool := false
  sawName : Bool := false
  sawIcon : Bool := false

/-- A pair of the RP. -/
def parseRpField (fields : RpFields) : Parser RpFields := do
  let field ← cborRead readText
  match classifyTextKey field with
  | .name =>
    refuseIf fields.sawName .invalidCbor
    cborRead cborReadTextDiscard
    return { fields with sawName := true }
  | .icon =>
    refuseIf fields.sawIcon .invalidCbor
    cborRead cborReadTextDiscard
    return { fields with sawIcon := true }
  | .id =>
    refuseIf fields.sawId .invalidCbor
    let rpId ← cborRead (cborReadTextCopy · maxRpIdLen)
    return { fields with rpId, sawId := true }
  | _ =>
    cborSkip
    return fields

/-- `zf_parse_make_credential_rp`. -/
def parseMakeCredentialRp (request : ParsedMakeCredential) : Parser ParsedMakeCredential := do
  let pairs ← cborRead readMapStart
  let fields ← repeated parseRpField pairs { rpId := request.rpId }
  return { request with rpId := fields.rpId }

/-- What has been read of the user. -/
structure UserFields where
  userId : Bytes
  hasUserId : Bool
  userName : Bytes
  userDisplayName : Bytes
  sawId : Bool := false
  sawName : Bool := false
  sawDisplayName : Bool := false
  sawIcon : Bool := false

/-- A pair of the user. -/
def parseUserField (fields : UserFields) : Parser UserFields := do
  let field ← cborRead readText
  match classifyTextKey field with
  | .id =>
    refuseIf fields.sawId .invalidCbor
    let userId ← cborRead (cborReadBytesCopy · maxUserIdLen)
    return { fields with userId, hasUserId := true, sawId := true }
  | .name =>
    refuseIf fields.sawName .invalidCbor
    let userName ← cborRead (cborReadTextCopy · maxUserNameLen)
    return { fields with userName, sawName := true }
  | .displayName =>
    refuseIf fields.sawDisplayName .invalidCbor
    let userDisplayName ← cborRead (cborReadTextCopy · maxDisplayNameLen)
    return { fields with userDisplayName, sawDisplayName := true }
  | .icon =>
    refuseIf fields.sawIcon .invalidCbor
    cborRead cborReadTextDiscard
    return { fields with sawIcon := true }
  | _ =>
    cborSkip
    return fields

/-- `zf_parse_make_credential_user`. -/
def parseMakeCredentialUser (request : ParsedMakeCredential) : Parser ParsedMakeCredential := do
  let pairs ← cborRead readMapStart
  let fields ← repeated parseUserField pairs
    { userId := request.userId
      hasUserId := request.hasUserId
      userName := request.userName
      userDisplayName := request.userDisplayName }
  return { request with
    userId := fields.userId
    hasUserId := fields.hasUserId
    userName := fields.userName
    userDisplayName := fields.userDisplayName }

/-- What has been read of an entry of `pubKeyCredParams`. -/
structure CredParamFields where
  alg : ℤ := 0
  haveAlg : Bool := false
  haveType : Bool := false
  publicKey : Bool := false

/-- A pair of an entry of `pubKeyCredParams`. -/
def parseCredParamField (fields : CredParamFields) : Parser CredParamFields := do
  let key ← cborRead readText
  match classifyTextKey key with
  | .alg =>
    refuseIf fields.haveAlg .invalidCbor
    let alg ← cborRead readInt
    return { fields with alg, haveAlg := true }
  | .type =>
    refuseIf fields.haveType .invalidCbor
    let value ← cborRead readText
    return { fields with haveType := true, publicKey := classifyTextKey value == .publicKey }
  | _ =>
    cborSkip
    return fields

/-- An entry of `pubKeyCredParams`. -/
def parseCredParam (es256Supported : Bool) : Parser Bool := do
  let pairs ← cborRead readMapStart
  let fields ← repeated parseCredParamField pairs {}
  refuseIf (!fields.haveAlg || !fields.haveType) .invalidCbor
  return es256Supported || (fields.publicKey && fields.alg == -7)

/-- `zf_ctap_parse_pubkey_cred_params`. -/
def parsePubkeyCredParams (es256Supported : Bool) : Parser Bool := do
  let items ← cborRead readArrayStart
  repeated parseCredParam items es256Supported

/-- `zf_parse_make_credential_pubkey_cred_params`. -/
def parseMakeCredentialPubkeyCredParams (request : ParsedMakeCredential) :
    Parser ParsedMakeCredential := do
  let es256Supported ← parsePubkeyCredParams request.es256Supported
  return { request with es256Supported, hasPubkeyCredParams := true }

variable (crypto : Crypto) (capacity : ℕ) (packedAttestation : Bool)

/-- `zf_parse_make_credential_exclude_list`. -/
def parseMakeCredentialExcludeList (request : ParsedMakeCredential) :
    Parser ParsedMakeCredential := do
  let excludeList ← parseDescriptorArray crypto capacity
  return { request with excludeList }

/-- What has been read of the extensions of makeCredential. -/
structure MakeCredentialExtensions where
  hasCredProtect : Bool
  credProtect : ℕ
  hmacSecretRequested : Bool
  sawCredProtect : Bool := false
  sawHmacSecret : Bool := false

/-- An extension of makeCredential. -/
def parseMakeCredentialExtension (fields : MakeCredentialExtensions) :
    Parser MakeCredentialExtensions := do
  let key ← cborRead readText
  match classifyTextKey key with
  | .credProtect =>
    refuseIf fields.sawCredProtect .invalidCbor
    let credProtect ← cborRead readUint
    refuseIf (!credProtectValueIsValid credProtect) .invalidOption
    return { fields with hasCredProtect := true, credProtect, sawCredProtect := true }
  | .hmacSecret =>
    refuseIf fields.sawHmacSecret .invalidCbor
    let hmacSecretRequested ← cborRead readBool
    return { fields with hmacSecretRequested, sawHmacSecret := true }
  | _ =>
    cborSkip
    return fields

/-- `zf_parse_make_credential_extensions`. -/
def parseMakeCredentialExtensions (request : ParsedMakeCredential) :
    Parser ParsedMakeCredential := do
  let pairs ← cborRead readMapStart
  let fields ← repeated parseMakeCredentialExtension pairs
    { hasCredProtect := request.hasCredProtect
      credProtect := request.credProtect
      hmacSecretRequested := request.hmacSecretRequested }
  return { request with
    hasCredProtect := fields.hasCredProtect
    credProtect := fields.credProtect
    hmacSecretRequested := fields.hmacSecretRequested }

/-- `zf_parse_make_credential_options`. -/
def parseMakeCredentialOptions (request : ParsedMakeCredential) : Parser ParsedMakeCredential := do
  let options ← parseOptionsMap
    { up := request.up
      hasUp := request.hasUp
      uv := request.uv
      hasUv := request.hasUv
      rk := request.rk
      hasRk := request.hasRk }
  return { request with
    up := options.up
    hasUp := options.hasUp
    uv := options.uv
    hasUv := options.hasUv
    rk := options.rk
    hasRk := options.hasRk }

/-- `zf_parse_make_credential_pin_auth`. -/
def parseMakeCredentialPinAuth (request : ParsedMakeCredential) : Parser ParsedMakeCredential := do
  let pinAuth ← cborRead (cborReadBytesCopy · pinAuthMaxLen)
  return { request with pinAuth, hasPinAuth := true }

/-- `zf_parse_make_credential_pin_protocol`. -/
def parseMakeCredentialPinProtocol (request : ParsedMakeCredential) :
    Parser ParsedMakeCredential := do
  let pinProtocol ← cborRead readUint
  return { request with pinProtocol, hasPinProtocol := true }

/-- The first attestation format that the authenticator has is the preferred one. -/
def parseAttestationFormat (preferred : Bool × AttestationMode) :
    Parser (Bool × AttestationMode) := do
  let format ← cborRead readText
  refuseIf (format.contains 0) .invalidCbor
  return if preferred.1 then preferred
    else if format = "none".toUTF8.toList then (true, .none)
    else if packedAttestation && format == "packed".toUTF8.toList then (true, .packed)
    else preferred

/-- `zf_parse_make_credential_attestation_formats`. -/
def parseMakeCredentialAttestationFormats (request : ParsedMakeCredential) :
    Parser ParsedMakeCredential := do
  let items ← cborRead readArrayStart
  let preferred ← repeated (parseAttestationFormat packedAttestation) items
    (request.hasAttestationFormatPreference, request.preferredAttestationMode)
  return { request with
    hasAttestationFormatPreference := preferred.1
    preferredAttestationMode := preferred.2 }

/-- `zf_parse_make_credential_field`. -/
def parseMakeCredentialField (key : ℕ) (request : ParsedMakeCredential) :
    Parser ParsedMakeCredential :=
  match key with
  | 1 => parseMakeCredentialClientDataHash request
  | 2 => parseMakeCredentialRp request
  | 3 => parseMakeCredentialUser request
  | 4 => parseMakeCredentialPubkeyCredParams request
  | 5 => parseMakeCredentialExcludeList crypto capacity request
  | 6 => parseMakeCredentialExtensions request
  | 7 => parseMakeCredentialOptions request
  | 8 => parseMakeCredentialPinAuth request
  | 9 => parseMakeCredentialPinProtocol request
  | 11 => parseMakeCredentialAttestationFormats packedAttestation request
  | _ => do
    cborSkip
    return request

/-- `zf_validate_make_credential_request`. -/
def validateMakeCredentialRequest (cursor : Bytes) (request : ParsedMakeCredential) : CtapStatus :=
  if !request.hasClientDataHash || request.rpId.isEmpty || !request.hasUserId then .missingParameter
  else if request.userId.isEmpty then .invalidParameter
  else if !request.hasPubkeyCredParams then .missingParameter
  else if !request.es256Supported then .unsupportedAlgorithm
  else if request.hasUp && !request.up then .invalidOption
  else if !cursor.isEmpty then .invalidCbor
  else .success

/-- The request that `zf_ctap_parse_make_credential` starts from. -/
def initialMakeCredential : ParsedMakeCredential :=
  { clientDataHash := zeroBytes clientDataHashLen
    rpId := []
    userId := []
    up := true }

/-- `zf_ctap_parse_make_credential`. -/
def ctapParseMakeCredential (data : Bytes) : Except CtapStatus ParsedMakeCredential :=
  parseRequest (parseMakeCredentialField crypto capacity packedAttestation) initialMakeCredential
    validateMakeCredentialRequest data

theorem parsesMap_ctapParseMakeCredential :
    ParsesMap (parseMakeCredentialField crypto capacity packedAttestation) initialMakeCredential
      (fun request ↦ validateMakeCredentialRequest [] request = .success)
      (ctapParseMakeCredential crypto capacity packedAttestation) := by
  refine parsesMap_parseRequest fun cursor request h ↦ ?_
  unfold validateMakeCredentialRequest at h
  split_ifs at h with _ _ _ _ _ hleft
  simpa using hleft

end MakeCredential

section GetAssertion

def hmacSecretSaltMaxLen : ℕ := 64
def hmacSecretEncMaxLen : ℕ := hmacSecretSaltMaxLen + pinProtocol2IvLen
def hmacSecretAuthMaxLen : ℕ := 32

/-- The fields of `ZfAssertionRequestData` for the hmac-secret extension. -/
structure HmacSecretInput where
  hasHmacSecret : Bool := false
  hasPinProtocol : Bool := false
  pinProtocol : ℕ := 0
  platformX : Bytes := zeroBytes publicKeyLen
  platformY : Bytes := zeroBytes publicKeyLen
  saltEnc : Bytes := []
  saltAuth : Bytes := []
  deriving DecidableEq, Repr

/-- `ZfGetAssertionRequest`: what the handler reads, and what only the parser and the hmac-secret
extension do. -/
structure ParsedGetAssertion extends GetAssertionRequest where
  hasClientDataHash : Bool := false
  rk : Bool := false
  hasRk : Bool := false
  hmacSecretHasPinProtocol : Bool := false
  hmacSecretPlatformX : Bytes := zeroBytes publicKeyLen
  hmacSecretPlatformY : Bytes := zeroBytes publicKeyLen
  hmacSecretSaltEnc : Bytes := []
  hmacSecretSaltAuth : Bytes := []
  deriving DecidableEq, Repr

/-- What has been read of the input of the hmac-secret extension. -/
structure HmacSecretFields extends HmacSecretInput where
  seenKeys : List ℕ := []
  sawKeyAgreement : Bool := false
  sawSaltEnc : Bool := false
  sawSaltAuth : Bool := false

/-- A pair of the input of the hmac-secret extension. -/
def parseHmacSecretField (fields : HmacSecretFields) : Parser HmacSecretFields := do
  let key ← cborRead readUint
  match markSeenKey fields.seenKeys key with
  | none => throw .invalidCbor
  | some seenKeys =>
    match key with
    | 1 =>
      let (platformX, platformY) ← cborRead parseCoseP256KeyAgreement
      return { fields with seenKeys, platformX, platformY, sawKeyAgreement := true }
    | 2 =>
      let saltEnc ← cborRead (cborReadBytesCopy · hmacSecretEncMaxLen)
      return { fields with seenKeys, saltEnc, sawSaltEnc := true }
    | 3 =>
      let saltAuth ← cborRead (cborReadBytesCopy · hmacSecretAuthMaxLen)
      return { fields with seenKeys, saltAuth, sawSaltAuth := true }
    | 4 =>
      let pinProtocol ← cborRead readUint
      return { fields with seenKeys, pinProtocol, hasPinProtocol := true }
    | _ =>
      cborSkip
      return { fields with seenKeys }

/-- `zf_ctap_hmac_secret_parse_get_assertion_input`. -/
def hmacSecretParseGetAssertionInput (input : HmacSecretInput) : Parser HmacSecretInput := do
  let pairs ← cborRead readMapStart
  let fields ← repeated parseHmacSecretField pairs
    { toHmacSecretInput := { input with pinProtocol := Pin.pinProtocolV1 } }
  refuseIf (!fields.sawKeyAgreement || !fields.sawSaltEnc || !fields.sawSaltAuth) .missingParameter
  return { fields.toHmacSecretInput with hasHmacSecret := true }

/-- An extension of getAssertion, after which the one that is known may not come again. -/
def parseGetAssertionExtension (fields : HmacSecretInput × Bool) :
    Parser (HmacSecretInput × Bool) := do
  let key ← cborRead readText
  match classifyTextKey key with
  | .hmacSecret =>
    refuseIf fields.2 .invalidCbor
    let input ← hmacSecretParseGetAssertionInput fields.1
    return (input, true)
  | _ =>
    cborSkip
    return fields

/-- `zf_parse_get_assertion_extensions`. -/
def parseGetAssertionExtensions (request : ParsedGetAssertion) : Parser ParsedGetAssertion := do
  let pairs ← cborRead readMapStart
  let fields ← repeated parseGetAssertionExtension pairs
    ({ hasHmacSecret := request.assertion.hasHmacSecret
       hasPinProtocol := request.hmacSecretHasPinProtocol
       pinProtocol := request.assertion.hmacSecretPinProtocol
       platformX := request.hmacSecretPlatformX
       platformY := request.hmacSecretPlatformY
       saltEnc := request.hmacSecretSaltEnc
       saltAuth := request.hmacSecretSaltAuth }, false)
  return { request with
    assertion := { request.assertion with
      hasHmacSecret := fields.1.hasHmacSecret
      hmacSecretPinProtocol := fields.1.pinProtocol }
    hmacSecretHasPinProtocol := fields.1.hasPinProtocol
    hmacSecretPlatformX := fields.1.platformX
    hmacSecretPlatformY := fields.1.platformY
    hmacSecretSaltEnc := fields.1.saltEnc
    hmacSecretSaltAuth := fields.1.saltAuth }

variable (crypto : Crypto) (capacity : ℕ)

/-- The value of one key of the request map. -/
def parseGetAssertionField (key : ℕ) (request : ParsedGetAssertion) : Parser ParsedGetAssertion :=
  match key with
  | 1 => do
    let rpId ← cborRead (cborReadTextCopy · maxRpIdLen)
    return { request with assertion := { request.assertion with rpId } }
  | 2 => do
    let clientDataHash ← cborRead (cborReadBytesCopy · clientDataHashLen)
    refuseIf (clientDataHash.length != clientDataHashLen) .invalidCbor
    return { request with
      assertion := { request.assertion with clientDataHash }
      hasClientDataHash := true }
  | 3 => do
    let allowList ← parseDescriptorArray crypto capacity
    return { request with allowList }
  | 4 => parseGetAssertionExtensions request
  | 5 => do
    let options ← parseOptionsMap
      { up := request.up
        hasUp := request.hasUp
        uv := request.uv
        hasUv := request.hasUv
        rk := request.rk
        hasRk := request.hasRk }
    return { request with
      up := options.up
      hasUp := options.hasUp
      uv := options.uv
      hasUv := options.hasUv
      rk := options.rk
      hasRk := options.hasRk }
  | 6 => do
    let pinAuth ← cborRead (cborReadBytesCopy · pinAuthMaxLen)
    return { request with pinAuth, hasPinAuth := true }
  | 7 => do
    let pinProtocol ← cborRead readUint
    return { request with pinProtocol, hasPinProtocol := true }
  | _ => do
    cborSkip
    return request

/-- The checks at the end of `zf_ctap_parse_get_assertion`. -/
def validateGetAssertionRequest (cursor : Bytes) (request : ParsedGetAssertion) : CtapStatus :=
  if request.assertion.rpId.isEmpty || !request.hasClientDataHash then .missingParameter
  else if request.hasRk && request.rk then .unsupportedOption
  else if !cursor.isEmpty then .invalidCbor
  else .success

/-- The request that `zf_ctap_parse_get_assertion` starts from. -/
def initialGetAssertion : ParsedGetAssertion :=
  { assertion := { clientDataHash := zeroBytes clientDataHashLen, rpId := [] }
    up := true }

/-- `zf_ctap_parse_get_assertion`. -/
def ctapParseGetAssertion (data : Bytes) : Except CtapStatus ParsedGetAssertion :=
  parseRequest (parseGetAssertionField crypto capacity) initialGetAssertion
    validateGetAssertionRequest data

theorem parsesMap_ctapParseGetAssertion :
    ParsesMap (parseGetAssertionField crypto capacity) initialGetAssertion
      (fun request ↦ validateGetAssertionRequest [] request = .success)
      (ctapParseGetAssertion crypto capacity) := by
  refine parsesMap_parseRequest fun cursor request h ↦ ?_
  unfold validateGetAssertionRequest at h
  split_ifs at h with _ _ hleft
  simpa using hleft

end GetAssertion

end ZeroFido.Ctap
