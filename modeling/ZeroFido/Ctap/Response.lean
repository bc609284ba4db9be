import ZeroFido.Cbor.Chains
import ZeroFido.Ctap.Authenticator

/-!
# Response bodies

`ctap/response.c`: the encoders of the getInfo, makeCredential and getAssertion responses, and the
authenticator data they carry.

The answer of a builder is the body it has written, with the memory it started from as a parameter.
Signing and the attestation key and certificate are parameters as well.
-/

set_option autoImplicit false
set_option relaxedAutoImplicit false

namespace ZeroFido.Ctap

open Cbor Store

variable (crypto : Crypto)

section AuthenticatorData

def authDataFixedLen : ℕ := 37
def aaguidLen : ℕ := 16

/-- The capacity of `auth_data` in `ZfAssertionResponseScratch`. -/
def assertionAuthDataCapacity : ℕ := 160

/-- The capacities of `cose` and `extension_data` in `ZfMakeCredentialResponseScratch`. -/
def coseCapacity : UInt32 := 128
def extensionDataCapacity : UInt32 := 32

/-- `zf_attestation_get_aaguid`. -/
def aaguid : Bytes :=
  [0xB5, 0x1A, 0x97, 0x6A, 0x0B, 0x02, 0x40, 0xAA, 0x9D, 0x8A, 0x36, 0xC8, 0xB9, 0x1B, 0xBD, 0x1A]

/-- A string literal. -/
def literal (text : String) : Bytes := text.toUTF8.toList

/-- `zf_encode_cose_key`. -/
def encodeCoseKey (record : CredentialRecord) (outCapacity : UInt32) : Option Bytes :=
  encodeInto (fun _ ↦ 0) outCapacity
    (encodeAll (p256CoseKeyMembers (-7) record.publicX record.publicY))

/-- `zf_encode_make_credential_extensions`, with the outputs of the two extensions. -/
def encodeMakeCredentialExtensions (credProtect : UInt8)
    (includeCredProtect includeHmacSecret hmacSecretCreated : Bool) (outCapacity : UInt32) :
    Option Bytes :=
  let pairs := (if includeCredProtect then 1 else 0) + (if includeHmacSecret then 1 else 0)
  encodeInto (fun _ ↦ 0) outCapacity
    (encodeAll ([.map pairs] ++
      onlyIf includeCredProtect
        [.text (literal "credProtect"), .uint (credProtectEffective credProtect.toNat)] ++
      onlyIf includeHmacSecret [.text (literal "hmac-secret"), .bool hmacSecretCreated]))

/-- The flags byte of `zf_build_auth_data`. -/
def authDataFlags (userPresent userVerified includeAttestedData includeExtensionData : Bool) :
    UInt8 :=
  let flags : UInt8 := if userPresent then 0x01 else 0x00
  let flags := if userVerified then flags ||| 0x04 else flags
  let flags := if includeAttestedData then flags ||| 0x40 else flags
  if includeExtensionData then flags ||| 0x80 else flags

/-- The attested credential data, for the space left in the buffer. -/
def attestedData (record : Option CredentialRecord) (cose : Bytes) (room : ℕ) : Option Bytes :=
  match record with
  | none => none
  | some record =>
    if cose.length = 0 then none
    else if room < aaguidLen + 2 + record.credentialId.length + cose.length then none
    else some (aaguid ++ toBigEndian 2 record.credentialId.length ++ record.credentialId ++ cose)

/-- `zf_build_auth_data`. It answers with 0 for `none`. -/
def buildAuthData (rpId : Bytes)
    (userPresent userVerified includeAttestedData includeExtensionData : Bool)
    (record : Option CredentialRecord) (signCount : UInt32) (extensionData cose : Bytes)
    (outCapacity : ℕ) : Option Bytes :=
  let flags := authDataFlags userPresent userVerified includeAttestedData includeExtensionData
  if outCapacity < authDataFixedLen then none
  else
    let fixed := crypto.sha256 rpId ++ flags :: toBigEndian 4 signCount.toNat
    (if includeAttestedData then attestedData record cose (outCapacity - authDataFixedLen)
      else some []).bind fun attested ↦
      if !includeExtensionData then some (fixed ++ attested)
      else if outCapacity < authDataFixedLen + attested.length + extensionData.length then none
      else some (fixed ++ attested ++ extensionData)

/-- `zf_make_credential_auth_data_size`. -/
def makeCredentialAuthDataSize (record : CredentialRecord) (coseLen extensionDataLen : ℕ) :
    Option ℕ :=
  if 0xFFFF < record.credentialId.length ∨ coseLen = 0 then none
  else
    some (authDataFixedLen + aaguidLen + 2 + record.credentialId.length + coseLen +
      extensionDataLen)

end AuthenticatorData

section GetInfo

def maxMsgSize : ℕ := 1024
def firmwareVersion : ℕ := 700

/-- The transports a build is for: `ZF_NFC_ONLY`, `ZF_USB_ONLY` or neither. -/
inductive TransportBuild where
  | both
  | nfcOnly
  | usbOnly
  deriving DecidableEq, Repr

/-- `ZfResolvedCapabilities`, as far as getInfo reads it. -/
structure InfoCapabilities where
  advertiseFido21 : Bool
  advertiseU2fV2 : Bool
  pinUvAuthTokenEnabled : Bool
  pinUvAuthProtocol2Enabled : Bool
  makeCredUvNotRequired : Bool
  advertiseUsbTransport : Bool
  advertiseNfcTransport : Bool
  deriving DecidableEq, Repr

variable (build : TransportBuild) (capabilities : InfoCapabilities) (clientPinSet : Bool)

/-- Whether the transports are listed. -/
def listsTransports : Bool :=
  match build with
  | .nfcOnly => true
  | .usbOnly => capabilities.advertiseFido21
  | .both => capabilities.advertiseFido21 || capabilities.advertiseNfcTransport

/-- `get_info_pairs`. The build for NFC starts at 7 pairs, the others add the transports to 6. -/
def getInfoPairs : ℕ :=
  let pairs := if build = .nfcOnly then 7 else 6
  let pairs := if build ≠ .nfcOnly ∧ listsTransports build capabilities then pairs + 1 else pairs
  let pairs := if capabilities.advertiseFido21 then pairs + 1 else pairs
  if capabilities.advertiseFido21 then pairs + 2 else pairs

def versionsCount : ℕ :=
  let count := 1
  let count := if capabilities.advertiseFido21 then count + 1 else count
  if capabilities.advertiseU2fV2 then count + 1 else count

def optionsCount : ℕ :=
  let count := 4
  let count := if capabilities.pinUvAuthTokenEnabled then count + 1 else count
  if capabilities.makeCredUvNotRequired then count + 1 else count

def transportsCount : ℕ :=
  let count := 0
  let count := if capabilities.advertiseUsbTransport then count + 1 else count
  if capabilities.advertiseNfcTransport then count + 1 else count

/-- The members up to key 6, which every build writes. -/
def getInfoMembers : List Primitive :=
  [.map (getInfoPairs build capabilities), .uint 1, .array (versionsCount capabilities)] ++
    onlyIf capabilities.advertiseFido21 [.text (literal "FIDO_2_1")] ++
    [.text (literal "FIDO_2_0")] ++
    onlyIf capabilities.advertiseU2fV2 [.text (literal "U2F_V2")] ++
    [.uint 2, .array 2, .text (literal "credProtect"), .text (literal "hmac-secret"),
      .uint 3, .bytes aaguid,
      .uint 4, .map (optionsCount capabilities),
      .text (literal "rk"), .bool true,
      .text (literal "up"), .bool true,
      .text (literal "plat"), .bool false,
      .text (literal "clientPin"), .bool clientPinSet] ++
    onlyIf capabilities.pinUvAuthTokenEnabled [.text (literal "pinUvAuthToken"), .bool true] ++
    onlyIf capabilities.makeCredUvNotRequired [.text (literal "makeCredUvNotRqd"), .bool true] ++
    [.uint 5, .uint maxMsgSize,
      .uint 6, .array (if capabilities.pinUvAuthProtocol2Enabled then 2 else 1)] ++
    onlyIf capabilities.pinUvAuthProtocol2Enabled [.uint 2] ++
    [.uint 1]

/-- The members of key 9. -/
def transportMembers : List Primitive :=
  match build with
  | .nfcOnly => [.uint 9, .array 1, .text (literal "nfc")]
  | .usbOnly => [.uint 9, .array 1, .text (literal "usb")]
  | .both =>
    [.uint 9, .array (transportsCount capabilities)] ++
      onlyIf capabilities.advertiseUsbTransport [.text (literal "usb")] ++
      onlyIf capabilities.advertiseNfcTransport [.text (literal "nfc")]

/-- The members of key 10. -/
def algorithmMembers : List Primitive :=
  [.uint 10, .array 1, .map 2, .text (literal "alg"), .int (-7), .text (literal "type"),
    .text (literal "public-key")]

/-- The members of keys 13 and 14. -/
def ctap21Members : List Primitive :=
  [.uint 13, .uint minPinLength, .uint 14, .uint firmwareVersion]

/-- The calls of `zf_ctap_build_get_info_response`. Each of the later ones is made `if (ok && …)`.
-/
def encodeGetInfo : Call :=
  (encodeAll (getInfoMembers build capabilities clientPinSet)).andThen
    ((encodeAll (onlyIf (listsTransports build capabilities)
        (transportMembers build capabilities))).andThen
      ((encodeAll (onlyIf capabilities.advertiseFido21 algorithmMembers)).andThen
        (encodeAll (onlyIf capabilities.advertiseFido21 ctap21Members))))

/-- `zf_ctap_build_get_info_response`. -/
def buildGetInfoResponse (memory : ℕ → UInt8) (outCapacity : UInt32) : Reply Bytes :=
  match EncoderBuffer.init memory outCapacity with
  | none => .error .other
  | some enc =>
    match encodeGetInfo build capabilities clientPinSet enc with
    | (false, _) => .error .invalidCbor
    | (true, enc) => .ok enc.written

end GetInfo

section MakeCredential

variable (rpId : Bytes) (record : CredentialRecord)
  (userVerified includeCredProtect includeHmacSecret : Bool)

/-- What stands in the scratch memory before the response is written: the extension outputs, the
key, and the size of the authenticator data. -/
structure CredentialParts where
  extensionData : Bytes
  cose : Bytes
  authDataLen : ℕ

/-- The extension outputs, which are only encoded when there is one. -/
def credentialExtensionData : Option Bytes :=
  if includeCredProtect || includeHmacSecret then
    encodeMakeCredentialExtensions (UInt8.ofNat record.credProtect) includeCredProtect
      includeHmacSecret record.hmacSecret extensionDataCapacity
  else some []

/-- The beginning of the two makeCredential builders. -/
def credentialParts : Option CredentialParts := do
  let extensionData ← credentialExtensionData record includeCredProtect includeHmacSecret
  let cose ← encodeCoseKey record coseCapacity
  let authDataLen ← makeCredentialAuthDataSize record cose.length extensionData.length
  some { extensionData, cose, authDataLen }

/-- The authenticator data of a makeCredential response, written to a buffer of its size. -/
def credentialAuthData (parts : CredentialParts) (outCapacity : ℕ) : Option Bytes :=
  buildAuthData crypto rpId true userVerified true (includeCredProtect || includeHmacSecret)
    (some record) (UInt32.ofNat record.signCount) parts.extensionData parts.cose outCapacity

/-- The calls that write the format and the authenticator data. -/
def encodeCredentialStart (format : Bytes) (parts : CredentialParts) : Call :=
  (encodeAll [.map 3, .uint 1, .text format, .uint 2]).andThen
    (encodeBuilt parts.authDataLen
      (credentialAuthData crypto rpId record userVerified includeCredProtect includeHmacSecret
        parts))

/-- `zf_ctap_build_none_make_credential_response_with_scratch`. -/
def buildNoneMakeCredentialResponse (memory : ℕ → UInt8) (outCapacity : UInt32) : Reply Bytes :=
  match credentialParts record includeCredProtect includeHmacSecret with
  | none => .error .other
  | some parts =>
    match EncoderBuffer.init memory outCapacity with
    | none => .error .other
    | some enc =>
      match (encodeCredentialStart crypto rpId record userVerified includeCredProtect
          includeHmacSecret (literal "none") parts).andThen (encodeAll [.uint 3, .map 0]) enc with
      | (false, _) => .error .other
      | (true, enc) => .ok enc.written

/-- `zerofido_attestation.h`: whether the assets are ready, the length of the leaf certificate, the
signature over two parts, and the certificate for a buffer of a given capacity. -/
structure Attestation where
  ensureReady : Bool
  leafCertDerLen : Option ℕ
  signParts : (first second : Bytes) → Option Bytes
  loadLeafCertDer : (outCapacity : ℕ) → Option Bytes

/-- The calls that write the attestation statement. -/
def encodePackedStatement (attestation : Attestation) (signature : Bytes) (certLen : ℕ) : Call :=
  (encodeAll
    [.uint 3, .map 3,
      .text (literal "alg"), .int (-7),
      .text (literal "sig"), .bytes signature,
      .text (literal "x5c"), .array 1]).andThen
    (encodeBuilt certLen attestation.loadLeafCertDer)

/-- The attestation's part of the packed builder, with the authenticator data as it stands in the
buffer. -/
def packedSignature (attestation : Attestation) (authData clientDataHash : Bytes) :
    Option (ℕ × Bytes) :=
  if !attestation.ensureReady then none
  else
    attestation.leafCertDerLen.bind fun certLen ↦
      (attestation.signParts authData clientDataHash).map fun signature ↦ (certLen, signature)

/-- `zf_ctap_build_packed_make_credential_response_with_scratch`. -/
def buildPackedMakeCredentialResponse (attestation : Attestation) (clientDataHash : Bytes)
    (memory : ℕ → UInt8) (outCapacity : UInt32) : Reply Bytes :=
  match credentialParts record includeCredProtect includeHmacSecret with
  | none => .error .other
  | some parts =>
    match EncoderBuffer.init memory outCapacity with
    | none => .error .other
    | some enc =>
      match encodeCredentialStart crypto rpId record userVerified includeCredProtect
          includeHmacSecret (literal "packed") parts enc with
      | (false, _) => .error .other
      | (true, enc) =>
        let authData := enc.written.drop (enc.offset - parts.authDataLen)
        match packedSignature attestation authData clientDataHash with
        | none => .error .other
        | some (certLen, signature) =>
          match encodePackedStatement attestation signature certLen enc with
          | (false, _) => .error .other
          | (true, enc) => .ok enc.written

end MakeCredential

section Assertion

variable (record : CredentialRecord)

/-- The name and the display name of the user, as far as they are included. -/
def userDetailTexts (includeUserDetails : Bool) : List Bytes :=
  onlyIf (includeUserDetails && record.userName ≠ []) [literal "name", record.userName] ++
    onlyIf (includeUserDetails && record.userDisplayName ≠ [])
      [literal "displayName", record.userDisplayName]

/-- The members up to the id of the user. -/
def assertionMembers (pairs userPairs : ℕ) (authData signature : Bytes) : List Primitive :=
  [.map pairs, .uint 1, .map 2,
    .text (literal "id"), .bytes record.credentialId,
    .text (literal "type"), .text (literal "public-key"),
    .uint 2, .bytes authData,
    .uint 3, .bytes signature,
    .uint 4, .map userPairs,
    .text (literal "id"), .bytes record.userId]

/-- The calls of `zf_ctap_build_assertion_response_with_scratch`. The count is written whether or
not the names found room, and its success takes the place of theirs. -/
def encodeAssertion (includeUserDetails includeCount : Bool) (matchCount : UInt32)
    (includeUserSelected userSelected : Bool) (authData signature : Bytes) : Call :=
  let includeUserName := includeUserDetails && record.userName ≠ []
  let includeDisplayName := includeUserDetails && record.userDisplayName ≠ []
  let emitUserSelected := includeUserSelected && userSelected
  let userPairs := 1
  let userPairs := if includeUserName then userPairs + 1 else userPairs
  let userPairs := if includeDisplayName then userPairs + 1 else userPairs
  let pairs := 4
  let pairs := if includeCount then pairs + 1 else pairs
  let pairs := if emitUserSelected then pairs + 1 else pairs
  (encodeAll (assertionMembers record pairs userPairs authData signature)).andThen
    ((((encodeAll (onlyIf includeUserName
            [.text (literal "name"), .text record.userName])).andThen
          (encodeAll (onlyIf includeDisplayName
            [.text (literal "displayName"), .text record.userDisplayName]))).reassign
        includeCount (encodeAll [.uint 5, .uint matchCount.toNat])).andThen
      (encodeAll (onlyIf emitUserSelected [.uint 6, .bool true])))

variable (signHash : CredentialRecord → Bytes → Option Bytes) (request : AssertionRequestData)
  (userPresent userVerified : Bool) (signCount : UInt32) (extensionData : Bytes)

/-- The authenticator data of an assertion, in the scratch memory. -/
def assertionAuthData : Option Bytes :=
  buildAuthData crypto request.rpId userPresent userVerified false (0 < extensionData.length) none
    signCount extensionData [] assertionAuthDataCapacity

/-- `zf_ctap_build_assertion_response_with_scratch`. -/
def buildAssertionResponse (includeUserDetails includeCount : Bool) (matchCount : UInt32)
    (includeUserSelected userSelected : Bool) (memory : ℕ → UInt8) (outCapacity : UInt32) :
    Reply Bytes :=
  match assertionAuthData crypto request userPresent userVerified signCount extensionData with
  | none => .error .other
  | some authData =>
    match signHash record (crypto.sha256 (authData ++ request.clientDataHash)) with
    | none => .error .other
    | some signature =>
      match EncoderBuffer.init memory outCapacity with
      | none => .error .other
      | some enc =>
        match encodeAssertion record includeUserDetails includeCount matchCount
            includeUserSelected userSelected authData signature enc with
        | (false, _) => .error .other
        | (true, enc) => .ok enc.written

end Assertion

end ZeroFido.Ctap
