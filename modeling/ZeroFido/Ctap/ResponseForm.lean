import ZeroFido.Ctap.Response

/-!
# The form of the responses

A response body is one map with integer keys in increasing order (`IsResponseMap`), and the
authenticator data in it has the parts that its flags announce (`AuthenticatorData.WellFormed`).
-/

set_option autoImplicit false
set_option relaxedAutoImplicit false

namespace ZeroFido.Ctap

open Cbor Store

section Form

/-- The bytes are exactly one map with these pairs, its integer keys increase, and it is no longer
than the buffer. -/
structure IsResponseMap (out : Bytes) (outCapacity : UInt32) (pairs : List (UInt64 × Cbor.Tree)) :
    Prop where
  encoding : out = (Cbor.Tree.map (pairs.map (Prod.map Cbor.Tree.uint id))).encoding
  keys : (pairs.map Prod.fst).Pairwise (· < ·)
  length : out.length ≤ outCapacity.toNat

/-- The attested credential data of authenticator data, with the key as a map. -/
structure AttestedCredential where
  aaguid : Bytes
  credentialId : Bytes
  publicKey : List (Cbor.Tree × Cbor.Tree)

def AttestedCredential.bytes (attested : AttestedCredential) : Bytes :=
  attested.aaguid ++ toBigEndian 2 attested.credentialId.length ++ attested.credentialId ++
    (Cbor.Tree.map attested.publicKey).encoding

/-- The parts of authenticator data. -/
structure AuthenticatorData where
  rpIdHash : Bytes
  flags : UInt8
  signCount : UInt32
  attested : Option AttestedCredential
  extensions : Bytes

def AuthenticatorData.bytes (data : AuthenticatorData) : Bytes :=
  data.rpIdHash ++ data.flags :: toBigEndian 4 data.signCount.toNat ++
    (data.attested.elim [] AttestedCredential.bytes ++ data.extensions)

/-- The parts have their sizes, and the AT and ED flags say which of them follow. -/
structure AuthenticatorData.WellFormed (data : AuthenticatorData) : Prop where
  rpIdHash : data.rpIdHash.length = 32
  attestedFlag : data.flags &&& 0x40 ≠ 0 ↔ data.attested.isSome
  extensionFlag : data.flags &&& 0x80 ≠ 0 ↔ data.extensions ≠ []
  attested : ∀ attested ∈ data.attested,
    attested.aaguid.length = aaguidLen ∧ attested.credentialId.length < 2 ^ 16

/-- A response that carries well-formed authenticator data under key 2. -/
def CarriesAuthData (pairs : List (UInt64 × Cbor.Tree)) (property : AuthenticatorData → Prop) :
    Prop :=
  ∃ data : AuthenticatorData,
    data.WellFormed ∧ property data ∧ (2, Cbor.Tree.bytes data.bytes) ∈ pairs

/-- A makeCredential response: its authenticator data has a credential, and the outputs of the
extensions are a map. -/
def IsCredentialResponse (out : Bytes) (outCapacity : UInt32) : Prop :=
  ∃ pairs, IsResponseMap out outCapacity pairs ∧ CarriesAuthData pairs fun data ↦
    data.attested.isSome ∧
      (data.extensions ≠ [] → ∃ members, data.extensions = (Cbor.Tree.map members).encoding)

/-- An assertion response: its authenticator data has the extension data it was given. -/
def IsAssertionResponse (out : Bytes) (outCapacity : UInt32) (extensionData : Bytes) : Prop :=
  ∃ pairs, IsResponseMap out outCapacity pairs ∧ CarriesAuthData pairs fun data ↦
    data.attested = none ∧ data.extensions = extensionData

end Form

section Bytes

theorem membersBytes_nil : membersBytes [] = [] := rfl

theorem membersBytes_cons (member : Primitive) (members : List Primitive) :
    membersBytes (member :: members) = member.encoding ++ membersBytes members := rfl

theorem membersBytes_append (first second : List Primitive) :
    membersBytes (first ++ second) = membersBytes first ++ membersBytes second :=
  List.flatMap_append

theorem membersBytes_onlyIf (condition : Bool) (members : List Primitive) :
    membersBytes (onlyIf condition members) = onlyIf condition (membersBytes members) :=
  flatMap_onlyIf condition members Primitive.encoding

end Bytes

section GetInfo

variable (build : TransportBuild) (capabilities : InfoCapabilities) (clientPinSet : Bool)

def versionTrees : List Cbor.Tree :=
  onlyIf capabilities.advertiseFido21 [.text (literal "FIDO_2_1")] ++
    [.text (literal "FIDO_2_0")] ++
    onlyIf capabilities.advertiseU2fV2 [.text (literal "U2F_V2")]

def optionPairs : List (Cbor.Tree × Cbor.Tree) :=
  [(.text (literal "rk"), .bool true), (.text (literal "up"), .bool true),
      (.text (literal "plat"), .bool false), (.text (literal "clientPin"), .bool clientPinSet)] ++
    onlyIf capabilities.pinUvAuthTokenEnabled [(.text (literal "pinUvAuthToken"), .bool true)] ++
    onlyIf capabilities.makeCredUvNotRequired [(.text (literal "makeCredUvNotRqd"), .bool true)]

def protocolTrees : List Cbor.Tree :=
  onlyIf capabilities.pinUvAuthProtocol2Enabled [.uint 2] ++ [.uint 1]

def transportTrees : List Cbor.Tree :=
  onlyIf (build = .usbOnly ∨ build = .both ∧ capabilities.advertiseUsbTransport)
      [.text (literal "usb")] ++
    onlyIf (build = .nfcOnly ∨ build = .both ∧ capabilities.advertiseNfcTransport)
      [.text (literal "nfc")]

/-- The pairs of a getInfo response. -/
def getInfoPairTrees : List (UInt64 × Cbor.Tree) :=
  [(1, .array (versionTrees capabilities)),
    (2, .array [.text (literal "credProtect"), .text (literal "hmac-secret")]),
    (3, .bytes aaguid),
    (4, .map (optionPairs capabilities clientPinSet)),
    (5, .uint 1024),
    (6, .array (protocolTrees capabilities))] ++
  onlyIf (listsTransports build capabilities) [(9, .array (transportTrees build capabilities))] ++
  onlyIf capabilities.advertiseFido21
    [(10, .array [.map [(.text (literal "alg"), .int (-7)),
      (.text (literal "type"), .text (literal "public-key"))]])] ++
  onlyIf capabilities.advertiseFido21 [(13, .uint 4), (14, .uint 700)]

theorem getInfo_keys :
    ((getInfoPairTrees build capabilities clientPinSet).map Prod.fst).Pairwise (· < ·) := by
  simp only [getInfoPairTrees, List.map_append, map_onlyIf, List.map_cons, List.map_nil]
  cases listsTransports build capabilities <;> cases capabilities.advertiseFido21 <;> decide

/-- The counts that are computed in advance are those of the members written. -/
theorem length_versionTrees : (versionTrees capabilities).length = versionsCount capabilities := by
  unfold versionTrees versionsCount
  cases capabilities.advertiseFido21 <;> cases capabilities.advertiseU2fV2 <;> rfl

theorem length_optionPairs :
    (optionPairs capabilities clientPinSet).length = optionsCount capabilities := by
  unfold optionPairs optionsCount
  cases capabilities.pinUvAuthTokenEnabled <;> cases capabilities.makeCredUvNotRequired <;> rfl

theorem length_protocolTrees : (protocolTrees capabilities).length =
    if capabilities.pinUvAuthProtocol2Enabled then 2 else 1 := by
  unfold protocolTrees
  cases capabilities.pinUvAuthProtocol2Enabled <;> rfl

theorem length_getInfoPairTrees :
    (getInfoPairTrees build capabilities clientPinSet).length =
      getInfoPairs build capabilities := by
  simp only [getInfoPairTrees, getInfoPairs, List.length_append, length_onlyIf, List.length_cons,
    List.length_nil]
  cases build with
  | both =>
    cases capabilities.advertiseFido21 <;> cases listsTransports .both capabilities <;> rfl
  | nfcOnly => cases capabilities.advertiseFido21 <;> rfl
  | usbOnly =>
    cases capabilities.advertiseFido21 <;> cases listsTransports .usbOnly capabilities <;> rfl

/-- The transports as they are written. -/
theorem membersBytes_transportMembers : membersBytes (transportMembers build capabilities) =
    headBytes majorUint 9 ++ (Cbor.Tree.array (transportTrees build capabilities)).encoding := by
  rw [Cbor.Tree.encoding]
  cases build with
  | nfcOnly => rfl
  | usbOnly => rfl
  | both =>
    simp only [transportMembers, transportTrees, transportsCount, membersBytes_append,
      membersBytes_onlyIf, encodings_append, encodings_onlyIf, List.length_append,
      length_onlyIf]
    cases capabilities.advertiseUsbTransport <;> cases capabilities.advertiseNfcTransport <;> rfl

theorem encodeGetInfo_yields : (encodeGetInfo build capabilities clientPinSet).Yields
    (Cbor.Tree.map ((getInfoPairTrees build capabilities clientPinSet).map
      (Prod.map Cbor.Tree.uint id))).encoding := by
  have hchain := (encodeAll_yields (getInfoMembers build capabilities clientPinSet)).andThen
    ((encodeAll_yields (onlyIf (listsTransports build capabilities)
      (transportMembers build capabilities))).andThen
      ((encodeAll_yields (onlyIf capabilities.advertiseFido21 algorithmMembers)).andThen
        (encodeAll_yields (onlyIf capabilities.advertiseFido21 ctap21Members))))
  refine hchain.congr ?_
  rw [Cbor.Tree.encoding, List.length_map, length_getInfoPairTrees]
  simp only [getInfoMembers, getInfoPairTrees, membersBytes_append, membersBytes_onlyIf,
    membersBytes_transportMembers, List.map_append, map_onlyIf, pairEncodings_append,
    pairEncodings_onlyIf, List.map_cons, List.map_nil, Prod.map, id_eq, pairEncodings,
    Cbor.Tree.encoding, length_versionTrees, length_optionPairs, length_protocolTrees]
  simp only [versionTrees, optionPairs, protocolTrees, encodings_append, encodings_onlyIf,
    pairEncodings_append, pairEncodings_onlyIf, encodings, pairEncodings, Cbor.Tree.encoding,
    membersBytes_cons, membersBytes_nil, Primitive.encoding, algorithmMembers, ctap21Members,
    List.append_assoc, List.append_nil]
  rfl

/-- What `zf_ctap_build_get_info_response` answers with is a response map. -/
theorem buildGetInfoResponse_form {memory : ℕ → UInt8} {outCapacity : UInt32} {out : Bytes}
    (h : buildGetInfoResponse build capabilities clientPinSet memory outCapacity = .ok out) :
    ∃ pairs, IsResponseMap out outCapacity pairs := by
  unfold buildGetInfoResponse at h
  cases hinit : EncoderBuffer.init memory outCapacity with
  | none => simp [hinit] at h
  | some enc =>
    cases hrun : encodeGetInfo build capabilities clientPinSet enc with
    | mk success after =>
      cases success with
      | false => simp [hinit, hrun] at h
      | true =>
        obtain rfl : after.written = out := by simpa [hinit, hrun] using h
        obtain ⟨hwritten, hlength⟩ :=
          (encodeGetInfo_yields build capabilities clientPinSet).fresh hinit hrun
        exact ⟨_, hwritten, getInfo_keys build capabilities clientPinSet, by rwa [hwritten]⟩

end GetInfo

section AuthData

variable {crypto : Crypto} {rpId extensionData cose out : Bytes}
  {userPresent userVerified includeAttestedData includeExtensionData : Bool}
  {record : Option CredentialRecord} {signCount : UInt32} {outCapacity : ℕ}

/-- The AT and ED bits of the flags are those that were asked for. -/
theorem authDataFlags_bits : ∀ userPresent userVerified includeAttestedData includeExtensionData,
    (authDataFlags userPresent userVerified includeAttestedData includeExtensionData &&& 0x40 ≠ 0 ↔
      includeAttestedData = true) ∧
    (authDataFlags userPresent userVerified includeAttestedData includeExtensionData &&& 0x80 ≠ 0 ↔
      includeExtensionData = true) := by
  decide

/-- The parts of the authenticator data in their order. -/
theorem buildAuthData_parts
    (h : buildAuthData crypto rpId userPresent userVerified includeAttestedData
      includeExtensionData record signCount extensionData cose outCapacity = some out) :
    ∃ attested, (if includeAttestedData then
        attestedData record cose (outCapacity - authDataFixedLen) else some []) = some attested ∧
      out = crypto.sha256 rpId ++
        authDataFlags userPresent userVerified includeAttestedData includeExtensionData ::
          toBigEndian 4 signCount.toNat ++
        (attested ++ onlyIf includeExtensionData extensionData) := by
  unfold buildAuthData at h
  by_cases hcapacity : outCapacity < authDataFixedLen
  · simp [hcapacity] at h
  rw [if_neg hcapacity] at h
  obtain ⟨attested, hattested, hout⟩ := Option.bind_eq_some_iff.mp h
  refine ⟨attested, hattested, ?_⟩
  cases includeExtensionData with
  | false =>
    obtain rfl := Option.some.inj hout
    simp [onlyIf]
  | true =>
    simp only [Bool.not_true, Bool.false_eq_true, if_false] at hout
    split_ifs at hout with hroom
    obtain rfl := Option.some.inj hout
    simp [onlyIf]

theorem attestedData_parts {room : ℕ} {attested : Bytes}
    (h : attestedData record cose room = some attested) :
    ∃ credential, record = some credential ∧
      attested = aaguid ++ toBigEndian 2 credential.credentialId.length ++
        credential.credentialId ++ cose := by
  cases record with
  | none => simp [attestedData] at h
  | some credential =>
    unfold attestedData at h
    dsimp only at h
    split_ifs at h with hcose hroom
    exact ⟨credential, rfl, (Option.some.inj h).symm⟩

end AuthData

section MakeCredential

variable {crypto : Crypto} {rpId : Bytes} {record : CredentialRecord}
  {userVerified includeCredProtect includeHmacSecret : Bool} {parts : CredentialParts}

/-- The pairs of a COSE key. -/
def coseKeyPairs (record : CredentialRecord) : List (Cbor.Tree × Cbor.Tree) :=
  [(.int 1, .int 2), (.int 3, .int (-7)), (.int (-1), .int 1), (.int (-2), .bytes record.publicX),
    (.int (-3), .bytes record.publicY)]

theorem encodeCoseKey_form {outCapacity : UInt32} {cose : Bytes}
    (h : encodeCoseKey record outCapacity = some cose) :
    cose = (Cbor.Tree.map (coseKeyPairs record)).encoding := by
  obtain ⟨rfl, -⟩ := (encodeAll_yields _).encodeInto h
  simp only [p256CoseKeyMembers, membersBytes_cons, membersBytes_nil, Primitive.encoding,
    coseKeyPairs, Cbor.Tree.encoding, pairEncodings, List.append_nil]
  rfl

/-- The pairs of the extension outputs. -/
def extensionPairs (credProtect : UInt8)
    (includeCredProtect includeHmacSecret hmacSecretCreated : Bool) :
    List (Cbor.Tree × Cbor.Tree) :=
  onlyIf includeCredProtect
      [(.text (literal "credProtect"),
        .uint (UInt64.ofNat (credProtectEffective credProtect.toNat)))] ++
    onlyIf includeHmacSecret [(.text (literal "hmac-secret"), .bool hmacSecretCreated)]

theorem encodeMakeCredentialExtensions_form {credProtect : UInt8} {hmacSecretCreated : Bool}
    {outCapacity : UInt32} {extensionData : Bytes}
    (h : encodeMakeCredentialExtensions credProtect includeCredProtect includeHmacSecret
      hmacSecretCreated outCapacity = some extensionData) :
    extensionData = (Cbor.Tree.map (extensionPairs credProtect includeCredProtect includeHmacSecret
      hmacSecretCreated)).encoding := by
  have hprotect : (UInt64.ofNat (credProtectEffective credProtect.toNat)).toNat =
      credProtectEffective credProtect.toNat := by
    have := credProtect.toNat_lt
    refine UInt64.toNat_ofNat_of_lt' (lt_of_le_of_lt (b := 2 ^ 8) ?_ (by decide))
    unfold credProtectEffective credProtectUvOptional
    split_ifs <;> omega
  obtain ⟨rfl, -⟩ := (encodeAll_yields _).encodeInto h
  simp only [extensionPairs, Cbor.Tree.encoding, membersBytes_append, membersBytes_onlyIf,
    membersBytes_cons, membersBytes_nil, Primitive.encoding, pairEncodings_append,
    pairEncodings_onlyIf, pairEncodings, List.length_append, length_onlyIf, List.length_singleton,
    List.append_nil, List.append_assoc, hprotect]

/-- What was prepared before the response is written. -/
theorem credentialParts_form
    (h : credentialParts record includeCredProtect includeHmacSecret = some parts) :
    parts.cose = (Cbor.Tree.map (coseKeyPairs record)).encoding ∧
      parts.extensionData =
        onlyIf (includeCredProtect || includeHmacSecret)
          (Cbor.Tree.map (extensionPairs (UInt8.ofNat record.credProtect) includeCredProtect
            includeHmacSecret record.hmacSecret)).encoding ∧
      record.credentialId.length < 2 ^ 16 := by
  unfold credentialParts credentialExtensionData at h
  obtain ⟨extensionData, hextension, h⟩ := Option.bind_eq_some_iff.mp h
  obtain ⟨cose, hcose, h⟩ := Option.bind_eq_some_iff.mp h
  obtain ⟨authDataLen, hsize, h⟩ := Option.bind_eq_some_iff.mp h
  obtain rfl := Option.some.inj h
  refine ⟨encodeCoseKey_form hcose, ?_, ?_⟩
  · by_cases hinclude : (includeCredProtect || includeHmacSecret) = true
    · rw [if_pos hinclude] at hextension
      rw [hinclude]
      exact encodeMakeCredentialExtensions_form hextension
    · rw [if_neg hinclude] at hextension
      obtain rfl := Option.some.inj hextension
      rw [Bool.not_eq_true] at hinclude
      rw [hinclude]
      rfl
  · unfold makeCredentialAuthDataSize at hsize
    split_ifs at hsize with hrefused
    omega

/-- The authenticator data of a new credential, in its parts. -/
def credentialData (crypto : Crypto) (rpId : Bytes) (record : CredentialRecord)
    (userVerified includeCredProtect includeHmacSecret : Bool) : AuthenticatorData where
  rpIdHash := crypto.sha256 rpId
  flags := authDataFlags true userVerified true (includeCredProtect || includeHmacSecret)
  signCount := UInt32.ofNat record.signCount
  attested := some ⟨aaguid, record.credentialId, coseKeyPairs record⟩
  extensions := onlyIf (includeCredProtect || includeHmacSecret)
    (Cbor.Tree.map (extensionPairs (UInt8.ofNat record.credProtect) includeCredProtect
      includeHmacSecret record.hmacSecret)).encoding

theorem credentialData_wellFormed (hsha256 : ∀ data, (crypto.sha256 data).length = 32)
    (hid : record.credentialId.length < 2 ^ 16) :
    (credentialData crypto rpId record userVerified includeCredProtect
      includeHmacSecret).WellFormed := by
  obtain ⟨hattested, hextension⟩ :=
    authDataFlags_bits true userVerified true (includeCredProtect || includeHmacSecret)
  constructor
  · exact hsha256 rpId
  · exact hattested.trans (by simp [credentialData])
  · refine hextension.trans ?_
    rw [credentialData]
    cases includeCredProtect || includeHmacSecret with
    | false => simp [onlyIf]
    | true => simpa [onlyIf] using List.length_pos_iff.mp (Cbor.Tree.length_encoding_pos _)
  · intro attested hattested
    obtain rfl := Option.some.inj hattested
    exact ⟨rfl, hid⟩

theorem credentialAuthData_bytes {outCapacity : ℕ} {authData : Bytes}
    (hparts : credentialParts record includeCredProtect includeHmacSecret = some parts)
    (h : credentialAuthData crypto rpId record userVerified includeCredProtect includeHmacSecret
      parts outCapacity = some authData) :
    authData = (credentialData crypto rpId record userVerified includeCredProtect
      includeHmacSecret).bytes := by
  obtain ⟨hcose, hextension, -⟩ := credentialParts_form hparts
  obtain ⟨attested, hattested, rfl⟩ := buildAuthData_parts h
  obtain ⟨credential, hcredential, rfl⟩ := attestedData_parts (by simpa using hattested)
  obtain rfl := Option.some.inj hcredential
  rw [hcose, hextension]
  cases hinclude : includeCredProtect || includeHmacSecret <;>
    simp [AuthenticatorData.bytes, credentialData, AttestedCredential.bytes, hinclude, onlyIf]

/-- The map that a makeCredential builder has written, whatever its statement is. -/
theorem credentialResponse_form {outCapacity : UInt32} {out format : Bytes} {statement : Cbor.Tree}
    (hsha256 : ∀ data, (crypto.sha256 data).length = 32)
    (hid : record.credentialId.length < 2 ^ 16)
    (hout : out = (Cbor.Tree.map [(.uint 1, .text format),
      (.uint 2, .bytes (credentialData crypto rpId record userVerified includeCredProtect
        includeHmacSecret).bytes), (.uint 3, statement)]).encoding)
    (hlength : out.length ≤ outCapacity.toNat) : IsCredentialResponse out outCapacity := by
  have hkeys : ([1, 2, 3] : List UInt64).Pairwise (· < ·) := by decide
  refine ⟨[(1, .text format), (2, .bytes _), (3, statement)], ⟨hout, hkeys, hlength⟩,
    credentialData crypto rpId record userVerified includeCredProtect includeHmacSecret,
    credentialData_wellFormed hsha256 hid, ⟨rfl, ?_⟩, by simp⟩
  rw [credentialData]
  cases includeCredProtect || includeHmacSecret with
  | false => simp [onlyIf]
  | true => exact fun _ ↦ ⟨_, rfl⟩

/-- The calls that the two builders share, when they succeed. -/
theorem encodeCredentialStart_yields {format : Bytes} {enc : EncoderBuffer}
    (hparts : credentialParts record includeCredProtect includeHmacSecret = some parts)
    (hsuccess : (encodeCredentialStart crypto rpId record userVerified includeCredProtect
      includeHmacSecret format parts enc).1 = true) :
    (encodeCredentialStart crypto rpId record userVerified includeCredProtect includeHmacSecret
      format parts).Yields
      (membersBytes [.map 3, .uint 1, .text format, .uint 2, .bytes (credentialData crypto rpId
        record userVerified includeCredProtect includeHmacSecret).bytes]) := by
  cases hbuild : credentialAuthData crypto rpId record userVerified includeCredProtect
      includeHmacSecret parts parts.authDataLen with
  | none =>
    obtain ⟨-, hbuilt⟩ := Call.andThen_success hsuccess
    rw [encodeBuilt_of_none hbuild] at hbuilt
    exact absurd hbuilt Bool.false_ne_true
  | some authData =>
    obtain rfl := credentialAuthData_bytes hparts hbuild
    exact (encodeAll_yields _).andThen (encodeBuilt_yields hbuild) |>.congr (by simp
      [membersBytes_cons, membersBytes_nil, Primitive.encoding])

variable {memory : ℕ → UInt8} {outCapacity : UInt32} {out : Bytes}

theorem buildNoneMakeCredentialResponse_form (hsha256 : ∀ data, (crypto.sha256 data).length = 32)
    (h : buildNoneMakeCredentialResponse crypto rpId record userVerified includeCredProtect
      includeHmacSecret memory outCapacity = .ok out) : IsCredentialResponse out outCapacity := by
  unfold buildNoneMakeCredentialResponse at h
  cases hparts : credentialParts record includeCredProtect includeHmacSecret with
  | none => simp [hparts] at h
  | some parts =>
    cases hinit : EncoderBuffer.init memory outCapacity with
    | none => simp [hparts, hinit] at h
    | some enc =>
      cases hrun : (encodeCredentialStart crypto rpId record userVerified includeCredProtect
          includeHmacSecret (literal "none") parts).andThen (encodeAll [.uint 3, .map 0]) enc with
      | mk success after =>
        cases success with
        | false => simp [hparts, hinit, hrun] at h
        | true =>
          obtain rfl : after.written = out := by simpa [hparts, hinit, hrun] using h
          have hstart := (Call.andThen_success (congrArg Prod.fst hrun)).1
          obtain ⟨hwritten, hlength⟩ := ((encodeCredentialStart_yields hparts hstart).andThen
            (encodeAll_yields [.uint 3, .map 0])).fresh hinit hrun
          rw [← hwritten] at hlength
          refine @credentialResponse_form crypto rpId record userVerified includeCredProtect
            includeHmacSecret outCapacity _ (literal "none") (.map []) hsha256
            (credentialParts_form hparts).2.2 (hwritten.trans ?_) hlength
          simp [membersBytes_cons, membersBytes_nil, Primitive.encoding, Cbor.Tree.encoding,
            pairEncodings]

/-- The attestation statement, with the certificate that was loaded. -/
def packedStatement (signature certificate : Bytes) : Cbor.Tree :=
  .map [(.text (literal "alg"), .int (-7)), (.text (literal "sig"), .bytes signature),
    (.text (literal "x5c"), .array [.bytes certificate])]

theorem encodePackedStatement_yields {attestation : Attestation} {signature : Bytes} {certLen : ℕ}
    {enc : EncoderBuffer}
    (hsuccess : (encodePackedStatement attestation signature certLen enc).1 = true) :
    ∃ certificate, (encodePackedStatement attestation signature certLen).Yields
      (headBytes majorUint 3 ++ (packedStatement signature certificate).encoding) := by
  cases hload : attestation.loadLeafCertDer certLen with
  | none =>
    obtain ⟨-, hbuilt⟩ := Call.andThen_success hsuccess
    rw [encodeBuilt_of_none hload] at hbuilt
    exact absurd hbuilt Bool.false_ne_true
  | some certificate =>
    refine ⟨certificate, ((encodeAll_yields _).andThen (encodeBuilt_yields hload)).congr ?_⟩
    simp only [membersBytes_cons, membersBytes_nil, Primitive.encoding, packedStatement,
      Cbor.Tree.encoding, pairEncodings, encodings, List.append_assoc, List.append_nil]
    rfl

/-- The stages that a successful packed builder has gone through. -/
theorem buildPackedMakeCredentialResponse_ok {attestation : Attestation} {clientDataHash : Bytes}
    (h : buildPackedMakeCredentialResponse crypto rpId record userVerified includeCredProtect
      includeHmacSecret attestation clientDataHash memory outCapacity = .ok out) :
    ∃ parts enc middle after certLen signature,
      credentialParts record includeCredProtect includeHmacSecret = some parts ∧
      EncoderBuffer.init memory outCapacity = some enc ∧
      encodeCredentialStart crypto rpId record userVerified includeCredProtect includeHmacSecret
        (literal "packed") parts enc = (true, middle) ∧
      encodePackedStatement attestation signature certLen middle = (true, after) ∧
      after.written = out := by
  unfold buildPackedMakeCredentialResponse at h
  cases hparts : credentialParts record includeCredProtect includeHmacSecret with
  | none => simp [hparts] at h
  | some parts =>
    cases hinit : EncoderBuffer.init memory outCapacity with
    | none => simp [hparts, hinit] at h
    | some enc =>
      simp only [hparts, hinit] at h
      cases hstart : encodeCredentialStart crypto rpId record userVerified includeCredProtect
          includeHmacSecret (literal "packed") parts enc with
      | mk success middle =>
        cases success with
        | false => simp [hstart] at h
        | true =>
          simp only [hstart] at h
          cases hsignature : packedSignature attestation
              (middle.written.drop (middle.offset - parts.authDataLen)) clientDataHash with
          | none => simp [hsignature] at h
          | some found =>
            obtain ⟨certLen, signature⟩ := found
            simp only [hsignature] at h
            cases hrest : encodePackedStatement attestation signature certLen middle with
            | mk success after =>
              cases success with
              | false => simp [hrest] at h
              | true =>
                have hout : after.written = out := by simpa [hrest] using h
                exact ⟨parts, enc, middle, after, certLen, signature, rfl, rfl, hstart, hrest,
                  hout⟩

theorem buildPackedMakeCredentialResponse_form {attestation : Attestation}
    {clientDataHash : Bytes} (hsha256 : ∀ data, (crypto.sha256 data).length = 32)
    (h : buildPackedMakeCredentialResponse crypto rpId record userVerified includeCredProtect
      includeHmacSecret attestation clientDataHash memory outCapacity = .ok out) :
    IsCredentialResponse out outCapacity := by
  obtain ⟨parts, enc, middle, after, certLen, signature, hparts, hinit, hstart, hrest, rfl⟩ :=
    buildPackedMakeCredentialResponse_ok h
  have hboth : (encodeCredentialStart crypto rpId record userVerified includeCredProtect
      includeHmacSecret (literal "packed") parts).andThen
      (encodePackedStatement attestation signature certLen) enc = (true, after) := by
    rw [Call.andThen_of_success (congrArg Prod.fst hstart), hstart, hrest]
  obtain ⟨certificate, hyields⟩ := encodePackedStatement_yields (congrArg Prod.fst hrest)
  obtain ⟨hwritten, hlength⟩ := ((encodeCredentialStart_yields hparts
    (congrArg Prod.fst hstart)).andThen hyields).fresh hinit hboth
  rw [← hwritten] at hlength
  refine @credentialResponse_form crypto rpId record userVerified includeCredProtect
    includeHmacSecret outCapacity _ (literal "packed") (packedStatement signature certificate)
    hsha256 (credentialParts_form hparts).2.2 (hwritten.trans ?_) hlength
  simp [membersBytes_cons, membersBytes_nil, Primitive.encoding, Cbor.Tree.encoding, pairEncodings]

end MakeCredential

end ZeroFido.Ctap
