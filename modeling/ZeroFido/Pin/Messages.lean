import ZeroFido.Cbor.Chains
import ZeroFido.Pin.ClientPin
import Mathlib.Data.List.Nodup

/-!
# The messages of the clientPIN command

What a platform writes for the parser of `pin/client_pin/parse.c` and reads from the encoders of
`pin/client_pin/response.c`. A request is a map with one pair for each of its fields, in any order,
and the parser gets every field from it (`clientPinParseRequest_of_perm`). A COSE key is read
back from what the encoder wrote (`parseCoseP256KeyAgreement_coseKeyBytes`).
-/

set_option autoImplicit false
set_option relaxedAutoImplicit false

namespace ZeroFido.Pin

open Foundations Storage Cbor Ctap

section CoseKeys

/-- The bytes of a COSE key for key agreement. -/
def coseKeyBytes (x y : Bytes) : Bytes := membersBytes (p256CoseKeyMembers (-25) x y)

variable {x y : Bytes}

/-- A pair of a COSE key whose value is a fixed integer. -/
theorem readCosePair_int {key value : ℤ} {fields : CoseKeyFields} (rest : Bytes)
    (hpair : key = 1 ∧ value = 2 ∧ fields.kty = false ∨ key = 3 ∧ value = -25 ∧ fields.alg = false ∨
      key = -1 ∧ value = 1 ∧ fields.crv = false) :
    readCosePair fields (intBytes key ++ (intBytes value ++ rest)) =
      some (if key = 1 then { fields with kty := true }
        else if key = 3 then { fields with alg := true }
        else { fields with crv := true }, rest) := by
  have hkey : -2 ^ 63 ≤ key ∧ key ≤ int64Max := by
    have hmax : (int64Max : ℤ) = 2 ^ 63 - 1 := rfl
    omega
  have hvalue : -2 ^ 63 ≤ value ∧ value ≤ int64Max := by
    have hmax : (int64Max : ℤ) = 2 ^ 63 - 1 := rfl
    omega
  rw [readCosePair, readInt_intBytes _ hkey]
  dsimp only [Option.bind_eq_bind, Option.bind_some]
  simp only [readCoseInt, readInt_intBytes rest hvalue]
  rcases hpair with ⟨rfl, rfl, hunseen⟩ | ⟨rfl, rfl, hunseen⟩ | ⟨rfl, rfl, hunseen⟩ <;>
    simp [hunseen]

/-- A pair of a COSE key whose value is a coordinate. -/
theorem readCosePair_coordinate {key : ℤ} {value : Bytes} {fields : CoseKeyFields} (rest : Bytes)
    (hvalue : value.length = publicKeyLen)
    (hpair : key = -2 ∧ fields.x = none ∨ key = -3 ∧ fields.y = none) :
    readCosePair fields (intBytes key ++ (stringBytes majorBytes value ++ rest)) =
      some (if key = -2 then { fields with x := some value } else { fields with y := some value },
        rest) := by
  have hkey : -2 ^ 63 ≤ key ∧ key ≤ int64Max := by
    have hmax : (int64Max : ℤ) = 2 ^ 63 - 1 := rfl
    omega
  have hlength : value.length < 2 ^ 64 := by
    rw [hvalue]
    decide
  rw [readCosePair, readInt_intBytes _ hkey]
  dsimp only [Option.bind_eq_bind, Option.bind_some]
  simp only [readCoseCoordinate, cborReadBytesCopy, readBytes_stringBytes rest hlength]
  rcases hpair with ⟨rfl, hunseen⟩ | ⟨rfl, hunseen⟩ <;> simp [hunseen, hvalue]

/-- A key is read back from its encoding. -/
theorem parseCoseP256KeyAgreement_coseKeyBytes (hx : x.length = publicKeyLen)
    (hy : y.length = publicKeyLen) (rest : Bytes) :
    parseCoseP256KeyAgreement (coseKeyBytes x y ++ rest) = some ((x, y), rest) := by
  have hpairs : readCosePairs 5 {} (intBytes 1 ++ (intBytes 2 ++ (intBytes 3 ++ (intBytes (-25) ++
      (intBytes (-1) ++ (intBytes 1 ++ (intBytes (-2) ++ (stringBytes majorBytes x ++
        (intBytes (-3) ++ (stringBytes majorBytes y ++ rest)))))))))) =
      some ({ kty := true, alg := true, crv := true, x := some x, y := some y }, rest) := by
    simp [readCosePairs, readCosePair_int, readCosePair_coordinate, hx, hy]
  simp only [coseKeyBytes, p256CoseKeyMembers, membersBytes, List.flatMap_cons, List.flatMap_nil,
    Primitive.encoding, List.append_assoc, List.append_nil]
  rw [parseCoseP256KeyAgreement, readMapStart_headBytes _ (by decide)]
  simp [hpairs]

end CoseKeys

section Requests

/-- A field of a request. -/
inductive RequestField where
  | pinProtocol (value : ℕ)
  | subcommand (value : ℕ)
  | keyAgreement (x y : Bytes)
  | pinAuth (data : Bytes)
  | newPinEnc (data : Bytes)
  | pinHashEnc (data : Bytes)
  | permissions (value : UInt64)
  | rpId (text : Bytes)
  deriving DecidableEq, Repr

namespace RequestField

/-- The key of a field in the request map. -/
def key : RequestField → ℕ
  | pinProtocol _ => 1
  | subcommand _ => 2
  | keyAgreement _ _ => 3
  | pinAuth _ => 4
  | newPinEnc _ => 5
  | pinHashEnc _ => 6
  | permissions _ => 9
  | rpId _ => 10

/-- The bytes of a field's value. -/
def encoding : RequestField → Bytes
  | pinProtocol value | subcommand value => headBytes majorUint value
  | keyAgreement x y => coseKeyBytes x y
  | pinAuth data | newPinEnc data | pinHashEnc data => stringBytes majorBytes data
  | permissions value => headBytes majorUint value.toNat
  | rpId text => stringBytes majorText text

/-- A value that the parser has room for. -/
def Fits : RequestField → Prop
  | pinProtocol value | subcommand value => value < 2 ^ 64
  | keyAgreement x y => x.length = publicKeyLen ∧ y.length = publicKeyLen
  | pinAuth data => data.length ≤ pinAuthMaxLen
  | newPinEnc data => data.length ≤ pinEncryptedNewPinMaxLen
  | pinHashEnc data => data.length ≤ pinEncryptedHashMaxLen
  | permissions _ => True
  | rpId text => text.length < maxRpIdLen ∧ utf8IsValid text = true ∧ 0 ∉ text

/-- The request with the field in it. -/
def store (request : ClientPinRequest) : RequestField → ClientPinRequest
  | pinProtocol value => { request with pinProtocol := value, hasPinProtocol := true }
  | subcommand value => { request with subcommand := value, hasSubcommand := true }
  | keyAgreement x y =>
    { request with platformX := x, platformY := y, hasKeyAgreement := true }
  | pinAuth data => { request with pinAuth := data, hasPinAuth := true }
  | newPinEnc data => { request with newPinEnc := data, hasNewPinEnc := true }
  | pinHashEnc data => { request with pinHashEnc := data, hasPinHashEnc := true }
  | permissions value => { request with permissions := value, hasPermissions := true }
  | rpId text => { request with rpId := text, hasRpId := true }

theorem key_lt (field : RequestField) : field.key < 16 := by
  cases field <;> simp [key]

theorem store_comm {first second : RequestField} (h : first.key ≠ second.key)
    (request : ClientPinRequest) :
    store (store request first) second = store (store request second) first := by
  cases first <;> cases second <;> first | rfl | exact absurd rfl h

end RequestField

/-- The bytes of a request with these fields. -/
def requestBytes (fields : List RequestField) : Bytes :=
  headBytes majorMap fields.length ++
    fields.flatMap fun field ↦ headBytes majorUint field.key ++ field.encoding

/-- The request that has these fields. -/
def requestOf (fields : List RequestField) : ClientPinRequest :=
  fields.foldl RequestField.store {}

variable {field : RequestField} {fields : List RequestField} {request : ClientPinRequest}

theorem cborReadBytesCopy_stringBytes {data : Bytes} {capacity : ℕ} (rest : Bytes)
    (hdata : data.length ≤ capacity) (hcapacity : capacity < 2 ^ 64) :
    cborReadBytesCopy (stringBytes majorBytes data ++ rest) capacity = some (data, rest) := by
  rw [cborReadBytesCopy, readBytes_stringBytes rest (by omega)]
  simp [Nat.not_lt.mpr hdata]

theorem cborReadTextCopy_stringBytes {text : Bytes} {size : ℕ} (rest : Bytes)
    (htext : text.length < size) (hvalid : utf8IsValid text = true) (hzero : 0 ∉ text)
    (hsize : size < 2 ^ 64) :
    cborReadTextCopy (stringBytes majorText text ++ rest) size = some (text, rest) := by
  rw [cborReadTextCopy, readText_stringBytes rest (by omega) hvalid]
  simp [hzero, htext]

/-- The parser gets a field from its key and value. -/
theorem parseValue_encoding (hfits : field.Fits) (rest : Bytes) :
    parseValue request field.key (field.encoding ++ rest) = some (field.store request, rest) := by
  cases field with
  | pinProtocol value =>
    simp [parseValue, RequestField.key, RequestField.encoding, RequestField.store,
      readUint_headBytes rest hfits]
  | subcommand value =>
    simp [parseValue, RequestField.key, RequestField.encoding, RequestField.store,
      readUint_headBytes rest hfits]
  | keyAgreement x y =>
    simp [parseValue, RequestField.key, RequestField.encoding, RequestField.store,
      parseCoseP256KeyAgreement_coseKeyBytes hfits.1 hfits.2 rest]
  | pinAuth data =>
    simp [parseValue, RequestField.key, RequestField.encoding, RequestField.store,
      cborReadBytesCopy_stringBytes rest hfits (by decide)]
  | newPinEnc data =>
    simp [parseValue, RequestField.key, RequestField.encoding, RequestField.store,
      cborReadBytesCopy_stringBytes rest hfits (by decide)]
  | pinHashEnc data =>
    simp [parseValue, RequestField.key, RequestField.encoding, RequestField.store,
      cborReadBytesCopy_stringBytes rest hfits (by decide)]
  | permissions value =>
    simp [parseValue, RequestField.key, RequestField.encoding, RequestField.store,
      readUint_headBytes rest value.toNat_lt]
  | rpId text =>
    simp [parseValue, RequestField.key, RequestField.encoding, RequestField.store,
      cborReadTextCopy_stringBytes rest hfits.1 hfits.2.1 hfits.2.2 (by decide)]

/-- The loop of the parser over fields with different keys. -/
theorem parsePairs_fields (hfits : ∀ field ∈ fields, field.Fits)
    (hkeys : (fields.map RequestField.key).Nodup) (seenKeys : List ℕ)
    (hunseen : ∀ field ∈ fields, field.key ∉ seenKeys) (request : ClientPinRequest) (rest : Bytes) :
    parsePairs fields.length seenKeys request
        ((fields.flatMap fun field ↦ headBytes majorUint field.key ++ field.encoding) ++ rest) =
      some (fields.foldl RequestField.store request, rest) := by
  induction fields generalizing seenKeys request with
  | nil => rfl
  | cons field fields ih =>
    have hkey : field.key < 2 ^ 64 := lt_trans field.key_lt (by decide)
    have hmark : markSeenKey seenKeys field.key = some (field.key :: seenKeys) := by
      have hnew := hunseen field List.mem_cons_self
      rw [markSeenKey, if_neg (Nat.not_le.mpr field.key_lt), if_neg hnew]
    have hlater : ∀ other ∈ fields, other.key ∉ field.key :: seenKeys := by
      intro other hother hmem
      rcases List.mem_cons.mp hmem with hsame | hseen
      · rw [List.map_cons, List.nodup_cons, ← hsame] at hkeys
        exact hkeys.1 (List.mem_map_of_mem hother)
      · exact hunseen other (List.mem_cons_of_mem _ hother) hseen
    rw [List.map_cons, List.nodup_cons] at hkeys
    rw [List.flatMap_cons, List.append_assoc, List.append_assoc, List.length_cons, parsePairs,
      readUint_headBytes _ hkey]
    dsimp only [Option.bind_eq_bind, Option.bind_some]
    rw [hmark, Option.bind_some, parseValue_encoding (hfits field List.mem_cons_self),
      Option.bind_some]
    exact ih (fun other hother ↦ hfits other (List.mem_cons_of_mem _ hother)) hkeys.2 _ hlater _

/-- A request in which no field is missing that the parser asks for. -/
structure Acceptable (request : ClientPinRequest) : Prop where
  hasSubcommand : request.hasSubcommand = true
  pinProtocol : request.hasPinProtocol = true →
    request.pinProtocol = pinProtocolV1 ∨ request.pinProtocol = pinProtocolV2
  hasPinProtocol : subcommandRequiresPinProtocol request.subcommand = true →
    request.hasPinProtocol = true

/-- The parser gets the request that a platform wrote, whatever the order of its fields. -/
theorem clientPinParseRequest_requestBytes (hfits : ∀ field ∈ fields, field.Fits)
    (hkeys : (fields.map RequestField.key).Nodup) (hcount : fields.length ≤ sizeMax)
    (h : Acceptable (requestOf fields)) :
    clientPinParseRequest (requestBytes fields) = .ok (requestOf fields) := by
  have hpairs : parsePairs fields.length [] {} (fields.flatMap fun field ↦
      headBytes majorUint field.key ++ field.encoding) = some (requestOf fields, []) := by
    have hloop := parsePairs_fields hfits hkeys [] (by simp) {} []
    rwa [List.append_nil] at hloop
  rw [clientPinParseRequest, requestBytes, readMapStart_headBytes _ hcount]
  dsimp only [Option.bind_some]
  rw [hpairs]
  dsimp only
  have hprotocol : ¬((requestOf fields).hasPinProtocol &&
      (requestOf fields).pinProtocol != pinProtocolV1 &&
        (requestOf fields).pinProtocol != pinProtocolV2) = true := by
    intro hbad
    simp only [Bool.and_eq_true, bne_iff_ne] at hbad
    rcases h.pinProtocol hbad.1.1 with hone | htwo
    · exact hbad.1.2 hone
    · exact hbad.2 htwo
  have hpresent : ¬(subcommandRequiresPinProtocol (requestOf fields).subcommand &&
      !(requestOf fields).hasPinProtocol) = true := by
    intro hbad
    simp only [Bool.and_eq_true, Bool.not_eq_true'] at hbad
    exact absurd (h.hasPinProtocol hbad.1) (by rw [hbad.2]; exact Bool.false_ne_true)
  rw [if_neg (by simp [h.hasSubcommand]), if_neg hprotocol, if_neg hpresent]
  rfl

/-- A request for a token with permissions, its fields out of order. -/
def tokenFields : List RequestField :=
  [.rpId [0x61], .permissions 3, .pinHashEnc (zeroBytes 16),
    .keyAgreement (zeroBytes publicKeyLen) (zeroBytes publicKeyLen), .subcommand 9, .pinProtocol 1]

/-- What a platform writes of a request is read back, in whatever order its fields are sent. -/
theorem clientPinParseRequest_of_perm {sent : List RequestField} (hsent : sent.Perm fields)
    (hfits : ∀ field ∈ fields, field.Fits) (hkeys : (fields.map RequestField.key).Nodup)
    (hcount : fields.length ≤ sizeMax) (h : Acceptable (requestOf fields)) :
    clientPinParseRequest (requestBytes sent) = .ok (requestOf fields) := by
  have hsame : requestOf sent = requestOf fields := by
    refine hsent.foldl_eq' (fun first hfirst second hsecond request ↦ ?_) ({} : ClientPinRequest)
    by_cases hkey : first.key = second.key
    · have hinjective := List.inj_on_of_nodup_map hkeys
      rw [hinjective (hsent.subset hfirst) (hsent.subset hsecond) hkey]
    · exact RequestField.store_comm hkey request
  rw [← hsame] at h ⊢
  refine clientPinParseRequest_requestBytes (fun field hfield ↦ hfits field (hsent.subset hfield))
    ((hsent.map _).nodup_iff.mpr hkeys) ?_ h
  rw [hsent.length_eq]
  exact hcount

theorem clientPinParseRequest_of_perm_token :
    clientPinParseRequest (requestBytes tokenFields.reverse) =
      .ok { subcommand := 9, hasSubcommand := true, pinProtocol := 1, hasPinProtocol := true,
            platformX := zeroBytes publicKeyLen, platformY := zeroBytes publicKeyLen,
            hasKeyAgreement := true, pinHashEnc := zeroBytes 16, hasPinHashEnc := true,
            permissions := 3, hasPermissions := true, rpId := [0x61], hasRpId := true } := by
  have hfits : ∀ field ∈ tokenFields, field.Fits := by
    simp only [tokenFields, List.forall_mem_cons, RequestField.Fits, List.not_mem_nil,
      false_implies, implies_true]
    decide +kernel
  exact clientPinParseRequest_of_perm (List.reverse_perm tokenFields) hfits (by decide) (by decide)
    ⟨rfl, fun _ ↦ Or.inl rfl, fun _ ↦ rfl⟩

end Requests

section Responses

/-- What a platform reads from the response to getKeyAgreement. -/
def readKeyAgreement (response : Bytes) : Option (Bytes × Bytes) := do
  let (pairs, cursor) ← readMapStart response
  let (key, cursor) ← readUint cursor
  let (point, cursor) ← parseCoseP256KeyAgreement cursor
  if pairs = 1 ∧ key = 1 ∧ cursor = [] then some point else none

/-- The encrypted token that a platform reads from a response. -/
def readEncryptedToken (response : Bytes) : Option Bytes := do
  let (pairs, cursor) ← readMapStart response
  let (key, cursor) ← readUint cursor
  let (token, cursor) ← readBytes cursor
  if pairs = 1 ∧ key = 2 ∧ cursor = [] then some token else none

variable {x y token : Bytes} {outCapacity : ℕ}

theorem append_bind {Value : Type} (enc : Encoder) (first second : Bytes)
    (next : Encoder → Option Value) :
    ((enc.append first).bind fun enc ↦ (enc.append second).bind next) =
      (enc.append (first ++ second)).bind next := by
  rw [← Encoder.append_append, Option.bind_assoc]

/-- The encoder of keys appends the bytes of a key. -/
theorem p256CoseKey_eq_append (enc : Encoder) (x y : Bytes) :
    enc.p256CoseKey (-25) x y = enc.append (coseKeyBytes x y) := by
  have hint : ∀ (enc : Encoder) (value : ℤ), enc.int value = enc.append (intBytes value) := by
    intro enc value
    unfold Encoder.int intBytes
    split_ifs <;> rfl
  simp only [Encoder.p256CoseKey, Encoder.map, Encoder.head, Encoder.bytes,
    Encoder.string_eq_append, hint, Option.bind_eq_bind, Encoder.append_append, coseKeyBytes,
    p256CoseKeyMembers, membersBytes, List.flatMap_cons, List.flatMap_nil, Primitive.encoding,
    List.append_nil]

theorem length_coseKeyBytes (hx : x.length = publicKeyLen) (hy : y.length = publicKeyLen) :
    (coseKeyBytes x y).length = 78 := by
  have hint : ∀ value : ℤ, (intBytes value).length =
      if 0 ≤ value then headRoom value.toNat else headRoom (-1 - value).toNat := by
    intro value
    unfold intBytes
    split_ifs <;> exact length_headBytes _ _
  simp only [coseKeyBytes, p256CoseKeyMembers, membersBytes, List.flatMap_cons, List.flatMap_nil,
    Primitive.encoding, List.length_append, stringBytes, length_headBytes, hint, hx, hy]
  decide

/-- The platform reads the authenticator's public key from the response. -/
theorem readKeyAgreement_responseKeyAgreement {state : ClientPinState}
    (hx : state.keyAgreement.publicX.length = publicKeyLen)
    (hy : state.keyAgreement.publicY.length = publicKeyLen) (hcapacity : 80 ≤ outCapacity) :
    ∃ response, responseKeyAgreement state outCapacity = some response ∧
      readKeyAgreement response =
        some (state.keyAgreement.publicX, state.keyAgreement.publicY) := by
  have hpositive : ¬outCapacity = 0 := by omega
  have hroom : ([] ++ (headBytes majorMap 1 ++ (headBytes majorUint 1 ++
      coseKeyBytes state.keyAgreement.publicX state.keyAgreement.publicY))).length ≤
      outCapacity := by
    simp only [List.nil_append, List.length_append, length_coseKeyBytes hx hy, length_headBytes]
    exact hcapacity
  refine ⟨headBytes majorMap 1 ++ (headBytes majorUint 1 ++
    coseKeyBytes state.keyAgreement.publicX state.keyAgreement.publicY), ?_, ?_⟩
  · rw [responseKeyAgreement, encoderInit, if_neg hpositive]
    simp only [Option.bind_eq_bind, Option.bind_some, Encoder.map, Encoder.uint, Encoder.head,
      p256CoseKey_eq_append, append_bind]
    rw [@Encoder.append_eq_some ⟨outCapacity, []⟩ _ hroom]
    rfl
  · have hkey := parseCoseP256KeyAgreement_coseKeyBytes hx hy []
    rw [List.append_nil] at hkey
    rw [readKeyAgreement, readMapStart_headBytes _ (by decide)]
    simp only [Option.bind_eq_bind, Option.bind_some]
    rw [readUint_headBytes _ (by decide)]
    simp [hkey]

/-- The platform reads the encrypted token from the response. -/
theorem readEncryptedToken_responseToken (htoken : token.length ≠ 0)
    (hsize : token.length ≤ pinEncryptedTokenMaxLen) (hcapacity : 52 ≤ outCapacity) :
    ∃ response, responseToken token outCapacity = some response ∧
      readEncryptedToken response = some token := by
  have hpositive : ¬outCapacity = 0 := by omega
  have hroom : ([] ++ (headBytes majorMap 1 ++ (headBytes majorUint 2 ++
      stringBytes majorBytes token))).length ≤ outCapacity := by
    have hstring : (stringBytes majorBytes token).length ≤ 50 := length_stringBytes_le hsize
    have hmap : (headBytes majorMap 1).length = 1 := by decide
    have hkey : (headBytes majorUint 2).length = 1 := by decide
    simp only [List.nil_append, List.length_append, hmap, hkey]
    omega
  refine ⟨headBytes majorMap 1 ++ (headBytes majorUint 2 ++ stringBytes majorBytes token), ?_, ?_⟩
  · rw [responseToken, responseSingleBytes, if_neg htoken, encoderInit, if_neg hpositive]
    simp only [Option.bind_eq_bind, Option.bind_some, Encoder.map, Encoder.uint, Encoder.head,
      Encoder.bytes, Encoder.string_eq_append, append_bind]
    rw [@Encoder.append_eq_some ⟨outCapacity, []⟩ _ hroom]
    rfl
  · have hbytes := @readBytes_stringBytes token [] (lt_of_le_of_lt hsize (by decide))
    rw [List.append_nil] at hbytes
    rw [readEncryptedToken, readMapStart_headBytes _ (by decide)]
    simp only [Option.bind_eq_bind, Option.bind_some]
    rw [readUint_headBytes _ (by decide)]
    simp [hbytes]

end Responses

end ZeroFido.Pin
