import ZeroFido.Ctap.ParseRequests
import ZeroFido.Pin.ClientPin

/-!
# The order of a request map

Every value parser of the three requests takes one item (the `consumes_` lemmas), and every key has
a part of the request of its own (`putMakeCredential`, `putGetAssertion` and `putClientPin` say
which).

`request_maps_order_free` is the result for the three parsers.
-/

set_option autoImplicit false
set_option relaxedAutoImplicit false

namespace ZeroFido.Ctap

open Cbor Store

section Readers

variable {Value Next : Type} {m n : ℕ} {parser : Parser Value}

theorem consumes_refuseIf (condition : Bool) (status : CtapStatus) :
    Consumes 0 (refuseIf condition status) :=
  consumes_ite (consumes_throw status) (consumes_pure ())

/-- A check in front of a parser. -/
theorem Consumes.refused {condition : Bool} {status : CtapStatus} (h : Consumes n parser) :
    Consumes n (refuseIf condition status >>= fun _ ↦ parser) := by
  rw [← Nat.zero_add n]
  exact (consumes_refuseIf condition status).bind fun _ ↦ h

theorem consumes_cborSkip : Consumes 1 cborSkip := consumes_cborRead exact_skip

/-- A value that is not looked at. -/
theorem consumes_skipped (value : Value) : Consumes 1 (do cborSkip; return value) :=
  consumes_cborSkip.andThen fun _ ↦ consumes_pure value

theorem exact_cborReadTextCopy (outSize : ℕ) : Exact 1 (cborReadTextCopy · outSize) :=
  (exact_readText.checked (fun text ↦ outSize ≤ text.length ∨ 0 ∈ text) id).congr fun cursor ↦ by
    unfold cborReadTextCopy
    cases readText cursor <;> rfl

theorem exact_cborReadBytesCopy (outCapacity : ℕ) : Exact 1 (cborReadBytesCopy · outCapacity) :=
  (exact_readBytes.checked (fun data ↦ outCapacity < data.length) id).congr fun cursor ↦ by
    unfold cborReadBytesCopy
    cases readBytes cursor <;> rfl

theorem exact_cborReadTextDiscard : Exact 1 cborReadTextDiscard :=
  (exact_readText.checked (fun text ↦ 0 ∈ text) fun _ ↦ ()).congr fun cursor ↦ by
    unfold cborReadTextDiscard
    cases readText cursor <;> rfl

theorem exact_readCoseInt (seen : Bool) (expected : ℤ) (fields : CoseKeyFields) :
    Exact 1 fun cursor ↦ (readCoseInt cursor seen expected).bind fun rest ↦ some (fields, rest) :=
  (exact_readInt.checked (fun value ↦ seen ∨ value ≠ expected) fun _ ↦ fields).congr
    fun cursor ↦ by
      unfold readCoseInt
      cases readInt cursor with
      | none => rfl
      | some result =>
        dsimp only [Option.bind_some]
        split_ifs <;> rfl

theorem exact_readCoseCoordinate (seen : Bool) (next : Bytes → CoseKeyFields) :
    Exact 1 fun cursor ↦ (readCoseCoordinate cursor seen).bind fun result ↦
      some (next result.1, result.2) :=
  ((exact_cborReadBytesCopy publicKeyLen).checked
    (fun value ↦ seen ∨ value.length ≠ publicKeyLen) next).congr fun cursor ↦ by
      unfold readCoseCoordinate
      cases cborReadBytesCopy cursor publicKeyLen with
      | none => rfl
      | some result =>
        dsimp only [Option.bind_some]
        split_ifs <;> rfl

theorem exact_readCosePair (fields : CoseKeyFields) : Exact 2 (readCosePair fields) := by
  show Exact (1 + 1) _
  unfold readCosePair
  refine exact_readInt.bind fun key ↦ ?_
  dsimp only
  split_ifs
  · exact exact_readCoseInt _ _ _
  · exact exact_readCoseInt _ _ _
  · exact exact_readCoseInt _ _ _
  · exact exact_readCoseCoordinate _ fun value ↦ { fields with x := some value }
  · exact exact_readCoseCoordinate _ fun value ↦ { fields with y := some value }
  · exact exact_none

theorem exact_readCosePairs (pairs : ℕ) (fields : CoseKeyFields) :
    Exact (2 * pairs) (readCosePairs pairs fields) := by
  induction pairs generalizing fields with
  | zero => exact exact_some fields
  | succ pairs ih =>
    rw [Nat.mul_succ, Nat.add_comm]
    exact (exact_readCosePair fields).bind fun next ↦ ih next

theorem exact_parseCoseP256KeyAgreement : Exact 1 parseCoseP256KeyAgreement := by
  unfold parseCoseP256KeyAgreement
  refine exact_container (Or.inr rfl) fun pairs ↦ ?_
  show Exact (2 * pairs + 0) _
  refine (exact_readCosePairs pairs {}).bind fun fields ↦ ?_
  dsimp only
  cases fields.x with
  | none => exact exact_none
  | some x =>
    cases fields.y with
    | none => exact exact_none
    | some y =>
      dsimp only [Option.bind_eq_bind, Option.bind_some]
      split_ifs
      · exact exact_some (x, y)
      · exact exact_none

end Readers

section Values

variable {Value State : Type}

/-- A map whose pairs a loop takes. -/
theorem consumes_mapLoop {turn : State → Parser State} {finish : State → Parser Value}
    (h : ∀ state, Consumes 2 (turn state)) (hfinish : ∀ state, Consumes 0 (finish state))
    (state : State) :
    Consumes 1 (cborRead readMapStart >>= fun pairs ↦ repeated turn pairs state >>= finish) :=
  consumes_map fun pairs ↦ (consumes_repeated h pairs state).andThen hfinish

/-- An array whose items a loop takes. -/
theorem consumes_arrayLoop {turn : State → Parser State} {finish : State → Parser Value}
    (h : ∀ state, Consumes 1 (turn state)) (hfinish : ∀ state, Consumes 0 (finish state))
    (state : State) :
    Consumes 1 (cborRead readArrayStart >>= fun items ↦ repeated turn items state >>= finish) :=
  consumes_array fun items ↦ (consumes_repeated h items state).andThen hfinish

/-- A pair with a text as its key. -/
theorem consumes_textPair {value : Bytes → Parser Value} (h : ∀ key, Consumes 1 (value key)) :
    Consumes 2 (cborRead readText >>= value) := by
  show Consumes (1 + 1) _
  exact (consumes_cborRead exact_readText).bind h

theorem consumes_parseOption (fields : OptionsFields) : Consumes 2 (parseOption fields) := by
  refine consumes_textPair fun key ↦ (consumes_cborRead exact_readBool).andThen fun value ↦ ?_
  split
  · exact (consumes_pure _).refused
  · exact (consumes_pure _).refused
  · exact (consumes_pure _).refused
  · exact consumes_pure _

theorem consumes_parseOptionsMap (options : RequestOptions) :
    Consumes 1 (parseOptionsMap options) :=
  consumes_mapLoop consumes_parseOption (fun _ ↦ consumes_pure _) _

theorem consumes_parseDescriptorField (crypto : Crypto) (fields : DescriptorFields) :
    Consumes 2 (parseDescriptorField crypto fields) := by
  refine consumes_textPair fun key ↦ ?_
  split
  · exact ((consumes_cborRead exact_readBytes).andThen fun _ ↦ (consumes_pure _).refused).refused
  · exact ((consumes_cborRead exact_readText).andThen fun _ ↦ consumes_pure _).refused
  · exact consumes_skipped _

theorem consumes_parseCredentialDescriptor (crypto : Crypto) :
    Consumes 1 (parseCredentialDescriptor crypto) :=
  consumes_mapLoop (consumes_parseDescriptorField crypto) (fun _ ↦ (consumes_pure _).refused) _

theorem consumes_parseDescriptor (crypto : Crypto) (capacity : ℕ) (list : List Bytes) :
    Consumes 1 (parseDescriptor crypto capacity list) :=
  (consumes_parseCredentialDescriptor crypto).andThen fun _ ↦ (consumes_pure _).refused

theorem consumes_parseDescriptorArray (crypto : Crypto) (capacity : ℕ) :
    Consumes 1 (parseDescriptorArray crypto capacity) :=
  consumes_array fun items ↦ consumes_repeated (consumes_parseDescriptor crypto capacity) items []

theorem consumes_parseRpField (fields : RpFields) : Consumes 2 (parseRpField fields) := by
  refine consumes_textPair fun key ↦ ?_
  split
  · exact ((consumes_cborRead exact_cborReadTextDiscard).andThen fun _ ↦ consumes_pure _).refused
  · exact ((consumes_cborRead exact_cborReadTextDiscard).andThen fun _ ↦ consumes_pure _).refused
  · exact ((consumes_cborRead (exact_cborReadTextCopy _)).andThen fun _ ↦ consumes_pure _).refused
  · exact consumes_skipped _

theorem consumes_parseUserField (fields : UserFields) : Consumes 2 (parseUserField fields) := by
  refine consumes_textPair fun key ↦ ?_
  split
  · exact ((consumes_cborRead (exact_cborReadBytesCopy _)).andThen fun _ ↦ consumes_pure _).refused
  · exact ((consumes_cborRead (exact_cborReadTextCopy _)).andThen fun _ ↦ consumes_pure _).refused
  · exact ((consumes_cborRead (exact_cborReadTextCopy _)).andThen fun _ ↦ consumes_pure _).refused
  · exact ((consumes_cborRead exact_cborReadTextDiscard).andThen fun _ ↦ consumes_pure _).refused
  · exact consumes_skipped _

theorem consumes_parseCredParamField (fields : CredParamFields) :
    Consumes 2 (parseCredParamField fields) := by
  refine consumes_textPair fun key ↦ ?_
  split
  · exact ((consumes_cborRead exact_readInt).andThen fun _ ↦ consumes_pure _).refused
  · exact ((consumes_cborRead exact_readText).andThen fun _ ↦ consumes_pure _).refused
  · exact consumes_skipped _

theorem consumes_parseCredParam (es256Supported : Bool) :
    Consumes 1 (parseCredParam es256Supported) :=
  consumes_mapLoop consumes_parseCredParamField (fun _ ↦ (consumes_pure _).refused) _

theorem consumes_parsePubkeyCredParams (es256Supported : Bool) :
    Consumes 1 (parsePubkeyCredParams es256Supported) :=
  consumes_array fun items ↦ consumes_repeated consumes_parseCredParam items es256Supported

theorem consumes_parseMakeCredentialExtension (fields : MakeCredentialExtensions) :
    Consumes 2 (parseMakeCredentialExtension fields) := by
  refine consumes_textPair fun key ↦ ?_
  split
  · exact ((consumes_cborRead exact_readUint).andThen fun _ ↦ (consumes_pure _).refused).refused
  · exact ((consumes_cborRead exact_readBool).andThen fun _ ↦ consumes_pure _).refused
  · exact consumes_skipped _

theorem consumes_parseAttestationFormat (packedAttestation : Bool)
    (preferred : Bool × AttestationMode) :
    Consumes 1 (parseAttestationFormat packedAttestation preferred) :=
  (consumes_cborRead exact_readText).andThen fun _ ↦ (consumes_pure _).refused

theorem consumes_parseHmacSecretField (fields : HmacSecretFields) :
    Consumes 2 (parseHmacSecretField fields) := by
  show Consumes (1 + 1) _
  refine (consumes_cborRead exact_readUint).bind fun key ↦ ?_
  split
  · exact consumes_throw _
  · split
    · exact (consumes_cborRead exact_parseCoseP256KeyAgreement).andThen fun _ ↦ consumes_pure _
    · exact (consumes_cborRead (exact_cborReadBytesCopy _)).andThen fun _ ↦ consumes_pure _
    · exact (consumes_cborRead (exact_cborReadBytesCopy _)).andThen fun _ ↦ consumes_pure _
    · exact (consumes_cborRead exact_readUint).andThen fun _ ↦ consumes_pure _
    · exact consumes_skipped _

theorem consumes_hmacSecretParseGetAssertionInput (input : HmacSecretInput) :
    Consumes 1 (hmacSecretParseGetAssertionInput input) :=
  consumes_mapLoop consumes_parseHmacSecretField (fun _ ↦ (consumes_pure _).refused) _

theorem consumes_parseGetAssertionExtension (fields : HmacSecretInput × Bool) :
    Consumes 2 (parseGetAssertionExtension fields) := by
  refine consumes_textPair fun key ↦ ?_
  split
  · exact ((consumes_hmacSecretParseGetAssertionInput _).andThen fun _ ↦ consumes_pure _).refused
  · exact consumes_skipped _

end Values

section Ownership

variable {α : Type} {key other owner : ℕ}

/-- A field that belongs to the key `owner`. -/
def pick (key owner : ℕ) (new old : α) : α := if key = owner then new else old

theorem pick_self (value : α) : pick key owner value value = value := ite_self value

theorem pick_same (new old last : α) :
    pick key owner (pick key owner new old) last = pick key owner new last := by
  unfold pick
  by_cases hkey : key = owner
  · simp only [if_pos hkey]
  · simp only [if_neg hkey]

theorem pick_comm (h : key ≠ other) (new new' old : α) :
    pick key owner new (pick other owner new' old) =
      pick other owner new' (pick key owner new old) := by
  unfold pick
  by_cases hkey : key = owner
  · rw [if_pos hkey, if_neg fun hother ↦ h (hkey.trans hother.symm), if_pos hkey]
  · rw [if_neg hkey, if_neg hkey]

theorem pick_other (h : key ≠ other) (new old last : α) :
    pick key owner (pick other owner new old) last = pick key owner old last := by
  unfold pick
  by_cases hkey : key = owner
  · rw [if_pos hkey, if_pos hkey, if_neg fun hother ↦ h (hkey.trans hother.symm)]
  · rw [if_neg hkey, if_neg hkey]

end Ownership

section MakeCredential

variable (crypto : Crypto) (capacity : ℕ) (packedAttestation : Bool)

/-- Which field of a makeCredential request belongs to which key. -/
def putMakeCredential (key : ℕ) (new old : ParsedMakeCredential) : ParsedMakeCredential where
  clientDataHash := pick key 1 new.clientDataHash old.clientDataHash
  hasClientDataHash := pick key 1 new.hasClientDataHash old.hasClientDataHash
  rpId := pick key 2 new.rpId old.rpId
  userId := pick key 3 new.userId old.userId
  hasUserId := pick key 3 new.hasUserId old.hasUserId
  userName := pick key 3 new.userName old.userName
  userDisplayName := pick key 3 new.userDisplayName old.userDisplayName
  hasPubkeyCredParams := pick key 4 new.hasPubkeyCredParams old.hasPubkeyCredParams
  es256Supported := pick key 4 new.es256Supported old.es256Supported
  excludeList := pick key 5 new.excludeList old.excludeList
  hasCredProtect := pick key 6 new.hasCredProtect old.hasCredProtect
  credProtect := pick key 6 new.credProtect old.credProtect
  hmacSecretRequested := pick key 6 new.hmacSecretRequested old.hmacSecretRequested
  up := pick key 7 new.up old.up
  hasUp := pick key 7 new.hasUp old.hasUp
  uv := pick key 7 new.uv old.uv
  hasUv := pick key 7 new.hasUv old.hasUv
  rk := pick key 7 new.rk old.rk
  hasRk := pick key 7 new.hasRk old.hasRk
  pinAuth := pick key 8 new.pinAuth old.pinAuth
  hasPinAuth := pick key 8 new.hasPinAuth old.hasPinAuth
  pinProtocol := pick key 9 new.pinProtocol old.pinProtocol
  hasPinProtocol := pick key 9 new.hasPinProtocol old.hasPinProtocol
  hasAttestationFormatPreference :=
    pick key 11 new.hasAttestationFormatPreference old.hasAttestationFormatPreference
  preferredAttestationMode :=
    pick key 11 new.preferredAttestationMode old.preferredAttestationMode

/-- A key of no field. -/
theorem putMakeCredential_of_not_mem {key : ℕ} (hkey : key ∉ [1, 2, 3, 4, 5, 6, 7, 8, 9, 11])
    (new old : ParsedMakeCredential) : putMakeCredential key new old = old := by
  simp only [List.mem_cons, List.not_mem_nil, or_false, not_or] at hkey
  simp only [putMakeCredential, pick, hkey, if_false]

theorem consumes_parseMakeCredentialField (key : ℕ) (request : ParsedMakeCredential) :
    Consumes 1 (parseMakeCredentialField crypto capacity packedAttestation key request) := by
  unfold parseMakeCredentialField
  split
  · exact (consumes_cborRead (exact_cborReadBytesCopy _)).andThen fun _ ↦ (consumes_pure _).refused
  · exact consumes_mapLoop consumes_parseRpField (fun _ ↦ consumes_pure _) _
  · exact consumes_mapLoop consumes_parseUserField (fun _ ↦ consumes_pure _) _
  · exact (consumes_parsePubkeyCredParams _).andThen fun _ ↦ consumes_pure _
  · exact (consumes_parseDescriptorArray crypto capacity).andThen fun _ ↦ consumes_pure _
  · exact consumes_mapLoop consumes_parseMakeCredentialExtension (fun _ ↦ consumes_pure _) _
  · exact (consumes_parseOptionsMap _).andThen fun _ ↦ consumes_pure _
  · exact (consumes_cborRead (exact_cborReadBytesCopy _)).andThen fun _ ↦ consumes_pure _
  · exact (consumes_cborRead exact_readUint).andThen fun _ ↦ consumes_pure _
  · exact consumes_arrayLoop (consumes_parseAttestationFormat packedAttestation)
      (fun _ ↦ consumes_pure _) _
  · exact consumes_skipped request

theorem parseMakeCredentialField_eq (key : ℕ) (request : ParsedMakeCredential) :
    parseMakeCredentialField crypto capacity packedAttestation key request =
      (fun value ↦ putMakeCredential key value request) <$>
        parseMakeCredentialField crypto capacity packedAttestation key
          (putMakeCredential key request initialMakeCredential) := by
  by_cases hkey : key ∈ [1, 2, 3, 4, 5, 6, 7, 8, 9, 11]
  · simp only [List.mem_cons, List.not_mem_nil, or_false] at hkey
    obtain rfl | rfl | rfl | rfl | rfl | rfl | rfl | rfl | rfl | rfl := hkey
    · simp only [parseMakeCredentialField, parseMakeCredentialClientDataHash, map_bind, map_pure]
      rfl
    · simp only [parseMakeCredentialField, parseMakeCredentialRp, map_bind, map_pure]
      rfl
    · simp only [parseMakeCredentialField, parseMakeCredentialUser, map_bind, map_pure]
      rfl
    · simp only [parseMakeCredentialField, parseMakeCredentialPubkeyCredParams, map_bind, map_pure]
      rfl
    · simp only [parseMakeCredentialField, parseMakeCredentialExcludeList, map_bind, map_pure]
      rfl
    · simp only [parseMakeCredentialField, parseMakeCredentialExtensions, map_bind, map_pure]
      rfl
    · simp only [parseMakeCredentialField, parseMakeCredentialOptions, map_bind, map_pure]
      rfl
    · simp only [parseMakeCredentialField, parseMakeCredentialPinAuth, map_bind, map_pure]
      rfl
    · simp only [parseMakeCredentialField, parseMakeCredentialPinProtocol, map_bind, map_pure]
      rfl
    · simp only [parseMakeCredentialField, parseMakeCredentialAttestationFormats, map_bind,
        map_pure]
      rfl
  · have hskip (request : ParsedMakeCredential) :
        parseMakeCredentialField crypto capacity packedAttestation key request =
          (do cborSkip; return request) := by
      unfold parseMakeCredentialField
      split <;> first | rfl | exact absurd (by simp) hkey
    rw [hskip, hskip, map_bind]
    simp only [map_pure, putMakeCredential_of_not_mem hkey]

theorem keyed_makeCredential :
    Keyed (parseMakeCredentialField crypto capacity packedAttestation) putMakeCredential
      initialMakeCredential where
  consumes := consumes_parseMakeCredentialField crypto capacity packedAttestation
  field_eq := parseMakeCredentialField_eq crypto capacity packedAttestation
  put_comm h _ _ _ := by simp only [putMakeCredential, pick_comm h]
  put_other h _ _ := by simp only [putMakeCredential, pick_other h]
  put_untracked h := putMakeCredential_of_not_mem (by simp; omega)

theorem orderFree_ctapParseMakeCredential :
    OrderFree (ctapParseMakeCredential crypto capacity packedAttestation) :=
  (keyed_makeCredential crypto capacity packedAttestation).orderFree
    (parsesMap_ctapParseMakeCredential crypto capacity packedAttestation)

end MakeCredential

section GetAssertion

variable (crypto : Crypto) (capacity : ℕ)

theorem consumes_parseGetAssertionField (key : ℕ) (request : ParsedGetAssertion) :
    Consumes 1 (parseGetAssertionField crypto capacity key request) := by
  unfold parseGetAssertionField
  split
  · exact (consumes_cborRead (exact_cborReadTextCopy _)).andThen fun _ ↦ consumes_pure _
  · exact (consumes_cborRead (exact_cborReadBytesCopy _)).andThen fun _ ↦ (consumes_pure _).refused
  · exact (consumes_parseDescriptorArray crypto capacity).andThen fun _ ↦ consumes_pure _
  · exact consumes_mapLoop consumes_parseGetAssertionExtension (fun _ ↦ consumes_pure _) _
  · exact (consumes_parseOptionsMap _).andThen fun _ ↦ consumes_pure _
  · exact (consumes_cborRead (exact_cborReadBytesCopy _)).andThen fun _ ↦ consumes_pure _
  · exact (consumes_cborRead exact_readUint).andThen fun _ ↦ consumes_pure _
  · exact consumes_skipped request

/-- Which field of a getAssertion request belongs to which key. -/
def putGetAssertion (key : ℕ) (new old : ParsedGetAssertion) : ParsedGetAssertion where
  assertion :=
    { rpId := pick key 1 new.assertion.rpId old.assertion.rpId
      clientDataHash := pick key 2 new.assertion.clientDataHash old.assertion.clientDataHash
      hasHmacSecret := pick key 4 new.assertion.hasHmacSecret old.assertion.hasHmacSecret
      hmacSecretPinProtocol :=
        pick key 4 new.assertion.hmacSecretPinProtocol old.assertion.hmacSecretPinProtocol }
  hasClientDataHash := pick key 2 new.hasClientDataHash old.hasClientDataHash
  allowList := pick key 3 new.allowList old.allowList
  hmacSecretHasPinProtocol := pick key 4 new.hmacSecretHasPinProtocol old.hmacSecretHasPinProtocol
  hmacSecretPlatformX := pick key 4 new.hmacSecretPlatformX old.hmacSecretPlatformX
  hmacSecretPlatformY := pick key 4 new.hmacSecretPlatformY old.hmacSecretPlatformY
  hmacSecretSaltEnc := pick key 4 new.hmacSecretSaltEnc old.hmacSecretSaltEnc
  hmacSecretSaltAuth := pick key 4 new.hmacSecretSaltAuth old.hmacSecretSaltAuth
  up := pick key 5 new.up old.up
  hasUp := pick key 5 new.hasUp old.hasUp
  uv := pick key 5 new.uv old.uv
  hasUv := pick key 5 new.hasUv old.hasUv
  rk := pick key 5 new.rk old.rk
  hasRk := pick key 5 new.hasRk old.hasRk
  pinAuth := pick key 6 new.pinAuth old.pinAuth
  hasPinAuth := pick key 6 new.hasPinAuth old.hasPinAuth
  pinProtocol := pick key 7 new.pinProtocol old.pinProtocol
  hasPinProtocol := pick key 7 new.hasPinProtocol old.hasPinProtocol

/-- A key of no field. -/
theorem putGetAssertion_of_not_mem {key : ℕ} (hkey : key ∉ [1, 2, 3, 4, 5, 6, 7])
    (new old : ParsedGetAssertion) : putGetAssertion key new old = old := by
  simp only [List.mem_cons, List.not_mem_nil, or_false, not_or] at hkey
  simp only [putGetAssertion, pick, hkey, if_false]

theorem parseGetAssertionField_eq (key : ℕ) (request : ParsedGetAssertion) :
    parseGetAssertionField crypto capacity key request =
      (fun value ↦ putGetAssertion key value request) <$>
        parseGetAssertionField crypto capacity key
          (putGetAssertion key request initialGetAssertion) := by
  by_cases hkey : key ∈ [1, 2, 3, 4, 5, 6, 7]
  · simp only [List.mem_cons, List.not_mem_nil, or_false] at hkey
    obtain rfl | rfl | rfl | rfl | rfl | rfl | rfl := hkey
    · simp only [parseGetAssertionField, map_bind, map_pure]
      rfl
    · simp only [parseGetAssertionField, map_bind, map_pure]
      rfl
    · simp only [parseGetAssertionField, map_bind, map_pure]
      rfl
    · simp only [parseGetAssertionField, parseGetAssertionExtensions, map_bind, map_pure]
      rfl
    · simp only [parseGetAssertionField, map_bind, map_pure]
      rfl
    · simp only [parseGetAssertionField, map_bind, map_pure]
      rfl
    · simp only [parseGetAssertionField, map_bind, map_pure]
      rfl
  · have hskip (request : ParsedGetAssertion) :
        parseGetAssertionField crypto capacity key request = (do cborSkip; return request) := by
      unfold parseGetAssertionField
      split <;> first | rfl | exact absurd (by simp) hkey
    rw [hskip, hskip, map_bind]
    simp only [map_pure, putGetAssertion_of_not_mem hkey]

theorem keyed_getAssertion :
    Keyed (parseGetAssertionField crypto capacity) putGetAssertion initialGetAssertion where
  consumes := consumes_parseGetAssertionField crypto capacity
  field_eq := parseGetAssertionField_eq crypto capacity
  put_comm h _ _ _ := by simp only [putGetAssertion, pick_comm h]
  put_other h _ _ := by simp only [putGetAssertion, pick_other h]
  put_untracked h := putGetAssertion_of_not_mem (by simp; omega)

theorem orderFree_ctapParseGetAssertion : OrderFree (ctapParseGetAssertion crypto capacity) :=
  (keyed_getAssertion crypto capacity).orderFree (parsesMap_ctapParseGetAssertion crypto capacity)

end GetAssertion

section ClientPin

open Pin

/-- The value of one key of a clientPIN request, as a parser. -/
def clientPinField (key : ℕ) (request : ClientPinRequest) : Parser ClientPinRequest :=
  cborRead (parseValue request key)

/-- Which field of a clientPIN request belongs to which key. -/
def putClientPin (key : ℕ) (new old : ClientPinRequest) : ClientPinRequest where
  pinProtocol := pick key 1 new.pinProtocol old.pinProtocol
  hasPinProtocol := pick key 1 new.hasPinProtocol old.hasPinProtocol
  subcommand := pick key 2 new.subcommand old.subcommand
  hasSubcommand := pick key 2 new.hasSubcommand old.hasSubcommand
  platformX := pick key 3 new.platformX old.platformX
  platformY := pick key 3 new.platformY old.platformY
  hasKeyAgreement := pick key 3 new.hasKeyAgreement old.hasKeyAgreement
  pinAuth := pick key 4 new.pinAuth old.pinAuth
  hasPinAuth := pick key 4 new.hasPinAuth old.hasPinAuth
  newPinEnc := pick key 5 new.newPinEnc old.newPinEnc
  hasNewPinEnc := pick key 5 new.hasNewPinEnc old.hasNewPinEnc
  pinHashEnc := pick key 6 new.pinHashEnc old.pinHashEnc
  hasPinHashEnc := pick key 6 new.hasPinHashEnc old.hasPinHashEnc
  permissions := pick key 9 new.permissions old.permissions
  hasPermissions := pick key 9 new.hasPermissions old.hasPermissions
  rpId := pick key 10 new.rpId old.rpId
  hasRpId := pick key 10 new.hasRpId old.hasRpId

/-- A key of no field. -/
theorem putClientPin_of_not_mem {key : ℕ} (hkey : key ∉ [1, 2, 3, 4, 5, 6, 9, 10])
    (new old : ClientPinRequest) : putClientPin key new old = old := by
  simp only [List.mem_cons, List.not_mem_nil, or_false, not_or] at hkey
  simp only [putClientPin, pick, hkey, if_false]

theorem consumes_clientPinField (key : ℕ) (request : ClientPinRequest) :
    Consumes 1 (clientPinField key request) := by
  refine consumes_cborRead ?_
  unfold parseValue
  split
  · exact exact_readUint.map fun pinProtocol ↦ { request with pinProtocol, hasPinProtocol := true }
  · exact exact_readUint.map fun subcommand ↦ { request with subcommand, hasSubcommand := true }
  · exact exact_parseCoseP256KeyAgreement.map fun point ↦
      { request with platformX := point.1, platformY := point.2, hasKeyAgreement := true }
  · exact (exact_cborReadBytesCopy _).map fun pinAuth ↦ { request with pinAuth, hasPinAuth := true }
  · exact (exact_cborReadBytesCopy _).map fun newPinEnc ↦
      { request with newPinEnc, hasNewPinEnc := true }
  · exact (exact_cborReadBytesCopy _).map fun pinHashEnc ↦
      { request with pinHashEnc, hasPinHashEnc := true }
  · exact exact_readUint.map fun permissions ↦
      { request with permissions := UInt64.ofNat permissions, hasPermissions := true }
  · exact (exact_cborReadTextCopy _).map fun rpId ↦ { request with rpId, hasRpId := true }
  · refine (exact_skip.map fun _ ↦ request).congr fun cursor ↦ ?_
    unfold skipping
    rw [Option.map_map]
    rfl

theorem map_cborRead {Value Next : Type} (read : Bytes → Option (Value × Bytes))
    (next : Value → Next) :
    next <$> cborRead read = cborRead fun cursor ↦ (read cursor).map fun result ↦
      (next result.1, result.2) := by
  funext cursor
  show ((cborRead read cursor).bind fun result ↦ .ok (next result.1, result.2)) = _
  unfold cborRead
  dsimp only
  cases read cursor <;> rfl

theorem clientPinField_eq (key : ℕ) (request : ClientPinRequest) :
    clientPinField key request = (fun value ↦ putClientPin key value request) <$>
      clientPinField key (putClientPin key request {}) := by
  unfold clientPinField
  rw [map_cborRead]
  refine congrArg cborRead (funext fun cursor ↦ ?_)
  by_cases hkey : key ∈ [1, 2, 3, 4, 5, 6, 9, 10]
  · simp only [List.mem_cons, List.not_mem_nil, or_false] at hkey
    obtain rfl | rfl | rfl | rfl | rfl | rfl | rfl | rfl := hkey
    all_goals
      simp only [parseValue, Option.map_map]
      rfl
  · have hskip (request : ClientPinRequest) :
        parseValue request key cursor = (skip cursor).map fun rest ↦ (request, rest) := by
      unfold parseValue
      split <;> first | rfl | exact absurd (by simp) hkey
    rw [hskip, hskip, Option.map_map]
    simp only [Function.comp_def, putClientPin_of_not_mem hkey]

theorem keyed_clientPin : Keyed clientPinField putClientPin {} where
  consumes := consumes_clientPinField
  field_eq := clientPinField_eq
  put_comm h _ _ _ := by simp only [putClientPin, pick_comm h]
  put_other h _ _ := by simp only [putClientPin, pick_other h]
  put_untracked h := putClientPin_of_not_mem (by simp; omega)

/-- The loop of the clientPIN parser is the loop over fields. -/
theorem toOption_parseFields_clientPin (pairs : ℕ) (seenKeys : List ℕ) (request : ClientPinRequest)
    (cursor : Bytes) :
    ((parseFields clientPinField pairs seenKeys request).run cursor).toOption =
      parsePairs pairs seenKeys request cursor := by
  induction pairs generalizing seenKeys request cursor with
  | zero => rfl
  | succ pairs ih =>
    rw [parseFields, toOption_bind, toOption_cborRead, parsePairs]
    refine congrArg _ (funext fun result ↦ ?_)
    obtain ⟨key, after⟩ := result
    dsimp only
    cases markSeenKey seenKeys key with
    | none => rfl
    | some seenKeys =>
      dsimp only [Option.bind_eq_bind, Option.bind_some]
      rw [toOption_bind, clientPinField, toOption_cborRead]
      exact congrArg _ (funext fun result ↦ ih _ _ _)

/-- The checks at the end of the clientPIN parser, but for the one of what is left. -/
structure CompleteClientPin (request : ClientPinRequest) : Prop where
  subcommand : request.hasSubcommand = true
  protocol : (request.hasPinProtocol && request.pinProtocol != pinProtocolV1 &&
    request.pinProtocol != pinProtocolV2) = false
  required : (subcommandRequiresPinProtocol request.subcommand && !request.hasPinProtocol) = false

/-- The fields of a request, and what is left of the input. -/
def clientPinFields (data : Bytes) : Option (ClientPinRequest × Bytes) :=
  (readMapStart data).bind fun (pairs, cursor) ↦ parsePairs pairs [] {} cursor

theorem parsesMap_clientPin :
    ParsesMap clientPinField {} CompleteClientPin clientPinParseRequest := by
  intro data request
  have hread : (∃ count cursor, readMapStart data = some (count, cursor) ∧
      ((parseFields clientPinField count [] {}).run cursor).toOption = some (request, []) ∧
        CompleteClientPin request) ↔
      clientPinFields data = some (request, []) ∧ CompleteClientPin request := by
    simp only [clientPinFields, toOption_parseFields_clientPin, Option.bind_eq_some_iff,
      Prod.exists]
    constructor
    · rintro ⟨count, cursor, hstart, hpairs, hcomplete⟩
      exact ⟨⟨count, cursor, hstart, hpairs⟩, hcomplete⟩
    · rintro ⟨⟨count, cursor, hstart, hpairs⟩, hcomplete⟩
      exact ⟨count, cursor, hstart, hpairs, hcomplete⟩
  rw [hread]
  unfold clientPinParseRequest
  rw [← clientPinFields]
  cases clientPinFields data with
  | none => simp
  | some result =>
    obtain ⟨final, left⟩ := result
    dsimp only
    split_ifs with hsubcommand hprotocol hrequired hleft
    · simp only [Option.some.injEq, Prod.mk.injEq, false_iff]
      rintro ⟨⟨rfl, -⟩, hcomplete⟩
      simp [hcomplete.subcommand] at hsubcommand
    · simp only [Option.some.injEq, Prod.mk.injEq, false_iff]
      rintro ⟨⟨rfl, -⟩, hcomplete⟩
      simp [hcomplete.protocol] at hprotocol
    · simp only [Option.some.injEq, Prod.mk.injEq, false_iff]
      rintro ⟨⟨rfl, -⟩, hcomplete⟩
      simp [hcomplete.required] at hrequired
    · simp only [Option.some.injEq, Prod.mk.injEq, false_iff]
      rintro ⟨⟨-, hempty⟩, -⟩
      exact hleft hempty
    · rw [not_not] at hleft
      rw [Except.ok.injEq, Option.some.injEq, Prod.mk.injEq]
      constructor
      · rintro rfl
        exact ⟨⟨rfl, hleft⟩, by simpa using hsubcommand, by simpa using hprotocol,
          by simpa using hrequired⟩
      · exact fun h ↦ h.1.1

theorem orderFree_clientPinParseRequest : OrderFree clientPinParseRequest :=
  keyed_clientPin.orderFree parsesMap_clientPin

end ClientPin

/-- None of the three parsers of request maps depends on the order of the pairs. What they accept
is a map to its last byte, with no key below 16 twice. -/
theorem request_maps_order_free (crypto : Crypto) (capacity : ℕ) (packedAttestation : Bool) :
    OrderFree (ctapParseMakeCredential crypto capacity packedAttestation) ∧
      OrderFree (ctapParseGetAssertion crypto capacity) ∧ OrderFree Pin.clientPinParseRequest :=
  ⟨orderFree_ctapParseMakeCredential crypto capacity packedAttestation,
    orderFree_ctapParseGetAssertion crypto capacity, orderFree_clientPinParseRequest⟩

/-- A getAssertion for the RP `a`, with its hash after its RP and before it. -/
example :
    (ctapParseGetAssertion Crypto.standIn 0
        ([0xA2, 0x01, 0x61, 0x61] ++ ([0x02, 0x58, 0x20] ++ zeroBytes 32))).toOption =
      (ctapParseGetAssertion Crypto.standIn 0
        ([0xA2] ++ ([0x02, 0x58, 0x20] ++ zeroBytes 32) ++ [0x01, 0x61, 0x61])).toOption ∧
    (ctapParseGetAssertion Crypto.standIn 0
      ([0xA2, 0x01, 0x61, 0x61] ++ ([0x02, 0x58, 0x20] ++ zeroBytes 32))).isOk = true := by
  decide +kernel

end ZeroFido.Ctap
