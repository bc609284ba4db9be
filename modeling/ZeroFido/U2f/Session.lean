import ZeroFido.Cbor
import ZeroFido.Crypto
import ZeroFido.U2f.Apdu
import ZeroFido.U2f.Persistence

/-!
# The U2F session

`u2f/session.c` and `u2f/response_encode.c`: the session in memory, its initialisation from the
files, and the two encoders. A registration and an authentication that claims the user's presence
consume the flag that the adapter sets; an authentication also takes the next count, which has to
be reserved in the counter file when it is above what was reserved before.

The spec lemmas say what a request may do to the session (`Consumed`, `Parsed`) and to the counter
file (`Reserved`).
-/

set_option autoImplicit false
set_option relaxedAutoImplicit false

namespace ZeroFido.U2f

open Foundations

section Data

def swNoError : ℕ := 0x9000
def swConditionsNotSatisfied : ℕ := 0x6985

def hashSize : ℕ := 32
def nonceSize : ℕ := 32
def derivePrivateKeyMaxAttempts : ℕ := 8

/-- `offsetof(U2fRegisterResp, cert)`. -/
def registerRespSize : ℕ := 131

/-- `sizeof(U2fAuthResp)`. -/
def authRespSize : ℕ := 5

def statusSize : ℕ := 2

/-- `U2fData`, without the callback. -/
structure U2fData where
  deviceKey : DeviceKey
  certKey : Bytes
  counter : UInt32
  counterHighWater : UInt32
  certReady : Bool
  ready : Bool
  userPresent : Bool
  deriving DecidableEq, Repr

/-- What the encoders call: the hash and curve code, the coming nonces and the certificate file. -/
structure Surroundings where
  crypto : Crypto
  privateKeyValid : Bytes → Bool
  publicKey : (privateKey : Bytes) → Option (Bytes × Bytes)
  sign : (privateKey hash : Bytes) → (capacity : ℕ) → Option Bytes
  nonces : List Bytes
  certificate : Bytes

/-- Surroundings on which the model can be run. -/
def Surroundings.standIn : Surroundings where
  crypto := .standIn
  privateKeyValid _ := true
  publicKey privateKey := some (privateKey, privateKey)
  sign _ hash _ := some (hash.take 8)
  nonces := [List.replicate 32 0]
  certificate := [0x30]

end Data

section Presence

/-- `u2f_confirm_user_present`. -/
def confirmUserPresent (session : U2fData) : U2fData := { session with userPresent := true }

/-- `u2f_clear_user_present`; `u2f_set_state` does the same after its notification. -/
def clearUserPresent (session : U2fData) : U2fData := { session with userPresent := false }

end Presence

section Encoders

variable (env : Surroundings)

/-- `zf_u2f_derive_private_key`. -/
def derivePrivateKey (session : U2fData) (appId nonce : Bytes) : Option Bytes :=
  match env.crypto.hmacSha256 session.deviceKey.bytes (appId ++ nonce) with
  | none => none
  | some privateKey => if env.privateKeyValid privateKey then some privateKey else none

/-- `zf_u2f_compute_handle_mac`. -/
def computeHandleMac (session : U2fData) (privateKey appId : Bytes) : Option Bytes :=
  env.crypto.hmacSha256 session.deviceKey.bytes (privateKey ++ appId)

/-- The first of the attempts that gives a private key. -/
def drawPrivateKey (session : U2fData) (appId : Bytes) : Option (Bytes × Bytes) :=
  (env.nonces.take derivePrivateKeyMaxAttempts).findSome? fun nonce ↦
    (derivePrivateKey env session appId nonce).map fun privateKey ↦ (nonce, privateKey)

/-- What follows the check of the user's presence in `zf_u2f_encode_register_response`. -/
def registerResponse (session : U2fData) (challenge appId : Bytes) (responseCapacity : ℕ) : Bytes :=
  let certCapacity := responseCapacity - registerRespSize
  match drawPrivateKey env session appId with
  | none => writeStatus swInsNotSupported
  | some (nonce, privateKey) =>
    match computeHandleMac env session privateKey appId with
    | none => writeStatus swInsNotSupported
    | some mac =>
      match env.publicKey privateKey with
      | none => writeStatus swInsNotSupported
      | some (publicX, publicY) =>
        let publicKey := 0x04 :: publicX ++ publicY
        let hash := env.crypto.sha256 (0 :: appId ++ challenge ++ (mac ++ nonce) ++ publicKey)
        let certLen := env.certificate.length
        if certLen = 0 ∨ certCapacity < certLen then writeStatus swInsNotSupported
        else
          match env.sign session.certKey hash (certCapacity - certLen) with
          | none => writeStatus swInsNotSupported
          | some signature =>
            if certCapacity < certLen + signature.length + statusSize then
              writeStatus swInsNotSupported
            else
              0x05 :: publicKey ++ (UInt8.ofNat (2 * hashSize) :: mac ++ nonce) ++
                env.certificate ++ signature ++ writeStatus swNoError

/-- `zf_u2f_encode_register_response`. -/
def encodeRegisterResponse (session : U2fData) (request : Bytes) (responseCapacity : ℕ) :
    U2fData × Bytes :=
  match parseApduHeader request false with
  | none => (session, writeStatus swWrongLength)
  | some apdu =>
    let data := apdu.data.getD []
    if apdu.lc ≠ challengeSize + appIdSize then (session, writeStatus swWrongLength)
    else if !session.certReady then (session, writeStatus swInsNotSupported)
    else if !session.userPresent then
      (clearUserPresent session, writeStatus swConditionsNotSatisfied)
    else
      (clearUserPresent session,
        registerResponse env session (data.take challengeSize)
          ((data.drop challengeSize).take appIdSize) responseCapacity)

/-- The part of `zf_u2f_encode_authenticate_response` that builds and signs the response: a status
that refuses the request, or the next count and the response that carries it. -/
def signAuthentication (session : U2fData) (challenge appId privateKey : Bytes)
    (responseCapacity : ℕ) : Except ℕ (UInt32 × Bytes) :=
  let nextCounter := session.counter + 1
  let flags : UInt8 := if session.userPresent then 1 else 0
  let counterBytes := Cbor.toBigEndian 4 nextCounter.toNat
  let hash := env.crypto.sha256 (appId ++ [flags] ++ counterBytes ++ challenge)
  if responseCapacity ≤ authRespSize then .error swInsNotSupported
  else
    match env.sign privateKey hash (responseCapacity - authRespSize) with
    | none => .error swInsNotSupported
    | some signature =>
      if responseCapacity < authRespSize + signature.length + statusSize then
        .error swInsNotSupported
      else .ok (nextCounter, flags :: counterBytes ++ signature ++ writeStatus swNoError)

/-- The part that comes after the handle has been found to be one of this device: the user's
presence is consumed. -/
def authenticateWithKey (session : U2fData) (p1 : UInt8) (challenge appId privateKey : Bytes)
    (responseCapacity : ℕ) : U2fData × Except ℕ (UInt32 × Bytes) :=
  if p1 = checkOnly then (session, .error swConditionsNotSatisfied)
  else if !session.userPresent && p1 == enforce then
    (clearUserPresent session, .error swConditionsNotSatisfied)
  else
    (clearUserPresent session,
      signAuthentication env session challenge appId privateKey responseCapacity)

/-- The private key that a key handle of this device stands for. -/
def openKeyHandle (session : U2fData) (appId keyHandle : Bytes) : Except ℕ Bytes :=
  match derivePrivateKey env session appId ((keyHandle.drop hashSize).take nonceSize) with
  | none => .error swInsNotSupported
  | some privateKey =>
    match computeHandleMac env session privateKey appId with
    | none => .error swInsNotSupported
    | some mac =>
      if constantTimeEqual keyHandle mac hashSize then .ok privateKey else .error swWrongData

/-- What `zf_u2f_encode_authenticate_response` decides before it commits the count. -/
def authenticateDecision (session : U2fData) (request : Bytes) (responseCapacity : ℕ) :
    U2fData × Except ℕ (UInt32 × Bytes) :=
  match parseApduHeader request false with
  | none => (session, .error swWrongLength)
  | some apdu =>
    let data := apdu.data.getD []
    if apdu.lc < challengeSize + appIdSize + 1 then (session, .error swWrongLength)
    else if session.counter = 0xffffffff then (session, .error swInsNotSupported)
    else
      let challenge := data.take challengeSize
      let appId := (data.drop challengeSize).take appIdSize
      let keyHandleLen := (data.getD (challengeSize + appIdSize) 0).toNat
      let keyHandle := data.drop (challengeSize + appIdSize + 1)
      let refused := if apdu.p1 = enforce then clearUserPresent session else session
      if keyHandleLen ≠ 2 * hashSize then (refused, .error swWrongData)
      else
        match openKeyHandle env session appId keyHandle with
        | .error status => (if status = swWrongData then refused else session, .error status)
        | .ok privateKey =>
          authenticateWithKey env session apdu.p1 challenge appId privateKey responseCapacity

/-- `zf_u2f_encode_authenticate_response`. -/
def encodeAuthenticateResponse (session : U2fData) (request : Bytes) (responseCapacity : ℕ) :
    Program Device (U2fData × Bytes) :=
  match authenticateDecision env session request responseCapacity with
  | (consumed, .error status) => return (consumed, writeStatus status)
  | (consumed, .ok (nextCounter, response)) => do
    if consumed.counterHighWater < nextCounter then
      match ← dataCntReserve nextCounter with
      | none => return (consumed, writeStatus swInsNotSupported)
      | some highWater =>
        return ({ consumed with counter := nextCounter, counterHighWater := highWater }, response)
    else return ({ consumed with counter := nextCounter }, response)

/-- The dispatch of `u2f_msg_parse`. -/
def dispatchCommand (session : U2fData) (request : Bytes) (responseCapacity : ℕ) :
    Program Device (U2fData × Bytes) :=
  if request.getD 1 0 = cmdRegister then
    return encodeRegisterResponse env session request responseCapacity
  else if request.getD 1 0 = cmdAuthenticate then
    encodeAuthenticateResponse env session request responseCapacity
  else if request.getD 1 0 = cmdVersion then
    if responseCapacity < 6 + statusSize then return (session, writeStatus swWrongLength)
    else return (session, [0x55, 0x32, 0x46, 0x5F, 0x56, 0x32] ++ writeStatus swNoError)
  else return (session, writeStatus swInsNotSupported)

/-- `u2f_msg_parse`. -/
def msgParse (session : U2fData) (request : Bytes) (responseCapacity : ℕ) :
    Program Device (U2fData × Bytes) :=
  if !session.ready then return (session, [])
  else if responseCapacity < 2 then return (session, writeStatus swWrongLength)
  else
    match validateRequestStatus request with
    | some status => return (session, writeStatus status)
    | none => dispatchCommand env session request responseCapacity

end Encoders

section Initialisation

/-- The count that `u2f_init` starts from. A counter file that is not there is written anew, one
that cannot be read is not touched. -/
def loadCounter : Program Device (Option UInt32) := do
  match ← dataCntRead with
  | some counter => return some counter
  | none =>
    if ← dataCntExists then return none
    if ← dataCntWrite 0 then return some 0
    return none

/-- The device secret that `u2f_init` starts from. -/
def loadDeviceKey : Program Device (Option DeviceKey) := do
  match ← dataKeyLoad with
  | some key => return some key
  | none =>
    if ← dataKeyExists then return none
    dataKeyGenerate

/-- `u2f_alloc` and `u2f_init`. The attestation key is there when the assets are. -/
def u2fInit (attestation : Option Bytes) : Program Device (Option U2fData) := do
  match ← loadDeviceKey with
  | none => return none
  | some deviceKey =>
    match ← loadCounter with
    | none => return none
    | some counter =>
      return some
        { deviceKey := deviceKey
          certKey := attestation.getD []
          counter := counter
          counterHighWater := counter
          certReady := attestation.isSome
          ready := true
          userPresent := false }

end Initialisation

section Responses

/-- The response ends with the status word of success. -/
def succeeded (response : Bytes) : Bool :=
  response.drop (response.length - statusSize) == writeStatus swNoError

/-- A registration that returned 9000. -/
def isRegistration (request response : Bytes) : Bool :=
  request.getD 1 0 == cmdRegister && succeeded response

/-- An authentication that returned 9000. -/
def isAuthentication (request response : Bytes) : Bool :=
  request.getD 1 0 == cmdAuthenticate && succeeded response

/-- The count in the response of an authentication. -/
def responseCounter (response : Bytes) : ℕ := Cbor.ofBigEndian ((response.drop 1).take 4)

/-- The response of an authentication says that the user was present. -/
def responseUserPresent (response : Bytes) : Bool := response.getD 0 0 &&& 1 == 1

/-- A response that claims the user's presence. -/
def claimsPresence (request response : Bytes) : Bool :=
  isRegistration request response || isAuthentication request response && responseUserPresent response

theorem succeeded_append (body : Bytes) : succeeded (body ++ writeStatus swNoError) = true := by
  have hlength : (writeStatus swNoError).length = statusSize := rfl
  unfold succeeded
  rw [List.length_append, hlength, Nat.add_sub_cancel, List.drop_left]
  exact beq_self_eq_true _

theorem succeeded_writeStatus {status : ℕ}
    (h : status ∈ [swWrongLength, swWrongData, swInsNotSupported, swClaNotSupported,
      swConditionsNotSatisfied]) : succeeded (writeStatus status) = false := by
  simp only [List.mem_cons, List.not_mem_nil, or_false] at h
  rcases h with rfl | rfl | rfl | rfl | rfl <;> decide

end Responses

section Specifications

variable {env : Surroundings} {session : U2fData} {request : Bytes} {responseCapacity : ℕ}
  {device : Device}

/-- The status words that refuse a request. -/
def refusals : List ℕ :=
  [swWrongLength, swWrongData, swInsNotSupported, swClaNotSupported, swConditionsNotSatisfied]

/-- The session is as it was, but for a presence that was consumed. -/
structure Consumed (session session' : U2fData) : Prop where
  deviceKey : session'.deviceKey = session.deviceKey
  counter : session'.counter = session.counter
  counterHighWater : session'.counterHighWater = session.counterHighWater
  userPresent : session'.userPresent = true → session.userPresent = true

theorem Consumed.refl (session : U2fData) : Consumed session session := ⟨rfl, rfl, rfl, id⟩

theorem consumed_clearUserPresent (session : U2fData) :
    Consumed session (clearUserPresent session) :=
  ⟨rfl, rfl, rfl, fun h ↦ absurd h (by simp [clearUserPresent])⟩

/-- A refusal is no success. -/
theorem not_succeeded {status : ℕ} (h : status ∈ refusals) {claim : Prop}
    (hsucceeded : succeeded (writeStatus status) = true) : claim := by
  rw [succeeded_writeStatus h] at hsucceeded
  contradiction

theorem mem_refusals_of_validateApduStatus {ins : UInt8} {expectedLc status : ℕ} {allowShort : Bool}
    (h : validateApduStatus request ins expectedLc allowShort = some status) :
    status ∈ refusals := by
  unfold validateApduStatus at h
  split at h
  · obtain rfl := Option.some.inj h
    decide
  · split_ifs at h
    all_goals
      obtain rfl := Option.some.inj h
      decide

theorem mem_refusals_of_validateAuthenticateStatus {status : ℕ}
    (h : validateAuthenticateStatus request = some status) : status ∈ refusals := by
  unfold validateAuthenticateStatus at h
  split at h
  · obtain rfl := Option.some.inj h
    decide
  · split_ifs at h
    · obtain rfl := Option.some.inj h
      decide
    · obtain rfl := Option.some.inj h
      decide
    · split at h
      · obtain rfl := Option.some.inj h
        decide
      · dsimp only at h
        split_ifs at h
        obtain rfl := Option.some.inj h
        decide

/-- A request that does not pass the checks is refused with one of the status words. -/
theorem mem_refusals_of_validateRequestStatus {status : ℕ}
    (h : validateRequestStatus request = some status) : status ∈ refusals := by
  unfold validateRequestStatus at h
  split_ifs at h
  · obtain rfl := Option.some.inj h
    decide
  · obtain rfl := Option.some.inj h
    decide
  · exact mem_refusals_of_validateApduStatus h
  · obtain rfl := Option.some.inj h
    decide
  · exact mem_refusals_of_validateApduStatus h
  · exact mem_refusals_of_validateAuthenticateStatus h
  · obtain rfl := Option.some.inj h
    decide

/-- A registration consumes the user's presence, and succeeds only with it. -/
theorem encodeRegisterResponse_spec (env : Surroundings) (session : U2fData) (request : Bytes)
    (responseCapacity : ℕ) :
    Consumed session (encodeRegisterResponse env session request responseCapacity).1 ∧
      (succeeded (encodeRegisterResponse env session request responseCapacity).2 = true →
        session.userPresent = true ∧
          (encodeRegisterResponse env session request responseCapacity).1.userPresent = false) := by
  unfold encodeRegisterResponse
  split
  · exact ⟨.refl session, not_succeeded (by decide)⟩
  · dsimp only
    split_ifs with hlength hready hpresent
    · exact ⟨.refl session, not_succeeded (by decide)⟩
    · exact ⟨.refl session, not_succeeded (by decide)⟩
    · exact ⟨consumed_clearUserPresent session, not_succeeded (by decide)⟩
    · exact ⟨consumed_clearUserPresent session, fun _ ↦ ⟨by simpa using hpresent, rfl⟩⟩

/-- The bytes of an authentication response. -/
theorem authenticateResponse_bytes (flags : UInt8) (counter : UInt32) (signature : Bytes) :
    let response := flags :: Cbor.toBigEndian 4 counter.toNat ++ signature ++ writeStatus swNoError
    succeeded response = true ∧ responseCounter response = counter.toNat ∧
      responseUserPresent response = (flags &&& 1 == 1) := by
  intro response
  refine ⟨succeeded_append _, ?_, rfl⟩
  have hbytes : (response.drop 1).take 4 = Cbor.toBigEndian 4 counter.toNat := by
    show ((Cbor.toBigEndian 4 counter.toNat ++ signature ++ writeStatus swNoError)).take 4 = _
    rw [List.append_assoc, List.take_left' (Cbor.length_toBigEndian 4 _)]
  unfold responseCounter
  rw [hbytes]
  exact Cbor.ofBigEndian_toBigEndian 4 _ counter.toNat_lt

/-- The next count and a response that carries it. -/
structure Signed (session : U2fData) (count : UInt32) (response : Bytes) : Prop where
  next : count = session.counter + 1
  succeeded : succeeded response = true
  counter : responseCounter response = count.toNat
  userPresent : responseUserPresent response = session.userPresent

theorem signAuthentication_spec (env : Surroundings) (session : U2fData)
    (challenge appId privateKey : Bytes) (responseCapacity : ℕ) :
    (∀ status, signAuthentication env session challenge appId privateKey responseCapacity =
        .error status → status ∈ refusals) ∧
      (∀ next response, signAuthentication env session challenge appId privateKey responseCapacity =
        .ok (next, response) → Signed session next response) := by
  have hrefusal : (∀ status, (Except.error swInsNotSupported : Except ℕ (UInt32 × Bytes)) =
      .error status → status ∈ refusals) ∧ (∀ next response,
        (Except.error swInsNotSupported : Except ℕ (UInt32 × Bytes)) = .ok (next, response) →
          Signed session next response) := by
    constructor
    · rintro _ ⟨rfl⟩
      decide
    · simp
  unfold signAuthentication
  dsimp only
  by_cases hcapacity : responseCapacity ≤ authRespSize
  · rw [if_pos hcapacity]
    exact hrefusal
  · rw [if_neg hcapacity]
    split
    · exact hrefusal
    · rename_i signature _
      by_cases hfits : responseCapacity < authRespSize + signature.length + statusSize
      · rw [if_pos hfits]
        exact hrefusal
      · rw [if_neg hfits]
        refine ⟨by simp, ?_⟩
        rintro next response ⟨rfl, rfl⟩
        obtain ⟨hsucceeded, hcount, hclaim⟩ := authenticateResponse_bytes
          (if session.userPresent = true then 1 else 0) (session.counter + 1) signature
        refine ⟨rfl, hsucceeded, hcount, hclaim.trans ?_⟩
        cases session.userPresent <;> rfl

/-- What the decision about an authentication is. -/
structure Decided (session : U2fData) (decision : U2fData × Except ℕ (UInt32 × Bytes)) : Prop where
  consumed : Consumed session decision.1
  refused : ∀ status, decision.2 = .error status → status ∈ refusals
  answered : ∀ next response, decision.2 = .ok (next, response) →
    Signed session next response ∧ session.counter ≠ 0xffffffff ∧ decision.1.userPresent = false

theorem decided_refusal {session' : U2fData} {status : ℕ} (h : Consumed session session')
    (hstatus : status ∈ refusals) : Decided session (session', .error status) where
  consumed := h
  refused := by
    rintro _ ⟨rfl⟩
    exact hstatus
  answered := by simp

theorem decided_authenticateWithKey (p1 : UInt8) (challenge appId privateKey : Bytes)
    (hcounter : session.counter ≠ 0xffffffff) :
    Decided session
      (authenticateWithKey env session p1 challenge appId privateKey responseCapacity) := by
  obtain ⟨hrefused, hsigned⟩ :=
    signAuthentication_spec env session challenge appId privateKey responseCapacity
  unfold authenticateWithKey
  split_ifs
  · exact decided_refusal (.refl session) (by decide)
  · exact decided_refusal (consumed_clearUserPresent session) (by decide)
  · exact ⟨consumed_clearUserPresent session, hrefused,
      fun next response h ↦ ⟨hsigned next response h, hcounter, rfl⟩⟩

theorem openKeyHandle_refusal {appId keyHandle : Bytes} {status : ℕ}
    (h : openKeyHandle env session appId keyHandle = .error status) : status ∈ refusals := by
  unfold openKeyHandle at h
  split at h
  · obtain rfl := Except.error.inj h
    decide
  · split at h
    · obtain rfl := Except.error.inj h
      decide
    · split_ifs at h
      obtain rfl := Except.error.inj h
      decide

theorem authenticateDecision_spec (env : Surroundings) (session : U2fData) (request : Bytes)
    (responseCapacity : ℕ) :
    Decided session (authenticateDecision env session request responseCapacity) := by
  unfold authenticateDecision
  split
  · exact decided_refusal (.refl session) (by decide)
  · rename_i apdu _
    have hrefused : Consumed session (if apdu.p1 = enforce then clearUserPresent session else session) := by
      split_ifs
      · exact consumed_clearUserPresent session
      · exact .refl session
    dsimp only
    generalize (if apdu.p1 = enforce then clearUserPresent session else session) = refused at hrefused ⊢
    by_cases hlc : apdu.lc < challengeSize + appIdSize + 1
    · rw [if_pos hlc]
      exact decided_refusal (.refl session) (by decide)
    · rw [if_neg hlc]
      by_cases hcounter : session.counter = 0xffffffff
      · rw [if_pos hcounter]
        exact decided_refusal (.refl session) (by decide)
      · rw [if_neg hcounter]
        split
        · exact decided_refusal hrefused (by decide)
        · split
          · rename_i status hstatus
            refine decided_refusal ?_ (openKeyHandle_refusal hstatus)
            split_ifs
            · exact hrefused
            · exact .refl session
          · exact decided_authenticateWithKey _ _ _ _ hcounter

/-- The count is at most what the counter file holds. -/
def Covers (count : UInt32) (device : Device) : Prop :=
  ∃ stored, device.counter = .holds stored ∧ count ≤ stored

/-- The counts of the session are reserved in the counter file. -/
structure Reserved (session : U2fData) (device : Device) : Prop where
  counter_le : session.counter ≤ session.counterHighWater
  covers : Covers session.counterHighWater device

/-- The key file and the number of secrets are the same. -/
structure SameKey (device device' : Device) : Prop where
  key : device'.key = device.key
  generated : device'.generated = device.generated

/-- What handling a request makes of the session, and what its response says. -/
structure Parsed (session : U2fData) (request : Bytes) (result : U2fData × Bytes) : Prop where
  deviceKey : result.1.deviceKey = session.deviceKey
  userPresent : result.1.userPresent = true → session.userPresent = true
  kept : isAuthentication request result.2 = false → result.1.counter = session.counter
  counted : isAuthentication request result.2 = true → session.counter < result.1.counter ∧
    responseCounter result.2 = result.1.counter.toNat
  claimed : claimsPresence request result.2 = true →
    session.userPresent = true ∧ result.1.userPresent = false

theorem lt_add_one_of_ne_max {count : UInt32} (h : count ≠ 0xffffffff) : count < count + 1 := by
  have hlt := count.toNat_lt
  have hne : count.toNat ≠ 4294967295 := fun heq ↦ h (UInt32.toNat_inj.mp heq)
  rw [UInt32.lt_iff_toNat_lt, UInt32.toNat_add]
  have hone : (1 : UInt32).toNat = 1 := rfl
  omega

/-- A response that is no success. -/
theorem parsed_refusal {session' : U2fData} {response : Bytes} (h : Consumed session session')
    (hresponse : succeeded response = false) : Parsed session request (session', response) where
  deviceKey := h.deviceKey
  userPresent := h.userPresent
  kept := fun _ ↦ h.counter
  counted := by simp [isAuthentication, hresponse]
  claimed := by simp [claimsPresence, isRegistration, isAuthentication, hresponse]

theorem Reserved.of_consumed {session' : U2fData} (h : Reserved session device)
    (hconsumed : Consumed session session') : Reserved session' device := by
  obtain ⟨hle, hcovers⟩ := h
  constructor
  · rw [hconsumed.counter, hconsumed.counterHighWater]
    exact hle
  · rw [hconsumed.counterHighWater]
    exact hcovers

/-- The counter file may lose or keep its contents, but never falls below what the session has
used. -/
theorem ensures_encodeAuthenticateResponse (hrequest : request.getD 1 0 = cmdAuthenticate)
    (hreserved : Reserved session device) :
    Ensures (encodeAuthenticateResponse env session request responseCapacity)
      (fun result device' ↦ Parsed session request result ∧ Reserved result.1 device' ∧
        SameKey device device')
      (fun device' ↦ SameKey device device' ∧ Covers session.counter device') device := by
  obtain ⟨hconsumed, hrefused, hanswered⟩ :=
    authenticateDecision_spec env session request responseCapacity
  unfold encodeAuthenticateResponse
  split
  · rename_i consumed status hdecision
    rw [hdecision] at hconsumed hrefused
    rw [ensures_pure]
    exact ⟨parsed_refusal hconsumed (succeeded_writeStatus (hrefused status rfl)),
      hreserved.of_consumed hconsumed, rfl, rfl⟩
  · rename_i consumed next response hdecision
    rw [hdecision] at hconsumed hanswered
    obtain ⟨hsigned, hmax, habsent⟩ := hanswered next response rfl
    have hnext : session.counter < next := hsigned.next ▸ lt_add_one_of_ne_max hmax
    have hauthentication : isAuthentication request response = true := by
      simp only [isAuthentication, hrequest, hsigned.succeeded]
      rfl
    have hregistration : isRegistration request response = false := by
      simp only [isRegistration, hrequest]
      rfl
    have hparsed : ∀ highWater, Parsed session request
        ({ consumed with counter := next, counterHighWater := highWater }, response) := by
      intro highWater
      refine ⟨hconsumed.deviceKey, hconsumed.userPresent, ?_, fun _ ↦ ⟨hnext, hsigned.counter⟩, ?_⟩
      · intro hnot
        rw [hauthentication] at hnot
        contradiction
      · intro hclaims
        simp only [claimsPresence, hregistration, hauthentication, hsigned.userPresent,
          Bool.false_or, Bool.true_and] at hclaims
        exact ⟨hclaims, habsent⟩
    obtain ⟨hle, stored, hstored, hcovered⟩ := hreserved
    have hhighWater : consumed.counterHighWater = session.counterHighWater :=
      hconsumed.counterHighWater
    simp only [ensures_ite]
    constructor
    · intro hlt
      -- a count above the reserved ones: what is reserved is above everything used so far
      have habove : next ≤ counterHighWater next := le_counterHighWater next
      have hkept : ∀ device', CounterReplaced (counterHighWater next) device device' →
          SameKey device device' ∧ ∃ stored', device'.counter = .holds stored' ∧
            session.counterHighWater ≤ stored' := by
        intro device' hreplaced
        refine ⟨⟨hreplaced.key, hreplaced.generated⟩, ?_⟩
        rcases hreplaced.counter with hsame | hnew
        · exact ⟨stored, hsame.trans hstored, hcovered⟩
        · exact ⟨_, hnew, UInt32.le_trans (UInt32.le_of_lt (hhighWater ▸ hlt)) habove⟩
      simp only [dataCntReserve, ensures_bind]
      generalize counterHighWater next = highWater at habove hkept ⊢
      refine ensures_dataCntWrite (fun device' hreplaced hholds ↦ ?_)
        (fun device' hreplaced ↦ ?_) fun device' hreplaced ↦ ?_
      · simp only [if_true, ensures_pure]
        have hcovers : Covers highWater device' := ⟨highWater, hholds, UInt32.le_refl _⟩
        exact ⟨hparsed highWater, ⟨habove, hcovers⟩, (hkept device' hreplaced).1⟩
      · simp only [Bool.false_eq_true, if_false, ensures_pure]
        obtain ⟨hsame, hcovers⟩ := hkept device' hreplaced
        have hfailed : succeeded (writeStatus swInsNotSupported) = false := by decide
        refine ⟨parsed_refusal hconsumed hfailed, ?_, hsame⟩
        exact Reserved.of_consumed ⟨hle, hcovers⟩ hconsumed
      · obtain ⟨hsame, stored', hstored', hcovers⟩ := hkept device' hreplaced
        exact ⟨hsame, stored', hstored', UInt32.le_trans hle hcovers⟩
    · intro hnot
      rw [ensures_pure]
      have hcovers : Covers consumed.counterHighWater device := by
        rw [hhighWater]
        exact ⟨stored, hstored, hcovered⟩
      exact ⟨hparsed consumed.counterHighWater, ⟨UInt32.not_lt.mp hnot, hcovers⟩, rfl, rfl⟩

theorem ensures_refusal {status : ℕ} (hstatus : status ∈ refusals)
    (hreserved : Reserved session device) :
    Ensures (pure (session, writeStatus status) : Program Device (U2fData × Bytes))
      (fun result device' ↦ Parsed session request result ∧ Reserved result.1 device' ∧
        SameKey device device')
      (fun device' ↦ SameKey device device' ∧ Covers session.counter device') device :=
  ⟨parsed_refusal (.refl session) (succeeded_writeStatus hstatus), hreserved, rfl, rfl⟩

theorem ensures_dispatchCommand (hreserved : Reserved session device) :
    Ensures (dispatchCommand env session request responseCapacity)
      (fun result device' ↦ Parsed session request result ∧ Reserved result.1 device' ∧
        SameKey device device')
      (fun device' ↦ SameKey device device' ∧ Covers session.counter device') device := by
  unfold dispatchCommand
  split_ifs with hregister hauthenticate hversion hfits
  · obtain ⟨hconsumed, hpresent⟩ :=
      encodeRegisterResponse_spec env session request responseCapacity
    have hnot : isAuthentication request
        (encodeRegisterResponse env session request responseCapacity).2 = false := by
      simp only [isAuthentication, hregister]
      rfl
    rw [ensures_pure]
    refine ⟨⟨hconsumed.deviceKey, hconsumed.userPresent, fun _ ↦ hconsumed.counter, ?_, ?_⟩,
      hreserved.of_consumed hconsumed, rfl, rfl⟩
    · intro hyes
      rw [hnot] at hyes
      contradiction
    · intro hclaims
      simp only [claimsPresence, hnot, Bool.false_and, Bool.or_false, isRegistration,
        Bool.and_eq_true] at hclaims
      exact hpresent hclaims.2
  · exact ensures_encodeAuthenticateResponse hauthenticate hreserved
  · exact ensures_refusal (by decide) hreserved
  · -- the version is neither a registration nor an authentication
    rw [ensures_pure]
    refine ⟨⟨rfl, id, fun _ ↦ rfl, ?_, ?_⟩, hreserved, rfl, rfl⟩
    · simp only [isAuthentication, hversion]
      simp [cmdVersion, cmdAuthenticate]
    · simp only [claimsPresence, isRegistration, isAuthentication, hversion]
      simp [cmdVersion, cmdAuthenticate, cmdRegister]
  · exact ensures_refusal (by decide) hreserved

/-- What handling a request does, whatever happens to the counter file on the way. -/
theorem ensures_msgParse (env : Surroundings) (request : Bytes) (responseCapacity : ℕ)
    (hreserved : Reserved session device) :
    Ensures (msgParse env session request responseCapacity)
      (fun result device' ↦ Parsed session request result ∧ Reserved result.1 device' ∧
        SameKey device device')
      (fun device' ↦ SameKey device device' ∧ Covers session.counter device') device := by
  unfold msgParse
  by_cases hready : (!session.ready) = true
  · rw [if_pos hready]
    exact ⟨parsed_refusal (.refl session) (by decide), hreserved, rfl, rfl⟩
  · rw [if_neg hready]
    by_cases hcapacity : responseCapacity < 2
    · rw [if_pos hcapacity]
      exact ensures_refusal (by decide) hreserved
    · rw [if_neg hcapacity]
      split
      · rename_i status hstatus
        exact ensures_refusal (mem_refusals_of_validateRequestStatus hstatus) hreserved
      · exact ensures_dispatchCommand hreserved

end Specifications

section InitialisationSpecifications

variable {device : Device}

/-- What an initialisation does to the files: the key file holds what it held or a new secret, and
the counter file what it held or, where it was missing, zero. -/
structure Initialised (device device' : Device) : Prop where
  key : device'.key = device.key ∨ device.key = .missing ∧ device.generated < device'.generated ∧
    ∃ bytes, device'.key = .holds ⟨device.generated, bytes⟩
  counter : device'.counter = device.counter ∨ device.counter = .missing
  generated : device.generated ≤ device'.generated

theorem Initialised.of_same {device' : Device} (h : SameFiles device device') :
    Initialised device device' :=
  ⟨Or.inl h.key, Or.inl h.counter, Nat.le_of_eq h.generated.symm⟩

theorem stored_missing {Value : Type} {file : Stored Value} (h : file.exists = false) :
    file = .missing := by
  cases file with
  | missing => rfl
  | damaged => simp [Stored.exists] at h
  | holds => simp [Stored.exists] at h

/-- The secret that was loaded is the one in the key file, or a new one that was stored there. -/
theorem ensures_loadDeviceKey :
    Ensures loadDeviceKey
      (fun result device' ↦ Initialised device device' ∧ device'.counter = device.counter ∧
        ∀ key, result = some key → device'.key = .holds key)
      (fun device' ↦ Initialised device device' ∧ device'.counter = device.counter) device := by
  simp only [loadDeviceKey, ensures_bind]
  refine ensures_dataKeyLoad fun result middle hsame hresult ↦ ?_
  cases result with
  | some key =>
    simp only [ensures_pure]
    refine ⟨.of_same hsame, hsame.counter, ?_⟩
    rintro _ ⟨rfl⟩
    exact hsame.key.trans (hresult key rfl)
  | none =>
    simp only [ensures_bind]
    refine ensures_dataKeyExists ?_
    by_cases hexists : middle.key.exists = true
    · simp only [hexists, if_true, ensures_pure]
      exact ⟨.of_same hsame, hsame.counter, by simp⟩
    · have hmissing : device.key = .missing :=
        hsame.key.symm.trans (stored_missing (Bool.eq_false_iff.mpr hexists))
      have hreplaced : ∀ device', KeyReplaced middle device' →
          Initialised device device' ∧ device'.counter = device.counter := by
        intro device' h
        have hgenerated : device'.generated = device.generated + 1 := by
          rw [h.generated, hsame.generated]
        refine ⟨⟨?_, Or.inl (h.counter.trans hsame.counter), ?_⟩, h.counter.trans hsame.counter⟩
        · rcases h.key with hold | ⟨bytes, hnew⟩
          · exact Or.inl (hold.trans hsame.key)
          · exact Or.inr ⟨hmissing, by omega, bytes, hsame.generated ▸ hnew⟩
        · omega
      simp only [hexists, Bool.false_eq_true, if_false]
      refine ensures_dataKeyGenerate (fun bytes device' h hholds ↦ ?_) (fun device' h ↦ ?_)
        fun device' h ↦ hreplaced device' h
      · refine ⟨(hreplaced device' h).1, (hreplaced device' h).2, ?_⟩
        rintro _ ⟨rfl⟩
        exact hholds
      · exact ⟨(hreplaced device' h).1, (hreplaced device' h).2, by simp⟩

/-- The count that was loaded is the one in the counter file. -/
theorem ensures_loadCounter :
    Ensures loadCounter
      (fun result device' ↦ SameKey device device' ∧
        (device'.counter = device.counter ∨ device.counter = .missing) ∧
          ∀ count, result = some count → device'.counter = .holds count)
      (fun device' ↦ SameKey device device' ∧
        (device'.counter = device.counter ∨ device.counter = .missing)) device := by
  simp only [loadCounter, ensures_bind]
  refine ensures_dataCntRead fun result middle hsame hresult ↦ ?_
  have hkey : SameKey device middle := ⟨hsame.key, hsame.generated⟩
  cases result with
  | some count =>
    simp only [ensures_pure]
    refine ⟨hkey, Or.inl hsame.counter, ?_⟩
    rintro _ ⟨rfl⟩
    exact hsame.counter.trans (hresult count rfl)
  | none =>
    simp only [ensures_bind]
    refine ensures_dataCntExists ?_
    by_cases hexists : middle.counter.exists = true
    · simp only [hexists, if_true, ensures_pure]
      exact ⟨hkey, Or.inl hsame.counter, by simp⟩
    · have hmissing : device.counter = .missing :=
        hsame.counter.symm.trans (stored_missing (Bool.eq_false_iff.mpr hexists))
      have hreplaced : ∀ device', CounterReplaced 0 middle device' → SameKey device device' :=
        fun device' h ↦ ⟨h.key.trans hsame.key, h.generated.trans hsame.generated⟩
      simp only [hexists, Bool.false_eq_true, if_false, ensures_bind]
      refine ensures_dataCntWrite (fun device' h hholds ↦ ?_) (fun device' h ↦ ?_)
        fun device' h ↦ ⟨hreplaced device' h, Or.inr hmissing⟩
      · simp only [if_true, ensures_pure]
        refine ⟨hreplaced device' h, Or.inr hmissing, ?_⟩
        rintro _ ⟨rfl⟩
        exact hholds
      · simp only [Bool.false_eq_true, if_false, ensures_pure]
        exact ⟨hreplaced device' h, Or.inr hmissing, by simp⟩

/-- A session is started from what the files hold. -/
theorem ensures_u2fInit (attestation : Option Bytes) :
    Ensures (u2fInit attestation)
      (fun result device' ↦ Initialised device device' ∧ ∀ session, result = some session →
        device'.key = .holds session.deviceKey ∧ device'.counter = .holds session.counter ∧
          session.counterHighWater = session.counter ∧ session.userPresent = false)
      (Initialised device) device := by
  simp only [u2fInit, ensures_bind]
  refine ensures_loadDeviceKey.mono ?_ fun _ h ↦ h.1
  rintro result middle ⟨hinit, hcounter, hkey⟩
  cases result with
  | none =>
    simp only [ensures_pure]
    exact ⟨hinit, by simp⟩
  | some deviceKey =>
    have hafter : ∀ device', SameKey middle device' ∧
        (device'.counter = middle.counter ∨ middle.counter = .missing) →
        Initialised device device' := by
      rintro device' ⟨hsame, hcount⟩
      refine ⟨?_, ?_, hsame.generated ▸ hinit.generated⟩
      · rw [hsame.key, hsame.generated]
        exact hinit.key
      · rw [← hcounter]
        exact hcount
    simp only [ensures_bind]
    refine ensures_loadCounter.mono ?_ fun device' h ↦ hafter device' h
    rintro count device' ⟨hsame, hcount, hholds⟩
    cases count with
    | none =>
      simp only [ensures_pure]
      exact ⟨hafter device' ⟨hsame, hcount⟩, by simp⟩
    | some count =>
      simp only [ensures_pure]
      refine ⟨hafter device' ⟨hsame, hcount⟩, ?_⟩
      rintro _ ⟨rfl⟩
      exact ⟨hsame.key.trans (hkey deviceKey rfl), hholds count rfl, rfl, rfl⟩

end InitialisationSpecifications

end ZeroFido.U2f
