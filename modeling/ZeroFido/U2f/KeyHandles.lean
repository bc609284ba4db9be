import ZeroFido.U2f.Session

/-!
# Key handles

What a handle of this device is for an application (`IsKeyHandle`), the handle that a registration
gives out (`responseKeyHandle`), and the check that an authentication makes of the one it is given
(`handleCheck`), which looks at nothing outside the data that the request declares.

`key_handles_bound` is the result for the two encoders.
-/

set_option autoImplicit false
set_option relaxedAutoImplicit false

namespace ZeroFido.U2f

section Handles

/-- A handle of a device for an application: the nonce that the private key is derived from, behind
the MAC of the private key. -/
def IsKeyHandle (env : Surroundings) (deviceKey appId handle privateKey : Bytes) : Prop :=
  ∃ mac nonce, handle = mac ++ nonce ∧ mac.length = hashSize ∧ nonce.length = nonceSize ∧
    env.crypto.hmacSha256 deviceKey (appId ++ nonce) = some privateKey ∧
    env.privateKeyValid privateKey = true ∧
    env.crypto.hmacSha256 deviceKey (privateKey ++ appId) = some mac

/-- An HMAC fills its array. -/
def HmacFills (env : Surroundings) : Prop :=
  ∀ key data mac, env.crypto.hmacSha256 key data = some mac → mac.length = hashSize

/-- The arrays that the primitives fill have their sizes. -/
structure FixedSizes (env : Surroundings) : Prop where
  hmac : HmacFills env
  nonces : ∀ nonce ∈ env.nonces, nonce.length = nonceSize
  publicKey : ∀ privateKey publicX publicY, privateKey.length = privateKeyLen →
    env.publicKey privateKey = some (publicX, publicY) →
      publicX.length = publicKeyLen ∧ publicY.length = publicKeyLen

variable {env : Surroundings} {session : U2fData} {appId nonce handle privateKey : Bytes}

theorem derivePrivateKey_eq_some_iff :
    derivePrivateKey env session appId nonce = some privateKey ↔
      env.crypto.hmacSha256 session.deviceKey.bytes (appId ++ nonce) = some privateKey ∧
        env.privateKeyValid privateKey = true := by
  unfold derivePrivateKey
  cases env.crypto.hmacSha256 session.deviceKey.bytes (appId ++ nonce) with
  | none => simp
  | some derived =>
    by_cases hvalid : env.privateKeyValid derived = true
    · simp only [hvalid, if_true, Option.some.injEq]
      refine ⟨?_, And.left⟩
      rintro rfl
      exact ⟨rfl, hvalid⟩
    · simp only [hvalid, Option.some.injEq]
      refine ⟨fun h ↦ absurd h (by simp), ?_⟩
      rintro ⟨rfl, h⟩
      exact absurd h hvalid

/-- The handle check finds the private key of a handle, and refuses what is no handle. -/
theorem openKeyHandle_eq_ok_iff (hfills : HmacFills env)
    (hlength : handle.length = 2 * hashSize) :
    openKeyHandle env session appId handle = .ok privateKey ↔
      IsKeyHandle env session.deviceKey.bytes appId handle privateKey := by
  have hsize : hashSize = 32 ∧ nonceSize = 32 := ⟨rfl, rfl⟩
  have hnonce : (handle.drop hashSize).take nonceSize = handle.drop hashSize :=
    List.take_of_length_le (by rw [List.length_drop]; omega)
  constructor
  · intro h
    unfold openKeyHandle at h
    rw [hnonce] at h
    split at h
    · contradiction
    · rename_i derived hderive
      split at h
      · contradiction
      · rename_i mac hmac
        split_ifs at h with hequal
        obtain rfl := Except.ok.inj h
        obtain ⟨hderived, hvalid⟩ := derivePrivateKey_eq_some_iff.mp hderive
        have hmacLength := hfills _ _ _ hmac
        have hfront : handle.take hashSize = mac := by
          have htaken := eq_of_beq hequal
          rwa [List.take_of_length_le (Nat.le_of_eq hmacLength)] at htaken
        refine ⟨mac, handle.drop hashSize, ?_, hmacLength, ?_, hderived, hvalid, hmac⟩
        · rw [← hfront, List.take_append_drop]
        · rw [List.length_drop]
          omega
  · rintro ⟨mac, nonce, rfl, hmacLength, hnonceLength, hderived, hvalid, hmac⟩
    have hbehind : ((mac ++ nonce).drop hashSize).take nonceSize = nonce := by
      rw [List.drop_left' hmacLength, List.take_of_length_le (Nat.le_of_eq hnonceLength)]
    have hequal : constantTimeEqual (mac ++ nonce) mac hashSize = true := by
      rw [constantTimeEqual, List.take_left' hmacLength,
        List.take_of_length_le (Nat.le_of_eq hmacLength)]
      exact beq_self_eq_true _
    unfold openKeyHandle
    rw [hbehind, derivePrivateKey_eq_some_iff.mpr ⟨hderived, hvalid⟩]
    dsimp only
    rw [computeHandleMac, hmac]
    dsimp only
    rw [if_pos hequal]

/-- What stands behind the bytes of a handle does not matter. -/
theorem openKeyHandle_append (hlength : handle.length = 2 * hashSize) (rest : Bytes) :
    openKeyHandle env session appId (handle ++ rest) = openKeyHandle env session appId handle := by
  have hsize : hashSize = 32 ∧ nonceSize = 32 := ⟨rfl, rfl⟩
  have hnonce : ((handle ++ rest).drop hashSize).take nonceSize =
      (handle.drop hashSize).take nonceSize := by
    rw [List.drop_append_of_le_length (by omega),
      List.take_append_of_le_length (by rw [List.length_drop]; omega)]
  have hequal (mac : Bytes) : constantTimeEqual (handle ++ rest) mac hashSize =
      constantTimeEqual handle mac hashSize := by
    rw [constantTimeEqual, constantTimeEqual, List.take_append_of_le_length (by omega)]
  unfold openKeyHandle
  simp only [hnonce, hequal]

end Handles

section Requests

variable {request : Bytes} {apdu : ParsedApdu} {data : Bytes}

/-- The data that the length in a request declares. -/
def declaredData (request : Bytes) : Bytes :=
  ((parseApduHeader request false).map fun apdu ↦ (apdu.data.getD []).take apdu.lc).getD []

def challengeOf (request : Bytes) : Bytes := (declaredData request).take challengeSize

def applicationOf (request : Bytes) : Bytes :=
  ((declaredData request).drop challengeSize).take appIdSize

def keyHandleOf (request : Bytes) : Bytes :=
  (declaredData request).drop (challengeSize + appIdSize + 1)

theorem declaredData_eq (h : parseApduHeader request false = some apdu) :
    declaredData request = (apdu.data.getD []).take apdu.lc := by
  rw [declaredData, h]
  rfl

/-- The data of a parsed request are at least as long as it declares. -/
theorem parseApduHeader_spec (h : parseApduHeader request false = some apdu) :
    apdu.p1 = request.getD 2 0 ∧ apdu.lc ≤ (apdu.data.getD []).length := by
  unfold parseApduHeader at h
  rw [Bool.false_and] at h
  split_ifs at h with hshort hfalse hextended
  · contradiction
  · dsimp only at h
    split_ifs at h with hlength
    obtain rfl := Option.some.inj h
    refine ⟨rfl, ?_⟩
    dsimp only [Option.getD_some]
    rw [List.length_drop]
    omega
  · dsimp only at h
    split_ifs at h with hlength
    obtain rfl := Option.some.inj h
    refine ⟨rfl, ?_⟩
    dsimp only [Option.getD_some]
    rw [List.length_drop]
    omega

/-- An authentication request that passed the checks declares a challenge, an application, and a key
handle of the length that stands before it. -/
structure IsAuthenticate (request : Bytes) (apdu : ParsedApdu) : Prop where
  parsed : parseApduHeader request false = some apdu
  lc : apdu.lc = challengeSize + appIdSize + 1 +
    ((apdu.data.getD []).getD (challengeSize + appIdSize) 0).toNat

theorem isAuthenticate_of_validate (h : validateRequestStatus request = none)
    (hins : request.getD 1 0 = cmdAuthenticate) : ∃ apdu, IsAuthenticate request apdu := by
  have hversion : cmdAuthenticate ≠ cmdVersion := by decide
  have hregister : cmdAuthenticate ≠ cmdRegister := by decide
  unfold validateRequestStatus at h
  rw [hins] at h
  split_ifs at h with hshort hcla hlong
  unfold validateAuthenticateStatus at h
  split at h
  · contradiction
  · rename_i apdu hparsed
    split_ifs at h with hp1 hlc
    split at h
    · contradiction
    · rename_i data hdata
      dsimp only at h
      split_ifs at h with hlength
      refine ⟨apdu, hparsed, ?_⟩
      rw [hdata]
      exact not_not.mp hlength

end Requests

section Authentication

variable {env : Surroundings} {session : U2fData} {request : Bytes} {apdu : ParsedApdu}
  {privateKey : Bytes} {responseCapacity : ℕ}

/-- What `zf_u2f_encode_authenticate_response` does up to the check of the handle, with the check: a
status that refuses the request, or the private key of the handle. -/
def handleCheck (env : Surroundings) (session : U2fData) (request : Bytes) : Except ℕ Bytes :=
  match parseApduHeader request false with
  | none => .error swWrongLength
  | some apdu =>
    let data := apdu.data.getD []
    if apdu.lc < challengeSize + appIdSize + 1 then .error swWrongLength
    else if session.counter = 0xffffffff then .error swInsNotSupported
    else
      let keyHandleLen := (data.getD (challengeSize + appIdSize) 0).toNat
      if keyHandleLen ≠ 2 * hashSize then .error swWrongData
      else
        openKeyHandle env session ((data.drop challengeSize).take appIdSize)
          (data.drop (challengeSize + appIdSize + 1))

/-- A request that the handle check refuses is refused with its status. -/
theorem authenticateDecision_of_error {status : ℕ}
    (h : handleCheck env session request = .error status) :
    (authenticateDecision env session request responseCapacity).2 = .error status := by
  unfold handleCheck at h
  unfold authenticateDecision
  cases hparsed : parseApduHeader request false with
  | none =>
    rw [hparsed] at h
    exact congrArg Except.error (Except.error.inj h)
  | some apdu =>
    rw [hparsed] at h
    dsimp only at h ⊢
    split_ifs at h ⊢ <;> try exact congrArg Except.error (Except.error.inj h)
    all_goals
      rw [h]

/-- The challenge, the application and the handle are those of the declared data. -/
theorem declared_parts (hrequest : IsAuthenticate request apdu) :
    (apdu.data.getD []).take challengeSize = challengeOf request ∧
      ((apdu.data.getD []).drop challengeSize).take appIdSize = applicationOf request ∧
      ((apdu.data.getD []).getD (challengeSize + appIdSize) 0).toNat =
        (keyHandleOf request).length ∧
      ∃ rest, (apdu.data.getD []).drop (challengeSize + appIdSize + 1) =
        keyHandleOf request ++ rest := by
  have hsize : challengeSize = 32 ∧ appIdSize = 32 := ⟨rfl, rfl⟩
  obtain ⟨-, hdeclared⟩ := parseApduHeader_spec hrequest.parsed
  have hlc := hrequest.lc
  unfold challengeOf applicationOf keyHandleOf
  rw [declaredData_eq hrequest.parsed]
  generalize apdu.data.getD [] = data at hdeclared hlc ⊢
  refine ⟨?_, ?_, ?_, (data.drop (challengeSize + appIdSize + 1)).drop
    (data.getD (challengeSize + appIdSize) 0).toNat, ?_⟩
  · rw [List.take_take, Nat.min_eq_left (by omega)]
  · rw [List.drop_take, List.take_take, Nat.min_eq_left (by omega)]
  · rw [List.length_drop, List.length_take, Nat.min_eq_left hdeclared]
    omega
  · have hcount : apdu.lc - (challengeSize + appIdSize + 1) =
        (data.getD (challengeSize + appIdSize) 0).toNat := by
      omega
    rw [List.drop_take, hcount, List.take_append_drop]

/-- The handle check is one of the declared data. -/
theorem handleCheck_eq (hcounter : session.counter ≠ 0xffffffff)
    (hrequest : IsAuthenticate request apdu) :
    handleCheck env session request =
      if (keyHandleOf request).length ≠ 2 * hashSize then .error swWrongData
      else openKeyHandle env session (applicationOf request) (keyHandleOf request) := by
  obtain ⟨-, happlication, hlength, rest, hhandle⟩ := declared_parts hrequest
  have hlc := hrequest.lc
  unfold handleCheck
  rw [hrequest.parsed]
  dsimp only
  rw [if_neg (by omega), if_neg hcounter, happlication, hlength, hhandle]
  by_cases hwhole : (keyHandleOf request).length = 2 * hashSize
  · rw [if_neg (not_not.mpr hwhole), if_neg (not_not.mpr hwhole), openKeyHandle_append hwhole]
  · rw [if_pos hwhole, if_pos hwhole]

/-- With a counter at its maximum, every request is refused before its handle is looked at. -/
theorem handleCheck_of_exhausted (hcounter : session.counter = 0xffffffff)
    (hrequest : IsAuthenticate request apdu) :
    handleCheck env session request = .error swInsNotSupported := by
  have hlc := hrequest.lc
  unfold handleCheck
  rw [hrequest.parsed]
  dsimp only
  rw [if_neg (by omega), if_pos hcounter]

/-- An authentication gets past the handle check exactly with a handle of the device for the
application. -/
theorem handleCheck_eq_ok_iff (hfills : HmacFills env) (hcounter : session.counter ≠ 0xffffffff)
    (hrequest : IsAuthenticate request apdu) :
    handleCheck env session request = .ok privateKey ↔
      IsKeyHandle env session.deviceKey.bytes (applicationOf request) (keyHandleOf request)
        privateKey := by
  rw [handleCheck_eq hcounter hrequest]
  by_cases hwhole : (keyHandleOf request).length = 2 * hashSize
  · rw [if_neg (not_not.mpr hwhole), openKeyHandle_eq_ok_iff hfills hwhole]
  · rw [if_pos hwhole]
    refine ⟨fun h ↦ by contradiction, ?_⟩
    rintro ⟨mac, nonce, hhandle, hmac, hnonce, -⟩
    have hsize : hashSize = 32 ∧ nonceSize = 32 := ⟨rfl, rfl⟩
    rw [hhandle, List.length_append] at hwhole
    omega

/-- Past the handle check, the request is answered with the private key of the handle. -/
theorem authenticateDecision_of_ok (hrequest : IsAuthenticate request apdu)
    (h : handleCheck env session request = .ok privateKey) :
    authenticateDecision env session request responseCapacity =
      authenticateWithKey env session (request.getD 2 0) (challengeOf request)
        (applicationOf request) privateKey responseCapacity := by
  obtain ⟨hchallenge, happlication, -, -⟩ := declared_parts hrequest
  obtain ⟨hp1, -⟩ := parseApduHeader_spec hrequest.parsed
  unfold handleCheck at h
  unfold authenticateDecision
  rw [hrequest.parsed] at h ⊢
  dsimp only at h ⊢
  split_ifs at h ⊢
  all_goals
    rw [h, ← hp1, ← hchallenge, ← happlication]

end Authentication

section Registration

variable {env : Surroundings} {session : U2fData} {challenge appId request : Bytes}
  {responseCapacity : ℕ}

/-- The public key in the response of a registration. -/
def responsePublicKey (response : Bytes) : Bytes := (response.drop 1).take 65

/-- The key handle in the response of a registration. -/
def responseKeyHandle (response : Bytes) : Bytes := (response.drop 67).take (2 * hashSize)

/-- A successful registration gives out the public key of a private key and its handle. -/
structure Registered (env : Surroundings) (deviceKey appId response privateKey : Bytes) : Prop where
  publicKey : ∃ publicX publicY, env.publicKey privateKey = some (publicX, publicY) ∧
    responsePublicKey response = 0x04 :: publicX ++ publicY
  keyHandle : IsKeyHandle env deviceKey appId (responseKeyHandle response) privateKey

theorem exists_of_drawPrivateKey {nonce privateKey : Bytes}
    (h : drawPrivateKey env session appId = some (nonce, privateKey)) :
    nonce ∈ env.nonces ∧ derivePrivateKey env session appId nonce = some privateKey := by
  obtain ⟨drawn, hdrawn, hderive⟩ := List.exists_of_findSome?_eq_some h
  obtain ⟨derived, hderived, hpair⟩ := Option.map_eq_some_iff.mp hderive
  obtain ⟨rfl, rfl⟩ := Prod.mk.inj hpair
  exact ⟨List.mem_of_mem_take hdrawn, hderived⟩

/-- The parts of a response stand where they are read. -/
theorem response_parts {publicX publicY handle : Bytes} (hx : publicX.length = publicKeyLen)
    (hy : publicY.length = publicKeyLen) (hhandle : handle.length = 2 * hashSize) (rest : Bytes) :
    responsePublicKey (0x05 :: (0x04 :: publicX ++ publicY) ++
        (UInt8.ofNat (2 * hashSize) :: handle) ++ rest) = 0x04 :: publicX ++ publicY ∧
      responseKeyHandle (0x05 :: (0x04 :: publicX ++ publicY) ++
        (UInt8.ofNat (2 * hashSize) :: handle) ++ rest) = handle := by
  have hsize : publicKeyLen = 32 ∧ hashSize = 32 := ⟨rfl, rfl⟩
  have hkey : (0x04 :: publicX ++ publicY).length = 65 := by
    rw [List.length_append, List.length_cons]
    omega
  generalize 0x04 :: publicX ++ publicY = publicKey at hkey ⊢
  have hfront : (0x05 :: publicKey ++ [UInt8.ofNat (2 * hashSize)]).length = 67 := by
    rw [List.length_append, List.length_cons, List.length_singleton]
    omega
  have hresponse : 0x05 :: publicKey ++ (UInt8.ofNat (2 * hashSize) :: handle) ++ rest =
      (0x05 :: publicKey ++ [UInt8.ofNat (2 * hashSize)]) ++ (handle ++ rest) := by
    simp
  constructor
  · unfold responsePublicKey
    rw [List.append_assoc, List.cons_append, List.drop_succ_cons, List.drop_zero,
      List.take_left' hkey]
  · unfold responseKeyHandle
    rw [hresponse, List.drop_left' hfront, List.take_left' hhandle]

/-- A registration is refused, or its response has the key and the handle that were drawn. -/
theorem registerResponse_cases (env : Surroundings) (session : U2fData) (challenge appId : Bytes)
    (responseCapacity : ℕ) :
    registerResponse env session challenge appId responseCapacity = writeStatus swInsNotSupported ∨
      ∃ nonce privateKey mac publicX publicY rest,
        drawPrivateKey env session appId = some (nonce, privateKey) ∧
        computeHandleMac env session privateKey appId = some mac ∧
        env.publicKey privateKey = some (publicX, publicY) ∧
        registerResponse env session challenge appId responseCapacity =
          0x05 :: (0x04 :: publicX ++ publicY) ++ (UInt8.ofNat (2 * hashSize) :: (mac ++ nonce)) ++
            rest := by
  unfold registerResponse
  dsimp only
  split
  · exact Or.inl rfl
  · rename_i nonce privateKey hdraw
    split
    · exact Or.inl rfl
    · rename_i mac hmac
      split
      · exact Or.inl rfl
      · rename_i publicX publicY hpublic
        split_ifs
        · exact Or.inl rfl
        · split
          · exact Or.inl rfl
          · rename_i signature hsign
            split_ifs
            · exact Or.inl rfl
            · refine Or.inr ⟨nonce, privateKey, mac, publicX, publicY,
                env.certificate ++ signature ++ writeStatus swNoError, hdraw, hmac, hpublic, ?_⟩
              simp only [List.append_assoc, List.cons_append]

/-- A successful response registers a private key. -/
theorem registered_of_succeeded (hsizes : FixedSizes env)
    (h : succeeded (registerResponse env session challenge appId responseCapacity) = true) :
    ∃ privateKey, Registered env session.deviceKey.bytes appId
      (registerResponse env session challenge appId responseCapacity) privateKey := by
  rcases registerResponse_cases env session challenge appId responseCapacity with hrefused |
    ⟨nonce, privateKey, mac, publicX, publicY, rest, hdraw, hmac, hpublic, hresponse⟩
  · rw [hrefused] at h
    exact not_succeeded (by decide) h
  · obtain ⟨hdrawn, hderive⟩ := exists_of_drawPrivateKey hdraw
    obtain ⟨hderived, hvalid⟩ := derivePrivateKey_eq_some_iff.mp hderive
    have hmacLength := hsizes.hmac _ _ _ hmac
    have hnonceLength := hsizes.nonces nonce hdrawn
    obtain ⟨hx, hy⟩ := hsizes.publicKey _ _ _ (hsizes.hmac _ _ _ hderived) hpublic
    have hhandle : (mac ++ nonce).length = 2 * hashSize := by
      rw [List.length_append, hmacLength, hnonceLength]
      rfl
    obtain ⟨hkeyPart, hhandlePart⟩ := response_parts hx hy hhandle rest
    refine ⟨privateKey, ⟨publicX, publicY, hpublic, ?_⟩, ?_⟩
    · rw [hresponse, hkeyPart]
    · rw [hresponse, hhandlePart]
      exact ⟨mac, nonce, rfl, hmacLength, hnonceLength, hderived, hvalid, hmac⟩

/-- A registration that returned 9000 registers a private key for the application it declares. -/
theorem registered_of_encodeRegisterResponse (hsizes : FixedSizes env)
    (h : succeeded (encodeRegisterResponse env session request responseCapacity).2 = true) :
    ∃ privateKey, Registered env session.deviceKey.bytes (applicationOf request)
      (encodeRegisterResponse env session request responseCapacity).2 privateKey := by
  unfold encodeRegisterResponse at h ⊢
  cases hparsed : parseApduHeader request false with
  | none =>
    rw [hparsed] at h
    exact not_succeeded (by decide) h
  | some apdu =>
    rw [hparsed] at h
    dsimp only at h ⊢
    split_ifs at h ⊢ with hlc hready hpresent
    · exact not_succeeded (by decide) h
    · exact not_succeeded (by decide) h
    · exact not_succeeded (by decide) h
    · have happlication : applicationOf request =
          ((apdu.data.getD []).drop challengeSize).take appIdSize := by
        have hsize : challengeSize = 32 ∧ appIdSize = 32 := ⟨rfl, rfl⟩
        rw [applicationOf, declaredData_eq hparsed, List.drop_take, List.take_take,
          Nat.min_eq_left (by omega)]
      rw [happlication]
      exact registered_of_succeeded hsizes h

end Registration

section Binding

/-- What an authentication does with a handle: the handle check accepts those of the device for the
application, with which the request is answered, and refuses the others. -/
structure ChecksHandle (env : Surroundings) (session : U2fData) (request : Bytes) : Prop where
  accepts_iff : ∀ privateKey, handleCheck env session request = .ok privateKey ↔
    IsKeyHandle env session.deviceKey.bytes (applicationOf request) (keyHandleOf request) privateKey
  accepted : ∀ privateKey responseCapacity, handleCheck env session request = .ok privateKey →
    authenticateDecision env session request responseCapacity =
      authenticateWithKey env session (request.getD 2 0) (challengeOf request)
        (applicationOf request) privateKey responseCapacity
  refused : ∀ status responseCapacity, handleCheck env session request = .error status →
    (authenticateDecision env session request responseCapacity).2 = .error status

theorem checksHandle {env : Surroundings} {session : U2fData} {request : Bytes}
    (hfills : HmacFills env) (hcounter : session.counter ≠ 0xffffffff)
    (hvalid : validateRequestStatus request = none) (hins : request.getD 1 0 = cmdAuthenticate) :
    ChecksHandle env session request := by
  obtain ⟨apdu, hrequest⟩ := isAuthenticate_of_validate hvalid hins
  exact ⟨fun _ ↦ handleCheck_eq_ok_iff hfills hcounter hrequest,
    fun _ _ ↦ authenticateDecision_of_ok hrequest, fun _ _ ↦ authenticateDecision_of_error⟩

/-- A successful registration gives out a handle that every later authentication for its
application answers with the registered private key, whatever the random stream and the certificate
then are; and an authentication accepts nothing but the handles of the device for the application
it declares. -/
theorem key_handles_bound {env : Surroundings} (hsizes : FixedSizes env) :
    (∀ session request responseCapacity,
      succeeded (encodeRegisterResponse env session request responseCapacity).2 = true →
      ∃ privateKey,
        Registered env session.deviceKey.bytes (applicationOf request)
          (encodeRegisterResponse env session request responseCapacity).2 privateKey ∧
        ∀ nonces certificate session' request' responseCapacity',
          session'.deviceKey.bytes = session.deviceKey.bytes → session'.counter ≠ 0xffffffff →
          validateRequestStatus request' = none → request'.getD 1 0 = cmdAuthenticate →
          applicationOf request' = applicationOf request →
          keyHandleOf request' =
            responseKeyHandle (encodeRegisterResponse env session request responseCapacity).2 →
          authenticateDecision { env with nonces, certificate } session' request'
              responseCapacity' =
            authenticateWithKey { env with nonces, certificate } session' (request'.getD 2 0)
              (challengeOf request') (applicationOf request') privateKey responseCapacity') ∧
    ∀ session request, session.counter ≠ 0xffffffff → validateRequestStatus request = none →
      request.getD 1 0 = cmdAuthenticate → ChecksHandle env session request := by
  refine ⟨fun session request responseCapacity hsucceeded ↦ ?_,
    fun session request ↦ checksHandle hsizes.hmac⟩
  obtain ⟨privateKey, hregistered⟩ := registered_of_encodeRegisterResponse hsizes hsucceeded
  refine ⟨privateKey, hregistered, fun nonces certificate session' request' responseCapacity' hkey
    hcounter hvalid hins happlication hhandle ↦ ?_⟩
  have hfills : HmacFills { env with nonces, certificate } := hsizes.hmac
  have hchecks := checksHandle hfills hcounter hvalid hins
  refine hchecks.accepted privateKey responseCapacity' ((hchecks.accepts_iff privateKey).mpr ?_)
  rw [hkey, happlication, hhandle]
  exact hregistered.keyHandle

theorem fixedSizes_standIn : FixedSizes .standIn where
  hmac key data mac h := by
    obtain rfl := Option.some.inj h
    rw [List.length_take, List.length_append, List.length_replicate]
    exact Nat.min_eq_left (Nat.le_add_left _ _)
  nonces nonce hnonce := by
    obtain rfl := List.mem_singleton.mp hnonce
    rfl
  publicKey privateKey publicX publicY hlength h := by
    obtain ⟨rfl, rfl⟩ := Prod.mk.inj (Option.some.inj h)
    exact ⟨hlength, hlength⟩

/-- A session in which a registration succeeds. -/
def registeringSession (counter : UInt32) : U2fData where
  deviceKey := ⟨0, List.replicate 32 7⟩
  certKey := []
  counter := counter
  counterHighWater := counter
  certReady := true
  ready := true
  userPresent := true

/-- A registration for an application. -/
def registrationRequest : Bytes :=
  [0x00, cmdRegister, 0x03, 0x00, 0x00, 0x00, 0x40] ++ List.replicate 32 1 ++ List.replicate 32 2

/-- The handle that the registration gives out. -/
def registeredHandle : Bytes := List.replicate 32 2 ++ List.replicate 32 0

/-- An authentication for the application with the handle. -/
def authenticationRequest : Bytes :=
  [0x00, cmdAuthenticate, enforce, 0x00, 0x00, 0x00, 0x81] ++ List.replicate 32 3 ++
    List.replicate 32 2 ++ 0x40 :: registeredHandle

/-- A registration and a later authentication. -/
theorem key_handles_bound_standIn :
    (∃ privateKey, Registered .standIn (List.replicate 32 7) (List.replicate 32 2)
        (encodeRegisterResponse .standIn (registeringSession 0) registrationRequest 256).2
        privateKey ∧
      authenticateDecision .standIn (registeringSession 5) authenticationRequest 256 =
        authenticateWithKey .standIn (registeringSession 5) enforce (List.replicate 32 3)
          (List.replicate 32 2) privateKey 256) ∧
    ChecksHandle .standIn (registeringSession 5) authenticationRequest := by
  have hsucceeded : succeeded
      (encodeRegisterResponse .standIn (registeringSession 0) registrationRequest 256).2 =
        true := by
    decide +kernel
  have hvalid : validateRequestStatus authenticationRequest = none := by decide +kernel
  have hhandle : keyHandleOf authenticationRequest = responseKeyHandle
      (encodeRegisterResponse .standIn (registeringSession 0) registrationRequest 256).2 := by
    decide +kernel
  have hchallenge : challengeOf authenticationRequest = List.replicate 32 3 := by decide +kernel
  have happlication : applicationOf authenticationRequest = List.replicate 32 2 := by
    decide +kernel
  have hregistration : applicationOf registrationRequest = List.replicate 32 2 := by
    decide +kernel
  obtain ⟨hregister, hauthenticate⟩ := key_handles_bound fixedSizes_standIn
  obtain ⟨privateKey, hregistered, hlater⟩ :=
    hregister (registeringSession 0) registrationRequest 256 hsucceeded
  rw [hregistration] at hregistered
  have hdecision := hlater [List.replicate 32 0] [0x30] (registeringSession 5)
    authenticationRequest 256 rfl (by decide) hvalid rfl (happlication.trans hregistration.symm)
    hhandle
  rw [hchallenge, happlication] at hdecision
  exact ⟨⟨privateKey, hregistered, hdecision⟩,
    hauthenticate (registeringSession 5) authenticationRequest (by decide) hvalid rfl⟩

/-- With a counter at its maximum, the handle that a registration gave out is refused. -/
theorem exhausted_counter_refuses_handle :
    let response :=
      (encodeRegisterResponse .standIn (registeringSession 0xffffffff) registrationRequest 256).2
    succeeded response = true ∧
      validateRequestStatus authenticationRequest = none ∧
      authenticationRequest.getD 1 0 = cmdAuthenticate ∧
      applicationOf authenticationRequest = applicationOf registrationRequest ∧
      keyHandleOf authenticationRequest = responseKeyHandle response ∧
      IsKeyHandle .standIn (List.replicate 32 7) (applicationOf authenticationRequest)
        (keyHandleOf authenticationRequest) (List.replicate 32 2) ∧
      handleCheck .standIn (registeringSession 0xffffffff) authenticationRequest =
        .error swInsNotSupported ∧
      (authenticateDecision .standIn (registeringSession 0xffffffff) authenticationRequest 256).2 =
        .error swInsNotSupported := by
  have hvalid : validateRequestStatus authenticationRequest = none := by decide +kernel
  obtain ⟨apdu, hrequest⟩ := isAuthenticate_of_validate hvalid rfl
  have hrefused : handleCheck .standIn (registeringSession 0xffffffff) authenticationRequest =
      .error swInsNotSupported := handleCheck_of_exhausted rfl hrequest
  refine ⟨by decide +kernel, hvalid, rfl, by decide +kernel, by decide +kernel, ?_, hrefused,
    authenticateDecision_of_error hrefused⟩
  exact ⟨List.replicate 32 2, List.replicate 32 0, by decide +kernel, rfl, rfl, by decide +kernel,
    rfl, by decide +kernel⟩

end Binding

end ZeroFido.U2f
