import ZeroFido.Pin.Conversation

/-!
# The authenticator stands for the service

What memory and the PIN file say is what the service says (`Represents`). A PIN hash that is
compared is a guess (`ensures_comparePinHash_guess`), and setPIN and changePIN are the service's,
for what a client has encrypted and written.
-/

set_option autoImplicit false
set_option relaxedAutoImplicit false

namespace ZeroFido.Pin

open Foundations Storage Store Cbor Ctap

section Representation

/-- PINs are known by the first half of their digests and relying parties by their digests. An empty
RP ID names none. -/
def servicePolicy (crypto : Crypto) (capabilities : Capabilities) :
    ServicePolicy Bytes Bytes Bytes where
  digest pin := (crypto.sha256 pin).take pinHashLen
  rpDigest rpId := hashRpId crypto (some rpId)
  allowed pin := decide (pinValidatePlaintextPolicy pin = .success)
  consentForTokens := capabilities.clientPinTokenRequiresConsent

/-- The service's token is the one in memory, and it is the one that the client has. -/
structure HoldsToken (session : Session) (clock : ℕ) (token : ServiceToken Bytes) : Prop where
  active : session.state.pinTokenActive = true
  known : session.token = session.state.pinToken
  permissions : token.permissions = session.state.pinTokenPermissions
  limited : token.limited = session.state.pinTokenPermissionsScoped
  managed : token.managed = session.state.pinTokenPermissionsManaged
  rpId : token.rpId = if session.state.pinTokenPermissionsRpIdSet then
    some session.state.pinTokenPermissionsRpIdHash else none
  rpIdHash : session.state.pinTokenPermissionsRpIdHash.length = 32
  issued : ∃ issued, session.state.pinTokenIssuedAt = issued % 2 ^ 32 ∧ clock = issued + token.age

/-- What the PIN file says after a restart. -/
def FileHolds (crypto : Crypto) (state : ClientPinState) (world : Device) : Prop :=
  (state.pinSet = true → ∃ raw found, world.files pinFilePath = some raw ∧
    loadedPin crypto raw = some found ∧ found.pinHash = state.pinHash ∧
      found.pinRetries = state.pinRetries) ∧
  (state.pinSet = false → logical world.files pinFilePath = none)

/-- The authenticator in a session is the service. -/
structure Represents (crypto : Crypto) (ValidKey : Bytes → Prop) (session : Session)
    (service : Service Bytes) (world : Device) : Prop where
  working : Working ValidKey world
  keyPair : KeyPair crypto ValidKey session.state.keyAgreement
  wellFormed : service.WellFormed
  pin : service.pin = if session.state.pinSet then some session.state.pinHash else none
  pinHash : session.state.pinHash.length = pinHashLen
  retries : session.state.pinRetries = service.retries
  mismatches : session.state.pinConsecutiveMismatches = service.mismatches
  blocked : session.state.pinAuthBlocked = service.blocked
  file : FileHolds crypto session.state world
  token : (service.token = none ∧ session.state.pinTokenActive = false) ∨
    ∃ token, service.token = some token ∧ HoldsToken session world.clock token

variable {crypto : Crypto} {ValidKey : Bytes → Prop} {state state' : ClientPinState}
  {token : Bytes} {service service' : Service Bytes} {world world' : Device}

theorem Represents.requireExistingPin_eq
    (h : Represents crypto ValidKey ⟨state, token⟩ service world) :
    requireExistingPin state = service.refusal := by
  have hpin := h.pin
  have hretries := h.retries
  have hblocked := h.blocked
  simp only at hpin hretries hblocked
  unfold requireExistingPin Service.refusal
  rw [hpin, hretries, hblocked]
  cases state.pinSet <;> simp

/-- A session whose PIN has just been filed. -/
theorem represents_filed (hlaws : SealLaws crypto) {filed : ClientPinState}
    (hfiled : Filed crypto ValidKey filed world world') (hsaved : filed.saved = state'.saved)
    (hset : state'.pinSet = true) (hkey : KeyPair crypto ValidKey state'.keyAgreement)
    (hwellFormed : service'.WellFormed) (hpin : service'.pin = some state'.pinHash)
    (hhash : state'.pinHash.length = pinHashLen) (hretries : state'.pinRetries = service'.retries)
    (hmismatches : state'.pinConsecutiveMismatches = service'.mismatches)
    (hblocked : state'.pinAuthBlocked = service'.blocked)
    (htoken : (service'.token = none ∧ state'.pinTokenActive = false) ∨
      ∃ held, service'.token = some held ∧ HoldsToken ⟨state', token⟩ world.clock held) :
    Represents crypto ValidKey ⟨state', token⟩ service' world' := by
  obtain ⟨raw, hraw, hwritten⟩ := hfiled.file
  have hsame := hsaved
  simp only [ClientPinState.saved, SavedPin.mk.injEq] at hsame
  obtain ⟨hhash', hretries', hmismatches', -⟩ := hsame
  have hfits : filed.FitsFile := by
    refine ⟨hhash' ▸ hhash, ?_, ?_⟩
    · rw [hretries', hretries]
      exact hwellFormed.retries
    · rw [hmismatches', hmismatches]
      exact hwellFormed.mismatches
  have hloaded := loadedPin_of_saved hlaws hfits hwritten
  rw [hsaved] at hloaded
  refine ⟨hfiled.working, hkey, hwellFormed, ?_, hhash, hretries, hmismatches, hblocked,
    ⟨fun _ ↦ ⟨raw, _, hraw, hloaded, rfl, rfl⟩, fun hunset ↦ ?_⟩, ?_⟩
  · simp only [hset, if_true, hpin]
  · exact absurd (hset.symm.trans hunset) (by simp)
  · rw [hfiled.clock]
    exact htoken

/-- A token is held on through changes that do not concern it. -/
theorem HoldsToken.of_same {session session' : Session} {clock : ℕ} {held : ServiceToken Bytes}
    (h : HoldsToken session clock held) (hknown : session'.token = session.token)
    (hsame : { session'.state with
      pinSet := session.state.pinSet
      pinHash := session.state.pinHash
      pinRetries := session.state.pinRetries
      pinConsecutiveMismatches := session.state.pinConsecutiveMismatches
      pinAuthBlocked := session.state.pinAuthBlocked
      keyAgreement := session.state.keyAgreement } = session.state) :
    HoldsToken session' clock held := by
  obtain ⟨hactive, hheld, hpermissions, hlimited, hmanaged, hrpId, hhash, hissued⟩ := h
  rw [← hsame] at hactive hheld hpermissions hlimited hmanaged hrpId hhash hissued
  exact ⟨hactive, hknown.trans hheld, hpermissions, hlimited, hmanaged, hrpId, hhash, hissued⟩

end Representation

section Guesses

variable {crypto : Crypto} {ValidKey : Bytes → Prop} {state : ClientPinState} {token : Bytes}
  {service : Service Bytes} {world : Device}

/-- Comparing a PIN hash is the service's look at a guess. -/
theorem ensures_comparePinHash_guess (hlaws : SealLaws crypto)
    (h : Represents crypto ValidKey ⟨state, token⟩ service world)
    (hopen : service.refusal = .success) {pinHash : Bytes} (hlength : pinHash.length = pinHashLen) :
    Ensures (comparePinHash crypto state pinHash)
      (fun result world' ↦ result.1 = (service.guess pinHash).1 ∧
        Represents crypto ValidKey ⟨result.2, token⟩ (service.guess pinHash).2 world' ∧
        result.2.pinSet = true ∧ result.2.pinHash = state.pinHash)
      (fun _ ↦ False) world := by
  obtain ⟨⟨stored, hstored⟩, hunblocked, hretries⟩ := Service.refusal_eq_success.mp hopen
  have hset : state.pinSet = true := by
    have hpin := h.pin
    rw [hstored] at hpin
    by_contra hunset
    simp [hunset] at hpin
  have hheld : service.pin = some state.pinHash := by
    have hpin := h.pin
    simpa only [hset, if_true] using hpin
  have hblocked : state.pinAuthBlocked = false := h.blocked.trans hunblocked
  have hcompare : constantTimeEqual pinHash state.pinHash pinHashLen = true ↔
      service.pin = some pinHash := by
    rw [constantTimeEqual, List.take_of_length_le (Nat.le_of_eq hlength),
      List.take_of_length_le (Nat.le_of_eq h.pinHash), hheld, Option.some.injEq, beq_iff_eq]
    exact eq_comm
  have hwellFormed := h.wellFormed.guess hopen pinHash
  refine (ensures_comparePinHash_working h.working hset hblocked pinHash).mono ?_
    fun _ hfalse ↦ hfalse
  rintro ⟨status, after⟩ final ⟨hfiled, hright, hwrong⟩
  rw [hcompare] at hright
  rw [← Bool.not_eq_true, hcompare] at hwrong
  unfold Service.guess at hwellFormed ⊢
  by_cases hequal : service.pin = some pinHash
  · rw [if_pos hequal] at hwellFormed ⊢
    have hresult := hright hequal
    simp only [Prod.mk.injEq] at hresult
    obtain ⟨rfl, rfl⟩ := hresult
    refine ⟨rfl, represents_filed hlaws hfiled rfl hset h.keyPair hwellFormed hheld h.pinHash rfl
      rfl rfl ?_, hset, rfl⟩
    obtain hnone | ⟨held, hsome, hholds⟩ := h.token
    · exact Or.inl hnone
    · exact Or.inr ⟨held, hsome, hholds.of_same rfl rfl⟩
  · rw [if_neg hequal] at hwellFormed ⊢
    obtain ⟨key, hkey, hresult⟩ := hwrong hequal
    have hpositive : 0 < service.retries := Nat.pos_of_ne_zero hretries
    have hfew : service.mismatches < 255 := lt_of_le_of_lt h.wellFormed.mismatches (by decide)
    have hpenalised : penalised state key = { state with
        keyAgreement := key
        pinRetries := service.retries - 1
        pinConsecutiveMismatches := service.mismatches + 1
        pinAuthBlocked := decide (3 ≤ service.mismatches + 1) } := by
      have hsame := h.retries
      have hcount := h.mismatches
      simp only at hsame hcount
      simp only [penalised, ClientPinState.noteMismatch, hsame, hcount, hblocked, if_pos hpositive,
        if_pos hfew]
      by_cases hthree : 3 ≤ service.mismatches + 1
      · rw [if_pos hthree, decide_eq_true hthree]
      · rw [if_neg hthree, decide_eq_false hthree]
    rw [hpenalised] at hresult
    simp only [Prod.mk.injEq] at hresult
    obtain ⟨rfl, rfl⟩ := hresult
    refine ⟨rfl, represents_filed hlaws hfiled rfl hset hkey hwellFormed hheld h.pinHash rfl rfl
      rfl ?_, hset, rfl⟩
    obtain hnone | ⟨held, hsome, hholds⟩ := h.token
    · exact Or.inl hnone
    · exact Or.inr ⟨held, hsome, hholds.of_same rfl rfl⟩

end Guesses

section NewPins

variable {crypto : Crypto} {capabilities : Capabilities} {outCapacity : ℕ}
  {ValidKey : Bytes → Prop} {client : Client} {state : ClientPinState} {token : Bytes}
  {service : Service Bytes} {world : Device}

/-- A PIN that a client can send: the zero byte ends it, and its block has room for one. -/
structure Sendable (pin : Bytes) : Prop where
  noZero : 0 ∉ pin
  short : pin.length ≤ maxPinUtf8Bytes

/-- The answer is the service's, and so is what it leaves. -/
def Answers (crypto : Crypto) (ValidKey : Bytes → Prop)
    (expected : ServiceAnswer × Service Bytes) (result : Option (ServiceAnswer × Session))
    (world : Device) : Prop :=
  ∃ session, result = some (expected.1, session) ∧
    Represents crypto ValidKey session expected.2 world

theorem length_paddedPin {pin : Bytes} (h : Sendable pin) : (paddedPin pin).length = 64 := by
  have hshort : pin.length ≤ 63 := h.short
  rw [paddedPin, List.length_append, List.length_replicate, pinNewPinBlockMaxLen]
  omega

/-- The block check finds the PIN in its padding. -/
theorem pinValidatePlaintextBlock_paddedPin {pin : Bytes} (h : Sendable pin) :
    pinValidatePlaintextBlock (paddedPin pin) = some pin := by
  have hshort : pin.length ≤ 63 := h.short
  refine pinValidatePlaintextBlock_eq_some.mpr ⟨h.noZero, h.short,
    pinNewPinBlockMaxLen - pin.length, ?_, rfl⟩
  rw [pinNewPinBlockMaxLen]
  omega

theorem pinValidatePlaintextPolicy_cases (pin : Bytes) :
    pinValidatePlaintextPolicy pin = .success ∨
      pinValidatePlaintextPolicy pin = .pinPolicyViolation := by
  unfold pinValidatePlaintextPolicy pinValidatePlaintextLength
  split_ifs
  · exact Or.inr rfl
  · cases pinValidateUtf8 pin with
    | none => exact Or.inr rfl
    | some count =>
      dsimp only
      split_ifs
      · exact Or.inr rfl
      · exact Or.inl rfl

/-- Installing a PIN in memory and in the file is installing it in the service. -/
theorem ensures_pinApplyPlaintext_install (hlaws : SealLaws crypto)
    (h : Represents crypto ValidKey ⟨state, token⟩ service world) {requireUnset : Bool}
    (hunset : (requireUnset && state.pinSet) = false) (pin : Bytes) :
    Ensures (pinApplyPlaintext crypto state pin requireUnset)
      (fun result world' ↦
        (pinValidatePlaintextPolicy pin = .success → result.1 = .success ∧
          Represents crypto ValidKey ⟨result.2, token⟩
            (Service.install ((crypto.sha256 pin).take pinHashLen)) world') ∧
        (pinValidatePlaintextPolicy pin ≠ .success → result.1 = .pinPolicyViolation ∧
          Represents crypto ValidKey ⟨result.2, token⟩ service world'))
      (fun _ ↦ False) world := by
  obtain hpolicy | hpolicy := pinValidatePlaintextPolicy_cases pin
  · refine (ensures_pinApplyPlaintext_working h.working hpolicy hunset).mono ?_
      fun _ hfalse ↦ hfalse
    rintro ⟨status, after⟩ final ⟨fresh, hresult, hfiled⟩
    simp only [Prod.mk.injEq] at hresult
    obtain ⟨rfl, rfl⟩ := hresult
    refine ⟨fun _ ↦ ⟨rfl, ?_⟩, fun hne ↦ absurd hpolicy hne⟩
    have hhash : ((crypto.sha256 pin).take pinHashLen).length = pinHashLen := by
      rw [List.length_take, hlaws.length_sha256]
      rfl
    exact represents_filed hlaws hfiled rfl rfl h.keyPair (Service.wellFormed_install _) rfl hhash
      rfl rfl rfl (Or.inl ⟨rfl, rfl⟩)
  · simp only [pinApplyPlaintext, hpolicy, ne_eq, reduceCtorEq, not_false_eq_true, if_true,
      ensures_pure]
    exact ⟨fun hfalse ↦ absurd hfalse (by simp), fun _ ↦ ⟨trivial, h⟩⟩

/-- What a client encrypts as a new PIN is a block that the request carries. -/
theorem carriesBlock_message (hready : client.Ready capabilities ValidKey)
    {keys : ProtocolKeys} (hkeys : Agreed crypto state client keys) {pin : Bytes}
    (hpin : Sendable pin) {newPinEnc covered tag : Bytes} {request : ClientPinRequest}
    (hprotocol : request.pinProtocol = client.pinProtocol)
    (hfields : request.hasKeyAgreement = true ∧ request.hasNewPinEnc = true ∧
      request.hasPinAuth = true)
    (hpublic : (request.platformX, request.platformY) = crypto.p256PublicKey client.privateKey)
    (hnewPinEnc : request.newPinEnc = newPinEnc) (hpinAuth : request.pinAuth = tag)
    (hdecrypted : pinProtocolDecrypt crypto client.pinProtocol keys newPinEnc =
      some (paddedPin pin))
    (hlength : newPinEnc.length = (paddedPin pin).length +
      if client.pinProtocol = pinProtocolV2 then pinProtocol2IvLen else 0)
    (htag : pinProtocolHmacMatches crypto client.pinProtocol keys.hmacKey newPinEnc covered tag =
      true) :
    CarriesBlock crypto state request keys covered (paddedPin pin) := by
  have hx : request.platformX = (crypto.p256PublicKey client.privateKey).1 :=
    congrArg Prod.fst hpublic
  have hy : request.platformY = (crypto.p256PublicKey client.privateKey).2 :=
    congrArg Prod.snd hpublic
  obtain ⟨hkeyAgreement, hhasEnc, hhasAuth⟩ := hfields
  refine ⟨hkeyAgreement, hhasEnc, hhasAuth, ?_, ?_, ?_, ?_, ?_⟩
  · rw [hprotocol]
    obtain hone | htwo := hready.protocol
    · rw [hone]
      rfl
    · rw [htwo]
      rfl
  · rw [hprotocol, hnewPinEnc, hlength, length_paddedPin hpin]
    obtain hone | htwo := hready.protocol
    · rw [hone]
      decide
    · rw [htwo]
      decide
  · rw [hprotocol, hx, hy]
    exact hkeys.derived
  · rw [hprotocol, hnewPinEnc, hpinAuth]
    exact htag
  · rw [hprotocol, hnewPinEnc]
    exact hdecrypted

end NewPins

section Steps

variable {crypto : Crypto} {capabilities : Capabilities} {outCapacity : ℕ}
  {ValidKey : Bytes → Prop} {client : Client} {state : ClientPinState} {fields : List RequestField}
  {consent : ConsentOutcome} {delay : ℕ}

/-- The fields of a message behind the protocol and the subcommand. -/
structure Written (fields : List RequestField) : Prop where
  fits : ∀ field ∈ fields, field.Fits
  keys : ∀ field ∈ fields, 2 < field.key
  distinct : (fields.map RequestField.key).Nodup
  count : fields.length ≤ 8

/-- The handlers get what the client has written. -/
theorem send_setPin (hready : client.Ready capabilities ValidKey) (hfields : Written fields) :
    send crypto capabilities outCapacity state (client.message subcmdSetPin fields) consent delay =
      clientPinHandleSetPin crypto state
        (fields.foldl RequestField.store (client.header subcmdSetPin)) := by
  obtain ⟨hparsed, hheaded⟩ := clientPinParseRequest_message hready
    (show subcmdSetPin < 2 ^ 64 by decide) hfields.fits hfields.keys hfields.distinct hfields.count
  rw [send, pinHandleCommand, hparsed]
  dsimp only
  rw [if_neg (protocol_enabled hready hheaded), hheaded.subcommand]
  rfl

theorem send_changePin (hready : client.Ready capabilities ValidKey) (hfields : Written fields) :
    send crypto capabilities outCapacity state (client.message subcmdChangePin fields) consent
        delay =
      clientPinHandleChangePin crypto state
        (fields.foldl RequestField.store (client.header subcmdChangePin)) := by
  obtain ⟨hparsed, hheaded⟩ := clientPinParseRequest_message hready
    (show subcmdChangePin < 2 ^ 64 by decide) hfields.fits hfields.keys hfields.distinct
    hfields.count
  rw [send, pinHandleCommand, hparsed]
  dsimp only
  rw [if_neg (protocol_enabled hready hheaded), hheaded.subcommand]
  rfl

theorem send_getPinToken (hready : client.Ready capabilities ValidKey) (hfields : Written fields) :
    send crypto capabilities outCapacity state (client.message subcmdGetPinToken fields) consent
        delay =
      clientPinHandleGetPinToken crypto state
        (fields.foldl RequestField.store (client.header subcmdGetPinToken)) false
        capabilities.clientPinTokenRequiresConsent consent (waitFor delay) outCapacity := by
  obtain ⟨hparsed, hheaded⟩ := clientPinParseRequest_message hready
    (show subcmdGetPinToken < 2 ^ 64 by decide) hfields.fits hfields.keys hfields.distinct
    hfields.count
  rw [send, pinHandleCommand, hparsed]
  dsimp only
  rw [if_neg (protocol_enabled hready hheaded), hheaded.subcommand]
  rfl

theorem send_getPinTokenWithPermissions (hready : client.Ready capabilities ValidKey)
    (hfields : Written fields) (henabled : capabilities.pinUvAuthTokenEnabled = true) :
    send crypto capabilities outCapacity state
        (client.message subcmdGetPinUvAuthTokenUsingPinWithPermissions fields) consent delay =
      clientPinHandleGetPinToken crypto state
        (fields.foldl RequestField.store
          (client.header subcmdGetPinUvAuthTokenUsingPinWithPermissions)) true true consent
        (waitFor delay) outCapacity := by
  obtain ⟨hparsed, hheaded⟩ := clientPinParseRequest_message hready
    (show subcmdGetPinUvAuthTokenUsingPinWithPermissions < 2 ^ 64 by decide) hfields.fits
    hfields.keys hfields.distinct hfields.count
  rw [send, pinHandleCommand, hparsed]
  dsimp only
  rw [if_neg (protocol_enabled hready hheaded), hheaded.subcommand, henabled]
  rfl

variable {session : Session} {service : Service Bytes} {world : Device} {keys : ProtocolKeys}

/-- A ciphertext is no longer than its field. -/
theorem ciphertext_fits {plaintext ciphertext : Bytes} {size : ℕ} (hsize : plaintext.length ≤ size)
    (hlength : ciphertext.length = plaintext.length +
      if client.pinProtocol = pinProtocolV2 then pinProtocol2IvLen else 0) :
    ciphertext.length ≤ size + pinProtocol2IvLen := by
  rw [hlength]
  split_ifs <;> omega

/-- The fields of a request for a new PIN. -/
theorem written_setPin (hlaws : ConversationLaws crypto ValidKey)
    (hready : client.Ready capabilities ValidKey) {tag newPinEnc : Bytes}
    (htag : tag.length = pinUvAuthParamLen client.pinProtocol)
    (hnewPinEnc : newPinEnc.length ≤ pinEncryptedNewPinMaxLen) :
    Written [client.keyField crypto, .pinAuth tag, .newPinEnc newPinEnc] := by
  have hshort : tag.length ≤ pinAuthMaxLen := by
    rw [htag, pinUvAuthParamLen]
    split_ifs <;> decide
  refine ⟨?_, ?_, ?_, ?_⟩
  · simp only [List.forall_mem_cons, List.not_mem_nil, false_implies, implies_true, and_true]
    exact ⟨keyField_fits hlaws hready, hshort, hnewPinEnc⟩
  · simp [Client.keyField, RequestField.key]
  · simp [Client.keyField, RequestField.key]
  · simp

theorem written_changePin (hlaws : ConversationLaws crypto ValidKey)
    (hready : client.Ready capabilities ValidKey) {tag newPinEnc pinHashEnc : Bytes}
    (htag : tag.length = pinUvAuthParamLen client.pinProtocol)
    (hnewPinEnc : newPinEnc.length ≤ pinEncryptedNewPinMaxLen)
    (hpinHashEnc : pinHashEnc.length ≤ pinEncryptedHashMaxLen) :
    Written [client.keyField crypto, .pinAuth tag, .newPinEnc newPinEnc,
      .pinHashEnc pinHashEnc] := by
  have hfields := written_setPin hlaws hready htag hnewPinEnc
  refine ⟨?_, ?_, ?_, ?_⟩
  · simp only [List.forall_mem_cons, List.not_mem_nil, false_implies, implies_true, and_true]
    exact ⟨keyField_fits hlaws hready, hfields.fits (.pinAuth tag) (by simp), hnewPinEnc,
      hpinHashEnc⟩
  · simp [Client.keyField, RequestField.key]
  · simp [Client.keyField, RequestField.key]
  · simp

/-- The fields of a request for a token. -/
theorem written_getPinToken (hlaws : ConversationLaws crypto ValidKey)
    (hready : client.Ready capabilities ValidKey) {pinHashEnc : Bytes}
    (hpinHashEnc : pinHashEnc.length ≤ pinEncryptedHashMaxLen) :
    Written [client.keyField crypto, .pinHashEnc pinHashEnc] := by
  refine ⟨?_, ?_, ?_, ?_⟩
  · simp only [List.forall_mem_cons, List.not_mem_nil, false_implies, implies_true, and_true]
    exact ⟨keyField_fits hlaws hready, hpinHashEnc⟩
  · simp [Client.keyField, RequestField.key]
  · simp [Client.keyField, RequestField.key]
  · simp

theorem written_getPinTokenWithPermissions (permissions : UInt64)
    (hlaws : ConversationLaws crypto ValidKey) (hready : client.Ready capabilities ValidKey)
    {pinHashEnc rpId : Bytes}
    (hpinHashEnc : pinHashEnc.length ≤ pinEncryptedHashMaxLen)
    (hrpId : (RequestField.rpId rpId).Fits) :
    Written [client.keyField crypto, .pinHashEnc pinHashEnc, .permissions permissions,
      .rpId rpId] := by
  refine ⟨?_, ?_, ?_, ?_⟩
  · simp only [List.forall_mem_cons, List.not_mem_nil, false_implies, implies_true, and_true]
    exact ⟨keyField_fits hlaws hready, hpinHashEnc, trivial, hrpId⟩
  · simp [Client.keyField, RequestField.key]
  · simp [Client.keyField, RequestField.key]
  · simp

/-- setPIN. -/
theorem ensures_exchange_setPin (hlaws : ConversationLaws crypto ValidKey)
    (hready : client.Ready capabilities ValidKey) (hcapacity : 80 ≤ outCapacity)
    (h : Represents crypto ValidKey session service world) {pin : Bytes} (hpin : Sendable pin) :
    Ensures (exchange crypto capabilities outCapacity client session (.setPin pin))
      (Answers crypto ValidKey
        (service.step (servicePolicy crypto capabilities) (.setPin pin)))
      (fun _ ↦ False) world := by
  have hsize := length_paddedPin hpin
  have hne : paddedPin pin ≠ [] := by
    rintro hnil
    rw [hnil] at hsize
    exact absurd hsize (by decide)
  simp only [exchange, ensures_bind]
  refine ensures_sendAgreed hlaws hready h.keyPair hcapacity fun keys hkeys ↦ ?_
  obtain ⟨newPinEnc, hencrypted, hdecrypted, hlength⟩ :=
    encrypt_some hlaws.toExchangeLaws hready hkeys hne (by rw [hsize]) (by rw [hsize]; decide)
  obtain ⟨tag, hauthenticated, htagLen, htag⟩ :=
    authenticate_some hlaws.toExchangeLaws hready keys newPinEnc []
  rw [List.append_nil] at hauthenticated
  have hfields : Written [client.keyField crypto, .pinAuth tag, .newPinEnc newPinEnc] :=
    written_setPin hlaws hready htagLen (ciphertext_fits (Nat.le_of_eq hsize) hlength)
  refine ⟨client.message subcmdSetPin [client.keyField crypto, .pinAuth tag, .newPinEnc newPinEnc],
    ?_, ?_⟩
  · rw [Client.setPinMessage, hencrypted, Option.bind_eq_bind, Option.bind_some, hauthenticated]
    rfl
  rw [send_setPin hready hfields]
  have hcarries : CarriesBlock crypto session.state
      ([client.keyField crypto, .pinAuth tag, .newPinEnc newPinEnc].foldl RequestField.store
        (client.header subcmdSetPin)) keys [] (paddedPin pin) :=
    carriesBlock_message hready hkeys hpin rfl ⟨rfl, rfl, rfl⟩ rfl rfl rfl hdecrypted hlength htag
  generalize [client.keyField crypto, .pinAuth tag, .newPinEnc newPinEnc].foldl RequestField.store
    (client.header subcmdSetPin) = request at hcarries ⊢
  have hheld := h.pin
  simp only [Service.step, Service.setPin, hheld]
  cases hset : session.state.pinSet with
  | true =>
    simp only [clientPinHandleSetPin, hset, if_true, ensures_pure]
    exact ⟨session, rfl, h⟩
  | false =>
    simp only [clientPinHandleSetPin, hset, hcarries.hasKeyAgreement, hcarries.hasNewPinEnc,
      hcarries.hasPinAuth, hcarries.supported, hcarries.length, hcarries.derived, hcarries.pinAuth,
      hcarries.decryptNewPin_eq, pinValidatePlaintextBlock_paddedPin hpin, Option.elim,
      Bool.not_true, Bool.or_self, Bool.false_eq_true, if_false, ensures_bind, ensures_pure]
    refine (ensures_pinApplyPlaintext_install hlaws.toSealLaws h (by simp [hset]) pin).mono ?_
      fun _ hfalse ↦ hfalse
    rintro ⟨status, after⟩ final ⟨hallowed, hrefused⟩
    by_cases hpolicy : pinValidatePlaintextPolicy pin = .success
    · obtain ⟨hstatus, hrepresents⟩ := hallowed hpolicy
      simp only at hstatus
      subst hstatus
      simp only [servicePolicy, hpolicy, decide_true]
      exact ⟨_, rfl, hrepresents⟩
    · obtain ⟨hstatus, hrepresents⟩ := hrefused hpolicy
      simp only at hstatus
      subst hstatus
      simp only [servicePolicy, hpolicy, decide_false]
      exact ⟨_, rfl, hrepresents⟩

/-- The hash of a PIN as a client encrypts it. -/
theorem encrypt_pinHash (hlaws : ConversationLaws crypto ValidKey)
    (hready : client.Ready capabilities ValidKey) (hkeys : Agreed crypto state client keys)
    (pin : Bytes) :
    ∃ pinHashEnc, client.encrypt crypto keys ((crypto.sha256 pin).take pinHashLen) =
        some pinHashEnc ∧
      pinHashEnc.length = encryptedPinHashLen client.pinProtocol ∧
      (pinProtocolDecrypt crypto client.pinProtocol keys pinHashEnc).filter
        (fun plain ↦ plain.length == pinHashLen) = some ((crypto.sha256 pin).take pinHashLen) := by
  have hhash : ((crypto.sha256 pin).take pinHashLen).length = pinHashLen := by
    rw [List.length_take, hlaws.toSealLaws.length_sha256]
    rfl
  have hne : (crypto.sha256 pin).take pinHashLen ≠ [] := by
    rintro hnil
    rw [hnil] at hhash
    exact absurd hhash (by decide)
  obtain ⟨pinHashEnc, hencrypted, hdecrypted, hlength⟩ := encrypt_some hlaws.toExchangeLaws hready
    hkeys hne (by rw [hhash]; rfl) (by rw [hhash]; decide)
  refine ⟨pinHashEnc, hencrypted, ?_, ?_⟩
  · rw [hlength, hhash, encryptedPinHashLen]
    split_ifs <;> rfl
  · rw [hdecrypted]
    simp [Option.filter, hhash]

theorem encryptedPinHashLen_le (pinProtocol : ℕ) :
    encryptedPinHashLen pinProtocol ≤ pinEncryptedHashMaxLen := by
  rw [encryptedPinHashLen]
  split_ifs <;> decide

/-- changePIN. -/
theorem ensures_exchange_changePin (hlaws : ConversationLaws crypto ValidKey)
    (hready : client.Ready capabilities ValidKey) (hcapacity : 80 ≤ outCapacity)
    (h : Represents crypto ValidKey session service world) (current : Bytes) {next : Bytes}
    (hnext : Sendable next) :
    Ensures (exchange crypto capabilities outCapacity client session (.changePin current next))
      (Answers crypto ValidKey
        (service.step (servicePolicy crypto capabilities) (.changePin current next)))
      (fun _ ↦ False) world := by
  have hsize := length_paddedPin hnext
  have hne : paddedPin next ≠ [] := by
    rintro hnil
    rw [hnil] at hsize
    exact absurd hsize (by decide)
  simp only [exchange, ensures_bind]
  refine ensures_sendAgreed hlaws hready h.keyPair hcapacity fun keys hkeys ↦ ?_
  obtain ⟨newPinEnc, hencrypted, hdecrypted, hlength⟩ :=
    encrypt_some hlaws.toExchangeLaws hready hkeys hne (by rw [hsize]) (by rw [hsize]; decide)
  obtain ⟨pinHashEnc, hhashEncrypted, hhashLength, hhash⟩ :=
    encrypt_pinHash hlaws hready hkeys current
  obtain ⟨tag, hauthenticated, htagLen, htag⟩ :=
    authenticate_some hlaws.toExchangeLaws hready keys newPinEnc pinHashEnc
  have hfields : Written [client.keyField crypto, .pinAuth tag, .newPinEnc newPinEnc,
      .pinHashEnc pinHashEnc] :=
    written_changePin hlaws hready htagLen (ciphertext_fits (Nat.le_of_eq hsize) hlength)
      (hhashLength ▸ encryptedPinHashLen_le _)
  refine ⟨client.message subcmdChangePin [client.keyField crypto, .pinAuth tag,
    .newPinEnc newPinEnc, .pinHashEnc pinHashEnc], ?_, ?_⟩
  · rw [Client.changePinMessage, hencrypted, Option.bind_eq_bind, Option.bind_some, hhashEncrypted,
      Option.bind_some, hauthenticated]
    rfl
  rw [send_changePin hready hfields]
  have hcarries : CarriesBlock crypto session.state
      ([client.keyField crypto, .pinAuth tag, .newPinEnc newPinEnc,
        .pinHashEnc pinHashEnc].foldl RequestField.store (client.header subcmdChangePin)) keys
      pinHashEnc (paddedPin next) :=
    carriesBlock_message hready hkeys hnext rfl ⟨rfl, rfl, rfl⟩ rfl rfl rfl hdecrypted hlength htag
  have hproof : ∀ request, request = [client.keyField crypto, .pinAuth tag, .newPinEnc newPinEnc,
      .pinHashEnc pinHashEnc].foldl RequestField.store (client.header subcmdChangePin) →
      request.hasPinHashEnc = true ∧ request.pinHashEnc = pinHashEnc ∧
        request.pinProtocol = client.pinProtocol := by
    rintro request rfl
    exact ⟨rfl, rfl, rfl⟩
  generalize [client.keyField crypto, .pinAuth tag, .newPinEnc newPinEnc,
    .pinHashEnc pinHashEnc].foldl RequestField.store (client.header subcmdChangePin) = request
    at hcarries hproof ⊢
  obtain ⟨hhasHash, hheldHash, hprotocol⟩ := hproof request rfl
  have hexisting := h.requireExistingPin_eq
  simp only [Service.step, Service.changePin]
  by_cases hrefused : service.refusal = .success
  · have hopen := hrefused
    rw [← hexisting] at hopen
    obtain ⟨hset, hblocked, hretries⟩ := requireExistingPin_success hopen
    have hpositive : ¬session.state.pinRetries = 0 := Nat.pos_iff_ne_zero.mp hretries
    have hauth := hcarries.pinAuth
    rw [← hheldHash] at hauth
    rw [← hprotocol, ← hheldHash] at hhashLength hhash
    simp only [clientPinHandleChangePin, hopen, hcarries.hasKeyAgreement, hcarries.hasNewPinEnc,
      hhasHash, hcarries.hasPinAuth, hcarries.supported, hcarries.length, hhashLength,
      hcarries.derived, hauth, hhash, pinVerifyHash, hset, hblocked, hpositive,
      hcarries.decryptNewPin_eq, pinValidatePlaintextBlock_paddedPin hnext, Option.elim,
      Bool.not_true, Bool.or_self, Bool.false_eq_true, if_false, ne_eq, not_true_eq_false,
      hrefused, ensures_bind]
    have hcurrent : ((crypto.sha256 current).take pinHashLen).length = pinHashLen := by
      rw [List.length_take, hlaws.toSealLaws.length_sha256]
      rfl
    refine (ensures_comparePinHash_guess hlaws.toSealLaws h hrefused hcurrent).mono ?_
      fun _ hfalse ↦ hfalse
    rintro ⟨status, verified⟩ middle ⟨hstatus, hguessed, -, -⟩
    simp only at hstatus
    by_cases hright : (service.guess ((crypto.sha256 current).take pinHashLen)).1 = .success
    · rw [hright] at hstatus
      subst hstatus
      simp only [servicePolicy, hright, not_true_eq_false, if_false, ensures_bind, ensures_pure]
      refine (ensures_pinApplyPlaintext_install hlaws.toSealLaws hguessed rfl next).mono ?_
        fun _ hfalse ↦ hfalse
      rintro ⟨status, after⟩ final ⟨hallowed, hdisallowed⟩
      by_cases hpolicy : pinValidatePlaintextPolicy next = .success
      · obtain ⟨hstatus, hrepresents⟩ := hallowed hpolicy
        simp only at hstatus
        subst hstatus
        simp only [hpolicy, decide_true]
        exact ⟨_, rfl, hrepresents⟩
      · obtain ⟨hstatus, hrepresents⟩ := hdisallowed hpolicy
        simp only at hstatus
        subst hstatus
        simp only [hpolicy, decide_false]
        exact ⟨_, rfl, hrepresents⟩
    · rw [← hstatus] at hright
      simp only [servicePolicy, ← hstatus, hright, not_false_eq_true, if_true, ensures_pure]
      exact ⟨_, rfl, hguessed⟩
  · have hclosed := hrefused
    rw [← hexisting] at hclosed
    simp only [clientPinHandleChangePin, hclosed, ne_eq, not_false_eq_true, if_true, ensures_pure,
      hrefused]
    rw [hexisting]
    exact ⟨session, rfl, h⟩

end Steps

end ZeroFido.Pin
