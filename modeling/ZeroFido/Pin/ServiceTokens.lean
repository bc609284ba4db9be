import ZeroFido.Pin.Representation

/-!
# The service's tokens

A token that is issued is the one that the service hands out, and the client reads it from the
response. Its use at the authenticator is its use at the service: it expires, it is bound to a
relying party and it is spent.
-/

set_option autoImplicit false
set_option relaxedAutoImplicit false

namespace ZeroFido.Pin

open Foundations Storage Store Cbor Ctap

section Tokens

variable {crypto : Crypto} {capabilities : Capabilities} {outCapacity : ℕ}
  {ValidKey : Bytes → Prop} {client : Client} {state : ClientPinState} {session : Session}
  {service : Service Bytes} {keys : ProtocolKeys} {request : ClientPinRequest}
  {scope : Option (UInt64 × Bytes)} {world world' : Device}

theorem Service.elapse_zero {Tag : Type} (service : Service Tag) : service.elapse 0 = service := by
  cases service with
  | mk pin retries mismatches blocked token => cases token <;> rfl

/-- Time passes for both. -/
theorem Represents.elapse (h : Represents crypto ValidKey session service world)
    (hworking : Working ValidKey world') (hfiles : world'.files = world.files) {delay : ℕ}
    (hclock : world'.clock = world.clock + delay) :
    Represents crypto ValidKey session (service.elapse delay) world' := by
  refine ⟨hworking, h.keyPair, h.wellFormed.elapse delay, h.pin, h.pinHash, h.retries, h.mismatches,
    h.blocked, ?_, ?_⟩
  · unfold FileHolds
    rw [hfiles]
    exact h.file
  · obtain ⟨hnone, hinactive⟩ | ⟨held, hsome, hholds⟩ := h.token
    · refine Or.inl ⟨?_, hinactive⟩
      rw [Service.elapse, hnone]
      rfl
    · refine Or.inr ⟨{ held with age := held.age + delay }, ?_, ?_⟩
      · rw [Service.elapse, hsome]
        rfl
      · obtain ⟨issued, htick, hage⟩ := hholds.issued
        refine ⟨hholds.active, hholds.known, hholds.permissions, hholds.limited, hholds.managed,
          hholds.rpId, hholds.rpIdHash, issued, htick, ?_⟩
        rw [hclock, hage, Nat.add_assoc]

/-- No time passes. -/
theorem Represents.still (h : Represents crypto ValidKey session service world)
    (hworking : Working ValidKey world') (hfiles : world'.files = world.files)
    (hclock : world'.clock = world.clock) : Represents crypto ValidKey session service world' := by
  have hlater := h.elapse hworking hfiles (show world'.clock = world.clock + 0 from hclock)
  rwa [service.elapse_zero] at hlater

/-- The request asks for a token with this scope. -/
structure AsksFor (crypto : Crypto) (capabilities : Capabilities) (request : ClientPinRequest)
    (permissionsMode requireLocalConsent : Bool) (scope : Option (UInt64 × Bytes)) : Prop where
  mode : permissionsMode = scope.isSome
  consent : requireLocalConsent = (Service.grant (servicePolicy crypto capabilities) scope).managed
  permissions : ∀ permissions rpId, scope = some (permissions, rpId) →
    request.permissions = permissions ∧ request.rpId = rpId

/-- A digest of an RP ID has 32 bytes. -/
theorem length_hashRpId (hlaws : SealLaws crypto) {rpId digest : Bytes}
    (h : hashRpId crypto (some rpId) = some digest) : digest.length = 32 := by
  cases rpId with
  | nil => exact absurd h (by simp [hashRpId])
  | cons head tail =>
    obtain rfl := Option.some.inj h
    exact hlaws.length_sha256 _

/-- A fresh token is the service's, and the client reads it. -/
theorem ensures_issuePinToken_service (hlaws : ConversationLaws crypto ValidKey)
    (hready : client.Ready capabilities ValidKey) (hcapacity : 80 ≤ outCapacity)
    {client' : ClientPinState} (hkeys : Agreed crypto client' client keys)
    (h : Represents crypto ValidKey session service world) (hset : session.state.pinSet = true)
    (hprotocol : request.pinProtocol = client.pinProtocol)
    {permissionsMode requireLocalConsent : Bool}
    (hasks : AsksFor crypto capabilities request permissionsMode requireLocalConsent scope) :
    Ensures (issuePinToken crypto session.state request keys permissionsMode requireLocalConsent
        outCapacity)
      (fun result world' ↦ result.status = .success ∧ ∃ token,
        (readEncryptedToken result.response).bind
          (platformDecrypt crypto client.pinProtocol keys) = some token ∧
        Represents crypto ValidKey ⟨result.state, token⟩ { service with
          token := some (Service.grant (servicePolicy crypto capabilities) scope) } world')
      (fun _ ↦ False) world := by
  have hpin : service.pin = some session.state.pinHash := by
    have hheld := h.pin
    simpa only [hset, if_true] using hheld
  simp only [issuePinToken, ensures_bind]
  have hquiet : Ensures (randomFill pinTokenLen) (fun _ world' ↦ Idle world world')
      (fun _ ↦ False) world := ensures_randomFill fun _ _ hidle _ ↦ hidle
  refine ((sustains_working_randomFill pinTokenLen world h.working).and hquiet).mono ?_
    fun _ hcrash ↦ hcrash.2
  rintro fresh first ⟨⟨hfresh, hfirst⟩, hidle⟩
  have hfresh' : fresh.length = 32 := hfresh
  have hne : fresh ≠ [] := by
    rintro rfl
    exact absurd hfresh' (by decide)
  have hroom : pinProtocol2IvLen + fresh.length ≤ pinEncryptedTokenMaxLen := by
    rw [hfresh']
    decide
  rw [hprotocol]
  have hencrypted := (ensures_pinProtocolEncrypt_readable hlaws.toExchangeLaws hready.protocol
    hkeys.aesKey hne (by rw [hfresh']) (by rw [hfresh']; decide) hroom first).and
    (sustains_working_pinProtocolEncrypt first hfirst)
  refine hencrypted.mono ?_ fun _ hcrash ↦ hcrash.1
  rintro result second ⟨⟨hsecond, sealed, rfl, hlong, hshort, hopen⟩, -, hworking⟩
  have hsealed : sealed.length ≤ pinEncryptedTokenMaxLen := le_trans hshort hroom
  obtain ⟨response, hresponse, hread⟩ := readEncryptedToken_responseToken (by omega) hsealed
    (show 52 ≤ outCapacity by omega)
  simp only [hresponse, notePinTokenIssued, getTick, note, ensures_bind, ensures_get,
    ensures_modify, ensures_pure]
  refine ⟨trivial, fresh, by rw [hread, Option.bind_some, hopen], ?_⟩
  have hfiles : second.files = world.files := hsecond.files_eq.trans hidle.files_eq
  have hclock : second.clock = world.clock := hsecond.clock_eq.trans hidle.clock_eq
  have hstill := fun trace ↦ h.still (hworking.later second.clock trace) hfiles hclock
  have hbounds := h.wellFormed
  refine ⟨(hstill _).working, h.keyPair, ⟨hbounds.retries, hbounds.mismatches, hbounds.unblocked,
    fun hnone ↦ absurd (hpin.symm.trans hnone) (by simp)⟩, h.pin, h.pinHash, h.retries,
    h.mismatches, h.blocked, (hstill _).file, Or.inr ⟨_, rfl, ?_⟩⟩
  obtain ⟨hmode, hconsent, hpermissions⟩ := hasks
  subst hmode hconsent
  cases scope with
  | none =>
    exact ⟨rfl, rfl, rfl, rfl, rfl, rfl, rfl, second.clock, rfl, rfl⟩
  | some asked =>
    obtain ⟨permissions, rpId⟩ := asked
    obtain ⟨hheld, hrpId⟩ := hpermissions permissions rpId rfl
    refine ⟨rfl, rfl, ?_, rfl, rfl, ?_, ?_, second.clock, rfl, rfl⟩
    · simp [setTokenPermissions, Service.grant, hheld]
    · cases hhash : hashRpId crypto (some rpId) with
      | none => simp [setTokenPermissions, Service.grant, servicePolicy, hrpId, hhash]
      | some digest => simp [setTokenPermissions, Service.grant, servicePolicy, hrpId, hhash]
    · cases hhash : hashRpId crypto (some rpId) with
      | none => simp [setTokenPermissions, hrpId, hhash, zeroBytes]
      | some digest =>
        simp [setTokenPermissions, hrpId, hhash, length_hashRpId hlaws.toSealLaws hhash]

/-- The command's result is the service's answer, and a token that is handed out reaches the
client. -/
structure HandsOut (crypto : Crypto) (ValidKey : Bytes → Prop) (client : Client) (token : Bytes)
    (keys : ProtocolKeys) (expected : CtapStatus × Service Bytes) (result : CommandResult)
    (world : Device) : Prop where
  status : result.status = expected.1
  issued : result.status = .success → ∃ fresh,
    (readEncryptedToken result.response).bind (platformDecrypt crypto client.pinProtocol keys) =
      some fresh ∧ Represents crypto ValidKey ⟨result.state, fresh⟩ expected.2 world
  refused : result.status ≠ .success →
    Represents crypto ValidKey ⟨result.state, token⟩ expected.2 world

theorem HandsOut.of_refused {token : Bytes} {expected : CtapStatus × Service Bytes}
    {result : CommandResult} (hstatus : result.status = expected.1) (hne : result.status ≠ .success)
    (h : Represents crypto ValidKey ⟨result.state, token⟩ expected.2 world) :
    HandsOut crypto ValidKey client token keys expected result world :=
  ⟨hstatus, fun hsuccess ↦ absurd hsuccess hne, fun _ ↦ h⟩

/-- The wait for the user's consent to a token for a PIN that was right. -/
theorem ensures_requestPermissionTokenConsent_service
    (h : Represents crypto ValidKey session service world) (hset : session.state.pinSet = true)
    (consent : ConsentOutcome) (delay : ℕ) :
    Ensures (requestPermissionTokenConsent session.state session.state.pinHash consent
        (waitFor delay))
      (fun result world' ↦ result = (consentStatus consent, session.state) ∧
        Represents crypto ValidKey session (service.elapse delay) world')
      (fun _ ↦ False) world := by
  have hlater := h.elapse (h.working.later (world.clock + delay) world.trace) rfl rfl
  have hequal : constantTimeEqual session.state.pinHash session.state.pinHash pinHashLen =
      true := by
    rw [constantTimeEqual, beq_self_eq_true]
  simp only [requestPermissionTokenConsent, waitFor, ensures_bind, ensures_modify, ensures_pure,
    ensures_ite]
  refine ⟨fun _ ↦ ⟨trivial, hlater⟩, fun hconsent ↦ ?_⟩
  simp only [not_not.mp hconsent, hset, hequal, note, Bool.not_true, Bool.false_eq_true,
    false_implies, not_false_eq_true, true_implies, true_and, ensures_modify]
  exact hlater.still (h.working.later _ _) rfl rfl

/-- getPinToken with and without permissions. -/
theorem ensures_clientPinHandleGetPinToken_service (hlaws : ConversationLaws crypto ValidKey)
    (hready : client.Ready capabilities ValidKey) (hcapacity : 80 ≤ outCapacity)
    (hkeys : Agreed crypto session.state client keys)
    (h : Represents crypto ValidKey session service world) {pin : Bytes}
    (hprotocol : request.pinProtocol = client.pinProtocol)
    (hpublic : (request.platformX, request.platformY) = crypto.p256PublicKey client.privateKey)
    (hhash : (pinProtocolDecrypt crypto client.pinProtocol keys request.pinHashEnc).filter
      (fun plain ↦ plain.length == pinHashLen) = some ((crypto.sha256 pin).take pinHashLen))
    {permissionsMode requireLocalConsent : Bool}
    (hasks : AsksFor crypto capabilities request permissionsMode requireLocalConsent scope)
    (hchecks : getPinTokenChecks session.state request permissionsMode =
      if service.refusal ≠ .success then service.refusal
      else scope.elim .success fun asked ↦ Service.scopeStatus asked.1)
    (consent : ConsentOutcome) (delay : ℕ) :
    Ensures (clientPinHandleGetPinToken crypto session.state request permissionsMode
        requireLocalConsent consent (waitFor delay) outCapacity)
      (HandsOut crypto ValidKey client session.token keys
        (service.getPinToken (servicePolicy crypto capabilities) pin scope consent delay))
      (fun _ ↦ False) world := by
  have hx : request.platformX = (crypto.p256PublicKey client.privateKey).1 :=
    congrArg Prod.fst hpublic
  have hy : request.platformY = (crypto.p256PublicKey client.privateKey).2 :=
    congrArg Prod.snd hpublic
  have hderived := hkeys.derived
  rw [← hprotocol, ← hx, ← hy] at hderived
  rw [← hprotocol] at hhash
  simp only [clientPinHandleGetPinToken, hchecks, hderived, hhash, Service.getPinToken]
  by_cases hrefused : service.refusal = .success
  · simp only [hrefused, ne_eq, not_true_eq_false, if_false]
    by_cases hasked : (scope.elim .success fun asked ↦ Service.scopeStatus asked.1) = .success
    · simp only [hasked, not_true_eq_false, if_false, ensures_bind]
      have hcurrent : ((crypto.sha256 pin).take pinHashLen).length = pinHashLen := by
        rw [List.length_take, hlaws.toSealLaws.length_sha256]
        rfl
      refine (ensures_comparePinHash_guess hlaws.toSealLaws h hrefused hcurrent).mono ?_
        fun _ hfalse ↦ hfalse
      rintro ⟨status, compared⟩ middle ⟨hstatus, hguessed, hset, hsame⟩
      simp only at hstatus hset hsame
      by_cases hright : (service.guess ((crypto.sha256 pin).take pinHashLen)).1 = .success
      · rw [hright] at hstatus
        subst hstatus
        have hproved : (crypto.sha256 pin).take pinHashLen = compared.pinHash := by
          have hheld := h.pin
          rw [Service.guess_success hright] at hheld
          have hset' : session.state.pinSet = true := (requireExistingPin_success
            (h.requireExistingPin_eq.trans hrefused)).1
          rw [if_pos hset', Option.some.injEq] at hheld
          exact hheld.trans hsame.symm
        have hgranted := hasks.consent
        simp only [servicePolicy] at hright hguessed hgranted ⊢
        simp only [hright, not_true_eq_false, if_false, ← hgranted]
        cases hrequired : requireLocalConsent with
        | false =>
          rw [hrequired] at hasks
          simp only [Bool.false_eq_true, if_false]
          refine (ensures_issuePinToken_service hlaws hready hcapacity hkeys hguessed hset hprotocol
            hasks).mono ?_ fun _ hfalse ↦ hfalse
          rintro result final ⟨hstatus, hissued⟩
          exact ⟨hstatus, fun _ ↦ hissued, fun hne ↦ absurd hstatus hne⟩
        | true =>
          rw [hrequired] at hasks
          simp only [if_true, ensures_bind]
          rw [hproved] at hguessed ⊢
          refine (ensures_requestPermissionTokenConsent_service hguessed hset consent delay).mono ?_
            fun _ hfalse ↦ hfalse
          rintro ⟨status, consented⟩ last ⟨hconsented, hlater⟩
          simp only [Prod.mk.injEq] at hconsented
          obtain ⟨rfl, rfl⟩ := hconsented
          by_cases hconsent : consentStatus consent = .success
          · simp only [hconsent, not_true_eq_false, if_false]
            refine (ensures_issuePinToken_service hlaws hready hcapacity hkeys hlater hset hprotocol
              hasks).mono ?_ fun _ hfalse ↦ hfalse
            rintro result final ⟨hstatus, hissued⟩
            exact ⟨hstatus, fun _ ↦ hissued, fun hne ↦ absurd hstatus hne⟩
          · simp only [hconsent, not_false_eq_true, if_true, ensures_pure]
            exact .of_refused rfl hconsent hlater
      · rw [← hstatus] at hright
        simp only [servicePolicy, ← hstatus, hright, not_false_eq_true, if_true, ensures_pure]
        exact .of_refused rfl hright hguessed
    · simp only [hasked, not_false_eq_true, if_true, ensures_pure]
      exact .of_refused rfl hasked h
  · simp only [hrefused, ne_eq, not_false_eq_true, if_true, ensures_pure]
    exact .of_refused rfl hrefused h

end Tokens

section TokenRequests

variable {crypto : Crypto} {capabilities : Capabilities} {outCapacity : ℕ}
  {ValidKey : Bytes → Prop} {client : Client} {session : Session} {service : Service Bytes}
  {world : Device} {request : ClientPinRequest}

/-- The checks of a token request whose fields are all there. -/
theorem getPinTokenChecks_eq (request : ClientPinRequest) (scope : Option (UInt64 × Bytes))
    (h : Represents crypto ValidKey session service world)
    (hready : client.Ready capabilities ValidKey)
    (hprotocol : request.pinProtocol = client.pinProtocol)
    (hfields : request.hasKeyAgreement = true ∧ request.hasPinHashEnc = true)
    (hlength : request.pinHashEnc.length = encryptedPinHashLen client.pinProtocol)
    (hpermissions : request.hasPermissions = scope.isSome ∧ request.hasRpId = scope.isSome)
    (hscope : ∀ permissions rpId, scope = some (permissions, rpId) →
      request.permissions = permissions) :
    getPinTokenChecks session.state request scope.isSome =
      if service.refusal ≠ .success then service.refusal
      else scope.elim .success fun asked ↦ Service.scopeStatus asked.1 := by
  obtain ⟨hkeyAgreement, hpinHashEnc⟩ := hfields
  obtain ⟨hhasPermissions, hhasRpId⟩ := hpermissions
  have hsupported : pinProtocolSupported client.pinProtocol = true := by
    obtain hone | htwo := hready.protocol
    · rw [hone]
      rfl
    · rw [htwo]
      rfl
  rw [getPinTokenChecks, h.requireExistingPin_eq]
  by_cases hrefused : service.refusal = .success
  · simp only [hrefused, ne_eq, not_true_eq_false, if_false, hkeyAgreement, hpinHashEnc,
      hhasPermissions, hhasRpId, hsupported, hlength, hprotocol, Bool.not_true, Bool.or_self,
      Bool.false_eq_true, bne_self_eq_false]
    cases scope with
    | none => simp
    | some asked =>
      obtain ⟨permissions, rpId⟩ := asked
      rw [hscope permissions rpId rfl]
      simp only [Option.isSome_some, Option.elim_some, Service.scopeStatus]
      by_cases hzero : permissions = 0
      · simp [hzero]
      by_cases hunknown : permissions &&& ~~~(permissionMc ||| permissionGa ||| permissionCm |||
          permissionBe ||| permissionLbw ||| permissionAcfg) = 0
      · by_cases hunsupported : permissions &&& ~~~(permissionMc ||| permissionGa) = 0
        · simp [hzero, hunknown, hunsupported]
        · simp [hzero, hunknown, hunsupported]
      · simp [hzero, hunknown]
  · simp only [hrefused, ne_eq, not_false_eq_true, if_true]

/-- getPinToken, with permissions or without. -/
theorem ensures_exchange_getPinToken (hlaws : ConversationLaws crypto ValidKey)
    (hready : client.Ready capabilities ValidKey) (hcapacity : 80 ≤ outCapacity)
    (henabled : capabilities.pinUvAuthTokenEnabled = true)
    (h : Represents crypto ValidKey session service world) (pin : Bytes)
    {scope : Option (UInt64 × Bytes)}
    (hscope : ∀ permissions rpId, scope = some (permissions, rpId) →
      (RequestField.rpId rpId).Fits) (consent : ConsentOutcome) (delay : ℕ) :
    Ensures (exchange crypto capabilities outCapacity client session
        (.getPinToken pin scope consent delay))
      (Answers crypto ValidKey
        (service.step (servicePolicy crypto capabilities) (.getPinToken pin scope consent delay)))
      (fun _ ↦ False) world := by
  have hreceived : ∀ keys result world', HandsOut crypto ValidKey client session.token keys
      (service.getPinToken (servicePolicy crypto capabilities) pin scope consent delay) result
        world' →
      Answers crypto ValidKey (service.step (servicePolicy crypto capabilities)
        (.getPinToken pin scope consent delay)) (receiveToken crypto client session keys result)
        world' := by
    rintro keys result world' ⟨hstatus, hissued, hrefused⟩
    simp only [Service.step, ← hstatus, receiveToken]
    by_cases hsuccess : result.status = .success
    · obtain ⟨fresh, hread, hrepresents⟩ := hissued hsuccess
      rw [if_pos hsuccess, hread]
      exact ⟨_, rfl, hrepresents⟩
    · rw [if_neg hsuccess]
      exact ⟨_, rfl, hrefused hsuccess⟩
  simp only [exchange, ensures_bind]
  refine ensures_sendAgreed hlaws hready h.keyPair hcapacity fun keys hkeys ↦ ?_
  obtain ⟨pinHashEnc, hencrypted, hlength, hhash⟩ := encrypt_pinHash hlaws hready hkeys pin
  have hshort : pinHashEnc.length ≤ pinEncryptedHashMaxLen :=
    hlength ▸ encryptedPinHashLen_le _
  cases scope with
  | none =>
    have hfields := written_getPinToken hlaws hready hshort
    refine ⟨client.message subcmdGetPinToken [client.keyField crypto, .pinHashEnc pinHashEnc],
      ?_, ?_⟩
    · rw [Client.pinTokenMessage, hencrypted]
      rfl
    rw [send_getPinToken hready hfields]
    have hasks : AsksFor crypto capabilities ([client.keyField crypto,
        .pinHashEnc pinHashEnc].foldl RequestField.store (client.header subcmdGetPinToken)) false
        capabilities.clientPinTokenRequiresConsent none :=
      ⟨rfl, rfl, fun _ _ hnone ↦ absurd hnone (by simp)⟩
    have hchecks := getPinTokenChecks_eq ([client.keyField crypto,
      .pinHashEnc pinHashEnc].foldl RequestField.store (client.header subcmdGetPinToken)) none h
      hready rfl ⟨rfl, rfl⟩ hlength ⟨rfl, rfl⟩ (by simp)
    refine (ensures_clientPinHandleGetPinToken_service hlaws hready hcapacity hkeys h rfl rfl hhash
      hasks hchecks consent delay).mono ?_ fun _ hfalse ↦ hfalse
    intro result final hresult
    exact hreceived keys result final hresult
  | some asked =>
    obtain ⟨permissions, rpId⟩ := asked
    have hrpId := hscope permissions rpId rfl
    have hfields := written_getPinTokenWithPermissions permissions hlaws hready hshort hrpId
    refine ⟨client.message subcmdGetPinUvAuthTokenUsingPinWithPermissions [client.keyField crypto,
      .pinHashEnc pinHashEnc, .permissions permissions, .rpId rpId], ?_, ?_⟩
    · rw [Client.pinTokenMessage, hencrypted]
      rfl
    rw [send_getPinTokenWithPermissions hready hfields henabled]
    have hasks : AsksFor crypto capabilities ([client.keyField crypto, .pinHashEnc pinHashEnc,
        .permissions permissions, .rpId rpId].foldl RequestField.store
          (client.header subcmdGetPinUvAuthTokenUsingPinWithPermissions)) true true
        (some (permissions, rpId)) := by
      refine ⟨rfl, rfl, fun _ _ hsome ↦ ?_⟩
      obtain ⟨rfl, rfl⟩ := Prod.mk.inj (Option.some.inj hsome)
      exact ⟨rfl, rfl⟩
    have hchecks := getPinTokenChecks_eq ([client.keyField crypto, .pinHashEnc pinHashEnc,
      .permissions permissions, .rpId rpId].foldl RequestField.store
        (client.header subcmdGetPinUvAuthTokenUsingPinWithPermissions)) (some (permissions, rpId)) h
      hready rfl ⟨rfl, rfl⟩ hlength ⟨rfl, rfl⟩
      fun _ _ hsome ↦ (Prod.mk.inj (Option.some.inj hsome)).1
    refine (ensures_clientPinHandleGetPinToken_service hlaws hready hcapacity hkeys h rfl rfl hhash
      hasks hchecks consent delay).mono ?_ fun _ hfalse ↦ hfalse
    intro result final hresult
    exact hreceived keys result final hresult

end TokenRequests

section TokenUse

variable {crypto : Crypto} {capabilities : Capabilities} {ValidKey : Bytes → Prop}
  {client : Client} {state : ClientPinState} {session : Session} {service : Service Bytes}
  {held : ServiceToken Bytes} {request : AuthRequest} {world : Device}

/-- Whether a token has expired is read off the tick it was issued at. -/
theorem ensures_pinTokenIsExpired (hholds : HoldsToken session world.clock held) :
    Ensures (pinTokenIsExpired session.state)
      (fun expired world' ↦ expired = held.expired ∧ world' = world) (fun _ ↦ False) world := by
  obtain ⟨issued, htick, hclock⟩ := hholds.issued
  simp only [pinTokenIsExpired, getTick, ensures_bind, ensures_get, ensures_pure]
  refine ⟨?_, trivial⟩
  have helapsed : (world.clock % 2 ^ 32 + 2 ^ 32 - session.state.pinTokenIssuedAt) % 2 ^ 32 =
      held.age % 2 ^ 32 := by
    rw [htick, tick_difference (by omega)]
    congr 1
    omega
  rw [helapsed, ServiceToken.expired, ← Bool.decide_and, decide_eq_decide, asInt32]
  have hbound : held.age % 2 ^ 32 < 2 ^ 32 := Nat.mod_lt _ (by decide)
  split_ifs <;> omega

/-- A token serves for a relying party when the authenticator says so. -/
theorem tokenRpIdMatches_eq (hlaws : SealLaws crypto)
    (hholds : HoldsToken session world.clock held) (rpId : Bytes) :
    tokenRpIdMatches crypto session.state (some rpId) = (hashRpId crypto (some rpId)).any
      fun named ↦ held.rpId.all fun bound ↦ decide (bound = named) := by
  rw [tokenRpIdMatches, hholds.rpId]
  cases hhash : hashRpId crypto (some rpId) with
  | none => rfl
  | some named =>
    simp only [Option.any_some]
    by_cases hset : session.state.pinTokenPermissionsRpIdSet = true
    · rw [if_pos hset, if_pos hset, constantTimeEqual,
        List.take_of_length_le (Nat.le_of_eq hholds.rpIdHash),
        List.take_of_length_le (Nat.le_of_eq (length_hashRpId hlaws hhash)), beq_eq_decide]
      rfl
    · rw [if_neg hset, if_neg hset]
      rfl

/-- A managed token has nothing left after its use. -/
theorem consumeUpTestedPermissions_eq (state : ClientPinState) {required : UInt64}
    (hrequired : UpTested required) :
    consumeUpTestedPermissions state required = { state with
      pinTokenPermissions := state.pinTokenPermissions &&& ~~~(permissionMc ||| permissionGa)
      pinTokenPermissionsScoped := false
      pinTokenPermissionsManaged := false
      pinTokenPermissionsRpIdSet := false
      pinTokenPermissionsRpIdHash := zeroBytes 32 } := by
  have hasked : required &&& (permissionMc ||| permissionGa) ≠ 0 := by
    obtain rfl | rfl := hrequired <;> decide
  have hcleared : state.pinTokenPermissions &&& ~~~(permissionMc ||| permissionGa) &&&
      (permissionMc ||| permissionGa) = 0 := by
    rw [UInt64.and_assoc]
    have hnone : ~~~(permissionMc ||| permissionGa) &&& (permissionMc ||| permissionGa) = 0 := by
      decide
    rw [hnone]
    simp
  unfold consumeUpTestedPermissions
  simp only [hasked, if_false, hcleared, if_true]

/-- The end of an authorisation, once the token is bound to the relying party. -/
theorem ensures_pinCommitAuthorization_service (rpId : Option Bytes) (rpIdSet : Bool)
    (rpIdHash : Bytes) (hlaws : SealLaws crypto) (h : Represents crypto ValidKey session service world)
    (hset : session.state.pinSet = true) (hrequired : UpTested request.requiredPermissions)
    (hholds : HoldsToken session world.clock held)
    (hrpId : (if held.limited then held.rpId.or rpId else held.rpId) =
      if rpIdSet then some rpIdHash else none)
    (hlength : rpIdHash.length = 32) :
    Ensures (pinCommitAuthorization crypto { session.state with
        pinTokenPermissionsRpIdSet := rpIdSet, pinTokenPermissionsRpIdHash := rpIdHash } request)
      (fun result world' ↦ result.1 = (.success, true) ∧
        Represents crypto ValidKey ⟨result.2, session.token⟩ { service with
          mismatches := 0, blocked := false, token := some (held.use rpId) } world')
      (fun _ ↦ False) world := by
  have hpin : service.pin = some session.state.pinHash := by
    have hheld := h.pin
    simpa only [hset, if_true] using hheld
  have hbounds : Service.WellFormed { service with
      mismatches := 0, blocked := false, token := some (held.use rpId) } :=
    ⟨h.wellFormed.retries, Nat.zero_le 3, fun _ ↦ Nat.zero_lt_succ 2,
      fun hnone ↦ absurd (hpin.symm.trans hnone) (by simp)⟩
  have hset' : ({ session.state with
      pinTokenPermissionsRpIdSet := rpIdSet
      pinTokenPermissionsRpIdHash := rpIdHash } : ClientPinState).pinSet = true := hset
  refine (ensures_pinCommitAuthorization_working h.working hset' request).mono ?_
    fun _ hfalse ↦ hfalse
  rintro ⟨answer, after⟩ final ⟨hresult, hfiled⟩
  simp only [Prod.mk.injEq] at hresult
  obtain ⟨rfl, rfl⟩ := hresult
  refine ⟨rfl, ?_⟩
  obtain ⟨hactive, hknown, hpermissions, hlimited, hmanaged, -, -, hissued⟩ := hholds
  simp only [ClientPinState.clearAuthBlockState] at hfiled ⊢
  rw [← hmanaged]
  cases hspent : held.managed with
  | true =>
    rw [if_pos rfl, consumeUpTestedPermissions_eq _ hrequired]
    refine represents_filed hlaws hfiled rfl hset h.keyPair hbounds hpin h.pinHash h.retries rfl rfl
      (Or.inr ⟨_, rfl, ?_⟩)
    rw [ServiceToken.use, if_pos hspent]
    exact ⟨hactive, hknown, by rw [hpermissions], rfl, rfl, rfl, rfl, hissued⟩
  | false =>
    rw [if_neg (by simp)]
    refine represents_filed hlaws hfiled rfl hset h.keyPair hbounds hpin h.pinHash h.retries rfl rfl
      (Or.inr ⟨_, rfl, ?_⟩)
    rw [ServiceToken.use, if_neg (by simp [hspent])]
    by_cases hrestricted : held.limited = true
    · rw [if_pos hrestricted] at hrpId ⊢
      exact ⟨hactive, hknown, hpermissions, hlimited, hspent, hrpId, hlength, hissued⟩
    · rw [if_neg hrestricted] at hrpId ⊢
      exact ⟨hactive, hknown, hpermissions, hlimited, hspent, hrpId, hlength, hissued⟩

/-- Only an empty RP ID has no digest. -/
theorem hashRpId_eq_none {rpId : Bytes} : hashRpId crypto (some rpId) = none ↔ rpId = [] := by
  cases rpId with
  | nil => simp [hashRpId]
  | cons head tail => simp [hashRpId]

/-- Using a token that has not expired. -/
theorem ensures_pinAuthorize_service (hlaws : SealLaws crypto)
    (h : Represents crypto ValidKey session service world)
    (hset : session.state.pinSet = true) (hrequired : UpTested request.requiredPermissions)
    (hholds : HoldsToken session world.clock held) {rpId : Bytes}
    (hrequest : request.rpId = some rpId) :
    Ensures (pinAuthorize crypto session.state request)
      (fun result world' ↦
        (held.permits request.requiredPermissions (hashRpId crypto (some rpId)) = true →
          result.1 = (.success, true) ∧
          Represents crypto ValidKey ⟨result.2, session.token⟩ { service with
            mismatches := 0
            blocked := false
            token := some (held.use (hashRpId crypto (some rpId))) } world') ∧
        (held.permits request.requiredPermissions (hashRpId crypto (some rpId)) = false →
          result = ((.pinAuthInvalid, false), session.state) ∧ world' = world))
      (fun _ ↦ False) world := by
  have hasked : request.requiredPermissions &&& (permissionMc ||| permissionGa) ≠ 0 := by
    obtain hone | htwo := hrequired
    · rw [hone]
      decide
    · rw [htwo]
      decide
  have hmatches : tokenRpIdMatches crypto session.state request.rpId =
      (hashRpId crypto (some rpId)).any fun named ↦
        held.rpId.all fun bound ↦ decide (bound = named) := by
    rw [hrequest]
    exact tokenRpIdMatches_eq hlaws hholds rpId
  simp only [pinAuthorize, ServiceToken.permits, hholds.permissions]
  by_cases hgranted : session.state.pinTokenPermissions &&& request.requiredPermissions =
      request.requiredPermissions
  · simp only [hgranted, beq_self_eq_true, Bool.true_and, ne_eq, not_true_eq_false, if_false]
    cases hlimited : held.limited with
    | false =>
      have hscoped : session.state.pinTokenPermissionsScoped = false :=
        hholds.limited.symm.trans hlimited
      simp only [hscoped, Bool.false_eq_true, false_and, if_false, Bool.not_false, Bool.true_or]
      refine (ensures_pinCommitAuthorization_service (hashRpId crypto (some rpId))
        session.state.pinTokenPermissionsRpIdSet session.state.pinTokenPermissionsRpIdHash hlaws h
        hset hrequired hholds ?_ hholds.rpIdHash).mono ?_ fun _ hfalse ↦ hfalse
      · simp only [hlimited, Bool.false_eq_true, if_false, hholds.rpId]
      · exact fun result final hfinal ↦ ⟨fun _ ↦ hfinal, fun hfalse ↦ absurd hfalse (by simp)⟩
    | true =>
      have hscoped : session.state.pinTokenPermissionsScoped = true :=
        hholds.limited.symm.trans hlimited
      simp only [hscoped, hasked, not_false_eq_true, and_self, if_true, hmatches, Bool.not_true,
        Bool.false_or]
      cases hnamed : hashRpId crypto (some rpId) with
      | none =>
        -- A limited token serves for no empty RP ID.
        have hempty : request.rpId = none ∨ request.rpId = some [] := by
          rw [hrequest, hashRpId_eq_none.mp hnamed]
          exact Or.inr rfl
        simp only [hempty, if_true, ensures_pure, Option.any_none]
        exact ⟨fun htrue ↦ absurd htrue (by simp), fun _ ↦ ⟨trivial, trivial⟩⟩
      | some named =>
        have hnonempty : ¬(request.rpId = none ∨ request.rpId = some []) := by
          rw [hrequest]
          rintro (hnone | hempty)
          · exact absurd hnone (by simp)
          · rw [Option.some.inj hempty] at hnamed
            exact absurd hnamed (by simp [hashRpId])
        simp only [hnonempty, if_false, Option.any_some]
        by_cases hmatch : (held.rpId.all fun bound ↦ decide (bound = named)) = true
        · simp only [hmatch, Bool.not_true, Bool.false_eq_true, if_false]
          have hheld := hholds.rpId
          cases hbound : session.state.pinTokenPermissionsRpIdSet with
          | false =>
            -- The token is bound to this relying party from now on.
            have hbind : setTokenPermissions crypto session.state session.state.pinTokenPermissions
                session.state.pinTokenPermissionsScoped session.state.pinTokenPermissionsManaged
                request.rpId = { session.state with
                  pinTokenPermissionsRpIdSet := true
                  pinTokenPermissionsRpIdHash := named } := by
              rw [setTokenPermissions, hrequest, hnamed]
              rfl
            rw [hscoped] at hbind
            simp only [Bool.not_false, if_true, hbind]
            rw [hbound, if_neg (by simp)] at hheld
            refine (ensures_pinCommitAuthorization_service (some named) true named hlaws h hset
              hrequired hholds ?_ (length_hashRpId hlaws hnamed)).mono ?_ fun _ hfalse ↦ hfalse
            · rw [hlimited, hheld]
              rfl
            · intro result final hfinal
              exact ⟨fun _ ↦ hfinal, fun hfalse ↦ absurd hfalse (by simp)⟩
          | true =>
            simp only [Bool.not_true, Bool.false_eq_true, if_false]
            rw [hbound, if_pos rfl] at hheld
            refine (ensures_pinCommitAuthorization_service (some named)
              session.state.pinTokenPermissionsRpIdSet session.state.pinTokenPermissionsRpIdHash
              hlaws h hset hrequired hholds ?_ hholds.rpIdHash).mono ?_ fun _ hfalse ↦ hfalse
            · rw [hlimited, hheld, hbound]
              rfl
            · intro result final hfinal
              exact ⟨fun _ ↦ hfinal, fun hfalse ↦ absurd hfalse (by simp)⟩
        · rw [Bool.not_eq_true] at hmatch
          simp only [hmatch, Bool.not_false, if_true, ensures_pure]
          exact ⟨fun htrue ↦ absurd htrue (by simp), fun _ ↦ ⟨trivial, trivial⟩⟩
  · simp [hgranted]

end TokenUse

end ZeroFido.Pin
