import ZeroFido.Pin.ClientPin
import ZeroFido.Pin.TokenUse

/-!
# The clientPIN command keeps the invariants

One specification for each handler of the command, up to `ensures_pinHandleCommand`. A token that is
issued carries the terms it was asked for; the second look at the stored PIN after the consent wait
is counted like any other comparison, and agrees with the first when nothing happened in between.
-/

set_option autoImplicit false
set_option relaxedAutoImplicit false

namespace ZeroFido.Pin

open Foundations Storage

section Waiting

/-- What happens to the published state while the command waits for consent and no other operation
runs: time passes. -/
def waitFor (delay : ℕ) (state : ClientPinState) : Program Device ClientPinState := do
  modify fun world ↦ { world with clock := world.clock + delay }
  return state

variable {crypto : Crypto} {admitted : List PinEvent → ℕ → Prop} {world : Device}

/-- The passing of time keeps both invariants. -/
theorem sound_clock (state : ClientPinState) (delay : ℕ) :
    Sound crypto admitted state world state { world with clock := world.clock + delay } := by
  refine ⟨fun htoken ↦ ⟨htoken.history, fun hactive ↦ ?_⟩, fun _ _ hbound ↦
    ⟨hbound.history, hbound.memory, hbound.file⟩, List.suffix_refl _, List.suffix_refl _⟩
  obtain ⟨issued, grant, hterms⟩ := htoken.token hactive
  exact ⟨issued, grant, hterms.last, Nat.le_trans hterms.past (Nat.le_add_right _ _), hterms.tick,
    hterms.managed, hterms.bound⟩

end Waiting

section Comparison

variable {crypto : Crypto} {world : Device}

/-- `zf_pin_auth_failure` never reports success. -/
theorem ensures_pinAuthFailure_status (state : ClientPinState) :
    Ensures (pinAuthFailure crypto state) (fun result _ ↦ result.1 ≠ .success) (fun _ ↦ True)
      world := by
  simp only [pinAuthFailure, ensures_ite, ensures_pure]
  refine ⟨fun _ ↦ by simp, fun _ ↦ ?_⟩
  simp only [ensures_bind]
  refine Crypto.ensures_generateKeyAgreementKey fun generated middle _ _ ↦ ?_
  cases generated with
  | none => simp
  | some key =>
    simp only [ensures_bind]
    refine (ensures_persistOrBlock _).mono (fun after final _ ↦ ?_) fun _ _ ↦ trivial
    simp only [ensures_ite, ensures_pure]
    refine ⟨fun _ ↦ by simp, fun _ ↦ ?_⟩
    split_ifs <;> simp

/-- A comparison that reports success compared equal hashes, and left the stored one in place. -/
theorem ensures_comparePinHash_success (state : ClientPinState) (pinHash : Bytes) :
    Ensures (comparePinHash crypto state pinHash)
      (fun result _ ↦ result.1 = .success → result.2.pinSet = state.pinSet ∧
        constantTimeEqual pinHash result.2.pinHash pinHashLen = true)
      (fun _ ↦ True) world := by
  simp only [comparePinHash, note, ensures_bind, ensures_modify]
  cases hequal : constantTimeEqual pinHash state.pinHash pinHashLen with
  | false =>
    simp only [Bool.not_false, if_true]
    refine (ensures_pinAuthFailure_status state).mono (fun result final hstatus hsuccess ↦ ?_)
      fun _ _ ↦ trivial
    exact absurd hsuccess hstatus
  | true =>
    simp only [Bool.not_true, Bool.false_eq_true, if_false, pinAuthSuccess, note, ensures_bind]
    refine (ensures_pinStateStorePersist _).mono (fun persisted middle _ ↦ ?_) fun _ _ ↦ trivial
    cases persisted with
    | false => simp
    | true => exact fun _ ↦ ⟨rfl, hequal⟩

end Comparison

section Handlers

variable {crypto : Crypto} {admitted : List PinEvent → ℕ → Prop} {world : Device}

theorem ensures_pinProtocolEncrypt {pinProtocol outCapacity : ℕ} {keys : ProtocolKeys}
    {plaintext : Bytes} {post : Option Bytes → Device → Prop} {crash : Device → Prop}
    (h : ∀ result world', Idle world world' → post result world') :
    Ensures (pinProtocolEncrypt crypto pinProtocol keys plaintext outCapacity) post crash
      world := by
  have hhere (result : Option Bytes) : post result world := h result world (Idle.refl world)
  simp only [pinProtocolEncrypt, ensures_ite, ensures_pure, ensures_bind]
  refine ⟨fun _ ↦ hhere _, fun _ ↦ ⟨fun _ ↦ ⟨fun _ ↦ hhere _, fun _ ↦ hhere _⟩, fun _ ↦
    ⟨fun _ ↦ hhere _, fun _ ↦ ?_⟩⟩⟩
  exact ensures_randomFill fun iv world' hidle _ ↦ h _ world' hidle

/-- Issuing a token. Nothing is written, so the power loss cannot fall in it. -/
theorem ensures_issuePinToken (state : ClientPinState) (request : ClientPinRequest)
    (keys : ProtocolKeys) (permissionsMode requireLocalConsent : Bool) (outCapacity : ℕ) :
    Ensures (issuePinToken crypto state request keys permissionsMode requireLocalConsent
      outCapacity)
      (fun result world' ↦ Sound crypto admitted state world result.state world')
      (fun _ ↦ False) world := by
  simp only [issuePinToken, ensures_bind]
  refine ensures_randomFill fun token first hfirst _ ↦ ?_
  refine ensures_pinProtocolEncrypt fun encrypted second hsecond ↦ ?_
  have hidle : Idle world second := hfirst.trans hsecond
  have hkept : Sound crypto admitted state world state second :=
    Accounted.sound ⟨⟨Or.inl rfl, .of_quiet hidle.toQuiet⟩, fun _ _ hbound ↦ hbound.idle hidle⟩
  cases encrypted with
  | none => exact hkept
  | some encryptedToken =>
    cases hresponse : responseToken encryptedToken outCapacity with
    | none =>
      simp only [hresponse]
      exact hkept
    | some response =>
      simp only [hresponse, notePinTokenIssued, getTick, note, ensures_bind, ensures_get,
        ensures_modify, ensures_pure]
      refine hkept.trans ⟨fun htoken ↦ ⟨?_, fun _ ↦ ?_⟩, fun _ _ hbound ↦ ?_, List.suffix_refl _,
        List.suffix_refl _⟩
      · rw [everyEvent_concat]
        exact ⟨htoken.history, trivial⟩
      · refine ⟨second.clock, _, lastIssue_tokenIssued _ _ _, le_rfl, rfl, fun hmanaged ↦ ?_, ?_⟩
        · exact Or.inl ⟨hmanaged, authorizedSinceIssue_tokenIssued _ _ _⟩
        · intro bound hmode hrpId hne
          simp only at hmode hrpId
          rw [hmode, if_pos rfl, Option.some.injEq] at hrpId
          refine Or.inl ⟨hmode, ?_, ?_⟩
          all_goals
            rw [hmode, if_pos rfl, hrpId]
            cases bound with
            | nil => exact absurd rfl hne
            | cons head tail => rfl
      · refine ⟨?_, ?_, ?_⟩
        · rw [everyEvent_concat]
          exact ⟨hbound.history, fun hevent ↦ absurd hevent (by simp)⟩
        · rw [wrongSinceReset_concat]
          exact hbound.memory
        · rw [wrongSinceReset_concat]
          exact hbound.file

/-- The consent wait, for a PIN that was proved just before it. -/
theorem ensures_requestPermissionTokenConsent (state : ClientPinState) (pinHashPlain : Bytes)
    (consent : ConsentOutcome) (delay : ℕ)
    (hequal : constantTimeEqual pinHashPlain state.pinHash pinHashLen = true) :
    Ensures (requestPermissionTokenConsent state pinHashPlain consent (waitFor delay))
      (fun result world' ↦ Sound crypto admitted state world result.2 world')
      (fun _ ↦ False) world := by
  have hwaited : Sound crypto admitted state world state
      { world with clock := world.clock + delay } := sound_clock state delay
  simp only [requestPermissionTokenConsent, waitFor, ensures_bind, ensures_modify, ensures_pure,
    ensures_ite]
  refine ⟨fun _ ↦ hwaited, fun _ ↦ ⟨fun _ ↦ hwaited, fun _ ↦ ?_⟩⟩
  simp only [hequal, note, ensures_modify, Bool.not_true, Bool.false_eq_true, false_implies,
    not_false_eq_true, true_implies, true_and]
  refine hwaited.trans (Accounted.sound ⟨⟨Or.inl rfl, .noted _ rfl⟩, fun _ _ hbound ↦
    ⟨everyEvent_concat.mpr ⟨hbound.history, fun hevent ↦ absurd hevent (by simp)⟩, ?_, ?_⟩⟩)
  · rw [wrongSinceReset_concat]
    exact hbound.memory
  · rw [wrongSinceReset_concat]
    exact hbound.file

theorem requireExistingPin_success {state : ClientPinState}
    (h : requireExistingPin state = .success) :
    state.pinSet = true ∧ state.pinAuthBlocked = false ∧ 0 < state.pinRetries := by
  unfold requireExistingPin at h
  split_ifs at h with hset hblocked hretries
  exact ⟨by simpa using hset, by simpa using hblocked, by omega⟩

theorem getPinTokenChecks_success {state : ClientPinState} {request : ClientPinRequest}
    {permissionsMode : Bool} (h : getPinTokenChecks state request permissionsMode = .success) :
    requireExistingPin state = .success := by
  by_contra hexisting
  unfold getPinTokenChecks at h
  rw [if_pos hexisting] at h
  exact hexisting h

/-- The failure handling of an undecryptable PIN hash: no comparison is recorded. -/
theorem ensures_pinAuthFailure_sound (state : ClientPinState) (hset : state.pinSet = true)
    (hblocked : state.pinAuthBlocked = false) (hretries : 0 < state.pinRetries) :
    Ensures (pinAuthFailure crypto state)
      (fun result world' ↦ Sound crypto admitted state world result.2 world')
      (fun world' ↦ LostDuring world world') world := by
  refine (ensures_pinAuthFailure state).mono ?_ fun _ hcrash ↦ hcrash
  rintro result final ⟨hbook, hretry⟩
  refine Accounted.sound ⟨hbook, fun hwrites hkeys hbound ↦ ?_⟩
  obtain ⟨htrace, hcount, raw, hraw, hstored⟩ := hretry hwrites hkeys hblocked hretries hset
  have hmemory := hbound.memory hset
  exact hbound.kept htrace hraw hstored (by omega)

/-- getPinToken, in both modes. -/
theorem ensures_clientPinHandleGetPinToken (state : ClientPinState) (request : ClientPinRequest)
    (permissionsMode requireLocalConsent : Bool) (consent : ConsentOutcome)
    (delay outCapacity : ℕ) :
    Ensures (clientPinHandleGetPinToken crypto state request permissionsMode requireLocalConsent
      consent (waitFor delay) outCapacity)
      (fun result world' ↦ Sound crypto admitted state world result.state world')
      (fun world' ↦ LostDuring world world') world := by
  simp only [clientPinHandleGetPinToken, ensures_ite, ensures_pure]
  refine ⟨fun _ ↦ Sound.refl _ _, fun hchecked ↦ ?_⟩
  obtain ⟨hset, hblocked, hretries⟩ :=
    requireExistingPin_success (getPinTokenChecks_success (not_not.mp hchecked))
  cases pinProtocolDeriveKeys crypto state request.pinProtocol request.platformX
      request.platformY with
  | none => exact Sound.refl _ _
  | some keys =>
    simp only
    cases (pinProtocolDecrypt crypto request.pinProtocol keys request.pinHashEnc).filter
        fun plain ↦ plain.length == pinHashLen with
    | none =>
      simp only [ensures_bind, ensures_pure]
      exact ensures_pinAuthFailure_sound state hset hblocked hretries
    | some pinHashPlain =>
      simp only [ensures_bind, ensures_ite, ensures_pure]
      refine ((ensures_comparePinHash state pinHashPlain hset hblocked hretries).and
        (ensures_comparePinHash_success state pinHashPlain)).mono ?_ fun _ hcrash ↦ hcrash.1
      rintro ⟨status, compared⟩ middle ⟨haccounted, hsuccess⟩
      have hcompared : Sound crypto admitted state world compared middle := haccounted.sound
      have hissued (proved : ClientPinState) (last : Device)
          (hproved : Sound crypto admitted state world proved last) :
          Ensures (issuePinToken crypto proved request keys permissionsMode requireLocalConsent
            outCapacity)
            (fun result world' ↦ Sound crypto admitted state world result.state world')
            (fun world' ↦ LostDuring world world') last :=
        (ensures_issuePinToken proved request keys permissionsMode requireLocalConsent
          outCapacity).mono (fun _ _ hfinal ↦ hproved.trans hfinal) fun _ hfalse ↦ hfalse.elim
      refine ⟨fun _ ↦ hcompared, fun hstatus ↦ ⟨fun _ ↦ ?_, fun _ ↦ hissued _ _ hcompared⟩⟩
      obtain ⟨-, hequal⟩ := hsuccess (not_not.mp hstatus)
      have hconsented : Ensures
          (requestPermissionTokenConsent compared pinHashPlain consent (waitFor delay))
          (fun result world' ↦ Sound crypto admitted compared middle result.2 world')
          (fun _ ↦ False) middle :=
        ensures_requestPermissionTokenConsent compared pinHashPlain consent delay hequal
      refine hconsented.mono ?_ fun _ hfalse ↦ hfalse.elim
      rintro ⟨consented, waited⟩ last hwaited
      exact ⟨fun _ ↦ hcompared.trans hwaited, fun _ ↦ hissued _ _ (hcompared.trans hwaited)⟩

/-- setPIN. -/
theorem ensures_clientPinHandleSetPin (state : ClientPinState) (request : ClientPinRequest) :
    Ensures (clientPinHandleSetPin crypto state request)
      (fun result world' ↦ Sound crypto admitted state world result.state world')
      (fun world' ↦ LostDuring world world') world := by
  have hkept : Sound crypto admitted state world state world := Sound.refl _ _
  simp only [clientPinHandleSetPin, ensures_ite, ensures_pure]
  refine ⟨fun _ ↦ hkept, fun _ ↦ ⟨fun _ ↦ hkept, fun _ ↦ ⟨fun _ ↦ hkept, fun _ ↦ ?_⟩⟩⟩
  cases newPinCiphertextLen request.pinProtocol request.newPinEnc.length with
  | none => exact hkept
  | some newPinPlainLen =>
    cases pinProtocolDeriveKeys crypto state request.pinProtocol request.platformX
        request.platformY with
    | none => exact hkept
    | some keys =>
      simp only [ensures_ite, ensures_pure]
      refine ⟨fun _ ↦ hkept, fun _ ↦ ?_⟩
      cases decryptNewPin crypto request keys newPinPlainLen with
      | error status => exact hkept
      | ok pin =>
        simp only [ensures_bind, ensures_pure]
        exact (ensures_pinApplyPlaintext state pin true).mono
          (fun _ _ haccounted ↦ haccounted.sound) fun _ hcrash ↦ hcrash

/-- changePIN. -/
theorem ensures_clientPinHandleChangePin (state : ClientPinState) (request : ClientPinRequest) :
    Ensures (clientPinHandleChangePin crypto state request)
      (fun result world' ↦ Sound crypto admitted state world result.state world')
      (fun world' ↦ LostDuring world world') world := by
  have hkept : Sound crypto admitted state world state world := Sound.refl _ _
  simp only [clientPinHandleChangePin, ensures_ite, ensures_pure]
  refine ⟨fun _ ↦ hkept, fun hexisting ↦ ⟨fun _ ↦ hkept, fun _ ↦ ⟨fun _ ↦ hkept, fun _ ↦ ?_⟩⟩⟩
  obtain ⟨hset, hblocked, hretries⟩ := requireExistingPin_success (not_not.mp hexisting)
  cases newPinCiphertextLen request.pinProtocol request.newPinEnc.length with
  | none => exact hkept
  | some newPinPlainLen =>
    simp only [ensures_ite, ensures_pure]
    refine ⟨fun _ ↦ hkept, fun _ ↦ ?_⟩
    cases pinProtocolDeriveKeys crypto state request.pinProtocol request.platformX
        request.platformY with
    | none => exact hkept
    | some keys =>
      simp only [ensures_ite, ensures_pure]
      refine ⟨fun _ ↦ hkept, fun _ ↦ ?_⟩
      cases (pinProtocolDecrypt crypto request.pinProtocol keys request.pinHashEnc).filter
          fun plain ↦ plain.length == pinHashLen with
      | none =>
        simp only [ensures_bind, ensures_pure]
        exact ensures_pinAuthFailure_sound state hset hblocked hretries
      | some currentPinHash =>
        simp only [ensures_bind, ensures_ite, ensures_pure]
        refine (ensures_pinVerifyHash state currentPinHash).mono ?_ fun _ hcrash ↦ hcrash
        rintro ⟨status, verified⟩ middle hverified
        refine ⟨fun _ ↦ hverified.sound, fun _ ↦ ?_⟩
        cases decryptNewPin crypto request keys newPinPlainLen with
        | error status => exact hverified.sound
        | ok pin =>
          simp only [ensures_bind, ensures_pure]
          exact (ensures_pinApplyPlaintext verified pin false).mono
            (fun _ _ happlied ↦ (hverified.trans happlied).sound)
            fun _ hcrash ↦ hcrash.after hverified.book.records

/-- The clientPIN command, whatever it is asked. -/
theorem ensures_pinHandleCommand (state : ClientPinState) (capabilities : Capabilities)
    (data : Bytes) (consent : ConsentOutcome) (delay outCapacity : ℕ) :
    Ensures (pinHandleCommand crypto state capabilities data consent (waitFor delay) outCapacity)
      (fun result world' ↦ Sound crypto admitted state world result.state world')
      (fun world' ↦ LostDuring world world') world := by
  have hkept : Sound crypto admitted state world state world := Sound.refl _ _
  unfold pinHandleCommand
  cases clientPinParseRequest data with
  | error status => exact hkept
  | ok request =>
    simp only [ensures_ite, ensures_pure]
    refine ⟨fun _ ↦ hkept, fun _ ↦ ⟨fun _ ↦ ?_, fun _ ↦ ⟨fun _ ↦ ?_, fun _ ↦ ⟨fun _ ↦ ?_, fun _ ↦
      ⟨fun _ ↦ ?_, fun _ ↦ ⟨fun _ ↦ ⟨fun _ ↦ hkept, fun _ ↦ ?_⟩, fun _ ↦ ⟨fun _ ↦ ?_,
        fun _ ↦ hkept⟩⟩⟩⟩⟩⟩⟩
    · cases responseRetries state outCapacity <;> exact hkept
    · cases responseKeyAgreement state outCapacity <;> exact hkept
    · exact ensures_clientPinHandleSetPin state request
    · exact ensures_clientPinHandleGetPinToken state request _ _ consent delay outCapacity
    · exact ensures_clientPinHandleGetPinToken state request _ _ consent delay outCapacity
    · exact ensures_clientPinHandleChangePin state request

end Handlers

end ZeroFido.Pin
