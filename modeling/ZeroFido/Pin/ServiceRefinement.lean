import ZeroFido.Pin.ServiceTokens

/-!
# The authenticator is the service

Each exchange between a client and the authenticator is a step of the service (`ensures_exchange`),
and so over any sequence of requests, restarts and resets the answers are the service's
(`ensures_converse`, `authenticator_is_pin_service`).
-/

set_option autoImplicit false
set_option relaxedAutoImplicit false

namespace ZeroFido.Pin

open Foundations Storage Store Cbor Ctap

section Run

variable {crypto : Crypto} {capabilities : Capabilities} {outCapacity : ℕ}
  {ValidKey : Bytes → Prop} {client : Client} {session : Session} {service : Service Bytes}
  {world : Device}

/-- A use of the token. -/
theorem ensures_exchange_useToken (hlaws : ConversationLaws crypto ValidKey)
    (hready : client.Ready capabilities ValidKey)
    (h : Represents crypto ValidKey session service world) {required : UInt64}
    (hrequired : UpTested required) (rpId : Bytes) :
    Ensures (exchange crypto capabilities outCapacity client session (.useToken required rpId))
      (Answers crypto ValidKey
        (service.step (servicePolicy crypto capabilities) (.useToken required rpId)))
      (fun _ ↦ False) world := by
  obtain ⟨tag, hauthenticated, htagLen, htag⟩ := authenticate_some hlaws.toExchangeLaws hready
    ⟨session.token, []⟩ client.clientDataHash []
  rw [List.append_nil] at hauthenticated
  obtain ⟨mac, hmac, hmacLen⟩ := hlaws.hmac session.token client.clientDataHash
  have hequal : constantTimeEqual mac tag (pinUvAuthParamLen client.pinProtocol) = true := by
    rw [pinProtocolHmacMatches, List.append_nil, hmac] at htag
    exact (Bool.and_eq_true_iff.mp htag).2
  have hknown : ¬(client.pinProtocol ≠ pinProtocolV1 ∧ client.pinProtocol ≠ pinProtocolV2) := by
    rintro ⟨hone, htwo⟩
    exact hready.protocol.elim hone htwo
  simp only [exchange, useToken, hauthenticated, pinRequireAuth, if_true, Bool.not_true,
    Bool.false_eq_true, if_false, hknown, htagLen, ne_eq, not_true_eq_false, ensures_bind,
    ensures_ite, ensures_pure, h.blocked]
  have hpin := h.pin
  simp only [Service.step, Service.useToken]
  refine ⟨fun hblocked ↦ ?_, fun hblocked ↦ ⟨fun hunset ↦ ?_, fun hset ↦ ⟨fun hinactive ↦ ?_,
    fun hactive ↦ ?_⟩⟩⟩
  · simp only [hblocked, if_true]
    exact ⟨session, rfl, h⟩
  · have hnone : service.pin.isNone = true := by
      rw [hpin, if_neg (by simpa using hunset)]
      rfl
    simp only [hblocked, Bool.false_eq_true, if_false, hnone, if_true]
    exact ⟨session, rfl, h⟩
  all_goals
    have hset' : session.state.pinSet = true := by simpa using hset
    have hsome : service.pin.isNone = false := by
      rw [hpin, if_pos hset']
      rfl
    simp only [hblocked, Bool.false_eq_true, if_false, hsome]
  · obtain ⟨hnone, -⟩ | ⟨held, -, hholds⟩ := h.token
    · simp only [hnone]
      exact ⟨session, rfl, h⟩
    · rw [hholds.active] at hinactive
      exact absurd hinactive (by simp)
  · obtain ⟨-, hinactive⟩ | ⟨held, hheld, hholds⟩ := h.token
    · rw [hinactive] at hactive
      exact absurd rfl hactive
    simp only [hheld]
    refine (ensures_pinTokenIsExpired hholds).mono ?_ fun _ hfalse ↦ hfalse
    rintro expired middle ⟨rfl, rfl⟩
    rw [← hholds.known, hmac]
    simp only [hequal, Bool.not_true, Bool.false_eq_true, if_false]
    refine ⟨fun hexpired ↦ ?_, fun hfresh ↦ ?_⟩
    · have hopen : service.blocked = false := by simpa using hblocked
      simp only [hexpired, if_true]
      refine ⟨_, rfl, h.working, h.keyPair, ⟨h.wellFormed.retries, h.wellFormed.mismatches,
        fun _ ↦ h.wellFormed.unblocked hopen, fun hnone ↦ ?_⟩, h.pin, h.pinHash, h.retries,
        h.mismatches, h.blocked.trans hopen, h.file, Or.inl ⟨rfl, rfl⟩⟩
      simp only at hnone
      rw [hnone] at hsome
      exact absurd hsome (by simp)
    · simp only [hfresh, Bool.false_eq_true, if_false]
      refine (ensures_pinAuthorize_service hlaws.toSealLaws h hset' hrequired hholds rfl).mono ?_
        fun _ hfalse ↦ hfalse
      rintro ⟨⟨status, verified⟩, after⟩ final ⟨hpermitted, hrefused⟩
      simp only [servicePolicy]
      by_cases hpermits : held.permits required (hashRpId crypto (some rpId)) = true
      · obtain ⟨hanswer, hrepresents⟩ := hpermitted hpermits
        simp only [Prod.mk.injEq] at hanswer
        obtain ⟨rfl, rfl⟩ := hanswer
        simp only [hpermits, Bool.not_true, Bool.false_eq_true, if_false, decide_true]
        exact ⟨_, rfl, hrepresents⟩
      · obtain ⟨hanswer, rfl⟩ := hrefused (by simpa using hpermits)
        simp only [Prod.mk.injEq] at hanswer
        obtain ⟨⟨rfl, rfl⟩, rfl⟩ := hanswer
        simp only [hpermits, Bool.not_false, if_true]
        exact ⟨session, rfl, h⟩

/-- getPinRetries. -/
theorem ensures_exchange_getRetries (hready : client.Ready capabilities ValidKey)
    (hcapacity : 80 ≤ outCapacity) (h : Represents crypto ValidKey session service world) :
    Ensures (exchange crypto capabilities outCapacity client session .getRetries)
      (Answers crypto ValidKey (service.step (servicePolicy crypto capabilities) .getRetries))
      (fun _ ↦ False) world := by
  have hfits : ∀ field ∈ ([] : List RequestField), field.Fits := by simp
  obtain ⟨hparsed, hheaded⟩ := clientPinParseRequest_message hready
    (show subcmdGetRetries < 2 ^ 64 by decide) hfits (by simp) (by simp) (by simp)
  have hretries : session.state.pinRetries ≤ pinRetriesMax := by
    rw [h.retries]
    exact h.wellFormed.retries
  obtain ⟨response, hresponse, hread⟩ :=
    readRetries_responseRetries hretries (show 3 ≤ outCapacity by omega)
  simp only [exchange, send, pinHandleCommand, hparsed, ensures_bind]
  rw [if_neg (protocol_enabled hready hheaded), if_pos hheaded.subcommand, hresponse]
  refine ⟨session, ?_, h⟩
  simp only [hread, Option.map_some, Service.step, h.retries]

/-- A restart. -/
theorem ensures_exchange_powerCycle (h : Represents crypto ValidKey session service world) :
    Ensures (exchange crypto capabilities outCapacity client session .powerCycle)
      (Answers crypto ValidKey (service.step (servicePolicy crypto capabilities) .powerCycle))
      (fun _ ↦ False) world := by
  have hpin := h.pin
  simp only [exchange, ensures_bind, ensures_pure, Service.step]
  cases hset : session.state.pinSet with
  | false =>
    rw [hset, if_neg (by simp)] at hpin
    have hnone := h.file.2 hset
    have hempty := h.wellFormed.unset hpin
    refine (ensures_pinInitWithResult_working h.working none (Or.inl ⟨rfl, hnone⟩)).mono ?_
      fun _ hfalse ↦ hfalse
    rintro ⟨result, state⟩ final ⟨hok, hstarted, hfiles, -⟩
    obtain ⟨token, key, hkey, hstate⟩ := hstarted.state
    simp only at hok hstate hfiles
    subst hok hstate
    rw [hempty]
    exact ⟨_, rfl, hstarted.working, hkey, Service.wellFormed_empty, rfl, rfl, rfl, rfl, rfl,
      ⟨fun hset' ↦ absurd hset' (by simp [restarted]), fun _ ↦ hfiles.trans hnone⟩,
      Or.inl ⟨rfl, rfl⟩⟩
  | true =>
    rw [hset, if_pos rfl] at hpin
    obtain ⟨raw, found, hraw, hloaded, hhash, hretries⟩ := h.file.1 hset
    refine (ensures_pinInitWithResult_working h.working (some found)
      (Or.inr ⟨raw, found, rfl, hraw, hloaded⟩)).mono ?_ fun _ hfalse ↦ hfalse
    rintro ⟨result, state⟩ final ⟨hok, hstarted, -, hkept⟩
    obtain ⟨token, key, hkey, hstate⟩ := hstarted.state
    simp only at hok hstate hkept
    subst hok hstate
    refine ⟨_, rfl, hstarted.working, hkey, ⟨h.wellFormed.retries, Nat.zero_le 3,
      fun _ ↦ Nat.zero_lt_succ 2, fun hnone ↦ absurd (hpin.symm.trans hnone) (by simp)⟩, ?_, ?_, ?_,
      rfl, rfl, ⟨fun _ ↦ ⟨raw, found, (hkept rfl).trans hraw, hloaded, rfl, rfl⟩,
        fun hunset ↦ absurd hunset (by simp [restarted])⟩, Or.inl ⟨rfl, rfl⟩⟩
    · show service.pin = some found.pinHash
      rw [hhash]
      exact hpin
    · show found.pinHash.length = pinHashLen
      rw [hhash]
      exact h.pinHash
    · show found.pinRetries = service.retries
      rw [hretries]
      exact h.retries

/-- A reset. -/
theorem ensures_exchange_reset (h : Represents crypto ValidKey session service world) :
    Ensures (exchange crypto capabilities outCapacity client session .reset)
      (Answers crypto ValidKey (service.step (servicePolicy crypto capabilities) .reset))
      (fun _ ↦ False) world := by
  simp only [exchange, ensures_bind, ensures_pure, Service.step]
  refine (ensures_pinClear_working h.working).mono ?_ fun _ hfalse ↦ hfalse
  rintro ⟨done, state⟩ final ⟨hdone, hstarted, hgone⟩
  obtain ⟨token, key, hkey, hstate⟩ := hstarted.state
  simp only at hdone hstate
  subst hdone hstate
  exact ⟨_, rfl, hstarted.working, hkey, Service.wellFormed_empty, rfl, rfl, rfl, rfl, rfl,
    ⟨fun hset ↦ absurd hset (by simp [restarted]), fun _ ↦ hgone⟩, Or.inl ⟨rfl, rfl⟩⟩

/-- A new PIN that its block has room for, an RP ID that the parser has room for, and a token used for
a credential or an assertion. -/
def Askable : ServiceRequest Bytes Bytes → Prop
  | .setPin pin => Sendable pin
  | .changePin _ next => Sendable next
  | .getPinToken _ scope _ _ => ∀ permissions rpId, scope = some (permissions, rpId) →
    (RequestField.rpId rpId).Fits
  | .useToken required _ => UpTested required
  | _ => True

/-- Each exchange is a step of the service. -/
theorem ensures_exchange (hlaws : ConversationLaws crypto ValidKey)
    (henabled : capabilities.pinUvAuthTokenEnabled = true) (hcapacity : 80 ≤ outCapacity)
    (hready : client.Ready capabilities ValidKey) {request : ServiceRequest Bytes Bytes}
    (hrequest : Askable request) (h : Represents crypto ValidKey session service world) :
    Ensures (exchange crypto capabilities outCapacity client session request)
      (Answers crypto ValidKey (service.step (servicePolicy crypto capabilities) request))
      (fun _ ↦ False) world := by
  cases request with
  | getRetries => exact ensures_exchange_getRetries hready hcapacity h
  | setPin pin => exact ensures_exchange_setPin hlaws hready hcapacity h hrequest
  | changePin current next =>
    exact ensures_exchange_changePin hlaws hready hcapacity h current hrequest
  | getPinToken pin scope consent delay =>
    exact ensures_exchange_getPinToken hlaws hready hcapacity henabled h pin hrequest consent delay
  | useToken required rpId =>
    exact ensures_exchange_useToken hlaws hready h hrequest rpId
  | wait delay =>
    simp only [exchange, waitFor, ensures_bind, ensures_modify, ensures_pure]
    exact ⟨session, rfl, h.elapse (h.working.later (world.clock + delay) _) rfl rfl⟩
  | powerCycle => exact ensures_exchange_powerCycle h
  | reset => exact ensures_exchange_reset h

/-- Over any sequence of requests, each by a client of its own, the authenticator's answers are the
service's. -/
theorem ensures_converse (hlaws : ConversationLaws crypto ValidKey)
    (henabled : capabilities.pinUvAuthTokenEnabled = true) (hcapacity : 80 ≤ outCapacity)
    (requests : List (Client × ServiceRequest Bytes Bytes))
    (hrequests : ∀ request ∈ requests, request.1.Ready capabilities ValidKey ∧ Askable request.2)
    (h : Represents crypto ValidKey session service world) :
    Ensures (converse crypto capabilities outCapacity session requests)
      (fun result world' ↦ ∃ session',
        result = some ((service.run (servicePolicy crypto capabilities)
          (requests.map Prod.snd)).1, session') ∧
        Represents crypto ValidKey session' (service.run (servicePolicy crypto capabilities)
          (requests.map Prod.snd)).2 world')
      (fun _ ↦ False) world := by
  induction requests generalizing session service world with
  | nil => exact ⟨session, rfl, h⟩
  | cons first rest ih =>
    obtain ⟨client, request⟩ := first
    obtain ⟨hready, hrequest⟩ := hrequests (client, request) List.mem_cons_self
    simp only [converse, ensures_bind]
    refine (ensures_exchange hlaws henabled hcapacity hready hrequest h).mono ?_
      fun _ hfalse ↦ hfalse
    rintro result middle ⟨after, rfl, hafter⟩
    simp only [ensures_bind, ensures_pure]
    refine (ih (fun other hother ↦ hrequests other (List.mem_cons_of_mem _ hother)) hafter).mono ?_
      fun _ hfalse ↦ hfalse
    rintro answers final ⟨session', rfl, hfinal⟩
    exact ⟨session', rfl, hfinal⟩

/-- The first start of an authenticator, and what clients ask of it from then on. -/
def firstConversation (crypto : Crypto) (capabilities : Capabilities) (outCapacity : ℕ)
    (requests : List (Client × ServiceRequest Bytes Bytes)) :
    Program Device (Option (List ServiceAnswer × Session)) := do
  let (_, state) ← pinInitWithResult crypto
  converse crypto capabilities outCapacity ⟨state, []⟩ requests

/-- From its first start on, an authenticator on which no call fails answers as the service: the
PINs that clients set and change, their guesses, the tokens they get and use, restarts and resets
all come out as they do there, in whatever order and by whichever clients they are asked for. -/
theorem authenticator_is_pin_service (crypto : Crypto) (capabilities : Capabilities)
    (ValidKey : Bytes → Prop) (hlaws : ConversationLaws crypto ValidKey)
    (henabled : capabilities.pinUvAuthTokenEnabled = true) (outCapacity : ℕ)
    (hcapacity : 80 ≤ outCapacity) (requests : List (Client × ServiceRequest Bytes Bytes))
    (hrequests : ∀ request ∈ requests, request.1.Ready capabilities ValidKey ∧ Askable request.2)
    (world : Device) (hworking : Working ValidKey world)
    (hfile : logical world.files pinFilePath = none) :
    Ensures (firstConversation crypto capabilities outCapacity requests)
      (fun result _ ↦ ∃ session, result = some ((Service.run (servicePolicy crypto capabilities) {}
        (requests.map Prod.snd)).1, session))
      (fun _ ↦ False) world := by
  simp only [firstConversation, ensures_bind]
  refine (ensures_pinInitWithResult_working hworking none (Or.inl ⟨rfl, hfile⟩)).mono ?_
    fun _ hfalse ↦ hfalse
  rintro ⟨status, state⟩ middle ⟨-, hstarted, hfiles, -⟩
  obtain ⟨token, key, hkey, hstate⟩ := hstarted.state
  simp only at hstate hfiles
  subst hstate
  have hfirst : Represents crypto ValidKey ⟨restarted none token key, []⟩ {} middle :=
    ⟨hstarted.working, hkey, Service.wellFormed_empty, rfl, rfl, rfl, rfl, rfl,
      ⟨fun hset ↦ absurd hset (by simp [restarted]), fun _ ↦ hfiles.trans hfile⟩,
      Or.inl ⟨rfl, rfl⟩⟩
  refine (ensures_converse hlaws henabled hcapacity requests hrequests hfirst).mono ?_
    fun _ hfalse ↦ hfalse
  rintro result final ⟨session, hresult, -⟩
  exact ⟨session, hresult⟩

theorem conversationLaws_agreementExample :
    ConversationLaws agreementExample fun key ↦ key.length = privateKeyLen where
  toExchangeLaws := exchangeLaws_agreementExample
  open_seal _ _ := rfl
  length_seal _ _ := rfl
  agreed ours theirs pinProtocol _ _ := by
    have hkeys : ∀ secret, ∃ keys, sessionKeys agreementExample pinProtocol secret = some keys := by
      intro secret
      unfold sessionKeys
      split_ifs <;> exact ⟨_, rfl⟩
    exact hkeys _
  length_public key hkey := ⟨hkey, hkey⟩

def clientExample : Client where
  pinProtocol := 2
  privateKey := List.replicate 32 7
  iv := List.replicate 16 9
  clientDataHash := List.replicate 32 5

/-- A client sets the PIN "1234", guesses wrong once, gets a token for an RP and uses it twice, and
then gets one for an empty RP ID, which is bound to the first RP that it is used for. -/
@[irreducible]
def requestsExample : List (Client × ServiceRequest Bytes Bytes) :=
  [.setPin [0x31, 0x32, 0x33, 0x34],
    .getPinToken [0x31, 0x32, 0x33, 0x35] none (.answered true .approved) 100,
    .getRetries,
    .getPinToken [0x31, 0x32, 0x33, 0x34] (some (permissionGa, [0x61]))
      (.answered true .approved) 100,
    .wait 20000,
    .useToken permissionGa [0x61],
    .useToken permissionGa [0x61],
    .getPinToken [0x31, 0x32, 0x33, 0x34] (some (permissionGa, [])) (.answered true .approved) 100,
    .useToken permissionGa [],
    .useToken permissionGa [0x61]].map fun request ↦ (clientExample, request)

theorem authenticator_is_pin_service_1234 :
    Ensures (firstConversation agreementExample ⟨true, false, true⟩ 1024 requestsExample)
      (fun result _ ↦ ∃ session, result = some ((Service.run
        (servicePolicy agreementExample ⟨true, false, true⟩) {} (requestsExample.map Prod.snd)).1,
        session))
      (fun _ ↦ False) (World.blank PinEvent) ∧
    (Service.run (servicePolicy agreementExample ⟨true, false, true⟩) {}
      (requestsExample.map Prod.snd)).1 =
        [⟨.success, 0, false⟩, ⟨.pinInvalid, 0, false⟩, ⟨.success, 7, false⟩, ⟨.success, 0, false⟩,
          ⟨.success, 0, false⟩, ⟨.success, 0, true⟩, ⟨.pinAuthInvalid, 0, false⟩,
          ⟨.success, 0, false⟩, ⟨.pinAuthInvalid, 0, false⟩, ⟨.success, 0, true⟩] := by
  have hready : clientExample.Ready ⟨true, false, true⟩ fun key ↦ key.length = privateKeyLen :=
    ⟨Or.inr rfl, fun _ ↦ rfl, rfl, rfl⟩
  have hasked : ∀ request ∈ requestsExample,
      request.1.Ready ⟨true, false, true⟩ (fun key ↦ key.length = privateKeyLen) ∧
        Askable request.2 := by
    intro request hrequest
    unfold requestsExample at hrequest
    simp only [List.map_cons, List.map_nil, List.mem_cons, List.not_mem_nil, or_false] at hrequest
    have hpin : Sendable [0x31, 0x32, 0x33, 0x34] := ⟨by decide, by decide⟩
    rcases hrequest with rfl | rfl | rfl | rfl | rfl | rfl | rfl | rfl | rfl | rfl
    · exact ⟨hready, hpin⟩
    · exact ⟨hready, fun _ _ hnone ↦ absurd hnone (by simp)⟩
    · exact ⟨hready, trivial⟩
    · refine ⟨hready, fun permissions rpId hsome ↦ ?_⟩
      obtain ⟨rfl, rfl⟩ := Prod.mk.inj (Option.some.inj hsome)
      exact ⟨by decide, by decide +kernel, by decide⟩
    · exact ⟨hready, trivial⟩
    · exact ⟨hready, Or.inr rfl⟩
    · exact ⟨hready, Or.inr rfl⟩
    · refine ⟨hready, fun permissions rpId hsome ↦ ?_⟩
      obtain ⟨rfl, rfl⟩ := Prod.mk.inj (Option.some.inj hsome)
      exact ⟨by decide, by decide +kernel, by decide⟩
    · exact ⟨hready, Or.inr rfl⟩
    · exact ⟨hready, Or.inr rfl⟩
  refine ⟨authenticator_is_pin_service agreementExample ⟨true, false, true⟩
    (fun key ↦ key.length = privateKeyLen) conversationLaws_agreementExample rfl 1024 (by decide)
    requestsExample hasked (World.blank PinEvent) ⟨rfl, rfl, rfl, rfl, fun _ ↦ by simp⟩ rfl, ?_⟩
  unfold requestsExample
  decide +kernel

end Run

end ZeroFido.Pin
