import ZeroFido.Ctap.HmacSecret
import ZeroFido.Pin.Messages
import ZeroFido.Pin.Service
import ZeroFido.Pin.WorkingDevice

/-!
# Clients talk to the authenticator

What a client does to make use of a PIN: it asks for the authenticator's key, agrees on session keys
with it, encrypts and authenticates what it has to say, writes the request and reads the response.
The keys are the ones that the authenticator derives too (`ensures_agree`), so it decrypts and
accepts what the client has sent (`encrypt_some`, `authenticate_some`).
-/

set_option autoImplicit false
set_option relaxedAutoImplicit false

namespace ZeroFido.Pin

open Foundations Storage Store Cbor Ctap

section Clients

/-- What a client brings: the protocol it speaks, its private key, an initialisation vector and the
client data that a token is used for. -/
structure Client where
  pinProtocol : ℕ
  privateKey : Bytes
  iv : Bytes
  clientDataHash : Bytes
  deriving DecidableEq, Repr

/-- The PIN and the zero bytes that fill the block behind it. -/
def paddedPin (pin : Bytes) : Bytes :=
  pin ++ List.replicate (pinNewPinBlockMaxLen - pin.length) 0

namespace Client

variable (crypto : Crypto) (client : Client)

/-- A message to the authenticator. -/
def message (subcommand : ℕ) (fields : List RequestField) : Bytes :=
  requestBytes (.pinProtocol client.pinProtocol :: .subcommand subcommand :: fields)

/-- The client's public key. -/
def keyField : RequestField :=
  .keyAgreement (crypto.p256PublicKey client.privateKey).1
    (crypto.p256PublicKey client.privateKey).2

def encrypt (keys : ProtocolKeys) (plaintext : Bytes) : Option Bytes :=
  platformEncrypt crypto client.pinProtocol keys client.iv plaintext

def authenticate (keys : ProtocolKeys) (data : Bytes) : Option Bytes :=
  platformAuthenticate crypto client.pinProtocol keys data

def setPinMessage (pin : Bytes) (keys : ProtocolKeys) : Option Bytes := do
  let newPinEnc ← client.encrypt crypto keys (paddedPin pin)
  let pinAuth ← client.authenticate crypto keys newPinEnc
  some (client.message subcmdSetPin
    [client.keyField crypto, .pinAuth pinAuth, .newPinEnc newPinEnc])

def changePinMessage (current next : Bytes) (keys : ProtocolKeys) : Option Bytes := do
  let newPinEnc ← client.encrypt crypto keys (paddedPin next)
  let pinHashEnc ← client.encrypt crypto keys ((crypto.sha256 current).take pinHashLen)
  let pinAuth ← client.authenticate crypto keys (newPinEnc ++ pinHashEnc)
  some (client.message subcmdChangePin
    [client.keyField crypto, .pinAuth pinAuth, .newPinEnc newPinEnc, .pinHashEnc pinHashEnc])

/-- A request for a token, with permissions and an RP ID or without. -/
def pinTokenMessage (pin : Bytes) (scope : Option (UInt64 × Bytes)) (keys : ProtocolKeys) :
    Option Bytes := do
  let pinHashEnc ← client.encrypt crypto keys ((crypto.sha256 pin).take pinHashLen)
  match scope with
  | none => some (client.message subcmdGetPinToken [client.keyField crypto, .pinHashEnc pinHashEnc])
  | some (permissions, rpId) =>
    some (client.message subcmdGetPinUvAuthTokenUsingPinWithPermissions
      [client.keyField crypto, .pinHashEnc pinHashEnc, .permissions permissions, .rpId rpId])

end Client

/-- What a client reads from the response to getRetries. -/
def readRetries (response : Bytes) : Option ℕ := do
  let (pairs, cursor) ← readMapStart response
  let (key, cursor) ← readUint cursor
  let (retries, cursor) ← readUint cursor
  if pairs = 1 ∧ key = 3 ∧ cursor = [] then some retries else none

theorem readRetries_responseRetries {state : ClientPinState} {outCapacity : ℕ}
    (hretries : state.pinRetries ≤ pinRetriesMax) (hcapacity : 3 ≤ outCapacity) :
    ∃ response, responseRetries state outCapacity = some response ∧
      readRetries response = some state.pinRetries := by
  have hpositive : ¬outCapacity = 0 := by omega
  have hsmall : state.pinRetries < 24 := lt_of_le_of_lt hretries (by decide)
  have hroom : ([] ++ (headBytes majorMap 1 ++ (headBytes majorUint 3 ++
      headBytes majorUint state.pinRetries))).length ≤ outCapacity := by
    simp only [List.nil_append, List.length_append, length_headBytes, headRoom, if_pos hsmall]
    exact hcapacity
  refine ⟨headBytes majorMap 1 ++ (headBytes majorUint 3 ++ headBytes majorUint state.pinRetries),
    ?_, ?_⟩
  · rw [responseRetries, responseSingleUint, encoderInit, if_neg hpositive]
    simp only [Option.bind_eq_bind, Option.bind_some, Encoder.map, Encoder.uint, Encoder.head,
      append_bind]
    rw [@Encoder.append_eq_some ⟨outCapacity, []⟩ _ hroom]
    rfl
  · have hlast := @readUint_headBytes state.pinRetries [] (lt_trans hsmall (by decide))
    rw [List.append_nil] at hlast
    rw [readRetries, readMapStart_headBytes _ (by decide)]
    simp only [Option.bind_eq_bind, Option.bind_some]
    rw [readUint_headBytes _ (by decide)]
    simp [hlast]

end Clients

section Exchanges

/-- The authenticator's state and the token that a client has read last. -/
structure Session where
  state : ClientPinState
  token : Bytes
  deriving DecidableEq, Repr

variable (crypto : Crypto) (capabilities : Capabilities) (outCapacity : ℕ)

/-- One command, with the user's answer to it if there is a prompt. -/
def send (state : ClientPinState) (message : Bytes) (consent : ConsentOutcome) (delay : ℕ) :
    Program Device CommandResult :=
  pinHandleCommand crypto state capabilities message consent (waitFor delay) outCapacity

/-- getKeyAgreement, and the keys that the client derives from the answer. -/
def agree (client : Client) (state : ClientPinState) :
    Program Device (Option ProtocolKeys × ClientPinState) := do
  let result ← send crypto capabilities outCapacity state (client.message subcmdGetKeyAgreement [])
    .unavailable 0
  let keys := (readKeyAgreement result.response).bind fun (publicX, publicY) ↦
    platformKeys crypto client.pinProtocol client.privateKey { publicX, publicY }
  return (keys, result.state)

/-- A command whose message needs keys, and the keys. -/
def sendAgreed (client : Client) (state : ClientPinState) (message : ProtocolKeys → Option Bytes)
    (consent : ConsentOutcome) (delay : ℕ) :
    Program Device (Option (ProtocolKeys × CommandResult)) := do
  let (keys, state) ← agree crypto capabilities outCapacity client state
  match keys with
  | none => return none
  | some keys =>
    match message keys with
    | none => return none
    | some message =>
      let result ← send crypto capabilities outCapacity state message consent delay
      return some (keys, result)

/-- The token in a response, if there is one; else the client keeps what it has. -/
def receiveToken (client : Client) (session : Session) (keys : ProtocolKeys)
    (result : CommandResult) : Option (ServiceAnswer × Session) :=
  if result.status = .success then
    ((readEncryptedToken result.response).bind
      (platformDecrypt crypto client.pinProtocol keys)).map fun token ↦
        ({ status := result.status }, ⟨result.state, token⟩)
  else
    some ({ status := result.status }, ⟨result.state, session.token⟩)

/-- A use of the token by makeCredential or getAssertion. -/
def useToken (client : Client) (session : Session) (required : UInt64) (rpId : Bytes) :
    Program Device (Option (ServiceAnswer × Session)) := do
  match client.authenticate crypto ⟨session.token, []⟩ client.clientDataHash with
  | none => return none
  | some pinAuth =>
    let ((status, verified), state) ← pinRequireAuth crypto session.state
      { uvRequested := false, hasPinAuth := true, clientDataHash := client.clientDataHash, pinAuth,
        hasPinProtocol := true, pinProtocol := client.pinProtocol, rpId := some rpId,
        requiredPermissions := required }
    return some ({ status, verified }, { session with state })

/-- What a request comes to. There is no result when the client cannot go on. -/
def exchange (client : Client) (session : Session) :
    ServiceRequest Bytes Bytes → Program Device (Option (ServiceAnswer × Session))
  | .getRetries => do
    let result ← send crypto capabilities outCapacity session.state
      (client.message subcmdGetRetries []) .unavailable 0
    return (readRetries result.response).map fun retries ↦
      ({ status := result.status, retries }, { session with state := result.state })
  | .setPin pin => do
    let sent ← sendAgreed crypto capabilities outCapacity client session.state
      (client.setPinMessage crypto pin) .unavailable 0
    return sent.map fun (_, result) ↦
      ({ status := result.status }, { session with state := result.state })
  | .changePin current next => do
    let sent ← sendAgreed crypto capabilities outCapacity client session.state
      (client.changePinMessage crypto current next) .unavailable 0
    return sent.map fun (_, result) ↦
      ({ status := result.status }, { session with state := result.state })
  | .getPinToken pin scope consent delay => do
    let sent ← sendAgreed crypto capabilities outCapacity client session.state
      (client.pinTokenMessage crypto pin scope) consent delay
    return sent.bind fun (keys, result) ↦ receiveToken crypto client session keys result
  | .useToken required rpId => useToken crypto client session required rpId
  | .wait delay => do
    let state ← waitFor delay session.state
    return some ({ status := .success }, { session with state })
  | .powerCycle => do
    let (result, state) ← pinInitWithResult crypto
    return some ({ status := if result = .ok then .success else .other }, { session with state })
  | .reset => do
    let (done, state) ← pinClear crypto session.state
    return some ({ status := if done then .success else .other }, { session with state })

/-- A sequence of requests, each by its client. -/
def converse (session : Session) :
    List (Client × ServiceRequest Bytes Bytes) →
      Program Device (Option (List ServiceAnswer × Session))
  | [] => return some ([], session)
  | (client, request) :: requests => do
    match ← exchange crypto capabilities outCapacity client session request with
    | none => return none
    | some (answer, session) =>
      let rest ← converse session requests
      return rest.map fun (answers, session) ↦ (answer :: answers, session)

end Exchanges

section Messages

variable {crypto : Crypto} {capabilities : Capabilities} {ValidKey : Bytes → Prop}
  {client : Client} {fields : List RequestField}

/-- A client that the authenticator can talk to. -/
structure Client.Ready (capabilities : Capabilities) (ValidKey : Bytes → Prop) (client : Client) :
    Prop where
  protocol : client.pinProtocol = pinProtocolV1 ∨ client.pinProtocol = pinProtocolV2
  enabled : client.pinProtocol = pinProtocolV2 → capabilities.pinUvAuthProtocol2Enabled = true
  valid : ValidKey client.privateKey
  ivLen : client.iv.length = 16

/-- The request with only the protocol and the subcommand in it. -/
def Client.header (client : Client) (subcommand : ℕ) : ClientPinRequest :=
  { pinProtocol := client.pinProtocol, hasPinProtocol := true, subcommand, hasSubcommand := true }

/-- The protocol and the subcommand of a request that the client has written. -/
structure Client.Headed (client : Client) (subcommand : ℕ) (request : ClientPinRequest) :
    Prop where
  pinProtocol : request.pinProtocol = client.pinProtocol
  hasPinProtocol : request.hasPinProtocol = true
  subcommand : request.subcommand = subcommand
  hasSubcommand : request.hasSubcommand = true

/-- The other fields leave the protocol and the subcommand alone. -/
theorem headed_foldl {subcommand : ℕ} (hkeys : ∀ field ∈ fields, 2 < field.key)
    {request : ClientPinRequest} (h : client.Headed subcommand request) :
    client.Headed subcommand (fields.foldl RequestField.store request) := by
  induction fields generalizing request with
  | nil => exact h
  | cons field fields ih =>
    have hkey : 2 < field.key := hkeys field List.mem_cons_self
    refine ih (fun other hother ↦ hkeys other (List.mem_cons_of_mem field hother)) ?_
    cases field with
    | pinProtocol value => exact absurd hkey (by simp [RequestField.key])
    | subcommand value => exact absurd hkey (by simp [RequestField.key])
    | keyAgreement x y => exact ⟨h.pinProtocol, h.hasPinProtocol, h.subcommand, h.hasSubcommand⟩
    | pinAuth data => exact ⟨h.pinProtocol, h.hasPinProtocol, h.subcommand, h.hasSubcommand⟩
    | newPinEnc data => exact ⟨h.pinProtocol, h.hasPinProtocol, h.subcommand, h.hasSubcommand⟩
    | pinHashEnc data => exact ⟨h.pinProtocol, h.hasPinProtocol, h.subcommand, h.hasSubcommand⟩
    | permissions value => exact ⟨h.pinProtocol, h.hasPinProtocol, h.subcommand, h.hasSubcommand⟩
    | rpId text => exact ⟨h.pinProtocol, h.hasPinProtocol, h.subcommand, h.hasSubcommand⟩

/-- The parser gets what the client has written. -/
theorem clientPinParseRequest_message (hready : client.Ready capabilities ValidKey)
    {subcommand : ℕ} (hsubcommand : subcommand < 2 ^ 64) (hfits : ∀ field ∈ fields, field.Fits)
    (hkeys : ∀ field ∈ fields, 2 < field.key) (hdistinct : (fields.map RequestField.key).Nodup)
    (hcount : fields.length ≤ 8) :
    clientPinParseRequest (client.message subcommand fields) =
        .ok (fields.foldl RequestField.store (client.header subcommand)) ∧
      client.Headed subcommand (fields.foldl RequestField.store (client.header subcommand)) := by
  have hheaded : client.Headed subcommand
      (fields.foldl RequestField.store (client.header subcommand)) :=
    headed_foldl hkeys ⟨rfl, rfl, rfl, rfl⟩
  have hother : ∀ key ∈ fields.map RequestField.key, 2 < key := by
    intro key hkey
    obtain ⟨field, hfield, rfl⟩ := List.mem_map.mp hkey
    exact hkeys field hfield
  refine ⟨clientPinParseRequest_requestBytes ?_ ?_ ?_ ⟨hheaded.hasSubcommand, fun _ ↦ ?_, fun _ ↦
    hheaded.hasPinProtocol⟩, hheaded⟩
  · have hprotocol : client.pinProtocol < 2 ^ 64 := by
      obtain hone | htwo := hready.protocol
      · rw [hone]
        decide
      · rw [htwo]
        decide
    intro field hfield
    rcases List.mem_cons.mp hfield with rfl | hfield
    · exact hprotocol
    · rcases List.mem_cons.mp hfield with rfl | hfield
      · exact hsubcommand
      · exact hfits field hfield
  · have hone : 1 ∉ fields.map RequestField.key := fun hmem ↦ absurd (hother 1 hmem) (by decide)
    have htwo : 2 ∉ fields.map RequestField.key := fun hmem ↦ absurd (hother 2 hmem) (by decide)
    simp [RequestField.key] at hone htwo ⊢
    exact ⟨hone, htwo, hdistinct⟩
  · have hmax : 10 ≤ sizeMax := by decide
    simp only [List.length_cons]
    omega
  · have hsame : requestOf (.pinProtocol client.pinProtocol :: .subcommand subcommand :: fields) =
        fields.foldl RequestField.store (client.header subcommand) := rfl
    rw [hsame, hheaded.pinProtocol]
    exact hready.protocol

/-- The guard of the command on the second protocol lets a ready client pass. -/
theorem protocol_enabled (hready : client.Ready capabilities ValidKey) {subcommand : ℕ}
    {request : ClientPinRequest} (h : client.Headed subcommand request) :
    ¬(request.hasPinProtocol && request.pinProtocol == pinProtocolV2 &&
      !capabilities.pinUvAuthProtocol2Enabled) = true := by
  rw [h.hasPinProtocol, h.pinProtocol]
  by_cases htwo : client.pinProtocol = pinProtocolV2
  · rw [hready.enabled htwo]
    simp
  · simp [htwo]

end Messages

section Agreement

variable {crypto : Crypto} {capabilities : Capabilities} {outCapacity : ℕ}
  {ValidKey : Bytes → Prop} {client : Client} {state : ClientPinState} {world : Device}
  {keys : ProtocolKeys}

/-- What is relied on of the primitives, beside the laws of the exchange and of the enclave: valid
keys agree on session keys, and public keys have their size. -/
structure ConversationLaws (crypto : Crypto) (ValidKey : Bytes → Prop) : Prop
    extends ExchangeLaws crypto ValidKey, SealLaws crypto where
  agreed : ∀ ours theirs pinProtocol, ValidKey ours → ValidKey theirs →
    ∃ keys, (crypto.p256EcdhRawSecret ours (crypto.p256PublicKey theirs).1
      (crypto.p256PublicKey theirs).2).bind (sessionKeys crypto pinProtocol) = some keys
  length_public : ∀ key, ValidKey key → (crypto.p256PublicKey key).1.length = publicKeyLen ∧
    (crypto.p256PublicKey key).2.length = publicKeyLen

/-- The keys are the ones that the authenticator derives too. -/
structure Agreed (crypto : Crypto) (state : ClientPinState) (client : Client)
    (keys : ProtocolKeys) : Prop where
  derived : pinProtocolDeriveKeys crypto state client.pinProtocol
    (crypto.p256PublicKey client.privateKey).1 (crypto.p256PublicKey client.privateKey).2 =
      some keys
  aesKey : keys.aesKey.length = 32

theorem keyField_fits (hlaws : ConversationLaws crypto ValidKey)
    (hready : client.Ready capabilities ValidKey) : (client.keyField crypto).Fits :=
  hlaws.length_public client.privateKey hready.valid

/-- The client and the authenticator agree on keys. -/
theorem ensures_agree (hlaws : ConversationLaws crypto ValidKey)
    (hready : client.Ready capabilities ValidKey)
    (hkey : KeyPair crypto ValidKey state.keyAgreement) (hcapacity : 80 ≤ outCapacity) :
    Ensures (agree crypto capabilities outCapacity client state)
      (fun result world' ↦ world' = world ∧
        ∃ keys, result = (some keys, state) ∧ Agreed crypto state client keys)
      (fun _ ↦ False) world := by
  have hfits : ∀ field ∈ ([] : List RequestField), field.Fits := by simp
  obtain ⟨hparsed, hheaded⟩ := clientPinParseRequest_message hready
    (show subcmdGetKeyAgreement < 2 ^ 64 by decide) hfits (by simp) (by simp) (by simp)
  obtain ⟨hx, hy⟩ := hlaws.length_public _ hkey.valid
  rw [hkey.publicKey] at hx hy
  obtain ⟨response, hresponse, hread⟩ := readKeyAgreement_responseKeyAgreement hx hy hcapacity
  obtain ⟨keys, hkeys⟩ := hlaws.agreed state.keyAgreement.privateKey client.privateKey
    client.pinProtocol hkey.valid hready.valid
  have hclient : platformKeys crypto client.pinProtocol client.privateKey
      { publicX := state.keyAgreement.publicX, publicY := state.keyAgreement.publicY } =
      some keys := by
    have hsame := hlaws.ecdh_symmetric _ _ hkey.valid hready.valid
    rw [hkey.publicKey] at hsame
    rw [hsame] at hkeys
    exact hkeys
  have hderived : Agreed crypto state client keys := by
    obtain ⟨secret, -, hsession⟩ := Option.bind_eq_some_iff.mp hkeys
    refine ⟨?_, length_aesKey hlaws.toExchangeLaws hsession⟩
    rw [pinProtocolDeriveKeys_eq state _ _ hready.protocol, hkeys]
  have hretries : ¬(([] : List RequestField).foldl RequestField.store
      (client.header subcmdGetKeyAgreement)).subcommand = subcmdGetRetries := by
    rw [hheaded.subcommand]
    decide
  simp only [agree, send, pinHandleCommand, hparsed, ensures_bind, ensures_pure]
  rw [if_neg (protocol_enabled hready hheaded), if_neg hretries, if_pos hheaded.subcommand,
    hresponse]
  refine ⟨rfl, keys, ?_, hderived⟩
  simp only [hread, Option.bind_some, hclient]

/-- Whole blocks are encrypted, and the authenticator decrypts them. -/
theorem encrypt_some (hlaws : ExchangeLaws crypto ValidKey)
    (hready : client.Ready capabilities ValidKey) (hkeys : Agreed crypto state client keys)
    {plaintext : Bytes} (hne : plaintext ≠ []) (hblocks : plaintext.length % 16 = 0)
    (hsize : plaintext.length ≤ 128) :
    ∃ ciphertext, client.encrypt crypto keys plaintext = some ciphertext ∧
      pinProtocolDecrypt crypto client.pinProtocol keys ciphertext = some plaintext ∧
      ciphertext.length = plaintext.length +
        if client.pinProtocol = pinProtocolV2 then pinProtocol2IvLen else 0 := by
  have hsealed : ∃ ciphertext, client.encrypt crypto keys plaintext = some ciphertext ∧
      ciphertext.length = plaintext.length +
        if client.pinProtocol = pinProtocolV2 then pinProtocol2IvLen else 0 := by
    unfold Client.encrypt platformEncrypt
    obtain hone | htwo := hready.protocol
    · obtain ⟨sealed, hseal, hlength, -⟩ :=
        hlaws.cbc keys.aesKey (zeroBytes 16) plaintext hkeys.aesKey rfl hne hblocks hsize
      rw [if_pos hone, hone, if_neg (by decide)]
      exact ⟨sealed, hseal, hlength⟩
    · obtain ⟨sealed, hseal, hlength, -⟩ :=
        hlaws.cbc keys.aesKey client.iv plaintext hkeys.aesKey hready.ivLen hne hblocks hsize
      rw [htwo, if_neg (by decide), if_pos rfl, hseal, Option.map_some]
      refine ⟨client.iv ++ sealed, rfl, ?_⟩
      rw [List.length_append, hready.ivLen, hlength, Nat.add_comm]
      rfl
  obtain ⟨ciphertext, hencrypted, hlength⟩ := hsealed
  exact ⟨ciphertext, hencrypted, pinProtocolDecrypt_platformEncrypt hlaws hready.protocol
    hkeys.aesKey hready.ivLen hne hblocks hsize hencrypted, hlength⟩

/-- What the client authenticates, the authenticator accepts. -/
theorem authenticate_some (hlaws : ExchangeLaws crypto ValidKey)
    (hready : client.Ready capabilities ValidKey) (keys : ProtocolKeys) (first second : Bytes) :
    ∃ tag, client.authenticate crypto keys (first ++ second) = some tag ∧
      tag.length = pinUvAuthParamLen client.pinProtocol ∧
      pinProtocolHmacMatches crypto client.pinProtocol keys.hmacKey first second tag = true := by
  obtain ⟨mac, hmac, hlength⟩ := hlaws.hmac keys.hmacKey (first ++ second)
  refine ⟨if client.pinProtocol = pinProtocolV1 then mac.take 16 else mac, ?_, ?_, ?_⟩
  · rw [Client.authenticate, platformAuthenticate, hmac, Option.map_some]
  · obtain hone | htwo := hready.protocol
    · rw [if_pos hone, hone, List.length_take, hlength]
      rfl
    · rw [htwo, if_neg (by decide), hlength]
      rfl
  · have htag : client.authenticate crypto keys (first ++ second) =
        some (if client.pinProtocol = pinProtocolV1 then mac.take 16 else mac) := by
      rw [Client.authenticate, platformAuthenticate, hmac, Option.map_some]
    have hmatches := (hmacMatches_iff hlaws hready.protocol (first ++ second) _).mpr htag
    rwa [pinProtocolHmacMatches, List.append_nil] at hmatches

/-- A command that needs keys, once they are agreed. -/
theorem ensures_sendAgreed (hlaws : ConversationLaws crypto ValidKey)
    (hready : client.Ready capabilities ValidKey)
    (hkey : KeyPair crypto ValidKey state.keyAgreement) (hcapacity : 80 ≤ outCapacity)
    {message : ProtocolKeys → Option Bytes} {consent : ConsentOutcome} {delay : ℕ}
    {post : Option (ProtocolKeys × CommandResult) → Device → Prop}
    (h : ∀ keys, Agreed crypto state client keys → ∃ bytes, message keys = some bytes ∧
      Ensures (send crypto capabilities outCapacity state bytes consent delay)
        (fun result world' ↦ post (some (keys, result)) world') (fun _ ↦ False) world) :
    Ensures (sendAgreed crypto capabilities outCapacity client state message consent delay) post
      (fun _ ↦ False) world := by
  simp only [sendAgreed, ensures_bind]
  refine (ensures_agree hlaws hready hkey hcapacity).mono ?_ fun _ hfalse ↦ hfalse
  rintro ⟨agreed, after⟩ middle ⟨rfl, keys, hresult, hkeys⟩
  simp only [Prod.mk.injEq] at hresult
  obtain ⟨rfl, rfl⟩ := hresult
  obtain ⟨bytes, hbytes, hsent⟩ := h keys hkeys
  simp only [hbytes, ensures_bind, ensures_pure]
  exact hsent

end Agreement

end ZeroFido.Pin
