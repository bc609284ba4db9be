import ZeroFido.Ctap.ParseRequests
import ZeroFido.Pin.Protocol
import ZeroFido.Store.Record

/-!
# The output of the hmac-secret extension

`zf_ctap_hmac_secret_build_extension` of `ctap/extensions/hmac_secret.c`, beside what the platform
does under the same protocol: its key schedule, its encryption and its MAC. Each has its counterpart
on the device (`pinProtocolDeriveKeys_eq`, `hmacMatches_iff`, `pinProtocolDecrypt_platformEncrypt`,
`ensures_pinProtocolEncrypt_opens`), and the result about the extension is put together from these.
-/

set_option autoImplicit false
set_option relaxedAutoImplicit false

namespace ZeroFido.Ctap

open Foundations Storage Store Pin

section Device

variable (crypto : Crypto)

def hmacSecretOutputMaxLen : ℕ := 64 + pinProtocol2IvLen

/-- The HMACs of one or two salts, as `scratch->output_plain` holds them. -/
def hmacSecretOutputPlain (credRandom saltPlain : Bytes) : Option Bytes := do
  let first ← crypto.hmacSha256 credRandom (saltPlain.take 32)
  if saltPlain.length = 64 then
    let second ← crypto.hmacSha256 credRandom ((saltPlain.drop 32).take 32)
    some (first ++ second)
  else
    some first

/-- The extension map that is written around the encrypted output. -/
def hmacSecretExtension (outputEnc : Bytes) (outCapacity : ℕ) : Option Bytes := do
  let enc ← Cbor.encoderInit outCapacity
  let enc ← enc.map 1
  let enc ← enc.text "hmac-secret".toUTF8.toList
  let enc ← enc.bytes outputEnc
  some enc.written

/-- `zf_ctap_hmac_secret_build_extension`: the status and the bytes of `out` below `out_len`. -/
def hmacSecretBuildExtension (state : ClientPinState) (request : HmacSecretInput)
    (record : CredentialRecord) (userVerified : Bool) (outCapacity : ℕ) :
    Program Device (CtapStatus × Bytes) := do
  if !request.hasHmacSecret || !record.hmacSecret then
    return (.success, [])
  if !pinProtocolSupported request.pinProtocol then
    return (.invalidParameter, [])
  match pinProtocolDeriveKeys crypto state request.pinProtocol request.platformX
      request.platformY with
  | none => return (.invalidParameter, [])
  | some keys =>
    if !pinProtocolHmacMatches crypto request.pinProtocol keys.hmacKey request.saltEnc []
        request.saltAuth then
      return (.pinAuthInvalid, [])
    match pinProtocolDecrypt crypto request.pinProtocol keys request.saltEnc with
    | none => return (.invalidParameter, [])
    | some saltPlain =>
      if saltPlain.length ≠ 32 ∧ saltPlain.length ≠ 64 then
        return (.invalidParameter, [])
      let credRandom := if userVerified then record.hmacSecretWithUv else record.hmacSecretWithoutUv
      match hmacSecretOutputPlain crypto credRandom saltPlain with
      | none => return (.other, [])
      | some outputPlain =>
        match ← pinProtocolEncrypt crypto request.pinProtocol keys outputPlain
            hmacSecretOutputMaxLen with
        | none => return (.other, [])
        | some outputEnc =>
          match hmacSecretExtension outputEnc outCapacity with
          | none => return (.other, [])
          | some out => return (.success, out)

end Device

section Platform

variable (crypto : Crypto)

/-- The keys of a protocol from the shared point: both are its hash, or each is expanded from it. -/
def sessionKeys (pinProtocol : ℕ) (secret : Bytes) : Option ProtocolKeys :=
  if pinProtocol = pinProtocolV1 then
    some { hmacKey := crypto.sha256 secret, aesKey := crypto.sha256 secret }
  else do
    let hmacKey ← crypto.hkdfSha256 (zeroBytes 32) secret "CTAP2 HMAC key".toUTF8.toList
    let aesKey ← crypto.hkdfSha256 (zeroBytes 32) secret "CTAP2 AES key".toUTF8.toList
    some { hmacKey, aesKey }

/-- The platform's keys, from its private key and the authenticator's public one. -/
def platformKeys (pinProtocol : ℕ) (platformKey : Bytes) (authenticator : KeyAgreementKey) :
    Option ProtocolKeys :=
  (crypto.p256EcdhRawSecret platformKey authenticator.publicX authenticator.publicY).bind
    (sessionKeys crypto pinProtocol)

/-- What the platform sends for a plaintext. Only the second protocol sends the initialisation
vector. -/
def platformEncrypt (pinProtocol : ℕ) (keys : ProtocolKeys) (iv plaintext : Bytes) : Option Bytes :=
  if pinProtocol = pinProtocolV1 then crypto.aes256CbcEncrypt keys.aesKey (zeroBytes 16) plaintext
  else (crypto.aes256CbcEncrypt keys.aesKey iv plaintext).map (iv ++ ·)

/-- What the platform reads from a ciphertext. -/
def platformDecrypt (pinProtocol : ℕ) (keys : ProtocolKeys) (ciphertext : Bytes) : Option Bytes :=
  if pinProtocol = pinProtocolV1 then crypto.aes256CbcDecrypt keys.aesKey (zeroBytes 16) ciphertext
  else crypto.aes256CbcDecrypt keys.aesKey (ciphertext.take 16) (ciphertext.drop 16)

/-- The protocol's MAC of a message: the first half of the HMAC, or all of it. -/
def platformAuthenticate (pinProtocol : ℕ) (keys : ProtocolKeys) (message : Bytes) : Option Bytes :=
  (crypto.hmacSha256 keys.hmacKey message).map fun mac ↦
    if pinProtocol = pinProtocolV1 then mac.take 16 else mac

/-- The byte string in an extension map that holds nothing but the hmac-secret output. -/
def extensionOutput (extension : Bytes) : Option Bytes := do
  let (pairs, cursor) ← Cbor.readMapStart extension
  let (name, cursor) ← Cbor.readText cursor
  let (output, cursor) ← Cbor.readBytes cursor
  if pairs = 1 ∧ name = "hmac-secret".toUTF8.toList ∧ cursor = [] then some output else none

/-- A request as a platform makes it for salts, with the keys it has agreed. -/
structure SentBy (platformKey : Bytes) (authenticator : KeyAgreementKey) (keys : ProtocolKeys)
    (iv salts : Bytes) (request : HmacSecretInput) : Prop where
  requested : request.hasHmacSecret = true
  protocol : request.pinProtocol = pinProtocolV1 ∨ request.pinProtocol = pinProtocolV2
  publicKey : (request.platformX, request.platformY) = crypto.p256PublicKey platformKey
  agreed : platformKeys crypto request.pinProtocol platformKey authenticator = some keys
  ivLen : iv.length = 16
  encrypted : platformEncrypt crypto request.pinProtocol keys iv salts = some request.saltEnc
  authenticated : platformAuthenticate crypto request.pinProtocol keys request.saltEnc =
    some request.saltAuth

/-- What is relied on of the primitives: key agreement is symmetric on valid keys, the digests and
the expanded keys have 32 bytes, and CBC decryption undoes encryption of whole blocks. -/
structure ExchangeLaws (ValidKey : Bytes → Prop) : Prop where
  ecdh_symmetric : ∀ ours theirs, ValidKey ours → ValidKey theirs →
    crypto.p256EcdhRawSecret ours (crypto.p256PublicKey theirs).1 (crypto.p256PublicKey theirs).2 =
      crypto.p256EcdhRawSecret theirs (crypto.p256PublicKey ours).1 (crypto.p256PublicKey ours).2
  length_sha256 : ∀ data, (crypto.sha256 data).length = 32
  hmac : ∀ key data, ∃ mac, crypto.hmacSha256 key data = some mac ∧ mac.length = 32
  length_hkdf : ∀ salt secret info key, crypto.hkdfSha256 salt secret info = some key →
    key.length = 32
  cbc : ∀ key iv plaintext, key.length = 32 → iv.length = 16 → plaintext ≠ [] →
    plaintext.length % 16 = 0 → plaintext.length ≤ 128 →
      ∃ ciphertext, crypto.aes256CbcEncrypt key iv plaintext = some ciphertext ∧
        ciphertext.length = plaintext.length ∧
        crypto.aes256CbcDecrypt key iv ciphertext = some plaintext

end Platform

section Protocol

variable {crypto : Crypto} {ValidKey : Bytes → Prop} {pinProtocol : ℕ} {keys : ProtocolKeys}

/-- The device's key schedule is the platform's, from its own key. -/
theorem pinProtocolDeriveKeys_eq (state : ClientPinState) (platformX platformY : Bytes)
    (hprotocol : pinProtocol = pinProtocolV1 ∨ pinProtocol = pinProtocolV2) :
    pinProtocolDeriveKeys crypto state pinProtocol platformX platformY =
      (crypto.p256EcdhRawSecret state.keyAgreement.privateKey platformX platformY).bind
        (sessionKeys crypto pinProtocol) := by
  unfold pinProtocolDeriveKeys sessionKeys
  obtain rfl | rfl := hprotocol
  · simp only [if_true, Crypto.ecdhSharedSecret, Option.map_map]
    cases crypto.p256EcdhRawSecret state.keyAgreement.privateKey platformX platformY <;> rfl
  · rw [if_neg (by decide), if_neg (by decide)]
    cases crypto.p256EcdhRawSecret state.keyAgreement.privateKey platformX platformY with
    | none => rfl
    | some secret =>
      rw [Option.bind_some, if_neg (by decide)]
      rfl

theorem length_aesKey (hlaws : ExchangeLaws crypto ValidKey) {secret : Bytes}
    (hkeys : sessionKeys crypto pinProtocol secret = some keys) : keys.aesKey.length = 32 := by
  unfold sessionKeys at hkeys
  by_cases hone : pinProtocol = pinProtocolV1
  · rw [if_pos hone] at hkeys
    rw [← Option.some.inj hkeys]
    exact hlaws.length_sha256 secret
  · rw [if_neg hone] at hkeys
    obtain ⟨hmacKey, -, hkeys⟩ := Option.bind_eq_some_iff.mp hkeys
    obtain ⟨aesKey, haes, hkeys⟩ := Option.bind_eq_some_iff.mp hkeys
    rw [← Option.some.inj hkeys]
    exact hlaws.length_hkdf _ _ _ _ haes

/-- The device accepts exactly the protocol's MAC. -/
theorem hmacMatches_iff (hlaws : ExchangeLaws crypto ValidKey)
    (hprotocol : pinProtocol = pinProtocolV1 ∨ pinProtocol = pinProtocolV2) (message tag : Bytes) :
    pinProtocolHmacMatches crypto pinProtocol keys.hmacKey message [] tag = true ↔
      platformAuthenticate crypto pinProtocol keys message = some tag := by
  obtain ⟨mac, hmac, hlength⟩ := hlaws.hmac keys.hmacKey message
  have hcut : (if pinProtocol = pinProtocolV1 then mac.take 16 else mac) =
      mac.take (pinUvAuthParamLen pinProtocol) := by
    obtain rfl | rfl := hprotocol
    · rfl
    · rw [if_neg (by decide)]
      exact (List.take_of_length_le (Nat.le_of_eq hlength)).symm
  have hsize : (mac.take (pinUvAuthParamLen pinProtocol)).length =
      pinUvAuthParamLen pinProtocol := by
    rw [List.length_take, hlength]
    obtain rfl | rfl := hprotocol <;> rfl
  rw [pinProtocolHmacMatches, List.append_nil, hmac, platformAuthenticate, hmac, Option.map_some,
    hcut, Option.some.injEq]
  simp only [Bool.and_eq_true, beq_iff_eq, constantTimeEqual]
  constructor
  · rintro ⟨htag, hequal⟩
    rw [hequal, List.take_of_length_le (Nat.le_of_eq htag)]
  · rintro rfl
    rw [List.take_take, Nat.min_self]
    exact ⟨hsize, rfl⟩

/-- Whole blocks that the platform encrypts, the device decrypts. -/
theorem pinProtocolDecrypt_platformEncrypt (hlaws : ExchangeLaws crypto ValidKey)
    (hprotocol : pinProtocol = pinProtocolV1 ∨ pinProtocol = pinProtocolV2)
    (hkey : keys.aesKey.length = 32) {iv plaintext ciphertext : Bytes} (hiv : iv.length = 16)
    (hne : plaintext ≠ []) (hblocks : plaintext.length % 16 = 0) (hsize : plaintext.length ≤ 128)
    (hencrypted : platformEncrypt crypto pinProtocol keys iv plaintext = some ciphertext) :
    pinProtocolDecrypt crypto pinProtocol keys ciphertext = some plaintext := by
  obtain rfl | rfl := hprotocol
  · obtain ⟨sealed, hseal, -, hopen⟩ :=
      hlaws.cbc keys.aesKey (zeroBytes 16) plaintext hkey rfl hne hblocks hsize
    rw [platformEncrypt, if_pos rfl, hseal, Option.some.injEq] at hencrypted
    rw [pinProtocolDecrypt, if_pos rfl, ← hencrypted, hopen]
  · obtain ⟨sealed, hseal, hlength, hopen⟩ :=
      hlaws.cbc keys.aesKey iv plaintext hkey hiv hne hblocks hsize
    rw [platformEncrypt, if_neg (by decide), hseal, Option.map_some,
      Option.some.injEq] at hencrypted
    have hpos : 0 < plaintext.length := List.length_pos_iff.mpr hne
    have hivLen : iv.length = pinProtocol2IvLen := hiv
    have hfull : ¬(pinProtocolV2 ≠ pinProtocolV2 ∨ ciphertext.length ≤ pinProtocol2IvLen ∨
        (ciphertext.length - pinProtocol2IvLen) % 16 ≠ 0) := by
      rw [← hencrypted, List.length_append, hiv, hlength]
      simp only [pinProtocol2IvLen]
      omega
    rw [pinProtocolDecrypt, if_neg (by decide), if_neg hfull, ← hencrypted,
      List.take_left' hivLen, List.drop_left' hivLen, hopen]

/-- What the device decrypts, the platform would read too. -/
theorem platformDecrypt_of_pinProtocolDecrypt {ciphertext plaintext : Bytes}
    (h : pinProtocolDecrypt crypto pinProtocol keys ciphertext = some plaintext) :
    platformDecrypt crypto pinProtocol keys ciphertext = some plaintext := by
  unfold pinProtocolDecrypt at h
  unfold platformDecrypt
  by_cases hone : pinProtocol = pinProtocolV1
  · rwa [if_pos hone] at h ⊢
  · rw [if_neg hone] at h ⊢
    split_ifs at h
    exact h

/-- Whole blocks that the device encrypts, the platform reads. -/
theorem ensures_pinProtocolEncrypt_readable (hlaws : ExchangeLaws crypto ValidKey)
    (hprotocol : pinProtocol = pinProtocolV1 ∨ pinProtocol = pinProtocolV2)
    (hkey : keys.aesKey.length = 32) {plaintext : Bytes} {outCapacity : ℕ} (hne : plaintext ≠ [])
    (hblocks : plaintext.length % 16 = 0) (hsize : plaintext.length ≤ 128)
    (hroom : pinProtocol2IvLen + plaintext.length ≤ outCapacity) (world : Device) :
    Ensures (pinProtocolEncrypt crypto pinProtocol keys plaintext outCapacity)
      (fun result world' ↦ Idle world world' ∧ ∃ sealed, result = some sealed ∧
        plaintext.length ≤ sealed.length ∧ sealed.length ≤ pinProtocol2IvLen + plaintext.length ∧
        platformDecrypt crypto pinProtocol keys sealed = some plaintext)
      (fun _ ↦ False) world := by
  have hpos : 0 < plaintext.length := List.length_pos_iff.mpr hne
  have hempty : ¬(plaintext.length = 0 ∨ plaintext.length % 16 ≠ 0) := by omega
  rw [pinProtocolEncrypt, if_neg hempty]
  obtain rfl | rfl := hprotocol
  · obtain ⟨sealed, hseal, hlength, hopen⟩ :=
      hlaws.cbc keys.aesKey (zeroBytes 16) plaintext hkey rfl hne hblocks hsize
    have hfits : ¬outCapacity < plaintext.length := by omega
    rw [if_pos rfl, if_neg hfits, hseal]
    refine ⟨Idle.refl world, sealed, rfl, by omega, by omega, ?_⟩
    rw [platformDecrypt, if_pos rfl, hopen]
  · have hfits : ¬(pinProtocolV2 ≠ pinProtocolV2 ∨
        outCapacity < pinProtocol2IvLen + plaintext.length) := by omega
    rw [if_neg (by decide), if_neg hfits, ensures_bind]
    refine ensures_randomFill fun iv middle hidle hivLen ↦ ?_
    have hiv : iv.length = 16 := hivLen
    obtain ⟨sealed, hseal, hlength, hopen⟩ :=
      hlaws.cbc keys.aesKey iv plaintext hkey hiv hne hblocks hsize
    have hlong : (iv ++ sealed).length = pinProtocol2IvLen + plaintext.length := by
      rw [List.length_append, hivLen, hlength]
    rw [hseal]
    refine ⟨hidle, iv ++ sealed, rfl, by omega, by omega, ?_⟩
    rw [platformDecrypt, if_neg (by decide), List.take_left' hiv, List.drop_left' hiv, hopen]

/-- The device encrypts one or two digests so that the platform reads them. -/
theorem ensures_pinProtocolEncrypt_opens (hlaws : ExchangeLaws crypto ValidKey)
    (hprotocol : pinProtocol = pinProtocolV1 ∨ pinProtocol = pinProtocolV2)
    (hkey : keys.aesKey.length = 32) {plaintext : Bytes}
    (hsize : plaintext.length = 32 ∨ plaintext.length = 64) (world : Device) :
    Ensures (pinProtocolEncrypt crypto pinProtocol keys plaintext hmacSecretOutputMaxLen)
      (fun result _ ↦ ∃ sealed, result = some sealed ∧ sealed.length ≤ hmacSecretOutputMaxLen ∧
        platformDecrypt crypto pinProtocol keys sealed = some plaintext)
      (fun _ ↦ False) world := by
  have hne : plaintext ≠ [] := by
    rintro rfl
    simp at hsize
  have hroom : pinProtocol2IvLen + plaintext.length ≤ hmacSecretOutputMaxLen := by
    simp only [hmacSecretOutputMaxLen]
    omega
  refine (ensures_pinProtocolEncrypt_readable hlaws hprotocol hkey hne (by omega) (by omega) hroom
    world).mono ?_ fun _ hfalse ↦ hfalse
  rintro result final ⟨-, sealed, hresult, -, hlength, hopen⟩
  exact ⟨sealed, hresult, by omega, hopen⟩

end Protocol

section Output

variable {crypto : Crypto} {ValidKey : Bytes → Prop}

/-- What the platform expects for its salts. -/
def expectedOutput (crypto : Crypto) (credRandom first : Bytes) (second : Option Bytes) :
    Option Bytes := do
  let output ← crypto.hmacSha256 credRandom first
  match second with
  | none => some output
  | some second => (crypto.hmacSha256 credRandom second).map (output ++ ·)

/-- The salts are cut apart where the platform put them together. -/
theorem hmacSecretOutputPlain_eq (credRandom first : Bytes) (second : Option Bytes)
    (hfirst : first.length = 32) (hsecond : ∀ salt, second = some salt → salt.length = 32) :
    hmacSecretOutputPlain crypto credRandom (first ++ second.getD []) =
      expectedOutput crypto credRandom first second := by
  unfold hmacSecretOutputPlain expectedOutput
  rw [List.take_left' hfirst]
  cases second with
  | none =>
    have hone : ¬(first ++ (none : Option Bytes).getD []).length = 64 := by
      simp [hfirst]
    simp only [if_neg hone]
  | some salt =>
    have hsalt : salt.length = 32 := hsecond salt rfl
    have htwo : (first ++ (some salt).getD []).length = 64 := by
      simp [hfirst, hsalt]
    have hcut : ((first ++ (some salt).getD []).drop 32).take 32 = salt := by
      rw [Option.getD_some, List.drop_left' hfirst, List.take_of_length_le (Nat.le_of_eq hsalt)]
    simp only [if_pos htwo, hcut]
    cases crypto.hmacSha256 credRandom first with
    | none => rfl
    | some output => cases crypto.hmacSha256 credRandom salt <;> rfl

theorem expectedOutput_total (hlaws : ExchangeLaws crypto ValidKey) (credRandom first : Bytes)
    (second : Option Bytes) :
    ∃ output, expectedOutput crypto credRandom first second = some output ∧
      (output.length = 32 ∨ output.length = 64) := by
  obtain ⟨output, houtput, hlength⟩ := hlaws.hmac credRandom first
  unfold expectedOutput
  rw [houtput]
  cases second with
  | none => exact ⟨output, rfl, Or.inl hlength⟩
  | some salt =>
    obtain ⟨last, hlast, hlength'⟩ := hlaws.hmac credRandom salt
    refine ⟨output ++ last, by simp [hlast], Or.inr ?_⟩
    rw [List.length_append, hlength, hlength']

/-- The map around the output fits the callers' buffer of 112 bytes, and the output is read back. -/
theorem hmacSecretExtension_reads {output : Bytes} {outCapacity : ℕ}
    (hsize : output.length ≤ hmacSecretOutputMaxLen) (hcapacity : 112 ≤ outCapacity) :
    ∃ extension, hmacSecretExtension output outCapacity = some extension ∧
      extensionOutput extension = some output := by
  have hstring : (Cbor.stringBytes Cbor.majorBytes output).length ≤
      Cbor.headRoom hmacSecretOutputMaxLen + hmacSecretOutputMaxLen :=
    Cbor.length_stringBytes_le hsize
  replace hstring : (Cbor.stringBytes Cbor.majorBytes output).length ≤ 82 := hstring
  have hname : (Cbor.stringBytes Cbor.majorText "hmac-secret".toUTF8.toList).length = 12 := by
    decide +kernel
  have hhead : (Cbor.headBytes Cbor.majorMap 1).length = 1 := by decide
  have hlong : output.length < 2 ^ 64 := by
    simp only [hmacSecretOutputMaxLen, pinProtocol2IvLen] at hsize
    omega
  refine ⟨Cbor.headBytes Cbor.majorMap 1 ++
    Cbor.stringBytes Cbor.majorText "hmac-secret".toUTF8.toList ++
      Cbor.stringBytes Cbor.majorBytes output, ?_, ?_⟩
  · have hpositive : ¬outCapacity = 0 := by omega
    have hmap : ([] ++ Cbor.headBytes Cbor.majorMap 1).length ≤ outCapacity := by
      rw [List.nil_append, hhead]
      omega
    have htext : (([] ++ Cbor.headBytes Cbor.majorMap 1) ++
        Cbor.stringBytes Cbor.majorText "hmac-secret".toUTF8.toList).length ≤ outCapacity := by
      rw [List.length_append, hname, List.nil_append, hhead]
      omega
    have hbytes : ((([] ++ Cbor.headBytes Cbor.majorMap 1) ++
        Cbor.stringBytes Cbor.majorText "hmac-secret".toUTF8.toList) ++
          Cbor.stringBytes Cbor.majorBytes output).length ≤ outCapacity := by
      rw [List.length_append, List.length_append, hname, List.nil_append, hhead]
      omega
    have hinit : Cbor.encoderInit outCapacity = some ⟨outCapacity, []⟩ := if_neg hpositive
    rw [hmacSecretExtension, hinit]
    simp only [Option.bind_eq_bind, Option.bind_some]
    rw [Cbor.Encoder.map, Cbor.Encoder.head, @Cbor.Encoder.append_eq_some ⟨outCapacity, []⟩ _ hmap]
    simp only [Option.bind_some]
    rw [Cbor.Encoder.text, @Cbor.Encoder.string_eq_some ⟨outCapacity, _⟩ _ _ htext]
    simp only [Option.bind_some]
    rw [Cbor.Encoder.bytes, @Cbor.Encoder.string_eq_some ⟨outCapacity, _⟩ _ _ hbytes]
    rfl
  · have hmap := @Cbor.readMapStart_headBytes 1
      (Cbor.stringBytes Cbor.majorText "hmac-secret".toUTF8.toList ++
        Cbor.stringBytes Cbor.majorBytes output) (by decide)
    have htext := @Cbor.readText_stringBytes "hmac-secret".toUTF8.toList
      (Cbor.stringBytes Cbor.majorBytes output) (by decide +kernel) (by decide +kernel)
    have hbytes := @Cbor.readBytes_stringBytes output [] hlong
    rw [List.append_nil] at hbytes
    rw [extensionOutput, List.append_assoc, hmap]
    simp only [Option.bind_eq_bind, Option.bind_some]
    rw [htext]
    simp only [Option.bind_some]
    rw [hbytes]
    simp

end Output

section Results

variable {crypto : Crypto} {ValidKey : Bytes → Prop}

/-- The extension succeeded, and the platform reads the HMACs of its salts from it. -/
def AnswersSalts (crypto : Crypto) (pinProtocol : ℕ) (keys : ProtocolKeys)
    (credRandom first : Bytes) (second : Option Bytes) (result : CtapStatus × Bytes) : Prop :=
  result.1 = .success ∧ ∃ output, expectedOutput crypto credRandom first second = some output ∧
    (extensionOutput result.2).bind (platformDecrypt crypto pinProtocol keys) = some output

/-- Under whatever keys the device agrees on, the MAC is not the protocol's or the ciphertext does
not hold one or two salts. -/
def Improper (crypto : Crypto) (state : ClientPinState) (request : HmacSecretInput) : Prop :=
  ∀ keys, pinProtocolDeriveKeys crypto state request.pinProtocol request.platformX
    request.platformY = some keys →
      platformAuthenticate crypto request.pinProtocol keys request.saltEnc ≠
        some request.saltAuth ∨
      ∀ plain, platformDecrypt crypto request.pinProtocol keys request.saltEnc = some plain →
        plain.length ≠ 32 ∧ plain.length ≠ 64

/-- The secret of the credential for a UV state. -/
def credRandomFor (record : CredentialRecord) (userVerified : Bool) : Bytes :=
  if userVerified then record.hmacSecretWithUv else record.hmacSecretWithoutUv

/-- The device's side agrees on the platform's keys. -/
theorem SentBy.deriveKeys (hlaws : ExchangeLaws crypto ValidKey) {state : ClientPinState}
    {platformKey iv salts : Bytes} {keys : ProtocolKeys} {request : HmacSecretInput}
    (hsent : SentBy crypto platformKey state.keyAgreement keys iv salts request)
    (hdevice : (state.keyAgreement.publicX, state.keyAgreement.publicY) =
      crypto.p256PublicKey state.keyAgreement.privateKey)
    (hours : ValidKey state.keyAgreement.privateKey) (htheirs : ValidKey platformKey) :
    pinProtocolDeriveKeys crypto state request.pinProtocol request.platformX request.platformY =
      some keys := by
  have hagreed := hsent.agreed
  have hsymmetric := hlaws.ecdh_symmetric _ _ hours htheirs
  rw [← hsent.publicKey, ← hdevice] at hsymmetric
  rw [pinProtocolDeriveKeys_eq _ _ _ hsent.protocol, hsymmetric]
  exact hagreed

/-- A request that a platform made for one or two salts. -/
theorem ensures_hmacSecretBuildExtension_sent (hlaws : ExchangeLaws crypto ValidKey)
    {state : ClientPinState} {record : CredentialRecord} {platformKey iv first : Bytes}
    {second : Option Bytes} {keys : ProtocolKeys} {request : HmacSecretInput}
    (hrecord : record.hmacSecret = true)
    (hdevice : (state.keyAgreement.publicX, state.keyAgreement.publicY) =
      crypto.p256PublicKey state.keyAgreement.privateKey)
    (hours : ValidKey state.keyAgreement.privateKey) (htheirs : ValidKey platformKey)
    (hfirst : first.length = 32) (hsecond : ∀ salt, second = some salt → salt.length = 32)
    (hsent : SentBy crypto platformKey state.keyAgreement keys iv (first ++ second.getD [])
      request)
    (userVerified : Bool) {outCapacity : ℕ} (hcapacity : 112 ≤ outCapacity) (world : Device) :
    Ensures (hmacSecretBuildExtension crypto state request record userVerified outCapacity)
      (fun result _ ↦ AnswersSalts crypto request.pinProtocol keys
        (credRandomFor record userVerified) first second result)
      (fun _ ↦ False) world := by
  have hsupported : pinProtocolSupported request.pinProtocol = true := by
    rw [pinProtocolSupported]
    obtain h | h := hsent.protocol <;> rw [h] <;> rfl
  have hsecret : ∃ secret, sessionKeys crypto request.pinProtocol secret = some keys := by
    obtain ⟨secret, -, hkeys⟩ := Option.bind_eq_some_iff.mp hsent.agreed
    exact ⟨secret, hkeys⟩
  obtain ⟨secret, hkeys⟩ := hsecret
  have hkey : keys.aesKey.length = 32 := length_aesKey hlaws hkeys
  have hsize : (first ++ second.getD []).length = 32 ∨ (first ++ second.getD []).length = 64 := by
    rw [List.length_append, hfirst]
    cases hcase : second with
    | none => exact Or.inl rfl
    | some salt => exact Or.inr (by rw [Option.getD_some, hsecond salt hcase])
  have hne : first ++ second.getD [] ≠ [] := by
    rintro hnil
    rw [hnil] at hsize
    simp at hsize
  have hmatches : pinProtocolHmacMatches crypto request.pinProtocol keys.hmacKey request.saltEnc []
      request.saltAuth = true :=
    (hmacMatches_iff hlaws hsent.protocol _ _).mpr hsent.authenticated
  have hopened : pinProtocolDecrypt crypto request.pinProtocol keys request.saltEnc =
      some (first ++ second.getD []) :=
    pinProtocolDecrypt_platformEncrypt hlaws hsent.protocol hkey hsent.ivLen hne (by omega)
      (by omega) hsent.encrypted
  obtain ⟨output, houtput, hlength⟩ := expectedOutput_total hlaws
    (credRandomFor record userVerified) first second
  have hplain : hmacSecretOutputPlain crypto
      (if userVerified then record.hmacSecretWithUv else record.hmacSecretWithoutUv)
      (first ++ second.getD []) = some output :=
    (hmacSecretOutputPlain_eq _ first second hfirst hsecond).trans houtput
  rw [hmacSecretBuildExtension]
  simp only [hsent.requested, hrecord, hsupported, hsent.deriveKeys hlaws hdevice hours htheirs,
    hmatches, hopened, hplain, Bool.not_true, Bool.or_self, Bool.false_eq_true, if_false]
  rw [if_neg (by omega), ensures_bind]
  refine (ensures_pinProtocolEncrypt_opens hlaws hsent.protocol hkey hlength world).mono ?_
    fun _ hfalse ↦ hfalse
  rintro _ final ⟨sealed, rfl, hroom, hreads⟩
  obtain ⟨extension, hextension, hread⟩ := hmacSecretExtension_reads hroom hcapacity
  simp only [hextension, ensures_pure]
  exact ⟨rfl, output, houtput, by rw [hread, Option.bind_some, hreads]⟩

/-- A request that is not authentic, or whose plaintext is not one or two salts. -/
theorem ensures_hmacSecretBuildExtension_refused (hlaws : ExchangeLaws crypto ValidKey)
    {state : ClientPinState} {record : CredentialRecord} {request : HmacSecretInput}
    (hrequested : request.hasHmacSecret = true) (hrecord : record.hmacSecret = true)
    (hwrong : Improper crypto state request)
    (userVerified : Bool) (outCapacity : ℕ) (world : Device) :
    Ensures (hmacSecretBuildExtension crypto state request record userVerified outCapacity)
      (fun result _ ↦ result.1 ≠ .success ∧ result.2 = []) (fun _ ↦ False) world := by
  have hrefused : ∀ status : CtapStatus, status ≠ .success →
      ∀ last : Device, Ensures (pure (status, ([] : Bytes)) : Program Device (CtapStatus × Bytes))
        (fun result _ ↦ result.1 ≠ .success ∧ result.2 = []) (fun _ ↦ False) last :=
    fun _ hstatus _ ↦ ⟨hstatus, rfl⟩
  rw [hmacSecretBuildExtension]
  simp only [hrequested, hrecord, Bool.not_true, Bool.or_self, Bool.false_eq_true, if_false]
  by_cases hsupported : pinProtocolSupported request.pinProtocol = true
  · have hprotocol : request.pinProtocol = pinProtocolV1 ∨
        request.pinProtocol = pinProtocolV2 := by
      simpa only [pinProtocolSupported, Bool.or_eq_true, beq_iff_eq] using hsupported
    simp only [hsupported, Bool.not_true, Bool.false_eq_true, if_false]
    cases hkeys : pinProtocolDeriveKeys crypto state request.pinProtocol request.platformX
        request.platformY with
    | none => exact hrefused .invalidParameter (by decide) world
    | some keys =>
      rw [ensures_ite]
      refine ⟨fun _ ↦ hrefused .pinAuthInvalid (by decide) world, fun hmatches ↦ ?_⟩
      have hauthentic : platformAuthenticate crypto request.pinProtocol keys request.saltEnc =
          some request.saltAuth :=
        (hmacMatches_iff hlaws hprotocol _ _).mp (by simpa using hmatches)
      have hplain := (hwrong keys hkeys).resolve_left fun hne ↦ hne hauthentic
      cases hopened : pinProtocolDecrypt crypto request.pinProtocol keys request.saltEnc with
      | none => exact hrefused .invalidParameter (by decide) world
      | some saltPlain =>
        dsimp only
        rw [if_pos (hplain saltPlain (platformDecrypt_of_pinProtocolDecrypt hopened))]
        exact hrefused .invalidParameter (by decide) world
  · simp only [hsupported, Bool.not_false, if_true]
    exact hrefused .invalidParameter (by decide) world

/-- For one or two salts that a platform sent under the agreed keys, the extension succeeds and the
platform reads their HMACs under the secret for the UV state from it; without a right MAC or without
one or two salts nothing is put out. -/
theorem hmac_secret_extension (crypto : Crypto) (ValidKey : Bytes → Prop)
    (hlaws : ExchangeLaws crypto ValidKey) (state : ClientPinState) (record : CredentialRecord)
    (hrecord : record.hmacSecret = true) (userVerified : Bool) (world : Device) :
    (∀ platformKey iv first second keys request outCapacity,
      (state.keyAgreement.publicX, state.keyAgreement.publicY) =
        crypto.p256PublicKey state.keyAgreement.privateKey →
      ValidKey state.keyAgreement.privateKey → ValidKey platformKey →
      first.length = 32 → (∀ salt, second = some salt → salt.length = 32) →
      SentBy crypto platformKey state.keyAgreement keys iv (first ++ second.getD []) request →
      112 ≤ outCapacity →
      Ensures (hmacSecretBuildExtension crypto state request record userVerified outCapacity)
        (fun result _ ↦ AnswersSalts crypto request.pinProtocol keys
          (credRandomFor record userVerified) first second result)
        (fun _ ↦ False) world) ∧
    ∀ request outCapacity, request.hasHmacSecret = true → Improper crypto state request →
      Ensures (hmacSecretBuildExtension crypto state request record userVerified outCapacity)
        (fun result _ ↦ result.1 ≠ .success ∧ result.2 = []) (fun _ ↦ False) world :=
  ⟨fun _ _ _ _ _ _ _ hdevice hours htheirs hfirst hsecond hsent hcapacity ↦
    ensures_hmacSecretBuildExtension_sent hlaws hrecord hdevice hours htheirs hfirst hsecond hsent
      userVerified hcapacity world,
    fun _ outCapacity hrequested hwrong ↦ ensures_hmacSecretBuildExtension_refused hlaws hrequested
      hrecord hwrong userVerified outCapacity world⟩

/-- Stand-in primitives with a symmetric key agreement. -/
def agreementExample : Crypto :=
  { Crypto.standIn with
    hkdfSha256 := fun _ secret info ↦ some ((info ++ secret ++ zeroBytes 32).take 32)
    p256EcdhRawSecret := fun privateKey peerX _ ↦
      some (List.zipWith (fun left right ↦ left ^^^ right) privateKey peerX) }

theorem exchangeLaws_agreementExample :
    ExchangeLaws agreementExample fun key ↦ key.length = privateKeyLen where
  ecdh_symmetric ours theirs _ _ := by
    show some (List.zipWith _ ours theirs) = some (List.zipWith _ theirs ours)
    rw [List.zipWith_comm]
    simp only [UInt8.xor_comm]
  length_sha256 data := by
    show ((data ++ List.replicate 32 0).take 32).length = 32
    simp
  hmac key data := by
    refine ⟨(data ++ key ++ List.replicate 32 0).take 32, rfl, ?_⟩
    simp only [List.length_take, List.length_append, List.length_replicate]
    omega
  length_hkdf _ _ _ _ hkey := by
    rw [← Option.some.inj hkey]
    simp only [List.length_take, List.length_append, zeroBytes, List.length_replicate]
    omega
  cbc _ _ plaintext _ _ _ _ _ := ⟨plaintext, rfl, rfl, rfl⟩

/-- A device key and two salts sent for it under the second protocol. -/
def deviceKeyExample : KeyAgreementKey where
  privateKey := List.replicate 32 1
  publicX := List.replicate 32 1
  publicY := List.replicate 32 1

def sentExample : HmacSecretInput where
  hasHmacSecret := true
  pinProtocol := 2
  platformX := List.replicate 32 2
  platformY := List.replicate 32 2
  saltEnc := zeroBytes 16 ++ (List.replicate 32 3 ++ List.replicate 32 4)
  saltAuth := zeroBytes 16 ++ List.replicate 16 3

def sessionKeysExample : ProtocolKeys :=
  (platformKeys agreementExample 2 (List.replicate 32 2) deviceKeyExample).getD ⟨[], []⟩

theorem hmac_secret_extension_twoSalts :
    Ensures (hmacSecretBuildExtension agreementExample { keyAgreement := deviceKeyExample }
        sentExample { hmacSecret := true } true 112)
      (fun result _ ↦ AnswersSalts agreementExample 2 sessionKeysExample
        (zeroBytes hmacSecretLen) (List.replicate 32 3) (some (List.replicate 32 4)) result)
      (fun _ ↦ False) (World.blank PinEvent) ∧
    Ensures (hmacSecretBuildExtension agreementExample { keyAgreement := deviceKeyExample }
        { sentExample with saltAuth := zeroBytes 32 } { hmacSecret := true } true 112)
      (fun result _ ↦ result.1 ≠ .success ∧ result.2 = []) (fun _ ↦ False)
      (World.blank PinEvent) := by
  have h := hmac_secret_extension agreementExample _ exchangeLaws_agreementExample
    { keyAgreement := deviceKeyExample } { hmacSecret := true } rfl true (World.blank PinEvent)
  have hsent : SentBy agreementExample (List.replicate 32 2) deviceKeyExample sessionKeysExample
      (zeroBytes 16) (List.replicate 32 3 ++ (some (List.replicate 32 4)).getD []) sentExample := by
    refine ⟨rfl, Or.inr rfl, rfl, rfl, rfl, rfl, rfl⟩
  refine ⟨h.1 (List.replicate 32 2) (zeroBytes 16) (List.replicate 32 3)
    (some (List.replicate 32 4)) sessionKeysExample sentExample 112 rfl rfl rfl rfl ?_ hsent le_rfl,
    h.2 _ 112 rfl fun keys _ ↦ Or.inl ?_⟩
  · rintro _ ⟨rfl⟩
    rfl
  · intro hauthentic
    have hbyte : (3 : UInt8) = 0 :=
      congrArg (fun mac ↦ List.getD mac 16 0) (Option.some.inj hauthentic)
    exact absurd hbyte (by decide)

end Results

end ZeroFido.Ctap
