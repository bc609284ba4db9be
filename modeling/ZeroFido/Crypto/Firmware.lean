import ZeroFido.Crypto.Aes256
import ZeroFido.Crypto.EcdsaDer
import ZeroFido.Crypto.Hmac
import ZeroFido.Ctap.AccountReplacement
import ZeroFido.Ctap.HmacSecret
import ZeroFido.Pin.Conversation

/-!
# The firmware's cryptography

`crypto/p256.c` and `zerofido_crypto.c` over what they stand on: the curve arithmetic of micro-ecc,
the AES unit and the key enclave (`Platform`). Given the laws of these, the primitives that the
firmware puts together from them and from its own hash code satisfy everything that the rest of the
development relies on (`exchangeLaws_crypto`, `conversationLaws_crypto`, `keyLaws_crypto`).

A private scalar is valid when it is a positive number below the order of the curve
(`p256PrivateKeyValid_iff`), and what a generated credential signs verifies under its public key
(`ensures_signHash_verifies`).
-/

set_option autoImplicit false
set_option relaxedAutoImplicit false

namespace ZeroFido.Firmware

open Foundations Foundations.Der Storage Store Ctap Pin

section Code

/-- What the firmware's cryptography stands on. A public key is the two coordinates in a row, and a
signature depends on the random bytes drawn for it. -/
structure Platform where
  aes : Aes.AesUnit
  publicKey : (privateKey : Bytes) → Bytes
  validPublicKey : (publicKey : Bytes) → Bool
  sharedSecret : (publicKey privateKey : Bytes) → Option Bytes
  sign : (privateKey hash random : Bytes) → Option Bytes
  verify : (publicKey hash signature : Bytes) → Bool
  enclaveEncrypt : (iv plaintext : Bytes) → Bytes
  enclaveDecrypt : (iv ciphertext : Bytes) → Bytes

/-- `zf_p256_order`. -/
def p256Order : Bytes := [
  0xFF, 0xFF, 0xFF, 0xFF, 0x00, 0x00, 0x00, 0x00, 0xFF, 0xFF, 0xFF, 0xFF, 0xFF, 0xFF, 0xFF, 0xFF,
  0xBC, 0xE6, 0xFA, 0xAD, 0xA7, 0x17, 0x9E, 0x84, 0xF3, 0xB9, 0xCA, 0xC2, 0xFC, 0x63, 0x25, 0x51]

/-- `zf_p256_private_key_valid`. -/
def p256PrivateKeyValid (privateKey : Bytes) : Bool :=
  !privateKey.all (· == 0) && memcmpGreater p256Order privateKey

variable (platform : Platform)

/-- `zf_p256_public_key_valid`. -/
def p256PublicKeyValid (publicX publicY : Bytes) : Bool :=
  platform.validPublicKey (publicX ++ publicY)

/-- `zf_p256_public_to_xy` of the public key of a scalar. -/
def p256PublicXY (privateKey : Bytes) : Bytes × Bytes :=
  let publicKey := platform.publicKey privateKey
  (publicKey.take publicKeyLen, publicKey.drop publicKeyLen)

/-- `zf_p256_compute_public_key`. -/
def p256ComputePublicKey (privateKey : Bytes) : Option (Bytes × Bytes) :=
  if p256PrivateKeyValid privateKey then some (p256PublicXY platform privateKey) else none

/-- `zf_p256_ecdh_raw_secret`. -/
def p256EcdhRawSecret (privateKey peerX peerY : Bytes) : Option Bytes :=
  if p256PrivateKeyValid privateKey && platform.validPublicKey (peerX ++ peerY) then
    platform.sharedSecret (peerX ++ peerY) privateKey
  else none

/-- `zf_p256_sign_hash_raw`. -/
def p256SignHashRaw (privateKey hash random : Bytes) : Option Bytes :=
  if p256PrivateKeyValid privateKey then platform.sign privateKey hash random else none

/-- `zf_p256_verify_hash_raw`. -/
def p256VerifyHashRaw (publicX publicY hash rawSignature : Bytes) : Bool :=
  platform.validPublicKey (publicX ++ publicY) &&
    platform.verify (publicX ++ publicY) hash rawSignature

/-- The primitives as the firmware puts them together. -/
def Platform.crypto : Crypto where
  sha256 := Hash.sha256
  hmacSha256 key data := some (Hash.hmacSha256 key data)
  hkdfSha256 := Hash.hkdfSha256
  aes256CbcEncrypt := Aes.aes256CbcEncrypt platform.aes
  aes256CbcDecrypt := Aes.aes256CbcDecrypt platform.aes
  p256PublicKey := p256PublicXY platform
  p256EcdhRawSecret := p256EcdhRawSecret platform
  enclaveEncrypt := platform.enclaveEncrypt
  enclaveDecrypt := platform.enclaveDecrypt

/-- `zf_crypto_sign_hash_with_private_key`. -/
def signHashWithPrivateKey (privateKey hash random : Bytes) (outCapacity : ℕ) : Option Bytes :=
  match p256SignHashRaw platform privateKey hash random with
  | none => none
  | some signature =>
    Crypto.ecdsaDerEncodeSignature (signature.take publicKeyLen)
      ((signature.drop publicKeyLen).take publicKeyLen) outCapacity

/-- `zf_crypto_verify_hash_with_public_key`. -/
def verifyHashWithPublicKey (publicX publicY hash signature : Bytes) : Bool :=
  match Crypto.ecdsaDerDecodeSignature signature with
  | none => false
  | some rawSignature => p256VerifyHashRaw platform publicX publicY hash rawSignature

/-- `zf_crypto_sign_hash`: the private scalar is opened by the enclave for the signature. -/
def signHash {Event : Type} (record : CredentialRecord) (hash random : Bytes) (outCapacity : ℕ) :
    Program (World Event) (Option Bytes) := do
  match ← platform.crypto.enclaveOpen record.privateIv record.privateWrapped with
  | none => return none
  | some privateKey => return signHashWithPrivateKey platform privateKey hash random outCapacity

end Code

section PrivateKeys

/-- A larger first digit outweighs the others. -/
theorem digit_lt {low high first second base : ℕ} (hfirst : first < base) (h : low < high) :
    low * base + first < high * base + second := by
  have hstep : (low + 1) * base ≤ high * base := Nat.mul_le_mul_right base h
  rw [Nat.add_mul] at hstep
  omega

/-- Comparing as many bytes is comparing the numbers. -/
theorem memcmpGreater_iff {left right : Bytes} (h : left.length = right.length) :
    memcmpGreater left right = true ↔ valueOf right < valueOf left := by
  induction left generalizing right with
  | nil =>
    cases List.eq_nil_of_length_eq_zero h.symm
    simp [memcmpGreater]
  | cons high left ih =>
    obtain _ | ⟨low, right⟩ := right
    · simp at h
    have hlength : left.length = right.length := by simpa using h
    have hleft := valueOf_lt left
    have hright := valueOf_lt right
    rw [← hlength] at hright
    rw [valueOf_cons, valueOf_cons, memcmpGreater, ← hlength]
    by_cases hsame : high = low
    · rw [if_pos hsame, ih hlength, hsame]
      omega
    · have hne : high.toNat ≠ low.toNat := fun heq ↦ hsame (UInt8.toNat_inj.mp heq)
      rw [if_neg hsame, decide_eq_true_eq, UInt8.lt_iff_toNat_lt]
      refine ⟨digit_lt hright, fun hlt ↦ ?_⟩
      by_contra hnot
      exact absurd hlt (digit_lt hleft (by omega)).not_gt

/-- The valid private keys are the positive numbers below the order of the curve. -/
theorem p256PrivateKeyValid_iff {privateKey : Bytes} (h : privateKey.length = privateKeyLen) :
    p256PrivateKeyValid privateKey = true ↔
      0 < valueOf privateKey ∧ valueOf privateKey < valueOf p256Order := by
  have hlength : p256Order.length = privateKey.length := h.symm
  rw [p256PrivateKeyValid, Bool.and_eq_true, Bool.not_eq_true', ← Bool.not_eq_true,
    ← valueOf_eq_zero_iff, Nat.pos_iff_ne_zero, memcmpGreater_iff hlength]

theorem p256PrivateKeyValid_iff_order : p256PrivateKeyValid p256Order = true ↔
    0 < valueOf p256Order ∧ valueOf p256Order < valueOf p256Order := p256PrivateKeyValid_iff rfl

end PrivateKeys

section Laws

/-- What the curve arithmetic, the AES unit and the enclave do: public keys and signatures have
their sizes, both sides of a key agreement of valid keys have the same secret of 32 bytes, a
signature verifies, and opening undoes sealing. -/
structure PlatformLaws (platform : Platform) : Prop where
  aes : Aes.AesUnitLaws platform.aes
  length_publicKey : ∀ key, (platform.publicKey key).length = 2 * publicKeyLen
  validPublicKey : ∀ key, p256PrivateKeyValid key = true →
    platform.validPublicKey (platform.publicKey key) = true
  sharedSecret : ∀ ours theirs, p256PrivateKeyValid ours = true →
    p256PrivateKeyValid theirs = true →
    platform.sharedSecret (platform.publicKey theirs) ours =
      platform.sharedSecret (platform.publicKey ours) theirs
  agree : ∀ ours theirs, p256PrivateKeyValid ours = true → p256PrivateKeyValid theirs = true →
    (platform.sharedSecret (platform.publicKey theirs) ours).isSome
  sign : ∀ key hash random signature, p256PrivateKeyValid key = true →
    platform.sign key hash random = some signature → signature.length = 2 * publicKeyLen ∧
      platform.verify (platform.publicKey key) hash signature = true
  open_seal : ∀ iv plaintext,
    platform.enclaveDecrypt iv (platform.enclaveEncrypt iv plaintext) = plaintext
  length_seal : ∀ iv plaintext, (platform.enclaveEncrypt iv plaintext).length = plaintext.length

variable {platform : Platform}

theorem append_p256PublicXY (privateKey : Bytes) :
    (p256PublicXY platform privateKey).1 ++ (p256PublicXY platform privateKey).2 =
      platform.publicKey privateKey := List.take_append_drop _ _

theorem length_hmacSha256 (key data : Bytes) : (Hash.hmacSha256 key data).length = 32 := by
  rw [Hash.hmacSha256, Hash.hmacSha256Parts_eq, hmac, Sha256.length_hash]

/-- Between valid keys the device and a platform agree on the same secret. -/
theorem p256EcdhRawSecret_symmetric (hlaws : PlatformLaws platform) {ours theirs : Bytes}
    (hours : p256PrivateKeyValid ours = true) (htheirs : p256PrivateKeyValid theirs = true) :
    p256EcdhRawSecret platform ours (p256PublicXY platform theirs).1
        (p256PublicXY platform theirs).2 =
      p256EcdhRawSecret platform theirs (p256PublicXY platform ours).1
        (p256PublicXY platform ours).2 := by
  have hfirst := hlaws.validPublicKey theirs htheirs
  have hsecond := hlaws.validPublicKey ours hours
  simp only [p256EcdhRawSecret, append_p256PublicXY, hours, htheirs, hfirst, hsecond, Bool.and_self,
    if_true]
  exact hlaws.sharedSecret ours theirs hours htheirs

/-- The firmware's primitives have the laws of the key exchange. -/
theorem exchangeLaws_crypto (hlaws : PlatformLaws platform) :
    ExchangeLaws platform.crypto fun key ↦ p256PrivateKeyValid key = true where
  ecdh_symmetric _ _ hours htheirs := p256EcdhRawSecret_symmetric hlaws hours htheirs
  length_sha256 data := by
    show (Hash.sha256 data).length = 32
    rw [Hash.sha256_eq, Sha256.length_hash]
  hmac key data := ⟨Hash.hmacSha256 key data, rfl, length_hmacSha256 key data⟩
  length_hkdf salt secret info key hkey := by
    rw [show platform.crypto.hkdfSha256 = Hash.hkdfSha256 from rfl, Hash.hkdfSha256] at hkey
    split_ifs at hkey with hlong
    rw [← Option.some.inj hkey, length_hmacSha256]
  cbc key iv plaintext hkey hiv hne hblocks hsize :=
    Aes.aes256CbcCrypt_round_trip hlaws.aes hkey hiv
      (fun hzero ↦ hne (List.eq_nil_of_length_eq_zero hzero)) hblocks hsize

theorem sealLaws_crypto (hlaws : PlatformLaws platform) : SealLaws platform.crypto where
  open_seal := hlaws.open_seal
  length_seal := hlaws.length_seal
  length_sha256 := (exchangeLaws_crypto hlaws).length_sha256

/-- A client and the firmware can talk about PINs: valid keys agree on session keys. -/
theorem conversationLaws_crypto (hlaws : PlatformLaws platform) :
    ConversationLaws platform.crypto fun key ↦ p256PrivateKeyValid key = true where
  toExchangeLaws := exchangeLaws_crypto hlaws
  open_seal := hlaws.open_seal
  length_seal := hlaws.length_seal
  agreed ours theirs pinProtocol hours htheirs := by
    have hagreed : (p256EcdhRawSecret platform ours (p256PublicXY platform theirs).1
        (p256PublicXY platform theirs).2).isSome := by
      simp only [p256EcdhRawSecret, append_p256PublicXY, hours, hlaws.validPublicKey theirs htheirs,
        Bool.and_self, if_true]
      exact hlaws.agree ours theirs hours htheirs
    obtain ⟨secret, hsecret⟩ := Option.isSome_iff_exists.mp hagreed
    have hexpand : ∀ info : Bytes, info.length ≤ 63 →
        platform.crypto.hkdfSha256 (zeroBytes 32) secret info =
          some (hkdf Sha256.hash 64 32 (zeroBytes 32) secret info 32) := fun info hinfo ↦
      (Hash.hkdfSha256_eq _ _ _).trans (if_pos hinfo)
    have hkeys : ∃ keys, sessionKeys platform.crypto pinProtocol secret = some keys := by
      unfold sessionKeys
      split_ifs
      · exact ⟨_, rfl⟩
      · rw [hexpand _ (by decide +kernel), hexpand _ (by decide +kernel)]
        exact ⟨_, rfl⟩
    obtain ⟨keys, hkeys⟩ := hkeys
    exact ⟨keys, (congrArg (Option.bind · _) hsecret).trans hkeys⟩
  length_public key _ := by
    have hlength := hlaws.length_publicKey key
    constructor
    · show ((platform.publicKey key).take publicKeyLen).length = publicKeyLen
      rw [List.length_take, hlength]
      rfl
    · show ((platform.publicKey key).drop publicKeyLen).length = publicKeyLen
      rw [List.length_drop, hlength]
      rfl

theorem keyLaws_crypto (hlaws : PlatformLaws platform) : KeyLaws platform.crypto := by
  intro privateKey _
  have hlength := hlaws.length_publicKey privateKey
  constructor
  · show ((platform.publicKey privateKey).take publicKeyLen).length = publicKeyLen
    rw [List.length_take, hlength]
    rfl
  · show ((platform.publicKey privateKey).drop publicKeyLen).length = publicKeyLen
    rw [List.length_drop, hlength]
    rfl

end Laws

section Signatures

variable {platform : Platform} {privateKey hash random signature : Bytes} {outCapacity : ℕ}

/-- Only a valid scalar signs, and what it signs verifies under its public key, DER encoding and
decoding included. -/
theorem signHashWithPrivateKey_verifies (hlaws : PlatformLaws platform)
    (h : signHashWithPrivateKey platform privateKey hash random outCapacity = some signature) :
    p256PrivateKeyValid privateKey = true ∧ signature.length ≤ 72 ∧
      verifyHashWithPublicKey platform (p256PublicXY platform privateKey).1
        (p256PublicXY platform privateKey).2 hash signature = true := by
  unfold signHashWithPrivateKey p256SignHashRaw at h
  by_cases hvalid : p256PrivateKeyValid privateKey = true
  · rw [if_pos hvalid] at h
    cases hraw : platform.sign privateKey hash random with
    | none => simp [hraw] at h
    | some raw =>
      obtain ⟨hlength, hverify⟩ := hlaws.sign privateKey hash random raw hvalid hraw
      have hr : (raw.take publicKeyLen).length = publicKeyLen := by
        rw [List.length_take, hlength]
        rfl
      have hs : (raw.drop publicKeyLen).length = publicKeyLen := by
        rw [List.length_drop, hlength]
        rfl
      rw [hraw] at h
      dsimp only at h
      rw [List.take_of_length_le (Nat.le_of_eq hs), Crypto.ecdsaDerEncodeSignature_eq hr hs] at h
      split_ifs at h with hfull
      rw [← Option.some.inj h]
      refine ⟨hvalid, Crypto.length_signatureDer_le hr hs, ?_⟩
      rw [verifyHashWithPublicKey, Crypto.ecdsaDerDecodeSignature_signatureDer hr hs,
        List.take_append_drop]
      dsimp only
      rw [p256VerifyHashRaw, append_p256PublicXY, hlaws.validPublicKey privateKey hvalid, hverify,
        Bool.and_self]
  · simp [if_neg hvalid] at h

/-- Whatever is signed with a credential verifies under the public key that was generated with it:
the enclave gives the private scalar of that public key back. -/
theorem ensures_signHash_verifies {Event : Type} (hlaws : PlatformLaws platform)
    (record : CredentialRecord) (world : World Event) :
    Ensures (generateCredentialKeypair platform.crypto record)
      (fun result _ ↦ ∀ credential, result = some credential →
        ∀ (later : World Event) (hash random : Bytes) (outCapacity : ℕ),
          Ensures (signHash platform credential hash random outCapacity)
            (fun signed _ ↦ ∀ signature, signed = some signature → signature.length ≤ 72 ∧
              verifyHashWithPublicKey platform credential.publicX credential.publicY hash
                signature = true)
            (fun _ ↦ False) later)
      (fun _ ↦ False) world := by
  simp only [generateCredentialKeypair, Crypto.generateKeyAgreementKey, ensures_bind]
  refine ensures_nextKeyGeneration fun first _ ↦ ?_
  rw [ensures_ite]
  refine ⟨fun _ ↦ ?_, fun _ ↦ by simp⟩
  rw [ensures_bind]
  refine ensures_randomFill fun privateKey second _ _ ↦ ?_
  simp only [ensures_pure, ensures_bind]
  refine ensures_randomFill fun iv third _ _ ↦ ?_
  refine Crypto.ensures_enclaveSeal fun result fourth _ _ hsealed ↦ ?_
  cases result with
  | none => simp
  | some privateWrapped =>
    rintro _ ⟨⟩ later hash random outCapacity
    rw [signHash, ensures_bind]
    refine Crypto.ensures_enclaveOpen fun opened final _ _ hopened ↦ ?_
    cases opened with
    | none => simp
    | some scalar =>
      have hscalar : scalar = privateKey := by
        rw [hopened scalar rfl, hsealed privateWrapped rfl]
        exact hlaws.open_seal iv privateKey
      intro signature hsigned
      rw [hscalar] at hsigned
      exact (signHashWithPrivateKey_verifies hlaws hsigned).2

end Signatures

section Results

variable {platform : Platform}

/-- The output of hmac-secret under the firmware's primitives is HMAC-SHA-256 of each salt. -/
theorem expectedOutput_crypto (credRandom first : Bytes) (second : Option Bytes) :
    expectedOutput platform.crypto credRandom first second =
      some (hmac Sha256.hash 64 credRandom first ++
        (second.map (hmac Sha256.hash 64 credRandom)).getD []) := by
  have hmac_eq : ∀ message : Bytes, platform.crypto.hmacSha256 credRandom message =
      some (hmac Sha256.hash 64 credRandom message) := by
    intro message
    show some (Hash.hmacSha256 credRandom message) = _
    rw [Hash.hmacSha256, Hash.hmacSha256Parts_eq, List.append_nil]
  cases second with
  | none => simp [expectedOutput, hmac_eq]
  | some salt => simp [expectedOutput, hmac_eq]

/-- With the firmware's primitives over a curve, an AES unit and an enclave that keep their laws, a
platform that sends one or two salts by the protocol reads the HMAC-SHA-256 of each of them from the
extension. -/
theorem hmac_secret_over_firmware (platform : Platform) (hlaws : PlatformLaws platform)
    (state : ClientPinState) (record : CredentialRecord) (hrecord : record.hmacSecret = true)
    (hkeys : (state.keyAgreement.publicX, state.keyAgreement.publicY) =
      p256PublicXY platform state.keyAgreement.privateKey)
    (hours : p256PrivateKeyValid state.keyAgreement.privateKey = true)
    (platformKey : Bytes) (htheirs : p256PrivateKeyValid platformKey = true)
    (iv first : Bytes) (second : Option Bytes) (hfirst : first.length = 32)
    (hsecond : ∀ salt, second = some salt → salt.length = 32) (keys : ProtocolKeys)
    (request : HmacSecretInput)
    (hsent : SentBy platform.crypto platformKey state.keyAgreement keys iv
      (first ++ second.getD []) request)
    (userVerified : Bool) (outCapacity : ℕ) (hcapacity : 112 ≤ outCapacity)
    (world : Pin.Device) :
    Ensures (hmacSecretBuildExtension platform.crypto state request record userVerified outCapacity)
      (fun result _ ↦ result.1 = .success ∧
        (extensionOutput result.2).bind
            (platformDecrypt platform.crypto request.pinProtocol keys) =
          some (hmac Sha256.hash 64 (credRandomFor record userVerified) first ++
            (second.map (hmac Sha256.hash 64 (credRandomFor record userVerified))).getD []))
      (fun _ ↦ False) world := by
  refine (ensures_hmacSecretBuildExtension_sent (exchangeLaws_crypto hlaws) hrecord hkeys hours
    htheirs hfirst hsecond hsent userVerified hcapacity world).mono ?_ fun _ hfalse ↦ hfalse
  rintro result final ⟨hsuccess, output, houtput, hread⟩
  rw [expectedOutput_crypto, Option.some.injEq] at houtput
  exact ⟨hsuccess, by rw [hread, houtput]⟩

/-- A stand-in for the curve, the AES unit and the enclave. -/
def platformExample : Platform where
  aes := { loadKey := fun _ _ ↦ true, encrypt := fun _ _ input ↦ some input,
           decrypt := fun _ _ input ↦ some input }
  publicKey privateKey := (privateKey ++ zeroBytes 64).take 64
  validPublicKey _ := true
  sharedSecret publicKey privateKey :=
    some (List.zipWith (fun left right ↦ left ^^^ right) (publicKey.take 32)
      ((privateKey ++ zeroBytes 64).take 32))
  sign privateKey _ _ := some ((privateKey ++ zeroBytes 64).take 64)
  verify publicKey _ signature := publicKey == signature
  enclaveEncrypt _ plaintext := plaintext
  enclaveDecrypt _ ciphertext := ciphertext

theorem platformLaws_platformExample : PlatformLaws platformExample where
  aes := ⟨fun _ _ _ _ ↦ rfl, fun _ _ input _ _ _ ↦ ⟨input, rfl, rfl, rfl⟩⟩
  length_publicKey key := by
    show ((key ++ zeroBytes 64).take 64).length = 64
    simp [zeroBytes]
  validPublicKey _ _ := rfl
  sharedSecret ours theirs _ _ := by
    show some (List.zipWith _ (((theirs ++ zeroBytes 64).take 64).take 32) _) =
      some (List.zipWith _ (((ours ++ zeroBytes 64).take 64).take 32) _)
    rw [List.take_take, List.take_take, List.zipWith_comm]
    simp only [UInt8.xor_comm]
    rfl
  agree _ _ _ _ := rfl
  sign key hash random signature _ hsign := by
    rw [← Option.some.inj hsign]
    exact ⟨by simp [zeroBytes, publicKeyLen], beq_self_eq_true _⟩
  open_seal _ _ := rfl
  length_seal _ _ := rfl

theorem conversationLaws_crypto_platformExample :
    ConversationLaws platformExample.crypto fun key ↦ p256PrivateKeyValid key = true :=
  conversationLaws_crypto platformLaws_platformExample

/-- A device key, and one salt sent for it under the first protocol. -/
def keyPairExample : KeyAgreementKey where
  privateKey := List.replicate 32 1
  publicX := List.replicate 32 1
  publicY := zeroBytes 32

def oneSaltKeys : ProtocolKeys :=
  (platformKeys platformExample.crypto 1 (List.replicate 32 2) keyPairExample).getD ⟨[], []⟩

@[irreducible]
def oneSaltExample : HmacSecretInput where
  hasHmacSecret := true
  pinProtocol := 1
  platformX := List.replicate 32 2
  platformY := zeroBytes 32
  saltEnc := List.replicate 32 3
  saltAuth := (platformAuthenticate platformExample.crypto 1 oneSaltKeys
    (List.replicate 32 3)).getD []

theorem hmac_secret_over_firmware_oneSalt :
    Ensures (hmacSecretBuildExtension platformExample.crypto { keyAgreement := keyPairExample }
        oneSaltExample { hmacSecret := true } true 112)
      (fun result _ ↦ result.1 = .success ∧
        (extensionOutput result.2).bind
            (platformDecrypt platformExample.crypto oneSaltExample.pinProtocol oneSaltKeys) =
          some (hmac Sha256.hash 64 (credRandomFor { hmacSecret := true } true)
              (List.replicate 32 3) ++ ((none : Option Bytes).map (hmac Sha256.hash 64
                (credRandomFor { hmacSecret := true } true))).getD []))
      (fun _ ↦ False) (World.blank PinEvent) := by
  have hagreed : platformKeys platformExample.crypto 1 (List.replicate 32 2) keyPairExample ≠
      none := Option.isSome_iff_ne_none.mp (by decide +kernel)
  have hauthenticated := Option.getD_of_ne_none (x := platformAuthenticate platformExample.crypto 1
    oneSaltKeys (List.replicate 32 3)) (Option.some_ne_none _) []
  have hsent : SentBy platformExample.crypto (List.replicate 32 2) keyPairExample
      oneSaltKeys (zeroBytes 16)
      (List.replicate 32 3 ++ (none : Option Bytes).getD []) oneSaltExample := by
    unfold oneSaltExample
    exact ⟨rfl, Or.inl rfl, by decide +kernel, (Option.getD_of_ne_none hagreed _).symm, rfl,
      by decide +kernel, hauthenticated.symm⟩
  have hkeys : (keyPairExample.publicX, keyPairExample.publicY) =
      p256PublicXY platformExample keyPairExample.privateKey := by decide +kernel
  have hours : p256PrivateKeyValid keyPairExample.privateKey = true := by decide +kernel
  have htheirs : p256PrivateKeyValid (List.replicate 32 2) = true := by decide +kernel
  exact hmac_secret_over_firmware platformExample platformLaws_platformExample
    { keyAgreement := keyPairExample } { hmacSecret := true } rfl hkeys
    hours (List.replicate 32 2) htheirs (zeroBytes 16)
    (List.replicate 32 3) none List.length_replicate (by simp) oneSaltKeys oneSaltExample hsent
    true 112 le_rfl (World.blank PinEvent)

/-- A device on which every random byte is a one. -/
def onesDevice : Device := { World.blank PinEvent with entropy := fun _ ↦ 1 }

/-- A credential generated there, and its signature of a hash. -/
def signedExample : Option (CredentialRecord × Bytes) :=
  match (generateCredentialKeypair platformExample.crypto {}).run onesDevice with
  | .ok (some credential) later =>
    match (signHash platformExample credential (List.replicate 32 7) [] 72).run later with
    | .ok (some signature) _ => some (credential, signature)
    | _ => none
  | _ => none

/-- The scalar of ones is valid, so that there is a credential and it signs. -/
theorem ensures_signHash_verifies_ones :
    ∃ credential signature, signedExample = some (credential, signature) ∧
      signature.length ≤ 72 ∧
      verifyHashWithPublicKey platformExample credential.publicX credential.publicY
        (List.replicate 32 7) signature = true := by
  have hsigns : signedExample.isSome = true := by decide +kernel
  obtain ⟨⟨credential, signature⟩, hsigned⟩ := Option.isSome_iff_exists.mp hsigns
  refine ⟨credential, signature, hsigned, ?_⟩
  have hspec := ensures_signHash_verifies platformLaws_platformExample {} onesDevice
  unfold Ensures at hspec
  unfold signedExample at hsigned
  cases hgenerated : (generateCredentialKeypair platformExample.crypto {}).run onesDevice with
  | error reason final => simp [hgenerated] at hsigned
  | ok made later =>
    rw [hgenerated] at hspec hsigned
    cases made with
    | none => simp at hsigned
    | some generated =>
      dsimp only at hsigned
      cases hsign : (signHash platformExample generated (List.replicate 32 7) [] 72).run later with
      | error reason final =>
        rw [hsign] at hsigned
        exact absurd hsigned (by simp)
      | ok result final =>
        rw [hsign] at hsigned
        cases result with
        | none => simp at hsigned
        | some made =>
          obtain ⟨rfl, rfl⟩ := Prod.mk.inj (Option.some.inj hsigned)
          have hverified := hspec generated rfl later (List.replicate 32 7) [] 72
          rw [hsign] at hverified
          exact hverified made rfl

end Results

end ZeroFido.Firmware
