import ZeroFido.Storage.World

/-!
# Cryptographic primitives

The hash, cipher and curve code and the key enclave are parameters of the model, collected in
`Crypto`. The authenticator only composes them; where a result rests on one of their properties it
says so in a hypothesis. What `zerofido_crypto.c` adds on top is defined here.
-/

set_option autoImplicit false
set_option relaxedAutoImplicit false

namespace ZeroFido

open Foundations Storage

/-- `ZfP256KeyAgreementKey`. -/
structure KeyAgreementKey where
  privateKey : Bytes := List.replicate privateKeyLen 0
  publicX : Bytes := List.replicate publicKeyLen 0
  publicY : Bytes := List.replicate publicKeyLen 0
  deriving DecidableEq, Repr

/-- The primitives the authenticator composes. A primitive whose C function returns a success flag
is partial. -/
structure Crypto where
  sha256 : Bytes → Bytes
  hmacSha256 : (key data : Bytes) → Option Bytes
  hkdfSha256 : (salt secret info : Bytes) → Option Bytes
  aes256CbcEncrypt : (key iv plaintext : Bytes) → Option Bytes
  aes256CbcDecrypt : (key iv ciphertext : Bytes) → Option Bytes
  p256PublicKey : (privateKey : Bytes) → Bytes × Bytes
  p256EcdhRawSecret : (privateKey peerX peerY : Bytes) → Option Bytes
  enclaveEncrypt : (iv plaintext : Bytes) → Bytes
  enclaveDecrypt : (iv ciphertext : Bytes) → Bytes

/-- Stand-in primitives of the right sizes, on which the model can be run. -/
def Crypto.standIn : Crypto where
  sha256 data := (data ++ List.replicate 32 0).take 32
  hmacSha256 key data := some ((data ++ key ++ List.replicate 32 0).take 32)
  hkdfSha256 _ secret _ := some secret
  aes256CbcEncrypt _ _ plaintext := some plaintext
  aes256CbcDecrypt _ _ ciphertext := some ciphertext
  p256PublicKey privateKey := (privateKey, privateKey)
  p256EcdhRawSecret privateKey _ _ := some privateKey
  enclaveEncrypt _ plaintext := plaintext
  enclaveDecrypt _ ciphertext := ciphertext

/-- `zf_crypto_constant_time_equal`: whether two buffers agree on their first `size` bytes. -/
def constantTimeEqual (left right : Bytes) (size : ℕ) : Bool :=
  left.take size == right.take size

/-- `size` zero bytes, what `zf_crypto_secure_zero` leaves in a buffer. -/
def zeroBytes (size : ℕ) : Bytes := List.replicate size 0

namespace Crypto

variable {Event : Type} (crypto : Crypto)

/-- `zf_crypto_generate_key_agreement_key`. -/
def generateKeyAgreementKey : Program (World Event) (Option KeyAgreementKey) := do
  if ← nextKeyGeneration then
    let privateKey ← randomFill privateKeyLen
    let (publicX, publicY) := crypto.p256PublicKey privateKey
    return some { privateKey, publicX, publicY }
  return none

/-- `zf_crypto_ecdh_shared_secret`. -/
def ecdhSharedSecret (key : KeyAgreementKey) (peerX peerY : Bytes) : Option Bytes :=
  (crypto.p256EcdhRawSecret key.privateKey peerX peerY).map crypto.sha256

/-- Encryption under the enclave's device key: load the key, encrypt, unload. -/
def enclaveSeal (iv plaintext : Bytes) : Program (World Event) (Option Bytes) := do
  if ← nextEnclave then
    return some (crypto.enclaveEncrypt iv plaintext)
  return none

/-- Decryption under the enclave's device key. -/
def enclaveOpen (iv ciphertext : Bytes) : Program (World Event) (Option Bytes) := do
  if ← nextEnclave then
    return some (crypto.enclaveDecrypt iv ciphertext)
  return none

variable {crypto} {world : World Event}

theorem ensures_enclaveSeal {iv plaintext : Bytes} {post : Option Bytes → World Event → Prop}
    {crash : World Event → Prop}
    (h : ∀ result world', Idle world world' → (result = none → world.enclave ≠ []) →
      (∀ sealed, result = some sealed → sealed = crypto.enclaveEncrypt iv plaintext) →
        post result world') :
    Ensures (crypto.enclaveSeal iv plaintext) post crash world := by
  simp only [enclaveSeal, ensures_bind]
  refine ensures_nextEnclave fun ok world' hidle henclave ↦ ?_
  cases ok with
  | true => exact h _ world' hidle (by simp) fun sealed hsealed ↦ (Option.some.inj hsealed).symm
  | false => exact h _ world' hidle (fun _ ↦ henclave rfl) (by simp)

theorem ensures_enclaveOpen {iv ciphertext : Bytes} {post : Option Bytes → World Event → Prop}
    {crash : World Event → Prop}
    (h : ∀ result world', Idle world world' → (result = none → world.enclave ≠ []) →
      (∀ opened, result = some opened → opened = crypto.enclaveDecrypt iv ciphertext) →
        post result world') :
    Ensures (crypto.enclaveOpen iv ciphertext) post crash world := by
  simp only [enclaveOpen, ensures_bind]
  refine ensures_nextEnclave fun ok world' hidle henclave ↦ ?_
  cases ok with
  | true => exact h _ world' hidle (by simp) fun opened hopened ↦ (Option.some.inj hopened).symm
  | false => exact h _ world' hidle (fun _ ↦ henclave rfl) (by simp)

/-- Key generation leaves the files alone, and gives a key exactly when its outcome says so. -/
theorem ensures_generateKeyAgreementKey {post : Option KeyAgreementKey → World Event → Prop}
    {crash : World Event → Prop}
    (h : ∀ result world', Idle world world' →
      result.isSome = world.keyGenerations.headD true → post result world') :
    Ensures crypto.generateKeyAgreementKey post crash world := by
  simp only [generateKeyAgreementKey, ensures_bind]
  refine ensures_nextKeyGeneration fun middle hidle ↦ ?_
  cases houtcome : world.keyGenerations.headD true with
  | false => exact h none middle hidle (by rw [houtcome]; rfl)
  | true =>
    simp only [if_true, ensures_bind]
    refine ensures_randomFill fun bytes world' hidle' _ ↦ ?_
    exact h _ world' (hidle.trans hidle') (by rw [houtcome]; rfl)

end Crypto

end ZeroFido
