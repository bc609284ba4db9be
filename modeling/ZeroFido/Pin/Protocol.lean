import ZeroFido.Pin.State

/-!
# PIN/UV auth protocols

`pin/protocol.c`: the key schedule and the encryption of the two protocol versions.
-/

set_option autoImplicit false
set_option relaxedAutoImplicit false

namespace ZeroFido.Pin

open Foundations Storage

/-- The two halves of the key buffer: the HMAC key and the AES key. -/
structure ProtocolKeys where
  hmacKey : Bytes
  aesKey : Bytes
  deriving DecidableEq, Repr

section Protocol

variable (crypto : Crypto)

/-- `zf_pin_protocol_supported`. -/
def pinProtocolSupported (pinProtocol : ℕ) : Bool :=
  pinProtocol == pinProtocolV1 || pinProtocol == pinProtocolV2

/-- `zf_pin_protocol_derive_keys`. -/
def pinProtocolDeriveKeys (state : ClientPinState) (pinProtocol : ℕ) (platformX platformY : Bytes) :
    Option ProtocolKeys :=
  if pinProtocol = pinProtocolV1 then
    (crypto.ecdhSharedSecret state.keyAgreement platformX platformY).map fun secret ↦
      { hmacKey := secret, aesKey := secret }
  else if pinProtocol ≠ pinProtocolV2 then
    none
  else do
    let secret ← crypto.p256EcdhRawSecret state.keyAgreement.privateKey platformX platformY
    let hmacKey ← crypto.hkdfSha256 (zeroBytes 32) secret "CTAP2 HMAC key".toUTF8.toList
    let aesKey ← crypto.hkdfSha256 (zeroBytes 32) secret "CTAP2 AES key".toUTF8.toList
    some { hmacKey, aesKey }

/-- `zf_pin_protocol_decrypt`. -/
def pinProtocolDecrypt (pinProtocol : ℕ) (keys : ProtocolKeys) (ciphertext : Bytes) :
    Option Bytes :=
  if pinProtocol = pinProtocolV1 then
    crypto.aes256CbcDecrypt keys.aesKey (zeroBytes 16) ciphertext
  else if pinProtocol ≠ pinProtocolV2 ∨ ciphertext.length ≤ pinProtocol2IvLen ∨
      (ciphertext.length - pinProtocol2IvLen) % 16 ≠ 0 then
    none
  else
    crypto.aes256CbcDecrypt keys.aesKey (ciphertext.take pinProtocol2IvLen)
      (ciphertext.drop pinProtocol2IvLen)

/-- `zf_pin_protocol_encrypt`; version 2 puts a random initialisation vector in front. -/
def pinProtocolEncrypt (pinProtocol : ℕ) (keys : ProtocolKeys) (plaintext : Bytes)
    (outCapacity : ℕ) : Program Device (Option Bytes) := do
  if plaintext.length = 0 ∨ plaintext.length % 16 ≠ 0 then
    return none
  if pinProtocol = pinProtocolV1 then
    if outCapacity < plaintext.length then
      return none
    return crypto.aes256CbcEncrypt keys.aesKey (zeroBytes 16) plaintext
  if pinProtocol ≠ pinProtocolV2 ∨ outCapacity < pinProtocol2IvLen + plaintext.length then
    return none
  let iv ← randomFill pinProtocol2IvLen
  return (crypto.aes256CbcEncrypt keys.aesKey iv plaintext).map fun encrypted ↦ iv ++ encrypted

/-- `zf_pin_protocol_hmac_matches`. -/
def pinProtocolHmacMatches (pinProtocol : ℕ) (key first second expected : Bytes) : Bool :=
  match crypto.hmacSha256 key (first ++ second) with
  | none => false
  | some hmac =>
    expected.length == pinUvAuthParamLen pinProtocol &&
      constantTimeEqual hmac expected (pinUvAuthParamLen pinProtocol)

end Protocol

end ZeroFido.Pin
