import ZeroFido.Crypto.Sha256

/-!
# The HMAC and HKDF code

`crypto/hmac_sha256.c`: the message of an HMAC comes in two parts, and of HKDF there is the one
block of output that is ever asked for. They compute the constructions of RFC 2104 and RFC 5869
over the SHA-256 of FIPS 180-4 (`keyed_hashes_conform`).
-/

set_option autoImplicit false
set_option relaxedAutoImplicit false

namespace ZeroFido.Hash

open Foundations

section Code

/-- `zf_crypto_sha256`. -/
def sha256 (data : Bytes) : Bytes := sha256Finish (sha256Update sha256Init data)

/-- `zf_crypto_sha256_concat`. -/
def sha256Concat (first second : Bytes) : Bytes :=
  let sha := if 0 < first.length then sha256Update sha256Init first else sha256Init
  let sha := if 0 < second.length then sha256Update sha second else sha
  sha256Finish sha

/-- `zf_hmac_sha256_parts_with_scratch`; the buffers of the scratch area start as zeros. -/
def hmacSha256Parts (key first second : Bytes) : Bytes :=
  let keyBlock :=
    if 64 < key.length then sha256Finish (sha256Update sha256Init key) ++ List.replicate 32 0
    else key ++ List.replicate (64 - key.length) 0
  let pad := keyBlock.map (· ^^^ 0x36)
  let sha := sha256Update sha256Init pad
  let sha := if 0 < first.length then sha256Update sha first else sha
  let sha := if 0 < second.length then sha256Update sha second else sha
  let innerHash := sha256Finish sha
  let pad := keyBlock.map (· ^^^ 0x5C)
  sha256Finish (sha256Update (sha256Update sha256Init pad) innerHash)

/-- `zf_hmac_sha256`. -/
def hmacSha256 (key data : Bytes) : Bytes := hmacSha256Parts key data []

/-- `zf_hkdf_sha256`; the information and its counter share a buffer of 64 bytes. -/
def hkdfSha256 (salt ikm info : Bytes) : Option Bytes :=
  if 64 < info.length + 1 then none
  else
    let prk := hmacSha256 salt ikm
    some (hmacSha256 prk (info ++ [1]))

end Code

section Constructions

variable {message : Bytes} {ctx : Sha256Context}

theorem sha256_eq (data : Bytes) : sha256 data = Sha256.hash data :=
  sha256Finish_eq (holds_sha256Init.update data)

/-- An empty piece may be left out. -/
theorem Sha256Context.Holds.updateSome (h : ctx.Holds message) (data : Bytes) :
    (if 0 < data.length then sha256Update ctx data else ctx).Holds (message ++ data) := by
  by_cases hsome : 0 < data.length
  · rw [if_pos hsome]
    exact h.update data
  · have hnone : data = [] := List.eq_nil_of_length_eq_zero (by omega)
    rw [if_neg hsome, hnone, List.append_nil]
    exact h

theorem sha256Concat_eq (first second : Bytes) :
    sha256Concat first second = Sha256.hash (first ++ second) :=
  sha256Finish_eq ((holds_sha256Init.updateSome first).updateSome second)

/-- The key block is the key of RFC 2104. -/
theorem keyBlock_eq (key : Bytes) :
    (if 64 < key.length then sha256Finish (sha256Update sha256Init key) ++ List.replicate 32 0
      else key ++ List.replicate (64 - key.length) 0) = hmacKey Sha256.hash 64 key := by
  rw [hmacKey]
  by_cases hlong : 64 < key.length
  · rw [if_pos hlong, if_pos hlong, Sha256.length_hash, ← sha256_eq]
    rfl
  · rw [if_neg hlong, if_neg hlong]

/-- The two parts are authenticated as one message. -/
theorem hmacSha256Parts_eq (key first second : Bytes) :
    hmacSha256Parts key first second = hmac Sha256.hash 64 key (first ++ second) := by
  have hinner := sha256Finish_eq
    (((holds_sha256Init.update ((hmacKey Sha256.hash 64 key).map (· ^^^ 0x36))).updateSome
      first).updateSome second)
  unfold hmacSha256Parts
  simp only [keyBlock_eq]
  rw [hinner, sha256Finish_eq ((holds_sha256Init.update _).update _)]
  simp only [hmac, List.nil_append, List.append_assoc]

/-- The expansion is the first 32 bytes of that of RFC 5869, for information that leaves room for
the counter. -/
theorem hkdfSha256_eq (salt secret info : Bytes) :
    hkdfSha256 salt secret info =
      if info.length ≤ 63 then some (hkdf Sha256.hash 64 32 salt secret info 32) else none := by
  by_cases hroom : info.length ≤ 63
  · have hfits : ¬64 < info.length + 1 := by omega
    have hlength : (hmac Sha256.hash 64 (hmac Sha256.hash 64 salt secret) (info ++ [1])).length =
        32 := by
      rw [hmac, Sha256.length_hash]
    have hone : List.range ((32 + 32 - 1) / 32) = [0] := by decide
    rw [if_pos hroom, hkdfSha256, if_neg hfits]
    simp only [hmacSha256]
    rw [hmacSha256Parts_eq, hmacSha256Parts_eq, List.append_nil, List.append_nil, hkdf, hkdfExpand,
      hone, List.flatMap_singleton]
    simp only [hkdfBlock, List.nil_append]
    exact congrArg some (List.take_of_length_le (Nat.le_of_eq hlength)).symm
  · have hfull : 64 < info.length + 1 := by omega
    rw [if_neg hroom, hkdfSha256, if_pos hfull]

/-- HMAC over a message in two parts, and HKDF for one block of output, for keys, messages and salts
of any length. -/
theorem keyed_hashes_conform (key first second salt secret info : Bytes) :
    hmacSha256Parts key first second = hmac Sha256.hash 64 key (first ++ second) ∧
      hkdfSha256 salt secret info =
        if info.length ≤ 63 then some (hkdf Sha256.hash 64 32 salt secret info 32) else none :=
  ⟨hmacSha256Parts_eq key first second, hkdfSha256_eq salt secret info⟩

end Constructions

end ZeroFido.Hash
