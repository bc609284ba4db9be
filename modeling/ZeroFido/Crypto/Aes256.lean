import ZeroFido.Types

/-!
# The AES code

`crypto/aes256.c`: CBC through the AES unit of the microcontroller, which reads and writes words in
the other byte order. The unit is a parameter. The wrapper takes whole blocks up to the size of its
buffers and nothing else, and decryption undoes encryption when the unit's does
(`aes256CbcCrypt_round_trip`).
-/

set_option autoImplicit false
set_option relaxedAutoImplicit false

namespace ZeroFido.Aes

section Code

def aesBlockLen : ℕ := 16
def aesKeyLen : ℕ := 32
def aesMaxCbcLen : ℕ := 128

/-- The AES unit: loading a key with an initialisation vector, and CBC under the loaded ones. -/
structure AesUnit where
  loadKey : (key iv : Bytes) → Bool
  encrypt : (key iv input : Bytes) → Option Bytes
  decrypt : (key iv input : Bytes) → Option Bytes

/-- `zf_aes_bswap_words`, for a size of whole words. -/
def aesBswapWords : Bytes → Bytes
  | first :: second :: third :: fourth :: rest =>
    fourth :: third :: second :: first :: aesBswapWords rest
  | _ => []

/-- `zf_aes256_cbc_crypt`. -/
def aes256CbcCrypt (unit : AesUnit) (key iv input : Bytes) (decrypt : Bool) : Option Bytes :=
  if input.length = 0 ∨ aesMaxCbcLen < input.length ∨ input.length % aesBlockLen ≠ 0 then none
  else
    let halKey := aesBswapWords key
    let halIv := aesBswapWords iv
    let halInput := aesBswapWords input
    if unit.loadKey halKey halIv then
      let halOutput :=
        if decrypt then unit.decrypt halKey halIv halInput else unit.encrypt halKey halIv halInput
      halOutput.map aesBswapWords
    else none

/-- `zf_aes256_cbc_encrypt`. -/
def aes256CbcEncrypt (unit : AesUnit) (key iv input : Bytes) : Option Bytes :=
  aes256CbcCrypt unit key iv input false

/-- `zf_aes256_cbc_decrypt`. -/
def aes256CbcDecrypt (unit : AesUnit) (key iv input : Bytes) : Option Bytes :=
  aes256CbcCrypt unit key iv input true

end Code

section RoundTrip

variable {unit : AesUnit} {key iv plaintext : Bytes}

/-- What the unit does: it takes every key, and decrypting undoes encrypting whole blocks. -/
structure AesUnitLaws (unit : AesUnit) : Prop where
  loadKey : ∀ key iv, key.length = aesKeyLen → iv.length = aesBlockLen →
    unit.loadKey key iv = true
  encrypt : ∀ key iv input, key.length = aesKeyLen → iv.length = aesBlockLen →
    input.length % aesBlockLen = 0 → ∃ output, unit.encrypt key iv input = some output ∧
      output.length = input.length ∧ unit.decrypt key iv output = some input

/-- Whole words have a length by which the swap keeps them. -/
theorem length_aesBswapWords {data : Bytes} (h : data.length % 4 = 0) :
    (aesBswapWords data).length = data.length := by
  induction data using aesBswapWords.induct with
  | case1 first second third fourth rest ih =>
    have hrest : rest.length % 4 = 0 := by
      simp only [List.length_cons] at h
      omega
    simp only [aesBswapWords, List.length_cons, ih hrest]
  | case2 data hshort =>
    obtain _ | ⟨first, _ | ⟨second, _ | ⟨third, _ | ⟨fourth, rest⟩⟩⟩⟩ := data
    · rfl
    · simp at h
    · simp at h
    · simp at h
    · exact absurd rfl (hshort first second third fourth rest)

/-- Swapping twice gives the words back. -/
theorem aesBswapWords_aesBswapWords {data : Bytes} (h : data.length % 4 = 0) :
    aesBswapWords (aesBswapWords data) = data := by
  induction data using aesBswapWords.induct with
  | case1 first second third fourth rest ih =>
    have hrest : rest.length % 4 = 0 := by
      simp only [List.length_cons] at h
      omega
    simp only [aesBswapWords, ih hrest]
  | case2 data hshort =>
    obtain _ | ⟨first, _ | ⟨second, _ | ⟨third, _ | ⟨fourth, rest⟩⟩⟩⟩ := data
    · rfl
    · simp at h
    · simp at h
    · simp at h
    · exact absurd rfl (hshort first second third fourth rest)

/-- Nothing is encrypted or decrypted but whole blocks that fit the buffers. -/
theorem aes256CbcCrypt_eq_none
    (h : plaintext.length = 0 ∨ aesMaxCbcLen < plaintext.length ∨
      plaintext.length % aesBlockLen ≠ 0) (decrypt : Bool) :
    aes256CbcCrypt unit key iv plaintext decrypt = none := if_pos h

/-- What is encrypted has the length of the plaintext and decrypts to it. -/
theorem aes256CbcCrypt_round_trip (hlaws : AesUnitLaws unit) (hkey : key.length = aesKeyLen)
    (hiv : iv.length = aesBlockLen) (hsome : plaintext.length ≠ 0)
    (hblocks : plaintext.length % aesBlockLen = 0) (hfits : plaintext.length ≤ aesMaxCbcLen) :
    ∃ ciphertext, aes256CbcEncrypt unit key iv plaintext = some ciphertext ∧
      ciphertext.length = plaintext.length ∧
      aes256CbcDecrypt unit key iv ciphertext = some plaintext := by
  have hwords : ∀ data : Bytes, data.length % aesBlockLen = 0 → data.length % 4 = 0 := by
    intro data hdata
    rw [aesBlockLen] at hdata
    omega
  have hkeyLength : (aesBswapWords key).length = aesKeyLen := by
    rw [length_aesBswapWords (by rw [hkey]; rfl), hkey]
  have hivLength : (aesBswapWords iv).length = aesBlockLen := by
    rw [length_aesBswapWords (by rw [hiv]; rfl), hiv]
  have hinputLength := length_aesBswapWords (hwords plaintext hblocks)
  have hload := hlaws.loadKey _ _ hkeyLength hivLength
  obtain ⟨output, hencrypt, hlength, hdecrypt⟩ :=
    hlaws.encrypt _ _ _ hkeyLength hivLength (by rw [hinputLength]; exact hblocks)
  rw [hinputLength] at hlength
  have houtput := hwords output (by rw [hlength]; exact hblocks)
  have hgood : ¬(plaintext.length = 0 ∨ aesMaxCbcLen < plaintext.length ∨
      plaintext.length % aesBlockLen ≠ 0) := by
    rintro (hzero | hlong | hodd)
    · exact hsome hzero
    · omega
    · exact hodd hblocks
  have hcipherLength : (aesBswapWords output).length = plaintext.length := by
    rw [length_aesBswapWords houtput, hlength]
  refine ⟨aesBswapWords output, ?_, hcipherLength, ?_⟩
  · rw [aes256CbcEncrypt, aes256CbcCrypt, if_neg hgood, if_pos hload, if_neg Bool.false_ne_true,
      hencrypt, Option.map_some]
  · rw [aes256CbcDecrypt, aes256CbcCrypt, hcipherLength, if_neg hgood, if_pos hload, if_pos rfl,
      aesBswapWords_aesBswapWords houtput, hdecrypt, Option.map_some,
      aesBswapWords_aesBswapWords (hwords plaintext hblocks)]

end RoundTrip

end ZeroFido.Aes
