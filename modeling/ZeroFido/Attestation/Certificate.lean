import ZeroFido.Crypto.EcdsaDer
import ZeroFido.Memory

/-!
# Local attestation certificates

The part of `attestation/local.c` that builds a self-signed certificate in DER and that takes the
public key out of one. The writer appends to a buffer of limited capacity, and puts the tag and the
length in front of what it holds by moving it; the reader walks over the elements of the
certificate.
-/

set_option autoImplicit false
set_option relaxedAutoImplicit false

namespace ZeroFido.Attestation

open Cbor Crypto

section Writer

def ecPointSize : ℕ := 65
def tbsMaxSize : ℕ := 512
def signatureMaxSize : ℕ := 80
def bitStringMaxSize : ℕ := signatureMaxSize + 1
def spkiMaxSize : ℕ := 128

/-- `ZfDerBuffer`, with the memory from `data` on. -/
structure DerBuffer where
  data : ℕ → UInt8
  len : ℕ
  capacity : ℕ

/-- What has been written to the buffer. -/
def DerBuffer.written (buffer : DerBuffer) : Bytes := readMemory buffer.data 0 buffer.len

/-- `zf_der_append`. -/
def derAppend (buffer : DerBuffer) (data : Bytes) : Option DerBuffer :=
  if buffer.capacity < buffer.len ∨ buffer.capacity - buffer.len < data.length then none
  else
    some { buffer with
      data := memcpy buffer.data buffer.len data
      len := buffer.len + data.length }

/-- `zf_der_length_size`. -/
def derLengthSize (valueLen : ℕ) : ℕ :=
  if valueLen < 0x80 then 1
  else if valueLen ≤ 0xFF then 2
  else 3

/-- The bytes that `zf_der_append_length` and `zf_der_write_length` write. -/
def derLengthBytes (valueLen : ℕ) : Bytes :=
  if derLengthSize valueLen = 1 then [UInt8.ofNat valueLen]
  else if derLengthSize valueLen = 2 then [0x81, UInt8.ofNat valueLen]
  else [0x82, UInt8.ofNat (valueLen >>> 8), UInt8.ofNat valueLen]

/-- `zf_der_append_length`. -/
def derAppendLength (buffer : DerBuffer) (valueLen : ℕ) : Option DerBuffer :=
  derAppend buffer (derLengthBytes valueLen)

/-- `zf_der_wrap_tlv_in_place`. -/
def derWrapTlvInPlace (buffer : DerBuffer) (tag : UInt8) : Option DerBuffer :=
  let headerLen := 1 + derLengthSize buffer.len
  if buffer.capacity < buffer.len then none
  else if buffer.capacity < headerLen ∨ buffer.capacity - headerLen < buffer.len then none
  else
    let moved := memmove buffer.data headerLen 0 buffer.len
    let tagged := memcpy moved 0 [tag]
    some { buffer with
      data := memcpy tagged 1 (derLengthBytes buffer.len)
      len := buffer.len + headerLen }

/-- `zf_der_append_tlv`. -/
def derAppendTlv (buffer : DerBuffer) (tag : UInt8) (value : Bytes) : Option DerBuffer := do
  let buffer ← derAppend buffer [tag]
  let buffer ← derAppendLength buffer value.length
  derAppend buffer value

/-- The bytes that `zf_der_append_integer` encodes a number in. -/
def encodedInteger (value : Bytes) : Bytes :=
  let digits := stripZeros value
  if digits.getD 0 0 &&& 0x80 ≠ 0 then 0 :: digits else digits

/-- `zf_der_append_integer`. -/
def derAppendInteger (buffer : DerBuffer) (value : Bytes) : Option DerBuffer :=
  if value.length = 0 ∨ privateKeyLen < value.length then none
  else derAppendTlv buffer 0x02 (encodedInteger value)

/-- `zf_der_append_bit_string`. The scratch holds the value behind the number of unused bits. -/
def derAppendBitString (buffer : DerBuffer) (value : Bytes) (scratchCapacity : ℕ) :
    Option DerBuffer :=
  if scratchCapacity = 0 ∨ scratchCapacity - 1 < value.length then none
  else derAppendTlv buffer 0x03 (0 :: value)

end Writer

section Reader

/-- `zf_der_parse_length`, which is `zf_der_decode_length` again. -/
def derParseLength (input : Bytes) : Option (ℕ × ℕ) := derDecodeLength input

/-- `zf_der_read_element`: the value, and how long the element is. -/
def derReadElement (input : Bytes) (expectedTag : UInt8) : Option (Bytes × ℕ) :=
  if input.head? ≠ some expectedTag then none
  else
    match derParseLength input with
    | none => none
    | some (headerLen, valueLen) =>
      if sizeMax - headerLen < valueLen then none
      else some ((input.drop headerLen).take valueLen, headerLen + valueLen)

/-- Reads the element at an offset: the value, and the offset behind it. -/
def readElementAt (input : Bytes) (offset : ℕ) (tag : UInt8) : Option (Bytes × ℕ) :=
  (derReadElement (input.drop offset) tag).map fun element ↦ (element.1, offset + element.2)

/-- Skips the element at an offset when the condition holds. -/
def skipElementIf (condition : Bool) (input : Bytes) (offset : ℕ) (tag : UInt8) : Option ℕ :=
  if condition then (readElementAt input offset tag).map Prod.snd else some offset

/-- The walk over the elements of a TBSCertificate: the subjectPublicKeyInfo. -/
def tbsPublicKeyInfo (tbs : Bytes) : Option Bytes := do
  let offset ← skipElementIf (tbs.head? == some 0xA0) tbs 0 0xA0
  let offset ← [0x02, 0x30, 0x30, 0x30, 0x30].foldlM
    (fun offset tag ↦ skipElementIf true tbs offset tag) offset
  let (spki, offset) ← readElementAt tbs offset 0x30
  let offset ← skipElementIf (decide (offset < tbs.length)) tbs offset 0xA3
  if offset ≠ tbs.length then none else some spki

/-- The point in a subjectPublicKeyInfo. -/
def publicKeyInfoPoint (spki : Bytes) : Option Bytes := do
  let (_, offset) ← readElementAt spki 0 0x30
  let (bitString, offset) ← readElementAt spki offset 0x03
  if offset ≠ spki.length ∨ bitString.length ≠ ecPointSize + 1 ∨ bitString.getD 0 0 ≠ 0x00 ∨
      bitString.getD 1 0 ≠ 0x04 then none
  else some ((bitString.drop 1).take ecPointSize)

/-- The TBSCertificate in the value of a certificate, which has to be taken up by its three
elements. -/
def certificateTbs (certificate : Bytes) : Option Bytes := do
  let (tbs, offset) ← readElementAt certificate 0 0x30
  let (_, offset) ← readElementAt certificate offset 0x30
  let (_, offset) ← readElementAt certificate offset 0x03
  if offset ≠ certificate.length then none else some tbs

/-- `zf_local_attestation_extract_cert_public_key`. -/
def extractCertPublicKey (cert : Bytes) : Option Bytes :=
  match derReadElement cert 0x30 with
  | none => none
  | some (certificate, elementLen) =>
    if elementLen ≠ cert.length then none
    else do
      let tbs ← certificateTbs certificate
      let spki ← tbsPublicKeyInfo tbs
      publicKeyInfoPoint spki

end Reader

section Builder

/-- `ZfLocalAttestationProfile`, but for the identity that the check of a certificate looks for. -/
structure LocalAttestationProfile where
  dataDir : Option String
  assetsDir : Option String
  certFile : Option String
  certTempFile : Option String
  keyFile : Option String
  keyTempFile : Option String
  keyFileType : Option String
  subjectDer : Option Bytes
  extensionsDer : Option Bytes

/-- `zf_profile_is_valid`. -/
def LocalAttestationProfile.isValid (profile : LocalAttestationProfile) : Bool :=
  profile.dataDir.isSome && profile.assetsDir.isSome && profile.certFile.isSome &&
    profile.certTempFile.isSome && profile.keyFile.isSome && profile.keyTempFile.isSome &&
    profile.keyFileType.isSome && profile.subjectDer.any (!·.isEmpty) &&
    profile.extensionsDer.any (!·.isEmpty)

/-- `u2f_generated_attestation_subject`. -/
def u2fGeneratedAttestationSubject : Bytes :=
  [0x30, 0x49, 0x31, 0x0B, 0x30, 0x09, 0x06, 0x03, 0x55, 0x04, 0x06, 0x13, 0x02] ++
    "BG".toUTF8.toList ++
    [0x31, 0x11, 0x30, 0x0F, 0x06, 0x03, 0x55, 0x04, 0x0A, 0x0C, 0x08] ++
    "ZeroFIDO".toUTF8.toList ++
    [0x31, 0x27, 0x30, 0x25, 0x06, 0x03, 0x55, 0x04, 0x03, 0x0C, 0x1E] ++
    "ZeroFIDO Local U2F Attestation".toUTF8.toList

/-- `u2f_generated_attestation_extensions`. -/
def u2fGeneratedAttestationExtensions : Bytes :=
  [0x30, 0x33, 0x30, 0x0C, 0x06, 0x03, 0x55, 0x1D, 0x13, 0x01, 0x01, 0xFF, 0x04, 0x02,
    0x30, 0x00, 0x30, 0x0E, 0x06, 0x03, 0x55, 0x1D, 0x0F, 0x01, 0x01, 0xFF, 0x04, 0x04,
    0x03, 0x02, 0x07, 0x80, 0x30, 0x13, 0x06, 0x0B, 0x2B, 0x06, 0x01, 0x04, 0x01, 0x82,
    0xE5, 0x1C, 0x02, 0x01, 0x01, 0x04, 0x04, 0x03, 0x02, 0x05, 0x20]

/-- `u2f_generated_attestation_profile`. -/
def u2fGeneratedAttestationProfile : LocalAttestationProfile where
  dataDir := some "/ext/apps_data/zerofido/u2f"
  assetsDir := some "/ext/apps_data/zerofido/u2f/assets"
  certFile := some "/ext/apps_data/zerofido/u2f/assets/cert.der"
  certTempFile := some "/ext/apps_data/zerofido/u2f/assets/cert.der.tmp"
  keyFile := some "/ext/apps_data/zerofido/u2f/assets/cert_key.u2f"
  keyTempFile := some "/ext/apps_data/zerofido/u2f/assets/cert_key.u2f.tmp"
  keyFileType := some "Flipper U2F Certificate Key File"
  subjectDer := some u2fGeneratedAttestationSubject
  extensionsDer := some u2fGeneratedAttestationExtensions

/-- The memory that a certificate is built in. -/
structure LocalAttestationScratch where
  tbs : ℕ → UInt8
  spki : ℕ → UInt8

def version : Bytes := [0x02, 0x01, 0x02]

def ecdsaSha256Alg : Bytes :=
  [0x30, 0x0A, 0x06, 0x08, 0x2A, 0x86, 0x48, 0xCE, 0x3D, 0x04, 0x03, 0x02]

/-- From the start of 2026 to the start of 2036. -/
def validity : Bytes :=
  [0x30, 0x1E, 0x17, 0x0D, 0x32, 0x36, 0x30, 0x31, 0x30, 0x31, 0x30, 0x30, 0x30, 0x30, 0x30, 0x30,
    0x5A, 0x17, 0x0D, 0x33, 0x36, 0x30, 0x31, 0x30, 0x31, 0x30, 0x30, 0x30, 0x30, 0x30, 0x30, 0x5A]

def publicKeyAlg : Bytes :=
  [0x30, 0x13, 0x06, 0x07, 0x2A, 0x86, 0x48, 0xCE, 0x3D, 0x02, 0x01, 0x06, 0x08, 0x2A, 0x86, 0x48,
    0xCE, 0x3D, 0x03, 0x01, 0x07]

/-- The random serial, made positive. -/
def positiveSerial : Bytes → Bytes
  | [] => []
  | first :: rest => (if first &&& 0x7F = 0 then 1 else first &&& 0x7F) :: rest

/-- `zf_build_tbs`, with the 16 random bytes it draws. -/
def buildTbs (profile : LocalAttestationProfile) (publicKey : Bytes)
    (scratch : LocalAttestationScratch) (serial : Bytes) : Option Bytes :=
  if !profile.isValid then none
  else do
    let subject := profile.subjectDer.getD []
    let body ← derAppendTlv ⟨scratch.tbs, 0, tbsMaxSize⟩ 0xA0 version
    let body ← derAppendInteger body (positiveSerial serial)
    let body ← derAppend body ecdsaSha256Alg
    let body ← derAppend body subject
    let body ← derAppend body validity
    let body ← derAppend body subject
    let spki ← derAppend ⟨scratch.spki, 0, spkiMaxSize⟩ publicKeyAlg
    let spki ← derAppendBitString spki publicKey bitStringMaxSize
    let body ← derAppendTlv body 0x30 spki.written
    let body ← derAppendTlv body 0xA3 (profile.extensionsDer.getD [])
    let body ← derWrapTlvInPlace body 0x30
    return body.written

/-- What `zf_build_cert` calls: the hash, and the signature of a hash in a buffer of some capacity.
-/
structure Signer where
  sha256 : Bytes → Bytes
  sign : (privateKey hash : Bytes) → (capacity : ℕ) → Option Bytes

/-- `zf_build_cert`: the `cert_len` bytes of the certificate. -/
def buildCert (signer : Signer) (profile : LocalAttestationProfile) (privateKey publicKey : Bytes)
    (cert : ℕ → UInt8) (certCapacity : ℕ) (scratch : LocalAttestationScratch) (serial : Bytes) :
    Option Bytes := do
  let tbs ← buildTbs profile publicKey scratch serial
  let signature ← signer.sign privateKey (signer.sha256 tbs) signatureMaxSize
  let body ← derAppend ⟨cert, 0, certCapacity⟩ tbs
  let body ← derAppend body ecdsaSha256Alg
  let body ← derAppendBitString body signature bitStringMaxSize
  let body ← derWrapTlvInPlace body 0x30
  return body.written

end Builder

end ZeroFido.Attestation
