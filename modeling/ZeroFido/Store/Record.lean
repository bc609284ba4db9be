import ZeroFido.Crypto
import ZeroFido.Storage.AtomicFile

/-!
# Credential records and their files

A credential is a record, kept in a file named by the lowercase hexadecimal credential id, and a
counter floor, kept in a companion `.counter` file. Both files are replaced atomically, so each has
a temporary file and a backup beside it.

The names of different records, and the different files of one record, never meet, because record
names all have the same length (`recordName_append_inj`).
-/

set_option autoImplicit false
set_option relaxedAutoImplicit false

namespace ZeroFido.Store

open Foundations Storage

section Types

def hmacSecretLen : ℕ := 32
def storeFormatVersion : ℕ := 1
def storeRecordMaxSize : ℕ := 800
def credProtectUvOptional : ℕ := 1
def credProtectUvRequired : ℕ := 3

/-- `UINT32_MAX`. -/
def uint32Max : ℕ := 2 ^ 32 - 1

/-- `ZfCredentialRecord`. Text fields are the bytes of the C string, identifiers and keys the bytes
of their arrays. -/
structure CredentialRecord where
  inUse : Bool := false
  residentKey : Bool := false
  fileName : Path := []
  storageVersion : ℕ := 0
  credentialId : Bytes := zeroBytes credentialIdLen
  rpId : Bytes := []
  userId : Bytes := []
  userName : Bytes := []
  userDisplayName : Bytes := []
  publicX : Bytes := zeroBytes publicKeyLen
  publicY : Bytes := zeroBytes publicKeyLen
  privateWrapped : Bytes := zeroBytes privateKeyLen
  privateIv : Bytes := zeroBytes wrapIvLen
  signCount : ℕ := 0
  createdAt : ℕ := 0
  credProtect : ℕ := 0
  hmacSecret : Bool := false
  hmacSecretWithoutUv : Bytes := zeroBytes hmacSecretLen
  hmacSecretWithUv : Bytes := zeroBytes hmacSecretLen
  deriving DecidableEq, Repr

/-- `ZfCredentialIndexEntry`, with the hash of the RP ID as in the production build. -/
structure CredentialIndexEntry where
  inUse : Bool
  residentKey : Bool
  credentialId : Bytes
  rpIdHash : Bytes
  signCount : ℕ
  counterHighWater : ℕ
  createdAt : ℕ
  credProtect : ℕ
  deriving DecidableEq, Repr

/-- `zf_ctap_cred_protect_effective`. -/
def credProtectEffective (credProtect : ℕ) : ℕ :=
  if credProtect = 0 then credProtectUvOptional else credProtect

/-- `zf_ctap_cred_protect_value_is_valid`. -/
def credProtectValueIsValid (credProtect : ℕ) : Bool :=
  credProtectUvOptional ≤ credProtect && credProtect ≤ credProtectUvRequired

end Types

section Names

/-- The digits of `zf_store_record_format_hex_encode`. -/
def hexDigits : List Char := "0123456789abcdef".toList

def hexDigit (value : ℕ) : Char := hexDigits.getD value '0'

/-- `zf_store_record_format_hex_encode`. -/
def hexEncode (data : Bytes) : Path :=
  data.flatMap fun byte ↦ [hexDigit (byte.toNat / 16), hexDigit (byte.toNat % 16)]

/-- `zf_store_record_format_is_record_name`. -/
def isRecordName (name : Path) : Bool :=
  name.length == credentialIdLen * 2 &&
    name.all fun ch ↦ ('0' ≤ ch && ch ≤ '9') || ('a' ≤ ch && ch ≤ 'f')

/-- `zf_storage_build_child_path` of the data directory, for a name that fits. -/
def childPath (name : Path) : Path := appDataDir ++ '/' :: name

/-- `zf_store_build_record_path`. -/
def recordPath (fileName : Path) : Path := childPath fileName

/-- `zf_store_build_temp_path`. -/
def tempPath (fileName : Path) : Path := childPath (fileName ++ ".tmp".toList)

/-- `zf_store_build_counter_floor_path`. -/
def counterFloorPath (fileName : Path) : Path := childPath (fileName ++ ".counter".toList)

/-- `zf_store_build_counter_floor_temp_path`. -/
def counterFloorTempPath (fileName : Path) : Path :=
  childPath (fileName ++ ".counter.tmp".toList)

/-- `zf_store_has_suffix`. -/
def hasSuffix (value suffix : Path) : Bool := suffix.isSuffixOf value

theorem length_of_isRecordName {name : Path} (h : isRecordName name = true) : name.length = 64 := by
  unfold isRecordName at h
  simp only [Bool.and_eq_true, beq_iff_eq] at h
  exact h.1

theorem length_hexEncode (data : Bytes) : (hexEncode data).length = 2 * data.length := by
  induction data with
  | nil => rfl
  | cons byte data ih =>
    change (hexEncode data).length + 2 = 2 * (data.length + 1)
    omega

theorem isRecordName_hexEncode {credentialId : Bytes} (h : credentialId.length = credentialIdLen) :
    isRecordName (hexEncode credentialId) = true := by
  have hdigit : ∀ value < 16, (('0' ≤ hexDigit value && hexDigit value ≤ '9') ||
      ('a' ≤ hexDigit value && hexDigit value ≤ 'f')) = true := by decide
  unfold isRecordName
  rw [Bool.and_eq_true, beq_iff_eq, length_hexEncode, h, List.all_eq_true]
  refine ⟨rfl, fun ch hch ↦ ?_⟩
  obtain ⟨byte, -, hbyte⟩ := List.mem_flatMap.mp hch
  have hbound : byte.toNat < 256 := byte.toNat_lt
  simp only [List.mem_cons, List.not_mem_nil, or_false] at hbyte
  obtain rfl | rfl := hbyte
  · exact hdigit _ (by omega)
  · exact hdigit _ (by omega)

theorem hexEncode_injective {first second : Bytes} (h : hexEncode first = hexEncode second) :
    first = second := by
  have hdigit : ∀ a < 16, ∀ b < 16, hexDigit a = hexDigit b → a = b := by decide
  induction first generalizing second with
  | nil =>
    cases second with
    | nil => rfl
    | cons byte second => exact absurd h (by simp [hexEncode])
  | cons byte first ih =>
    cases second with
    | nil => exact absurd h (by simp [hexEncode])
    | cons other second =>
      have hcons : hexDigit (byte.toNat / 16) :: hexDigit (byte.toNat % 16) :: hexEncode first =
          hexDigit (other.toNat / 16) :: hexDigit (other.toNat % 16) :: hexEncode second := h
      simp only [List.cons.injEq] at hcons
      have hbyte : byte.toNat < 256 := byte.toNat_lt
      have hother : other.toNat < 256 := other.toNat_lt
      have hhigh := hdigit _ (by omega) _ (by omega) hcons.1
      have hlow := hdigit _ (by omega) _ (by omega) hcons.2.1
      rw [ih hcons.2.2, UInt8.toNat_inj.mp (show byte.toNat = other.toNat by omega)]

theorem childPath_injective {name other : Path} (h : childPath name = childPath other) :
    name = other := by
  have := List.append_cancel_left h
  exact (List.cons.inj this).2

/-- Two files in the data directory named after records are the same file only if they are the same
file of the same record. -/
theorem recordName_append_inj {name other suffix suffix' : Path} (hname : isRecordName name = true)
    (hother : isRecordName other = true)
    (h : childPath (name ++ suffix) = childPath (other ++ suffix')) :
    name = other ∧ suffix = suffix' :=
  List.append_inj (childPath_injective h)
    ((length_of_isRecordName hname).trans (length_of_isRecordName hother).symm)

end Names

end ZeroFido.Store
