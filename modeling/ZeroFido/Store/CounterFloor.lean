import ZeroFido.Store.Record

/-!
# The counter floor

The 52 bytes that bind a sign count to a credential: a version, an initialisation vector, and the
count with a digest of the credential's id and creation time, sealed by the enclave. They are the
contents of a `.counter` file and are also embedded in every record.

`counterFloorValue` is what the bytes say when the enclave works, and `CounterFloor` that they say
it. Sealed bytes say what was sealed (`counterFloor_encode`).
-/

set_option autoImplicit false
set_option relaxedAutoImplicit false

namespace ZeroFido.Store

open Foundations Storage

/-- What the enclave and the hash are relied on for: opening undoes sealing, a sealed buffer has the
size of the plain one, and a digest has 32 bytes. -/
structure SealLaws (crypto : Crypto) : Prop where
  open_seal : ∀ iv plaintext, crypto.enclaveDecrypt iv (crypto.enclaveEncrypt iv plaintext) = plaintext
  length_seal : ∀ iv plaintext, (crypto.enclaveEncrypt iv plaintext).length = plaintext.length
  length_sha256 : ∀ data, (crypto.sha256 data).length = 32

theorem sealLaws_standIn : SealLaws Crypto.standIn := by
  refine ⟨fun _ _ ↦ rfl, fun _ _ ↦ rfl, fun data ↦ ?_⟩
  simp [Crypto.standIn]

section Format

def counterFloorMagic : ℕ := 0x53434632
def counterFloorVersion : ℕ := 1
def counterFloorBindingLen : ℕ := 24
def counterFloorSealSize : ℕ := 8 + counterFloorBindingLen

/-- `sizeof(ZfCounterFloorFile)`. -/
def counterFloorFileSize : ℕ := 4 + wrapIvLen + counterFloorSealSize

/-- `ZfCounterFloorSeal`. -/
structure CounterFloorSeal where
  magic : ℕ
  signCount : ℕ
  binding : Bytes
  deriving DecidableEq, Repr

def CounterFloorSeal.encode (plain : CounterFloorSeal) : Bytes :=
  toLittleEndian 4 plain.magic ++ toLittleEndian 4 plain.signCount ++ plain.binding

def CounterFloorSeal.decode (raw : Bytes) : CounterFloorSeal where
  magic := ofLittleEndian (raw.take 4)
  signCount := ofLittleEndian ((raw.drop 4).take 4)
  binding := (raw.drop 8).take counterFloorBindingLen

/-- `ZfCounterFloorFile`. -/
structure CounterFloorFile where
  version : ℕ
  iv : Bytes
  sealed : Bytes
  deriving DecidableEq, Repr

def CounterFloorFile.encode (file : CounterFloorFile) : Bytes :=
  toLittleEndian 4 file.version ++ file.iv ++ file.sealed

def CounterFloorFile.decode (raw : Bytes) : CounterFloorFile where
  version := ofLittleEndian (raw.take 4)
  iv := (raw.drop 4).take wrapIvLen
  sealed := (raw.drop (4 + wrapIvLen)).take counterFloorSealSize

theorem CounterFloorSeal.length_encode {plain : CounterFloorSeal}
    (hbinding : plain.binding.length = counterFloorBindingLen) :
    plain.encode.length = counterFloorSealSize := by
  simp only [CounterFloorSeal.encode, List.length_append, length_toLittleEndian, hbinding]
  rfl

theorem CounterFloorSeal.decode_encode (plain : CounterFloorSeal)
    (hmagic : plain.magic ≤ uint32Max) (hcount : plain.signCount ≤ uint32Max)
    (hbinding : plain.binding.length = counterFloorBindingLen) :
    CounterFloorSeal.decode plain.encode = plain := by
  have hword (value : ℕ) (hvalue : value ≤ uint32Max) :
      ofLittleEndian (toLittleEndian 4 value) = value := by
    refine ofLittleEndian_toLittleEndian 4 value ?_
    unfold uint32Max at hvalue
    omega
  have hcount' : (plain.encode.drop 4).take 4 = toLittleEndian 4 plain.signCount := by
    rw [CounterFloorSeal.encode, List.append_assoc, List.drop_left' (by simp),
      List.take_left' (by simp)]
  have hbinding' : (plain.encode.drop 8).take counterFloorBindingLen = plain.binding := by
    rw [CounterFloorSeal.encode, List.drop_left' (by simp), List.take_of_length_le (by omega)]
  rw [CounterFloorSeal.decode, hcount', hbinding', hword _ hcount]
  rw [CounterFloorSeal.encode, List.append_assoc, List.take_left' (by simp), hword _ hmagic]

theorem CounterFloorFile.decode_encode (file : CounterFloorFile)
    (hversion : file.version ≤ uint32Max) (hiv : file.iv.length = wrapIvLen)
    (hsealed : file.sealed.length = counterFloorSealSize) :
    CounterFloorFile.decode file.encode = file := by
  have hiv' : (file.encode.drop 4).take wrapIvLen = file.iv := by
    rw [CounterFloorFile.encode, List.append_assoc, List.drop_left' (by simp),
      List.take_left' hiv]
  have hsealed' : (file.encode.drop (4 + wrapIvLen)).take counterFloorSealSize = file.sealed := by
    rw [CounterFloorFile.encode, List.drop_left' (by simp [hiv]),
      List.take_of_length_le (by omega)]
  rw [CounterFloorFile.decode, hiv', hsealed', CounterFloorFile.encode, List.append_assoc,
    List.take_left' (by simp), ofLittleEndian_toLittleEndian 4 _ (by unfold uint32Max at *; omega)]

end Format

section Operations

variable {Event : Type} (crypto : Crypto)

/-- `zf_record_compute_counter_binding_fields`. -/
def counterBinding (credentialId : Bytes) (createdAt : ℕ) : Bytes :=
  (crypto.sha256 (credentialId ++ toLittleEndian 4 createdAt)).take counterFloorBindingLen

/-- The seal of a count. -/
def counterFloorSeal (credentialId : Bytes) (createdAt signCount : ℕ) : CounterFloorSeal where
  magic := counterFloorMagic
  signCount := signCount
  binding := counterBinding crypto credentialId createdAt

/-- A counter floor with the sealed bytes. -/
def counterFloorFile (iv sealed : Bytes) : CounterFloorFile where
  version := counterFloorVersion
  iv := iv
  sealed := sealed

/-- `zf_counter_reserved_high_water`. -/
def counterReservedHighWater (signCount : ℕ) : ℕ :=
  if uint32Max - signCount < counterReservationWindow then uint32Max
  else signCount + counterReservationWindow

/-- `zf_counter_floor_encode_fields`. -/
def counterFloorEncodeFields (credentialId : Bytes) (createdAt signCount : ℕ) :
    Program (World Event) (Option Bytes) := do
  let plain := counterFloorSeal crypto credentialId createdAt signCount
  let iv ← randomFill wrapIvLen
  match ← crypto.enclaveSeal iv plain.encode with
  | none => return none
  | some sealed => return some (counterFloorFile iv sealed).encode

/-- The checks of `zf_counter_floor_decode_fields` on the opened seal. -/
def counterFloorCheck (credentialId : Bytes) (createdAt : ℕ) (plain : CounterFloorSeal) :
    Option ℕ :=
  if plain.magic ≠ counterFloorMagic then none
  else if constantTimeEqual plain.binding (counterBinding crypto credentialId createdAt)
      counterFloorBindingLen then
    some plain.signCount
  else none

/-- `zf_counter_floor_decode_fields`. -/
def counterFloorDecodeFields (credentialId : Bytes) (createdAt : ℕ) (raw : Bytes) :
    Program (World Event) (Option ℕ) := do
  let file := CounterFloorFile.decode raw
  if file.version ≠ counterFloorVersion then
    return none
  match ← crypto.enclaveOpen file.iv file.sealed with
  | none => return none
  | some plain =>
    return counterFloorCheck crypto credentialId createdAt (CounterFloorSeal.decode plain)

/-- What the bytes of a counter floor say when the enclave works. -/
def counterFloorValue (credentialId : Bytes) (createdAt : ℕ) (raw : Bytes) : Option ℕ :=
  let file := CounterFloorFile.decode raw
  if file.version ≠ counterFloorVersion then none
  else counterFloorCheck crypto credentialId createdAt
    (CounterFloorSeal.decode (crypto.enclaveDecrypt file.iv file.sealed))

/-- The bytes are a complete counter floor with the sign count. -/
structure CounterFloor (credentialId : Bytes) (createdAt : ℕ) (raw : Bytes) (signCount : ℕ) :
    Prop where
  length : raw.length = counterFloorFileSize
  value : counterFloorValue crypto credentialId createdAt raw = some signCount

variable {crypto} {world : World Event} {credentialId raw : Bytes} {createdAt : ℕ}

/-- The bytes that sealing gives say what was sealed. -/
theorem counterFloor_encode (hlaws : SealLaws crypto) {signCount : ℕ} {iv : Bytes}
    (hcount : signCount ≤ uint32Max) (hiv : iv.length = wrapIvLen) :
    CounterFloor crypto credentialId createdAt
      (counterFloorFile iv (crypto.enclaveEncrypt iv
        (counterFloorSeal crypto credentialId createdAt signCount).encode)).encode
      signCount := by
  have hbinding : (counterBinding crypto credentialId createdAt).length =
      counterFloorBindingLen := by
    rw [counterBinding, List.length_take, hlaws.length_sha256]
    rfl
  have hplain : CounterFloorSeal.decode
      (counterFloorSeal crypto credentialId createdAt signCount).encode =
        counterFloorSeal crypto credentialId createdAt signCount :=
    CounterFloorSeal.decode_encode _ (show counterFloorMagic ≤ uint32Max by decide) hcount hbinding
  have hsealed : (crypto.enclaveEncrypt iv
      (counterFloorSeal crypto credentialId createdAt signCount).encode).length =
        counterFloorSealSize :=
    (hlaws.length_seal iv _).trans (CounterFloorSeal.length_encode hbinding)
  have hfile := CounterFloorFile.decode_encode (counterFloorFile iv (crypto.enclaveEncrypt iv
    (counterFloorSeal crypto credentialId createdAt signCount).encode))
    (show counterFloorVersion ≤ uint32Max by decide) hiv hsealed
  constructor
  · simp only [CounterFloorFile.encode, counterFloorFile, List.length_append,
      length_toLittleEndian, hiv, hsealed]
    rfl
  · rw [counterFloorValue, hfile]
    simp only [counterFloorFile, ne_eq, not_true_eq_false, if_false, hlaws.open_seal, hplain]
    simp [counterFloorCheck, counterFloorSeal, constantTimeEqual]

/-- Sealing a count gives bytes that say it, and leaves the files alone. -/
theorem ensures_counterFloorEncodeFields (hlaws : SealLaws crypto) {signCount : ℕ}
    {post : Option Bytes → World Event → Prop} {crash : World Event → Prop}
    (h : ∀ result world', Idle world world' → (result = none → world.enclave ≠ []) →
      (∀ raw, result = some raw → raw ≠ [] ∧
        (signCount ≤ uint32Max → CounterFloor crypto credentialId createdAt raw signCount)) →
      post result world') :
    Ensures (counterFloorEncodeFields crypto credentialId createdAt signCount) post crash world := by
  simp only [counterFloorEncodeFields, ensures_bind]
  refine ensures_randomFill fun iv middle hidle hiv ↦ ?_
  refine Crypto.ensures_enclaveSeal fun result world' hidle' hnone hsealed ↦ ?_
  have hfailed : result = none → world.enclave ≠ [] :=
    fun hresult ↦ hidle.enclave_ne_nil (hnone hresult)
  cases result with
  | none => exact h none world' (hidle.trans hidle') hfailed (by simp)
  | some sealed =>
    refine h _ world' (hidle.trans hidle') (by simp) fun raw hraw ↦ ⟨?_, fun hcount ↦ ?_⟩
    · rw [← Option.some.inj hraw]
      simp [CounterFloorFile.encode, toLittleEndian]
    · rw [← Option.some.inj hraw, hsealed sealed rfl]
      exact counterFloor_encode hlaws hcount hiv

/-- Reading a counter floor gives what its bytes say, unless the enclave fails. -/
theorem ensures_counterFloorDecodeFields {post : Option ℕ → World Event → Prop}
    {crash : World Event → Prop}
    (h : ∀ result world', Idle world world' →
      (result = counterFloorValue crypto credentialId createdAt raw ∨
        result = none ∧ world.enclave ≠ []) → post result world') :
    Ensures (counterFloorDecodeFields crypto credentialId createdAt raw) post crash world := by
  simp only [counterFloorDecodeFields, ensures_bind, ensures_ite, ensures_pure]
  refine ⟨fun hversion ↦ ?_, fun hversion ↦ ?_⟩
  · refine h none world (Idle.refl world) (Or.inl ?_)
    simp only [counterFloorValue, hversion, ne_eq, not_false_eq_true, if_true]
  · refine Crypto.ensures_enclaveOpen fun result world' hidle hnone hopened ↦ ?_
    cases result with
    | none => exact h none world' hidle (Or.inr ⟨rfl, hnone rfl⟩)
    | some plain =>
      refine h _ world' hidle (Or.inl ?_)
      rw [hopened plain rfl]
      simp only [counterFloorValue, hversion, if_false]

end Operations

end ZeroFido.Store
