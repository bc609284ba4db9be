import ZeroFido.Pin.State
import ZeroFido.Storage.AtomicFile

/-!
# The persisted clientPIN state

`pin/store/state_store.c`: the 88-byte PIN file, its retry seal, and the operations that load,
publish, invalidate and remove it. The record is the packed C structure `ZfPinFileRecord` in memory
order; the retry seal is a second structure encrypted inside it.

Three facts carry the results about retries. A file that was persisted with some retries has no more
for a later load (`atMostRetries_encode`); the invalid record has none
(`storedRetries_invalidRecord`); and every operation here leaves the file logically as it was or as
the operation would have it (`ensures_pinStateStorePersist` and its companions).
-/

set_option autoImplicit false
set_option relaxedAutoImplicit false

namespace ZeroFido.Pin

open Foundations Storage

section Format

def pinFilePath : Path := appDataDir ++ "/client_pin_v2.bin".toList
def pinFileTempPath : Path := appDataDir ++ "/client_pin_v2.tmp".toList
def pinFileMagic : ℕ := 0x50494E31
def pinFileVersion : UInt8 := 1
def pinFileFlagAuthBlocked : UInt8 := 0x01
def pinRetrySealMagic : ℕ := 0x504E5231
def pinRetrySealSize : ℕ := 32

/-- `ZfPinFileRecord`: the base record followed by the sealed retry state. -/
structure PinFileRecord where
  magic : ℕ := 0
  version : UInt8 := 0
  pinRetries : UInt8 := 0
  pinConsecutiveMismatches : UInt8 := 0
  flags : UInt8 := 0
  iv : Bytes := zeroBytes wrapIvLen
  encryptedPinHash : Bytes := zeroBytes pinHashLen
  retrySealIv : Bytes := zeroBytes wrapIvLen
  encryptedRetrySeal : Bytes := zeroBytes pinRetrySealSize
  deriving DecidableEq, Repr

/-- `sizeof(ZfPinFileRecord)`. -/
def pinFileRecordSize : ℕ := 88

/-- The record as it lies in memory. -/
def PinFileRecord.encode (record : PinFileRecord) : Bytes :=
  toLittleEndian 4 record.magic ++ [record.version, record.pinRetries,
    record.pinConsecutiveMismatches, record.flags] ++ record.iv ++ record.encryptedPinHash ++
    record.retrySealIv ++ record.encryptedRetrySeal

/-- A buffer of the record's size read as a record. -/
def PinFileRecord.decode (raw : Bytes) : PinFileRecord where
  magic := ofLittleEndian (raw.take 4)
  version := raw.getD 4 0
  pinRetries := raw.getD 5 0
  pinConsecutiveMismatches := raw.getD 6 0
  flags := raw.getD 7 0
  iv := (raw.drop 8).take wrapIvLen
  encryptedPinHash := (raw.drop 24).take pinHashLen
  retrySealIv := (raw.drop 40).take wrapIvLen
  encryptedRetrySeal := (raw.drop 56).take pinRetrySealSize

/-- `ZfPinRetrySeal`. -/
structure PinRetrySeal where
  magic : ℕ
  pinRetries : UInt8
  pinConsecutiveMismatches : UInt8
  flags : UInt8
  reserved : UInt8 := 0
  digest : Bytes
  deriving DecidableEq, Repr

def PinRetrySeal.encode (plain : PinRetrySeal) : Bytes :=
  toLittleEndian 4 plain.magic ++ [plain.pinRetries, plain.pinConsecutiveMismatches, plain.flags,
    plain.reserved] ++ plain.digest

def PinRetrySeal.decode (raw : Bytes) : PinRetrySeal where
  magic := ofLittleEndian (raw.take 4)
  pinRetries := raw.getD 4 0
  pinConsecutiveMismatches := raw.getD 5 0
  flags := raw.getD 6 0
  reserved := raw.getD 7 0
  digest := (raw.drop 8).take 24

/-- The record `zf_pin_invalidate_persisted_state` writes. -/
def invalidRecord : PinFileRecord := { magic := pinFileMagic, version := 255 }

end Format

section Operations

variable (crypto : Crypto)

/-- `ZfPinLoadStatus`. -/
inductive PinLoadStatus where
  | missing
  | ok
  | invalid
  deriving DecidableEq, Repr

/-- `zf_pin_invalidate_persisted_state`. -/
def pinInvalidatePersistedState : Program Device Bool :=
  createFile pinFilePath invalidRecord.encode

/-- `zf_pin_compute_retry_state_digest`. -/
def pinComputeRetryStateDigest (pinHash : Bytes)
    (pinRetries pinConsecutiveMismatches flags : UInt8) : Bytes :=
  crypto.sha256 (pinHash.take pinHashLen ++ [pinRetries, pinConsecutiveMismatches, flags])

/-- `zf_pin_seal_retry_state`: the initialisation vector and the sealed bytes. -/
def pinSealRetryState (pinHash : Bytes) (pinRetries pinConsecutiveMismatches flags : UInt8) :
    Program Device (Option (Bytes × Bytes)) := do
  let digest := pinComputeRetryStateDigest crypto pinHash pinRetries pinConsecutiveMismatches flags
  let plain : PinRetrySeal :=
    { magic := pinRetrySealMagic, pinRetries, pinConsecutiveMismatches, flags,
      digest := digest.take 24 }
  let iv ← randomFill wrapIvLen
  match ← crypto.enclaveSeal iv plain.encode with
  | none => return none
  | some encrypted => return some (iv, encrypted)

/-- `zf_pin_verify_retry_state`. -/
def pinVerifyRetryState (pinHash : Bytes) (pinRetries pinConsecutiveMismatches flags : UInt8)
    (iv encrypted : Bytes) : Program Device Bool := do
  match ← crypto.enclaveOpen iv encrypted with
  | none => return false
  | some raw =>
    let plain := PinRetrySeal.decode raw
    if plain.magic ≠ pinRetrySealMagic ∨ plain.pinRetries ≠ pinRetries ∨
        plain.pinConsecutiveMismatches ≠ pinConsecutiveMismatches ∨ plain.flags ≠ flags ∨
        plain.reserved ≠ 0 then
      return false
    let digest :=
      pinComputeRetryStateDigest crypto pinHash pinRetries pinConsecutiveMismatches flags
    return constantTimeEqual plain.digest digest 24

/-- `zf_pin_state_store_cleanup_temp`. -/
def pinStateStoreCleanupTemp : Program Device Unit := do
  let _ ← recoverAtomicFile pinFilePath pinFileTempPath

/-- The checks of `zf_pin_state_store_load` on the plain fields of the record. -/
def PinFileRecord.headerValid (record : PinFileRecord) : Bool :=
  record.magic == pinFileMagic && record.version == pinFileVersion &&
    decide (record.pinRetries.toNat ≤ pinRetriesMax) &&
    decide (record.pinConsecutiveMismatches.toNat ≤ 3) &&
    record.flags &&& ~~~pinFileFlagAuthBlocked == 0

/-- `zf_pin_state_store_load`. The C function writes through pointers into `state`, and has written
the retry fields by the time the enclave may still reject the file. -/
def pinStateStoreLoad (state : ClientPinState) :
    Program Device (PinLoadStatus × ClientPinState) := do
  match ← readFile pinFilePath pinFileRecordSize with
  | none =>
    if ← fileExists pinFilePath then
      return (.invalid, state)
    return (.missing, state)
  | some raw =>
    if raw.length ≠ pinFileRecordSize then
      return (.invalid, state)
    let record := PinFileRecord.decode raw
    if !record.headerValid then
      return (.invalid, state)
    let state := { state with
      pinRetries := record.pinRetries.toNat
      pinConsecutiveMismatches := record.pinConsecutiveMismatches.toNat
      pinAuthBlocked := record.flags &&& pinFileFlagAuthBlocked != 0 }
    match ← crypto.enclaveOpen record.iv record.encryptedPinHash with
    | none => return (.invalid, state)
    | some pinHash =>
      let state := { state with pinHash }
      if !(← pinVerifyRetryState crypto pinHash record.pinRetries record.pinConsecutiveMismatches
          record.flags record.retrySealIv record.encryptedRetrySeal) then
        return (.invalid, state)
      return (.ok, state)

/-- `zf_pin_state_store_persist`; a state without a PIN has nothing to persist. -/
def pinStateStorePersist (state : ClientPinState) : Program Device Bool := do
  if !state.pinSet then
    return true
  if !(← ensureAppDataDir) then
    return false
  let pinRetries := UInt8.ofNat state.pinRetries
  let pinConsecutiveMismatches := UInt8.ofNat state.pinConsecutiveMismatches
  let flags := if state.pinAuthBlocked then pinFileFlagAuthBlocked else 0
  let iv ← randomFill wrapIvLen
  match ← crypto.enclaveSeal iv (state.pinHash.take pinHashLen) with
  | none => return false
  | some encryptedPinHash =>
    match ← pinSealRetryState crypto state.pinHash pinRetries pinConsecutiveMismatches flags with
    | none => return false
    | some (retrySealIv, encryptedRetrySeal) =>
      let record : PinFileRecord :=
        { magic := pinFileMagic, version := pinFileVersion, pinRetries, pinConsecutiveMismatches,
          flags, iv, encryptedPinHash, retrySealIv, encryptedRetrySeal }
      writeFileAtomic pinFilePath pinFileTempPath record.encode

/-- `zf_pin_state_store_fail_closed`. -/
def pinStateStoreFailClosed (state : ClientPinState) : Program Device Bool := do
  if !state.pinSet then
    return true
  if ← pinInvalidatePersistedState then
    return true
  removeAtomicFile pinFilePath pinFileTempPath

/-- `zf_pin_state_store_clear`. -/
def pinStateStoreClear : Program Device Bool :=
  removeAtomicFile pinFilePath pinFileTempPath

/-- The flags byte of a state. -/
def ClientPinState.fileFlags (state : ClientPinState) : UInt8 :=
  if state.pinAuthBlocked then pinFileFlagAuthBlocked else 0

/-- The retry seal of a state. -/
def retrySealOf (state : ClientPinState) : PinRetrySeal where
  magic := pinRetrySealMagic
  pinRetries := UInt8.ofNat state.pinRetries
  pinConsecutiveMismatches := UInt8.ofNat state.pinConsecutiveMismatches
  flags := state.fileFlags
  digest := (pinComputeRetryStateDigest crypto state.pinHash (UInt8.ofNat state.pinRetries)
    (UInt8.ofNat state.pinConsecutiveMismatches) state.fileFlags).take 24

/-- The record of a state under two initialisation vectors. -/
def fileRecordOf (state : ClientPinState) (iv sealIv : Bytes) : PinFileRecord where
  magic := pinFileMagic
  version := pinFileVersion
  pinRetries := UInt8.ofNat state.pinRetries
  pinConsecutiveMismatches := UInt8.ofNat state.pinConsecutiveMismatches
  flags := state.fileFlags
  iv := iv
  encryptedPinHash := crypto.enclaveEncrypt iv (state.pinHash.take pinHashLen)
  retrySealIv := sealIv
  encryptedRetrySeal := crypto.enclaveEncrypt sealIv (retrySealOf crypto state).encode

end Operations

section Retries

/-- The retry count a load takes from a file's contents, when the plain fields are valid. -/
def storedRetries (raw : Bytes) : Option ℕ :=
  if raw.length = pinFileRecordSize ∧ (PinFileRecord.decode raw).headerValid then
    some (PinFileRecord.decode raw).pinRetries.toNat
  else
    none

/-- No load of these contents yields more than `bound` retries. -/
def AtMostRetries (bound : ℕ) (raw : Bytes) : Prop :=
  ∀ retries, storedRetries raw = some retries → retries ≤ bound

theorem decode_encode_pinRetries (record : PinFileRecord) :
    (PinFileRecord.decode record.encode).pinRetries = record.pinRetries := by
  simp [PinFileRecord.decode, PinFileRecord.encode, toLittleEndian]

theorem decode_encode_version (record : PinFileRecord) :
    (PinFileRecord.decode record.encode).version = record.version := by
  simp [PinFileRecord.decode, PinFileRecord.encode, toLittleEndian]

theorem encode_ne_nil (record : PinFileRecord) : record.encode ≠ [] := by
  simp [PinFileRecord.encode, toLittleEndian]

theorem AtMostRetries.mono {bound bound' : ℕ} {raw : Bytes} (h : AtMostRetries bound raw)
    (hbound : bound ≤ bound') : AtMostRetries bound' raw :=
  fun retries hretries ↦ Nat.le_trans (h retries hretries) hbound

/-- A count above the maximum is not accepted from any file. -/
theorem atMostRetries_max (raw : Bytes) : AtMostRetries pinRetriesMax raw := by
  intro retries hretries
  unfold storedRetries at hretries
  split_ifs at hretries with hvalid
  rw [Option.some.injEq] at hretries
  simp only [PinFileRecord.headerValid, Bool.and_eq_true, decide_eq_true_eq] at hvalid
  omega

theorem atMostRetries_encode {record : PinFileRecord} {retries : ℕ}
    (hretries : record.pinRetries = UInt8.ofNat retries) :
    AtMostRetries retries record.encode := by
  intro found hfound
  unfold storedRetries at hfound
  split_ifs at hfound with hvalid
  rw [decode_encode_pinRetries, hretries, Option.some.injEq] at hfound
  rw [← hfound, UInt8.toNat_ofNat']
  exact Nat.mod_le _ _

/-- The record that marks the file invalid never loads, whatever bound is asked for. -/
theorem storedRetries_invalidRecord : storedRetries invalidRecord.encode = none := by
  unfold storedRetries
  rw [if_neg]
  rintro ⟨-, hvalid⟩
  simp [PinFileRecord.headerValid, decode_encode_version, invalidRecord, pinFileVersion] at hvalid

theorem atMostRetries_invalidRecord (bound : ℕ) : AtMostRetries bound invalidRecord.encode := by
  intro retries hretries
  rw [storedRetries_invalidRecord] at hretries
  exact absurd hretries (by simp)

theorem pinPaths : AtomicPaths pinFilePath pinFileTempPath := by
  refine ⟨?_, ?_, ?_, ?_⟩ <;> decide

end Retries

section Specifications

variable {crypto : Crypto} {world : Device}

/-- Persisting a state with a PIN: a call fails before anything is written, or the record of the
state is written. -/
theorem ensures_pinStateStorePersist_writes {state : ClientPinState}
    {post : Bool → Device → Prop} {crash : Device → Prop} (hset : state.pinSet = true)
    (hfailed : ∀ world', Idle world world' → world.writes ≠ [] ∨ world.enclave ≠ [] →
      post false world')
    (hlost : ∀ world', Idle world world' → world.writes ≠ [] → crash world')
    (hwrites : ∀ world' iv sealIv, Idle world world' → iv.length = wrapIvLen →
      sealIv.length = wrapIvLen → Ensures (writeFileAtomic pinFilePath pinFileTempPath
        (fileRecordOf crypto state iv sealIv).encode) post crash world') :
    Ensures (pinStateStorePersist crypto state) post crash world := by
  simp only [pinStateStorePersist, hset, Bool.not_true, Bool.false_eq_true, if_false, ensures_bind]
  refine ensures_ensureAppDataDir.mono ?_ fun _ hcrash ↦ hlost _ hcrash.1 hcrash.2
  rintro ok first ⟨hfirst, hlisted⟩
  cases ok with
  | false => exact hfailed first hfirst (Or.inl (hlisted rfl))
  | true =>
    simp only [Bool.not_true, Bool.false_eq_true, if_false, ensures_bind]
    refine ensures_randomFill fun iv second hsecond hiv ↦ ?_
    replace hsecond := hfirst.trans hsecond
    refine Crypto.ensures_enclaveSeal fun encrypted third hthird hopened hencrypted ↦ ?_
    replace hopened := fun hnone ↦ hsecond.enclave_ne_nil (hopened hnone)
    replace hthird := hsecond.trans hthird
    cases encrypted with
    | none => exact hfailed third hthird (Or.inr (hopened rfl))
    | some encryptedPinHash =>
      obtain rfl := hencrypted _ rfl
      simp only [pinSealRetryState, ensures_bind]
      refine ensures_randomFill fun sealIv fourth hfourth hsealIv ↦ ?_
      replace hfourth := hthird.trans hfourth
      refine Crypto.ensures_enclaveSeal fun sealed fifth hfifth hopened' hsealed ↦ ?_
      replace hopened' := fun hnone ↦ hfourth.enclave_ne_nil (hopened' hnone)
      replace hfifth := hfourth.trans hfifth
      cases sealed with
      | none => exact hfailed fifth hfifth (Or.inr (hopened' rfl))
      | some encryptedRetrySeal =>
        obtain rfl := hsealed _ rfl
        exact hwrites fifth iv sealIv hfifth hiv hsealIv

/-- Persisting a state. Success leaves the state's retry count in the primary file; a failure that
no storage call caused leaves the files alone. -/
theorem ensures_pinStateStorePersist (state : ClientPinState) :
    Ensures (pinStateStorePersist crypto state)
      (fun ok world' ↦ Quiet world world' ∧
        (state.pinSet = false → ok = true ∧ world'.files = world.files) ∧
        (ok = true → state.pinSet = true →
          ∃ raw, world'.files pinFilePath = some raw ∧ AtMostRetries state.pinRetries raw) ∧
        (ok = false → (world.writes ≠ [] ∨ world.enclave ≠ []) ∧
          (world.writes = [] → world'.files = world.files)))
      (fun world' ↦ PowerLost world world') world := by
  cases hset : state.pinSet with
  | false => simp [pinStateStorePersist, hset, Quiet.refl]
  | true =>
    refine ensures_pinStateStorePersist_writes hset
      (fun world' hidle hlisted ↦ ⟨hidle.toQuiet, by simp, by simp, fun _ ↦
        ⟨hlisted, fun _ ↦ hidle.files_eq⟩⟩)
      (fun world' hidle hlisted ↦ ⟨hidle.toQuiet, hlisted⟩) fun middle iv sealIv hidle _ _ ↦ ?_
    refine (ensures_writeFileAtomic pinPaths (encode_ne_nil _)).mono ?_
      fun final hfinal ↦ PowerLost.after ⟨hfinal.moves.only.quiet, hfinal.writes⟩ hidle.toQuiet
    rintro ok final ⟨hmoves, hdone, hwrites⟩
    refine ⟨hidle.toQuiet.trans hmoves.only.quiet, by simp,
      fun hok _ ↦ ⟨_, hdone hok, atMostRetries_encode rfl⟩, fun hok ↦ ?_⟩
    have hlisted : world.writes ≠ [] := fun hnil ↦ hwrites hok (hidle.writes_nil hnil)
    exact ⟨Or.inl hlisted, fun hnil ↦ absurd hnil hlisted⟩

/-- Persisting changes nothing but the three files of the PIN. -/
theorem ensures_pinStateStorePersist_frame (state : ClientPinState) :
    Ensures (pinStateStorePersist crypto state)
      (fun _ world' ↦ ∀ other, other ≠ pinFilePath → other ≠ backupOf pinFilePath →
        other ≠ pinFileTempPath → world'.files other = world.files other)
      (fun _ ↦ True) world := by
  cases hset : state.pinSet with
  | false => simp [pinStateStorePersist, hset]
  | true =>
    refine ensures_pinStateStorePersist_writes hset
      (fun world' hidle _ other _ _ _ ↦ by rw [hidle.files_eq]) (fun _ _ _ ↦ trivial)
      fun middle iv sealIv hidle _ _ ↦ ?_
    refine (ensures_writeFileAtomic pinPaths (encode_ne_nil _)).mono ?_ fun _ _ ↦ trivial
    rintro ok final ⟨hmoves, -⟩ other hpath hbackup htemp
    rw [hmoves.frame other hpath hbackup htemp, hidle.files_eq]

/-- Overwriting the file with the invalid record. -/
theorem ensures_pinInvalidatePersistedState :
    Ensures pinInvalidatePersistedState
      (fun ok world' ↦ Quiet world world' ∧
        (ok = true → world'.files pinFilePath = some invalidRecord.encode) ∧
        (ok = false → world.writes ≠ []))
      (fun world' ↦ PowerLost world world') world := by
  refine ensures_createFile (fun world' honly hfiles ↦ ?_) fun world' honly hwrites _ ↦ ?_
  · exact ⟨honly.quiet, fun _ ↦ by rw [hfiles, stored, Function.update_self], by simp⟩
  · exact ⟨⟨honly.quiet, by simp, fun _ ↦ hwrites⟩, honly.quiet, hwrites⟩

/-- Failing closed leaves an invalid file or none, unless both ways of doing so failed. -/
theorem ensures_pinStateStoreFailClosed (state : ClientPinState) :
    Ensures (pinStateStoreFailClosed state)
      (fun ok world' ↦ Quiet world world' ∧
        (state.pinSet = false → ok = true ∧ world'.files = world.files) ∧
        (ok = true → state.pinSet = true →
          world'.files pinFilePath = some invalidRecord.encode ∨
          world.writes ≠ [] ∧ world'.files pinFilePath = none ∧
            world'.files (backupOf pinFilePath) = none) ∧
        (ok = false → world.writes ≠ []))
      (fun world' ↦ PowerLost world world') world := by
  cases hset : state.pinSet with
  | false => simp [pinStateStoreFailClosed, hset, Quiet.refl]
  | true =>
    simp only [pinStateStoreFailClosed, hset, Bool.not_true, Bool.false_eq_true, if_false,
      ensures_bind]
    refine ensures_pinInvalidatePersistedState.mono ?_ fun _ hcrash ↦ hcrash
    rintro ok middle ⟨hquiet, hdone, hfailed⟩
    cases ok with
    | true => simpa [hquiet] using Or.inl (hdone rfl)
    | false =>
      simp only [Bool.false_eq_true, if_false]
      refine (ensures_removeAtomicFile pinPaths).mono ?_
        fun final hfinal ↦ PowerLost.after ⟨hfinal.moves.only.quiet, hfinal.writes⟩ hquiet
      rintro ok final ⟨hmoves, hgone, hwrites⟩
      refine ⟨hquiet.trans hmoves.only.quiet, by simp, fun hok _ ↦ ?_, fun _ ↦ hfailed rfl⟩
      exact Or.inr ⟨hfailed rfl, hgone hok⟩

/-- Verifying the retry seal changes nothing. -/
theorem ensures_pinVerifyRetryState {pinHash iv encrypted : Bytes}
    {pinRetries pinConsecutiveMismatches flags : UInt8} {post : Bool → Device → Prop}
    {crash : Device → Prop} (h : ∀ ok world', Idle world world' → post ok world') :
    Ensures (pinVerifyRetryState crypto pinHash pinRetries pinConsecutiveMismatches flags iv
      encrypted) post crash world := by
  simp only [pinVerifyRetryState, ensures_bind]
  refine Crypto.ensures_enclaveOpen fun result world' hidle _ _ ↦ ?_
  cases result with
  | none => exact h false world' hidle
  | some raw =>
    simp only [ensures_ite, ensures_pure]
    exact ⟨fun _ ↦ h _ world' hidle, fun _ ↦ h _ world' hidle⟩

/-- Loading changes no file, and writes only the durable fields of the state. A successful load has
its retry count from the file, and reports a missing file exactly when there is none. -/
theorem ensures_pinStateStoreLoad (state : ClientPinState) :
    Ensures (pinStateStoreLoad crypto state)
      (fun result world' ↦ Idle world world' ∧
        (result.1 = .ok → ∃ raw, world.files pinFilePath = some raw ∧
          storedRetries raw = some result.2.pinRetries) ∧
        (result.1 = .missing ↔ world.files pinFilePath = none) ∧
        result.2 = { state with
          pinHash := result.2.pinHash
          pinRetries := result.2.pinRetries
          pinConsecutiveMismatches := result.2.pinConsecutiveMismatches
          pinAuthBlocked := result.2.pinAuthBlocked })
      (fun _ ↦ False) world := by
  simp only [pinStateStoreLoad, ensures_bind]
  refine ensures_readFile fun result middle hmiddle hread _ ↦ ?_
  cases result with
  | none =>
    simp only [ensures_bind, ensures_fileExists, ensures_ite, ensures_pure, hmiddle.files_eq]
    refine ⟨fun hsome ↦ ⟨hmiddle, by simp, ?_, trivial⟩,
      fun hnone ↦ ⟨hmiddle, by simp, ?_, trivial⟩⟩
    · simpa using Option.isSome_iff_ne_none.mp hsome
    · simpa using hnone
  | some raw =>
    obtain ⟨hfile, -⟩ := hread raw rfl
    have hpresent : ¬world.files pinFilePath = none := by simp [hfile]
    simp only [ensures_ite, ensures_pure]
    refine ⟨fun _ ↦ ⟨hmiddle, by simp, by simp [hpresent], trivial⟩, fun hlength ↦
      ⟨fun _ ↦ ⟨hmiddle, by simp, by simp [hpresent], trivial⟩, fun hvalid ↦ ?_⟩⟩
    simp only [ensures_bind]
    refine Crypto.ensures_enclaveOpen fun opened second hsecond _ _ ↦ ?_
    replace hsecond := hmiddle.trans hsecond
    cases opened with
    | none => exact ⟨hsecond, by simp, by simp [hpresent], rfl⟩
    | some pinHash =>
      simp only [ensures_bind]
      refine ensures_pinVerifyRetryState fun ok third hthird ↦ ?_
      replace hthird := hsecond.trans hthird
      cases ok with
      | false => exact ⟨hthird, by simp, by simp [hpresent], rfl⟩
      | true =>
        refine ⟨hthird, fun _ ↦ ⟨raw, hfile, ?_⟩, by simp [hpresent], rfl⟩
        unfold storedRetries
        rw [if_pos ⟨by simpa using hlength, by simpa using hvalid⟩]

end Specifications

end ZeroFido.Pin
