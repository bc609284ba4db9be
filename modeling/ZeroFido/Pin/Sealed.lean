import ZeroFido.Pin.StateStore
import ZeroFido.Store.CounterFloor

/-!
# The PIN file reads back

What `zf_pin_state_store_persist` writes, `zf_pin_state_store_load` reads. `SavedPin` is what a load
takes from a file, as a function of the contents (`loadedPin`), and `Saved` says that a file is one
that persisting a state wrote. A file that was written so loads as the state (`loadedPin_of_saved`),
and the two operations are the two functions with their device calls in between
(`ensures_pinStateStorePersist_saved`, `ensures_pinStateStoreLoad_saved`).
-/

set_option autoImplicit false
set_option relaxedAutoImplicit false

namespace ZeroFido.Pin

open Foundations Storage Store

section Format

theorem length_encode_pinFileRecord {record : PinFileRecord} (hiv : record.iv.length = wrapIvLen)
    (hhash : record.encryptedPinHash.length = pinHashLen)
    (hsealIv : record.retrySealIv.length = wrapIvLen)
    (hseal : record.encryptedRetrySeal.length = pinRetrySealSize) :
    record.encode.length = pinFileRecordSize := by
  simp only [PinFileRecord.encode, List.length_append, length_toLittleEndian, hiv, hhash, hsealIv,
    hseal]
  rfl

/-- A field cut out of the bytes it lies in. -/
theorem take_drop_field {front field back : Bytes} {start size : ℕ} (hfront : front.length = start)
    (hfield : field.length = size) : ((front ++ field ++ back).drop start).take size = field := by
  rw [List.append_assoc, List.drop_left' hfront, List.take_left' hfield]

/-- A record read back from the memory it was written to. -/
theorem PinFileRecord.decode_encode (record : PinFileRecord) (hmagic : record.magic < 2 ^ 32)
    (hiv : record.iv.length = wrapIvLen) (hhash : record.encryptedPinHash.length = pinHashLen)
    (hsealIv : record.retrySealIv.length = wrapIvLen)
    (hseal : record.encryptedRetrySeal.length = pinRetrySealSize) :
    PinFileRecord.decode record.encode = record := by
  obtain ⟨magic, version, retries, mismatches, flags, iv, hash, sealIv, sealed⟩ := record
  dsimp only at hmagic hiv hhash hsealIv hseal
  have hhead : (toLittleEndian 4 magic ++ [version, retries, mismatches, flags]).length = 8 := by
    rw [List.length_append, length_toLittleEndian]
    rfl
  have hmagic' : ofLittleEndian ((encode ⟨magic, version, retries, mismatches, flags, iv, hash,
      sealIv, sealed⟩).take 4) = magic := by
    simp only [encode, List.append_assoc]
    rw [List.take_left' (length_toLittleEndian 4 magic)]
    exact ofLittleEndian_toLittleEndian 4 magic hmagic
  have hiv' : ((encode ⟨magic, version, retries, mismatches, flags, iv, hash, sealIv,
      sealed⟩).drop 8).take wrapIvLen = iv := by
    simp only [encode, List.append_assoc _ hash, List.append_assoc _ (hash ++ sealIv)]
    exact take_drop_field hhead hiv
  have hhash' : ((encode ⟨magic, version, retries, mismatches, flags, iv, hash, sealIv,
      sealed⟩).drop 24).take pinHashLen = hash := by
    simp only [encode, List.append_assoc _ sealIv]
    refine take_drop_field ?_ hhash
    rw [List.length_append, hhead, hiv]
    rfl
  have hsealIv' : ((encode ⟨magic, version, retries, mismatches, flags, iv, hash, sealIv,
      sealed⟩).drop 40).take wrapIvLen = sealIv := by
    refine take_drop_field ?_ hsealIv
    rw [List.length_append, List.length_append, hhead, hiv, hhash]
    rfl
  have hseal' : ((encode ⟨magic, version, retries, mismatches, flags, iv, hash, sealIv,
      sealed⟩).drop 56).take pinRetrySealSize = sealed := by
    rw [encode, List.drop_left', List.take_of_length_le (Nat.le_of_eq hseal)]
    rw [List.length_append, List.length_append, List.length_append, hhead, hiv, hhash, hsealIv]
    rfl
  rw [decode, hmagic', hiv', hhash', hsealIv', hseal']
  simp [encode, toLittleEndian]

theorem PinRetrySeal.length_encode {plain : PinRetrySeal} (hdigest : plain.digest.length = 24) :
    plain.encode.length = pinRetrySealSize := by
  rw [encode, List.length_append, List.length_append, length_toLittleEndian, hdigest]
  rfl

theorem PinRetrySeal.decode_encode (plain : PinRetrySeal) (hmagic : plain.magic < 2 ^ 32)
    (hdigest : plain.digest.length = 24) : PinRetrySeal.decode plain.encode = plain := by
  obtain ⟨magic, retries, mismatches, flags, reserved, digest⟩ := plain
  dsimp only at hmagic hdigest
  have hmagic' : ofLittleEndian ((encode ⟨magic, retries, mismatches, flags, reserved,
      digest⟩).take 4) = magic := by
    simp only [encode, List.append_assoc]
    rw [List.take_left' (length_toLittleEndian 4 magic)]
    exact ofLittleEndian_toLittleEndian 4 magic hmagic
  have hdigest' : ((encode ⟨magic, retries, mismatches, flags, reserved, digest⟩).drop 8).take 24 =
      digest := by
    rw [encode, List.drop_left', List.take_of_length_le (Nat.le_of_eq hdigest)]
    rw [List.length_append, length_toLittleEndian]
    rfl
  rw [decode, hmagic', hdigest']
  simp [encode, toLittleEndian]

end Format

section Contents

variable (crypto : Crypto)

/-- The part of the state that the PIN file holds. -/
structure SavedPin where
  pinHash : Bytes
  pinRetries : ℕ
  pinConsecutiveMismatches : ℕ
  pinAuthBlocked : Bool
  deriving DecidableEq, Repr

/-- What a persisted state leaves to a load. -/
def ClientPinState.saved (state : ClientPinState) : SavedPin where
  pinHash := state.pinHash
  pinRetries := state.pinRetries
  pinConsecutiveMismatches := state.pinConsecutiveMismatches
  pinAuthBlocked := state.pinAuthBlocked

/-- The state with what a load has read. -/
def ClientPinState.withSaved (state : ClientPinState) (found : SavedPin) : ClientPinState :=
  { state with
    pinHash := found.pinHash
    pinRetries := found.pinRetries
    pinConsecutiveMismatches := found.pinConsecutiveMismatches
    pinAuthBlocked := found.pinAuthBlocked }

/-- The check of `zf_pin_verify_retry_state` on the opened seal. -/
def retrySealMatches (pinHash : Bytes) (record : PinFileRecord) : Bool :=
  let plain := PinRetrySeal.decode
    (crypto.enclaveDecrypt record.retrySealIv record.encryptedRetrySeal)
  let digest := pinComputeRetryStateDigest crypto pinHash record.pinRetries
    record.pinConsecutiveMismatches record.flags
  plain.magic == pinRetrySealMagic && plain.pinRetries == record.pinRetries &&
    plain.pinConsecutiveMismatches == record.pinConsecutiveMismatches &&
    plain.flags == record.flags && plain.reserved == 0 &&
    constantTimeEqual plain.digest digest 24

/-- What a record holds. -/
def savedPinOf (record : PinFileRecord) : SavedPin where
  pinHash := crypto.enclaveDecrypt record.iv record.encryptedPinHash
  pinRetries := record.pinRetries.toNat
  pinConsecutiveMismatches := record.pinConsecutiveMismatches.toNat
  pinAuthBlocked := record.flags &&& pinFileFlagAuthBlocked != 0

/-- What a load takes from the contents of the file when the enclave answers. -/
def loadedPin (raw : Bytes) : Option SavedPin :=
  let record := PinFileRecord.decode raw
  let found := savedPinOf crypto record
  if raw.length = pinFileRecordSize ∧ record.headerValid = true ∧
      retrySealMatches crypto found.pinHash record = true then
    some found
  else
    none

/-- Persisting the state writes these contents. -/
def Saved (state : ClientPinState) (raw : Bytes) : Prop :=
  ∃ iv sealIv, iv.length = wrapIvLen ∧ sealIv.length = wrapIvLen ∧
    raw = (fileRecordOf crypto state iv sealIv).encode

/-- The ranges that the file has room for. -/
structure ClientPinState.FitsFile (state : ClientPinState) : Prop where
  pinHash : state.pinHash.length = pinHashLen
  pinRetries : state.pinRetries ≤ pinRetriesMax
  pinConsecutiveMismatches : state.pinConsecutiveMismatches ≤ 3

end Contents

section RoundTrip

variable {crypto : Crypto} {state : ClientPinState} {raw : Bytes}

theorem length_digest (hlaws : SealLaws crypto) (state : ClientPinState) :
    (retrySealOf crypto state).digest.length = 24 := by
  rw [retrySealOf, List.length_take, pinComputeRetryStateDigest, hlaws.length_sha256]
  rfl

/-- The record of a state is read back from the file. -/
theorem decode_encode_fileRecordOf (hlaws : SealLaws crypto)
    (hhash : state.pinHash.length = pinHashLen) {iv sealIv : Bytes} (hiv : iv.length = wrapIvLen) (hsealIv : sealIv.length = wrapIvLen) :
    PinFileRecord.decode (fileRecordOf crypto state iv sealIv).encode =
        fileRecordOf crypto state iv sealIv ∧
      (fileRecordOf crypto state iv sealIv).encode.length = pinFileRecordSize := by
  have hhash : (fileRecordOf crypto state iv sealIv).encryptedPinHash.length = pinHashLen := by
    rw [fileRecordOf, hlaws.length_seal, List.length_take, hhash, Nat.min_self]
  have hseal : (fileRecordOf crypto state iv sealIv).encryptedRetrySeal.length =
      pinRetrySealSize := by
    rw [fileRecordOf, hlaws.length_seal, PinRetrySeal.length_encode (length_digest hlaws state)]
  have hmagic : (fileRecordOf crypto state iv sealIv).magic < 2 ^ 32 := by
    show pinFileMagic < 2 ^ 32
    decide
  exact ⟨PinFileRecord.decode_encode _ hmagic hiv hhash hsealIv hseal,
    length_encode_pinFileRecord hiv hhash hsealIv hseal⟩

/-- A file that persisting a state wrote loads as the state. -/
theorem loadedPin_of_saved (hlaws : SealLaws crypto) (hfits : state.FitsFile)
    (hsaved : Saved crypto state raw) : loadedPin crypto raw = some state.saved := by
  obtain ⟨iv, sealIv, hiv, hsealIv, rfl⟩ := hsaved
  obtain ⟨hdecode, hlength⟩ := decode_encode_fileRecordOf hlaws hfits.pinHash hiv hsealIv
  have hretries : (UInt8.ofNat state.pinRetries).toNat = state.pinRetries := by
    rw [UInt8.toNat_ofNat']
    exact Nat.mod_eq_of_lt (Nat.lt_of_le_of_lt hfits.pinRetries (by decide))
  have hmismatches : (UInt8.ofNat state.pinConsecutiveMismatches).toNat =
      state.pinConsecutiveMismatches := by
    rw [UInt8.toNat_ofNat']
    exact Nat.mod_eq_of_lt (Nat.lt_of_le_of_lt hfits.pinConsecutiveMismatches (by decide))
  have hflags : state.fileFlags &&& ~~~pinFileFlagAuthBlocked = 0 := by
    unfold ClientPinState.fileFlags
    cases state.pinAuthBlocked <;> decide
  have hblocked : (state.fileFlags &&& pinFileFlagAuthBlocked != 0) = state.pinAuthBlocked := by
    unfold ClientPinState.fileFlags
    cases state.pinAuthBlocked <;> decide
  have hheader : (fileRecordOf crypto state iv sealIv).headerValid = true := by
    simp only [PinFileRecord.headerValid, fileRecordOf, hretries, hmismatches, hflags,
      beq_self_eq_true, decide_eq_true hfits.pinRetries,
      decide_eq_true hfits.pinConsecutiveMismatches, Bool.and_self]
  have hopen : crypto.enclaveDecrypt iv (crypto.enclaveEncrypt iv (state.pinHash.take pinHashLen)) =
      state.pinHash := by
    rw [hlaws.open_seal, List.take_of_length_le (Nat.le_of_eq hfits.pinHash)]
  have hseal : retrySealMatches crypto state.pinHash (fileRecordOf crypto state iv sealIv) =
      true := by
    have hplain : PinRetrySeal.decode (crypto.enclaveDecrypt sealIv
        (crypto.enclaveEncrypt sealIv (retrySealOf crypto state).encode)) =
        retrySealOf crypto state := by
      rw [hlaws.open_seal]
      exact PinRetrySeal.decode_encode _ (by show pinRetrySealMagic < 2 ^ 32; decide)
        (length_digest hlaws state)
    have hsame : ∀ digest : Bytes, constantTimeEqual (digest.take 24) digest 24 = true := by
      intro digest
      simp [constantTimeEqual, List.take_take]
    simp only [retrySealMatches, fileRecordOf, hplain]
    simp only [retrySealOf, hsame, beq_self_eq_true, Bool.and_self]
  unfold loadedPin
  simp only [hdecode, hlength]
  have hfound : savedPinOf crypto (fileRecordOf crypto state iv sealIv) = state.saved := by
    simp only [savedPinOf, fileRecordOf, hopen, hretries, hmismatches, hblocked]
    rfl
  rw [hfound]
  exact if_pos ⟨trivial, hheader, hseal⟩

/-- A file that persisting a state wrote loads with the PIN of the state, if it loads. -/
theorem pinHash_of_saved (hlaws : SealLaws crypto) (hhash : state.pinHash.length = pinHashLen)
    (hsaved : Saved crypto state raw) {found : SavedPin}
    (hfound : loadedPin crypto raw = some found) : found.pinHash = state.pinHash := by
  obtain ⟨iv, sealIv, hiv, hsealIv, rfl⟩ := hsaved
  obtain ⟨hdecode, -⟩ := decode_encode_fileRecordOf hlaws hhash hiv hsealIv
  unfold loadedPin at hfound
  simp only [hdecode] at hfound
  split_ifs at hfound
  rw [← Option.some.inj hfound]
  show crypto.enclaveDecrypt iv (crypto.enclaveEncrypt iv (state.pinHash.take pinHashLen)) = _
  rw [hlaws.open_seal, List.take_of_length_le (Nat.le_of_eq hhash)]

end RoundTrip

section Specifications

variable {crypto : Crypto} {world : Device}

/-- Verifying the retry seal of a record. -/
theorem ensures_pinVerifyRetryState_matches {pinHash : Bytes} {record : PinFileRecord} :
    Ensures (pinVerifyRetryState crypto pinHash record.pinRetries record.pinConsecutiveMismatches
        record.flags record.retrySealIv record.encryptedRetrySeal)
      (fun ok world' ↦ Idle world world' ∧
        (ok = true → retrySealMatches crypto pinHash record = true) ∧
        (world.enclave = [] → ok = retrySealMatches crypto pinHash record))
      (fun _ ↦ False) world := by
  simp only [pinVerifyRetryState, ensures_bind]
  refine Crypto.ensures_enclaveOpen fun result world' hidle hlisted hopened ↦ ?_
  cases result with
  | none => exact ⟨hidle, by simp, fun hnil ↦ absurd hnil (hlisted rfl)⟩
  | some raw =>
    obtain rfl := hopened raw rfl
    simp only [ensures_ite, ensures_pure]
    refine ⟨fun hwrong ↦ ⟨hidle, by simp, fun _ ↦ ?_⟩, fun hright ↦ ?_⟩
    · symm
      rw [Bool.eq_false_iff]
      intro hmatches
      simp only [retrySealMatches, Bool.and_eq_true, beq_iff_eq] at hmatches
      obtain ⟨⟨⟨⟨⟨hmagic, hretries⟩, hmismatches⟩, hflags⟩, hreserved⟩, -⟩ := hmatches
      obtain h | h | h | h | h := hwrong
      · exact h hmagic
      · exact h hretries
      · exact h hmismatches
      · exact h hflags
      · exact h hreserved
    · simp only [not_or, not_not] at hright
      obtain ⟨hmagic, hretries, hmismatches, hflags, hreserved⟩ := hright
      have hequal : retrySealMatches crypto pinHash record = constantTimeEqual
          (PinRetrySeal.decode (crypto.enclaveDecrypt record.retrySealIv
            record.encryptedRetrySeal)).digest (pinComputeRetryStateDigest crypto pinHash
              record.pinRetries record.pinConsecutiveMismatches record.flags) 24 := by
        simp only [retrySealMatches, hmagic, hretries, hmismatches, hflags, hreserved,
          beq_self_eq_true, Bool.true_and]
      exact ⟨hidle, fun hok ↦ hequal.trans hok, fun _ ↦ hequal.symm⟩

/-- A load is `loadedPin` with device calls in between. -/
theorem ensures_pinStateStoreLoad_saved (state : ClientPinState) :
    Ensures (pinStateStoreLoad crypto state)
      (fun result world' ↦ Idle world world' ∧
        (result.1 = .ok → ∃ raw found, world.files pinFilePath = some raw ∧
          loadedPin crypto raw = some found ∧ result.2 = state.withSaved found) ∧
        (world.reads = [] → world.enclave = [] → ∀ raw, world.files pinFilePath = some raw →
          ∀ found, loadedPin crypto raw = some found → result = (.ok, state.withSaved found)))
      (fun _ ↦ False) world := by
  simp only [pinStateStoreLoad, ensures_bind]
  refine ensures_readFile fun result middle hmiddle hread hcomplete ↦ ?_
  -- A file that loads has the size of a record, so a read that works returns it.
  have hsize : ∀ raw found, loadedPin crypto raw = some found → raw.length = pinFileRecordSize := by
    intro raw found hfound
    unfold loadedPin at hfound
    dsimp only at hfound
    split_ifs at hfound with hvalid
    exact hvalid.1
  cases result with
  | none =>
    have hnone : world.reads = [] → world.enclave = [] → ∀ raw,
        world.files pinFilePath = some raw → ∀ found, loadedPin crypto raw ≠ some found := by
      intro hreads _ raw hraw found hfound
      have hlength := hsize raw found hfound
      have hshort : raw.length ≤ pinFileRecordSize := Nat.le_of_eq hlength
      have hpos : 0 < raw.length := by
        rw [hlength]
        decide
      exact absurd (hcomplete raw hraw hpos hshort hreads) (by simp)
    simp only [ensures_bind, ensures_fileExists, ensures_ite, ensures_pure]
    exact ⟨fun _ ↦ ⟨hmiddle, by simp, fun hreads henclave raw hraw found hfound ↦
        absurd hfound (hnone hreads henclave raw hraw found)⟩,
      fun _ ↦ ⟨hmiddle, by simp, fun hreads henclave raw hraw found hfound ↦
        absurd hfound (hnone hreads henclave raw hraw found)⟩⟩
  | some raw =>
    obtain ⟨hfile, -⟩ := hread raw rfl
    have hsame : ∀ other, world.files pinFilePath = some other → other = raw := fun other hother ↦
      Option.some.inj (hother.symm.trans hfile)
    simp only [ensures_ite, ensures_pure]
    refine ⟨fun hlength ↦ ⟨hmiddle, by simp, fun _ _ other hother found hfound ↦ ?_⟩,
      fun hlength ↦ ⟨fun hinvalid ↦ ⟨hmiddle, by simp, fun _ _ other hother found hfound ↦ ?_⟩,
        fun hvalid ↦ ?_⟩⟩
    · obtain rfl := hsame other hother
      exact absurd (hsize other found hfound) hlength
    · obtain rfl := hsame other hother
      unfold loadedPin at hfound
      dsimp only at hfound
      split_ifs at hfound with hchecks
      rw [hchecks.2.1] at hinvalid
      exact absurd hinvalid (by simp)
    · rw [not_not] at hlength
      replace hvalid : (PinFileRecord.decode raw).headerValid = true := by simpa using hvalid
      simp only [ensures_bind]
      refine Crypto.ensures_enclaveOpen fun opened second hsecond hlisted hopened ↦ ?_
      replace hlisted := fun hnone ↦ hmiddle.enclave_ne_nil (hlisted hnone)
      replace hsecond := hmiddle.trans hsecond
      cases opened with
      | none => exact ⟨hsecond, by simp, fun _ hnil ↦ absurd hnil (hlisted rfl)⟩
      | some pinHash =>
        obtain rfl := hopened pinHash rfl
        simp only [ensures_bind]
        refine ensures_pinVerifyRetryState_matches.mono ?_ fun _ hfalse ↦ hfalse
        rintro ok third ⟨hthird, hmatches, hclean⟩
        have hnil : world.enclave = [] → second.enclave = [] := fun hnil ↦
          List.suffix_nil.mp (hnil ▸ hsecond.enclave)
        replace hthird := hsecond.trans hthird
        cases ok with
        | false =>
          refine ⟨hthird, by simp, fun _ henclave other hother found hfound ↦ ?_⟩
          obtain rfl := hsame other hother
          unfold loadedPin at hfound
          dsimp only at hfound
          split_ifs at hfound with hchecks
          exact absurd ((hclean (hnil henclave)).trans hchecks.2.2) (by simp)
        | true =>
          have hloaded : loadedPin crypto raw =
              some (savedPinOf crypto (PinFileRecord.decode raw)) :=
            if_pos ⟨hlength, hvalid, hmatches rfl⟩
          refine ⟨hthird, fun _ ↦ ⟨raw, _, hfile, hloaded, rfl⟩,
            fun _ _ other hother found hfound ↦ ?_⟩
          obtain rfl := hsame other hother
          obtain rfl := Option.some.inj (hloaded.symm.trans hfound)
          rfl

/-- Outcomes of writes and of the enclave were only taken from the front of their lists. -/
structure Consumes (world world' : Device) : Prop where
  writes : world'.writes <:+ world.writes
  enclave : world'.enclave <:+ world.enclave

theorem Consumes.refl (world : Device) : Consumes world world :=
  ⟨List.suffix_refl _, List.suffix_refl _⟩

theorem Consumes.trans {world' world'' : Device} (h : Consumes world world')
    (h' : Consumes world' world'') : Consumes world world'' :=
  ⟨h'.writes.trans h.writes, h'.enclave.trans h.enclave⟩

theorem Consumes.of_quiet {world' : Device} (h : Quiet world world') : Consumes world world' :=
  ⟨h.writes, h.enclave⟩

theorem Consumes.writes_nil {world' : Device} (h : Consumes world world')
    (hnil : world.writes = []) : world'.writes = [] :=
  List.suffix_nil.mp (hnil ▸ h.writes)

theorem Consumes.enclave_nil {world' : Device} (h : Consumes world world')
    (hnil : world.enclave = []) : world'.enclave = [] :=
  List.suffix_nil.mp (hnil ▸ h.enclave)

/-- Only the record, the random generator and the key generations to come may differ. -/
def SameStorage (world world' : Device) : Prop :=
  world' = { world with
    trace := world'.trace, entropy := world'.entropy, keyGenerations := world'.keyGenerations }

theorem SameStorage.refl (world : Device) : SameStorage world world := rfl

theorem SameStorage.trans {world' world'' : Device} (h : SameStorage world world')
    (h' : SameStorage world' world'') : SameStorage world world'' := by
  unfold SameStorage at h h' ⊢
  rw [h', h]

/-- Drawing random bytes. -/
theorem ensures_randomFill_sameStorage {length : ℕ} :
    Ensures (randomFill length)
      (fun _ world' ↦ Idle world world' ∧ SameStorage world world') (fun _ ↦ False) world := by
  simp only [randomFill, ensures_modifyGet]
  constructor
  · exact ⟨⟨rfl, rfl, List.suffix_refl _, List.suffix_refl _, List.suffix_refl _,
      List.suffix_refl _⟩, rfl⟩
  · rfl

/-- Generating a key. -/
theorem ensures_generateKeyAgreementKey_sameStorage :
    Ensures crypto.generateKeyAgreementKey
      (fun _ world' ↦ Idle world world' ∧ SameStorage world world') (fun _ ↦ False) world := by
  have hidle : Ensures crypto.generateKeyAgreementKey (fun _ world' ↦ Idle world world')
      (fun _ ↦ False) world := Crypto.ensures_generateKeyAgreementKey fun _ _ hidle _ ↦ hidle
  have hsame : Ensures crypto.generateKeyAgreementKey (fun _ world' ↦ SameStorage world world')
      (fun _ ↦ False) world := by
    simp only [Crypto.generateKeyAgreementKey, nextKeyGeneration, ensures_bind, ensures_modifyGet]
    by_cases hgenerated : world.keyGenerations.headD true = true
    · simp only [hgenerated, if_true, randomFill, ensures_bind, ensures_modifyGet, ensures_pure]
      rfl
    · simp only [hgenerated]
      rfl
  exact (hidle.and hsame).mono (fun _ _ h ↦ h) fun _ h ↦ h.1

/-- Whatever state is stored next on this device, replacing the PIN file reports a failure only when
the file holds what it held. -/
def HonestNext (crypto : Crypto) (world : Device) : Prop :=
  ∀ (state : ClientPinState) (middle : Device), SameStorage world middle →
    Ensures (pinStateStorePersist crypto state)
      (fun ok final ↦ ok = false →
        logical final.files pinFilePath = logical middle.files pinFilePath)
      (fun _ ↦ True) middle

theorem HonestNext.of_sameStorage {world' : Device} (h : HonestNext crypto world)
    (hsame : SameStorage world world') : HonestNext crypto world' :=
  fun state middle hmiddle ↦ h state middle (hsame.trans hmiddle)

/-- Persisting a state leaves it in the file, or has failed. -/
theorem ensures_pinStateStorePersist_saved {state : ClientPinState} (hset : state.pinSet = true) :
    Ensures (pinStateStorePersist crypto state)
      (fun ok world' ↦ Quiet world world' ∧
        (ok = true → ∃ raw, world'.files pinFilePath = some raw ∧ Saved crypto state raw) ∧
        (ok = false → HonestNext crypto world →
          logical world'.files pinFilePath = logical world.files pinFilePath) ∧
        (ok = false → world.writes ≠ [] ∨ world.enclave ≠ []))
      (fun world' ↦ PowerLost world world') world := by
  have hwritten : Ensures (pinStateStorePersist crypto state)
      (fun ok world' ↦ Quiet world world' ∧
        (ok = true → ∃ raw, world'.files pinFilePath = some raw ∧ Saved crypto state raw) ∧
        (ok = false → world.writes ≠ [] ∨ world.enclave ≠ []))
      (fun world' ↦ PowerLost world world') world := by
    refine ensures_pinStateStorePersist_writes hset
      (fun world' hidle hlisted ↦ ⟨hidle.toQuiet, by simp, fun _ ↦ hlisted⟩)
      (fun world' hidle hlisted ↦ ⟨hidle.toQuiet, hlisted⟩)
      fun middle iv sealIv hidle hiv hsealIv ↦ ?_
    refine (ensures_writeFileAtomic pinPaths (encode_ne_nil _)).mono ?_
      fun final hfinal ↦ PowerLost.after ⟨hfinal.moves.only.quiet, hfinal.writes⟩ hidle.toQuiet
    rintro ok final ⟨hmoves, hdone, hlisted⟩
    exact ⟨hidle.toQuiet.trans hmoves.only.quiet, fun hok ↦
      ⟨_, hdone hok, iv, sealIv, hiv, hsealIv, rfl⟩, fun hok ↦
      Or.inl fun hnil ↦ hlisted hok (hidle.writes_nil hnil)⟩
  by_cases hhonest : HonestNext crypto world
  · refine (hwritten.and (hhonest state world (SameStorage.refl world))).mono ?_
      fun _ hcrash ↦ hcrash.1
    rintro ok final ⟨⟨hquiet, hdone, hlisted⟩, hkept⟩
    exact ⟨hquiet, hdone, fun hok _ ↦ hkept hok, hlisted⟩
  · refine hwritten.mono ?_ fun _ hcrash ↦ hcrash
    rintro ok final ⟨hquiet, hdone, hlisted⟩
    exact ⟨hquiet, hdone, fun _ honest ↦ absurd honest hhonest, hlisted⟩

end Specifications

end ZeroFido.Pin
