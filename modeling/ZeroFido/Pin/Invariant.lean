import ZeroFido.Pin.Run
import ZeroFido.Pin.Sealed
import ZeroFido.Storage.Contents

/-!
# The retry fields stay in step

The retry count, the mismatch count and the block flag are changed by a dozen operations, each with
branches that restore or force them. `Regular` is what all of them keep: the ranges the PIN file has
room for, and a block flag that says that three mismatches in a row were counted. A file can break
the second half only at a start-up that refuses it, and only a file the device did not write
(`OwnContents`). So every state with a PIN persists and loads back (`pin_state_invariant`).
-/

set_option autoImplicit false
set_option relaxedAutoImplicit false

namespace ZeroFido.Pin

open Foundations Storage Store

section States

/-- The block flag says that three mismatches in a row were counted. -/
def ClientPinState.BlockMatches (state : ClientPinState) : Prop :=
  state.pinAuthBlocked = true ↔ state.pinConsecutiveMismatches = 3

/-- The retry fields of a state in memory. `own` says that the PIN files are the device's own. -/
structure Regular (own : Prop) (state : ClientPinState) : Prop extends state.FitsFile where
  blocked : own ∨ state.pinSet = true → state.BlockMatches

variable {own : Prop} {state state' : ClientPinState}

/-- The empty memory, and the state a start-up begins with. -/
theorem regular_fresh {retries : ℕ} (hretries : retries ≤ pinRetriesMax) :
    Regular own ({ pinRetries := retries } : ClientPinState) :=
  ⟨⟨rfl, hretries, Nat.zero_le _⟩, fun _ ↦ by simp [ClientPinState.BlockMatches]⟩

/-- Only the saved fields and whether there is a PIN matter. -/
theorem Regular.of_saved (h : Regular own state) (hset : state'.pinSet = state.pinSet)
    (hsaved : state'.saved = state.saved) : Regular own state' := by
  obtain ⟨⟨hhash, hretries, hmismatches⟩, hblocked⟩ := h
  simp only [ClientPinState.saved, SavedPin.mk.injEq] at hsaved
  obtain ⟨hhash', hretries', hmismatches', hblocked'⟩ := hsaved
  refine ⟨⟨?_, ?_, ?_⟩, ?_⟩
  · rwa [hhash']
  · rwa [hretries']
  · rwa [hmismatches']
  · rw [hset, ClientPinState.BlockMatches, hblocked', hmismatches']
    exact hblocked

/-- A state whose block is lifted, with any hash and retry count in range. -/
theorem regular_unblocked (hhash : state.pinHash.length = pinHashLen)
    (hretries : state.pinRetries ≤ pinRetriesMax) : Regular own state.clearAuthBlockState :=
  ⟨⟨hhash, hretries, Nat.zero_le _⟩, fun _ ↦ by
    simp [ClientPinState.BlockMatches, ClientPinState.clearAuthBlockState]⟩

theorem Regular.forceRuntimeBlock (h : Regular own state) : Regular own state.forceRuntimeBlock :=
  ⟨⟨h.pinHash, Nat.zero_le _, le_rfl⟩, fun _ ↦ ⟨fun _ ↦ rfl, fun _ ↦ rfl⟩⟩

/-- One more mismatch of a state that is not blocked blocks it at three. -/
theorem Regular.noteMismatch (h : Regular own state) (hset : state.pinSet = true)
    (hblocked : state.pinAuthBlocked = false) : Regular own state.noteMismatch := by
  have hfew : state.pinConsecutiveMismatches < 3 := by
    have hne : state.pinConsecutiveMismatches ≠ 3 := fun hthree ↦ by
      rw [(h.blocked (Or.inr hset)).mpr hthree] at hblocked
      exact absurd hblocked (by simp)
    have hle := h.pinConsecutiveMismatches
    omega
  have hlow : state.pinConsecutiveMismatches < 255 := by omega
  have hcount : state.noteMismatch.pinConsecutiveMismatches =
      state.pinConsecutiveMismatches + 1 := by
    simp only [ClientPinState.noteMismatch, if_pos hlow]
  have hflag : state.noteMismatch.pinAuthBlocked =
      decide (3 ≤ state.pinConsecutiveMismatches + 1) := by
    simp only [ClientPinState.noteMismatch, if_pos hlow, hblocked]
    split_ifs with hthree
    · exact (decide_eq_true hthree).symm
    · exact (decide_eq_false hthree).symm
  refine ⟨⟨h.pinHash, h.pinRetries, by rw [hcount]; omega⟩, fun _ ↦ ?_⟩
  rw [ClientPinState.BlockMatches, hcount, hflag, decide_eq_true_eq]
  omega

theorem Regular.penalised (h : Regular own state) (hset : state.pinSet = true)
    (hblocked : state.pinAuthBlocked = false) (key : KeyAgreementKey) :
    Regular own (penalised state key) := by
  have hle := h.pinRetries
  have hretries : (if 0 < state.pinRetries then state.pinRetries - 1 else state.pinRetries) ≤
      pinRetriesMax := by
    split_ifs <;> omega
  have hpaid : Regular own { state with
      keyAgreement := key
      pinRetries := if 0 < state.pinRetries then state.pinRetries - 1 else state.pinRetries } :=
    ⟨⟨h.pinHash, hretries, h.pinConsecutiveMismatches⟩, h.blocked⟩
  exact hpaid.noteMismatch hset hblocked

end States

section Files

variable (crypto : Crypto)

/-- The files that may hold the PIN record. -/
def PinFile (path : Path) : Prop :=
  path = pinFilePath ∨ path = backupOf pinFilePath ∨ path = pinFileTempPath

/-- What the device writes into these files: the record of a state in step or the mark of an invalid
file, whole or cut short. -/
def OwnContents (raw : Bytes) : Prop :=
  ∃ whole, raw <+: whole ∧ (whole = invalidRecord.encode ∨
    ∃ state : ClientPinState, state.FitsFile ∧ state.BlockMatches ∧ Saved crypto state whole)

/-- The PIN files of the device are its own. -/
def OwnFiles (own : Prop) (world : Device) : Prop :=
  Holds PinFile (fun raw ↦ own → OwnContents crypto raw) world

variable {crypto} {own : Prop} {state : ClientPinState} {raw : Bytes}

theorem OwnContents.take (h : OwnContents crypto raw) (written : ℕ) :
    OwnContents crypto (raw.take written) := by
  obtain ⟨whole, hprefix, hwhole⟩ := h
  exact ⟨whole, (List.take_prefix _ _).trans hprefix, hwhole⟩

/-- The fields of an own record that passes the plain checks are in step. -/
theorem OwnContents.blockMatches (hlaws : SealLaws crypto) (h : OwnContents crypto raw)
    (hlength : raw.length = pinFileRecordSize)
    (hvalid : (PinFileRecord.decode raw).headerValid = true) :
    ((PinFileRecord.decode raw).flags &&& pinFileFlagAuthBlocked != 0) = true ↔
      (PinFileRecord.decode raw).pinConsecutiveMismatches.toNat = 3 := by
  obtain ⟨whole, hprefix, hwhole⟩ := h
  have heq : ∀ whole : Bytes, whole.length = pinFileRecordSize → raw <+: whole → raw = whole :=
    fun whole hwhole hprefix ↦ hprefix.eq_of_length (hlength.trans hwhole.symm)
  obtain rfl | ⟨state, hfits, hblock, iv, sealIv, hiv, hsealIv, rfl⟩ := hwhole
  · obtain rfl := heq _ (length_encode_pinFileRecord rfl rfl rfl rfl) hprefix
    simp [PinFileRecord.headerValid, decode_encode_version, invalidRecord, pinFileVersion] at hvalid
  · obtain ⟨hdecode, hsize⟩ := decode_encode_fileRecordOf hlaws hfits.pinHash hiv hsealIv
    obtain rfl := heq _ hsize hprefix
    rw [hdecode]
    have hcount : (UInt8.ofNat state.pinConsecutiveMismatches).toNat =
        state.pinConsecutiveMismatches := by
      rw [UInt8.toNat_ofNat']
      exact Nat.mod_eq_of_lt (Nat.lt_of_le_of_lt hfits.pinConsecutiveMismatches (by decide))
    have hflag : (state.fileFlags &&& pinFileFlagAuthBlocked != 0) = state.pinAuthBlocked := by
      unfold ClientPinState.fileFlags
      cases state.pinAuthBlocked <;> decide
    simp only [fileRecordOf, hcount, hflag]
    exact hblock

end Files

section Store

variable {crypto : Crypto} {own : Prop} {state : ClientPinState}

/-- Persisting a state in step adds own contents only. -/
theorem sustains_pinStateStorePersist (h : Regular own state) :
    Sustains (OwnFiles crypto own) (fun _ ↦ True) (pinStateStorePersist crypto state) := by
  intro world hworld
  cases hset : state.pinSet with
  | false =>
    simp only [pinStateStorePersist, hset, Bool.not_false, if_true, ensures_pure]
    exact ⟨trivial, hworld⟩
  | true =>
    refine ensures_pinStateStorePersist_writes hset
      (fun world' hidle _ ↦ ⟨trivial, hworld.of_files_eq hidle.files_eq⟩)
      (fun world' hidle _ ↦ hworld.of_files_eq hidle.files_eq)
      fun middle iv sealIv hidle hiv hsealIv ↦ ?_
    have hmiddle : OwnFiles crypto own middle := hworld.of_files_eq hidle.files_eq
    have hrecord : own → OwnContents crypto (fileRecordOf crypto state iv sealIv).encode :=
      fun _ ↦ ⟨_, List.prefix_refl _, Or.inr ⟨state, h.toFitsFile, h.blocked (Or.inr hset), iv,
        sealIv, hiv, hsealIv, rfl⟩⟩
    exact sustains_writeFileAtomic (Or.inl rfl) (Or.inr (Or.inl rfl)) (Or.inr (Or.inr rfl))
      (fun data written hdata howned ↦ (hdata howned).take written) hrecord middle hmiddle

theorem sustains_pinStateStoreFailClosed :
    Sustains (OwnFiles crypto own) (fun _ ↦ True) (pinStateStoreFailClosed state) := by
  unfold pinStateStoreFailClosed
  refine .ite (fun _ ↦ .pure trivial) fun _ ↦ ?_
  have hinvalid : Sustains (OwnFiles crypto own) (fun _ ↦ True) pinInvalidatePersistedState :=
    sustains_createFile fun written _ ↦ ⟨_, List.take_prefix _ _, Or.inl rfl⟩
  exact hinvalid.bind fun _ _ ↦ .ite (fun _ ↦ .pure trivial) fun _ ↦ sustains_removeAtomicFile

/-- Keeping a stricter state. -/
theorem sustains_persistOrBlock (h : Regular own state) :
    Sustains (OwnFiles crypto own) (Regular own) (persistOrBlock crypto state) := by
  unfold persistOrBlock
  refine (sustains_pinStateStorePersist h).bind fun _ _ ↦ .ite (fun _ ↦ .pure h) fun _ ↦ ?_
  exact sustains_pinStateStoreFailClosed.bind fun _ _ ↦
    .ite (fun _ ↦ .pure h) fun _ ↦ .pure h.forceRuntimeBlock

theorem sustains_generateKeyAgreementKey :
    Sustains (OwnFiles crypto own) (fun _ ↦ True)
      (crypto.generateKeyAgreementKey : Program Device (Option KeyAgreementKey)) :=
  sustains_of_idle fun _ ↦ Crypto.ensures_generateKeyAgreementKey fun _ _ hidle _ ↦
    ⟨trivial, hidle.files_eq⟩

end Store

section Operations

variable {crypto : Crypto} {own : Prop} {state : ClientPinState}

theorem sustains_pinNotePinAuthMismatch (h : Regular own state) (hset : state.pinSet = true)
    (hblocked : state.pinAuthBlocked = false) :
    Sustains (OwnFiles crypto own) (fun result ↦ Regular own result.2)
      (pinNotePinAuthMismatch crypto state) :=
  (sustains_persistOrBlock (h.noteMismatch hset hblocked)).bind fun _ hkept ↦ .pure hkept

theorem sustains_pinAuthFailure (h : Regular own state) (hset : state.pinSet = true) :
    Sustains (OwnFiles crypto own) (fun result ↦ Regular own result.2)
      (pinAuthFailure crypto state) := by
  unfold pinAuthFailure
  refine .ite (fun _ ↦ .pure h) fun hblocked ↦ ?_
  refine sustains_generateKeyAgreementKey.bind fun generated _ ↦ ?_
  cases generated with
  | none => exact .pure h
  | some key =>
    have hpenalised : Regular own (penalised state key) :=
      h.penalised hset (Bool.eq_false_iff.mpr hblocked) key
    exact (sustains_persistOrBlock hpenalised).bind fun _ hkept ↦
      .ite (fun _ ↦ .pure hkept) fun _ ↦ .pure hkept

theorem sustains_pinAuthSuccess (h : Regular own state) :
    Sustains (OwnFiles crypto own) (fun result ↦ Regular own result.2)
      (pinAuthSuccess crypto state) := by
  have hnext : Regular own { state with pinRetries := pinRetriesMax }.clearAuthBlockState :=
    regular_unblocked h.pinHash le_rfl
  exact (sustains_pinStateStorePersist hnext).bind fun _ _ ↦
    .ite (fun _ ↦ (sustains_note _).bind fun _ _ ↦ .pure hnext)
      fun _ ↦ .pure (h.of_saved rfl rfl)

theorem sustains_comparePinHash (h : Regular own state) (hset : state.pinSet = true)
    (pinHash : Bytes) :
    Sustains (OwnFiles crypto own) (fun result ↦ Regular own result.2)
      (comparePinHash crypto state pinHash) :=
  (sustains_note _).bind fun _ _ ↦
    .ite (fun _ ↦ sustains_pinAuthFailure h hset) fun _ ↦ sustains_pinAuthSuccess h

theorem sustains_pinVerifyHash (h : Regular own state) (pinHash : Bytes) :
    Sustains (OwnFiles crypto own) (fun result ↦ Regular own result.2)
      (pinVerifyHash crypto state pinHash) := by
  unfold pinVerifyHash
  refine .ite (fun _ ↦ .pure h) fun hset ↦ .ite (fun _ ↦ .pure h) fun _ ↦
    .ite (fun _ ↦ .pure h) fun _ ↦ ?_
  exact sustains_comparePinHash h (by simpa using hset) pinHash

theorem sustains_pinResumeAuthAttempts (h : Regular own state) :
    Sustains (OwnFiles crypto own) (fun result ↦ Regular own result.2)
      (pinResumeAuthAttempts crypto state) := by
  have hnext : Regular own state.clearAuthBlockState := regular_unblocked h.pinHash h.pinRetries
  unfold pinResumeAuthAttempts
  refine .ite (fun _ ↦ .pure h) fun _ ↦ .ite (fun _ ↦ .pure h) fun _ ↦ ?_
  exact (sustains_pinStateStorePersist hnext).bind fun _ _ ↦
    .ite (fun _ ↦ .pure hnext) fun _ ↦ .pure (h.of_saved rfl rfl)

theorem sustains_pinApplyPlaintext (hlaws : SealLaws crypto) (h : Regular own state) (pin : Bytes)
    (requireUnset : Bool) :
    Sustains (OwnFiles crypto own) (fun result ↦ Regular own result.2)
      (pinApplyPlaintext crypto state pin requireUnset) := by
  have hlength : ((crypto.sha256 pin).take pinHashLen).length = pinHashLen := by
    rw [List.length_take, hlaws.length_sha256]
    rfl
  have hnext : Regular own { state with
      pinSet := true
      pinRetries := pinRetriesMax
      pinHash := (crypto.sha256 pin).take pinHashLen }.clearAuthBlockState :=
    regular_unblocked hlength le_rfl
  unfold pinApplyPlaintext
  refine .ite (fun _ ↦ .pure h) fun _ ↦ .ite (fun _ ↦ .pure h) fun _ ↦ ?_
  refine (sustains_randomFill _).bind fun _ _ ↦ (sustains_pinStateStorePersist hnext).bind
    fun _ _ ↦ .ite (fun _ ↦ .pure (h.of_saved rfl rfl)) fun _ ↦ ?_
  exact (sustains_note _).bind fun _ _ ↦ .pure (hnext.of_saved rfl rfl)

theorem sustains_pinVerifyPlaintext (h : Regular own state) (pin : Bytes) :
    Sustains (OwnFiles crypto own) (fun result ↦ Regular own result.2)
      (pinVerifyPlaintext crypto state pin) :=
  .ite (fun _ ↦ .pure h) fun _ ↦ sustains_pinVerifyHash h _

theorem sustains_pinRefreshRuntimeSecrets :
    Sustains (OwnFiles crypto own) (fun _ ↦ True) (pinRefreshRuntimeSecrets crypto) :=
  (sustains_randomFill _).bind fun _ _ ↦ sustains_generateKeyAgreementKey.bind
    fun _ _ ↦ .pure trivial

theorem sustains_pinClear (h : Regular own state) :
    Sustains (OwnFiles crypto own) (fun result ↦ Regular own result.2)
      (pinClear crypto state) := by
  unfold pinClear
  refine sustains_pinRefreshRuntimeSecrets.bind fun secrets _ ↦ ?_
  obtain ⟨nextPinToken, nextKeyAgreement⟩ := secrets
  cases nextKeyAgreement with
  | none => exact .pure h
  | some key =>
    have hremoved : Sustains (OwnFiles crypto own) (fun _ ↦ True) pinStateStoreClear :=
      sustains_removeAtomicFile
    refine hremoved.bind fun _ _ ↦ .ite (fun _ ↦ .pure h) fun _ ↦ ?_
    have hcleared : Regular own { state with
        pinHash := zeroBytes pinHashLen
        pinSet := false
        pinRetries := pinRetriesMax }.clearAuthBlockState :=
      regular_unblocked rfl le_rfl
    exact (sustains_note _).bind fun _ _ ↦ .pure (hcleared.of_saved rfl rfl)

end Operations

section Restart

variable {crypto : Crypto} {own : Prop}

/-- A load writes fields in range over a state without a PIN, and fields in step when the file is
the device's own. -/
theorem sustains_pinStateStoreLoad (hlaws : SealLaws crypto)
    (hopen : ∀ iv ciphertext, (crypto.enclaveDecrypt iv ciphertext).length = ciphertext.length)
    {state : ClientPinState} (h : Regular own state) (hset : state.pinSet = false) :
    Sustains (OwnFiles crypto own) (fun result ↦ Regular own result.2 ∧ result.2.pinSet = false)
      (pinStateStoreLoad crypto state) := by
  intro world hworld
  simp only [pinStateStoreLoad, ensures_bind]
  refine ensures_readFile fun result middle hmiddle hread _ ↦ ?_
  replace hmiddle : OwnFiles crypto own middle := hworld.of_files_eq hmiddle.files_eq
  cases result with
  | none =>
    simp only [ensures_bind, ensures_fileExists, ensures_ite, ensures_pure]
    exact ⟨fun _ ↦ ⟨⟨h, hset⟩, hmiddle⟩, fun _ ↦ ⟨⟨h, hset⟩, hmiddle⟩⟩
  | some raw =>
    simp only [ensures_ite, ensures_pure]
    refine ⟨fun _ ↦ ⟨⟨h, hset⟩, hmiddle⟩, fun hlength ↦
      ⟨fun _ ↦ ⟨⟨h, hset⟩, hmiddle⟩, fun hinvalid ↦ ?_⟩⟩
    rw [not_not] at hlength
    have hvalid : (PinFileRecord.decode raw).headerValid = true := by simpa using hinvalid
    have hblock : own →
        (((PinFileRecord.decode raw).flags &&& pinFileFlagAuthBlocked != 0) = true ↔
          (PinFileRecord.decode raw).pinConsecutiveMismatches.toNat = 3) := fun howned ↦
      (hworld pinFilePath (Or.inl rfl) raw (hread raw rfl).1 howned).blockMatches hlaws hlength
        hvalid
    simp only [PinFileRecord.headerValid, Bool.and_eq_true, decide_eq_true_eq] at hvalid
    obtain ⟨⟨⟨-, hretries⟩, hmismatches⟩, -⟩ := hvalid
    -- The retry fields are written before the enclave is asked for the hash.
    have hfields : ∀ pinHash : Bytes, pinHash.length = pinHashLen → Regular own { state with
        pinHash := pinHash
        pinRetries := (PinFileRecord.decode raw).pinRetries.toNat
        pinConsecutiveMismatches := (PinFileRecord.decode raw).pinConsecutiveMismatches.toNat
        pinAuthBlocked := (PinFileRecord.decode raw).flags &&& pinFileFlagAuthBlocked != 0 } := by
      intro pinHash hhash
      refine ⟨⟨hhash, hretries, hmismatches⟩, fun howned ↦ ?_⟩
      exact hblock (howned.elim id fun hpin ↦ absurd (hset.symm.trans hpin) (by simp))
    simp only [ensures_bind]
    refine Crypto.ensures_enclaveOpen fun opened second hsecond _ hopened ↦ ?_
    replace hsecond : OwnFiles crypto own second := hmiddle.of_files_eq hsecond.files_eq
    cases opened with
    | none => exact ⟨⟨hfields state.pinHash h.pinHash, hset⟩, hsecond⟩
    | some pinHash =>
      have hhash : pinHash.length = pinHashLen := by
        rw [hopened pinHash rfl, hopen]
        simp [PinFileRecord.decode, hlength, pinFileRecordSize, pinHashLen]
      simp only [ensures_bind]
      refine ensures_pinVerifyRetryState fun ok third hthird ↦ ?_
      replace hthird : OwnFiles crypto own third := hsecond.of_files_eq hthird.files_eq
      simp only [ensures_ite, ensures_pure]
      exact ⟨fun _ ↦ ⟨⟨hfields pinHash hhash, hset⟩, hthird⟩,
        fun _ ↦ ⟨⟨hfields pinHash hhash, hset⟩, hthird⟩⟩

theorem sustains_pinInitWithResult (hlaws : SealLaws crypto)
    (hopen : ∀ iv ciphertext, (crypto.enclaveDecrypt iv ciphertext).length = ciphertext.length) :
    Sustains (OwnFiles crypto own) (fun result ↦ Regular own result.2)
      (pinInitWithResult crypto) := by
  unfold pinInitWithResult
  have hrecovered : Sustains (OwnFiles crypto own) (fun _ ↦ True) pinStateStoreCleanupTemp :=
    (sustains_recoverAtomicFile (Or.inr (Or.inl rfl))).bind fun _ _ ↦ .pure trivial
  refine hrecovered.bind fun _ _ ↦ ?_
  refine (sustains_pinStateStoreLoad hlaws hopen (regular_fresh le_rfl) rfl).bind
    fun loaded hloaded ↦ ?_
  obtain ⟨status, state⟩ := loaded
  obtain ⟨hregular, hset⟩ := hloaded
  refine .ite (fun _ ↦ .pure ⟨⟨rfl, hregular.pinRetries, hregular.pinConsecutiveMismatches⟩,
    hregular.blocked⟩) fun _ ↦ ?_
  have hpin : Regular own (if status = .ok then { state with pinSet := true }.clearAuthBlockState
      else state) := by
    split_ifs
    · exact regular_unblocked hregular.pinHash hregular.pinRetries
    · exact hregular
  refine sustains_pinRefreshRuntimeSecrets.bind fun secrets _ ↦ ?_
  obtain ⟨token, key⟩ := secrets
  exact .ite (fun _ ↦ .pure (hpin.of_saved rfl rfl)) fun _ ↦ .pure (hpin.of_saved rfl rfl)

end Restart

section Commands

variable {crypto : Crypto} {own : Prop} {state : ClientPinState}

/-- Reading the clock. -/
theorem sustains_getTick :
    Sustains (OwnFiles crypto own) (fun _ ↦ True) (getTick : Program Device ℕ) :=
  Sustains.get.bind fun _ _ ↦ .pure trivial

theorem Regular.setTokenPermissions (h : Regular own state) (permissions : UInt64)
    (permissionScoped permissionManaged : Bool) (rpId : Option Bytes) :
    Regular own (setTokenPermissions crypto state permissions permissionScoped permissionManaged
      rpId) :=
  h.of_saved rfl rfl

theorem sustains_pinCommitAuthorization (h : Regular own state) (request : AuthRequest) :
    Sustains (OwnFiles crypto own) (fun result ↦ Regular own result.2)
      (pinCommitAuthorization crypto state request) := by
  have hnext : Regular own state.clearAuthBlockState := regular_unblocked h.pinHash h.pinRetries
  have hused : Regular own (consumeUpTestedPermissions state.clearAuthBlockState
      request.requiredPermissions) := by
    unfold consumeUpTestedPermissions
    dsimp only
    split_ifs
    · exact hnext
    · exact hnext.of_saved rfl rfl
    · exact hnext.of_saved rfl rfl
  have hlast : Regular own (if state.clearAuthBlockState.pinTokenPermissionsManaged then
      consumeUpTestedPermissions state.clearAuthBlockState request.requiredPermissions
      else state.clearAuthBlockState) := by
    split_ifs
    · exact hused
    · exact hnext
  unfold pinCommitAuthorization
  refine (sustains_pinStateStorePersist hnext).bind fun _ _ ↦
    .ite (fun _ ↦ .pure (h.of_saved rfl rfl)) fun _ ↦ ?_
  exact Sustains.get.bind fun _ _ ↦ (sustains_note _).bind fun _ _ ↦ .pure hlast

theorem sustains_pinAuthorize (h : Regular own state) (request : AuthRequest) :
    Sustains (OwnFiles crypto own) (fun result ↦ Regular own result.2)
      (pinAuthorize crypto state request) := by
  have hcommitted : Sustains (OwnFiles crypto own) (fun result ↦ Regular own result.2)
      (pinCommitAuthorization crypto state request) := sustains_pinCommitAuthorization h request
  unfold pinAuthorize
  refine .ite (fun _ ↦ .pure h) fun _ ↦ .ite (fun _ ↦ .ite (fun _ ↦ .pure h) fun _ ↦
    .ite (fun _ ↦ .pure h) fun _ ↦ .ite (fun _ ↦ ?_) fun _ ↦ hcommitted) fun _ ↦ hcommitted
  exact sustains_pinCommitAuthorization (h.setTokenPermissions _ _ _ _) request

theorem sustains_pinRequireAuth (h : Regular own state) (request : AuthRequest) :
    Sustains (OwnFiles crypto own) (fun result ↦ Regular own result.2)
      (pinRequireAuth crypto state request) := by
  unfold pinRequireAuth
  refine .ite (fun _ ↦ ?_) fun _ ↦ .ite (fun _ ↦ .pure h) fun _ ↦
    .ite (fun _ ↦ .pure h) fun _ ↦ .pure h
  refine .ite (fun _ ↦ .pure h) fun _ ↦ .ite (fun _ ↦ .pure h) fun _ ↦
    .ite (fun _ ↦ .pure h) fun _ ↦ .ite (fun _ ↦ .pure h) fun hblocked ↦
    .ite (fun _ ↦ .pure h) fun hset ↦ .ite (fun _ ↦ .pure h) fun _ ↦ ?_
  have hexpired : Sustains (OwnFiles crypto own) (fun _ ↦ True) (pinTokenIsExpired state) :=
    sustains_getTick.bind fun _ _ ↦ .pure trivial
  refine hexpired.bind fun _ _ ↦ .ite (fun _ ↦ .pure (h.of_saved rfl rfl)) fun _ ↦ ?_
  cases crypto.hmacSha256 state.pinToken request.clientDataHash with
  | none => exact .pure h
  | some expected =>
    refine .ite (fun _ ↦ ?_) fun _ ↦ sustains_pinAuthorize h request
    exact (sustains_pinNotePinAuthMismatch h (by simpa using hset)
      (Bool.eq_false_iff.mpr hblocked)).bind fun _ hnoted ↦ .pure hnoted

theorem sustains_waitFor (h : Regular own state) (delay : ℕ) :
    Sustains (OwnFiles crypto own) (Regular own) (waitFor delay state) :=
  (Sustains.modifying fun _ hworld ↦ hworld.of_files_eq rfl).bind fun _ _ ↦ .pure h

theorem sustains_requestPermissionTokenConsent (h : Regular own state) (pinHashPlain : Bytes)
    (consent : ConsentOutcome) (delay : ℕ) :
    Sustains (OwnFiles crypto own) (fun result ↦ Regular own result.2)
      (requestPermissionTokenConsent state pinHashPlain consent (waitFor delay)) := by
  refine (sustains_waitFor h delay).bind fun waited hwaited ↦ ?_
  refine .ite (fun _ ↦ .pure hwaited) fun _ ↦ .ite (fun _ ↦ .pure hwaited) fun _ ↦ ?_
  exact (sustains_note _).bind fun _ _ ↦ .ite (fun _ ↦ .pure hwaited) fun _ ↦ .pure hwaited

theorem sustains_pinProtocolEncrypt (pinProtocol : ℕ) (keys : ProtocolKeys) (plaintext : Bytes)
    (capacity : ℕ) :
    Sustains (OwnFiles crypto own) (fun _ ↦ True)
      (pinProtocolEncrypt crypto pinProtocol keys plaintext capacity :
        Program Device (Option Bytes)) := by
  unfold pinProtocolEncrypt
  refine .ite (fun _ ↦ .pure trivial) fun _ ↦ .ite (fun _ ↦ ?_) fun _ ↦ ?_
  · exact .ite (fun _ ↦ .pure trivial) fun _ ↦ .pure trivial
  · exact .ite (fun _ ↦ .pure trivial) fun _ ↦ (sustains_randomFill _).bind
      fun _ _ ↦ .pure trivial

theorem sustains_notePinTokenIssued (h : Regular own state) :
    Sustains (OwnFiles crypto own) (Regular own) (notePinTokenIssued state) :=
  sustains_getTick.bind fun _ _ ↦ .pure (h.of_saved rfl rfl)

theorem sustains_issuePinToken (h : Regular own state) (request : ClientPinRequest)
    (keys : ProtocolKeys) (permissionsMode requireLocalConsent : Bool) (outCapacity : ℕ) :
    Sustains (OwnFiles crypto own) (fun result ↦ Regular own result.state)
      (issuePinToken crypto state request keys permissionsMode requireLocalConsent
        outCapacity) := by
  unfold issuePinToken
  refine (sustains_randomFill _).bind fun token _ ↦ ?_
  refine (sustains_pinProtocolEncrypt _ keys token _).bind fun encrypted _ ↦ ?_
  cases encrypted with
  | none => exact .pure h
  | some encryptedToken =>
    dsimp only
    cases responseToken encryptedToken outCapacity with
    | none => exact .pure h
    | some response =>
      have hgranted : Regular own { state with pinToken := token } := h.of_saved rfl rfl
      refine (sustains_notePinTokenIssued (hgranted.setTokenPermissions _ _ _ _)).bind
        fun noted hnoted ↦ ?_
      exact Sustains.get.bind fun _ _ ↦ (sustains_note _).bind fun _ _ ↦ .pure hnoted

theorem sustains_clientPinHandleGetPinToken (h : Regular own state) (request : ClientPinRequest)
    (permissionsMode requireLocalConsent : Bool) (consent : ConsentOutcome)
    (delay outCapacity : ℕ) :
    Sustains (OwnFiles crypto own) (fun result ↦ Regular own result.state)
      (clientPinHandleGetPinToken crypto state request permissionsMode requireLocalConsent consent
        (waitFor delay) outCapacity) := by
  unfold clientPinHandleGetPinToken
  refine .ite (fun _ ↦ .pure h) fun hchecked ↦ ?_
  obtain ⟨hset, -, -⟩ :=
    requireExistingPin_success (getPinTokenChecks_success (not_not.mp hchecked))
  cases pinProtocolDeriveKeys crypto state request.pinProtocol request.platformX
      request.platformY with
  | none => exact .pure h
  | some keys =>
    dsimp only
    cases (pinProtocolDecrypt crypto request.pinProtocol keys request.pinHashEnc).filter
        fun plain ↦ plain.length == pinHashLen with
    | none => exact (sustains_pinAuthFailure h hset).bind fun _ hfailed ↦ .pure hfailed
    | some pinHashPlain =>
      refine (sustains_comparePinHash h hset pinHashPlain).bind fun compared hcompared ↦ ?_
      refine .ite (fun _ ↦ .pure hcompared) fun _ ↦ .ite (fun _ ↦ ?_) fun _ ↦
        sustains_issuePinToken hcompared request keys _ _ _
      refine (sustains_requestPermissionTokenConsent hcompared pinHashPlain consent delay).bind
        fun consented hconsented ↦ .ite (fun _ ↦ .pure hconsented) fun _ ↦ ?_
      exact sustains_issuePinToken hconsented request keys _ _ _

theorem sustains_clientPinHandleSetPin (hlaws : SealLaws crypto) (h : Regular own state)
    (request : ClientPinRequest) :
    Sustains (OwnFiles crypto own) (fun result ↦ Regular own result.state)
      (clientPinHandleSetPin crypto state request) := by
  unfold clientPinHandleSetPin
  refine .ite (fun _ ↦ .pure h) fun _ ↦ .ite (fun _ ↦ .pure h) fun _ ↦
    .ite (fun _ ↦ .pure h) fun _ ↦ ?_
  cases newPinCiphertextLen request.pinProtocol request.newPinEnc.length with
  | none => exact .pure h
  | some newPinPlainLen =>
    dsimp only
    cases pinProtocolDeriveKeys crypto state request.pinProtocol request.platformX
        request.platformY with
    | none => exact .pure h
    | some keys =>
      refine .ite (fun _ ↦ .pure h) fun _ ↦ ?_
      cases decryptNewPin crypto request keys newPinPlainLen with
      | error status => exact .pure h
      | ok pin =>
        exact (sustains_pinApplyPlaintext hlaws h pin true).bind fun _ happlied ↦ .pure happlied

theorem sustains_clientPinHandleChangePin (hlaws : SealLaws crypto) (h : Regular own state)
    (request : ClientPinRequest) :
    Sustains (OwnFiles crypto own) (fun result ↦ Regular own result.state)
      (clientPinHandleChangePin crypto state request) := by
  unfold clientPinHandleChangePin
  refine .ite (fun _ ↦ .pure h) fun hexisting ↦ .ite (fun _ ↦ .pure h) fun _ ↦
    .ite (fun _ ↦ .pure h) fun _ ↦ ?_
  obtain ⟨hset, -, -⟩ := requireExistingPin_success (not_not.mp hexisting)
  cases newPinCiphertextLen request.pinProtocol request.newPinEnc.length with
  | none => exact .pure h
  | some newPinPlainLen =>
    refine .ite (fun _ ↦ .pure h) fun _ ↦ ?_
    cases pinProtocolDeriveKeys crypto state request.pinProtocol request.platformX
        request.platformY with
    | none => exact .pure h
    | some keys =>
      refine .ite (fun _ ↦ .pure h) fun _ ↦ ?_
      dsimp only
      cases (pinProtocolDecrypt crypto request.pinProtocol keys request.pinHashEnc).filter
          fun plain ↦ plain.length == pinHashLen with
      | none => exact (sustains_pinAuthFailure h hset).bind fun _ hfailed ↦ .pure hfailed
      | some currentPinHash =>
        refine (sustains_pinVerifyHash h currentPinHash).bind fun verified hverified ↦
          .ite (fun _ ↦ .pure hverified) fun _ ↦ ?_
        cases decryptNewPin crypto request keys newPinPlainLen with
        | error status => exact .pure hverified
        | ok pin =>
          exact (sustains_pinApplyPlaintext hlaws hverified pin false).bind
            fun _ happlied ↦ .pure happlied

theorem sustains_pinHandleCommand (hlaws : SealLaws crypto) (h : Regular own state)
    (capabilities : Capabilities) (data : Bytes) (consent : ConsentOutcome)
    (delay outCapacity : ℕ) :
    Sustains (OwnFiles crypto own) (fun result ↦ Regular own result.state)
      (pinHandleCommand crypto state capabilities data consent (waitFor delay) outCapacity) := by
  unfold pinHandleCommand
  cases clientPinParseRequest data with
  | error status => exact .pure h
  | ok request =>
    refine .ite (fun _ ↦ .pure h) fun _ ↦ .ite (fun _ ↦ ?_) fun _ ↦ .ite (fun _ ↦ ?_) fun _ ↦
      .ite (fun _ ↦ sustains_clientPinHandleSetPin hlaws h request) fun _ ↦
      .ite (fun _ ↦ sustains_clientPinHandleGetPinToken h request _ _ consent delay _) fun _ ↦
      .ite (fun _ ↦ .ite (fun _ ↦ .pure h) fun _ ↦
        sustains_clientPinHandleGetPinToken h request _ _ consent delay _) fun _ ↦
      .ite (fun _ ↦ sustains_clientPinHandleChangePin hlaws h request) fun _ ↦ .pure h
    · cases responseRetries state outCapacity <;> exact .pure h
    · cases responseKeyAgreement state outCapacity <;> exact .pure h

end Commands

section Runs

variable {crypto : Crypto} {own : Prop}

/-- Every operation keeps the retry fields in step, and writes own contents only. -/
theorem sustains_execute (hlaws : SealLaws crypto)
    (hopen : ∀ iv ciphertext, (crypto.enclaveDecrypt iv ciphertext).length = ciphertext.length)
    {state : ClientPinState} (h : Regular own state) (operation : Operation) :
    Sustains (OwnFiles crypto own) (Regular own) (operation.execute crypto state) := by
  cases operation with
  | clientPin capabilities data consent delay outCapacity =>
    exact (sustains_pinHandleCommand hlaws h capabilities data consent delay outCapacity).bind
      fun _ hdone ↦ .pure hdone
  | authorize purpose request =>
    exact (sustains_pinRequireAuth h _).bind fun _ hdone ↦ .pure hdone
  | verifyPin pin => exact (sustains_pinVerifyPlaintext h pin).bind fun _ hdone ↦ .pure hdone
  | setPin pin =>
    exact (sustains_pinApplyPlaintext hlaws h pin true).bind fun _ hdone ↦ .pure hdone
  | replacePin newPin =>
    exact (sustains_pinApplyPlaintext hlaws h newPin false).bind fun _ hdone ↦ .pure hdone
  | resumeAttempts => exact (sustains_pinResumeAuthAttempts h).bind fun _ hdone ↦ .pure hdone
  | clearPin => exact (sustains_pinClear h).bind fun _ hdone ↦ .pure hdone
  | restart =>
    exact (sustains_pinInitWithResult hlaws hopen).bind fun _ hdone ↦ .pure hdone
  | wait milliseconds => exact sustains_waitFor h milliseconds

/-- The retry fields in memory and the PIN files of a system. -/
structure InStep (crypto : Crypto) (own : Prop) (system : System) : Prop where
  pin : Regular own system.pin
  files : OwnFiles crypto own system.world

theorem step_inStep (hlaws : SealLaws crypto)
    (hopen : ∀ iv ciphertext, (crypto.enclaveDecrypt iv ciphertext).length = ciphertext.length)
    (system : System) (operation : Operation) (h : InStep crypto own system) :
    InStep crypto own (step crypto system operation) := by
  have hspec : Ensures (operation.execute crypto system.pin)
      (fun pin world' ↦ Regular own pin ∧ OwnFiles crypto own world')
      (OwnFiles crypto own) system.world :=
    sustains_execute hlaws hopen h.pin operation system.world h.files
  unfold Ensures at hspec
  unfold step
  cases hrun : (operation.execute crypto system.pin).run system.world with
  | ok pin world =>
    rw [hrun] at hspec
    exact ⟨hspec.1, hspec.2⟩
  | error interruption world =>
    rw [hrun] at hspec
    exact ⟨regular_fresh (Nat.zero_le _), hspec⟩

theorem run_inStep (hlaws : SealLaws crypto)
    (hopen : ∀ iv ciphertext, (crypto.enclaveDecrypt iv ciphertext).length = ciphertext.length)
    {device : Device} (hdevice : OwnFiles crypto own device) (operations : List Operation) :
    InStep crypto own (run (step crypto) (start device) operations) :=
  run_invariant_always (step_inStep hlaws hopen) operations
    ⟨regular_fresh (Nat.zero_le _), hdevice⟩

end Runs

section Results

variable {crypto : Crypto}

/-- Persisting the state succeeds on a device whose writes and enclave work; and whenever it
succeeds, a load that can read the file and use the enclave returns the saved fields. -/
def LoadsBack (crypto : Crypto) (state : ClientPinState) : Prop :=
  ∀ world : Device, Ensures (pinStateStorePersist crypto state)
    (fun ok world' ↦ (world.writes = [] → world.enclave = [] → ok = true) ∧
      (ok = true → ∀ later : Device, later.files = world'.files → later.reads = [] →
        later.enclave = [] → ∀ fresh, Ensures (pinStateStoreLoad crypto fresh)
          (fun result _ ↦ result = (.ok, { fresh with
            pinHash := state.pinHash
            pinRetries := state.pinRetries
            pinConsecutiveMismatches := state.pinConsecutiveMismatches
            pinAuthBlocked := state.pinAuthBlocked }))
          (fun _ ↦ False) later))
    (fun _ ↦ world.writes ≠ []) world

theorem loadsBack (hlaws : SealLaws crypto) {state : ClientPinState} (hfits : state.FitsFile)
    (hset : state.pinSet = true) : LoadsBack crypto state := by
  intro world
  refine (ensures_pinStateStorePersist_saved hset).mono ?_ fun _ hlost ↦ hlost.listed
  rintro ok world' ⟨-, hsaved, -, hfailed⟩
  constructor
  · intro hwrites henclave
    by_contra hok
    exact (hfailed (by simpa using hok)).elim (absurd hwrites) (absurd henclave)
  · intro hok later hfiles hreads henclave fresh
    obtain ⟨raw, hraw, hwritten⟩ := hsaved hok
    refine (ensures_pinStateStoreLoad_saved fresh).mono ?_ fun _ hfalse ↦ hfalse
    rintro result final ⟨-, -, hloaded⟩
    exact hloaded hreads henclave raw (by rw [hfiles, hraw]) _
      (loadedPin_of_saved hlaws hfits hwritten)

/-- In every state of a run the retry fields are in range. With a PIN set, and in every state when
the PIN files were the device's own at the start, the block flag says that three mismatches in a row
were counted. And every state with a PIN is persisted and loaded back as it is. -/
theorem pin_state_invariant (crypto : Crypto) (hlaws : SealLaws crypto)
    (hopen : ∀ iv ciphertext, (crypto.enclaveDecrypt iv ciphertext).length = ciphertext.length)
    (device : Device) (operations : List Operation) :
    let state := (run (step crypto) (start device) operations).pin
    state.pinRetries ≤ 8 ∧ state.pinConsecutiveMismatches ≤ 3 ∧
      (state.pinSet = true ∨ Holds PinFile (OwnContents crypto) device →
        (state.pinAuthBlocked = true ↔ state.pinConsecutiveMismatches = 3)) ∧
      (state.pinSet = true → LoadsBack crypto state) := by
  have hdevice : OwnFiles crypto (Holds PinFile (OwnContents crypto) device) device :=
    fun path hpath raw hraw howned ↦ howned path hpath raw hraw
  have hrun : InStep crypto _ (run (step crypto) (start device) operations) :=
    run_inStep hlaws hopen hdevice operations
  exact ⟨hrun.pin.pinRetries, hrun.pin.pinConsecutiveMismatches,
    fun howned ↦ hrun.pin.blocked howned.symm, fun hset ↦ loadsBack hlaws hrun.pin.toFitsFile hset⟩

/-- A PIN is set and guessed wrong three times. -/
def threeWrongGuesses : List Operation :=
  [.restart, .setPin examplePin, .verifyPin [0x35, 0x36, 0x37, 0x38],
    .verifyPin [0x35, 0x36, 0x37, 0x38], .verifyPin [0x35, 0x36, 0x37, 0x38]]

theorem pin_state_invariant_threeWrongGuesses :
    let state := (run (step Crypto.standIn) (start (World.blank PinEvent)) threeWrongGuesses).pin
    state.pinSet = true ∧ state.pinConsecutiveMismatches = 3 ∧ state.pinAuthBlocked = true ∧
      LoadsBack Crypto.standIn state := by
  have h := pin_state_invariant Crypto.standIn sealLaws_standIn (fun _ _ ↦ rfl)
    (World.blank PinEvent) threeWrongGuesses
  exact ⟨rfl, rfl, (h.2.2.1 (Or.inl rfl)).mpr rfl, h.2.2.2 rfl⟩

/-- A PIN file with valid plain fields that blocks after no mismatch. Its seal does not match. -/
def strayPinFile : Bytes :=
  [0x31, 0x4E, 0x49, 0x50, 0x01, 0x08, 0x00, 0x01] ++ zeroBytes 80

/-- A device on which that file was found. -/
def strayDevice : Device :=
  { World.blank PinEvent with
    files := fun path ↦ if path = pinFilePath then some strayPinFile else none }

/-- The start-up that refuses a file leaves the file's retry fields in memory. -/
theorem refused_start_up_keeps_fields :
    ¬((run (step Crypto.standIn) (start strayDevice) [.restart]).pin.pinAuthBlocked = true ↔
      (run (step Crypto.standIn) (start strayDevice) [.restart]).pin.pinConsecutiveMismatches =
        3) := by
  decide +kernel

end Results

end ZeroFido.Pin
