import ZeroFido.Cbor
import ZeroFido.Pin.Retry

/-!
# PIN lifecycle

`pin/core/lifecycle.c` and `pin/core/plaintext.c`: start-up, clearing the PIN, and setting or
verifying a PIN given in plain text, with the CTAP policy on its length and encoding.
-/

set_option autoImplicit false
set_option relaxedAutoImplicit false

namespace ZeroFido.Pin

open Foundations Storage

section Policy

def maxPinUtf8Bytes : ℕ := pinNewPinBlockMaxLen - 1

/-- `zf_pin_new_pin_enc_length_is_valid`. -/
def pinNewPinEncLengthIsValid (length : ℕ) : Bool :=
  decide (64 ≤ length) && decide (length ≤ pinNewPinBlockMaxLen) && length % 16 == 0

/-- `zf_pin_validate_plaintext_length`. -/
def pinValidatePlaintextLength (pinLen : ℕ) : CtapStatus :=
  if pinLen < minPinLength ∨ maxPinUtf8Bytes < pinLen then .pinPolicyViolation else .success

/-- `zf_pin_validate_utf8`: the number of code points. The C loop is the one of
`zf_cbor_utf8_is_valid` with a counter. -/
def pinValidateUtf8 (pin : Bytes) : Option ℕ := Cbor.utf8Count 0 pin

/-- `zf_pin_validate_plaintext_policy`. -/
def pinValidatePlaintextPolicy (pin : Bytes) : CtapStatus :=
  if maxPinUtf8Bytes < pin.length then
    .pinPolicyViolation
  else
    match pinValidateUtf8 pin with
    | none => .pinPolicyViolation
    | some codepoints => pinValidatePlaintextLength codepoints

/-- `zf_pin_validate_plaintext_block`: the PIN before the zero padding. -/
def pinValidatePlaintextBlock (data : Bytes) : Option Bytes :=
  let pin := data.takeWhile (· != 0)
  if pin.length = data.length then
    none
  else if maxPinUtf8Bytes < pin.length then
    none
  else if (data.drop pin.length).all (· == 0) then
    some pin
  else
    none

end Policy

section Operations

variable (crypto : Crypto)

/-- `ZfPinInitResult`. -/
inductive PinInitResult where
  | ok
  | invalidPersistedState
  | storageError
  deriving DecidableEq, Repr

/-- `zf_pin_refresh_runtime_secrets`. -/
def pinRefreshRuntimeSecrets : Program Device (Bytes × Option KeyAgreementKey) := do
  let token ← randomFill pinTokenLen
  let key ← crypto.generateKeyAgreementKey
  return (token, key)

/-- `zerofido_pin_init_with_result`. -/
def pinInitWithResult : Program Device (PinInitResult × ClientPinState) := do
  pinStateStoreCleanupTemp
  let state : ClientPinState := { pinRetries := pinRetriesMax }
  let (loadStatus, state) ← pinStateStoreLoad crypto state
  if loadStatus = .invalid then
    return (.invalidPersistedState, { state with pinHash := zeroBytes pinHashLen })
  let state := if loadStatus = .ok then { state with pinSet := true }.clearAuthBlockState else state
  let (token, key) ← pinRefreshRuntimeSecrets crypto
  let state := { state with pinToken := token, keyAgreement := key.getD {} }
  if key.isNone then
    return (.storageError, state)
  return (.ok, state.resetTokenMetadata)

/-- `zerofido_pin_clear`. -/
def pinClear (state : ClientPinState) : Program Device (Bool × ClientPinState) := do
  let (nextPinToken, nextKeyAgreement) ← pinRefreshRuntimeSecrets crypto
  match nextKeyAgreement with
  | none => return (false, state)
  | some nextKeyAgreement =>
    if !(← pinStateStoreClear) then
      return (false, state)
    note .retriesReset
    let state := { state with
      pinHash := zeroBytes pinHashLen
      pinSet := false
      pinRetries := pinRetriesMax }.clearAuthBlockState.invalidateTokenState
    return (true, { state with pinToken := nextPinToken, keyAgreement := nextKeyAgreement })

/-- `zf_pin_apply_plaintext`. -/
def pinApplyPlaintext (state : ClientPinState) (pin : Bytes) (requireUnset : Bool) :
    Program Device (CtapStatus × ClientPinState) := do
  let status := pinValidatePlaintextPolicy pin
  if status ≠ .success then
    return (status, state)
  if requireUnset && state.pinSet then
    return (.pinAuthInvalid, state)
  let nextPinToken ← randomFill pinTokenLen
  let next := { state with
    pinSet := true
    pinRetries := pinRetriesMax
    pinHash := (crypto.sha256 pin).take pinHashLen }.clearAuthBlockState
  if !(← pinStateStorePersist crypto next) then
    return (.other, { next with
      pinHash := state.pinHash
      pinSet := state.pinSet
      pinRetries := state.pinRetries
      pinConsecutiveMismatches := state.pinConsecutiveMismatches
      pinAuthBlocked := state.pinAuthBlocked })
  note .retriesReset
  return (.success, { next.invalidateTokenState with pinToken := nextPinToken })

/-- `zerofido_pin_verify_plaintext`. -/
def pinVerifyPlaintext (state : ClientPinState) (pin : Bytes) :
    Program Device (CtapStatus × ClientPinState) := do
  let status := pinValidatePlaintextPolicy pin
  if status ≠ .success then
    return (status, state)
  pinVerifyHash crypto state (crypto.sha256 pin)

/-- `zerofido_pin_set_plaintext`. -/
def pinSetPlaintext (state : ClientPinState) (pin : Bytes) :
    Program Device (CtapStatus × ClientPinState) :=
  pinApplyPlaintext crypto state pin true

/-- `zerofido_pin_replace_plaintext`. -/
def pinReplacePlaintext (state : ClientPinState) (newPin : Bytes) :
    Program Device (CtapStatus × ClientPinState) :=
  pinApplyPlaintext crypto state newPin false

end Operations

section Specifications

variable {crypto : Crypto} {world : Device}

theorem ensures_pinRefreshRuntimeSecrets {post : Bytes × Option KeyAgreementKey → Device → Prop}
    {crash : Device → Prop}
    (h : ∀ token key world', Idle world world' →
      (key = none → world.keyGenerations ≠ []) → post (token, key) world') :
    Ensures (pinRefreshRuntimeSecrets crypto) post crash world := by
  simp only [pinRefreshRuntimeSecrets, ensures_bind]
  refine ensures_randomFill fun token middle hmiddle _ ↦ ?_
  refine Crypto.ensures_generateKeyAgreementKey fun key world' hworld' hkey ↦ ?_
  refine h token key world' (hmiddle.trans hworld') fun hnone hnil ↦ ?_
  rw [hnone, hmiddle.keyGenerations_nil hnil] at hkey
  exact absurd hkey (by simp)

/-- A restart. It keeps what the PIN file holds and starts without a token; a PIN that is set has
its retry count from the file; and a primary file that is there is either read or reported invalid.
-/
theorem ensures_pinInitWithResult :
    Ensures (pinInitWithResult crypto)
      (fun outcome world' ↦ Quiet world world' ∧
        logical world'.files pinFilePath = logical world.files pinFilePath ∧
        outcome.2.pinTokenActive = false ∧
        (outcome.2.pinSet = true → ∃ raw, logical world.files pinFilePath = some raw ∧
          storedRetries raw = some outcome.2.pinRetries) ∧
        ((world.files pinFilePath).isSome → outcome.1 = .invalidPersistedState ∨
          outcome.2.pinSet = true) ∧
        (outcome.1 = .invalidPersistedState → outcome.2.pinSet = false))
      (fun world' ↦ PowerLost world world' ∧
        logical world'.files pinFilePath = logical world.files pinFilePath) world := by
  simp only [pinInitWithResult, pinStateStoreCleanupTemp, ensures_bind]
  refine (ensures_recoverAtomicFile pinPaths).mono ?_ fun final hfinal ↦
    ⟨⟨hfinal.moves.only.quiet, hfinal.writes⟩, Keeps.logical_eq hfinal.moves⟩
  rintro recovered first ⟨hkeeps, hdone, hfailed⟩
  -- The load reads the primary file, which recovery left equal to the file's contents or absent.
  have hprimary : first.files pinFilePath = logical world.files pinFilePath ∨
      world.files pinFilePath = none := by
    cases recovered with
    | true => exact Or.inl (hdone rfl)
    | false => exact Or.inr (hfailed rfl).2.1
  have hread : ∀ raw, first.files pinFilePath = some raw →
      logical world.files pinFilePath = some raw := by
    intro raw hraw
    have := hkeeps.logical_eq
    rwa [logical, hraw, Option.some_or, eq_comm] at this
  refine (ensures_pinStateStoreLoad _).mono ?_ fun _ hfalse ↦ hfalse.elim
  rintro ⟨loadStatus, state⟩ second ⟨hsecond, hok, hmissing, hstate⟩
  have hquiet : Quiet world second := hkeeps.only.quiet.trans hsecond.toQuiet
  have hlogical : logical second.files pinFilePath = logical world.files pinFilePath := by
    rw [hsecond.files_eq, hkeeps.logical_eq]
  have hpresent : (world.files pinFilePath).isSome → loadStatus ≠ .missing := by
    intro hsome hstatus
    obtain ⟨raw, hraw⟩ := Option.isSome_iff_exists.mp hsome
    obtain hprimary | hnone := hprimary
    · rw [hmissing.mp hstatus, logical, hraw, Option.some_or] at hprimary
      exact absurd hprimary (by simp)
    · rw [hnone] at hraw
      exact absurd hraw (by simp)
  simp only at hstate hok
  cases hload : loadStatus with
  | invalid =>
    simp only [if_true, ensures_pure]
    refine ⟨hquiet, hlogical, ?_, ?_, fun _ ↦ Or.inl trivial, fun _ ↦ ?_⟩
    · rw [hstate]
    · rw [hstate]
      simp
    · rw [hstate]
  | missing =>
    simp only [reduceCtorEq, if_false, ensures_bind]
    refine ensures_pinRefreshRuntimeSecrets fun token key third hthird _ ↦ ?_
    have hnotset : state.pinSet = false := by rw [hstate]
    have hinactive : state.pinTokenActive = false := by rw [hstate]
    simp only [ensures_ite, ensures_pure, hthird.files_eq, hlogical]
    refine ⟨fun _ ↦ ⟨hquiet.trans hthird.toQuiet, trivial, hinactive, ?_, ?_, ?_⟩,
      fun _ ↦ ⟨hquiet.trans hthird.toQuiet, trivial, rfl, ?_, ?_, ?_⟩⟩
    all_goals first
      | exact fun hsome ↦ absurd hload (hpresent hsome)
      | simp [hnotset, ClientPinState.resetTokenMetadata]
  | ok =>
    obtain ⟨raw, hraw, hretries⟩ := hok hload
    simp only [reduceCtorEq, if_false, if_true, ensures_bind]
    refine ensures_pinRefreshRuntimeSecrets fun token key third hthird _ ↦ ?_
    have hinactive : state.pinTokenActive = false := by rw [hstate]
    simp only [ensures_ite, ensures_pure, hthird.files_eq, hlogical]
    refine ⟨fun _ ↦ ⟨hquiet.trans hthird.toQuiet, trivial, hinactive,
        fun _ ↦ ⟨raw, hread raw hraw, hretries⟩, fun _ ↦ Or.inr rfl, by simp⟩,
      fun _ ↦ ⟨hquiet.trans hthird.toQuiet, trivial, rfl,
        fun _ ↦ ⟨raw, hread raw hraw, hretries⟩, fun _ ↦ Or.inr rfl, by simp⟩⟩

/-- A restart changes nothing but the three files of the PIN. -/
theorem ensures_pinInitWithResult_frame :
    Ensures (pinInitWithResult crypto)
      (fun _ world' ↦ ∀ other, other ≠ pinFilePath → other ≠ backupOf pinFilePath →
        other ≠ pinFileTempPath → world'.files other = world.files other)
      (fun world' ↦ ∀ other, other ≠ pinFilePath → other ≠ backupOf pinFilePath →
        other ≠ pinFileTempPath → world'.files other = world.files other) world := by
  simp only [pinInitWithResult, pinStateStoreCleanupTemp, ensures_bind]
  refine (ensures_recoverAtomicFile pinPaths).mono ?_ fun final hfinal ↦ hfinal.moves.frame
  rintro recovered first ⟨hkeeps, -⟩
  refine (ensures_pinStateStoreLoad _).mono ?_ fun _ hfalse ↦ hfalse.elim
  rintro ⟨loadStatus, state⟩ second ⟨hsecond, -⟩
  have hframe : ∀ other, other ≠ pinFilePath → other ≠ backupOf pinFilePath →
      other ≠ pinFileTempPath → second.files other = world.files other := by
    intro other hpath hbackup htemp
    rw [hsecond.files_eq, hkeeps.frame other hpath hbackup htemp]
  simp only [ensures_ite, ensures_pure, ensures_bind]
  refine ⟨fun _ ↦ hframe, fun _ ↦ ?_⟩
  refine ensures_pinRefreshRuntimeSecrets fun token key third hthird _ ↦ ?_
  rw [← hthird.files_eq] at hframe
  exact ⟨fun _ ↦ hframe, fun _ ↦ hframe⟩

/-- A restart in which nothing fails finds a PIN file, if there is one, valid or not, and otherwise
starts without a PIN. -/
theorem ensures_pinInitWithResult_clean (hwrites : world.writes = [])
    (hkeys : world.keyGenerations = []) :
    Ensures (pinInitWithResult crypto)
      (fun outcome _ ↦
        ((logical world.files pinFilePath).isSome → outcome.1 = .invalidPersistedState ∨
          outcome.2.pinSet = true) ∧
        (logical world.files pinFilePath = none → outcome.1 = .ok ∧ outcome.2.pinSet = false))
      (fun _ ↦ False) world := by
  simp only [pinInitWithResult, pinStateStoreCleanupTemp, ensures_bind]
  refine (ensures_recoverAtomicFile pinPaths).mono ?_ fun final hfinal ↦ hfinal.writes hwrites
  rintro recovered first ⟨hkeeps, hdone, hfailed⟩
  have hprimary : first.files pinFilePath = logical world.files pinFilePath := by
    cases recovered with
    | true => exact hdone rfl
    | false => exact absurd hwrites (hfailed rfl).1
  refine (ensures_pinStateStoreLoad _).mono ?_ fun _ hfalse ↦ hfalse.elim
  rintro ⟨loadStatus, state⟩ second ⟨hsecond, -, hmissing, hstate⟩
  simp only at hstate hmissing
  have hkeys' : second.keyGenerations = [] :=
    hsecond.keyGenerations_nil (hkeeps.only.quiet.keyGenerations_nil hkeys)
  have hunset : state.pinSet = false := by rw [hstate]
  have hnone : loadStatus = .missing ↔ logical world.files pinFilePath = none := by
    rw [hmissing, hprimary]
  cases hload : loadStatus with
  | invalid =>
    rw [hload] at hnone
    have hsome : logical world.files pinFilePath ≠ none := fun h ↦ absurd (hnone.mpr h) (by simp)
    simp only [if_true, ensures_pure]
    exact ⟨fun _ ↦ Or.inl trivial, fun h ↦ absurd h hsome⟩
  | missing =>
    have hmissing' := hnone.mp hload
    simp only [reduceCtorEq, if_false, ensures_bind]
    refine ensures_pinRefreshRuntimeSecrets fun token key third hthird hkey ↦ ?_
    have hsome : key.isNone = false := by
      cases key with
      | none => exact absurd hkeys' (hkey rfl)
      | some key => rfl
    simp only [hsome, Bool.false_eq_true, if_false, ensures_pure]
    refine ⟨fun h ↦ ?_, fun _ ↦ ⟨trivial, hunset⟩⟩
    rw [hmissing'] at h
    exact absurd h (by simp)
  | ok =>
    rw [hload] at hnone
    have hsome : logical world.files pinFilePath ≠ none := fun h ↦ absurd (hnone.mpr h) (by simp)
    simp only [reduceCtorEq, if_false, if_true, ensures_bind]
    refine ensures_pinRefreshRuntimeSecrets fun token key third hthird _ ↦ ?_
    simp only [ensures_ite, ensures_pure]
    exact ⟨fun _ ↦ ⟨fun _ ↦ Or.inr rfl, fun h ↦ absurd h hsome⟩,
      fun _ ↦ ⟨fun _ ↦ Or.inr rfl, fun h ↦ absurd h hsome⟩⟩

end Specifications

end ZeroFido.Pin
