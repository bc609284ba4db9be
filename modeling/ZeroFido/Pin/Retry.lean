import ZeroFido.Pin.StateStore

/-!
# Retry accounting

`pin/core/retry.c`: what a wrong PIN hash, a mismatching `pinUvAuthParam` and a correct PIN do to
the retry counter, the mismatch count and the block flag, and how they fail closed when the
stricter state cannot be persisted.
-/

set_option autoImplicit false
set_option relaxedAutoImplicit false

namespace ZeroFido.Pin

open Foundations Storage

section Operations

variable (crypto : Crypto)

/-- How `zf_pin_note_pin_auth_mismatch` and `zf_pin_auth_failure` keep a stricter state: persist it,
or spoil the file, or block the running authenticator. -/
def persistOrBlock (state : ClientPinState) : Program Device ClientPinState := do
  if ← pinStateStorePersist crypto state then
    return state
  if ← pinStateStoreFailClosed state then
    return state
  return state.forceRuntimeBlock

/-- `zf_pin_note_pin_auth_mismatch`. -/
def pinNotePinAuthMismatch (state : ClientPinState) :
    Program Device (CtapStatus × ClientPinState) := do
  let state ← persistOrBlock crypto state.noteMismatch
  return (if state.pinAuthBlocked then .pinAuthBlocked else .pinAuthInvalid, state)

/-- The stricter state `zf_pin_auth_failure` builds once it has a new key. -/
def penalised (state : ClientPinState) (key : KeyAgreementKey) : ClientPinState :=
  { state with
    keyAgreement := key
    pinRetries := if 0 < state.pinRetries then state.pinRetries - 1 else state.pinRetries
  }.noteMismatch

/-- `zf_pin_auth_failure`. -/
def pinAuthFailure (state : ClientPinState) : Program Device (CtapStatus × ClientPinState) := do
  if state.pinAuthBlocked then
    return (.pinAuthBlocked, state)
  match ← crypto.generateKeyAgreementKey with
  | none => return (.other, state)
  | some key =>
    let state ← persistOrBlock crypto (penalised state key)
    if state.pinRetries = 0 then
      return (.pinBlocked, state)
    return (if state.pinAuthBlocked then .pinAuthBlocked else .pinInvalid, state)

/-- `zf_pin_auth_success`. -/
def pinAuthSuccess (state : ClientPinState) : Program Device (CtapStatus × ClientPinState) := do
  let next := { state with pinRetries := pinRetriesMax }.clearAuthBlockState
  if ← pinStateStorePersist crypto next then
    note .retriesReset
    return (.success, next)
  return (.other, { next with
    pinRetries := state.pinRetries
    pinConsecutiveMismatches := state.pinConsecutiveMismatches
    pinAuthBlocked := state.pinAuthBlocked })

/-- The comparison of a PIN hash with the stored one, and what follows from its result. It ends both
`zf_pin_verify_hash` and the authentication part of `zf_client_pin_handle_get_pin_token`. -/
def comparePinHash (state : ClientPinState) (pinHash : Bytes) :
    Program Device (CtapStatus × ClientPinState) := do
  let equal := constantTimeEqual pinHash state.pinHash pinHashLen
  note (.hashCompared equal)
  if !equal then
    pinAuthFailure crypto state
  else
    pinAuthSuccess crypto state

/-- `zf_pin_verify_hash`. -/
def pinVerifyHash (state : ClientPinState) (pinHash : Bytes) :
    Program Device (CtapStatus × ClientPinState) := do
  if !state.pinSet then
    return (.pinNotSet, state)
  if state.pinAuthBlocked then
    return (.pinAuthBlocked, state)
  if state.pinRetries = 0 then
    return (.pinBlocked, state)
  comparePinHash crypto state pinHash

/-- `zerofido_pin_resume_auth_attempts`. -/
def pinResumeAuthAttempts (state : ClientPinState) : Program Device (Bool × ClientPinState) := do
  if !state.pinSet then
    return (false, state)
  if !state.pinAuthBlocked && state.pinConsecutiveMismatches == 0 then
    return (true, state)
  let next := state.clearAuthBlockState
  if ← pinStateStorePersist crypto next then
    return (true, next)
  return (false, { next with
    pinConsecutiveMismatches := state.pinConsecutiveMismatches
    pinAuthBlocked := state.pinAuthBlocked })

end Operations

end ZeroFido.Pin
