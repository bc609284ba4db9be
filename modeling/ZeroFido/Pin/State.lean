import ZeroFido.Crypto
import Mathlib.Algebra.Group.Int.Defs

/-!
# The clientPIN state

`ZfClientPinState` and the functions of `pin/core/token.c` and `pin/core/retry.c` that change it
without touching the device. Retry counters are natural numbers; the C code keeps them in a byte and
never lets them pass its bounds. Ticks are natural numbers below `2 ^ 32`.
-/

set_option autoImplicit false
set_option relaxedAutoImplicit false

namespace ZeroFido.Pin

open Foundations Storage

def permissionMc : UInt64 := 0x01
def permissionGa : UInt64 := 0x02
def permissionCm : UInt64 := 0x04
def permissionBe : UInt64 := 0x08
def permissionLbw : UInt64 := 0x10
def permissionAcfg : UInt64 := 0x20

def pinProtocolV1 : ℕ := 1
def pinProtocolV2 : ℕ := 2

/-- `ZfClientPinState`. The defaults are the state after `memset(state, 0, sizeof(*state))`. -/
structure ClientPinState where
  pinSet : Bool := false
  pinHash : Bytes := zeroBytes pinHashLen
  pinToken : Bytes := zeroBytes pinTokenLen
  pinTokenActive : Bool := false
  pinTokenIssuedAt : ℕ := 0
  pinTokenPermissions : UInt64 := 0
  pinTokenPermissionsScoped : Bool := false
  pinTokenPermissionsManaged : Bool := false
  pinTokenPermissionsRpIdSet : Bool := false
  pinTokenPermissionsRpIdHash : Bytes := zeroBytes 32
  pinRetries : ℕ := 0
  pinConsecutiveMismatches : ℕ := 0
  pinAuthBlocked : Bool := false
  keyAgreement : KeyAgreementKey := {}
  deriving DecidableEq, Repr

/-- How a token was asked for: with explicit permissions and an RP ID or not, and whether local
consent was required. -/
structure TokenGrant where
  permissionsMode : Bool
  rpId : Option Bytes
  managed : Bool
  deriving DecidableEq, Repr

/-- What an observer of the clientPIN component is told. -/
inductive PinEvent where
  /-- A PIN hash was compared with the stored one. -/
  | hashCompared (equal : Bool)
  /-- The retry counter was set back to its maximum. -/
  | retriesReset
  /-- A token was issued at the given time. -/
  | tokenIssued (time : ℕ) (grant : TokenGrant)
  /-- A request was authorised with user verification at the given time. -/
  | authorized (time : ℕ) (permissions : UInt64) (rpId : Option Bytes)
  deriving DecidableEq, Repr

/-- The device with the clientPIN observer. -/
abbrev Device := World PinEvent

namespace ClientPinState

/-- `zf_pin_reset_token_metadata`. -/
def resetTokenMetadata (state : ClientPinState) : ClientPinState :=
  { state with
    pinTokenActive := false
    pinTokenIssuedAt := 0
    pinTokenPermissions := 0
    pinTokenPermissionsScoped := false
    pinTokenPermissionsManaged := false
    pinTokenPermissionsRpIdSet := false
    pinTokenPermissionsRpIdHash := zeroBytes 32 }

/-- `zf_pin_invalidate_token_state`. -/
def invalidateTokenState (state : ClientPinState) : ClientPinState :=
  { state with pinToken := zeroBytes pinTokenLen }.resetTokenMetadata

/-- `zf_pin_clear_auth_block_state`. -/
def clearAuthBlockState (state : ClientPinState) : ClientPinState :=
  { state with pinConsecutiveMismatches := 0, pinAuthBlocked := false }

/-- `zf_pin_force_runtime_block`. -/
def forceRuntimeBlock (state : ClientPinState) : ClientPinState :=
  { state with
    pinRetries := 0
    pinConsecutiveMismatches := 3
    pinAuthBlocked := true }.invalidateTokenState

/-- The mismatch bookkeeping that `zf_pin_note_pin_auth_mismatch` and `zf_pin_auth_failure` share:
a saturating count, and the block at three. -/
def noteMismatch (state : ClientPinState) : ClientPinState :=
  let mismatches := if state.pinConsecutiveMismatches < 255 then
    state.pinConsecutiveMismatches + 1 else state.pinConsecutiveMismatches
  { state with
    pinConsecutiveMismatches := mismatches
    pinAuthBlocked := if 3 ≤ mismatches then true else state.pinAuthBlocked }

end ClientPinState

section Token

variable (crypto : Crypto)

/-- `zf_pin_hash_rp_id`; a missing or empty RP ID has no hash. -/
def hashRpId (rpId : Option Bytes) : Option Bytes :=
  match rpId with
  | none => none
  | some [] => none
  | some rpId => some (crypto.sha256 rpId)

/-- `zf_pin_set_token_permissions`. -/
def setTokenPermissions (state : ClientPinState) (permissions : UInt64)
    (permissionScoped permissionManaged : Bool) (rpId : Option Bytes) : ClientPinState :=
  { state with
    pinTokenPermissions := permissions
    pinTokenPermissionsScoped := permissionScoped
    pinTokenPermissionsManaged := permissionManaged
    pinTokenPermissionsRpIdSet := (hashRpId crypto rpId).isSome
    pinTokenPermissionsRpIdHash := (hashRpId crypto rpId).getD (zeroBytes 32) }

/-- `zf_pin_token_rp_id_matches`: a token without a bound RP ID matches every RP ID. -/
def tokenRpIdMatches (state : ClientPinState) (rpId : Option Bytes) : Bool :=
  match hashRpId crypto rpId with
  | none => false
  | some rpIdHash =>
    if state.pinTokenPermissionsRpIdSet then
      constantTimeEqual state.pinTokenPermissionsRpIdHash rpIdHash 32
    else
      true

/-- `zf_pin_note_pin_token_issued`. -/
def notePinTokenIssued (state : ClientPinState) : Program Device ClientPinState := do
  let tick ← getTick
  return { state with pinTokenActive := true, pinTokenIssuedAt := tick }

/-- The value of a C `uint32_t` cast to `int32_t`. -/
def asInt32 (value : ℕ) : ℤ :=
  if value < 2 ^ 31 then value else (value : ℤ) - 2 ^ 32

/-- `zf_pin_token_is_expired`: the wrapped difference of two ticks, compared as a signed number. -/
def pinTokenIsExpired (state : ClientPinState) : Program Device Bool := do
  let tick ← getTick
  let elapsed := (tick + 2 ^ 32 - state.pinTokenIssuedAt) % 2 ^ 32
  return decide ((pinTokenTimeoutMs : ℤ) ≤ asInt32 elapsed)

/-- `zf_pin_uv_auth_param_len`. -/
def pinUvAuthParamLen (pinProtocol : ℕ) : ℕ :=
  if pinProtocol = pinProtocolV2 then pinAuthMaxLen else pinAuthLen

/-- `zf_pin_consume_up_tested_permissions`. -/
def consumeUpTestedPermissions (state : ClientPinState) (required : UInt64) : ClientPinState :=
  let upTested := permissionMc ||| permissionGa
  if required &&& upTested = 0 then
    state
  else
    let state := { state with pinTokenPermissions := state.pinTokenPermissions &&& ~~~upTested }
    if state.pinTokenPermissions &&& upTested = 0 then
      { state with
        pinTokenPermissionsScoped := false
        pinTokenPermissionsManaged := false
        pinTokenPermissionsRpIdSet := false
        pinTokenPermissionsRpIdHash := zeroBytes 32 }
    else
      state

end Token

end ZeroFido.Pin
