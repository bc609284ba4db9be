import ZeroFido.Pin.Retry

/-!
# Authorisation by a PIN/UV token

`zerofido_pin_require_auth` of `pin/core/token.c`, the check that makeCredential and getAssertion
run before they act.
-/

set_option autoImplicit false
set_option relaxedAutoImplicit false

namespace ZeroFido.Pin

open Foundations Storage

/-- The arguments of `zerofido_pin_require_auth` that come from the request. -/
structure AuthRequest where
  uvRequested : Bool
  hasPinAuth : Bool
  clientDataHash : Bytes
  pinAuth : Bytes
  hasPinProtocol : Bool
  pinProtocol : ℕ
  rpId : Option Bytes
  requiredPermissions : UInt64
  deriving DecidableEq, Repr

/-- The request comes to `zf_pin_token_is_expired`: none of the checks before it answers the request
already. -/
structure ReachesExpiryCheck (state : ClientPinState) (request : AuthRequest) : Prop where
  hasPinAuth : request.hasPinAuth = true
  hasPinProtocol : request.hasPinProtocol = true
  pinProtocol : request.pinProtocol = pinProtocolV1 ∨ request.pinProtocol = pinProtocolV2
  pinAuth : request.pinAuth.length = pinUvAuthParamLen request.pinProtocol
  pinAuthBlocked : state.pinAuthBlocked = false
  pinSet : state.pinSet = true
  pinTokenActive : state.pinTokenActive = true

section Operations

variable (crypto : Crypto)

/-- The end of `zerofido_pin_require_auth`: the mismatch count is cleared durably, and a token
issued with consent loses the permission it was used for. -/
def pinCommitAuthorization (state : ClientPinState) (request : AuthRequest) :
    Program Device ((CtapStatus × Bool) × ClientPinState) := do
  let next := state.clearAuthBlockState
  if !(← pinStateStorePersist crypto next) then
    return ((.other, false), { next with
      pinConsecutiveMismatches := state.pinConsecutiveMismatches
      pinAuthBlocked := state.pinAuthBlocked })
  let next := if next.pinTokenPermissionsManaged then
    consumeUpTestedPermissions next request.requiredPermissions else next
  note (.authorized (← get).clock request.requiredPermissions request.rpId)
  return ((.success, true), next)

/-- The part of `zerofido_pin_require_auth` after the token itself has been accepted: permissions
first, then the RP binding. A scoped token that is not bound yet is bound to the first RP ID it is
used with. -/
def pinAuthorize (state : ClientPinState) (request : AuthRequest) :
    Program Device ((CtapStatus × Bool) × ClientPinState) := do
  let required := request.requiredPermissions
  if state.pinTokenPermissions &&& required ≠ required then
    return ((.pinAuthInvalid, false), state)
  if state.pinTokenPermissionsScoped ∧ required &&& (permissionMc ||| permissionGa) ≠ 0 then
    if request.rpId = none ∨ request.rpId = some [] then
      return ((.pinAuthInvalid, false), state)
    if !tokenRpIdMatches crypto state request.rpId then
      return ((.pinAuthInvalid, false), state)
    if !state.pinTokenPermissionsRpIdSet then
      let state := setTokenPermissions crypto state state.pinTokenPermissions
        state.pinTokenPermissionsScoped state.pinTokenPermissionsManaged request.rpId
      pinCommitAuthorization crypto state request
    else
      pinCommitAuthorization crypto state request
  else
    pinCommitAuthorization crypto state request

/-- `zerofido_pin_require_auth`: the status, whether the user was verified, and the new state. -/
def pinRequireAuth (state : ClientPinState) (request : AuthRequest) :
    Program Device ((CtapStatus × Bool) × ClientPinState) := do
  if request.hasPinAuth then
    if !request.hasPinProtocol then
      return ((.missingParameter, false), state)
    if request.pinProtocol ≠ pinProtocolV1 ∧ request.pinProtocol ≠ pinProtocolV2 then
      return ((.invalidParameter, false), state)
    if request.pinAuth.length ≠ pinUvAuthParamLen request.pinProtocol then
      return ((.pinAuthInvalid, false), state)
    if state.pinAuthBlocked then
      return ((.pinAuthBlocked, false), state)
    if !state.pinSet then
      return ((.pinNotSet, false), state)
    if !state.pinTokenActive then
      return ((.pinAuthInvalid, false), state)
    if ← pinTokenIsExpired state then
      return ((.pinTokenExpired, false), state.invalidateTokenState)
    match crypto.hmacSha256 state.pinToken request.clientDataHash with
    | none => return ((.other, false), state)
    | some expected =>
      if !constantTimeEqual expected request.pinAuth (pinUvAuthParamLen request.pinProtocol) then
        let (status, state) ← pinNotePinAuthMismatch crypto state
        return ((status, false), state)
      pinAuthorize crypto state request
  else if !state.pinSet then
    return ((if request.uvRequested then .pinNotSet else .success, false), state)
  else if !request.uvRequested then
    return ((.success, false), state)
  else
    return ((.pinRequired, false), state)

end Operations

end ZeroFido.Pin
