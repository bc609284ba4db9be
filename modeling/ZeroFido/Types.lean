import Mathlib.Data.List.Basic
import Mathlib.Algebra.Group.Nat.Even

/-!
# Shared types

Byte strings, file paths, the status bytes of the CTAP layer and the size limits that more than one
component reads. The values are those of `zerofido_types.h`.
-/

set_option autoImplicit false
set_option relaxedAutoImplicit false

namespace ZeroFido

/-- A C buffer together with its length. -/
abbrev Bytes := List UInt8

/-- A C string naming a file or a directory, without the terminating zero. -/
abbrev Path := List Char

/-- The CTAP status bytes the authenticator answers with. -/
inductive CtapStatus where
  | success
  | invalidCommand
  | invalidParameter
  | invalidLength
  | invalidChannel
  | cborUnexpectedType
  | invalidCbor
  | missingParameter
  | credentialExcluded
  | unsupportedAlgorithm
  | operationDenied
  | keyStoreFull
  | unsupportedOption
  | invalidOption
  | keepaliveCancel
  | noCredentials
  | userActionTimeout
  | notAllowed
  | pinInvalid
  | pinBlocked
  | pinAuthInvalid
  | pinAuthBlocked
  | pinNotSet
  | pinRequired
  | pinPolicyViolation
  | pinTokenExpired
  | invalidSubcommand
  | unauthorizedPermission
  | other
  deriving DecidableEq, Repr

/-- The `width` bytes of a number in memory order on the little-endian target. -/
def toLittleEndian : (width value : ℕ) → Bytes
  | 0, _ => []
  | width + 1, value => UInt8.ofNat value :: toLittleEndian width (value / 256)

/-- The number whose little-endian bytes these are. -/
def ofLittleEndian : Bytes → ℕ
  | [] => 0
  | byte :: rest => byte.toNat + 256 * ofLittleEndian rest

@[simp]
theorem length_toLittleEndian (width value : ℕ) : (toLittleEndian width value).length = width := by
  induction width generalizing value with
  | zero => rfl
  | succ width ih => simp [toLittleEndian, ih]

theorem ofLittleEndian_toLittleEndian (width value : ℕ) (hvalue : value < 256 ^ width) :
    ofLittleEndian (toLittleEndian width value) = value := by
  induction width generalizing value with
  | zero => simp at hvalue; simp [toLittleEndian, ofLittleEndian, hvalue]
  | succ width ih =>
    have hrest : value / 256 < 256 ^ width := by
      rw [Nat.div_lt_iff_lt_mul (by decide), ← pow_succ]
      exact hvalue
    simp only [toLittleEndian, ofLittleEndian, ih _ hrest, UInt8.toNat_ofNat']
    omega

def appDataRoot : Path := "/ext/apps_data".toList

def appDataDir : Path := "/ext/apps_data/zerofido".toList

def credentialIdLen : ℕ := 32
def maxDescriptorIdLen : ℕ := 1023
def privateKeyLen : ℕ := 32
def publicKeyLen : ℕ := 32
def wrapIvLen : ℕ := 16
def clientDataHashLen : ℕ := 32
def maxCredentials : ℕ := 32
def maxRpIdLen : ℕ := 256
def maxUserIdLen : ℕ := 64
def maxUserNameLen : ℕ := 65
def maxDisplayNameLen : ℕ := 65
def pinAuthLen : ℕ := 16
def pinAuthMaxLen : ℕ := 32
def pinHashLen : ℕ := 16
def pinTokenLen : ℕ := 32
def pinProtocol2IvLen : ℕ := 16
def pinEncryptedHashMaxLen : ℕ := pinHashLen + pinProtocol2IvLen
def pinEncryptedTokenMaxLen : ℕ := pinTokenLen + pinProtocol2IvLen
def pinNewPinBlockMaxLen : ℕ := 64
def pinEncryptedNewPinMaxLen : ℕ := pinNewPinBlockMaxLen + pinProtocol2IvLen
def pinRetriesMax : ℕ := 8
def minPinLength : ℕ := 4
def pinTokenTimeoutMs : ℕ := 30000
def counterReservationWindow : ℕ := 32

end ZeroFido
