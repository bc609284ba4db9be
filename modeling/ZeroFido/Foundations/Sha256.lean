import Mathlib.Data.Nat.Nth
import Mathlib.Data.Nat.Prime.Basic
import Mathlib.Data.Nat.Sqrt
import ZeroFido.Foundations.BlockHash
import ZeroFido.Foundations.Der

/-!
# SHA-256

The hash function of FIPS 180-4 as the standard defines it: the constants from square and cube roots
of primes, the message schedule as a recurrence, the compression of a block and the padding of a
message. `hash` folds the compression over the blocks of the padded message.
-/

set_option autoImplicit false
set_option relaxedAutoImplicit false

namespace ZeroFido.Foundations.Sha256

open Der

section Functions

def rotateRight (count word : UInt32) : UInt32 := (word >>> count) ||| (word <<< (32 - count))

def choose (x y z : UInt32) : UInt32 := (x &&& y) ^^^ (~~~x &&& z)

def majority (x y z : UInt32) : UInt32 := (x &&& y) ^^^ (x &&& z) ^^^ (y &&& z)

def bigSigma0 (x : UInt32) : UInt32 := rotateRight 2 x ^^^ rotateRight 13 x ^^^ rotateRight 22 x

def bigSigma1 (x : UInt32) : UInt32 := rotateRight 6 x ^^^ rotateRight 11 x ^^^ rotateRight 25 x

def smallSigma0 (x : UInt32) : UInt32 := rotateRight 7 x ^^^ rotateRight 18 x ^^^ (x >>> 3)

def smallSigma1 (x : UInt32) : UInt32 := rotateRight 17 x ^^^ rotateRight 19 x ^^^ (x >>> 10)

end Functions

section Constants

/-- The integer part of a cube root. -/
def cubeRoot (number : ℕ) : ℕ := Nat.findGreatest (fun root ↦ root ^ 3 ≤ number) number

theorem cubeRoot_eq {number root : ℕ} (hle : root ^ 3 ≤ number) (hlt : number < (root + 1) ^ 3) :
    cubeRoot number = root := by
  refine (Nat.findGreatest_eq_iff).mpr ⟨(Nat.le_self_pow (by decide) root).trans hle,
    fun _ ↦ hle, fun other hroot _ hother ↦ ?_⟩
  exact absurd (hlt.trans_le (Nat.pow_le_pow_left hroot 3)) (Nat.not_lt.mpr hother)

/-- The first thirty-two bits of the fractional part of the cube root of a prime, counted from 0. -/
noncomputable def roundConstant (index : ℕ) : UInt32 :=
  UInt32.ofNat (cubeRoot (Nat.nth Nat.Prime index * 2 ^ 96))

/-- The first thirty-two bits of the fractional part of the square root of a prime. -/
noncomputable def initialWord (index : ℕ) : UInt32 :=
  UInt32.ofNat (Nat.sqrt (Nat.nth Nat.Prime index * 2 ^ 64))

/-- What satisfies a predicate below a bound, in order. -/
theorem filter_range_eq_map_nth (p : ℕ → Prop) [DecidablePred p] (bound : ℕ) :
    (List.range bound).filter (p ·) = (List.range (Nat.count p bound)).map (Nat.nth p) := by
  induction bound with
  | zero => simp
  | succ bound ih =>
    rw [List.range_succ, List.filter_append, ih, Nat.count_succ]
    by_cases h : p bound
    · simp [h, List.range_succ, Nat.nth_count h]
    · simp [h]

/-- The first sixty-four primes. -/
def firstPrimes : List ℕ := [
  2, 3, 5, 7, 11, 13, 17, 19, 23, 29, 31, 37, 41, 43, 47, 53, 59, 61, 67, 71, 73, 79, 83, 89, 97,
  101, 103, 107, 109, 113, 127, 131, 137, 139, 149, 151, 157, 163, 167, 173, 179, 181, 191, 193,
  197, 199, 211, 223, 227, 229, 233, 239, 241, 251, 257, 263, 269, 271, 277, 281, 283, 293, 307,
  311]

/-- Below 19 * 19 a number is prime if it has no divisor up to 17 but itself. -/
theorem prime_iff {number : ℕ} (h : number < 361) :
    number.Prime ↔ 2 ≤ number ∧ ∀ divisor < 18, 2 ≤ divisor → divisor ∣ number →
      number ≤ divisor := by
  refine ⟨fun hprime ↦ ⟨hprime.two_le, fun divisor _ hdivisor hdvd ↦ ?_⟩, fun hsmall ↦ ?_⟩
  · rcases hprime.eq_one_or_self_of_dvd divisor hdvd with hone | hself
    · omega
    · exact hself.ge
  · refine Nat.prime_def_le_sqrt.mpr ⟨hsmall.1, fun divisor hdivisor hsqrt hdvd ↦ ?_⟩
    have hbound : Nat.sqrt number < 19 := Nat.sqrt_lt'.mpr h
    have hless : Nat.sqrt number < number := Nat.sqrt_lt_self hsmall.1
    by_cases hlt : divisor < 18
    · have hle := hsmall.2 divisor hlt hdivisor hdvd
      omega
    · have heighteen : divisor = 18 := by omega
      have htwo := hsmall.2 2 (by decide) le_rfl ((by decide : 2 ∣ 18).trans (heighteen ▸ hdvd))
      omega

theorem firstPrimes_eq : firstPrimes = (List.range 312).filter (Nat.Prime ·) := by
  have hsmall : firstPrimes = (List.range 312).filter fun number ↦ 2 ≤ number ∧
      ∀ divisor < 18, 2 ≤ divisor → divisor ∣ number → number ≤ divisor := by decide +kernel
  rw [hsmall]
  refine List.filter_congr fun number hnumber ↦ ?_
  have hlt : number < 361 := (List.mem_range.mp hnumber).trans (by decide)
  simp only [prime_iff hlt]

theorem nth_prime {index : ℕ} (h : index < 64) :
    Nat.nth Nat.Prime index = firstPrimes.getD index 0 := by
  have hprimes := firstPrimes_eq.trans (filter_range_eq_map_nth Nat.Prime 312)
  have hcount : Nat.count Nat.Prime 312 = 64 := by
    have hlength := congrArg List.length hprimes
    rw [List.length_map, List.length_range] at hlength
    exact hlength.symm
  rw [hprimes, hcount]
  simp [List.getD_eq_getElem?_getD, h]

/-- A word is a round constant when it is the fractional part of such a root. -/
theorem roundConstant_eq {index whole : ℕ} {word : UInt32} (h : index < 64)
    (hle : (whole * 2 ^ 32 + word.toNat) ^ 3 ≤ firstPrimes.getD index 0 * 2 ^ 96)
    (hlt : firstPrimes.getD index 0 * 2 ^ 96 < (whole * 2 ^ 32 + word.toNat + 1) ^ 3) :
    roundConstant index = word := by
  rw [roundConstant, nth_prime h, cubeRoot_eq hle hlt, ← UInt32.toNat_inj, UInt32.toNat_ofNat',
    Nat.mul_comm, Nat.mul_add_mod, Nat.mod_eq_of_lt word.toNat_lt]

theorem initialWord_eq {index whole : ℕ} {word : UInt32} (h : index < 64)
    (hle : (whole * 2 ^ 32 + word.toNat) ^ 2 ≤ firstPrimes.getD index 0 * 2 ^ 64)
    (hlt : firstPrimes.getD index 0 * 2 ^ 64 < (whole * 2 ^ 32 + word.toNat + 1) ^ 2) :
    initialWord index = word := by
  rw [initialWord, nth_prime h, ← Nat.eq_sqrt'.mpr ⟨hle, hlt⟩, ← UInt32.toNat_inj,
    UInt32.toNat_ofNat', Nat.mul_comm, Nat.mul_add_mod, Nat.mod_eq_of_lt word.toNat_lt]

end Constants

section Compression

/-- The eight words of a hash value, and the working variables of a round. -/
structure HashValue where
  a : UInt32
  b : UInt32
  c : UInt32
  d : UInt32
  e : UInt32
  f : UInt32
  g : UInt32
  h : UInt32
  deriving DecidableEq, Repr

def HashValue.words (value : HashValue) : List UInt32 :=
  [value.a, value.b, value.c, value.d, value.e, value.f, value.g, value.h]

def HashValue.bytes (value : HashValue) : List UInt8 :=
  value.words.flatMap fun word ↦ bigEndian 4 word.toNat

def HashValue.add (left right : HashValue) : HashValue where
  a := left.a + right.a
  b := left.b + right.b
  c := left.c + right.c
  d := left.d + right.d
  e := left.e + right.e
  f := left.f + right.f
  g := left.g + right.g
  h := left.h + right.h

/-- The words of a block are big-endian. -/
def blockWord (block : List UInt8) (index : ℕ) : UInt32 :=
  UInt32.ofNat (valueOf ((block.drop (4 * index)).take 4))

/-- The message schedule. -/
def schedule (block : List UInt8) (index : ℕ) : UInt32 :=
  if 16 ≤ index then
    smallSigma1 (schedule block (index - 2)) + schedule block (index - 7) +
      smallSigma0 (schedule block (index - 15)) + schedule block (index - 16)
  else blockWord block index
termination_by index

/-- One round. -/
def round (constant word : UInt32) (value : HashValue) : HashValue :=
  let first := value.h + bigSigma1 value.e + choose value.e value.f value.g + constant + word
  let second := bigSigma0 value.a + majority value.a value.b value.c
  { a := first + second, b := value.a, c := value.b, d := value.c
    e := value.d + first, f := value.e, g := value.f, h := value.g }

/-- The first rounds of a block. -/
noncomputable def rounds (block : List UInt8) (value : HashValue) : ℕ → HashValue
  | 0 => value
  | count + 1 => round (roundConstant count) (schedule block count) (rounds block value count)

noncomputable def compress (value : HashValue) (block : List UInt8) : HashValue :=
  value.add (rounds block value 64)

noncomputable def initial : HashValue where
  a := initialWord 0
  b := initialWord 1
  c := initialWord 2
  d := initialWord 3
  e := initialWord 4
  f := initialWord 5
  g := initialWord 6
  h := initialWord 7

@[simp]
theorem length_bytes (value : HashValue) : value.bytes.length = 32 := by
  simp [HashValue.bytes, HashValue.words]

theorem schedule_of_lt {block : List UInt8} {index : ℕ} (h : index < 16) :
    schedule block index = blockWord block index := by
  rw [schedule, if_neg (by omega)]

theorem schedule_of_le {block : List UInt8} {index : ℕ} (h : 16 ≤ index) :
    schedule block index =
      smallSigma1 (schedule block (index - 2)) + schedule block (index - 7) +
        smallSigma0 (schedule block (index - 15)) + schedule block (index - 16) := by
  rw [schedule, if_pos h]

end Compression

section Padding

/-- How many zero bytes stand between the one bit and the length. -/
def zeroCount (length : ℕ) : ℕ := (119 - length % 64) % 64

/-- A message, a one bit, zeros, and the number of its bits in eight bytes. -/
def pad (message : List UInt8) : List UInt8 :=
  message ++ 0x80 :: List.replicate (zeroCount message.length) 0 ++
    bigEndian 8 (8 * message.length)

/-- The digest of a message. -/
noncomputable def hash (message : List UInt8) : List UInt8 :=
  (absorb 64 compress initial (pad message)).1.bytes

theorem length_pad (message : List UInt8) :
    (pad message).length = message.length + 1 + zeroCount message.length + 8 := by
  simp only [pad, List.length_append, List.length_cons, List.length_replicate, length_bigEndian]
  omega

/-- A padded message is whole blocks. -/
theorem length_pad_mod (message : List UInt8) : (pad message).length % 64 = 0 := by
  rw [length_pad, zeroCount]
  omega

/-- There are no more zeros than it takes for that. -/
theorem zeroCount_le {length zeros : ℕ} (h : (length + 1 + zeros + 8) % 64 = 0) :
    zeroCount length ≤ zeros := by
  rw [zeroCount]
  omega

@[simp]
theorem length_hash (message : List UInt8) : (hash message).length = 32 := length_bytes _

end Padding

end ZeroFido.Foundations.Sha256
