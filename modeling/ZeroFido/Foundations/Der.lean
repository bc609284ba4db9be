import Mathlib.Data.List.Induction
import Mathlib.Data.Nat.Log
import Mathlib.Tactic.Ring

/-!
# Distinguished encoding rules

Numbers as big-endian digits (`valueOf`, `bigEndian`), the octets of a definite length in as few
octets as there can be (`lengthBytes`), elements of a tag, a length and a content (`element`), and
bytes that are elements in a row with elements in those that are constructed (`Elements`).

A non-negative INTEGER has its number in as few octets as leave the sign bit clear
(`IsNonnegative`, `isNonnegative_unsigned`).
-/

set_option autoImplicit false
set_option relaxedAutoImplicit false

namespace ZeroFido.Foundations.Der

section Numbers

/-- The number with these digits to the base 256, the most significant one first. -/
def valueOf (bytes : List UInt8) : ℕ :=
  bytes.foldl (fun value byte ↦ 256 * value + byte.toNat) 0

/-- The last `width` digits of a number. -/
def bigEndian : (width value : ℕ) → List UInt8
  | 0, _ => []
  | width + 1, value => bigEndian width (value / 256) ++ [UInt8.ofNat value]

variable {bytes : List UInt8} {byte : UInt8} {width value : ℕ}

@[simp]
theorem valueOf_nil : valueOf [] = 0 := rfl

theorem valueOf_concat (bytes : List UInt8) (byte : UInt8) :
    valueOf (bytes ++ [byte]) = 256 * valueOf bytes + byte.toNat := by
  rw [valueOf, List.foldl_append]
  rfl

theorem valueOf_cons (byte : UInt8) (bytes : List UInt8) :
    valueOf (byte :: bytes) = byte.toNat * 256 ^ bytes.length + valueOf bytes := by
  induction bytes using List.reverseRecOn with
  | nil => simp [valueOf]
  | append_singleton bytes last ih =>
    rw [← List.cons_append, valueOf_concat, ih, valueOf_concat, List.length_append,
      List.length_singleton, pow_succ]
    ring

theorem valueOf_zero_cons (bytes : List UInt8) : valueOf (0 :: bytes) = valueOf bytes := by
  rw [valueOf_cons]
  simp

theorem valueOf_replicate_append (count : ℕ) (bytes : List UInt8) :
    valueOf (List.replicate count 0 ++ bytes) = valueOf bytes := by
  induction count with
  | zero => rfl
  | succ count ih => rw [List.replicate_succ, List.cons_append, valueOf_zero_cons, ih]

theorem valueOf_lt (bytes : List UInt8) : valueOf bytes < 256 ^ bytes.length := by
  induction bytes using List.reverseRecOn with
  | nil => exact Nat.one_pos
  | append_singleton bytes last ih =>
    have hlast := last.toNat_lt
    rw [valueOf_concat, List.length_append, List.length_singleton, pow_succ]
    omega

theorem valueOf_eq_zero_iff : valueOf bytes = 0 ↔ bytes.all (· == 0) = true := by
  induction bytes with
  | nil => simp
  | cons byte bytes ih =>
    rw [valueOf_cons, Nat.add_eq_zero_iff, ih, List.all_cons, Bool.and_eq_true, beq_iff_eq,
      ← UInt8.toNat_inj]
    simp

@[simp]
theorem length_bigEndian (width value : ℕ) : (bigEndian width value).length = width := by
  induction width generalizing value with
  | zero => rfl
  | succ width ih => rw [bigEndian, List.length_append, ih, List.length_singleton]

theorem valueOf_bigEndian (h : value < 256 ^ width) : valueOf (bigEndian width value) = value := by
  induction width generalizing value with
  | zero =>
    rw [pow_zero] at h
    rw [bigEndian, valueOf_nil]
    omega
  | succ width ih =>
    have hrest : value / 256 < 256 ^ width := by
      rw [Nat.div_lt_iff_lt_mul (by decide), ← pow_succ]
      exact h
    rw [bigEndian, valueOf_concat, ih hrest, UInt8.toNat_ofNat']
    omega

end Numbers

section Lengths

/-- How many digits a length takes in the long form. -/
def lengthWidth (length : ℕ) : ℕ := Nat.log2 length / 8 + 1

/-- The octets of a length: itself below 128, else the number of its digits and they. -/
def lengthBytes (length : ℕ) : List UInt8 :=
  if length < 0x80 then [UInt8.ofNat length]
  else UInt8.ofNat (0x80 + lengthWidth length) :: bigEndian (lengthWidth length) length

variable {length : ℕ}

theorem lengthBytes_of_lt (h : length < 0x80) : lengthBytes length = [UInt8.ofNat length] :=
  if_pos h

theorem lengthBytes_of_le (h : 0x80 ≤ length) : lengthBytes length =
    UInt8.ofNat (0x80 + lengthWidth length) :: bigEndian (lengthWidth length) length :=
  if_neg (by omega)

/-- A length of so many digits is below the power of their number. -/
theorem lengthWidth_le_iff {width : ℕ} (h : 0 < length) :
    lengthWidth length ≤ width ↔ length < 256 ^ width := by
  have hbits : length < 2 ^ (8 * width) ↔ Nat.log2 length < 8 * width :=
    (Nat.log2_lt (by omega)).symm
  have hpow : (256 : ℕ) ^ width = 2 ^ (8 * width) := by
    rw [pow_mul]
    norm_num
  rw [hpow, hbits, lengthWidth]
  omega

theorem lt_pow_lengthWidth (h : 0 < length) : length < 256 ^ lengthWidth length :=
  (lengthWidth_le_iff h).mp le_rfl

end Lengths

section Elements

/-- An element: its tag, the octets of its length and its content. -/
def element (tag : UInt8) (content : List UInt8) : List UInt8 :=
  tag :: (lengthBytes content.length ++ content)

/-- The bit of a tag that says that the content is elements again. -/
def isConstructed (tag : UInt8) : Bool := tag &&& 0x20 != 0

/-- Elements in a row, to the last byte, and so in those that are constructed. -/
inductive Elements : List UInt8 → Prop
  | nil : Elements []
  | primitive {tag : UInt8} {content more : List UInt8} (htag : isConstructed tag = false)
      (hmore : Elements more) : Elements (element tag content ++ more)
  | constructed {tag : UInt8} {content more : List UInt8} (htag : isConstructed tag = true)
      (hcontent : Elements content) (hmore : Elements more) : Elements (element tag content ++ more)

variable {tag : UInt8} {content first second : List UInt8}

theorem length_element (tag : UInt8) (content : List UInt8) :
    (element tag content).length = 1 + (lengthBytes content.length).length + content.length := by
  rw [element, List.length_cons, List.length_append]
  ring

/-- The content stands behind the tag and the length. -/
theorem drop_element (tag : UInt8) (content rest : List UInt8) :
    (element tag content ++ rest).drop (1 + (lengthBytes content.length).length) =
      content ++ rest := by
  rw [element, List.cons_append, Nat.add_comm, List.drop_succ_cons, List.append_assoc,
    List.drop_left]

theorem Elements.append (hfirst : Elements first) (hsecond : Elements second) :
    Elements (first ++ second) := by
  induction hfirst with
  | nil => exact hsecond
  | primitive htag _ ih =>
    rw [List.append_assoc]
    exact .primitive htag ih
  | constructed htag hcontent _ _ ih =>
    rw [List.append_assoc]
    exact .constructed htag hcontent ih

theorem elements_primitive (htag : isConstructed tag = false) : Elements (element tag content) := by
  rw [← List.append_nil (element tag content)]
  exact .primitive htag .nil

theorem elements_constructed (htag : isConstructed tag = true) (hcontent : Elements content) :
    Elements (element tag content) := by
  rw [← List.append_nil (element tag content)]
  exact .constructed htag hcontent .nil

end Elements

section Integers

/-- The content is a number that is not negative, in as few octets as there can be. -/
structure IsNonnegative (content : List UInt8) (value : ℕ) : Prop where
  value_eq : valueOf content = value
  sign : ∃ first rest, content = first :: rest ∧ first < 0x80
  minimal : ∀ second rest, content = 0 :: second :: rest → 0x80 ≤ second

/-- The content for digits: they, behind a zero where the first one would be a sign. -/
def unsigned (digits : List UInt8) : List UInt8 :=
  if 0x80 ≤ digits.headD 0 then 0 :: digits else digits

theorem length_unsigned_le (digits : List UInt8) :
    (unsigned digits).length ≤ digits.length + 1 := by
  by_cases hsign : 0x80 ≤ digits.headD 0
  · rw [unsigned, if_pos hsign, List.length_cons]
  · rw [unsigned, if_neg hsign]
    exact Nat.le_succ _

/-- Digits without leading zeros make the content of a number that is not negative. -/
theorem isNonnegative_unsigned {first : UInt8} {rest : List UInt8}
    (hstripped : first = 0 → rest = []) :
    IsNonnegative (unsigned (first :: rest)) (valueOf (first :: rest)) := by
  unfold unsigned
  by_cases hsign : 0x80 ≤ first
  · rw [List.headD_cons, if_pos hsign]
    refine ⟨valueOf_zero_cons _, ⟨0, _, rfl, by decide⟩, fun second rest' h ↦ ?_⟩
    obtain ⟨rfl, -⟩ := List.cons.inj (List.cons.inj h).2
    exact hsign
  · rw [List.headD_cons, if_neg hsign]
    refine ⟨rfl, ⟨first, rest, rfl, UInt8.not_le.mp hsign⟩, fun second rest' h ↦ ?_⟩
    obtain ⟨rfl, rfl⟩ := List.cons.inj h
    exact absurd (hstripped rfl) (by simp)

end Integers

end ZeroFido.Foundations.Der
