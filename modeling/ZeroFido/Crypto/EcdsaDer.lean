import Mathlib.Tactic.IntervalCases
import ZeroFido.Crypto
import ZeroFido.Foundations.Der

/-!
# DER signatures

`crypto/ecdsa_der.c`: a raw signature as a SEQUENCE of two INTEGERs and back. The encoder strips
leading zeros and puts one in front of a first digit that would be a sign; the decoder strips to 32
bytes and pads with zeros (`derDecodeIntFixed_derEncodeInt`).

`signature_der_round_trip` is the result for the two together.
-/

set_option autoImplicit false
set_option relaxedAutoImplicit false

namespace ZeroFido.Crypto

open Foundations.Der

section Code

/-- `sizeof(size_t)` on the target. -/
def sizeOfSizeT : ℕ := 4

/-- The number from its first digit on that is not zero; of zeros, the last one. -/
def stripZeros : Bytes → Bytes
  | 0 :: second :: rest => stripZeros (second :: rest)
  | value => value

/-- `zf_der_encode_int`. -/
def derEncodeInt (value : Bytes) : Bytes :=
  let digits := stripZeros value
  if digits.getD 0 0 &&& 0x80 ≠ 0 then
    0x02 :: UInt8.ofNat (digits.length + 1) :: 0 :: digits
  else
    0x02 :: UInt8.ofNat digits.length :: digits

/-- `zf_ecdsa_der_encode_signature`; nothing when it returns 0. -/
def ecdsaDerEncodeSignature (r s : Bytes) (capacity : ℕ) : Option Bytes :=
  let body := derEncodeInt r ++ derEncodeInt s
  if capacity < 2 + body.length then none
  else some (0x30 :: UInt8.ofNat body.length :: body)

/-- `zf_der_decode_length`: how long the tag and the length are, and the length. -/
def derDecodeLength (input : Bytes) : Option (ℕ × ℕ) :=
  match input with
  | _ :: first :: rest =>
    if first &&& 0x80 = 0 then
      if first.toNat ≤ rest.length then some (2, first.toNat) else none
    else
      let lengthOctets := (first &&& 0x7F).toNat
      if lengthOctets = 0 ∨ sizeOfSizeT < lengthOctets ∨ rest.length < lengthOctets then none
      else
        let length := (rest.take lengthOctets).foldl
          (fun length octet ↦ (length <<< 8) ||| octet.toNat) 0
        if length ≤ rest.length - lengthOctets then some (2 + lengthOctets, length) else none
  | _ => none

/-- Zeros are skipped while more is left than a coordinate has. -/
def skipZeros : Bytes → Bytes
  | [] => []
  | byte :: rest =>
    if publicKeyLen < rest.length + 1 ∧ byte = 0 then skipZeros rest else byte :: rest

/-- `zf_der_decode_int_fixed`: how much was consumed, and the number in 32 bytes. -/
def derDecodeIntFixed (input : Bytes) : Option (ℕ × Bytes) :=
  if input.head? ≠ some 0x02 then none
  else
    match derDecodeLength input with
    | none => none
    | some (headerLen, valueLen) =>
      if valueLen = 0 then none
      else
        let value := skipZeros ((input.drop headerLen).take valueLen)
        if publicKeyLen < value.length then none
        else some (headerLen + valueLen, zeroBytes (publicKeyLen - value.length) ++ value)

/-- `zf_ecdsa_der_decode_signature`. -/
def ecdsaDerDecodeSignature (signature : Bytes) : Option Bytes :=
  if signature.head? ≠ some 0x30 then none
  else
    match derDecodeLength signature with
    | none => none
    | some (seqHeaderLen, seqLen) =>
      match derDecodeIntFixed (signature.drop seqHeaderLen) with
      | none => none
      | some (consumed, r) =>
        let offset := seqHeaderLen + consumed
        match derDecodeIntFixed (signature.drop offset) with
        | none => none
        | some (consumed, s) =>
          if offset + consumed = seqHeaderLen + seqLen then some (r ++ s) else none

end Code

section Lengths

variable {byte tag : UInt8} {content rest : Bytes}

/-- The top bit. -/
theorem and_0x80_eq_zero_iff (byte : UInt8) : byte &&& 0x80 = 0 ↔ byte < 0x80 := by
  have hall : ∀ n < 256, UInt8.ofNat n &&& 0x80 = 0 ↔ UInt8.ofNat n < 0x80 := by decide +kernel
  simpa using hall byte.toNat byte.toNat_lt

/-- The loop over the octets of a length. -/
theorem foldl_octets (bytes : Bytes) (length : ℕ) :
    bytes.foldl (fun length octet ↦ (length <<< 8) ||| octet.toNat) length =
      length * 256 ^ bytes.length + valueOf bytes := by
  induction bytes generalizing length with
  | nil => simp
  | cons octet bytes ih =>
    have hoctet : octet.toNat < 2 ^ 8 := octet.toNat_lt
    rw [List.foldl_cons, ih, valueOf_cons, ← Nat.shiftLeft_add_eq_or_of_lt hoctet,
      Nat.shiftLeft_eq, List.length_cons, pow_succ]
    ring

/-- The reader of lengths reads the length of an element. -/
theorem derDecodeLength_element (hlength : content.length < 2 ^ 32) (rest : Bytes) :
    derDecodeLength (element tag content ++ rest) =
      some (1 + (lengthBytes content.length).length, content.length) := by
  unfold element
  by_cases hshort : content.length < 0x80
  · rw [lengthBytes_of_lt hshort]
    have hnumber : (UInt8.ofNat content.length).toNat = content.length := by
      rw [UInt8.toNat_ofNat']
      omega
    have hclear : UInt8.ofNat content.length &&& 0x80 = 0 := by
      rw [and_0x80_eq_zero_iff, UInt8.lt_iff_toNat_lt, hnumber]
      exact hshort
    simp only [List.cons_append, List.nil_append, derDecodeLength, hclear, if_true, hnumber,
      List.length_append, List.length_singleton]
    rw [if_pos (by omega)]
  · have hpositive : 0 < content.length := by omega
    rw [lengthBytes_of_le (not_lt.mp hshort)]
    generalize hwidth : lengthWidth content.length = width
    have hfew : 1 ≤ width ∧ width ≤ 4 := by
      rw [← hwidth]
      exact ⟨Nat.succ_pos _, (lengthWidth_le_iff hpositive).mpr hlength⟩
    have hfirst : UInt8.ofNat (0x80 + width) &&& 0x80 ≠ 0 ∧
        (UInt8.ofNat (0x80 + width) &&& 0x7F).toNat = width := by
      obtain ⟨hone, hfour⟩ := hfew
      interval_cases width <;> decide
    have hfits : content.length < 256 ^ width := by
      rw [← hwidth]
      exact lt_pow_lengthWidth hpositive
    have htake : ((bigEndian width content.length ++ content) ++ rest).take width =
        bigEndian width content.length := by
      rw [List.append_assoc]
      exact List.take_left' (length_bigEndian _ _)
    simp only [List.cons_append, derDecodeLength, if_neg hfirst.1, hfirst.2, htake, foldl_octets,
      valueOf_bigEndian hfits, List.length_append, List.length_cons, length_bigEndian, zero_mul,
      zero_add, sizeOfSizeT]
    rw [if_neg (by omega), if_pos (by omega), Nat.add_comm width 1, ← Nat.add_assoc]

end Lengths

section Integers

variable {value : Bytes}

/-- The digits that are left, which start with a zero only when they are one. -/
theorem exists_stripZeros (h : value ≠ []) :
    ∃ count first rest, value = List.replicate count 0 ++ first :: rest ∧
      stripZeros value = first :: rest ∧ (first = 0 → rest = []) := by
  induction value with
  | nil => exact absurd rfl h
  | cons byte value ih =>
    by_cases hzero : byte = 0 ∧ value ≠ []
    · obtain ⟨rfl, hrest⟩ := hzero
      obtain ⟨count, first, rest, hvalue, hstrip, hfirst⟩ := ih hrest
      obtain ⟨second, tail, rfl⟩ := List.exists_cons_of_ne_nil hrest
      refine ⟨count + 1, first, rest, ?_, ?_, hfirst⟩
      · rw [List.replicate_succ, List.cons_append, ← hvalue]
      · rw [stripZeros, hstrip]
    · have hstrip : stripZeros (byte :: value) = byte :: value := by
        cases value with
        | nil => simp [stripZeros]
        | cons second tail =>
          have hbyte : byte ≠ 0 := fun hbyte ↦ hzero ⟨hbyte, by simp⟩
          unfold stripZeros
          split
          · exact absurd (List.cons.inj ‹_›).1 hbyte
          · rfl
      refine ⟨0, byte, value, rfl, hstrip, fun hbyte ↦ ?_⟩
      by_contra hrest
      exact hzero ⟨hbyte, hrest⟩

/-- The encoder writes an INTEGER. -/
theorem derEncodeInt_eq (h : value ≠ []) (hshort : value.length ≤ 126) :
    derEncodeInt value = element 0x02 (unsigned (stripZeros value)) := by
  obtain ⟨count, first, rest, hvalue, hstrip, -⟩ := exists_stripZeros h
  have hdigits : (first :: rest).length ≤ 126 := by
    rw [hvalue, List.length_append] at hshort
    omega
  have hsmall : (unsigned (first :: rest)).length < 0x80 :=
    lt_of_le_of_lt (length_unsigned_le _) (by omega)
  rw [hstrip, element, lengthBytes_of_lt hsmall, derEncodeInt, hstrip]
  by_cases hsign : 0x80 ≤ first
  · have htop : ¬(first :: rest).getD 0 0 &&& 0x80 = 0 := by
      rw [List.getD_cons_zero, and_0x80_eq_zero_iff]
      exact UInt8.not_lt.mpr hsign
    rw [if_pos htop, unsigned, List.headD_cons, if_pos hsign]
    rfl
  · have htop : (first :: rest).getD 0 0 &&& 0x80 = 0 := by
      rw [List.getD_cons_zero, and_0x80_eq_zero_iff]
      exact UInt8.not_le.mp hsign
    rw [if_neg (not_not.mpr htop), unsigned, List.headD_cons, if_neg hsign]
    rfl

theorem skipZeros_of_le (h : value.length ≤ publicKeyLen) : skipZeros value = value := by
  cases value with
  | nil => rfl
  | cons byte value =>
    rw [List.length_cons] at h
    rw [skipZeros, if_neg (by omega)]

/-- In 32 bytes, the content of an INTEGER is the number that it was made of. -/
theorem padded_unsigned {count : ℕ} {digits : Bytes}
    (hlength : count + digits.length = publicKeyLen) :
    (skipZeros (unsigned digits)).length ≤ publicKeyLen ∧
      zeroBytes (publicKeyLen - (skipZeros (unsigned digits)).length) ++
        skipZeros (unsigned digits) = List.replicate count 0 ++ digits := by
  have hplain : digits.length ≤ publicKeyLen ∧
      zeroBytes (publicKeyLen - digits.length) ++ digits = List.replicate count 0 ++ digits := by
    rw [← hlength, Nat.add_sub_cancel]
    exact ⟨Nat.le_add_left _ _, rfl⟩
  by_cases hsign : 0x80 ≤ digits.headD 0
  · rw [unsigned, if_pos hsign]
    cases count with
    | zero =>
      -- The zero in front is the one byte too many.
      rw [Nat.zero_add] at hlength
      rw [skipZeros, if_pos ⟨by omega, rfl⟩, skipZeros_of_le hplain.1]
      exact hplain
    | succ count =>
      have hfits : (0 :: digits).length ≤ publicKeyLen := by
        rw [List.length_cons]
        omega
      have hroom : publicKeyLen - (0 :: digits).length = count := by
        rw [List.length_cons]
        omega
      rw [skipZeros_of_le hfits, hroom, List.replicate_succ', List.append_assoc]
      exact ⟨hfits, rfl⟩
  · rw [unsigned, if_neg hsign, skipZeros_of_le hplain.1]
    exact hplain

/-- The decoder reads back what the encoder wrote. -/
theorem derDecodeIntFixed_derEncodeInt (h : value.length = publicKeyLen) (rest : Bytes) :
    derDecodeIntFixed (derEncodeInt value ++ rest) =
      some ((derEncodeInt value).length, value) := by
  have hne : value ≠ [] := by
    rintro rfl
    exact absurd h (by decide)
  rw [derEncodeInt_eq hne (by rw [h]; decide)]
  obtain ⟨count, first, tail, hvalue, hstrip, -⟩ := exists_stripZeros hne
  rw [hstrip]
  have hcount : count + (first :: tail).length = publicKeyLen := by
    rw [← h, hvalue, List.length_append, List.length_replicate]
  obtain ⟨hfits, hpadded⟩ := padded_unsigned hcount
  have hcontent : (unsigned (first :: tail)).length ≠ 0 := by
    unfold unsigned
    split_ifs <;> simp
  have hshort : (unsigned (first :: tail)).length < 2 ^ 32 := by
    have hbound : publicKeyLen = 32 := rfl
    exact lt_of_le_of_lt (length_unsigned_le _) (by omega)
  have htag : (element 0x02 (unsigned (first :: tail)) ++ rest).head? = some 0x02 := rfl
  unfold derDecodeIntFixed
  rw [if_neg (not_not.mpr htag), derDecodeLength_element hshort]
  dsimp only
  rw [if_neg hcontent, drop_element, List.take_left, if_neg (not_lt.mpr hfits), hpadded,
    ← hvalue, length_element]

end Integers

section Signatures

variable {r s : Bytes}

/-- The encoding of a signature. -/
def signatureDer (r s : Bytes) : Bytes := element 0x30 (derEncodeInt r ++ derEncodeInt s)

/-- An INTEGER of 32 bytes has 35 bytes at most. -/
theorem length_derEncodeInt_le {value : Bytes} (h : value.length = publicKeyLen) :
    (derEncodeInt value).length ≤ 35 := by
  have hlength : publicKeyLen = 32 := rfl
  have hne : value ≠ [] := by
    rintro rfl
    exact absurd h (by decide)
  obtain ⟨count, first, tail, hvalue, hstrip, -⟩ := exists_stripZeros hne
  have hdigits : (first :: tail).length ≤ 32 := by
    rw [hvalue, List.length_append] at h
    omega
  have hcontent := length_unsigned_le (first :: tail)
  rw [derEncodeInt_eq hne (by rw [h]; decide), hstrip, length_element,
    lengthBytes_of_lt (by omega), List.length_singleton]
  omega

theorem ecdsaDerEncodeSignature_eq (hr : r.length = publicKeyLen) (hs : s.length = publicKeyLen)
    (capacity : ℕ) : ecdsaDerEncodeSignature r s capacity =
      if capacity < (signatureDer r s).length then none else some (signatureDer r s) := by
  have hshort : (derEncodeInt r ++ derEncodeInt s).length < 0x80 := by
    have hfirst := length_derEncodeInt_le hr
    have hsecond := length_derEncodeInt_le hs
    rw [List.length_append]
    omega
  rw [signatureDer, length_element, lengthBytes_of_lt hshort, element, lengthBytes_of_lt hshort]
  rfl

theorem length_signatureDer_le (hr : r.length = publicKeyLen) (hs : s.length = publicKeyLen) :
    (signatureDer r s).length ≤ 72 := by
  have hfirst := length_derEncodeInt_le hr
  have hsecond := length_derEncodeInt_le hs
  have hbody : (derEncodeInt r ++ derEncodeInt s).length ≤ 70 := by
    rw [List.length_append]
    omega
  rw [signatureDer, length_element, lengthBytes_of_lt (by omega), List.length_singleton]
  omega

theorem ecdsaDerDecodeSignature_signatureDer (hr : r.length = publicKeyLen)
    (hs : s.length = publicKeyLen) :
    ecdsaDerDecodeSignature (signatureDer r s) = some (r ++ s) := by
  have hbody : (derEncodeInt r ++ derEncodeInt s).length < 2 ^ 32 := by
    have hfirst := length_derEncodeInt_le hr
    have hsecond := length_derEncodeInt_le hs
    rw [List.length_append]
    omega
  have htag : (signatureDer r s).head? = some 0x30 := rfl
  have hread := @derDecodeLength_element 0x30 _ hbody []
  have hinner := drop_element 0x30 (derEncodeInt r ++ derEncodeInt s) []
  rw [List.append_nil] at hread hinner
  unfold ecdsaDerDecodeSignature
  rw [if_neg (not_not.mpr htag), signatureDer, hread]
  dsimp only
  rw [hinner, List.append_nil, derDecodeIntFixed_derEncodeInt hr]
  dsimp only
  rw [← List.drop_drop, hinner, List.append_nil, List.drop_left,
    ← List.append_nil (derEncodeInt s), derDecodeIntFixed_derEncodeInt hs]
  dsimp only
  rw [if_pos (by rw [List.append_nil, List.length_append]; omega)]

/-- The bytes are a SEQUENCE of two INTEGERs with these numbers, in as few bytes as there can be. -/
def IsSignature (bytes : Bytes) (first second : ℕ) : Prop :=
  ∃ content content', bytes = element 0x30 (element 0x02 content ++ element 0x02 content') ∧
    IsNonnegative content first ∧ IsNonnegative content' second

/-- The number in the INTEGER is that of the bytes. -/
theorem exists_content {value : Bytes} (h : value.length = publicKeyLen) :
    ∃ content, derEncodeInt value = element 0x02 content ∧
      IsNonnegative content (valueOf value) := by
  have hne : value ≠ [] := by
    rintro rfl
    exact absurd h (by decide)
  obtain ⟨count, first, tail, hvalue, hstrip, hstripped⟩ := exists_stripZeros hne
  refine ⟨unsigned (first :: tail), ?_, ?_⟩
  · rw [← hstrip]
    exact derEncodeInt_eq hne (by rw [h]; decide)
  · rw [hvalue, valueOf_replicate_append]
    exact isNonnegative_unsigned hstripped

theorem isSignature_signatureDer (hr : r.length = publicKeyLen) (hs : s.length = publicKeyLen) :
    IsSignature (signatureDer r s) (valueOf r) (valueOf s) := by
  obtain ⟨content, hcontent, hnumber⟩ := exists_content hr
  obtain ⟨content', hcontent', hnumber'⟩ := exists_content hs
  exact ⟨content, content', by rw [signatureDer, hcontent, hcontent'], hnumber, hnumber'⟩

end Signatures

/-- The encoder writes the DER signature of at most 72 bytes when it fits, and nothing when it does
not; the decoder reads `r` and `s` back from it. -/
theorem signature_der_round_trip {r s : Bytes} (hr : r.length = publicKeyLen)
    (hs : s.length = publicKeyLen) :
    ∃ encoding : Bytes, encoding.length ≤ 72 ∧ IsSignature encoding (valueOf r) (valueOf s) ∧
      (∀ capacity, ecdsaDerEncodeSignature r s capacity =
        if capacity < encoding.length then none else some encoding) ∧
      ecdsaDerDecodeSignature encoding = some (r ++ s) :=
  ⟨signatureDer r s, length_signatureDer_le hr hs, isSignature_signatureDer hr hs,
    ecdsaDerEncodeSignature_eq hr hs, ecdsaDerDecodeSignature_signatureDer hr hs⟩

/-- An `r` of zeros and an `s` whose first digit would be a sign. -/
theorem signature_der_round_trip_zeros :
    ∃ encoding : Bytes, encoding.length ≤ 72 ∧
      IsSignature encoding (valueOf (zeroBytes 32)) (valueOf (0xFF :: zeroBytes 31)) ∧
      (∀ capacity, ecdsaDerEncodeSignature (zeroBytes 32) (0xFF :: zeroBytes 31) capacity =
        if capacity < encoding.length then none else some encoding) ∧
      ecdsaDerDecodeSignature encoding = some (zeroBytes 32 ++ 0xFF :: zeroBytes 31) :=
  signature_der_round_trip rfl rfl

end ZeroFido.Crypto
