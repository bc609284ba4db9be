import Mathlib.Tactic.Common
import ZeroFido.Cbor

/-!
# Text is UTF-8

The two validators against the encodings of Unicode scalar values: what a lead byte may be followed
by, in numbers, then one scalar value, then the text.
-/

set_option autoImplicit false
set_option relaxedAutoImplicit false

namespace ZeroFido.Cbor

/-- The encoding of a sequence of Unicode scalar values (RFC 3629). -/
def utf8Encoding (scalars : List Char) : Bytes := scalars.flatMap String.utf8EncodeChar

section Lead

variable {lead : UInt8} {rest tail : Bytes} {following : ℕ}

theorem isContinuation_iff (byte : UInt8) :
    isContinuation byte = true ↔ 0x80 ≤ byte.toNat ∧ byte.toNat ≤ 0xBF := by
  have hbits : ∀ bits : BitVec 8, (bits &&& 0xC0#8 == 0x80#8) = true ↔
      0x80 ≤ bits.toNat ∧ bits.toNat ≤ 0xBF := by decide
  rw [← UInt8.toNat_toBitVec, ← hbits]
  simp [isContinuation, ← UInt8.toBitVec_inj]

theorem inRange_iff (low high byte : UInt8) :
    inRange low high byte = true ↔ low.toNat ≤ byte.toNat ∧ byte.toNat ≤ high.toNat := by
  simp [inRange, UInt8.le_iff_toNat_le]

/-- The bytes of one code point, in numbers. The side conditions exclude the overlong forms, the
surrogates and what is above U+10FFFF. -/
inductive CodePoint (lead : UInt8) : Bytes → Prop
  | one (hlead : lead.toNat ≤ 0x7F) : CodePoint lead []
  | two {a : UInt8} (hlow : 0xC2 ≤ lead.toNat) (hhigh : lead.toNat ≤ 0xDF)
      (ha : 0x80 ≤ a.toNat ∧ a.toNat ≤ 0xBF) : CodePoint lead [a]
  | three {a b : UInt8} (hlow : 0xE0 ≤ lead.toNat) (hhigh : lead.toNat ≤ 0xEF)
      (ha : 0x80 ≤ a.toNat ∧ a.toNat ≤ 0xBF) (hb : 0x80 ≤ b.toNat ∧ b.toNat ≤ 0xBF)
      (hoverlong : lead.toNat = 0xE0 → 0xA0 ≤ a.toNat)
      (hsurrogate : lead.toNat = 0xED → a.toNat ≤ 0x9F) : CodePoint lead [a, b]
  | four {a b c : UInt8} (hlow : 0xF0 ≤ lead.toNat) (hhigh : lead.toNat ≤ 0xF4)
      (ha : 0x80 ≤ a.toNat ∧ a.toNat ≤ 0xBF) (hb : 0x80 ≤ b.toNat ∧ b.toNat ≤ 0xBF)
      (hc : 0x80 ≤ c.toNat ∧ c.toNat ≤ 0xBF) (hoverlong : lead.toNat = 0xF0 → 0x90 ≤ a.toNat)
      (hlast : lead.toNat = 0xF4 → a.toNat ≤ 0x8F) : CodePoint lead [a, b, c]

/-- The machine reads the bytes of one code point. -/
theorem CodePoint.utf8Lead_append (h : CodePoint lead tail) (rest : Bytes) :
    utf8Lead lead (tail ++ rest) = some tail.length := by
  simp only [utf8Lead, UInt8.le_iff_toNat_le, inRange_iff, isContinuation_iff, Bool.or_eq_true,
    Bool.and_eq_true, ← @UInt8.toNat_inj lead, UInt8.reduceToNat]
  cases h with
  | one hlead => exact if_pos hlead
  | two hlow hhigh ha =>
    rw [if_neg (by omega), if_pos ⟨hlow, hhigh⟩]
    exact if_pos ha
  | three hlow hhigh ha hb hoverlong hsurrogate =>
    rw [if_neg (by omega), if_neg (by omega)]
    by_cases h0 : lead.toNat = 0xE0
    · rw [if_pos h0]
      exact if_pos ⟨⟨hoverlong h0, ha.2⟩, hb⟩
    · rw [if_neg h0]
      by_cases hd : lead.toNat = 0xED
      · rw [if_neg (by omega), if_pos hd]
        exact if_pos ⟨⟨ha.1, hsurrogate hd⟩, hb⟩
      · rw [if_pos (by omega)]
        exact if_pos ⟨ha, hb⟩
  | four hlow hhigh ha hb hc hoverlong hlast =>
    rw [if_neg (by omega), if_neg (by omega), if_neg (by omega), if_neg (by omega),
      if_neg (by omega)]
    by_cases h0 : lead.toNat = 0xF0
    · rw [if_pos h0]
      exact if_pos ⟨⟨⟨hoverlong h0, ha.2⟩, hb⟩, hc⟩
    · rw [if_neg h0]
      by_cases h4 : lead.toNat = 0xF4
      · rw [if_neg (by omega), if_pos h4]
        exact if_pos ⟨⟨⟨ha.1, hlast h4⟩, hb⟩, hc⟩
      · rw [if_pos (by omega)]
        exact if_pos ⟨⟨ha, hb⟩, hc⟩

/-- The machine reads nothing else. -/
theorem exists_codePoint (h : utf8Lead lead rest = some following) :
    ∃ tail after, rest = tail ++ after ∧ tail.length = following ∧ CodePoint lead tail := by
  simp only [utf8Lead, UInt8.le_iff_toNat_le, inRange_iff, isContinuation_iff, Bool.or_eq_true,
    Bool.and_eq_true, ← @UInt8.toNat_inj lead, UInt8.reduceToNat] at h
  by_cases h1 : lead.toNat ≤ 0x7F
  · rw [if_pos h1] at h
    exact ⟨[], rest, rfl, Option.some.inj h, .one h1⟩
  rw [if_neg h1] at h
  by_cases h2 : 0xC2 ≤ lead.toNat ∧ lead.toNat ≤ 0xDF
  · rw [if_pos h2] at h
    obtain _ | ⟨a, after⟩ := rest
    · exact absurd h (by simp)
    · obtain ⟨ha, hlen⟩ := Option.ite_none_right_eq_some.mp h
      exact ⟨[a], after, rfl, Option.some.inj hlen, .two h2.1 h2.2 ha⟩
  rw [if_neg h2] at h
  by_cases h3 : 0xE0 ≤ lead.toNat ∧ lead.toNat ≤ 0xEF
  · have hthree : ∃ a b after, rest = a :: b :: after ∧ 2 = following ∧
        (0x80 ≤ a.toNat ∧ a.toNat ≤ 0xBF) ∧ (0x80 ≤ b.toNat ∧ b.toNat ≤ 0xBF) ∧
        (lead.toNat = 0xE0 → 0xA0 ≤ a.toNat) ∧ (lead.toNat = 0xED → a.toNat ≤ 0x9F) := by
      obtain _ | ⟨a, _ | ⟨b, after⟩⟩ := rest
      · split_ifs at h
      · split_ifs at h
      · refine ⟨a, b, after, rfl, ?_⟩
        split_ifs at h <;>
          first
          | omega
          | obtain ⟨hab, hlen⟩ := Option.ite_none_right_eq_some.mp h
            have hlen := Option.some.inj hlen
            omega
    obtain ⟨a, b, after, rfl, hlen, ha, hb, hoverlong, hsurrogate⟩ := hthree
    exact ⟨[a, b], after, rfl, hlen, .three h3.1 h3.2 ha hb hoverlong hsurrogate⟩
  have hfour : ∃ a b c after, rest = a :: b :: c :: after ∧ 3 = following ∧
      (0xF0 ≤ lead.toNat ∧ lead.toNat ≤ 0xF4) ∧ (0x80 ≤ a.toNat ∧ a.toNat ≤ 0xBF) ∧
      (0x80 ≤ b.toNat ∧ b.toNat ≤ 0xBF) ∧ (0x80 ≤ c.toNat ∧ c.toNat ≤ 0xBF) ∧
      (lead.toNat = 0xF0 → 0x90 ≤ a.toNat) ∧ (lead.toNat = 0xF4 → a.toNat ≤ 0x8F) := by
    rw [if_neg (by omega), if_neg (by omega), if_neg (by omega)] at h
    obtain _ | ⟨a, _ | ⟨b, _ | ⟨c, after⟩⟩⟩ := rest
    · split_ifs at h
    · split_ifs at h
    · split_ifs at h
    · refine ⟨a, b, c, after, rfl, ?_⟩
      split_ifs at h <;>
        obtain ⟨habc, hlen⟩ := Option.ite_none_right_eq_some.mp h <;>
        have hlen := Option.some.inj hlen <;>
        omega
  obtain ⟨a, b, c, after, rfl, hlen, hlead, ha, hb, hc, hoverlong, hlast⟩ := hfour
  exact ⟨[a, b, c], after, rfl, hlen, .four hlead.1 hlead.2 ha hb hc hoverlong hlast⟩

end Lead

section Scalar

variable {scalar : Char} {lead : UInt8} {tail : Bytes}

/-- The encoding of a scalar value is the bytes of one code point. -/
theorem codePoint_utf8EncodeChar (scalar : Char) :
    ∃ lead tail, String.utf8EncodeChar scalar = lead :: tail ∧ CodePoint lead tail := by
  have hvalid : scalar.val.toNat.isValidChar := scalar.valid
  unfold Nat.isValidChar at hvalid
  unfold String.utf8EncodeChar
  generalize scalar.val.toNat = value at hvalid
  dsimp only
  split_ifs with h1 h2 h3
  · refine ⟨_, _, rfl, .one ?_⟩
    simp only [UInt8.toNat_ofNat']
    omega
  · refine ⟨_, _, rfl, .two ?_ ?_ ?_⟩ <;> simp only [UInt8.toNat_ofNat'] <;> omega
  · refine ⟨_, _, rfl, .three ?_ ?_ ?_ ?_ ?_ ?_⟩ <;> simp only [UInt8.toNat_ofNat'] <;> omega
  · refine ⟨_, _, rfl, .four ?_ ?_ ?_ ?_ ?_ ?_ ?_⟩ <;> simp only [UInt8.toNat_ofNat'] <;> omega

/-- The bytes of one code point are the encoding of a scalar value. -/
theorem CodePoint.exists_scalar (h : CodePoint lead tail) :
    ∃ scalar, String.utf8EncodeChar scalar = lead :: tail := by
  have hscalar (value : ℕ) (hvalid : value.isValidChar) :
      ∃ scalar : Char, scalar.val.toNat = value := ⟨Char.ofNatAux value hvalid, rfl⟩
  have hbyte {number : ℕ} (byte : UInt8) (h : number = byte.toNat) : UInt8.ofNat number = byte := by
    rw [h, UInt8.ofNat_toNat]
  cases h with
  | one hlead =>
    obtain ⟨scalar, hvalue⟩ := hscalar lead.toNat (Or.inl (by omega))
    refine ⟨scalar, ?_⟩
    unfold String.utf8EncodeChar
    rw [hvalue, if_pos hlead, UInt8.ofNat_toNat]
  | @two a hlow hhigh ha =>
    obtain ⟨scalar, hvalue⟩ := hscalar ((lead.toNat - 0xC0) * 64 + (a.toNat - 0x80))
      (Or.inl (by omega))
    refine ⟨scalar, ?_⟩
    unfold String.utf8EncodeChar
    rw [hvalue, if_neg (by omega), if_pos (by omega), hbyte lead (by omega),
      hbyte a (by omega)]
  | @three a b hlow hhigh ha hb hoverlong hsurrogate =>
    obtain ⟨scalar, hvalue⟩ := hscalar
      ((lead.toNat - 0xE0) * 4096 + (a.toNat - 0x80) * 64 + (b.toNat - 0x80))
      (by unfold Nat.isValidChar; omega)
    refine ⟨scalar, ?_⟩
    unfold String.utf8EncodeChar
    rw [hvalue, if_neg (by omega), if_neg (by omega), if_pos (by omega),
      hbyte lead (by omega), hbyte a (by omega), hbyte b (by omega)]
  | @four a b c hlow hhigh ha hb hc hoverlong hlast =>
    obtain ⟨scalar, hvalue⟩ := hscalar
      ((lead.toNat - 0xF0) * 262144 + (a.toNat - 0x80) * 4096 + (b.toNat - 0x80) * 64 +
        (c.toNat - 0x80)) (by unfold Nat.isValidChar; omega)
    refine ⟨scalar, ?_⟩
    unfold String.utf8EncodeChar
    rw [hvalue, if_neg (by omega), if_neg (by omega), if_neg (by omega),
      hbyte lead (by omega), hbyte a (by omega), hbyte b (by omega),
      hbyte c (by omega)]

end Scalar

section Text

variable {text rest : Bytes} {lead : UInt8} {tail : Bytes} {count : ℕ}

theorem utf8Count_skipped (skipped : ℕ) (text : Bytes) :
    utf8Count skipped text = utf8Count 0 (text.drop skipped) := by
  induction skipped generalizing text with
  | zero => rw [List.drop_zero]
  | succ remaining ih =>
    cases text with
    | nil => rfl
    | cons byte rest => exact ih rest

/-- The loop passes over one code point. -/
theorem CodePoint.utf8Count_append (h : CodePoint lead tail) (rest : Bytes) :
    utf8Count 0 (lead :: (tail ++ rest)) = (utf8Count 0 rest).map (· + 1) := by
  rw [utf8Count, h.utf8Lead_append]
  dsimp only
  rw [utf8Count_skipped, List.drop_left]

/-- The loop counts the scalar values of an encoding. -/
theorem utf8Count_utf8Encoding (scalars : List Char) :
    utf8Count 0 (utf8Encoding scalars) = some scalars.length := by
  induction scalars with
  | nil => rfl
  | cons scalar scalars ih =>
    obtain ⟨lead, tail, hencode, hpoint⟩ := codePoint_utf8EncodeChar scalar
    rw [utf8Encoding, List.flatMap_cons, hencode, List.cons_append, hpoint.utf8Count_append,
      ← utf8Encoding, ih]
    rfl

/-- What the loop accepts is an encoding. The induction is on the length, since the loop goes on
behind the code point. -/
theorem exists_scalars (h : utf8Count 0 text = some count) :
    ∃ scalars, text = utf8Encoding scalars := by
  induction hsize : text.length using Nat.strong_induction_on generalizing text count with
  | _ size ih =>
    cases text with
    | nil => exact ⟨[], rfl⟩
    | cons lead rest =>
      rw [utf8Count] at h
      cases hlead : utf8Lead lead rest with
      | none => simp [hlead] at h
      | some following =>
        obtain ⟨tail, after, rfl, rfl, hpoint⟩ := exists_codePoint hlead
        obtain ⟨scalar, hencode⟩ := hpoint.exists_scalar
        rw [hlead] at h
        dsimp only at h
        rw [utf8Count_skipped, List.drop_left] at h
        obtain ⟨counted, hafter, -⟩ := Option.map_eq_some_iff.mp h
        rw [List.length_cons, List.length_append] at hsize
        obtain ⟨scalars, rfl⟩ := ih after.length (by omega) hafter rfl
        refine ⟨scalar :: scalars, ?_⟩
        rw [utf8Encoding, utf8Encoding, List.flatMap_cons, hencode, List.cons_append]

/-- The loop accepts the encodings of the sequences of scalar values, and counts the values. -/
theorem utf8Count_eq_some : utf8Count 0 text = some count ↔
    ∃ scalars, text = utf8Encoding scalars ∧ scalars.length = count := by
  constructor
  · intro h
    obtain ⟨scalars, rfl⟩ := exists_scalars h
    rw [utf8Count_utf8Encoding] at h
    exact ⟨scalars, rfl, Option.some.inj h⟩
  · rintro ⟨scalars, rfl, rfl⟩
    exact utf8Count_utf8Encoding scalars

theorem utf8IsValid_iff : utf8IsValid text = true ↔ ∃ scalars, text = utf8Encoding scalars := by
  rw [utf8IsValid, Option.isSome_iff_exists]
  constructor
  · rintro ⟨count, h⟩
    exact exists_scalars h
  · rintro ⟨scalars, rfl⟩
    exact ⟨_, utf8Count_utf8Encoding scalars⟩

end Text

end ZeroFido.Cbor
