import Mathlib.Algebra.Group.Int.Defs
import ZeroFido.Cbor

/-!
# CBOR primitives in a buffer

The encoder calls of `zerofido_cbor.c` on the memory they write to, with the boolean they answer,
and the primitives they write. `Encoder` keeps what a successful call has written; here a failed
call leaves its state behind too, so that what it did to the memory can be stated.

`readHead_canonical` is the converse of `readHead_headBytes`: the strict reader accepts only the
bytes the encoder writes. `primitives_roundtrip_canonical` is both directions for every primitive,
with the bound on the memory written.
-/

set_option autoImplicit false
set_option relaxedAutoImplicit false

namespace ZeroFido.Cbor

section Canonical

theorem toLittleEndian_ofLittleEndian (bytes : Bytes) :
    toLittleEndian bytes.length (ofLittleEndian bytes) = bytes := by
  induction bytes with
  | nil => rfl
  | cons byte rest ih =>
    have hlow : UInt8.ofNat (byte.toNat + 256 * ofLittleEndian rest) = byte := by
      apply UInt8.toNat_inj.mp
      have := byte.toNat_lt
      rw [UInt8.toNat_ofNat']
      omega
    have hhigh : (byte.toNat + 256 * ofLittleEndian rest) / 256 = ofLittleEndian rest := by
      have := byte.toNat_lt
      omega
    simp only [List.length_cons, ofLittleEndian, toLittleEndian, hlow, hhigh, ih]

theorem ofLittleEndian_lt (bytes : Bytes) : ofLittleEndian bytes < 256 ^ bytes.length := by
  induction bytes with
  | nil => simp [ofLittleEndian]
  | cons byte rest ih =>
    have := byte.toNat_lt
    simp only [ofLittleEndian, List.length_cons, pow_succ]
    omega

theorem toBigEndian_ofBigEndian (bytes : Bytes) :
    toBigEndian bytes.length (ofBigEndian bytes) = bytes := by
  have hreverse := toLittleEndian_ofLittleEndian bytes.reverse
  rw [List.length_reverse] at hreverse
  rw [toBigEndian, ofBigEndian, hreverse, List.reverse_reverse]

/-- A number that was read from `width` bytes fits them and is written back as the same bytes. -/
theorem readWord_spec {width value : ℕ} {cursor rest : Bytes}
    (h : readWord width cursor = some (value, rest)) :
    cursor = toBigEndian width value ++ rest ∧ value < 256 ^ width := by
  unfold readWord at h
  split_ifs at h with hshort
  obtain ⟨rfl, rfl⟩ : ofBigEndian (cursor.take width) = value ∧ cursor.drop width = rest := by
    simpa using h
  have hlength : (cursor.take width).length = width := by simp; omega
  constructor
  · have hword := toBigEndian_ofBigEndian (cursor.take width)
    rw [hlength] at hword
    rw [hword, List.take_append_drop]
  · have hlt := ofLittleEndian_lt (cursor.take width).reverse
    rwa [List.length_reverse, hlength] at hlt

/-- The lead byte is its two parts. -/
theorem lead_eq (byte : UInt8) {major info : ℕ} (hmajor : byte.toNat / 32 = major)
    (hinfo : byte.toNat % 32 = info) : byte = UInt8.ofNat (major * 32 + info) := by
  apply UInt8.toNat_inj.mp
  have := byte.toNat_lt
  rw [UInt8.toNat_ofNat']
  omega

/-- The widths of a head's argument, each with the additional information that announces it. -/
def headWidths : List (ℕ × ℕ) := [(24, 1), (25, 2), (26, 4), (27, 8)]

/-- The forms of a head that a reader accepts: the argument stands in the lead byte, or in one of
the four widths and is not below the least value the reader wants to see there. -/
inductive HeadForm (minimal : ℕ → ℕ) (major value : ℕ) : Bytes → Prop where
  | short (hvalue : value < 24) : HeadForm minimal major value [UInt8.ofNat (major * 32 + value)]
  | wide (info width : ℕ) (hwidth : (info, width) ∈ headWidths) (hminimal : minimal width ≤ value)
      (hfits : value < 256 ^ width) :
      HeadForm minimal major value
        (UInt8.ofNat (major * 32 + info) :: toBigEndian width value)

variable {minimal : ℕ → ℕ} {cursor rest : Bytes} {major value : ℕ}

/-- The argument of a head that follows in `width` bytes. -/
def readArgument (minimal : ℕ → ℕ) (major width : ℕ) (rest : Bytes) : Option (ℕ × ℕ × Bytes) :=
  match readWord width rest with
  | none => none
  | some (value, rest) => if minimal width ≤ value then some (major, value, rest) else none

theorem readArgument_eq_some {width : ℕ} {head : ℕ × ℕ × Bytes} :
    readArgument minimal major width cursor = some head ↔
      ∃ value rest, readWord width cursor = some (value, rest) ∧ minimal width ≤ value ∧
        (major, value, rest) = head := by
  unfold readArgument
  cases readWord width cursor with
  | none => simp
  | some word =>
    obtain ⟨value, rest⟩ := word
    by_cases hminimal : minimal width ≤ value <;> simp [hminimal]

theorem readHeadWith_cons (byte : UInt8) (rest : Bytes) :
    readHeadWith minimal (byte :: rest) =
      if byte.toNat % 32 < 24 then some (byte.toNat / 32, byte.toNat % 32, rest)
      else if byte.toNat % 32 = 24 then readArgument minimal (byte.toNat / 32) 1 rest
      else if byte.toNat % 32 = 25 then readArgument minimal (byte.toNat / 32) 2 rest
      else if byte.toNat % 32 = 26 then readArgument minimal (byte.toNat / 32) 4 rest
      else if byte.toNat % 32 = 27 then readArgument minimal (byte.toNat / 32) 8 rest
      else none :=
  rfl

/-- What a reader of heads has read. -/
theorem readHeadWith_form (h : readHeadWith minimal cursor = some (major, value, rest)) :
    major < 8 ∧ ∃ head, HeadForm minimal major value head ∧ cursor = head ++ rest := by
  cases cursor with
  | nil => simp [readHeadWith] at h
  | cons byte tail =>
    have hbyte := byte.toNat_lt
    have hlead := lead_eq byte rfl rfl
    -- a head whose argument follows in `width` bytes
    have hwide (width : ℕ) (hmem : (byte.toNat % 32, width) ∈ headWidths)
        (hread : readArgument minimal (byte.toNat / 32) width tail = some (major, value, rest)) :
        major < 8 ∧ ∃ head, HeadForm minimal major value head ∧ byte :: tail = head ++ rest := by
      obtain ⟨number, after, hword, hminimal, hhead⟩ := readArgument_eq_some.mp hread
      obtain ⟨rfl, rfl, rfl⟩ : byte.toNat / 32 = major ∧ number = value ∧ after = rest := by
        simpa using hhead
      obtain ⟨htail, hfits⟩ := readWord_spec hword
      refine ⟨by omega, _, HeadForm.wide _ width hmem hminimal hfits, ?_⟩
      rw [← hlead, List.cons_append, ← htail]
    rw [readHeadWith_cons] at h
    split_ifs at h with hshort h24 h25 h26 h27
    · obtain ⟨rfl, rfl, rfl⟩ :
          byte.toNat / 32 = major ∧ byte.toNat % 32 = value ∧ tail = rest := by
        simpa using h
      exact ⟨by omega, _, HeadForm.short hshort, by rw [← hlead, List.singleton_append]⟩
    · exact hwide 1 (by rw [h24]; decide) h
    · exact hwide 2 (by rw [h25]; decide) h
    · exact hwide 4 (by rw [h26]; decide) h
    · exact hwide 8 (by rw [h27]; decide) h

/-- The form without a needless byte is the one the encoder writes. -/
theorem HeadForm.eq_headBytes {head : Bytes} (h : HeadForm minimalArgument major value head) :
    head = headBytes major value ∧ value < 2 ^ 64 := by
  cases h with
  | short hvalue => exact ⟨by simp [headBytes, hvalue], by omega⟩
  | wide info width hwidth hminimal hfits =>
    simp only [headWidths, List.mem_cons, Prod.mk.injEq, List.not_mem_nil, or_false] at hwidth
    unfold headBytes
    dsimp only
    obtain ⟨rfl, rfl⟩ | ⟨rfl, rfl⟩ | ⟨rfl, rfl⟩ | ⟨rfl, rfl⟩ := hwidth
    all_goals
      simp only [minimalArgument] at hminimal
      refine ⟨?_, by omega⟩
      split_ifs <;> first | omega | rfl

/-- The strict reader accepts a head only in the form the encoder writes. -/
theorem readHead_canonical (h : readHead cursor = some (major, value, rest)) :
    cursor = headBytes major value ++ rest ∧ major < 8 ∧ value < 2 ^ 64 := by
  obtain ⟨hmajor, head, hform, rfl⟩ := readHeadWith_form h
  obtain ⟨rfl, hvalue⟩ := hform.eq_headBytes
  exact ⟨rfl, hmajor, hvalue⟩

end Canonical

section Buffer

/-- `ZfCborEncoder` with the memory from `buf` on, which does not end at the capacity. -/
structure EncoderBuffer where
  buf : ℕ → UInt8
  capacity : ℕ
  offset : ℕ
  capacity_le : capacity ≤ sizeMax

/-- `memcpy` of `data` to an address. -/
def memcpy (memory : ℕ → UInt8) (start : ℕ) (data : Bytes) : ℕ → UInt8 := fun address ↦
  if start ≤ address ∧ address < start + data.length then data.getD (address - start) 0
  else memory address

/-- An encoder call: whether it succeeded, and the encoder it leaves. -/
abbrev Call : Type := EncoderBuffer → Bool × EncoderBuffer

/-- Two calls joined by `&&`. -/
def Call.andThen (first second : Call) : Call := fun enc ↦
  match first enc with
  | (true, enc) => second enc
  | (false, enc) => (false, enc)

/-- `zf_cbor_append`. -/
def append (data : Bytes) : Call := fun enc ↦
  if enc.capacity < enc.offset ∨ enc.capacity - enc.offset < data.length then (false, enc)
  else
    (true, { enc with
      buf := memcpy enc.buf enc.offset data
      offset := enc.offset + data.length })

/-- `zf_cbor_encode_head`. -/
def encodeHead (major value : ℕ) : Call := append (headBytes major value)

/-- `zf_cbor_encode_uint`. -/
def encodeUint (value : ℕ) : Call := encodeHead majorUint value

/-- `zf_cbor_encode_int`. -/
def encodeInt (value : ℤ) : Call :=
  if 0 ≤ value then encodeHead majorUint value.toNat
  else encodeHead majorNegint (-1 - value).toNat

/-- `zf_cbor_encode_bool`. -/
def encodeBool (value : Bool) : Call := append [if value then 0xF5 else 0xF4]

/-- The two string encoders: the head, and unless the string is empty its bytes. -/
def encodeString (major : ℕ) (data : Bytes) : Call :=
  (encodeHead major data.length).andThen
    (if data.length = 0 then fun enc ↦ (true, enc) else append data)

/-- `zf_cbor_encode_bytes`. -/
def encodeBytes (data : Bytes) : Call := encodeString majorBytes data

/-- `zf_cbor_encode_text_n`. -/
def encodeText (text : Bytes) : Call := encodeString majorText text

/-- `zf_cbor_encode_map`. -/
def encodeMap (pairs : ℕ) : Call := encodeHead majorMap pairs

/-- `zf_cbor_encode_array`. -/
def encodeArray (items : ℕ) : Call := encodeHead majorArray items

/-- `zf_cbor_reserve_bytes`: the head of a byte string whose `size` bytes the caller fills in. When
they do not fit, the head is taken back. -/
def reserveBytes (size : ℕ) : Call := fun enc ↦
  match encodeHead majorBytes size enc with
  | (false, enc) => (false, enc)
  | (true, headed) =>
    if headed.capacity < headed.offset ∨ headed.capacity - headed.offset < size then
      (false, { headed with offset := enc.offset })
    else (true, { headed with offset := headed.offset + size })

/-- What has been written to the buffer. -/
def EncoderBuffer.written (enc : EncoderBuffer) : Bytes := (List.range enc.offset).map enc.buf

/-- The encoder without the memory behind the bytes written. -/
def EncoderBuffer.toEncoder (enc : EncoderBuffer) : Encoder :=
  { capacity := enc.capacity, written := enc.written }

variable (enc : EncoderBuffer) (data : Bytes)

@[simp]
theorem EncoderBuffer.length_written : enc.written.length = enc.offset := by
  simp [EncoderBuffer.written]

theorem memcpy_of_lt {memory : ℕ → UInt8} {start address : ℕ} (h : address < start) :
    memcpy memory start data address = memory address := by
  rw [memcpy, if_neg (by omega)]

theorem memcpy_of_le {memory : ℕ → UInt8} {start address : ℕ}
    (h : start + data.length ≤ address) : memcpy memory start data address = memory address := by
  rw [memcpy, if_neg (by omega)]

theorem map_memcpy (memory : ℕ → UInt8) (start : ℕ) :
    (List.range (start + data.length)).map (memcpy memory start data) =
      (List.range start).map memory ++ data := by
  rw [List.range_add, List.map_append, List.map_map]
  congr 1
  · refine List.map_congr_left fun address haddress ↦ ?_
    exact memcpy_of_lt data (List.mem_range.mp haddress)
  · refine List.ext_getElem (by simp) fun index hleft hright ↦ ?_
    simp [memcpy, hright]

/-- A call and what it does to the bytes written are the same thing. -/
def Call.Refines (call : Call) (step : Encoder → Option Encoder) : Prop :=
  ∀ enc, step enc.toEncoder = if (call enc).1 then some (call enc).2.toEncoder else none

theorem append_refines : (append data).Refines (Encoder.append · data) := by
  intro enc
  by_cases hroom : enc.capacity < enc.offset + data.length
  · have hfull : enc.capacity < enc.offset ∨ enc.capacity - enc.offset < data.length := by omega
    simp [append, Encoder.append, EncoderBuffer.toEncoder, hroom, hfull]
  · have hfits : ¬(enc.capacity < enc.offset ∨ enc.capacity - enc.offset < data.length) := by omega
    simp [append, Encoder.append, EncoderBuffer.toEncoder, hroom, hfits, EncoderBuffer.written,
      map_memcpy]

theorem Call.Refines.andThen {first second : Call} {step next : Encoder → Option Encoder}
    (hfirst : first.Refines step) (hsecond : second.Refines next) :
    (first.andThen second).Refines fun enc ↦ (step enc).bind next := by
  intro enc
  have hstep := hfirst enc
  cases hrun : first enc with
  | mk success after =>
    cases success <;> simp_all [Call.andThen, hsecond after]

end Buffer

section Primitives

/-- A value that one encoder call writes and one reader reads. -/
inductive Primitive where
  | uint (value : ℕ)
  | int (value : ℤ)
  | bool (value : Bool)
  | bytes (data : Bytes)
  | text (data : Bytes)
  | array (items : ℕ)
  | map (pairs : ℕ)
  deriving DecidableEq, Repr

/-- The readers. -/
inductive Kind where
  | uint
  | int
  | bool
  | bytes
  | text
  | array
  | map
  deriving DecidableEq, Repr

def Primitive.kind : Primitive → Kind
  | .uint _ => .uint
  | .int _ => .int
  | .bool _ => .bool
  | .bytes _ => .bytes
  | .text _ => .text
  | .array _ => .array
  | .map _ => .map

/-- The values the types of the calls have room for, and for a text that it is UTF-8. -/
def Primitive.InRange : Primitive → Prop
  | .uint value => value < 2 ^ 64
  | .int value => -2 ^ 63 ≤ value ∧ value ≤ int64Max
  | .text data => utf8IsValid data = true
  | .array count | .map count => count ≤ sizeMax
  | .bool _ | .bytes _ => True

/-- The encoder call of a primitive. -/
def encode : Primitive → Call
  | .uint value => encodeUint value
  | .int value => encodeInt value
  | .bool value => encodeBool value
  | .bytes data => encodeBytes data
  | .text data => encodeText data
  | .array items => encodeArray items
  | .map pairs => encodeMap pairs

/-- The reader of a kind. -/
def read : Kind → Bytes → Option (Primitive × Bytes)
  | .uint, cursor => (readUint cursor).map (Prod.map .uint id)
  | .int, cursor => (readInt cursor).map (Prod.map .int id)
  | .bool, cursor => (readBool cursor).map (Prod.map .bool id)
  | .bytes, cursor => (readBytes cursor).map (Prod.map .bytes id)
  | .text, cursor => (readText cursor).map (Prod.map .text id)
  | .array, cursor => (readArrayStart cursor).map (Prod.map .array id)
  | .map, cursor => (readMapStart cursor).map (Prod.map .map id)

/-- The bytes of an integer. -/
def intBytes (value : ℤ) : Bytes :=
  if 0 ≤ value then headBytes majorUint value.toNat else headBytes majorNegint (-1 - value).toNat

/-- The bytes of a primitive. -/
def Primitive.encoding : Primitive → Bytes
  | .uint value => headBytes majorUint value
  | .int value => intBytes value
  | .bool value => [if value then 0xF5 else 0xF4]
  | .bytes data => stringBytes majorBytes data
  | .text data => stringBytes majorText data
  | .array items => headBytes majorArray items
  | .map pairs => headBytes majorMap pairs

theorem readInt_intBytes {value : ℤ} (rest : Bytes)
    (hvalue : -2 ^ 63 ≤ value ∧ value ≤ int64Max) :
    readInt (intBytes value ++ rest) = some (value, rest) := by
  have hmax : (int64Max : ℤ) = 2 ^ 63 - 1 := rfl
  unfold intBytes
  split_ifs with hsign
  · have hraw : ¬int64Max < value.toNat := by omega
    have hhead := readHead_headBytes rest (show majorUint < 8 by decide)
      (show value.toNat < 2 ^ 64 by omega)
    simp only [readInt, hhead, if_true, if_neg hraw, Int.toNat_of_nonneg hsign]
  · have hraw : ¬int64Max < (-1 - value).toNat := by omega
    have hhead := readHead_headBytes rest (show majorNegint < 8 by decide)
      (show (-1 - value).toNat < 2 ^ 64 by omega)
    have hvalue : -1 - ((-1 - value).toNat : ℤ) = value := by omega
    simp only [readInt, hhead, if_neg (show majorNegint ≠ majorUint by decide), if_true,
      if_neg hraw, hvalue]

theorem readArrayStart_headBytes {items : ℕ} (rest : Bytes) (hitems : items ≤ sizeMax) :
    readArrayStart (headBytes majorArray items ++ rest) = some (items, rest) := by
  have hvalue : items < 2 ^ 64 := lt_of_le_of_lt hitems (by decide)
  simp [readArrayStart, readStart, readHead_headBytes rest (show majorArray < 8 by decide) hvalue,
    Nat.not_lt.mpr hitems]

/-- Two pieces fit one after the other when they fit together. -/
theorem Encoder.append_append (enc : Encoder) (first second : Bytes) :
    (enc.append first).bind (Encoder.append · second) = enc.append (first ++ second) := by
  unfold Encoder.append
  by_cases hfirst : enc.capacity < enc.written.length + first.length
  · have hboth : enc.capacity < enc.written.length + (first ++ second).length := by
      rw [List.length_append]
      omega
    rw [if_pos hfirst, if_pos hboth, Option.bind_none]
  · rw [if_neg hfirst, Option.bind_some]
    simp only [List.length_append, List.append_assoc, Nat.add_assoc]

theorem Encoder.string_eq_append (enc : Encoder) (major : ℕ) (data : Bytes) :
    enc.string major data = enc.append (stringBytes major data) := by
  rw [stringBytes, ← Encoder.append_append]
  unfold Encoder.string Encoder.head
  by_cases hempty : data.length = 0
  · obtain rfl := List.length_eq_zero_iff.mp hempty
    cases hhead : enc.append (headBytes major ([] : Bytes).length) with
    | none => rfl
    | some headed =>
      obtain ⟨rfl, hfits⟩ := Encoder.written_append hhead
      simp [Encoder.append] at hfits ⊢
      omega
  · simp [hempty]

theorem encodeString_refines (major : ℕ) (data : Bytes) :
    (encodeString major data).Refines (Encoder.append · (stringBytes major data)) := by
  have hstring : (encodeString major data).Refines (Encoder.string · major data) := by
    refine Call.Refines.andThen (append_refines _) ?_
    by_cases hempty : data.length = 0
    · intro enc
      simp [hempty]
    · intro enc
      simpa [hempty] using append_refines data enc
  intro enc
  exact (Encoder.string_eq_append _ major data).symm.trans (hstring enc)

/-- A call that writes a primitive appends its bytes. -/
theorem encode_refines (value : Primitive) :
    (encode value).Refines (Encoder.append · value.encoding) := by
  cases value with
  | uint value => exact append_refines _
  | int value =>
    by_cases hsign : 0 ≤ value
    · simpa [encode, encodeInt, encodeHead, Primitive.encoding, intBytes, hsign] using
        append_refines _
    · simpa [encode, encodeInt, encodeHead, Primitive.encoding, intBytes, hsign] using
        append_refines _
  | bool value => exact append_refines _
  | bytes data => exact encodeString_refines majorBytes data
  | text data => exact encodeString_refines majorText data
  | array items => exact append_refines _
  | map pairs => exact append_refines _

/-- A primitive is read back as it was written. -/
theorem read_encoding {value : Primitive} (hrange : value.InRange)
    (hlength : value.encoding.length ≤ sizeMax) (rest : Bytes) :
    read value.kind (value.encoding ++ rest) = some (value, rest) := by
  have hsize : sizeMax < 2 ^ 64 := by decide
  have hshort : ∀ major (data : Bytes), (stringBytes major data).length ≤ sizeMax →
      data.length < 2 ^ 64 := by
    intro major data hle
    rw [stringBytes, List.length_append] at hle
    omega
  cases value with
  | uint value => simp [Primitive.kind, read, Primitive.encoding, readUint_headBytes rest hrange]
  | int value => simp [Primitive.kind, read, Primitive.encoding, readInt_intBytes rest hrange]
  | bool value => cases value <;> rfl
  | bytes data =>
    simp [Primitive.kind, read, Primitive.encoding,
      readBytes_stringBytes rest (hshort majorBytes data hlength)]
  | text data =>
    simp [Primitive.kind, read, Primitive.encoding,
      readText_stringBytes rest (hshort majorText data hlength) hrange]
  | array items =>
    simp [Primitive.kind, read, Primitive.encoding, readArrayStart_headBytes rest hrange]
  | map pairs =>
    simp [Primitive.kind, read, Primitive.encoding, readMapStart_headBytes rest hrange]

theorem readUint_canonical {value : ℕ} {cursor rest : Bytes}
    (h : readUint cursor = some (value, rest)) : cursor = headBytes majorUint value ++ rest := by
  unfold readUint at h
  split at h
  case h_1 major raw after hhead =>
    split_ifs at h with hmajor
    obtain ⟨rfl, rfl⟩ : raw = value ∧ after = rest := by simpa using h
    rw [(readHead_canonical hhead).1, hmajor]
  case h_2 => cases h

theorem readInt_canonical {value : ℤ} {cursor rest : Bytes}
    (h : readInt cursor = some (value, rest)) : cursor = intBytes value ++ rest := by
  unfold readInt at h
  split at h
  case h_1 major raw after hhead =>
    obtain ⟨hcursor, -, -⟩ := readHead_canonical hhead
    split_ifs at h with huint hlarge hnegint hlarge
    · obtain ⟨rfl, rfl⟩ : (raw : ℤ) = value ∧ after = rest := by simpa using h
      rw [hcursor, huint, intBytes, if_pos (by omega), Int.toNat_natCast]
    · obtain ⟨rfl, rfl⟩ : -1 - (raw : ℤ) = value ∧ after = rest := by simpa using h
      have hraw : (-1 - (-1 - (raw : ℤ))).toNat = raw := by omega
      rw [hcursor, hnegint, intBytes, if_neg (by omega), hraw]
  case h_2 => cases h

theorem readBool_canonical {value : Bool} {cursor rest : Bytes}
    (h : readBool cursor = some (value, rest)) :
    cursor = (if value then 0xF5 else 0xF4) :: rest := by
  cases cursor with
  | nil => simp [readBool] at h
  | cons byte tail =>
    simp only [readBool] at h
    split_ifs at h with hfalse htrue
    · obtain ⟨rfl, rfl⟩ : false = value ∧ tail = rest := by simpa using h
      simp [hfalse]
    · obtain ⟨rfl, rfl⟩ : true = value ∧ tail = rest := by simpa using h
      simp [htrue]

/-- A string that was cut from what follows its head. -/
theorem stringBytes_take {major raw : ℕ} {cursor after : Bytes}
    (hhead : readHead cursor = some (major, raw, after)) (hlength : ¬after.length < raw) :
    cursor = stringBytes major (after.take raw) ++ after.drop raw := by
  have hraw : (after.take raw).length = raw := by simp; omega
  rw [stringBytes, hraw, List.append_assoc, List.take_append_drop]
  exact (readHead_canonical hhead).1

theorem readBytes_canonical {data cursor rest : Bytes}
    (h : readBytes cursor = some (data, rest)) :
    cursor = stringBytes majorBytes data ++ rest := by
  unfold readBytes at h
  split at h
  case h_1 major raw after hhead =>
    split_ifs at h with hmajor hlength
    obtain ⟨rfl, rfl⟩ : after.take raw = data ∧ after.drop raw = rest := by simpa using h
    rw [stringBytes_take hhead hlength, not_not.mp hmajor]
  case h_2 => cases h

theorem readText_canonical {text cursor rest : Bytes}
    (h : readText cursor = some (text, rest)) :
    cursor = stringBytes majorText text ++ rest ∧ utf8IsValid text = true := by
  unfold readText at h
  split at h
  case h_1 major raw after hhead =>
    split_ifs at h with hmajor hlength hvalid
    obtain ⟨rfl, rfl⟩ : after.take raw = text ∧ after.drop raw = rest := by simpa using h
    exact ⟨by rw [stringBytes_take hhead hlength, not_not.mp hmajor], by simpa using hvalid⟩
  case h_2 => cases h

theorem readStart_canonical {expected count : ℕ} {cursor rest : Bytes}
    (h : readStart expected cursor = some (count, rest)) :
    cursor = headBytes expected count ++ rest ∧ count ≤ sizeMax := by
  unfold readStart at h
  split at h
  case h_1 major raw after hhead =>
    split_ifs at h with hmajor hlarge
    obtain ⟨rfl, rfl⟩ : raw = count ∧ after = rest := by simpa using h
    exact ⟨by rw [(readHead_canonical hhead).1, not_not.mp hmajor], Nat.not_lt.mp hlarge⟩
  case h_2 => cases h

/-- A reader accepts only the bytes that the call for the value writes. -/
theorem read_canonical {kind : Kind} {value : Primitive} {cursor rest : Bytes}
    (h : read kind cursor = some (value, rest)) : cursor = value.encoding ++ rest := by
  cases kind with
  | uint =>
    obtain ⟨⟨number, after⟩, hread, heq⟩ := Option.map_eq_some_iff.mp h
    cases heq
    exact readUint_canonical hread
  | int =>
    obtain ⟨⟨number, after⟩, hread, heq⟩ := Option.map_eq_some_iff.mp h
    cases heq
    exact readInt_canonical hread
  | bool =>
    obtain ⟨⟨flag, after⟩, hread, heq⟩ := Option.map_eq_some_iff.mp h
    cases heq
    exact readBool_canonical hread
  | bytes =>
    obtain ⟨⟨data, after⟩, hread, heq⟩ := Option.map_eq_some_iff.mp h
    cases heq
    exact readBytes_canonical hread
  | text =>
    obtain ⟨⟨text, after⟩, hread, heq⟩ := Option.map_eq_some_iff.mp h
    cases heq
    exact (readText_canonical hread).1
  | array =>
    obtain ⟨⟨count, after⟩, hread, heq⟩ := Option.map_eq_some_iff.mp h
    cases heq
    exact (readStart_canonical hread).1
  | map =>
    obtain ⟨⟨count, after⟩, hread, heq⟩ := Option.map_eq_some_iff.mp h
    cases heq
    exact (readStart_canonical hread).1

end Primitives

section Capacity

/-- What no call does: it leaves the memory behind the capacity alone. -/
def Call.WithinCapacity (call : Call) : Prop :=
  ∀ enc, (call enc).2.capacity = enc.capacity ∧
    ∀ address, enc.capacity ≤ address → (call enc).2.buf address = enc.buf address

theorem append_withinCapacity (data : Bytes) : (append data).WithinCapacity := by
  intro enc
  unfold append
  split_ifs with hroom
  · exact ⟨rfl, fun _ _ ↦ rfl⟩
  · exact ⟨rfl, fun address haddress ↦ memcpy_of_le data (by omega)⟩

theorem Call.WithinCapacity.andThen {first second : Call} (hfirst : first.WithinCapacity)
    (hsecond : second.WithinCapacity) : (first.andThen second).WithinCapacity := by
  intro enc
  obtain ⟨hcapacity, hbuf⟩ := hfirst enc
  cases hrun : first enc with
  | mk success after =>
    rw [hrun] at hcapacity hbuf
    cases success with
    | false => simpa [Call.andThen, hrun] using ⟨hcapacity, hbuf⟩
    | true =>
      obtain ⟨hcapacity', hbuf'⟩ := hsecond after
      simp only [Call.andThen, hrun]
      refine ⟨hcapacity'.trans hcapacity, fun address haddress ↦ ?_⟩
      have hbehind : after.capacity ≤ address := (show after.capacity = enc.capacity from
        hcapacity) ▸ haddress
      rw [hbuf' address hbehind, hbuf address haddress]

theorem encodeString_withinCapacity (major : ℕ) (data : Bytes) :
    (encodeString major data).WithinCapacity := by
  refine Call.WithinCapacity.andThen (append_withinCapacity _) ?_
  split_ifs with hempty
  · exact fun enc ↦ ⟨rfl, fun _ _ ↦ rfl⟩
  · exact append_withinCapacity data

theorem reserveBytes_withinCapacity (size : ℕ) : (reserveBytes size).WithinCapacity := by
  intro enc
  have hhead := append_withinCapacity (headBytes majorBytes size) enc
  unfold reserveBytes
  split
  case h_1 after hrun =>
    rw [encodeHead] at hrun
    rw [hrun] at hhead
    exact hhead
  case h_2 headed hrun =>
    rw [encodeHead] at hrun
    rw [hrun] at hhead
    split_ifs <;> exact hhead

theorem encode_withinCapacity (value : Primitive) : (encode value).WithinCapacity := by
  cases value with
  | uint value => exact append_withinCapacity _
  | int value =>
    by_cases hsign : 0 ≤ value
    · simpa [encode, encodeInt, encodeHead, hsign] using append_withinCapacity _
    · simpa [encode, encodeInt, encodeHead, hsign] using append_withinCapacity _
  | bool value => exact append_withinCapacity _
  | bytes data => exact encodeString_withinCapacity majorBytes data
  | text data => exact encodeString_withinCapacity majorText data
  | array items => exact append_withinCapacity _
  | map pairs => exact append_withinCapacity _

/-- A call that writes a primitive succeeds exactly when its bytes fit, and then these are what it
writes. -/
theorem encode_eq (value : Primitive) (enc : EncoderBuffer) :
    ((encode value enc).1 = true ↔ enc.offset + value.encoding.length ≤ enc.capacity) ∧
      ((encode value enc).1 = true →
        (encode value enc).2.written = enc.written ++ value.encoding) := by
  have hrefines := encode_refines value enc
  simp only [Encoder.append, EncoderBuffer.toEncoder, EncoderBuffer.length_written] at hrefines
  cases hsuccess : (encode value enc).1 with
  | false =>
    simp only [hsuccess, Bool.false_eq_true, if_false] at hrefines
    split_ifs at hrefines with hfull
    simp
    omega
  | true =>
    simp only [hsuccess, if_true] at hrefines
    split_ifs at hrefines with hfull
    simp only [Option.some.injEq, Encoder.mk.injEq] at hrefines
    exact ⟨by simp; omega, fun _ ↦ hrefines.2.symm⟩

/-- Every primitive with room for its bytes is written, and its reader finds it again with the
cursor behind it, whatever follows. What a reader accepts is what the call for the value writes. A
call that fails has found no room, and no call writes behind the capacity. -/
theorem primitives_roundtrip_canonical (value : Primitive) :
    (value.InRange → ∀ enc : EncoderBuffer,
      enc.offset + value.encoding.length ≤ enc.capacity →
        (encode value enc).1 = true ∧
          ∃ bytes, (encode value enc).2.written = enc.written ++ bytes ∧
            ∀ rest, read value.kind (bytes ++ rest) = some (value, rest)) ∧
      (∀ kind cursor rest, read kind cursor = some (value, rest) → ∀ enc : EncoderBuffer,
        enc.offset + value.encoding.length ≤ enc.capacity →
          (encode value enc).1 = true ∧
            ∃ bytes, (encode value enc).2.written = enc.written ++ bytes ∧
              cursor = bytes ++ rest) ∧
      ∀ enc, ((encode value enc).1 = false → enc.capacity < enc.offset + value.encoding.length) ∧
        ∀ address, enc.capacity ≤ address → (encode value enc).2.buf address = enc.buf address := by
  refine ⟨fun hrange enc hroom ↦ ?_, fun kind cursor rest hread enc hroom ↦ ?_, fun enc ↦ ?_⟩
  · obtain ⟨hiff, hwritten⟩ := encode_eq value enc
    have hlength : value.encoding.length ≤ sizeMax := by
      have := enc.capacity_le
      omega
    exact ⟨hiff.mpr hroom, value.encoding, hwritten (hiff.mpr hroom), read_encoding hrange hlength⟩
  · obtain ⟨hiff, hwritten⟩ := encode_eq value enc
    exact ⟨hiff.mpr hroom, value.encoding, hwritten (hiff.mpr hroom), read_canonical hread⟩
  · refine ⟨fun hfail ↦ ?_, (encode_withinCapacity value enc).2⟩
    by_contra hroom
    have hsuccess := (encode_eq value enc).1.mpr (Nat.not_lt.mp hroom)
    exact Bool.false_ne_true (hfail.symm.trans hsuccess)

theorem primitives_roundtrip_canonical_int :
    ((encode (.int (-500)) ⟨fun _ ↦ 0, 3, 0, by decide⟩).1 = true ∧
      ∃ bytes, (encode (.int (-500)) ⟨fun _ ↦ 0, 3, 0, by decide⟩).2.written = [] ++ bytes ∧
        ∀ rest, read .int (bytes ++ rest) = some (.int (-500), rest)) ∧
      ∃ bytes, (encode (.int (-500)) ⟨fun _ ↦ 0, 3, 0, by decide⟩).2.written = [] ++ bytes ∧
        ([0x39, 0x01, 0xF3, 0xFF] : Bytes) = bytes ++ [0xFF] :=
  ⟨(primitives_roundtrip_canonical (.int (-500))).1 ⟨by decide, by decide⟩
      ⟨fun _ ↦ 0, 3, 0, by decide⟩ (by decide),
    ((primitives_roundtrip_canonical (.int (-500))).2.1 .int [0x39, 0x01, 0xF3, 0xFF] [0xFF]
      (by decide) ⟨fun _ ↦ 0, 3, 0, by decide⟩ (by decide)).2⟩

end Capacity

end ZeroFido.Cbor
