import ZeroFido.Types
import Mathlib.Data.Int.Notation

/-!
# CBOR

The reader and the encoder of `zerofido_cbor.c`, for strict definite-length CBOR. A cursor is the
bytes not yet read; a read that fails ends the parse, so failed reads return `none` and drop the
cursor. An encoder is its capacity and the bytes written so far.

`readHead_headBytes` is the round trip of item heads that every other round trip rests on.
-/

set_option autoImplicit false
set_option relaxedAutoImplicit false

namespace ZeroFido.Cbor

section Heads

def majorUint : ℕ := 0
def majorNegint : ℕ := 1
def majorBytes : ℕ := 2
def majorText : ℕ := 3
def majorArray : ℕ := 4
def majorMap : ℕ := 5
def majorSimple : ℕ := 7

/-- The `width` low bytes of a number, most significant first. -/
def toBigEndian (width value : ℕ) : Bytes := (toLittleEndian width value).reverse

/-- The number whose bytes, most significant first, these are. -/
def ofBigEndian (bytes : Bytes) : ℕ := ofLittleEndian bytes.reverse

/-- Reads a big-endian number of `width` bytes. -/
def readWord (width : ℕ) (cursor : Bytes) : Option (ℕ × Bytes) :=
  if cursor.length < width then none
  else some (ofBigEndian (cursor.take width), cursor.drop width)

/-- The head of an item with the checks on its argument left to `minimal`, which gives the least
value that may use each width. -/
def readHeadWith (minimal : ℕ → ℕ) (cursor : Bytes) : Option (ℕ × ℕ × Bytes) :=
  match cursor with
  | [] => none
  | byte :: rest =>
    let major := byte.toNat / 32
    let info := byte.toNat % 32
    let wide (width : ℕ) : Option (ℕ × ℕ × Bytes) :=
      match readWord width rest with
      | none => none
      | some (value, rest) => if minimal width ≤ value then some (major, value, rest) else none
    if info < 24 then some (major, info, rest)
    else if info = 24 then wide 1
    else if info = 25 then wide 2
    else if info = 26 then wide 4
    else if info = 27 then wide 8
    else none

/-- The least value the strict reader accepts in `width` bytes. -/
def minimalArgument : ℕ → ℕ
  | 1 => 24
  | 2 => 2 ^ 8
  | 4 => 2 ^ 16
  | 8 => 2 ^ 32
  | _ => 0

/-- `zf_cbor_read_head`: longer forms than needed are refused. -/
def readHead (cursor : Bytes) : Option (ℕ × ℕ × Bytes) := readHeadWith minimalArgument cursor

/-- `zf_cbor_skip_read_head`: the length of the form is not checked. -/
def skipReadHead (cursor : Bytes) : Option (ℕ × ℕ × Bytes) := readHeadWith (fun _ ↦ 0) cursor

end Heads

section Reader

/-- `SIZE_MAX` of the target. -/
def sizeMax : ℕ := 2 ^ 32 - 1

/-- `INT64_MAX`. -/
def int64Max : ℕ := 2 ^ 63 - 1

/-- A UTF-8 continuation byte. -/
def isContinuation (byte : UInt8) : Bool := byte &&& 0xC0 == 0x80

/-- Whether a byte lies in a closed range. -/
def inRange (low high byte : UInt8) : Bool := low ≤ byte && byte ≤ high

/-- The code point that starts a text: how many bytes follow its lead byte, or `none` when the text
does not start with a well-formed one. One branch for each class of lead byte. -/
def utf8Lead (lead : UInt8) (rest : Bytes) : Option ℕ :=
  if lead ≤ 0x7F then some 0
  else if inRange 0xC2 0xDF lead then
    match rest with
    | a :: _ => if isContinuation a then some 1 else none
    | _ => none
  else if lead = 0xE0 then
    match rest with
    | a :: b :: _ => if inRange 0xA0 0xBF a && isContinuation b then some 2 else none
    | _ => none
  else if inRange 0xE1 0xEC lead || inRange 0xEE 0xEF lead then
    match rest with
    | a :: b :: _ => if isContinuation a && isContinuation b then some 2 else none
    | _ => none
  else if lead = 0xED then
    match rest with
    | a :: b :: _ => if inRange 0x80 0x9F a && isContinuation b then some 2 else none
    | _ => none
  else if lead = 0xF0 then
    match rest with
    | a :: b :: c :: _ =>
      if inRange 0x90 0xBF a && isContinuation b && isContinuation c then some 3 else none
    | _ => none
  else if inRange 0xF1 0xF3 lead then
    match rest with
    | a :: b :: c :: _ =>
      if isContinuation a && isContinuation b && isContinuation c then some 3 else none
    | _ => none
  else if lead = 0xF4 then
    match rest with
    | a :: b :: c :: _ =>
      if inRange 0x80 0x8F a && isContinuation b && isContinuation c then some 3 else none
    | _ => none
  else
    none

/-- The loop over the code points of a text: their number, or `none` for text that is not UTF-8.
`skipped` counts the continuation bytes of the current code point still to be passed over. -/
def utf8Count (skipped : ℕ) : Bytes → Option ℕ
  | [] => some 0
  | byte :: rest =>
    match skipped with
    | remaining + 1 => utf8Count remaining rest
    | 0 =>
      match utf8Lead byte rest with
      | none => none
      | some following => (utf8Count following rest).map (· + 1)

/-- `zf_cbor_utf8_is_valid`. -/
def utf8IsValid (text : Bytes) : Bool := (utf8Count 0 text).isSome

/-- `zf_cbor_read_uint`. -/
def readUint (cursor : Bytes) : Option (ℕ × Bytes) :=
  match readHead cursor with
  | some (major, value, rest) => if major = majorUint then some (value, rest) else none
  | none => none

/-- `zf_cbor_read_int`. -/
def readInt (cursor : Bytes) : Option (ℤ × Bytes) :=
  match readHead cursor with
  | some (major, raw, rest) =>
    if major = majorUint then
      if int64Max < raw then none else some ((raw : ℤ), rest)
    else if major = majorNegint then
      if int64Max < raw then none else some (-1 - (raw : ℤ), rest)
    else none
  | none => none

/-- `zf_cbor_read_bool`. -/
def readBool (cursor : Bytes) : Option (Bool × Bytes) :=
  match cursor with
  | [] => none
  | byte :: rest =>
    if byte = 0xF4 then some (false, rest)
    else if byte = 0xF5 then some (true, rest)
    else none

/-- `zf_cbor_read_bytes_ptr`. -/
def readBytes (cursor : Bytes) : Option (Bytes × Bytes) :=
  match readHead cursor with
  | some (major, raw, rest) =>
    if major ≠ majorBytes then none
    else if rest.length < raw then none
    else some (rest.take raw, rest.drop raw)
  | none => none

/-- `zf_cbor_read_text_ptr`. -/
def readText (cursor : Bytes) : Option (Bytes × Bytes) :=
  match readHead cursor with
  | some (major, raw, rest) =>
    if major ≠ majorText then none
    else if rest.length < raw then none
    else if !utf8IsValid (rest.take raw) then none
    else some (rest.take raw, rest.drop raw)
  | none => none

/-- The two container heads, `zf_cbor_read_map_start` and `zf_cbor_read_array_start`. -/
def readStart (expected : ℕ) (cursor : Bytes) : Option (ℕ × Bytes) :=
  match readHead cursor with
  | some (major, raw, rest) =>
    if major ≠ expected then none
    else if sizeMax < raw then none
    else some (raw, rest)
  | none => none

/-- `zf_cbor_read_map_start`. -/
def readMapStart (cursor : Bytes) : Option (ℕ × Bytes) := readStart majorMap cursor

/-- `zf_cbor_read_array_start`. -/
def readArrayStart (cursor : Bytes) : Option (ℕ × Bytes) := readStart majorArray cursor

def skipDepthLimit : ℕ := 16

/-- Skips `count` items in a row. -/
def skipItems (skipItem : Bytes → Option Bytes) : ℕ → Bytes → Option Bytes
  | 0, cursor => some cursor
  | count + 1, cursor =>
    match skipItem cursor with
    | none => none
    | some rest => skipItems skipItem count rest

/-- `zf_cbor_skip_inner`, with the number of nesting levels still allowed in place of the depth. -/
def skipInner : ℕ → Bytes → Option Bytes
  | 0, _ => none
  | levels + 1, cursor =>
    match skipReadHead cursor with
    | none => none
    | some (major, raw, rest) =>
      if major = majorUint ∨ major = majorNegint then some rest
      else if major = majorSimple then if raw ≠ 31 then some rest else none
      else if major = majorBytes ∨ major = majorText then
        if rest.length < raw then none else some (rest.drop raw)
      else if major = majorArray then skipItems (skipInner levels) raw rest
      else if major = majorMap then skipItems (skipInner levels) (2 * raw) rest
      else none

/-- `zf_cbor_skip`. -/
def skip (cursor : Bytes) : Option Bytes := skipInner (skipDepthLimit + 1) cursor

end Reader

section Encoder

/-- `ZfCborEncoder`: the capacity of the buffer and what has been written to it. -/
structure Encoder where
  capacity : ℕ
  written : Bytes := []
  deriving DecidableEq, Repr

/-- `zf_cbor_encoder_init`. -/
def encoderInit (capacity : ℕ) : Option Encoder :=
  if capacity = 0 then none else some { capacity }

/-- `zf_cbor_append`. -/
def Encoder.append (enc : Encoder) (data : Bytes) : Option Encoder :=
  if enc.capacity < enc.written.length + data.length then none
  else some { enc with written := enc.written ++ data }

/-- The bytes of an item head, in the shortest form. -/
def headBytes (major value : ℕ) : Bytes :=
  let lead (info : ℕ) : UInt8 := UInt8.ofNat (major * 32 + info)
  if value < 24 then [lead value]
  else if value < 2 ^ 8 then lead 24 :: toBigEndian 1 value
  else if value < 2 ^ 16 then lead 25 :: toBigEndian 2 value
  else if value < 2 ^ 32 then lead 26 :: toBigEndian 4 value
  else lead 27 :: toBigEndian 8 value

/-- `zf_cbor_encode_head`. -/
def Encoder.head (enc : Encoder) (major value : ℕ) : Option Encoder :=
  enc.append (headBytes major value)

/-- `zf_cbor_encode_uint`. -/
def Encoder.uint (enc : Encoder) (value : ℕ) : Option Encoder := enc.head majorUint value

/-- `zf_cbor_encode_int`. -/
def Encoder.int (enc : Encoder) (value : ℤ) : Option Encoder :=
  if 0 ≤ value then enc.head majorUint value.toNat
  else enc.head majorNegint (-1 - value).toNat

/-- `zf_cbor_encode_bool`. -/
def Encoder.bool (enc : Encoder) (value : Bool) : Option Encoder :=
  enc.append [if value then 0xF5 else 0xF4]

/-- A byte or text string: its head and then its bytes. -/
def Encoder.string (enc : Encoder) (major : ℕ) (data : Bytes) : Option Encoder :=
  (enc.head major data.length).bind fun enc ↦
    if data.length = 0 then some enc else enc.append data

/-- `zf_cbor_encode_bytes`. -/
def Encoder.bytes (enc : Encoder) (data : Bytes) : Option Encoder := enc.string majorBytes data

/-- `zf_cbor_encode_text` and `zf_cbor_encode_text_n`. -/
def Encoder.text (enc : Encoder) (text : Bytes) : Option Encoder := enc.string majorText text

/-- `zf_cbor_encode_map`. -/
def Encoder.map (enc : Encoder) (pairs : ℕ) : Option Encoder := enc.head majorMap pairs

/-- `zf_cbor_encode_array`. -/
def Encoder.array (enc : Encoder) (items : ℕ) : Option Encoder := enc.head majorArray items

/-- `zf_cbor_encode_p256_cose_key`. -/
def Encoder.p256CoseKey (enc : Encoder) (alg : ℤ) (x y : Bytes) : Option Encoder := do
  let enc ← enc.map 5
  let enc ← enc.int 1
  let enc ← enc.int 2
  let enc ← enc.int 3
  let enc ← enc.int alg
  let enc ← enc.int (-1)
  let enc ← enc.int 1
  let enc ← enc.int (-2)
  let enc ← enc.bytes x
  let enc ← enc.int (-3)
  enc.bytes y

/-- A value that is written after its key in a map. -/
inductive Item where
  | uint (value : ℕ)
  | bytes (data : Bytes)
  | text (data : Bytes)
  | bool (value : Bool)
  deriving DecidableEq, Repr

/-- The call that writes a value. -/
def Encoder.item (enc : Encoder) : Item → Option Encoder
  | .uint value => enc.uint value
  | .bytes data => enc.bytes data
  | .text data => enc.text data
  | .bool value => enc.bool value

/-- A chain of calls that each write a key and then its value, ended by the first that fails. -/
def Encoder.pairs : Encoder → List (ℕ × Item) → Option Encoder
  | enc, [] => some enc
  | enc, (key, item) :: pairs => do
    let enc ← enc.uint key
    let enc ← enc.item item
    enc.pairs pairs

end Encoder

section RoundTrip

@[simp]
theorem length_toBigEndian (width value : ℕ) : (toBigEndian width value).length = width := by
  simp [toBigEndian]

theorem ofBigEndian_toBigEndian (width value : ℕ) (hvalue : value < 256 ^ width) :
    ofBigEndian (toBigEndian width value) = value := by
  rw [ofBigEndian, toBigEndian, List.reverse_reverse, ofLittleEndian_toLittleEndian width value hvalue]

theorem readWord_toBigEndian (width value : ℕ) (rest : Bytes) (hvalue : value < 256 ^ width) :
    readWord width (toBigEndian width value ++ rest) = some (value, rest) := by
  have htake : (toBigEndian width value ++ rest).take width = toBigEndian width value := by
    rw [List.take_append_of_le_length (by simp), List.take_of_length_le (by simp)]
  have hdrop : (toBigEndian width value ++ rest).drop width = rest := by
    rw [List.drop_append_of_le_length (by simp), List.drop_of_length_le (by simp), List.nil_append]
  rw [readWord, if_neg (by simp), htake, hdrop, ofBigEndian_toBigEndian width value hvalue]

/-- The two parts of a lead byte. -/
theorem lead_parts {major info : ℕ} (hmajor : major < 8) (hinfo : info < 32) :
    (UInt8.ofNat (major * 32 + info)).toNat / 32 = major ∧
      (UInt8.ofNat (major * 32 + info)).toNat % 32 = info := by
  have hbyte : (UInt8.ofNat (major * 32 + info)).toNat = major * 32 + info := by
    rw [UInt8.toNat_ofNat', Nat.mod_eq_of_lt (by omega)]
  rw [hbyte]
  omega

/-- A head with its argument in the lead byte. -/
theorem readHead_short {byte : UInt8} {major info : ℕ} (rest : Bytes)
    (hparts : byte.toNat / 32 = major ∧ byte.toNat % 32 = info) (hinfo : info < 24) :
    readHead (byte :: rest) = some (major, info, rest) := by
  obtain ⟨hmajor, hinfo'⟩ := hparts
  simp only [readHead, readHeadWith, hmajor, hinfo', hinfo, if_true]

/-- A head with its argument in the bytes that follow. -/
theorem readHead_wide {byte : UInt8} {major info width value : ℕ} (rest : Bytes)
    (hparts : byte.toNat / 32 = major ∧ byte.toNat % 32 = info)
    (hwidth : (info, width) ∈ [(24, 1), (25, 2), (26, 4), (27, 8)])
    (hvalue : value < 256 ^ width) (hminimal : minimalArgument width ≤ value) :
    readHead (byte :: toBigEndian width value ++ rest) = some (major, value, rest) := by
  obtain ⟨hmajor, hinfo⟩ := hparts
  have hword := readWord_toBigEndian width value rest hvalue
  simp only [List.mem_cons, Prod.mk.injEq, List.not_mem_nil, or_false] at hwidth
  obtain ⟨rfl, rfl⟩ | ⟨rfl, rfl⟩ | ⟨rfl, rfl⟩ | ⟨rfl, rfl⟩ := hwidth
  all_goals simp [readHead, readHeadWith, hmajor, hinfo, hword, hminimal]

theorem headBytes_ne_nil (major value : ℕ) : headBytes major value ≠ [] := by
  unfold headBytes
  split_ifs <;> simp

/-- A head is read back as it was written. -/
theorem readHead_headBytes {major value : ℕ} (rest : Bytes) (hmajor : major < 8)
    (hvalue : value < 2 ^ 64) :
    readHead (headBytes major value ++ rest) = some (major, value, rest) := by
  unfold headBytes
  dsimp only
  split_ifs with h24 h8 h16 h32
  · exact readHead_short rest (lead_parts hmajor (by omega)) h24
  · exact readHead_wide rest (lead_parts hmajor (by omega)) (by simp) h8 (Nat.le_of_not_lt h24)
  · exact readHead_wide rest (lead_parts hmajor (by omega)) (by simp) h16 (Nat.le_of_not_lt h8)
  · exact readHead_wide rest (lead_parts hmajor (by omega)) (by simp) h32 (Nat.le_of_not_lt h16)
  · exact readHead_wide rest (lead_parts hmajor (by omega)) (by simp) hvalue (Nat.le_of_not_lt h32)

theorem readUint_headBytes {value : ℕ} (rest : Bytes) (hvalue : value < 2 ^ 64) :
    readUint (headBytes majorUint value ++ rest) = some (value, rest) := by
  simp [readUint, readHead_headBytes rest (show majorUint < 8 by decide) hvalue]

theorem readMapStart_headBytes {pairs : ℕ} (rest : Bytes) (hpairs : pairs ≤ sizeMax) :
    readMapStart (headBytes majorMap pairs ++ rest) = some (pairs, rest) := by
  have hvalue : pairs < 2 ^ 64 := by
    unfold sizeMax at hpairs
    omega
  simp [readMapStart, readStart, readHead_headBytes rest (show majorMap < 8 by decide) hvalue,
    Nat.not_lt.mpr hpairs]

theorem readBool_bool (value : Bool) (rest : Bytes) :
    readBool ([if value then 0xF5 else 0xF4] ++ rest) = some (value, rest) := by
  cases value <;> rfl

/-- The bytes of a byte or text string. -/
def stringBytes (major : ℕ) (data : Bytes) : Bytes := headBytes major data.length ++ data

theorem readBytes_stringBytes {data : Bytes} (rest : Bytes) (hdata : data.length < 2 ^ 64) :
    readBytes (stringBytes majorBytes data ++ rest) = some (data, rest) := by
  rw [stringBytes, List.append_assoc]
  simp [readBytes, readHead_headBytes (data ++ rest) (show majorBytes < 8 by decide) hdata]

theorem readText_stringBytes {text : Bytes} (rest : Bytes) (htext : text.length < 2 ^ 64)
    (hvalid : utf8IsValid text = true) :
    readText (stringBytes majorText text ++ rest) = some (text, rest) := by
  rw [stringBytes, List.append_assoc]
  simp [readText, readHead_headBytes (text ++ rest) (show majorText < 8 by decide) htext, hvalid]

/-- A text that is read is valid UTF-8. -/
theorem utf8IsValid_of_readText {cursor text rest : Bytes}
    (h : readText cursor = some (text, rest)) : utf8IsValid text = true := by
  unfold readText at h
  split at h
  · split_ifs at h with _ _ hvalid
    obtain ⟨rfl, -⟩ := Prod.mk.inj (Option.some.inj h)
    simpa using hvalid
  · exact absurd h (by simp)

variable {enc enc' : Encoder} {data : Bytes}

theorem Encoder.written_append (h : enc.append data = some enc') :
    enc' = { enc with written := enc.written ++ data } ∧
      (enc.written ++ data).length ≤ enc.capacity := by
  unfold Encoder.append at h
  split_ifs at h with hfull
  exact ⟨(Option.some.inj h).symm, by rw [List.length_append]; omega⟩

theorem Encoder.written_string {major : ℕ} (h : enc.string major data = some enc') :
    enc' = { enc with written := enc.written ++ stringBytes major data } ∧
      (enc.written ++ stringBytes major data).length ≤ enc.capacity := by
  obtain ⟨middle, hhead, hdata⟩ := Option.bind_eq_some_iff.mp h
  obtain ⟨rfl, hfits⟩ := Encoder.written_append hhead
  split_ifs at hdata with hempty
  · obtain rfl := List.length_eq_zero_iff.mp hempty
    rw [← Option.some.inj hdata, stringBytes, List.append_nil]
    exact ⟨rfl, hfits⟩
  · have hwritten := Encoder.written_append hdata
    rw [List.append_assoc] at hwritten
    exact hwritten

/-- The bytes of a value. -/
def Item.encoding : Item → Bytes
  | .uint value => headBytes majorUint value
  | .bytes data => stringBytes majorBytes data
  | .text data => stringBytes majorText data
  | .bool value => [if value then 0xF5 else 0xF4]

/-- The bytes of a key and its value. -/
def pairBytes (pair : ℕ × Item) : Bytes := headBytes majorUint pair.1 ++ pair.2.encoding

theorem Encoder.written_item {item : Item} (h : enc.item item = some enc') :
    enc' = { enc with written := enc.written ++ item.encoding } ∧
      (enc.written ++ item.encoding).length ≤ enc.capacity := by
  cases item with
  | uint value => exact Encoder.written_append h
  | bytes data => exact Encoder.written_string h
  | text data => exact Encoder.written_string h
  | bool value => exact Encoder.written_append h

/-- What a chain of pairs has written when it succeeds. -/
theorem Encoder.written_pairs {pairs : List (ℕ × Item)} (henc : enc.written.length ≤ enc.capacity)
    (h : enc.pairs pairs = some enc') :
    enc' = { enc with written := enc.written ++ pairs.flatMap pairBytes } ∧
      enc'.written.length ≤ enc.capacity := by
  induction pairs generalizing enc with
  | nil =>
    rw [← Option.some.inj h]
    simpa using henc
  | cons pair pairs ih =>
    obtain ⟨first, hkey, h⟩ := Option.bind_eq_some_iff.mp h
    obtain ⟨second, hitem, h⟩ := Option.bind_eq_some_iff.mp h
    obtain ⟨rfl, -⟩ := Encoder.written_append hkey
    obtain ⟨rfl, hfits⟩ := Encoder.written_item hitem
    obtain ⟨hwritten, hfits'⟩ := ih hfits h
    refine ⟨?_, hfits'⟩
    rw [hwritten]
    simp [pairBytes]

theorem Encoder.append_eq_some (h : (enc.written ++ data).length ≤ enc.capacity) :
    enc.append data = some { enc with written := enc.written ++ data } := by
  rw [List.length_append] at h
  rw [Encoder.append, if_neg (not_lt.mpr h)]

theorem Encoder.string_eq_some {major : ℕ}
    (h : (enc.written ++ stringBytes major data).length ≤ enc.capacity) :
    enc.string major data = some { enc with written := enc.written ++ stringBytes major data } := by
  unfold stringBytes at h ⊢
  have hhead : (enc.written ++ headBytes major data.length).length ≤ enc.capacity := by
    simp only [List.length_append] at h ⊢
    omega
  rw [Encoder.string, Encoder.head, Encoder.append_eq_some hhead, Option.bind_some]
  split_ifs with hempty
  · rw [List.length_eq_zero_iff.mp hempty, List.append_nil]
  · rw [Encoder.append_eq_some (by rwa [List.append_assoc]), List.append_assoc]

theorem Encoder.item_eq_some {item : Item}
    (h : (enc.written ++ item.encoding).length ≤ enc.capacity) :
    enc.item item = some { enc with written := enc.written ++ item.encoding } := by
  cases item with
  | uint value => exact Encoder.append_eq_some h
  | bytes data => exact Encoder.string_eq_some h
  | text data => exact Encoder.string_eq_some h
  | bool value => exact Encoder.append_eq_some h

/-- A chain of pairs that fits succeeds. -/
theorem Encoder.pairs_eq_some {pairs : List (ℕ × Item)}
    (h : (enc.written ++ pairs.flatMap pairBytes).length ≤ enc.capacity) :
    enc.pairs pairs = some { enc with written := enc.written ++ pairs.flatMap pairBytes } := by
  induction pairs generalizing enc with
  | nil => simp [Encoder.pairs]
  | cons pair pairs ih =>
    have hwhole : enc.written ++ (pair :: pairs).flatMap pairBytes =
        ((enc.written ++ headBytes majorUint pair.1) ++ pair.2.encoding) ++
          pairs.flatMap pairBytes := by
      simp [pairBytes]
    rw [hwhole] at h ⊢
    have hitem : ((enc.written ++ headBytes majorUint pair.1) ++ pair.2.encoding).length ≤
        enc.capacity := by
      rw [List.length_append] at h
      omega
    have hkey : (enc.written ++ headBytes majorUint pair.1).length ≤ enc.capacity := by
      rw [List.length_append] at hitem
      omega
    rw [Encoder.pairs, Encoder.uint, Encoder.head, Encoder.append_eq_some hkey]
    dsimp only [Option.bind_eq_bind, Option.bind_some]
    rw [Encoder.item_eq_some hitem]
    exact ih h

/-- The room an item head takes. -/
def headRoom (value : ℕ) : ℕ :=
  if value < 24 then 1 else if value < 2 ^ 8 then 2 else if value < 2 ^ 16 then 3
  else if value < 2 ^ 32 then 5 else 9

theorem length_headBytes (major value : ℕ) : (headBytes major value).length = headRoom value := by
  unfold headBytes headRoom
  split_ifs <;> simp

theorem headRoom_mono {value bound : ℕ} (h : value ≤ bound) : headRoom value ≤ headRoom bound := by
  unfold headRoom
  split_ifs <;> omega

theorem length_stringBytes_le {major bound : ℕ} (h : data.length ≤ bound) :
    (stringBytes major data).length ≤ headRoom bound + bound := by
  rw [stringBytes, List.length_append, length_headBytes]
  exact Nat.add_le_add (headRoom_mono h) h

end RoundTrip

end ZeroFido.Cbor
