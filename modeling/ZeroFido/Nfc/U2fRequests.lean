import ZeroFido.Memory
import ZeroFido.Nfc.Protocol
import ZeroFido.U2f.Apdu

/-!
# APDUs as U2F requests

`zf_transport_nfc_encode_u2f_request` in memory, where the request may be written over the APDU
that its data stand in (`encodeU2fRequestAt`), and the U2F parser of the request, which takes its
length in 16 bits (`parseApduHeaderAt`).

`apdu_survives_translation` is the result for the two parsers and the encoder between them.
-/

set_option autoImplicit false
set_option relaxedAutoImplicit false

namespace ZeroFido.Nfc

open Cbor U2f

section Memory

/-- Where the parser finds the body of an APDU. -/
def bodyOffset (apdu : NfcApdu) : ℕ := if apdu.extended then 7 else 5

/-- `zf_transport_nfc_encode_u2f_request` at an address, with the data of the APDU at another one:
the memory and the length of the request. -/
def encodeU2fRequestAt (memory : ℕ → UInt8) (apdu : NfcApdu) (data out outCapacity : ℕ) :
    (ℕ → UInt8) × ℕ :=
  if outCapacity < 4 then (memory, 0)
  else
    let headed := memcpy memory out [0x00, apdu.ins, apdu.p1, apdu.p2]
    let length := apdu.data.length
    if length = 0 then (headed, 4)
    else if !apdu.extended then
      if outCapacity < 5 + length ∨ 0xFF < length then (headed, 0)
      else
        let sized := memcpy headed (out + 4) [UInt8.ofNat length]
        (memmove sized (out + 5) data length, 5 + length)
    else if outCapacity < 7 + length ∨ 0xFFFF < length then (headed, 0)
    else
      let sized := memcpy headed (out + 4)
        [0x00, UInt8.ofNat (length >>> 8), UInt8.ofNat length]
      (memmove sized (out + 7) data length, 7 + length)

/-- `u2f_parse_apdu_header` of a request in memory. -/
def parseApduHeaderAt (memory : ℕ → UInt8) (buf : ℕ) (len : UInt16) (allowShort : Bool) :
    Option ParsedApdu :=
  parseApduHeader (readMemory memory buf len.toNat) allowShort

end Memory

section Parse

variable {apdu parsed : NfcApdu} {bytes rest : Bytes} {lc : ℕ}

/-- The length of the body fits the form of the APDU. -/
def FitsForm (apdu : NfcApdu) : Prop :=
  apdu.data.length ≤ if apdu.extended then 0xFFFF else 0xFF

/-- The body stands in the bytes, and as long as the form of the APDU can say. -/
structure HasBody (bytes : Bytes) (apdu : NfcApdu) : Prop where
  body : (bytes.drop (bodyOffset apdu)).take apdu.data.length = apdu.data
  inside : bodyOffset apdu + apdu.data.length ≤ bytes.length
  fits : FitsForm apdu

theorem parseShortBody_data (h : parseShortBody apdu lc rest = some parsed) :
    parsed.data = rest.take lc ∧ lc ≤ rest.length ∧ parsed.extended = apdu.extended := by
  unfold parseShortBody at h
  split_ifs at h with hshort
  have hlong := not_lt.mp hshort
  split at h
  · obtain rfl := Option.some.inj h
    exact ⟨rfl, hlong, rfl⟩
  · obtain rfl := Option.some.inj h
    exact ⟨rfl, hlong, rfl⟩
  · contradiction

theorem parseExtendedBody_data (h : parseExtendedBody apdu lc rest = some parsed) :
    parsed.data = rest.take lc ∧ lc ≤ rest.length ∧ parsed.extended = apdu.extended := by
  unfold parseExtendedBody at h
  split_ifs at h with hshort
  have hlong := not_lt.mp hshort
  split at h
  · obtain rfl := Option.some.inj h
    exact ⟨rfl, hlong, rfl⟩
  · obtain rfl := Option.some.inj h
    exact ⟨rfl, hlong, rfl⟩
  · contradiction

/-- An APDU that was parsed with a body has it where its form says. -/
theorem hasBody_of_parseApdu (h : parseApdu bytes = some apdu) (hdata : apdu.data ≠ []) :
    HasBody bytes apdu := by
  unfold parseApdu at h
  split at h
  · rename_i cla ins p1 p2 body
    dsimp only at h
    split at h
    · obtain rfl := Option.some.inj h
      exact absurd rfl hdata
    · obtain rfl := Option.some.inj h
      exact absurd rfl hdata
    · split at h
      · obtain rfl := Option.some.inj h
        exact absurd rfl hdata
      · rename_i high low tail _ _
        obtain ⟨hbody, hinside, hform⟩ := parseExtendedBody_data h
        have hcount := List.length_take_of_le hinside
        rw [← hbody] at hcount
        have hhigh := high.toNat_lt
        have hlow := low.toNat_lt
        refine ⟨?_, ?_, ?_⟩
        · rw [bodyOffset, hform, if_pos rfl, hcount, hbody]
          rfl
        · rw [bodyOffset, hform, if_pos rfl, hcount]
          simp only [List.length_cons]
          omega
        · rw [FitsForm, hform, if_pos rfl, hcount, length16]
          omega
      · contradiction
    · rename_i lc tail _ _
      obtain ⟨hbody, hinside, hform⟩ := parseShortBody_data h
      have hcount := List.length_take_of_le hinside
      rw [← hbody] at hcount
      have hlc := lc.toNat_lt
      refine ⟨?_, ?_, ?_⟩
      · rw [bodyOffset, hform, if_neg (by simp), hcount, hbody]
        rfl
      · rw [bodyOffset, hform, if_neg (by simp), hcount]
        simp only [List.length_cons]
        omega
      · rw [FitsForm, hform, if_neg (by simp), hcount]
        omega
  · contradiction

end Parse

section Encode

variable {memory : ℕ → UInt8} {source out capacity : ℕ} {data : Bytes} {apdu : NfcApdu}

/-- Data moved behind two parts of a header, neither of which was written over them. -/
theorem readMemory_memmove_behind (head field : Bytes)
    (hsource : readMemory memory source data.length = data)
    (hplace : out + (head.length + field.length) ≤ source ∨ source + data.length ≤ out) :
    readMemory (memmove (memcpy (memcpy memory out head) (out + head.length) field)
      (out + (head.length + field.length)) source data.length) out
      (head.length + field.length + data.length) = head ++ field ++ data := by
  have hkept : readMemory (memcpy (memcpy memory out head) (out + head.length) field) source
      data.length = data := by
    rw [readMemory_memcpy_of_disjoint (by omega), readMemory_memcpy_of_disjoint (by omega),
      hsource]
  rw [memmove, hkept, readMemory_append, readMemory_memcpy_of_disjoint (Or.inl le_rfl),
    readMemory_memcpy_append, readMemory_memcpy]

/-- The bytes between the header and the body of a request. -/
def lengthField (apdu : NfcApdu) : Bytes :=
  if apdu.extended then
    [0x00, UInt8.ofNat (apdu.data.length >>> 8), UInt8.ofNat apdu.data.length]
  else [UInt8.ofNat apdu.data.length]

/-- The request that an APDU with a body is translated to. -/
def u2fRequest (apdu : NfcApdu) : Bytes :=
  [0x00, apdu.ins, apdu.p1, apdu.p2] ++ lengthField apdu ++ apdu.data

theorem length_u2fRequest (apdu : NfcApdu) :
    (u2fRequest apdu).length = bodyOffset apdu + apdu.data.length := by
  unfold u2fRequest lengthField bodyOffset
  split_ifs <;>
    · simp only [List.length_append, List.length_cons, List.length_nil]

/-- The encoder writes the request when it fits, over the APDU or beside it. -/
theorem encodeU2fRequestAt_eq (hdata : apdu.data ≠ []) (hfits : FitsForm apdu)
    (hcapacity : bodyOffset apdu + apdu.data.length ≤ capacity)
    (hsource : readMemory memory source apdu.data.length = apdu.data)
    (hplace : out + bodyOffset apdu ≤ source ∨ source + apdu.data.length ≤ out) :
    (encodeU2fRequestAt memory apdu source out capacity).2 = (u2fRequest apdu).length ∧
      readMemory (encodeU2fRequestAt memory apdu source out capacity).1 out
        (u2fRequest apdu).length = u2fRequest apdu := by
  have hsome : apdu.data.length ≠ 0 := List.length_eq_zero_iff.not.mpr hdata
  rw [length_u2fRequest]
  unfold encodeU2fRequestAt u2fRequest lengthField
  unfold FitsForm at hfits
  unfold bodyOffset at hcapacity hplace ⊢
  by_cases hform : apdu.extended = true
  · rw [if_pos hform] at hfits hcapacity hplace
    have hlength : ¬(capacity < 7 + apdu.data.length ∨ 0xFFFF < apdu.data.length) := by omega
    dsimp only
    rw [if_neg (by omega), if_neg hsome, if_neg (by simp [hform]), if_neg hlength, if_pos hform,
      if_pos hform]
    exact ⟨rfl, readMemory_memmove_behind [_, _, _, _] [_, _, _] hsource hplace⟩
  · rw [if_neg hform] at hfits hcapacity hplace
    have hlength : ¬(capacity < 5 + apdu.data.length ∨ 0xFF < apdu.data.length) := by omega
    dsimp only
    rw [if_neg (by omega), if_neg hsome, if_pos (by simp [hform]), if_neg hlength, if_neg hform,
      if_neg hform]
    exact ⟨rfl, readMemory_memmove_behind [_, _, _, _] [_] hsource hplace⟩

theorem encodeU2fRequest_eq (hdata : apdu.data ≠ []) (hfits : FitsForm apdu)
    (hcapacity : bodyOffset apdu + apdu.data.length ≤ capacity) :
    encodeU2fRequest apdu capacity = some (u2fRequest apdu) := by
  have hsome : apdu.data.length ≠ 0 := List.length_eq_zero_iff.not.mpr hdata
  unfold encodeU2fRequest u2fRequest lengthField
  unfold FitsForm at hfits
  unfold bodyOffset at hcapacity
  by_cases hform : apdu.extended = true
  · rw [if_pos hform] at hfits hcapacity
    have hlength : ¬(capacity < 7 + apdu.data.length ∨ 0xFFFF < apdu.data.length) := by omega
    dsimp only
    rw [if_neg (by omega), if_neg hsome, if_neg (by simp [hform]), if_neg hlength, if_pos hform,
      Nat.shiftRight_eq_div_pow]
  · rw [if_neg hform] at hfits hcapacity
    have hlength : ¬(capacity < 5 + apdu.data.length ∨ 0xFF < apdu.data.length) := by omega
    dsimp only
    rw [if_neg (by omega), if_neg hsome, if_pos (by simp [hform]), if_neg hlength, if_neg hform]

/-- What is left in memory is the request of the encoder on byte strings. -/
theorem encodeU2fRequest_encodeU2fRequestAt (hdata : apdu.data ≠ []) (hfits : FitsForm apdu)
    (hcapacity : bodyOffset apdu + apdu.data.length ≤ capacity)
    (hsource : readMemory memory source apdu.data.length = apdu.data)
    (hplace : out + bodyOffset apdu ≤ source ∨ source + apdu.data.length ≤ out) :
    encodeU2fRequest apdu capacity =
      some (readMemory (encodeU2fRequestAt memory apdu source out capacity).1 out
        (encodeU2fRequestAt memory apdu source out capacity).2) := by
  obtain ⟨hlength, hrequest⟩ := encodeU2fRequestAt_eq hdata hfits hcapacity hsource hplace
  rw [hlength, hrequest]
  exact encodeU2fRequest_eq hdata hfits hcapacity

end Encode

section Translation

variable {memory : ℕ → UInt8} {buffer out capacity : ℕ} {bytes : Bytes} {apdu : NfcApdu}

/-- What the U2F parser makes of the request of an APDU. -/
def translated (apdu : NfcApdu) : ParsedApdu :=
  ⟨0x00, apdu.ins, apdu.p1, apdu.p2, some apdu.data, apdu.data.length⟩

/-- The U2F parser finds the form of the request from the byte behind its header. -/
theorem parseApduHeader_u2fRequest (hdata : apdu.data ≠ []) (hfits : FitsForm apdu)
    (allowShort : Bool) :
    parseApduHeader (u2fRequest apdu) allowShort = some (translated apdu) := by
  have hsome : 0 < apdu.data.length := List.length_pos_iff.mpr hdata
  have hlength := length_u2fRequest apdu
  unfold bodyOffset at hlength
  unfold FitsForm at hfits
  by_cases hform : apdu.extended = true
  · rw [if_pos hform] at hlength hfits
    have hrequest : u2fRequest apdu = [0x00, apdu.ins, apdu.p1, apdu.p2, 0x00,
        UInt8.ofNat (apdu.data.length >>> 8), UInt8.ofNat apdu.data.length] ++ apdu.data := by
      rw [u2fRequest, lengthField, if_pos hform]
      rfl
    have hlc : 256 * (UInt8.ofNat (apdu.data.length >>> 8)).toNat +
        (UInt8.ofNat apdu.data.length).toNat = apdu.data.length := by
      rw [UInt8.toNat_ofNat', UInt8.toNat_ofNat', Nat.shiftRight_eq_div_pow]
      omega
    unfold parseApduHeader
    rw [if_neg (by omega), if_neg (by simp; omega), if_pos ⟨by omega, by rw [hrequest]; rfl⟩]
    dsimp only
    have hcount : 256 * ((u2fRequest apdu).getD 5 0).toNat + ((u2fRequest apdu).getD 6 0).toNat =
        apdu.data.length := by
      rw [hrequest]
      exact hlc
    rw [hcount, if_neg (by omega), hrequest]
    rfl
  · rw [if_neg hform] at hlength hfits
    have hrequest : u2fRequest apdu = [0x00, apdu.ins, apdu.p1, apdu.p2,
        UInt8.ofNat apdu.data.length] ++ apdu.data := by
      rw [u2fRequest, lengthField, if_neg hform]
      rfl
    have hlc : (UInt8.ofNat apdu.data.length).toNat = apdu.data.length := by
      rw [UInt8.toNat_ofNat']
      omega
    have hnonzero : UInt8.ofNat apdu.data.length ≠ 0 := by
      intro hzero
      rw [hzero] at hlc
      exact Nat.ne_of_lt hsome hlc
    have hmarker : (u2fRequest apdu).getD 4 0 = UInt8.ofNat apdu.data.length := by
      rw [hrequest]
      rfl
    unfold parseApduHeader
    rw [if_neg (by omega), if_neg (by simp; omega), hmarker,
      if_neg (fun hlong ↦ hnonzero hlong.2)]
    dsimp only
    rw [hlc, if_neg (by omega), hrequest]
    rfl

/-- An APDU with a body becomes a U2F request with its header and its body, also where the request
is written over it, when the U2F parser can be told the length of the request. -/
theorem apdu_survives_translation (hparse : parseApdu bytes = some apdu) (hdata : apdu.data ≠ [])
    (hmemory : readMemory memory buffer bytes.length = bytes)
    (hplace : out ≤ buffer ∨ buffer + bodyOffset apdu + apdu.data.length ≤ out)
    (hcapacity : bodyOffset apdu + apdu.data.length ≤ capacity)
    (hlength : bodyOffset apdu + apdu.data.length < 2 ^ 16) (allowShort : Bool) :
    parseApduHeaderAt
        (encodeU2fRequestAt memory apdu (buffer + bodyOffset apdu) out capacity).1 out
        (UInt16.ofNat (encodeU2fRequestAt memory apdu (buffer + bodyOffset apdu) out capacity).2)
        allowShort =
      some ⟨0x00, apdu.ins, apdu.p1, apdu.p2, some apdu.data, apdu.data.length⟩ := by
  have hbody := hasBody_of_parseApdu hparse hdata
  have hsource : readMemory memory (buffer + bodyOffset apdu) apdu.data.length = apdu.data := by
    rw [readMemory_part hmemory hbody.inside, hbody.body]
  have hapart : out + bodyOffset apdu ≤ buffer + bodyOffset apdu ∨
      buffer + bodyOffset apdu + apdu.data.length ≤ out := by
    omega
  obtain ⟨hcount, hrequest⟩ :=
    encodeU2fRequestAt_eq hdata hbody.fits hcapacity hsource hapart
  have hlen : (UInt16.ofNat (u2fRequest apdu).length).toNat = (u2fRequest apdu).length := by
    rw [UInt16.toNat_ofNat', length_u2fRequest]
    exact Nat.mod_eq_of_lt hlength
  rw [hcount, parseApduHeaderAt, hlen, hrequest]
  exact parseApduHeader_u2fRequest hdata hbody.fits allowShort

/-- A buffer that holds the bytes from its start on. -/
def bufferOf (bytes : Bytes) (address : ℕ) : UInt8 := bytes.getD address 0

theorem readMemory_bufferOf (bytes : Bytes) :
    readMemory (bufferOf bytes) 0 bytes.length = bytes := by
  refine List.ext_getElem (by simp) fun index hleft hright ↦ ?_
  simp [readMemory, bufferOf, hright]

/-- A short APDU with Le, which is translated in its own buffer. -/
theorem apdu_survives_translation_in_place :
    let apdu : NfcApdu :=
      { cla := 0x00, ins := 0x02, p1 := 0x07, p2 := 0x00, data := [0xAA, 0xBB], hasLe := true }
    let result := encodeU2fRequestAt
      (bufferOf [0x00, 0x02, 0x07, 0x00, 0x02, 0xAA, 0xBB, 0x00]) apdu 5 0 8
    parseApduHeaderAt result.1 0 (UInt16.ofNat result.2) false =
      some ⟨0x00, 0x02, 0x07, 0x00, some [0xAA, 0xBB], 2⟩ :=
  apdu_survives_translation (by decide) (by decide)
    (readMemory_bufferOf [0x00, 0x02, 0x07, 0x00, 0x02, 0xAA, 0xBB, 0x00]) (Or.inl le_rfl)
    (by decide) (by decide) false

/-- An APDU of an extended length, whose body is as long as there can be. -/
def longestApdu (data : Bytes) : Bytes := [0x00, 0x01, 0x03, 0x00, 0x00, 0xFF, 0xFF] ++ data

def longestNfcApdu (data : Bytes) : NfcApdu :=
  { cla := 0x00, ins := 0x01, p1 := 0x03, p2 := 0x00, data := data, extended := true }

theorem parseApdu_longestApdu {data : Bytes} (h : data.length = 0xFFFF) :
    parseApdu (longestApdu data) = some (longestNfcApdu data) := by
  obtain ⟨first, rest, rfl⟩ : ∃ first rest, data = first :: rest := by
    cases data with
    | nil => contradiction
    | cons first rest => exact ⟨first, rest, rfl⟩
  have hmarked : length16 0xFF 0xFF = 0xFFFF := by decide
  have hcount : length16 0xFF 0xFF = (first :: rest).length := hmarked.trans h.symm
  have hbody (apdu : NfcApdu) : parseExtendedBody apdu (first :: rest).length (first :: rest) =
      some { apdu with data := first :: rest } := by
    rw [parseExtendedBody, if_neg (lt_irrefl _), List.drop_length, List.take_length]
  simp only [longestApdu, parseApdu, List.cons_append, List.nil_append, hcount, hbody]
  rfl

/-- The U2F parser is told of six bytes of the request for the longest APDU. -/
theorem parseApduHeaderAt_longestNfcApdu {data : Bytes} (hcount : data.length = 0xFFFF)
    (hcapacity : 7 + 0xFFFF ≤ capacity) :
    parseApduHeaderAt
        (encodeU2fRequestAt (bufferOf (longestApdu data)) (longestNfcApdu data) 7 0 capacity).1 0
        (UInt16.ofNat (encodeU2fRequestAt (bufferOf (longestApdu data)) (longestNfcApdu data) 7 0
          capacity).2) false =
      some ⟨0x00, 0x01, 0x03, 0x00, some [0xFF], 0⟩ := by
  have hdata : (longestNfcApdu data).data ≠ [] := by
    rintro (hnil : data = [])
    rw [hnil] at hcount
    contradiction
  have hfound := hasBody_of_parseApdu (parseApdu_longestApdu hcount) hdata
  have hsource : readMemory (bufferOf (longestApdu data)) 7 data.length = data := by
    have hread := readMemory_part (readMemory_bufferOf (longestApdu data)) hfound.inside
    rw [hfound.body, Nat.zero_add] at hread
    exact hread
  have hroom : bodyOffset (longestNfcApdu data) + data.length ≤ capacity := by
    rw [hcount]
    exact hcapacity
  obtain ⟨hlength, hrequest⟩ :=
    encodeU2fRequestAt_eq hdata hfound.fits hroom hsource (Or.inl le_rfl)
  have hsize : (u2fRequest (longestNfcApdu data)).length = 7 + 0xFFFF := by
    rw [length_u2fRequest]
    exact congrArg (7 + ·) hcount
  have htold : (UInt16.ofNat (7 + 0xFFFF)).toNat = 6 := by decide
  have hinside : 0 + 6 ≤ (u2fRequest (longestNfcApdu data)).length := by omega
  have hfirst := readMemory_part hrequest hinside
  rw [hlength, hsize, parseApduHeaderAt, htold]
  rw [Nat.add_zero, List.drop_zero] at hfirst
  rw [hfirst, u2fRequest, lengthField]
  show parseApduHeader ((([0x00, 0x01, 0x03, 0x00] : Bytes) ++ [0x00,
    UInt8.ofNat (data.length >>> 8), UInt8.ofNat data.length] ++ data).take 6) false = _
  rw [hcount]
  rfl

/-- The length of the request for the longest APDU does not fit the 16 bits that the U2F parser
takes it in, so that the parser finds no body. -/
theorem longest_apdu_loses_body :
    let data := List.replicate 0xFFFF (0xAA : UInt8)
    let result := encodeU2fRequestAt (bufferOf (longestApdu data)) (longestNfcApdu data) 7 0
      (7 + 0xFFFF)
    parseApdu (longestApdu data) = some (longestNfcApdu data) ∧
      (longestNfcApdu data).data.length = 0xFFFF ∧
      parseApduHeaderAt result.1 0 (UInt16.ofNat result.2) false =
        some ⟨0x00, 0x01, 0x03, 0x00, some [0xFF], 0⟩ :=
  ⟨parseApdu_longestApdu List.length_replicate, List.length_replicate,
    parseApduHeaderAt_longestNfcApdu List.length_replicate le_rfl⟩

end Translation

end ZeroFido.Nfc
