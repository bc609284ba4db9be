import ZeroFido.Attestation.Certificate

/-!
# Certificates that can be read back

The writer appends elements to its buffer (`Wrote`), so that a certificate is the nested elements
of its fields (`buildTbs_eq`, `buildCert_eq`); the reader walks over elements in a row
(`readElementAt_eq`).

`certificates_read_back` is the result for the builder and the reader together.
-/

set_option autoImplicit false
set_option relaxedAutoImplicit false

namespace ZeroFido.Attestation

open Cbor Crypto Foundations.Der

section Writer

variable {buffer middle after : DerBuffer} {data data' value : Bytes} {tag : UInt8} {valueLen : ℕ}

/-- The writer uses as few octets for a length as there can be, up to 65535. -/
theorem derLengthBytes_eq (h : valueLen ≤ 0xFFFF) :
    derLengthBytes valueLen = lengthBytes valueLen := by
  unfold derLengthBytes derLengthSize
  by_cases hshort : valueLen < 0x80
  · simp only [if_pos hshort, if_true, lengthBytes_of_lt hshort]
  · have hpositive : 0 < valueLen := by omega
    rw [lengthBytes_of_le (not_lt.mp hshort), if_neg hshort]
    by_cases hone : valueLen ≤ 0xFF
    · have hwidth : lengthWidth valueLen = 1 :=
        le_antisymm ((lengthWidth_le_iff hpositive).mpr (by omega)) (Nat.succ_pos _)
      rw [if_pos hone, hwidth]
      rfl
    · have hwidth : lengthWidth valueLen = 2 := by
        refine le_antisymm ((lengthWidth_le_iff hpositive).mpr (by omega))
          (not_lt.mp fun hless ↦ ?_)
        have hfits := (lengthWidth_le_iff hpositive).mp (Nat.le_of_lt_succ hless)
        omega
      rw [if_neg hone, hwidth, Nat.shiftRight_eq_div_pow]
      rfl

theorem length_derLengthBytes (valueLen : ℕ) :
    (derLengthBytes valueLen).length = derLengthSize valueLen := by
  unfold derLengthBytes derLengthSize
  split_ifs <;> first | rfl | omega

/-- An element of a content of at most 65535 bytes has a header of four at most. -/
theorem length_element_le (tag : UInt8) (h : value.length ≤ 0xFFFF) :
    (element tag value).length ≤ value.length + 4 := by
  have hsize : (lengthBytes value.length).length ≤ 3 := by
    rw [← derLengthBytes_eq h, length_derLengthBytes]
    unfold derLengthSize
    split_ifs <;> omega
  rw [length_element]
  omega

@[simp]
theorem length_written (buffer : DerBuffer) : buffer.written.length = buffer.len :=
  length_readMemory _ _ _

/-- Data have been written behind what the buffer held. -/
structure Wrote (before after : DerBuffer) (data : Bytes) : Prop where
  written : after.written = before.written ++ data
  capacity : after.capacity = before.capacity
  within : after.len ≤ after.capacity

theorem Wrote.trans (h : Wrote buffer middle data) (h' : Wrote middle after data') :
    Wrote buffer after (data ++ data') where
  written := by rw [h'.written, h.written, List.append_assoc]
  capacity := h'.capacity.trans h.capacity
  within := h'.within

theorem Wrote.length_le (h : Wrote buffer after data) : data.length ≤ buffer.capacity := by
  have hlength := congrArg List.length h.written
  have hwithin := h.within
  rw [length_written, List.length_append] at hlength
  rw [h.capacity] at hwithin
  omega

theorem derAppend_wrote (h : derAppend buffer data = some after) : Wrote buffer after data := by
  unfold derAppend at h
  split_ifs at h with hfull
  obtain rfl := Option.some.inj h
  refine ⟨?_, rfl, ?_⟩
  · have hcopied := readMemory_memcpy buffer.data buffer.len data
    have hbefore : readMemory (memcpy buffer.data buffer.len data) 0 buffer.len =
        readMemory buffer.data 0 buffer.len :=
      readMemory_memcpy_of_disjoint (Or.inl (by omega))
    show readMemory _ 0 (buffer.len + data.length) = _
    rw [readMemory_append, hbefore, Nat.zero_add, hcopied]
    rfl
  · show buffer.len + data.length ≤ buffer.capacity
    omega

theorem derAppendTlv_wrote (hlength : value.length ≤ 0xFFFF)
    (h : derAppendTlv buffer tag value = some after) : Wrote buffer after (element tag value) := by
  obtain ⟨tagged, htag, h⟩ := Option.bind_eq_some_iff.mp h
  obtain ⟨headed, hhead, hvalue⟩ := Option.bind_eq_some_iff.mp h
  have hwhole := ((derAppend_wrote htag).trans (derAppend_wrote hhead)).trans
    (derAppend_wrote hvalue)
  rw [derLengthBytes_eq hlength] at hwhole
  exact hwhole

/-- A value that was written fits the buffer. -/
theorem length_le_of_derAppendTlv (h : derAppendTlv buffer tag value = some after) :
    value.length ≤ buffer.capacity := by
  obtain ⟨tagged, htag, h⟩ := Option.bind_eq_some_iff.mp h
  obtain ⟨headed, hhead, hvalue⟩ := Option.bind_eq_some_iff.mp h
  have hfits := (derAppend_wrote hvalue).length_le
  rwa [(derAppend_wrote hhead).capacity, (derAppend_wrote htag).capacity] at hfits

theorem derAppendBitString_wrote {scratchCapacity : ℕ} (hscratch : scratchCapacity ≤ 0xFFFF)
    (h : derAppendBitString buffer value scratchCapacity = some after) :
    Wrote buffer after (element 0x03 (0 :: value)) ∧ value.length + 1 ≤ scratchCapacity := by
  unfold derAppendBitString at h
  split_ifs at h with hrefused
  have hfits : value.length + 1 ≤ scratchCapacity := by omega
  exact ⟨derAppendTlv_wrote (by rw [List.length_cons]; omega) h, hfits⟩

theorem derAppendInteger_wrote (h : derAppendInteger buffer value = some after) :
    Wrote buffer after (element 0x02 (encodedInteger value)) := by
  unfold derAppendInteger at h
  split_ifs at h with hrefused
  have hbound : privateKeyLen = 32 := rfl
  have hne : value ≠ [] := by
    rintro rfl
    exact hrefused (Or.inl rfl)
  obtain ⟨count, first, rest, hvalue, hstrip, -⟩ := exists_stripZeros hne
  have hdigits : (stripZeros value).length ≤ value.length := by
    rw [hstrip, hvalue, List.length_append]
    exact Nat.le_add_left _ _
  refine derAppendTlv_wrote ?_ h
  unfold encodedInteger
  dsimp only
  split_ifs
  · rw [List.length_cons]
    omega
  · omega

/-- The tag and the length go in front of what the buffer held. -/
theorem derWrapTlvInPlace_written (hlen : buffer.len ≤ 0xFFFF)
    (h : derWrapTlvInPlace buffer tag = some after) :
    after.written = element tag buffer.written := by
  unfold derWrapTlvInPlace at h
  dsimp only at h
  split_ifs at h
  obtain rfl := Option.some.inj h
  have hsize := length_derLengthBytes buffer.len
  have hmoved : readMemory (memmove buffer.data (1 + derLengthSize buffer.len) 0 buffer.len)
      (1 + derLengthSize buffer.len) buffer.len = buffer.written := by
    have hcopied := readMemory_memcpy buffer.data (1 + derLengthSize buffer.len)
      (readMemory buffer.data 0 buffer.len)
    rw [length_readMemory] at hcopied
    exact hcopied
  generalize memmove buffer.data (1 + derLengthSize buffer.len) 0 buffer.len = moved at hmoved
  have hbehind : readMemory (memcpy (memcpy moved 0 [tag]) 1 (derLengthBytes buffer.len))
      (1 + derLengthSize buffer.len) buffer.len = buffer.written := by
    rw [readMemory_memcpy_of_disjoint (Or.inr (by rw [hsize])),
      readMemory_memcpy_of_disjoint (Or.inr (by rw [List.length_singleton]; omega)), hmoved]
  have hheader := readMemory_memcpy_append moved 0 [tag] (derLengthBytes buffer.len)
  rw [List.length_singleton, hsize] at hheader
  show readMemory _ 0 (buffer.len + (1 + derLengthSize buffer.len)) = _
  rw [Nat.add_comm buffer.len, readMemory_append, Nat.zero_add]
  dsimp only
  rw [hheader, hbehind, derLengthBytes_eq hlen, element, length_written]
  rfl

end Writer

section Builder

/-- The subjectPublicKeyInfo of a point. -/
def publicKeyInfoContent (publicKey : Bytes) : Bytes :=
  publicKeyAlg ++ element 0x03 (0 :: publicKey)

/-- What stands in the TBSCertificate. -/
def tbsContent (subject extensions publicKey serial : Bytes) : Bytes :=
  element 0xA0 version ++ element 0x02 (encodedInteger (positiveSerial serial)) ++
    ecdsaSha256Alg ++ subject ++ validity ++ subject ++
    element 0x30 (publicKeyInfoContent publicKey) ++ element 0xA3 extensions

/-- A certificate: the TBSCertificate, the algorithm and the signature. -/
def certificateContent (tbs signature : Bytes) : Bytes :=
  tbs ++ ecdsaSha256Alg ++ element 0x03 (0 :: signature)

variable {profile : LocalAttestationProfile} {publicKey privateKey serial tbs out : Bytes}
  {scratch : LocalAttestationScratch}

/-- What the first half of the certificate builder writes. -/
theorem buildTbs_eq (h : buildTbs profile publicKey scratch serial = some tbs) :
    tbs = element 0x30 (tbsContent (profile.subjectDer.getD []) (profile.extensionsDer.getD [])
      publicKey serial) ∧
    (tbsContent (profile.subjectDer.getD []) (profile.extensionsDer.getD []) publicKey
      serial).length ≤ tbsMaxSize ∧ (profile.extensionsDer.getD []).length ≤ tbsMaxSize := by
  unfold buildTbs at h
  split_ifs at h
  obtain ⟨body1, hversion, h⟩ := Option.bind_eq_some_iff.mp h
  obtain ⟨body2, hserial, h⟩ := Option.bind_eq_some_iff.mp h
  obtain ⟨body3, halg, h⟩ := Option.bind_eq_some_iff.mp h
  obtain ⟨body4, hissuer, h⟩ := Option.bind_eq_some_iff.mp h
  obtain ⟨body5, hvalidity, h⟩ := Option.bind_eq_some_iff.mp h
  obtain ⟨body6, hsubject, h⟩ := Option.bind_eq_some_iff.mp h
  obtain ⟨spki1, hkeyAlg, h⟩ := Option.bind_eq_some_iff.mp h
  obtain ⟨spki2, hpoint, h⟩ := Option.bind_eq_some_iff.mp h
  obtain ⟨body7, hspki, h⟩ := Option.bind_eq_some_iff.mp h
  obtain ⟨body8, hextensions, h⟩ := Option.bind_eq_some_iff.mp h
  obtain ⟨whole, hwrap, h⟩ := Option.bind_eq_some_iff.mp h
  obtain rfl := Option.some.inj h
  have hinfo := (derAppend_wrote hkeyAlg).trans (derAppendBitString_wrote (by decide) hpoint).1
  have hinfoLength := hinfo.length_le
  have hinfoWritten : spki2.written = publicKeyInfoContent publicKey := hinfo.written
  have hspkiLength : spki2.written.length ≤ 0xFFFF := by
    rw [hinfoWritten]
    exact hinfoLength.trans (show spkiMaxSize ≤ 0xFFFF by decide)
  have hbefore := (((((derAppendTlv_wrote (by decide) hversion).trans
    (derAppendInteger_wrote hserial)).trans (derAppend_wrote halg)).trans
    (derAppend_wrote hissuer)).trans (derAppend_wrote hvalidity)).trans (derAppend_wrote hsubject)
  have hfields := hbefore.trans (derAppendTlv_wrote hspkiLength hspki)
  have hextensionsLength := length_le_of_derAppendTlv hextensions
  rw [hfields.capacity] at hextensionsLength
  have hcontent := hfields.trans (derAppendTlv_wrote
    (hextensionsLength.trans (show tbsMaxSize ≤ 0xFFFF by decide)) hextensions)
  rw [hinfoWritten] at hcontent
  have hwritten : body8.written = tbsContent (profile.subjectDer.getD [])
      (profile.extensionsDer.getD []) publicKey serial := hcontent.written
  have hbound := hcontent.length_le
  refine ⟨?_, hbound, hextensionsLength⟩
  rw [derWrapTlvInPlace_written ?_ hwrap, hwritten]
  rw [← length_written, hwritten]
  exact hbound.trans (show tbsMaxSize ≤ 0xFFFF by decide)

/-- A certificate is the nested elements of its fields. -/
theorem buildCert_eq {signer : Signer} {cert : ℕ → UInt8} {certCapacity : ℕ}
    (h : buildCert signer profile privateKey publicKey cert certCapacity scratch serial =
      some out) :
    ∃ tbs signature, buildTbs profile publicKey scratch serial = some tbs ∧
      signer.sign privateKey (signer.sha256 tbs) signatureMaxSize = some signature ∧
      signature.length ≤ signatureMaxSize ∧
      out = element 0x30 (certificateContent tbs signature) := by
  obtain ⟨tbs, htbs, h⟩ := Option.bind_eq_some_iff.mp h
  obtain ⟨signature, hsign, h⟩ := Option.bind_eq_some_iff.mp h
  obtain ⟨body1, hfirst, h⟩ := Option.bind_eq_some_iff.mp h
  obtain ⟨body2, halg, h⟩ := Option.bind_eq_some_iff.mp h
  obtain ⟨body3, hbits, h⟩ := Option.bind_eq_some_iff.mp h
  obtain ⟨whole, hwrap, h⟩ := Option.bind_eq_some_iff.mp h
  obtain rfl := Option.some.inj h
  obtain ⟨hsignature, hfits⟩ := derAppendBitString_wrote (by decide) hbits
  have hsignatureLength : signature.length ≤ signatureMaxSize := Nat.le_of_succ_le_succ hfits
  have hcontent := ((derAppend_wrote hfirst).trans (derAppend_wrote halg)).trans hsignature
  have hwritten : body3.written = certificateContent tbs signature := hcontent.written
  refine ⟨tbs, signature, htbs, hsign, hsignatureLength, ?_⟩
  rw [derWrapTlvInPlace_written ?_ hwrap, hwritten]
  rw [← length_written, hwritten]
  obtain ⟨rfl, htbsLength, -⟩ := buildTbs_eq htbs
  have hmax : tbsMaxSize = 512 ∧ signatureMaxSize = 80 := ⟨rfl, rfl⟩
  have halgLength : ecdsaSha256Alg.length = 12 := rfl
  have htbsElement := length_element_le 0x30 (htbsLength.trans (by omega))
  have hbits : (0 :: signature).length ≤ 0xFFFF := by
    rw [List.length_cons]
    omega
  have hbitElement := length_element_le 0x03 hbits
  rw [List.length_cons] at hbitElement
  rw [certificateContent, List.length_append, List.length_append]
  omega

end Builder

section Reader

variable {input content rest spki : Bytes} {tag : UInt8} {offset : ℕ}

/-- The reader of elements reads an element. -/
theorem derReadElement_element (hlength : content.length ≤ 0xFFFF) (rest : Bytes) :
    derReadElement (element tag content ++ rest) tag =
      some (content, (element tag content).length) := by
  have hsize := length_element_le tag hlength
  have htag : (element tag content ++ rest).head? = some tag := rfl
  rw [length_element] at hsize
  have hread : derDecodeLength (element tag content ++ rest) = _ :=
    derDecodeLength_element (by omega) rest
  rw [derReadElement, if_neg (not_not.mpr htag), derParseLength, hread]
  dsimp only
  rw [if_neg (by unfold sizeMax; omega), drop_element, List.take_left, ← length_element tag]

theorem readElementAt_eq (h : input.drop offset = element tag content ++ rest)
    (hlength : content.length ≤ 0xFFFF) :
    readElementAt input offset tag = some (content, offset + (element tag content).length) := by
  rw [readElementAt, h, derReadElement_element hlength]
  rfl

/-- Behind an element stands the rest. -/
theorem drop_behind (h : input.drop offset = element tag content ++ rest) :
    input.drop (offset + (element tag content).length) = rest := by
  rw [← List.drop_drop, h, List.drop_left]

theorem skipElementIf_eq (h : input.drop offset = element tag content ++ rest)
    (hlength : content.length ≤ 0xFFFF) :
    skipElementIf true input offset tag = some (offset + (element tag content).length) := by
  rw [skipElementIf, if_pos rfl, readElementAt_eq h hlength]
  rfl

/-- The bytes of elements in a row. -/
def elementsBytes (elements : List (UInt8 × Bytes)) : Bytes :=
  elements.flatMap fun entry ↦ element entry.1 entry.2

/-- The walk over elements in a row ends behind them. -/
theorem foldlM_skipElementIf (elements : List (UInt8 × Bytes))
    (hlengths : ∀ entry ∈ elements, entry.2.length ≤ 0xFFFF)
    (h : input.drop offset = elementsBytes elements ++ rest) :
    (elements.map Prod.fst).foldlM (fun offset tag ↦ skipElementIf true input offset tag) offset =
      some (offset + (elementsBytes elements).length) := by
  induction elements generalizing offset with
  | nil => rfl
  | cons first elements ih =>
    have hfirst : input.drop offset =
        element first.1 first.2 ++ (elementsBytes elements ++ rest) := by
      rw [h, elementsBytes, List.flatMap_cons, List.append_assoc]
      rfl
    rw [List.map_cons, List.foldlM_cons,
      skipElementIf_eq hfirst (hlengths first List.mem_cons_self)]
    show List.foldlM _ _ _ = _
    rw [ih (fun entry hentry ↦ hlengths entry (List.mem_cons_of_mem _ hentry))
      (drop_behind hfirst), Nat.add_assoc, ← List.length_append]
    rfl

theorem readElementAt_zero (h : input = element tag content ++ rest)
    (hlength : content.length ≤ 0xFFFF) :
    readElementAt input 0 tag = some (content, (element tag content).length) := by
  rw [← Nat.zero_add (element tag content).length]
  exact readElementAt_eq (by rw [List.drop_zero, h]) hlength

/-- The content of the algorithm of the key. -/
def publicKeyAlgContent : Bytes := publicKeyAlg.drop 2

theorem publicKeyAlg_eq : publicKeyAlg = element 0x30 publicKeyAlgContent := by decide

/-- The point of a subjectPublicKeyInfo. -/
theorem publicKeyInfoPoint_eq {publicKey : Bytes} (hlength : publicKey.length = ecPointSize)
    (hfirst : publicKey.head? = some 0x04) :
    publicKeyInfoPoint (publicKeyInfoContent publicKey) = some publicKey := by
  have hsize : ecPointSize = 65 := rfl
  have hbits : (0 :: publicKey).length ≤ 0xFFFF := by
    rw [List.length_cons]
    omega
  have hinput : publicKeyInfoContent publicKey =
      element 0x30 publicKeyAlgContent ++ element 0x03 (0 :: publicKey) := by
    rw [publicKeyInfoContent, publicKeyAlg_eq]
  have hbehind : (publicKeyInfoContent publicKey).drop (element 0x30 publicKeyAlgContent).length =
      element 0x03 (0 :: publicKey) ++ [] := by
    rw [hinput, List.drop_left, List.append_nil]
  obtain ⟨tail, rfl⟩ : ∃ tail, publicKey = 0x04 :: tail := by
    cases publicKey with
    | nil => simp at hfirst
    | cons first tail => exact ⟨tail, by rw [← Option.some.inj hfirst]⟩
  have hwhole : (element 0x30 publicKeyAlgContent).length +
      (element 0x03 (0 :: 0x04 :: tail)).length = (publicKeyInfoContent (0x04 :: tail)).length := by
    rw [hinput, List.length_append]
  unfold publicKeyInfoPoint
  rw [readElementAt_zero hinput (by decide), Option.bind_eq_bind, Option.bind_some]
  dsimp only
  rw [readElementAt_eq hbehind hbits, Option.bind_some]
  dsimp only
  rw [hwhole, if_neg]
  · rw [List.drop_succ_cons, List.drop_zero, List.take_of_length_le hlength.le]
  · rintro (hend | hcount | hunused | hform)
    · exact hend rfl
    · exact hcount (congrArg (· + 1) hlength)
    · exact hunused rfl
    · exact hform rfl

/-- The contents of the fixed elements. -/
def ecdsaSha256AlgContent : Bytes := ecdsaSha256Alg.drop 2

def validityContent : Bytes := validity.drop 2

theorem ecdsaSha256Alg_eq : ecdsaSha256Alg = element 0x30 ecdsaSha256AlgContent := by decide

theorem validity_eq : validity = element 0x30 validityContent := by decide

/-- The subjectPublicKeyInfo of a TBSCertificate, whose version, serial, algorithm, names and
validity are skipped. -/
theorem tbsPublicKeyInfo_eq {subject extensions publicKey serial : Bytes}
    (hsubject : subject.length ≤ 0xFFFF) (hextensions : extensions.length ≤ 0xFFFF)
    (hserial : (encodedInteger (positiveSerial serial)).length ≤ 0xFFFF)
    (hinfo : (publicKeyInfoContent publicKey).length ≤ 0xFFFF) :
    tbsPublicKeyInfo (tbsContent (element 0x30 subject) extensions publicKey serial) =
      some (publicKeyInfoContent publicKey) := by
  let skipped : List (UInt8 × Bytes) :=
    [(0x02, encodedInteger (positiveSerial serial)), (0x30, ecdsaSha256AlgContent),
      (0x30, subject), (0x30, validityContent), (0x30, subject)]
  have hinput : tbsContent (element 0x30 subject) extensions publicKey serial =
      element 0xA0 version ++ (elementsBytes skipped ++
        (element 0x30 (publicKeyInfoContent publicKey) ++ element 0xA3 extensions)) := by
    simp [tbsContent, elementsBytes, skipped, ecdsaSha256Alg_eq, validity_eq]
  have hskippedLengths : ∀ entry ∈ skipped, entry.2.length ≤ 0xFFFF := by
    have halg : ecdsaSha256AlgContent.length ≤ 0xFFFF := by decide
    have hvalidity : validityContent.length ≤ 0xFFFF := by decide
    simp [skipped, hserial, hsubject, halg, hvalidity]
  generalize tbsContent (element 0x30 subject) extensions publicKey serial = tbs at hinput ⊢
  have hversion : tbs.drop 0 = element 0xA0 version ++ (elementsBytes skipped ++
      (element 0x30 (publicKeyInfoContent publicKey) ++ element 0xA3 extensions)) := by
    rw [List.drop_zero, hinput]
  have hskipped := drop_behind hversion
  have hspki : tbs.drop (0 + (element 0xA0 version).length + (elementsBytes skipped).length) =
      element 0x30 (publicKeyInfoContent publicKey) ++ element 0xA3 extensions := by
    rw [← List.drop_drop, hskipped, List.drop_left]
  have hlast := drop_behind hspki
  rw [← List.append_nil (element 0xA3 extensions)] at hlast
  have hend : 0 + (element 0xA0 version).length + (elementsBytes skipped).length +
      (element 0x30 (publicKeyInfoContent publicKey)).length + (element 0xA3 extensions).length =
        tbs.length := by
    rw [hinput]
    simp only [List.length_append]
    omega
  have hmore : decide (0 + (element 0xA0 version).length + (elementsBytes skipped).length +
      (element 0x30 (publicKeyInfoContent publicKey)).length < tbs.length) = true := by
    rw [decide_eq_true_eq, ← hend, length_element 0xA3]
    omega
  have htag : (tbs.head? == some 0xA0) = true := by
    rw [hinput]
    rfl
  have hwalk := foldlM_skipElementIf skipped hskippedLengths hskipped
  unfold tbsPublicKeyInfo
  have htags : ([0x02, 0x30, 0x30, 0x30, 0x30] : Bytes) = skipped.map Prod.fst := rfl
  rw [htag, skipElementIf_eq hversion (by decide), Option.bind_eq_bind, Option.bind_some, htags,
    hwalk, Option.bind_some, readElementAt_eq hspki hinfo, Option.bind_eq_bind, Option.bind_some]
  dsimp only
  rw [hmore, skipElementIf_eq hlast hextensions, Option.bind_some, hend, if_neg (not_not.mpr rfl)]

/-- The TBSCertificate of a certificate. -/
theorem certificateTbs_eq {tbs signature : Bytes} (htbs : tbs.length ≤ 0xFFFF)
    (hsignature : signature.length ≤ signatureMaxSize) :
    certificateTbs (certificateContent (element 0x30 tbs) signature) = some tbs := by
  have hmax : signatureMaxSize = 80 := rfl
  have hbits : (0 :: signature).length ≤ 0xFFFF := by
    rw [List.length_cons]
    omega
  have hinput : certificateContent (element 0x30 tbs) signature = element 0x30 tbs ++
      (element 0x30 ecdsaSha256AlgContent ++ element 0x03 (0 :: signature)) := by
    rw [certificateContent, ecdsaSha256Alg_eq, List.append_assoc]
  generalize certificateContent (element 0x30 tbs) signature = certificate at hinput ⊢
  have halg : certificate.drop (element 0x30 tbs).length =
      element 0x30 ecdsaSha256AlgContent ++ element 0x03 (0 :: signature) := by
    rw [hinput, List.drop_left]
  have hlast := drop_behind halg
  rw [← List.append_nil (element 0x03 (0 :: signature))] at hlast
  have hend : (element 0x30 tbs).length + (element 0x30 ecdsaSha256AlgContent).length +
      (element 0x03 (0 :: signature)).length = certificate.length := by
    rw [hinput, List.length_append, List.length_append, Nat.add_assoc]
  unfold certificateTbs
  rw [readElementAt_zero hinput htbs, Option.bind_eq_bind, Option.bind_some]
  dsimp only
  rw [readElementAt_eq halg (by decide), Option.bind_some]
  dsimp only
  rw [readElementAt_eq hlast hbits, Option.bind_some]
  dsimp only
  rw [hend, if_neg (not_not.mpr rfl)]

end Reader

section Elements

variable {subject extensions publicKey serial tbs signature : Bytes}

theorem elements_ecdsaSha256Alg : Elements ecdsaSha256Alg := by
  have hcontent : ecdsaSha256AlgContent = element 0x06 (ecdsaSha256AlgContent.drop 2) := by decide
  rw [ecdsaSha256Alg_eq, hcontent]
  exact elements_constructed rfl (elements_primitive rfl)

theorem elements_validity : Elements validity := by
  have hcontent : validityContent =
      element 0x17 ((validityContent.take 15).drop 2) ++
        element 0x17 (validityContent.drop 17) := by
    decide
  rw [validity_eq, hcontent]
  exact elements_constructed rfl ((elements_primitive rfl).append (elements_primitive rfl))

theorem elements_publicKeyInfoContent : Elements (publicKeyInfoContent publicKey) := by
  have hcontent : publicKeyAlgContent =
      element 0x06 ((publicKeyAlgContent.take 9).drop 2) ++
        element 0x06 (publicKeyAlgContent.drop 11) := by
    decide
  rw [publicKeyInfoContent, publicKeyAlg_eq, hcontent]
  exact (elements_constructed rfl ((elements_primitive rfl).append (elements_primitive rfl))).append
    (elements_primitive rfl)

/-- The TBSCertificate is elements when the name and the extensions are. -/
theorem elements_tbsContent (hsubject : Elements subject) (hextensions : Elements extensions) :
    Elements (tbsContent (element 0x30 subject) extensions publicKey serial) := by
  have hnumber : Elements (element 0x02 [0x02]) := elements_primitive rfl
  have hversion : Elements (element 0xA0 version) := elements_constructed rfl hnumber
  have hserial : Elements (element 0x02 (encodedInteger (positiveSerial serial))) :=
    elements_primitive rfl
  have hname : Elements (element 0x30 subject) := elements_constructed rfl hsubject
  have hspki : Elements (element 0x30 (publicKeyInfoContent publicKey)) :=
    elements_constructed rfl elements_publicKeyInfoContent
  have hlast : Elements (element 0xA3 extensions) := elements_constructed rfl hextensions
  exact ((((((hversion.append hserial).append elements_ecdsaSha256Alg).append hname).append
    elements_validity).append hname).append hspki).append hlast

theorem elements_certificate (htbs : Elements tbs) :
    Elements (element 0x30 (certificateContent (element 0x30 tbs) signature)) :=
  elements_constructed rfl (((elements_constructed rfl htbs).append elements_ecdsaSha256Alg).append
    (elements_primitive rfl))

end Elements

/-- A certificate that the builder makes is one SEQUENCE, of elements down to the name and the
extensions, and the point that it was made for is read back from it. -/
theorem certificates_read_back {signer : Signer} {profile : LocalAttestationProfile}
    {privateKey publicKey serial subject out : Bytes} {cert : ℕ → UInt8} {certCapacity : ℕ}
    {scratch : LocalAttestationScratch}
    (hsubject : profile.subjectDer = some (element 0x30 subject))
    (hlength : publicKey.length = ecPointSize) (hfirst : publicKey.head? = some 0x04)
    (h : buildCert signer profile privateKey publicKey cert certCapacity scratch serial =
      some out) :
    (∃ signature, signature.length ≤ signatureMaxSize ∧
      out = element 0x30 (certificateContent (element 0x30 (tbsContent (element 0x30 subject)
        (profile.extensionsDer.getD []) publicKey serial)) signature)) ∧
    (Elements subject → Elements (profile.extensionsDer.getD []) → Elements out) ∧
    extractCertPublicKey out = some publicKey := by
  obtain ⟨tbs, signature, htbs, -, hsignature, rfl⟩ := buildCert_eq h
  obtain ⟨rfl, hcontent, hextensions⟩ := buildTbs_eq htbs
  rw [hsubject, Option.getD_some] at hcontent ⊢
  have hmax : tbsMaxSize = 512 ∧ signatureMaxSize = 80 := ⟨rfl, rfl⟩
  have hparts := hcontent
  simp only [tbsContent, List.length_append, length_element] at hparts
  have hwhole : (certificateContent (element 0x30 (tbsContent (element 0x30 subject)
      (profile.extensionsDer.getD []) publicKey serial)) signature).length ≤ 0xFFFF := by
    have halg : ecdsaSha256Alg.length = 12 := rfl
    have htbsElement := length_element_le 0x30 (hcontent.trans (by omega))
    have hbits : (0 :: signature).length ≤ 0xFFFF := by
      rw [List.length_cons]
      omega
    have hbitElement := length_element_le 0x03 hbits
    rw [List.length_cons] at hbitElement
    rw [certificateContent, List.length_append, List.length_append]
    omega
  refine ⟨⟨signature, hsignature, rfl⟩, fun hname hlast ↦
    elements_certificate (elements_tbsContent hname hlast), ?_⟩
  have hread := @derReadElement_element _ 0x30 hwhole []
  rw [List.append_nil] at hread
  unfold extractCertPublicKey
  rw [hread]
  dsimp only
  rw [if_neg (not_not.mpr rfl), certificateTbs_eq (by omega) hsignature, Option.bind_eq_bind,
    Option.bind_some, tbsPublicKeyInfo_eq (by omega) (by omega) (by omega) (by omega),
    Option.bind_some, publicKeyInfoPoint_eq hlength hfirst]

/-- An attribute of a name. -/
def nameAttribute (identifier text : Bytes) (textTag : UInt8) : Bytes :=
  element 0x31 (element 0x30 (element 0x06 identifier ++ element textTag text))

theorem elements_nameAttribute {identifier text : Bytes} {textTag : UInt8}
    (htext : isConstructed textTag = false) :
    Elements (nameAttribute identifier text textTag) :=
  elements_constructed rfl (elements_constructed rfl
    ((elements_primitive rfl).append (elements_primitive htext)))

/-- The name on a generated U2F certificate. -/
def u2fSubject : Bytes :=
  nameAttribute [0x55, 0x04, 0x06] "BG".toUTF8.toList 0x13 ++
    nameAttribute [0x55, 0x04, 0x0A] "ZeroFIDO".toUTF8.toList 0x0C ++
    nameAttribute [0x55, 0x04, 0x03] "ZeroFIDO Local U2F Attestation".toUTF8.toList 0x0C

theorem elements_u2fGeneratedAttestationExtensions :
    Elements u2fGeneratedAttestationExtensions := by
  have hextensions : u2fGeneratedAttestationExtensions = element 0x30
      (element 0x30 (element 0x06 [0x55, 0x1D, 0x13] ++ element 0x01 [0xFF] ++
        element 0x04 [0x30, 0x00]) ++
      element 0x30 (element 0x06 [0x55, 0x1D, 0x0F] ++ element 0x01 [0xFF] ++
        element 0x04 [0x03, 0x02, 0x07, 0x80]) ++
      element 0x30 (element 0x06 [0x2B, 0x06, 0x01, 0x04, 0x01, 0x82, 0xE5, 0x1C, 0x02, 0x01,
          0x01] ++
        element 0x04 [0x03, 0x02, 0x05, 0x20])) := by
    decide +kernel
  rw [hextensions]
  have hcritical (identifier value : Bytes) :
      Elements (element 0x30 (element 0x06 identifier ++ element 0x01 [0xFF] ++
        element 0x04 value)) :=
    elements_constructed rfl (((elements_primitive rfl).append (elements_primitive rfl)).append
      (elements_primitive rfl))
  exact elements_constructed rfl (((hcritical _ _).append (hcritical _ _)).append
    (elements_constructed rfl ((elements_primitive rfl).append (elements_primitive rfl))))

/-- A certificate for U2F. -/
theorem certificates_read_back_u2f :
    ∃ out, buildCert ⟨fun data ↦ data.take 32, fun _ hash _ ↦ some hash⟩
        u2fGeneratedAttestationProfile (List.replicate 32 1) (0x04 :: List.replicate 64 5)
        (fun _ ↦ 0) 1024 ⟨fun _ ↦ 0, fun _ ↦ 0⟩ (List.replicate 16 0xFF) = some out ∧
      Elements out ∧ extractCertPublicKey out = some (0x04 :: List.replicate 64 5) := by
  have hbuilt : (buildCert ⟨fun data ↦ data.take 32, fun _ hash _ ↦ some hash⟩
      u2fGeneratedAttestationProfile (List.replicate 32 1) (0x04 :: List.replicate 64 5)
      (fun _ ↦ 0) 1024 ⟨fun _ ↦ 0, fun _ ↦ 0⟩ (List.replicate 16 0xFF)).isSome = true := by
    decide +kernel
  obtain ⟨out, hout⟩ := Option.isSome_iff_exists.mp hbuilt
  have hsubject : u2fGeneratedAttestationProfile.subjectDer = some (element 0x30 u2fSubject) := by
    decide +kernel
  have hname : Elements u2fSubject :=
    ((elements_nameAttribute rfl).append (elements_nameAttribute rfl)).append
      (elements_nameAttribute rfl)
  obtain ⟨-, helements, hread⟩ := certificates_read_back hsubject rfl rfl hout
  exact ⟨out, hout, helements hname elements_u2fGeneratedAttestationExtensions, hread⟩

end ZeroFido.Attestation
