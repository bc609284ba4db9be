import ZeroFido.Cbor.Utf8
import ZeroFido.Ctap.Members

/-!
# Accepted requests

What a request that `zf_ctap_parse_make_credential` or `zf_ctap_parse_get_assertion` accepts has to
do with the bytes it was read from (`accepted_requests_well_formed`).

Each nested loop keeps what it has read together with the pairs it came from (the structures named
`From`); the parser of the loop then says which members its map has.
-/

set_option autoImplicit false
set_option relaxedAutoImplicit false

namespace ZeroFido.Ctap

open Cbor Store

section Descriptors

/-- A credential descriptor of the input. -/
structure Descriptor where
  id : Bytes
  type : Bytes

/-- The item is a map with the id and the type of the descriptor. -/
structure IsDescriptor (item : Bytes) (descriptor : Descriptor) : Prop where
  id : HasMember item (textItem "id".toUTF8.toList) (bytesItem descriptor.id)
  type : HasMember item (textItem "type".toUTF8.toList) (textItem descriptor.type)
  idLength : 0 < descriptor.id.length ∧ descriptor.id.length ≤ maxDescriptorIdLen

/-- The ids of the descriptors of type `public-key`. -/
def publicKeyIds (descriptors : List Descriptor) : List Bytes :=
  (descriptors.filter fun descriptor ↦ descriptor.type == "public-key".toUTF8.toList).map
    Descriptor.id

theorem publicKeyIds_append (descriptors : List Descriptor) (descriptor : Descriptor) :
    publicKeyIds (descriptors ++ [descriptor]) = publicKeyIds descriptors ++
      onlyIf (descriptor.type == "public-key".toUTF8.toList) [descriptor.id] := by
  rw [publicKeyIds, List.filter_append, List.map_append, List.filter_cons]
  cases descriptor.type == "public-key".toUTF8.toList <;> rfl

/-- The list has the digests of the ids of the public-key descriptors of an array. -/
structure DescriptorDigests (crypto : Crypto) (capacity : ℕ) (elements list : List Bytes) :
    Prop where
  source : ∃ descriptors, List.Forall₂ IsDescriptor elements descriptors ∧
    list = (publicKeyIds descriptors).map crypto.sha256
  distinct : list.Nodup
  count : list.length ≤ capacity

theorem id_mem : ("id".toUTF8.toList, TextKey.id) ∈ textKeys := by simp [textKeys]
theorem type_mem : ("type".toUTF8.toList, TextKey.type) ∈ textKeys := by simp [textKeys]
theorem alg_mem : ("alg".toUTF8.toList, TextKey.alg) ∈ textKeys := by simp [textKeys]

theorem publicKey_mem : ("public-key".toUTF8.toList, TextKey.publicKey) ∈ textKeys := by
  simp [textKeys]

/-- The key that a text was classified as. -/
theorem textItem_eq {text name : Bytes} {kind : TextKey} (hentry : (name, kind) ∈ textKeys)
    (hkind : classifyTextKey text = kind) : textItem text = textItem name :=
  congrArg textItem ((classifyTextKey_eq_iff hentry).mp hkind)

/-- The type, and whether it is `public-key`. -/
def TypeFrom (saw publicKey : Bool) (pairs : List (Bytes × Bytes)) : Prop :=
  ∃ type, Recorded "type".toUTF8.toList saw (textItem type) pairs ∧
    (saw = true → publicKey = (type == "public-key".toUTF8.toList))

theorem classifyTextKey_beq_publicKey (type : Bytes) :
    (classifyTextKey type == .publicKey) = (type == "public-key".toUTF8.toList) := by
  rw [Bool.eq_iff_iff, beq_iff_eq, beq_iff_eq, classifyTextKey_eq_iff publicKey_mem]

variable {saw publicKey : Bool} {pairs : List (Bytes × Bytes)} {pair : Bytes × Bytes}

theorem typeFrom_nil : TypeFrom false publicKey [] := ⟨[], recorded_nil, by simp⟩

theorem TypeFrom.other (h : TypeFrom saw publicKey pairs)
    (hpair : pair.1 ≠ textItem "type".toUTF8.toList) :
    TypeFrom saw publicKey (pairs ++ [pair]) := by
  obtain ⟨type, htype, hpublicKey⟩ := h
  exact ⟨type, htype.other hpair, hpublicKey⟩

theorem TypeFrom.found {old : Bool} {type : Bytes} (h : TypeFrom false old pairs)
    (hkey : pair.1 = textItem "type".toUTF8.toList) (hvalue : pair.2 = textItem type) :
    TypeFrom true (classifyTextKey type == .publicKey) (pairs ++ [pair]) := by
  obtain ⟨_, hno, -⟩ := h
  refine ⟨type, ?_, fun _ ↦ classifyTextKey_beq_publicKey type⟩
  rw [← hvalue]
  exact hno.found hkey

variable {crypto : Crypto} {capacity : ℕ}

/-- The id and the type that have been read are those of the pairs. -/
structure DescriptorFields.From (crypto : Crypto) (fields : DescriptorFields)
    (pairs : List (Bytes × Bytes)) : Prop where
  id : ∃ credentialId, Recorded "id".toUTF8.toList fields.sawId (bytesItem credentialId) pairs ∧
    (fields.sawId = true → fields.credentialIdDigest = crypto.sha256 credentialId ∧
      0 < credentialId.length ∧ credentialId.length ≤ maxDescriptorIdLen)
  type : TypeFrom fields.sawType fields.publicKey pairs

theorem reads_parseDescriptorField (fields : DescriptorFields) (pairs : List (Bytes × Bytes))
    (h : fields.From crypto pairs) :
    Reads (parseDescriptorField crypto fields) fun next bytes ↦
      ∃ pair : Bytes × Bytes, bytes = pair.1 ++ pair.2 ∧ IsPair pair ∧
        next.From crypto (pairs ++ [pair]) := by
  obtain ⟨⟨oldId, hid, hdigest⟩, htype⟩ := h
  refine reads_textPair (consumes_parseDescriptorField crypto fields) fun key hkey ↦ ?_
  split
  case h_1 hkind =>
    refine Reads.refused fun hnew ↦ reads_readBytes.andThen fun credentialId bytes hbytes ↦
      Reads.refused fun hlength ↦ reads_pure ⟨rfl, ?_⟩
    rw [hnew] at hid
    refine ⟨⟨credentialId, ?_, fun _ ↦ ⟨rfl, ?_⟩⟩,
      htype.other (textItem_ne type_mem hkey (by rw [hkind]; decide))⟩
    · rw [← hbytes]
      exact hid.found (textItem_eq id_mem hkind)
    · simpa [List.length_pos_iff] using hlength
  case h_2 hkind =>
    refine Reads.refused fun hnew ↦ reads_readText.returning fun type bytes hbytes ↦ ?_
    rw [hnew] at htype
    exact ⟨⟨oldId, hid.other (textItem_ne id_mem hkey (by rw [hkind]; decide)), hdigest⟩,
      htype.found (textItem_eq type_mem hkind) hbytes.1⟩
  case h_3 hnotId hnotType =>
    refine consumes_cborSkip.reads.returning fun _ bytes _ ↦ ?_
    exact ⟨⟨oldId, hid.other (textItem_ne id_mem hkey hnotId), hdigest⟩,
      htype.other (textItem_ne type_mem hkey hnotType)⟩

theorem reads_parseCredentialDescriptor :
    Reads (parseCredentialDescriptor crypto) fun result bytes ↦ ∃ descriptor,
      IsDescriptor bytes descriptor ∧
        result = (crypto.sha256 descriptor.id, descriptor.type == "public-key".toUTF8.toList) := by
  refine reads_mapLoop reads_parseDescriptorField (fun fields pairs bytes h hmap ↦ ?_)
    ⟨⟨[], recorded_nil, by simp⟩, typeFrom_nil⟩
  refine Reads.refused fun hsaw ↦ reads_pure ⟨rfl, ?_⟩
  obtain ⟨hsawId, hsawType⟩ : fields.sawId = true ∧ fields.sawType = true := by simpa using hsaw
  obtain ⟨⟨credentialId, hid, hdigest⟩, type, htype, hpublicKey⟩ := h
  obtain ⟨hdigest, hlength⟩ := hdigest hsawId
  exact ⟨⟨credentialId, type⟩,
    ⟨hid.hasMember hsawId hmap, htype.hasMember hsawType hmap, hlength⟩,
    by rw [hdigest, hpublicKey hsawType]⟩

theorem reads_parseDescriptor (list elements : List Bytes)
    (h : DescriptorDigests crypto capacity elements list) :
    Reads (parseDescriptor crypto capacity list) fun next bytes ↦
      DescriptorDigests crypto capacity (elements ++ [bytes]) next := by
  obtain ⟨⟨descriptors, hall, hlist⟩, hdistinct, hcount⟩ := h
  refine reads_parseCredentialDescriptor.andThen fun result bytes hresult ↦ ?_
  obtain ⟨descriptor, hdescriptor, rfl⟩ := hresult
  refine Reads.refused fun hfits ↦ reads_pure ⟨rfl, ?_⟩
  have hsource : List.Forall₂ IsDescriptor (elements ++ [bytes]) (descriptors ++ [descriptor]) :=
    List.rel_append hall (.cons hdescriptor .nil)
  have hids := publicKeyIds_append descriptors descriptor
  cases hpublicKey : descriptor.type == "public-key".toUTF8.toList with
  | true =>
    rw [hpublicKey] at hfits hids
    obtain ⟨hroom, hnew⟩ : list.length < capacity ∧ crypto.sha256 descriptor.id ∉ list := by
      simpa using hfits
    refine ⟨⟨_, hsource, ?_⟩, ?_, ?_⟩
    · rw [hids, List.map_append, ← hlist]
      rfl
    · refine List.nodup_append.mpr ⟨hdistinct, by simp, ?_⟩
      rintro digest hdigest _ hmem rfl
      exact hnew (List.mem_singleton.mp hmem ▸ hdigest)
    · show (list ++ [_]).length ≤ capacity
      rw [List.length_append]
      exact hroom
  | false =>
    rw [hpublicKey] at hids
    refine ⟨⟨_, hsource, ?_⟩, hdistinct, hcount⟩
    rw [hids, List.map_append, ← hlist]
    exact (List.append_nil list).symm

theorem reads_parseDescriptorArray :
    Reads (parseDescriptorArray crypto capacity) fun list bytes ↦
      ∃ elements, IsArrayOf bytes elements ∧ DescriptorDigests crypto capacity elements list :=
  reads_arrayLoop reads_parseDescriptor (consumes_parseDescriptor crypto capacity)
    ⟨⟨[], .nil, rfl⟩, List.nodup_nil, Nat.zero_le _⟩

end Descriptors

section Loops

variable {crypto : Crypto} {capacity : ℕ}

/-- The id that has been read of the RP is that of the pairs. -/
structure RpFields.From (fields : RpFields) (pairs : List (Bytes × Bytes)) : Prop where
  id : Recorded "id".toUTF8.toList fields.sawId (textItem fields.rpId) pairs
  text : fields.sawId = true → TextField fields.rpId maxRpIdLen
  unset : fields.sawId = false → fields.rpId = []

theorem reads_parseRpField (fields : RpFields) (pairs : List (Bytes × Bytes))
    (h : fields.From pairs) :
    Reads (parseRpField fields) fun next bytes ↦
      ∃ pair : Bytes × Bytes, bytes = pair.1 ++ pair.2 ∧ IsPair pair ∧
        next.From (pairs ++ [pair]) := by
  refine reads_textPair (consumes_parseRpField fields) fun key hkey ↦ ?_
  have hother (hkind : classifyTextKey key ≠ .id) (bytes : Bytes) :
      fields.From (pairs ++ [(textItem key, bytes)]) :=
    { h with id := h.id.other (textItem_ne id_mem hkey hkind) }
  split
  case h_1 hkind =>
    exact Reads.refused fun _ ↦ (consumes_cborRead exact_cborReadTextDiscard).reads.returning
      fun _ bytes _ ↦ { hother (by rw [hkind]; decide) bytes with }
  case h_2 hkind =>
    exact Reads.refused fun _ ↦ (consumes_cborRead exact_cborReadTextDiscard).reads.returning
      fun _ bytes _ ↦ { hother (by rw [hkind]; decide) bytes with }
  case h_3 hkind =>
    refine Reads.refused fun hnew ↦ (reads_cborReadTextCopy _).returning fun rpId bytes hbytes ↦ ?_
    obtain ⟨rfl, htext⟩ := hbytes
    have hid := h.id
    rw [hnew] at hid
    have hkeyItem : (textItem key, textItem rpId).1 = textItem "id".toUTF8.toList :=
      textItem_eq id_mem hkind
    exact ⟨hid.found hkeyItem, fun _ ↦ htext, by simp⟩
  case h_4 _ _ hkind =>
    exact consumes_cborSkip.reads.returning fun _ bytes _ ↦ hother hkind bytes

theorem reads_parseMakeCredentialRp (request : ParsedMakeCredential) (hrpId : request.rpId = []) :
    Reads (parseMakeCredentialRp request) fun next bytes ↦ next.rpId ≠ [] →
      HasMember bytes (textItem "id".toUTF8.toList) (textItem next.rpId) ∧
        TextField next.rpId maxRpIdLen := by
  refine reads_mapLoop reads_parseRpField (fun fields pairs bytes h hmap ↦ reads_pure ⟨rfl, ?_⟩)
    ⟨recorded_nil, by simp, fun _ ↦ hrpId⟩
  intro hsome
  have hsaw : fields.sawId = true := by
    by_contra hno
    exact hsome (h.unset (by simpa using hno))
  exact ⟨h.id.hasMember hsaw hmap, h.text hsaw⟩

/-- The id that has been read of the user is that of the pairs. -/
structure UserFields.From (fields : UserFields) (pairs : List (Bytes × Bytes)) : Prop where
  id : Recorded "id".toUTF8.toList fields.sawId (bytesItem fields.userId) pairs
  has : fields.hasUserId = fields.sawId
  fits : fields.sawId = true → fields.userId.length ≤ maxUserIdLen

theorem reads_parseUserField (fields : UserFields) (pairs : List (Bytes × Bytes))
    (h : fields.From pairs) :
    Reads (parseUserField fields) fun next bytes ↦
      ∃ pair : Bytes × Bytes, bytes = pair.1 ++ pair.2 ∧ IsPair pair ∧
        next.From (pairs ++ [pair]) := by
  refine reads_textPair (consumes_parseUserField fields) fun key hkey ↦ ?_
  have hother (hkind : classifyTextKey key ≠ .id) (bytes : Bytes) :
      fields.From (pairs ++ [(textItem key, bytes)]) :=
    { h with id := h.id.other (textItem_ne id_mem hkey hkind) }
  split
  case h_1 hkind =>
    refine Reads.refused fun hnew ↦ (reads_cborReadBytesCopy _).returning
      fun userId bytes hbytes ↦ ?_
    obtain ⟨rfl, hfits⟩ := hbytes
    have hid := h.id
    rw [hnew] at hid
    have hkeyItem : (textItem key, bytesItem userId).1 = textItem "id".toUTF8.toList :=
      textItem_eq id_mem hkind
    exact ⟨hid.found hkeyItem, rfl, fun _ ↦ hfits⟩
  case h_2 hkind =>
    exact Reads.refused fun _ ↦ (reads_cborReadTextCopy _).returning
      fun _ bytes _ ↦ { hother (by rw [hkind]; decide) bytes with }
  case h_3 hkind =>
    exact Reads.refused fun _ ↦ (reads_cborReadTextCopy _).returning
      fun _ bytes _ ↦ { hother (by rw [hkind]; decide) bytes with }
  case h_4 hkind =>
    exact Reads.refused fun _ ↦ (consumes_cborRead exact_cborReadTextDiscard).reads.returning
      fun _ bytes _ ↦ { hother (by rw [hkind]; decide) bytes with }
  case h_5 hkind _ _ _ =>
    exact consumes_cborSkip.reads.returning fun _ bytes _ ↦ hother hkind bytes

theorem reads_parseMakeCredentialUser (request : ParsedMakeCredential)
    (hno : request.hasUserId = false) :
    Reads (parseMakeCredentialUser request) fun next bytes ↦ next.hasUserId = true →
      HasMember bytes (textItem "id".toUTF8.toList) (bytesItem next.userId) ∧
        next.userId.length ≤ maxUserIdLen := by
  refine reads_mapLoop reads_parseUserField (fun fields pairs bytes h hmap ↦ reads_pure ⟨rfl, ?_⟩)
    ⟨recorded_nil, hno, by simp⟩
  intro hsome
  have hsaw : fields.sawId = true := h.has.symm.trans hsome
  exact ⟨h.id.hasMember hsaw hmap, h.fits hsaw⟩

/-- The element of `pubKeyCredParams` is of type `public-key`, for ES256. -/
structure IsEs256 (element : Bytes) : Prop where
  type : HasMember element (textItem "type".toUTF8.toList) (textItem "public-key".toUTF8.toList)
  alg : HasMember element (textItem "alg".toUTF8.toList) (intBytes (-7))

/-- The algorithm and the type that have been read are those of the pairs. -/
structure CredParamFields.From (fields : CredParamFields) (pairs : List (Bytes × Bytes)) :
    Prop where
  alg : Recorded "alg".toUTF8.toList fields.haveAlg (intBytes fields.alg) pairs
  type : TypeFrom fields.haveType fields.publicKey pairs

theorem reads_parseCredParamField (fields : CredParamFields) (pairs : List (Bytes × Bytes))
    (h : fields.From pairs) :
    Reads (parseCredParamField fields) fun next bytes ↦
      ∃ pair : Bytes × Bytes, bytes = pair.1 ++ pair.2 ∧ IsPair pair ∧
        next.From (pairs ++ [pair]) := by
  obtain ⟨halg, htype⟩ := h
  refine reads_textPair (consumes_parseCredParamField fields) fun key hkey ↦ ?_
  split
  case h_1 hkind =>
    refine Reads.refused fun hnew ↦ reads_readInt.returning fun alg bytes hbytes ↦ ?_
    rw [hnew] at halg
    refine ⟨?_, htype.other (textItem_ne type_mem hkey (by rw [hkind]; decide))⟩
    rw [← hbytes]
    exact halg.found (textItem_eq alg_mem hkind)
  case h_2 hkind =>
    refine Reads.refused fun hnew ↦ reads_readText.returning fun type bytes hbytes ↦ ?_
    rw [hnew] at htype
    exact ⟨halg.other (textItem_ne alg_mem hkey (by rw [hkind]; decide)),
      htype.found (textItem_eq type_mem hkind) hbytes.1⟩
  case h_3 hnotAlg hnotType =>
    exact consumes_cborSkip.reads.returning fun _ bytes _ ↦
      ⟨halg.other (textItem_ne alg_mem hkey hnotAlg),
        htype.other (textItem_ne type_mem hkey hnotType)⟩

theorem reads_parseCredParam (es256Supported : Bool) (elements : List Bytes)
    (h : es256Supported = true → ∃ element ∈ elements, IsEs256 element) :
    Reads (parseCredParam es256Supported) fun next bytes ↦
      next = true → ∃ element ∈ elements ++ [bytes], IsEs256 element := by
  refine reads_mapLoop reads_parseCredParamField (fun fields pairs bytes hfrom hmap ↦ ?_)
    ⟨recorded_nil, typeFrom_nil⟩
  refine Reads.refused fun hhave ↦ reads_pure ⟨rfl, fun hsupported ↦ ?_⟩
  obtain ⟨hhaveAlg, hhaveType⟩ : fields.haveAlg = true ∧ fields.haveType = true := by
    simpa using hhave
  obtain ⟨type, htype, hpublicKey⟩ := hfrom.type
  rcases Bool.or_eq_true_iff.mp hsupported with hsupported | hthis
  · obtain ⟨element, helement, hes256⟩ := h hsupported
    exact ⟨element, List.mem_append_left _ helement, hes256⟩
  · obtain ⟨hkey, halg⟩ : fields.publicKey = true ∧ fields.alg = -7 := by simpa using hthis
    obtain rfl : type = "public-key".toUTF8.toList :=
      eq_of_beq ((hpublicKey hhaveType).symm.trans hkey)
    have hnumber := hfrom.alg.hasMember hhaveAlg hmap
    rw [halg] at hnumber
    exact ⟨bytes, List.mem_append_right _ (List.mem_singleton_self bytes),
      htype.hasMember hhaveType hmap, hnumber⟩

theorem reads_parsePubkeyCredParams :
    Reads (parsePubkeyCredParams false) fun es256Supported bytes ↦
      ∃ elements, IsArrayOf bytes elements ∧
        (es256Supported = true → ∃ element ∈ elements, IsEs256 element) :=
  reads_arrayLoop reads_parseCredParam consumes_parseCredParam (by simp)

end Loops

section Requests

variable (crypto : Crypto) (capacity : ℕ) (packedAttestation : Bool)

/-- The text may be the id of an RP. -/
structure IsRpId (rpId : Bytes) : Prop where
  nonempty : rpId ≠ []
  zeroFree : 0 ∉ rpId
  utf8 : ∃ characters, rpId = utf8Encoding characters
  fits : rpId.length < maxRpIdLen

/-- The digests in the list are those of the public-key descriptors under the key, when it is
there. -/
structure DescriptorListFrom (data : Bytes) (key : ℕ) (list : List Bytes) : Prop where
  distinct : list.Nodup
  count : list.length ≤ capacity
  source : (LacksMember data (uintItem key) ∧ list = []) ∨
    ∃ value elements descriptors, HasMember data (uintItem key) value ∧
      IsArrayOf value elements ∧ List.Forall₂ IsDescriptor elements descriptors ∧
        list = (publicKeyIds descriptors).map crypto.sha256

/-- What is said of an accepted makeCredential request. -/
structure WellFormedMakeCredential (data : Bytes) (request : ParsedMakeCredential) : Prop where
  clientDataHash : HasMember data (uintItem 1) (bytesItem request.clientDataHash)
  clientDataHashLength : request.clientDataHash.length = 32
  rpId : ∃ rp, HasMember data (uintItem 2) rp ∧
    HasMember rp (textItem "id".toUTF8.toList) (textItem request.rpId)
  rpIdText : IsRpId request.rpId
  userId : ∃ user, HasMember data (uintItem 3) user ∧
    HasMember user (textItem "id".toUTF8.toList) (bytesItem request.userId)
  userIdLength : 1 ≤ request.userId.length ∧ request.userId.length ≤ 64
  pubkeyCredParams : ∃ params elements, HasMember data (uintItem 4) params ∧
    IsArrayOf params elements ∧ ∃ element ∈ elements, IsEs256 element
  excludeList : DescriptorListFrom crypto capacity data 5 request.excludeList

/-- What is said of an accepted getAssertion request. -/
structure WellFormedGetAssertion (data : Bytes) (request : ParsedGetAssertion) : Prop where
  rpId : HasMember data (uintItem 1) (textItem request.assertion.rpId)
  rpIdText : IsRpId request.assertion.rpId
  clientDataHash : HasMember data (uintItem 2) (bytesItem request.assertion.clientDataHash)
  clientDataHashLength : request.assertion.clientDataHash.length = 32
  allowList : DescriptorListFrom crypto capacity data 3 request.allowList

theorem isRpId_of_textField {rpId : Bytes} (h : TextField rpId maxRpIdLen) (hsome : rpId ≠ []) :
    IsRpId rpId :=
  ⟨hsome, h.zeroFree, utf8IsValid_iff.mp h.utf8, h.fits⟩

theorem putMakeCredential_self (key : ℕ) (request : ParsedMakeCredential) :
    putMakeCredential key request request = request := by
  simp only [putMakeCredential, pick_self]

theorem putMakeCredential_same (key : ℕ) (new old : ParsedMakeCredential) :
    putMakeCredential key (putMakeCredential key new old) initialMakeCredential =
      putMakeCredential key new initialMakeCredential := by
  simp only [putMakeCredential, pick_same]

theorem putGetAssertion_self (key : ℕ) (request : ParsedGetAssertion) :
    putGetAssertion key request request = request := by
  simp only [putGetAssertion, pick_self]

theorem putGetAssertion_same (key : ℕ) (new old : ParsedGetAssertion) :
    putGetAssertion key (putGetAssertion key new old) initialGetAssertion =
      putGetAssertion key new initialGetAssertion := by
  simp only [putGetAssertion, pick_same]

variable {crypto capacity packedAttestation} {data : Bytes}

theorem descriptorListFrom {key : ℕ} {list : List Bytes}
    (h : (LacksMember data (uintItem key) ∧ list = []) ∨
      ∃ value, HasMember data (uintItem key) value ∧ ∃ elements, IsArrayOf value elements ∧
        DescriptorDigests crypto capacity elements list) :
    DescriptorListFrom crypto capacity data key list := by
  obtain ⟨hno, rfl⟩ | ⟨value, hvalue, elements, hwhole, hdigests⟩ := h
  · exact ⟨List.nodup_nil, Nat.zero_le _, Or.inl ⟨hno, rfl⟩⟩
  · obtain ⟨descriptors, hall, hlist⟩ := hdigests.source
    exact ⟨hdigests.distinct, hdigests.count,
      Or.inr ⟨value, elements, descriptors, hvalue, hwhole, hall, hlist⟩⟩

theorem makeCredential_member {request : ParsedMakeCredential}
    (h : ctapParseMakeCredential crypto capacity packedAttestation data = .ok request) {key : ℕ}
    (hkey : key < 16) {Part : Type} (part : ParsedMakeCredential → Part)
    (hpart : ∀ request, part (putMakeCredential key request initialMakeCredential) = part request)
    (post : Part → Bytes → Prop)
    (hpost : Reads (parseMakeCredentialField crypto capacity packedAttestation key
      initialMakeCredential) fun new bytes ↦ post (part new) bytes) :
    (LacksMember data (uintItem key) ∧ part request = part initialMakeCredential) ∨
      ∃ value, HasMember data (uintItem key) value ∧ post (part request) value :=
  (keyed_makeCredential crypto capacity packedAttestation).member_of_parse
    (parsesMap_ctapParseMakeCredential crypto capacity packedAttestation) putMakeCredential_self
    putMakeCredential_same h hkey hpart hpost

theorem getAssertion_member {request : ParsedGetAssertion}
    (h : ctapParseGetAssertion crypto capacity data = .ok request) {key : ℕ} (hkey : key < 16)
    {Part : Type} (part : ParsedGetAssertion → Part)
    (hpart : ∀ request, part (putGetAssertion key request initialGetAssertion) = part request)
    (post : Part → Bytes → Prop)
    (hpost : Reads (parseGetAssertionField crypto capacity key initialGetAssertion)
      fun new bytes ↦ post (part new) bytes) :
    (LacksMember data (uintItem key) ∧ part request = part initialGetAssertion) ∨
      ∃ value, HasMember data (uintItem key) value ∧ post (part request) value :=
  (keyed_getAssertion crypto capacity).member_of_parse
    (parsesMap_ctapParseGetAssertion crypto capacity) putGetAssertion_self
    putGetAssertion_same h hkey hpart hpost

/-- What is recorded of the hash when it has been read. -/
def HashFrom (part : Bool × Bytes) (bytes : Bytes) : Prop :=
  part.1 = true → bytes = bytesItem part.2 ∧ part.2.length = clientDataHashLen

/-- The hash came from the input when the request has it. -/
theorem hashFrom_member {key : ℕ} {part : Bool × Bytes} {unset : Bytes} (hsome : part.1 = true)
    (h : (LacksMember data (uintItem key) ∧ part = (false, unset)) ∨
      ∃ value, HasMember data (uintItem key) value ∧ HashFrom part value) :
    HasMember data (uintItem key) (bytesItem part.2) ∧ part.2.length = clientDataHashLen := by
  obtain ⟨-, rfl⟩ | ⟨value, hvalue, hhash⟩ := h
  · exact absurd hsome (by simp)
  · obtain ⟨rfl, hlength⟩ := hhash hsome
    exact ⟨hvalue, hlength⟩

theorem clientDataHash_makeCredential {request : ParsedMakeCredential}
    (h : ctapParseMakeCredential crypto capacity packedAttestation data = .ok request)
    (hhash : request.hasClientDataHash = true) :
    HasMember data (uintItem 1) (bytesItem request.clientDataHash) ∧
      request.clientDataHash.length = clientDataHashLen := by
  have hpart := makeCredential_member h (show 1 < 16 by decide)
    (fun request ↦ (request.hasClientDataHash, request.clientDataHash)) (fun _ ↦ rfl) HashFrom
    ((reads_cborReadBytesCopy _).andThen fun hash bytes hbytes ↦ Reads.refused fun hlength ↦
      reads_pure ⟨rfl, fun _ ↦ ⟨hbytes.1, by simpa using hlength⟩⟩)
  exact hashFrom_member hhash hpart

theorem rpId_makeCredential {request : ParsedMakeCredential}
    (h : ctapParseMakeCredential crypto capacity packedAttestation data = .ok request)
    (hrpId : request.rpId ≠ []) :
    (∃ rp, HasMember data (uintItem 2) rp ∧
      HasMember rp (textItem "id".toUTF8.toList) (textItem request.rpId)) ∧
        IsRpId request.rpId := by
  have hpart := makeCredential_member h (show 2 < 16 by decide) (·.rpId) (fun _ ↦ rfl)
    (fun rpId bytes ↦ rpId ≠ [] →
      HasMember bytes (textItem "id".toUTF8.toList) (textItem rpId) ∧ TextField rpId maxRpIdLen)
    (reads_parseMakeCredentialRp initialMakeCredential rfl)
  obtain ⟨-, hempty⟩ | ⟨rp, hrp, hmember⟩ := hpart
  · exact absurd hempty hrpId
  · obtain ⟨hid, htext⟩ := hmember hrpId
    exact ⟨⟨rp, hrp, hid⟩, isRpId_of_textField htext hrpId⟩

theorem userId_makeCredential {request : ParsedMakeCredential}
    (h : ctapParseMakeCredential crypto capacity packedAttestation data = .ok request)
    (huser : request.hasUserId = true) :
    (∃ user, HasMember data (uintItem 3) user ∧
      HasMember user (textItem "id".toUTF8.toList) (bytesItem request.userId)) ∧
        request.userId.length ≤ 64 := by
  have hpart := makeCredential_member h (show 3 < 16 by decide)
    (fun request ↦ (request.hasUserId, request.userId)) (fun _ ↦ rfl)
    (fun part bytes ↦ part.1 = true →
      HasMember bytes (textItem "id".toUTF8.toList) (bytesItem part.2) ∧
        part.2.length ≤ maxUserIdLen)
    (reads_parseMakeCredentialUser initialMakeCredential rfl)
  obtain ⟨-, hunset⟩ | ⟨user, hvalue, hmember⟩ := hpart
  · exact absurd huser (by rw [(Prod.mk.inj hunset).1]; decide)
  · obtain ⟨hid, hlength⟩ := hmember huser
    exact ⟨⟨user, hvalue, hid⟩, hlength⟩

theorem pubkeyCredParams_makeCredential {request : ParsedMakeCredential}
    (h : ctapParseMakeCredential crypto capacity packedAttestation data = .ok request)
    (hes256 : request.es256Supported = true) :
    ∃ params elements, HasMember data (uintItem 4) params ∧ IsArrayOf params elements ∧
      ∃ element ∈ elements, IsEs256 element := by
  have hpart := makeCredential_member h (show 4 < 16 by decide) (·.es256Supported) (fun _ ↦ rfl)
    (fun es256Supported bytes ↦ ∃ elements, IsArrayOf bytes elements ∧
      (es256Supported = true → ∃ element ∈ elements, IsEs256 element))
    (reads_parsePubkeyCredParams.returning fun _ _ hfound ↦ hfound)
  obtain ⟨-, hunset⟩ | ⟨params, hparams, elements, hwhole, hfound⟩ := hpart
  · exact absurd hes256 (by rw [hunset]; decide)
  · exact ⟨params, elements, hparams, hwhole, hfound hes256⟩

theorem wellFormed_makeCredential {request : ParsedMakeCredential}
    (h : ctapParseMakeCredential crypto capacity packedAttestation data = .ok request) :
    WellFormedMakeCredential crypto capacity data request := by
  obtain ⟨-, -, -, -, hvalid⟩ :=
    (parsesMap_ctapParseMakeCredential crypto capacity packedAttestation data request).mp h
  unfold validateMakeCredentialRequest at hvalid
  split_ifs at hvalid with hmissing hempty hparams hes256
  obtain ⟨⟨hhash, hrpId⟩, huser⟩ : (request.hasClientDataHash = true ∧ request.rpId ≠ []) ∧
      request.hasUserId = true := by
    simpa using hmissing
  obtain ⟨hclientDataHash, hhashLength⟩ := clientDataHash_makeCredential h hhash
  obtain ⟨hrp, hrpIdText⟩ := rpId_makeCredential h hrpId
  obtain ⟨huserId, huserIdLength⟩ := userId_makeCredential h huser
  exact
    { clientDataHash := hclientDataHash
      clientDataHashLength := hhashLength
      rpId := hrp
      rpIdText := hrpIdText
      userId := huserId
      userIdLength := ⟨List.length_pos_iff.mpr (by simpa using hempty), huserIdLength⟩
      pubkeyCredParams := pubkeyCredParams_makeCredential h (by simpa using hes256)
      excludeList := descriptorListFrom (makeCredential_member h (show 5 < 16 by decide)
        (·.excludeList) (fun _ ↦ rfl)
        (fun list bytes ↦ ∃ elements, IsArrayOf bytes elements ∧
          DescriptorDigests crypto capacity elements list)
        (reads_parseDescriptorArray.returning fun _ _ hfound ↦ hfound)) }

theorem wellFormed_getAssertion {request : ParsedGetAssertion}
    (h : ctapParseGetAssertion crypto capacity data = .ok request) :
    WellFormedGetAssertion crypto capacity data request := by
  obtain ⟨-, -, -, -, hvalid⟩ :=
    (parsesMap_ctapParseGetAssertion crypto capacity data request).mp h
  unfold validateGetAssertionRequest at hvalid
  split_ifs at hvalid with hmissing
  obtain ⟨hrpId, hhash⟩ : request.assertion.rpId ≠ [] ∧ request.hasClientDataHash = true := by
    simpa using hmissing
  have hrpIdPart := getAssertion_member h (show 1 < 16 by decide) (·.assertion.rpId)
    (fun _ ↦ rfl) (fun rpId bytes ↦ bytes = textItem rpId ∧ TextField rpId maxRpIdLen)
    ((reads_cborReadTextCopy _).returning fun _ _ hfound ↦ hfound)
  have hhashPart := getAssertion_member h (show 2 < 16 by decide)
    (fun request ↦ (request.hasClientDataHash, request.assertion.clientDataHash)) (fun _ ↦ rfl)
    HashFrom
    ((reads_cborReadBytesCopy _).andThen fun hash bytes hbytes ↦ Reads.refused fun hlength ↦
      reads_pure ⟨rfl, fun _ ↦ ⟨hbytes.1, by simpa using hlength⟩⟩)
  obtain ⟨hclientDataHash, hhashLength⟩ := hashFrom_member hhash hhashPart
  obtain ⟨-, hempty⟩ | ⟨_, hmember, rfl, htext⟩ := hrpIdPart
  · exact absurd hempty hrpId
  · exact
      { rpId := hmember
        rpIdText := isRpId_of_textField htext hrpId
        clientDataHash := hclientDataHash
        clientDataHashLength := hhashLength
        allowList := descriptorListFrom (getAssertion_member h (show 3 < 16 by decide)
          (·.allowList) (fun _ ↦ rfl)
          (fun list bytes ↦ ∃ elements, IsArrayOf bytes elements ∧
            DescriptorDigests crypto capacity elements list)
          (reads_parseDescriptorArray.returning fun _ _ hfound ↦ hfound)) }

end Requests

/-- A request that one of the parsers accepts is well formed, and its parts are those of the input:
the RP id, the hash, the user id, an element of `pubKeyCredParams` for ES256, and the digests of
the public-key descriptors in their order. -/
theorem accepted_requests_well_formed (crypto : Crypto) (capacity : ℕ) (packedAttestation : Bool)
    (data : Bytes) :
    (∀ request, ctapParseMakeCredential crypto capacity packedAttestation data = .ok request →
      WellFormedMakeCredential crypto capacity data request) ∧
    (∀ request, ctapParseGetAssertion crypto capacity data = .ok request →
      WellFormedGetAssertion crypto capacity data request) :=
  ⟨fun _ h ↦ wellFormed_makeCredential h, fun _ h ↦ wellFormed_getAssertion h⟩

/-- The requests of a user with the id 1 at the RP `a`, which excludes and allows the id 7. -/
theorem accepted_requests_well_formed_a :
    (∃ request, WellFormedMakeCredential Crypto.standIn 1
      ([0xA5, 0x01] ++ bytesItem (zeroBytes 32) ++
        [0x02, 0xA1] ++ textItem "id".toUTF8.toList ++ textItem "a".toUTF8.toList ++
        [0x03, 0xA1] ++ textItem "id".toUTF8.toList ++ bytesItem [1] ++
        [0x04, 0x81, 0xA2] ++ textItem "alg".toUTF8.toList ++ intBytes (-7) ++
          textItem "type".toUTF8.toList ++ textItem "public-key".toUTF8.toList ++
        [0x05, 0x81, 0xA2] ++ textItem "id".toUTF8.toList ++ bytesItem [7] ++
          textItem "type".toUTF8.toList ++ textItem "public-key".toUTF8.toList) request) ∧
    ∃ request, WellFormedGetAssertion Crypto.standIn 1
      ([0xA3, 0x01] ++ textItem "a".toUTF8.toList ++ [0x02] ++ bytesItem (zeroBytes 32) ++
        [0x03, 0x81, 0xA2] ++ textItem "id".toUTF8.toList ++ bytesItem [7] ++
          textItem "type".toUTF8.toList ++ textItem "public-key".toUTF8.toList) request :=
  ⟨⟨{ initialMakeCredential with
        hasClientDataHash := true
        rpId := "a".toUTF8.toList
        userId := [1]
        hasUserId := true
        hasPubkeyCredParams := true
        es256Supported := true
        excludeList := [7 :: zeroBytes 31] },
      (accepted_requests_well_formed Crypto.standIn 1 true _).1 _ (by decide +kernel)⟩,
    { initialGetAssertion with
      hasClientDataHash := true
      assertion := { initialGetAssertion.assertion with rpId := "a".toUTF8.toList }
      allowList := [7 :: zeroBytes 31] },
    (accepted_requests_well_formed Crypto.standIn 1 true _).2 _ (by decide +kernel)⟩

end ZeroFido.Ctap
