import ZeroFido.Ctap.ResponseForm

/-!
# The form of the assertion response

The builder of the assertion response writes the number of credentials whether or not the names of
the user found room, and lets its success stand for theirs. `Masked` is when that happens: what is
then in the buffer is not a map (`not_responseMap_of_masked`).

`response_builders_form` is the form of the bodies of all four builders.
-/

set_option autoImplicit false
set_option relaxedAutoImplicit false

namespace ZeroFido.Ctap

open Cbor Store

section Masked

variable (record : CredentialRecord) (authDataLen signatureLen : ℕ)
  (includeUserDetails includeCount : Bool) (matchCount : UInt32) (emitUserSelected : Bool)
  (outCapacity : UInt32)

/-- The length of the members up to the id of the user. -/
def assertionHeadLength : ℕ :=
  29 + (headRoom record.credentialId.length + record.credentialId.length) +
    (headRoom authDataLen + authDataLen) + (headRoom signatureLen + signatureLen) +
    (headRoom record.userId.length + record.userId.length)

/-- The members behind the names: the number of credentials and, unless it is left out, the key that
says that the user selected one. -/
def assertionTail : List Primitive :=
  [.uint 5, .uint matchCount.toNat] ++ onlyIf emitUserSelected [.uint 6, .bool true]

/-- The number of credentials is asked for, and there is room for the members up to the id of the
user but not for the names; and behind the part of the names that was written, there is room for the
rest. -/
def Masked : Prop :=
  let room := outCapacity.toNat - assertionHeadLength record authDataLen signatureLen
  let names := textPieces (userDetailTexts record includeUserDetails)
  includeCount = true ∧
    assertionHeadLength record authDataLen signatureLen ≤ outCapacity.toNat ∧
    room < names.flatten.length ∧
    (fitting room names).flatten.length +
      (membersBytes (assertionTail matchCount emitUserSelected)).length ≤ room

instance : Decidable (Masked record authDataLen signatureLen includeUserDetails includeCount
    matchCount emitUserSelected outCapacity) := by
  unfold Masked
  infer_instance

end Masked

section Calls

variable {record : CredentialRecord} {includeUserDetails includeCount : Bool}
  {matchCount : UInt32} {includeUserSelected userSelected : Bool} {authData signature : Bytes}

/-- The pairs of the user. -/
def userPairTrees (record : CredentialRecord) (includeUserDetails : Bool) :
    List (Cbor.Tree × Cbor.Tree) :=
  [(.text (literal "id"), .bytes record.userId)] ++
    onlyIf (includeUserDetails && record.userName ≠ [])
      [(.text (literal "name"), .text record.userName)] ++
    onlyIf (includeUserDetails && record.userDisplayName ≠ [])
      [(.text (literal "displayName"), .text record.userDisplayName)]

/-- The pairs of an assertion response. -/
def assertionPairTrees (record : CredentialRecord) (includeUserDetails includeCount : Bool)
    (matchCount : UInt32) (emitUserSelected : Bool) (authData signature : Bytes) :
    List (UInt64 × Cbor.Tree) :=
  [(1, .map [(.text (literal "id"), .bytes record.credentialId),
      (.text (literal "type"), .text (literal "public-key"))]),
    (2, .bytes authData), (3, .bytes signature),
    (4, .map (userPairTrees record includeUserDetails))] ++
    onlyIf includeCount [(5, .uint matchCount.toUInt64)] ++
    onlyIf emitUserSelected [(6, .bool true)]

/-- The calls for the names. -/
def encodeNames (record : CredentialRecord) (includeUserDetails : Bool) : Call :=
  (encodeAll (onlyIf (includeUserDetails && record.userName ≠ [])
      [.text (literal "name"), .text record.userName])).andThen
    (encodeAll (onlyIf (includeUserDetails && record.userDisplayName ≠ [])
      [.text (literal "displayName"), .text record.userDisplayName]))

/-- The calls up to the id of the user, with the counts that are computed in advance. -/
def encodeAssertionHead (record : CredentialRecord) (includeUserDetails includeCount : Bool)
    (emitUserSelected : Bool) (authData signature : Bytes) : Call :=
  encodeAll (assertionMembers record
    (assertionPairTrees record includeUserDetails includeCount 0 emitUserSelected authData
      signature).length (userPairTrees record includeUserDetails).length authData signature)

theorem encodeAssertion_eq : encodeAssertion record includeUserDetails includeCount matchCount
      includeUserSelected userSelected authData signature =
    (encodeAssertionHead record includeUserDetails includeCount
      (includeUserSelected && userSelected) authData signature).andThen
      (((encodeNames record includeUserDetails).reassign includeCount
        (encodeAll [.uint 5, .uint matchCount.toNat])).andThen
        (encodeAll (onlyIf (includeUserSelected && userSelected) [.uint 6, .bool true]))) := by
  unfold encodeAssertion encodeAssertionHead encodeNames assertionPairTrees userPairTrees
  simp only [List.length_append, length_onlyIf, List.length_cons, List.length_nil]
  cases (includeUserDetails && decide (record.userName ≠ [])) <;>
    cases (includeUserDetails && decide (record.userDisplayName ≠ [])) <;>
    cases includeCount <;> cases (includeUserSelected && userSelected) <;> rfl

theorem encodeNames_emits :
    (encodeNames record includeUserDetails).Emits
      (textPieces (userDetailTexts record includeUserDetails)) := by
  have hpieces : textPieces (userDetailTexts record includeUserDetails) =
      (onlyIf (includeUserDetails && record.userName ≠ [])
        [Primitive.text (literal "name"), .text record.userName]).flatMap Primitive.pieces ++
      (onlyIf (includeUserDetails && record.userDisplayName ≠ [])
        [Primitive.text (literal "displayName"), .text record.userDisplayName]).flatMap
          Primitive.pieces := by
    simp only [textPieces, userDetailTexts, List.map_append, List.flatMap_append, map_onlyIf,
      List.map_cons, List.map_nil]
  rw [hpieces]
  exact (encodeAll_emits _).andThen (encodeAll_emits _)

theorem length_assertionMembers {pairs userPairs : ℕ} (hpairs : pairs < 24)
    (huser : userPairs < 24) :
    (membersBytes (assertionMembers record pairs userPairs authData signature)).length =
      assertionHeadLength record authData.length signature.length := by
  have hid : (stringBytes majorText (literal "id")).length = 3 := by decide +kernel
  have htype : (stringBytes majorText (literal "type")).length = 5 := by decide +kernel
  have hkey : (stringBytes majorText (literal "public-key")).length = 11 := by decide +kernel
  have hsmall {major value : ℕ} (h : value < 24) : (headBytes major value).length = 1 := by
    rw [length_headBytes, headRoom, if_pos h]
  have hbytes (data : Bytes) :
      (stringBytes majorBytes data).length = headRoom data.length + data.length := by
    rw [stringBytes, List.length_append, length_headBytes]
  simp only [assertionMembers, membersBytes_cons, membersBytes_nil, Primitive.encoding,
    List.length_append, List.length_nil, hid, htype, hkey, hbytes, hsmall hpairs, hsmall huser,
    @hsmall majorUint 1 (by decide), @hsmall majorMap 2 (by decide),
    @hsmall majorUint 2 (by decide), @hsmall majorUint 3 (by decide),
    @hsmall majorUint 4 (by decide), assertionHeadLength]
  omega

theorem length_userPairTrees : (userPairTrees record includeUserDetails).length < 24 := by
  simp only [userPairTrees, List.length_append, length_onlyIf, List.length_singleton]
  split_ifs <;> omega

theorem length_assertionPairTrees {emitUserSelected : Bool} :
    (assertionPairTrees record includeUserDetails includeCount matchCount emitUserSelected authData
      signature).length < 24 := by
  simp only [assertionPairTrees, List.length_append, length_onlyIf, List.length_cons,
    List.length_nil]
  split_ifs <;> omega

variable {emitUserSelected : Bool} {enc : EncoderBuffer} {outCapacity : UInt32}

/-- The bytes up to the id of the user. -/
def assertionHeadBytes (record : CredentialRecord) (includeUserDetails includeCount : Bool)
    (emitUserSelected : Bool) (authData signature : Bytes) : Bytes :=
  membersBytes (assertionMembers record
    (assertionPairTrees record includeUserDetails includeCount 0 emitUserSelected authData
      signature).length (userPairTrees record includeUserDetails).length authData signature)

/-- What the calls up to the id of the user do on a fresh encoder. -/
theorem encodeAssertionHead_fresh (hoffset : enc.offset = 0) (hempty : enc.written = [])
    (hcapacity : enc.capacity = outCapacity.toNat) :
    ((encodeAssertionHead record includeUserDetails includeCount emitUserSelected authData
        signature enc).1 = true ↔
      assertionHeadLength record authData.length signature.length ≤ outCapacity.toNat) ∧
    ((encodeAssertionHead record includeUserDetails includeCount emitUserSelected authData
        signature enc).1 = true →
      ∃ head, encodeAssertionHead record includeUserDetails includeCount emitUserSelected authData
          signature enc = (true, head) ∧
        head.written = assertionHeadBytes record includeUserDetails includeCount emitUserSelected
          authData signature ∧
        head.capacity = outCapacity.toNat ∧
        head.offset = assertionHeadLength record authData.length signature.length) := by
  have hlength : (assertionHeadBytes record includeUserDetails includeCount emitUserSelected
      authData signature).length = assertionHeadLength record authData.length signature.length :=
    length_assertionMembers length_assertionPairTrees length_userPairTrees
  have hemits := encodeAll_emits (assertionMembers record
    (assertionPairTrees record includeUserDetails includeCount 0 emitUserSelected authData
      signature).length (userPairTrees record includeUserDetails).length authData signature)
    enc (by omega)
  have hsuccess := hemits.success
  rw [flatten_pieces, hoffset, hcapacity, Nat.zero_add] at hsuccess
  refine ⟨hsuccess.trans (by rw [← hlength]; rfl), fun h ↦ ?_⟩
  obtain ⟨hwritten, hcapacity', -⟩ := (encodeAll_yields _) enc (by omega) h
  rw [hempty, List.nil_append] at hwritten
  refine ⟨_, Prod.ext h rfl, hwritten, hcapacity'.trans hcapacity, ?_⟩
  rw [← EncoderBuffer.length_written, ← hlength]
  exact congrArg List.length hwritten

/-- The calls behind the names. -/
def encodeTail (matchCount : UInt32) (emitUserSelected : Bool) : Call :=
  (encodeAll [.uint 5, .uint matchCount.toNat]).andThen
    (encodeAll (onlyIf emitUserSelected [.uint 6, .bool true]))

theorem encodeTail_emits : ∃ pieces, (encodeTail matchCount emitUserSelected).Emits pieces ∧
    pieces.flatten = membersBytes (assertionTail matchCount emitUserSelected) := by
  refine ⟨_, (encodeAll_emits _).andThen (encodeAll_emits _), ?_⟩
  rw [List.flatten_append, flatten_pieces, flatten_pieces, assertionTail, membersBytes_append]

/-- The names, and then what is written behind them whether or not they found room. -/
theorem behind_names {head : EncoderBuffer} (hinside : head.offset ≤ head.capacity) :
    ((encodeNames record includeUserDetails head).1 = true ↔
      (textPieces (userDetailTexts record includeUserDetails)).flatten.length ≤
        head.capacity - head.offset) ∧
    ((encodeTail matchCount emitUserSelected (encodeNames record includeUserDetails head).2).1 =
        true ↔
      (fitting (head.capacity - head.offset)
          (textPieces (userDetailTexts record includeUserDetails))).flatten.length +
        (membersBytes (assertionTail matchCount emitUserSelected)).length ≤
          head.capacity - head.offset) ∧
    ((encodeTail matchCount emitUserSelected (encodeNames record includeUserDetails head).2).1 =
        true →
      (encodeTail matchCount emitUserSelected
          (encodeNames record includeUserDetails head).2).2.written =
        head.written ++ ((fitting (head.capacity - head.offset)
          (textPieces (userDetailTexts record includeUserDetails))).flatten ++
          membersBytes (assertionTail matchCount emitUserSelected))) := by
  have hnames := @encodeNames_emits record includeUserDetails head hinside
  obtain ⟨pieces, htail, hpieces⟩ := @encodeTail_emits matchCount emitUserSelected
  have hinside' := hnames.inside hinside
  have hbehind := htail _ hinside'
  have hoffset := hnames.offset
  have hcapacity := hnames.capacity
  refine ⟨hnames.success.trans (by omega), ?_, fun hsuccess ↦ ?_⟩
  · rw [hbehind.success, hpieces]
    omega
  · rw [(htail.yields _ hinside' hsuccess).1, hnames.written, hpieces, List.append_assoc]

/-- What is in the buffer when the failure of the names was masked. -/
theorem encodeAssertion_masked (hoffset : enc.offset = 0) (hempty : enc.written = [])
    (hcapacity : enc.capacity = outCapacity.toNat)
    (h : Masked record authData.length signature.length includeUserDetails includeCount matchCount
      (includeUserSelected && userSelected) outCapacity) :
    ∃ after, encodeAssertion record includeUserDetails includeCount matchCount includeUserSelected
        userSelected authData signature enc = (true, after) ∧
      after.written =
        assertionHeadBytes record includeUserDetails includeCount
          (includeUserSelected && userSelected) authData signature ++
        ((fitting (outCapacity.toNat - assertionHeadLength record authData.length signature.length)
          (textPieces (userDetailTexts record includeUserDetails))).flatten ++
        membersBytes (assertionTail matchCount (includeUserSelected && userSelected))) := by
  obtain ⟨rfl, hhead, -, htail⟩ := h
  obtain ⟨hiff, hrun⟩ := @encodeAssertionHead_fresh record includeUserDetails true authData
    signature (includeUserSelected && userSelected) enc outCapacity hoffset hempty hcapacity
  obtain ⟨head, hrun, hwritten, hcapacity', hoffset'⟩ := hrun (hiff.mpr hhead)
  obtain ⟨-, hfits, hbehind⟩ := @behind_names record includeUserDetails matchCount
    (includeUserSelected && userSelected) head (by omega)
  rw [hcapacity', hoffset'] at hfits hbehind
  have hsuccess := hfits.mpr htail
  refine ⟨_, ?_, (hbehind hsuccess).trans (by rw [hwritten])⟩
  rw [encodeAssertion_eq, Call.andThen_of_success (congrArg Prod.fst hrun), hrun]
  exact Prod.ext hsuccess rfl

/-- The bytes of the calls are those of the map. -/
theorem assertionBytes_eq :
    assertionHeadBytes record includeUserDetails includeCount emitUserSelected authData signature ++
      (membersBytes (onlyIf (includeUserDetails && record.userName ≠ [])
          [.text (literal "name"), .text record.userName]) ++
        membersBytes (onlyIf (includeUserDetails && record.userDisplayName ≠ [])
          [.text (literal "displayName"), .text record.userDisplayName]) ++
        membersBytes (onlyIf includeCount [.uint 5, .uint matchCount.toNat]) ++
        membersBytes (onlyIf emitUserSelected [.uint 6, .bool true])) =
    (Cbor.Tree.map ((assertionPairTrees record includeUserDetails includeCount matchCount
      emitUserSelected authData signature).map (Prod.map Cbor.Tree.uint id))).encoding := by
  rw [Cbor.Tree.encoding, List.length_map]
  simp only [assertionHeadBytes, assertionMembers, assertionPairTrees, membersBytes_onlyIf,
    List.map_append, map_onlyIf, List.map_cons, List.map_nil, Prod.map, id_eq,
    pairEncodings_append, pairEncodings_onlyIf, pairEncodings, Cbor.Tree.encoding,
    membersBytes_cons, membersBytes_nil, Primitive.encoding, List.append_assoc, List.append_nil, userPairTrees,
    List.length_append, length_onlyIf, UInt32.toNat_toUInt64]
  rfl

/-- The calls as they would be if a failure of the names ended them. -/
def encodeAssertionChain (record : CredentialRecord) (includeUserDetails includeCount : Bool)
    (matchCount : UInt32) (emitUserSelected : Bool) (authData signature : Bytes) : Call :=
  (encodeAssertionHead record includeUserDetails includeCount emitUserSelected authData
    signature).andThen
    (((encodeNames record includeUserDetails).andThen
      (encodeAll (onlyIf includeCount [.uint 5, .uint matchCount.toNat]))).andThen
      (encodeAll (onlyIf emitUserSelected [.uint 6, .bool true])))

theorem encodeAssertionChain_yields :
    (encodeAssertionChain record includeUserDetails includeCount matchCount emitUserSelected
      authData signature).Yields
    (Cbor.Tree.map ((assertionPairTrees record includeUserDetails includeCount matchCount
      emitUserSelected authData signature).map (Prod.map Cbor.Tree.uint id))).encoding := by
  rw [← assertionBytes_eq]
  exact (encodeAll_yields _).andThen ((((encodeAll_yields _).andThen (encodeAll_yields _)).andThen
    (encodeAll_yields _)).andThen (encodeAll_yields _))

/-- A run in which the names found room too. -/
theorem encodeAssertion_named {head : EncoderBuffer}
    (hhead : encodeAssertionHead record includeUserDetails includeCount
      (includeUserSelected && userSelected) authData signature enc = (true, head))
    (hnames : (encodeNames record includeUserDetails head).1 = true) :
    encodeAssertion record includeUserDetails includeCount matchCount includeUserSelected
        userSelected authData signature enc =
      encodeAssertionChain record includeUserDetails includeCount matchCount
        (includeUserSelected && userSelected) authData signature enc := by
  have hcount : (if includeCount then encodeAll [.uint 5, .uint matchCount.toNat] else done) =
      encodeAll (onlyIf includeCount [.uint 5, .uint matchCount.toNat]) := by
    cases includeCount <;> rfl
  have hsame : (encodeNames record includeUserDetails).reassign includeCount
        (encodeAll [.uint 5, .uint matchCount.toNat]) head =
      (encodeNames record includeUserDetails).andThen
        (encodeAll (onlyIf includeCount [.uint 5, .uint matchCount.toNat])) head := by
    rw [Call.reassign_of_success hnames, hcount]
  rw [encodeAssertion_eq]
  refine Call.andThen_congr ?_
  rw [hhead]
  exact Call.andThen_congr_left hsame

/-- A run that has succeeded has written the map, unless a failure was masked. -/
theorem encodeAssertion_ok {after : EncoderBuffer} {memory : ℕ → UInt8}
    (hinit : EncoderBuffer.init memory outCapacity = some enc)
    (hrun : encodeAssertion record includeUserDetails includeCount matchCount includeUserSelected
      userSelected authData signature enc = (true, after))
    (hunmasked : ¬Masked record authData.length signature.length includeUserDetails includeCount
      matchCount (includeUserSelected && userSelected) outCapacity) :
    IsResponseMap after.written outCapacity (assertionPairTrees record includeUserDetails
      includeCount matchCount (includeUserSelected && userSelected) authData signature) := by
  obtain ⟨hoffset, hempty, hcapacity⟩ := EncoderBuffer.init_eq_some hinit
  have hsuccess := congrArg Prod.fst hrun
  rw [encodeAssertion_eq] at hsuccess
  obtain ⟨hhead, hrest⟩ := Call.andThen_success hsuccess
  obtain ⟨hiff, hwritten⟩ := @encodeAssertionHead_fresh record includeUserDetails includeCount
    authData signature (includeUserSelected && userSelected) enc outCapacity hoffset hempty
    hcapacity
  have hfits := hiff.mp hhead
  obtain ⟨head, hhead', -, hcapacity', hoffset'⟩ := hwritten hhead
  rw [hhead'] at hrest
  obtain ⟨hnames, htail, -⟩ := @behind_names record includeUserDetails matchCount
    (includeUserSelected && userSelected) head (by omega)
  by_cases hnamed : (encodeNames record includeUserDetails head).1 = true
  · rw [encodeAssertion_named hhead' hnamed] at hrun
    obtain ⟨hout, hlength⟩ := encodeAssertionChain_yields.fresh hinit hrun
    refine ⟨hout, ?_, by rwa [hout]⟩
    simp only [assertionPairTrees, List.map_append, map_onlyIf, List.map_cons, List.map_nil]
    cases includeCount <;> cases includeUserSelected && userSelected <;> decide
  · cases includeCount with
    | false =>
      -- without the count, the failure of the names ends the calls
      exact absurd (Call.andThen_success hrest).1 hnamed
    | true =>
      rw [hnames, hcapacity', hoffset', not_le] at hnamed
      have hleft := htail.mp hrest
      rw [hcapacity', hoffset'] at hleft
      exact absurd ⟨rfl, hfits, hnamed, hleft⟩ hunmasked

end Calls

section Defect

variable {record : CredentialRecord} {includeUserDetails emitUserSelected : Bool}
  {matchCount : UInt32} {authData signature : Bytes} {outCapacity : UInt32}

/-- The items up to the pairs of the user. -/
def assertionFrontTrees (record : CredentialRecord) (authData signature : Bytes) : List Cbor.Tree :=
  [.uint 1, .map [(.text (literal "id"), .bytes record.credentialId),
      (.text (literal "type"), .text (literal "public-key"))],
    .uint 2, .bytes authData, .uint 3, .bytes signature, .uint 4]

/-- The items behind the names. -/
def assertionTailTrees (matchCount : UInt32) (emitUserSelected : Bool) : List Cbor.Tree :=
  [.uint 5, .uint matchCount.toUInt64] ++ onlyIf emitUserSelected [.uint 6, .bool true]

theorem assertionHeadBytes_eq {includeCount : Bool} :
    assertionHeadBytes record includeUserDetails includeCount emitUserSelected authData signature =
      headBytes majorMap (assertionPairTrees record includeUserDetails includeCount 0
        emitUserSelected authData signature).length ++
      (encodings (assertionFrontTrees record authData signature) ++
        (headBytes majorMap (userPairTrees record includeUserDetails).length ++
          encodings [.text (literal "id"), .bytes record.userId])) := by
  simp only [assertionHeadBytes, assertionMembers, membersBytes_cons, membersBytes_nil,
    Primitive.encoding, assertionFrontTrees, encodings, Cbor.Tree.encoding, pairEncodings,
    List.append_assoc, List.append_nil]
  rfl

theorem membersBytes_assertionTail : membersBytes (assertionTail matchCount emitUserSelected) =
    encodings (assertionTailTrees matchCount emitUserSelected) := by
  simp only [assertionTail, assertionTailTrees, membersBytes_append, membersBytes_onlyIf,
    membersBytes_cons, membersBytes_nil, Primitive.encoding, encodings_append, encodings_onlyIf,
    encodings, Cbor.Tree.encoding, List.append_nil, UInt32.toNat_toUInt64]
  rfl

/-- The names are two items for each pair of the user but the first. -/
theorem length_userDetailTexts :
    2 * (userPairTrees record includeUserDetails).length =
      2 + (userDetailTexts record includeUserDetails).length := by
  simp only [userPairTrees, userDetailTexts, List.length_append, length_onlyIf,
    List.length_cons, List.length_nil]
  split_ifs <;> rfl

/-- With the count there are seven items before the pairs of the user, then these as one, and then
the items behind the names. -/
theorem length_pairs_with_count :
    2 * (assertionPairTrees record includeUserDetails true 0 emitUserSelected authData
        signature).length =
      7 + ((assertionTailTrees matchCount emitUserSelected).length + 1) := by
  simp only [assertionPairTrees, assertionTailTrees, List.length_append, length_onlyIf,
    List.length_cons, List.length_nil, if_true]
  split_ifs <;> rfl

theorem userDetailTexts_short (hname : record.userName.length < maxUserNameLen)
    (hdisplay : record.userDisplayName.length < maxDisplayNameLen) :
    ∀ text ∈ userDetailTexts record includeUserDetails, text.length < 2 ^ 64 := by
  have hkeys : (literal "name").length = 4 ∧ (literal "displayName").length = 11 := by
    decide +kernel
  unfold maxUserNameLen at hname
  unfold maxDisplayNameLen at hdisplay
  intro text htext
  rcases List.mem_append.mp htext with h | h
  · rcases List.mem_pair.mp (mem_of_mem_onlyIf _ _ h) with rfl | rfl <;> omega
  · rcases List.mem_pair.mp (mem_of_mem_onlyIf _ _ h) with rfl | rfl <;> omega

/-- What is written when a failure was masked is not a map. -/
theorem not_responseMap_of_masked {out : Bytes} {pairs : List (UInt64 × Cbor.Tree)}
    (hname : record.userName.length < maxUserNameLen)
    (hdisplay : record.userDisplayName.length < maxDisplayNameLen)
    (h : Masked record authData.length signature.length includeUserDetails true matchCount
      emitUserSelected outCapacity)
    (hout : out = assertionHeadBytes record includeUserDetails true emitUserSelected authData
        signature ++
      ((fitting (outCapacity.toNat - assertionHeadLength record authData.length signature.length)
          (textPieces (userDetailTexts record includeUserDetails))).flatten ++
        membersBytes (assertionTail matchCount emitUserSelected))) :
    ¬IsResponseMap out outCapacity pairs := by
  intro hmap
  obtain ⟨-, -, hcut, hroom⟩ := h
  rw [membersBytes_assertionTail] at hout hroom
  have hcapacity := outCapacity.toNat_lt
  have hlength := hmap.length
  have hitems : Items 1 out := by
    rw [hmap.encoding] at hlength ⊢
    exact Cbor.Tree.items_encoding (by omega)
  rw [hout, assertionHeadBytes_eq] at hitems hlength
  simp only [List.append_assoc] at hitems
  simp only [List.length_append] at hlength
  have hpairs : ∀ {number : ℕ}, number < 24 → number < 2 ^ 64 := fun h ↦ h.trans (by decide)
  -- the items of the map, those in front of the user's pairs taken off
  have hbody := Items.open_map hitems (hpairs length_assertionPairTrees)
  rw [Nat.add_zero, @length_pairs_with_count record includeUserDetails emitUserSelected matchCount]
    at hbody
  have hfront := @items_encodings (assertionFrontTrees record authData signature) (by omega)
  have huser := hbody.strip hfront
  -- the items of the user's pairs and those behind them, the id taken off
  have hrest := Items.open_map huser (hpairs length_userPairTrees)
  rw [length_userDetailTexts, Nat.add_assoc] at hrest
  have hid := @items_encodings [.text (literal "id"), .bytes record.userId] (by omega)
  have hnames := hrest.strip hid
  have htail := @items_encodings (assertionTailTrees matchCount emitUserSelected) (by omega)
  exact not_items_cut (userDetailTexts_short hname hdisplay) hcut htail hroom hnames

end Defect

section Builders

variable {crypto : Crypto} {record : CredentialRecord}
  {signHash : CredentialRecord → Bytes → Option Bytes} {request : AssertionRequestData}
  {userPresent userVerified includeUserDetails includeCount includeUserSelected userSelected : Bool}
  {signCount matchCount : UInt32} {extensionData authData signature out : Bytes}
  {memory : ℕ → UInt8} {outCapacity : UInt32}

/-- The authenticator data of an assertion, in its parts. -/
def assertionData (crypto : Crypto) (request : AssertionRequestData)
    (userPresent userVerified : Bool) (signCount : UInt32) (extensionData : Bytes) :
    AuthenticatorData where
  rpIdHash := crypto.sha256 request.rpId
  flags := authDataFlags userPresent userVerified false (0 < extensionData.length)
  signCount := signCount
  attested := none
  extensions := extensionData

theorem assertionData_wellFormed (hsha256 : ∀ data, (crypto.sha256 data).length = 32) :
    (assertionData crypto request userPresent userVerified signCount extensionData).WellFormed := by
  obtain ⟨hattested, hextension⟩ :=
    authDataFlags_bits userPresent userVerified false (0 < extensionData.length)
  constructor
  · exact hsha256 request.rpId
  · exact hattested.trans (by simp [assertionData])
  · exact hextension.trans (by simp [assertionData, List.length_pos_iff])
  · intro attested hattested
    cases hattested

theorem assertionAuthData_bytes
    (h : assertionAuthData crypto request userPresent userVerified signCount extensionData =
      some authData) :
    authData =
      (assertionData crypto request userPresent userVerified signCount extensionData).bytes := by
  obtain ⟨attested, hattested, rfl⟩ := buildAuthData_parts h
  obtain rfl : [] = attested := by simpa using hattested
  cases extensionData <;> simp [AuthenticatorData.bytes, assertionData, onlyIf]

theorem length_assertionAuthData (hsha256 : ∀ data, (crypto.sha256 data).length = 32)
    (h : assertionAuthData crypto request userPresent userVerified signCount extensionData =
      some authData) : authData.length = authDataFixedLen + extensionData.length := by
  rw [assertionAuthData_bytes h]
  simp only [AuthenticatorData.bytes, assertionData, List.length_append, List.length_cons,
    length_toBigEndian, Option.elim_none, List.nil_append, hsha256, authDataFixedLen]

/-- When a failure is masked, the builder answers with bytes that are not a map. -/
theorem buildAssertionResponse_masked (hsha256 : ∀ data, (crypto.sha256 data).length = 32)
    (hname : record.userName.length < maxUserNameLen)
    (hdisplay : record.userDisplayName.length < maxDisplayNameLen)
    (hdata : assertionAuthData crypto request userPresent userVerified signCount extensionData =
      some authData)
    (hsign : signHash record (crypto.sha256 (authData ++ request.clientDataHash)) = some signature)
    (h : Masked record (authDataFixedLen + extensionData.length) signature.length includeUserDetails
      includeCount matchCount (includeUserSelected && userSelected) outCapacity) :
    ∃ out, buildAssertionResponse crypto record signHash request userPresent userVerified signCount
        extensionData includeUserDetails includeCount matchCount includeUserSelected userSelected
        memory outCapacity = .ok out ∧ ¬IsAssertionResponse out outCapacity extensionData := by
  rw [← length_assertionAuthData hsha256 hdata] at h
  obtain ⟨hcount, hfits, -⟩ := id h
  have hcapacity : outCapacity ≠ 0 := by
    rintro rfl
    rw [assertionHeadLength] at hfits
    simp at hfits
  obtain ⟨enc, hinit⟩ : ∃ enc, EncoderBuffer.init memory outCapacity = some enc :=
    ⟨_, if_neg hcapacity⟩
  obtain ⟨hoffset, hempty, hsame⟩ := EncoderBuffer.init_eq_some hinit
  obtain ⟨after, hrun, hwritten⟩ := encodeAssertion_masked hoffset hempty hsame h
  refine ⟨after.written, ?_, ?_⟩
  · simp only [buildAssertionResponse, hdata, hsign, hinit, hrun]
  · rintro ⟨pairs, hmap, -⟩
    subst hcount
    exact not_responseMap_of_masked hname hdisplay h hwritten hmap

theorem buildAssertionResponse_unmasked (hsha256 : ∀ data, (crypto.sha256 data).length = 32)
    (hunmasked : ∀ authData signature,
      assertionAuthData crypto request userPresent userVerified signCount extensionData =
        some authData →
      signHash record (crypto.sha256 (authData ++ request.clientDataHash)) = some signature →
      ¬Masked record (authDataFixedLen + extensionData.length) signature.length includeUserDetails
        includeCount matchCount (includeUserSelected && userSelected) outCapacity)
    (h : buildAssertionResponse crypto record signHash request userPresent userVerified signCount
      extensionData includeUserDetails includeCount matchCount includeUserSelected userSelected
      memory outCapacity = .ok out) : IsAssertionResponse out outCapacity extensionData := by
  unfold buildAssertionResponse at h
  cases hdata : assertionAuthData crypto request userPresent userVerified signCount
      extensionData with
  | none => simp [hdata] at h
  | some authData =>
    cases hsign : signHash record (crypto.sha256 (authData ++ request.clientDataHash)) with
    | none => simp [hdata, hsign] at h
    | some signature =>
      cases hinit : EncoderBuffer.init memory outCapacity with
      | none => simp [hdata, hsign, hinit] at h
      | some enc =>
        simp only [hdata, hsign, hinit] at h
        cases hrun : encodeAssertion record includeUserDetails includeCount matchCount
            includeUserSelected userSelected authData signature enc with
        | mk success after =>
          cases success with
          | false => simp [hrun] at h
          | true =>
            obtain rfl : after.written = out := by simpa [hrun] using h
            have hnot := hunmasked authData signature hdata hsign
            rw [← length_assertionAuthData hsha256 hdata] at hnot
            refine ⟨_, encodeAssertion_ok hinit hrun hnot,
              assertionData crypto request userPresent userVerified signCount extensionData,
              assertionData_wellFormed hsha256, ⟨rfl, rfl⟩, ?_⟩
            rw [← assertionAuthData_bytes hdata, assertionPairTrees]
            simp

/-- Whenever they answer with a body, the builders of the getInfo and the two makeCredential
responses have written a map into the buffer, with the authenticator data that its flags announce.
The builder of the assertion response does so for exactly the inputs on which no failure to write
the names of the user is masked. -/
theorem response_builders_form (hsha256 : ∀ data, (crypto.sha256 data).length = 32) :
    (∀ build capabilities clientPinSet memory outCapacity out,
      buildGetInfoResponse build capabilities clientPinSet memory outCapacity = .ok out →
        ∃ pairs, IsResponseMap out outCapacity pairs) ∧
    (∀ rpId record userVerified includeCredProtect includeHmacSecret memory outCapacity out,
      buildNoneMakeCredentialResponse crypto rpId record userVerified includeCredProtect
        includeHmacSecret memory outCapacity = .ok out → IsCredentialResponse out outCapacity) ∧
    (∀ rpId record userVerified includeCredProtect includeHmacSecret attestation clientDataHash
        memory outCapacity out,
      buildPackedMakeCredentialResponse crypto rpId record userVerified includeCredProtect
        includeHmacSecret attestation clientDataHash memory outCapacity = .ok out →
          IsCredentialResponse out outCapacity) ∧
    ∀ (record : CredentialRecord) signHash request userPresent userVerified signCount
      extensionData includeUserDetails includeCount matchCount includeUserSelected userSelected
      memory outCapacity,
      record.userName.length < maxUserNameLen → record.userDisplayName.length < maxDisplayNameLen →
        ((∀ out, buildAssertionResponse crypto record signHash request userPresent userVerified
            signCount extensionData includeUserDetails includeCount matchCount includeUserSelected
            userSelected memory outCapacity = .ok out →
              IsAssertionResponse out outCapacity extensionData) ↔
          ∀ authData signature,
            assertionAuthData crypto request userPresent userVerified signCount extensionData =
              some authData →
            signHash record (crypto.sha256 (authData ++ request.clientDataHash)) =
              some signature →
            ¬Masked record (authDataFixedLen + extensionData.length) signature.length
              includeUserDetails includeCount matchCount (includeUserSelected && userSelected)
              outCapacity) := by
  refine ⟨fun _ _ _ _ _ _ h ↦ buildGetInfoResponse_form _ _ _ h,
    fun _ _ _ _ _ _ _ _ h ↦ buildNoneMakeCredentialResponse_form hsha256 h,
    fun _ _ _ _ _ _ _ _ _ _ h ↦ buildPackedMakeCredentialResponse_form hsha256 h, ?_⟩
  intro record signHash request userPresent userVerified signCount extensionData includeUserDetails
    includeCount matchCount includeUserSelected userSelected memory outCapacity hname hdisplay
  constructor
  · intro hform authData signature hdata hsign hmasked
    obtain ⟨out, hout, hnot⟩ :=
      buildAssertionResponse_masked hsha256 hname hdisplay hdata hsign hmasked
    exact hnot (hform out hout)
  · exact fun hunmasked out h ↦ buildAssertionResponse_unmasked hsha256 hunmasked h

/-- A credential whose user is called "alice", and a signature of 70 bytes. -/
def aliceRecord : CredentialRecord :=
  { credentialId := zeroBytes 32, userId := [0x01], userName := literal "alice" }

def aliceRequest : AssertionRequestData :=
  { clientDataHash := zeroBytes 32, rpId := literal "example.com" }

/-- For a buffer of 186 bytes, the name is cut off behind its head and the builder answers with
success all the same. -/
theorem masked_name_not_responseMap :
    ¬∀ out, buildAssertionResponse Crypto.standIn aliceRecord
        (fun _ _ ↦ some (zeroBytes 70)) aliceRequest true true 1 [] true true 2 false false
        (fun _ ↦ 0) 186 = .ok out → IsAssertionResponse out 186 [] := by
  have hmasked : Masked aliceRecord (authDataFixedLen + 0) 70 true true 2 false 186 := by
    decide +kernel
  obtain ⟨out, hout, hnot⟩ := @buildAssertionResponse_masked Crypto.standIn aliceRecord
    (fun _ _ ↦ some (zeroBytes 70)) aliceRequest true true true true false false 1 2 [] _
    (zeroBytes 70) (fun _ ↦ 0) 186 (fun data ↦ by simp [Crypto.standIn]) (by decide +kernel)
    (by decide +kernel) rfl rfl hmasked
  exact fun hform ↦ hnot (hform out hout)

/-- For a buffer with room for all of it, the response has the name. -/
theorem response_builders_form_alice :
    ¬Masked aliceRecord (authDataFixedLen + 0) 70 true true 2 false 256 ∧
      ∀ out, buildAssertionResponse Crypto.standIn aliceRecord
        (fun _ _ ↦ some (zeroBytes 70)) aliceRequest true true 1 [] true true 2 false false
        (fun _ ↦ 0) 256 = .ok out → IsAssertionResponse out 256 [] := by
  have hunmasked : ¬Masked aliceRecord (authDataFixedLen + 0) 70 true true 2 false 256 := by
    decide +kernel
  refine ⟨hunmasked, ((@response_builders_form Crypto.standIn
    (fun data ↦ by simp [Crypto.standIn])).2.2.2 aliceRecord (fun _ _ ↦ some (zeroBytes 70))
    aliceRequest true true 1 [] true true 2 false false (fun _ ↦ 0) 256 (by decide +kernel)
    (by decide +kernel)).mpr ?_⟩
  intro authData signature _ hsign
  obtain rfl := Option.some.inj hsign
  exact hunmasked

end Builders

end ZeroFido.Ctap
