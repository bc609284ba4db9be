import ZeroFido.Ctap.ParseRequests

/-!
# The limits of a makeCredential request

What a parser returns satisfies what each of its steps establishes (`Returns`). A request that
`zf_ctap_parse_make_credential` accepts has texts and an id that fit a credential record
(`withinLimits_of_parse`).
-/

set_option autoImplicit false
set_option relaxedAutoImplicit false

namespace ZeroFido.Ctap

open Cbor Store

section Returns

variable {Value Next State : Type} {parser : Parser Value} {post : Value → Prop}

/-- Every value that the parser returns has the property. -/
def Returns (parser : Parser Value) (post : Value → Prop) : Prop :=
  ∀ cursor value rest, parser.run cursor = .ok (value, rest) → post value

theorem returns_pure {value : Value} (h : post value) : Returns (pure value) post := by
  intro cursor value' rest hrun
  obtain ⟨rfl, -⟩ := Prod.mk.inj (Except.ok.inj hrun)
  exact h

theorem returns_throw (status : CtapStatus) : Returns (throw status) post :=
  fun _ _ _ hrun ↦ absurd (show (Except.error status : Except CtapStatus (Value × Bytes)) = _
    from hrun) (by simp)

theorem Returns.bind {next : Value → Parser Next} {post' : Next → Prop} (h : Returns parser post)
    (hnext : ∀ value, post value → Returns (next value) post') : Returns (parser >>= next) post' := by
  intro cursor value rest hrun
  rw [StateT.run_bind] at hrun
  cases hfirst : parser.run cursor with
  | error status =>
    rw [hfirst] at hrun
    exact absurd (show (Except.error status : Except CtapStatus (Next × Bytes)) = _ from hrun)
      (by simp)
  | ok result =>
    obtain ⟨middle, after⟩ := result
    rw [hfirst] at hrun
    exact hnext middle (h cursor middle after hfirst) after value rest hrun

/-- A step of which nothing need be known. -/
theorem Returns.after {next : Value → Parser Next} {post' : Next → Prop}
    (hnext : ∀ value, Returns (next value) post') : Returns (parser >>= next) post' :=
  Returns.bind (show Returns parser fun _ ↦ True from fun _ _ _ _ ↦ trivial) fun value _ ↦
    hnext value

theorem returns_refuseIf (condition : Bool) (status : CtapStatus) :
    Returns (refuseIf condition status) fun _ ↦ condition = false := by
  unfold refuseIf
  by_cases h : condition
  · rw [if_pos h]
    exact returns_throw status
  · rw [if_neg h]
    exact returns_pure (by simpa using h)

theorem returns_repeated {invariant : State → Prop} {turn : State → Parser State}
    (h : ∀ state, invariant state → Returns (turn state) invariant) (count : ℕ) (state : State)
    (hstate : invariant state) : Returns (repeated turn count state) invariant := by
  induction count generalizing state with
  | zero => exact returns_pure hstate
  | succ count ih => exact (h state hstate).bind ih

theorem returns_cborRead {read : Bytes → Option (Value × Bytes)}
    (h : ∀ cursor value rest, read cursor = some (value, rest) → post value) :
    Returns (cborRead read) post := by
  intro cursor value rest hrun
  cases hread : read cursor with
  | none =>
    rw [run_cborRead_of_none hread] at hrun
    exact absurd hrun (by simp)
  | some result =>
    rw [run_cborRead_of_some hread] at hrun
    obtain rfl := Except.ok.inj hrun
    exact h cursor value rest hread

/-- A text that was copied fits its buffer. -/
theorem returns_cborReadTextCopy (outSize : ℕ) :
    Returns (cborRead (cborReadTextCopy · outSize)) (TextField · outSize) := by
  refine returns_cborRead fun cursor text rest hread ↦ ?_
  unfold cborReadTextCopy at hread
  cases htext : readText cursor with
  | none => simp [htext] at hread
  | some result =>
    obtain ⟨found, after⟩ := result
    simp only [htext] at hread
    split_ifs at hread with hrefused
    obtain ⟨rfl, rfl⟩ := Prod.mk.inj (Option.some.inj hread)
    rw [not_or, not_le] at hrefused
    exact ⟨hrefused.1, hrefused.2, utf8IsValid_of_readText htext⟩

theorem returns_cborReadBytesCopy (outCapacity : ℕ) :
    Returns (cborRead (cborReadBytesCopy · outCapacity)) fun data ↦ data.length ≤ outCapacity := by
  refine returns_cborRead fun cursor data rest hread ↦ ?_
  unfold cborReadBytesCopy at hread
  cases hdata : readBytes cursor with
  | none => simp [hdata] at hread
  | some result =>
    obtain ⟨found, after⟩ := result
    simp only [hdata] at hread
    split_ifs at hread with hlarge
    obtain ⟨rfl, -⟩ := Prod.mk.inj (Option.some.inj hread)
    exact not_lt.mp hlarge

end Returns

section Limits

/-- The fields of a request fit a credential record. -/
structure MakeCredentialRequest.Fits (request : MakeCredentialRequest) : Prop where
  rpId : TextField request.rpId maxRpIdLen
  userId : request.userId.length ≤ maxUserIdLen
  userName : TextField request.userName maxUserNameLen
  userDisplayName : TextField request.userDisplayName maxDisplayNameLen
  credProtect : request.hasCredProtect = true →
    credProtectValueIsValid request.credProtect = true

/-- The limits that the request parser checks. -/
structure MakeCredentialRequest.WithinLimits (request : MakeCredentialRequest) : Prop
    extends request.Fits where
  rpId_ne : request.rpId ≠ []

variable {crypto : Crypto} {capacity : ℕ} {packedAttestation : Bool}

theorem returns_parseRpField (fields : RpFields) (h : TextField fields.rpId maxRpIdLen) :
    Returns (parseRpField fields) fun fields ↦ TextField fields.rpId maxRpIdLen := by
  refine Returns.after fun key ↦ ?_
  split
  · exact Returns.after fun _ ↦ Returns.after fun _ ↦ returns_pure h
  · exact Returns.after fun _ ↦ Returns.after fun _ ↦ returns_pure h
  · exact Returns.after fun _ ↦ (returns_cborReadTextCopy _).bind fun _ hrpId ↦ returns_pure hrpId
  · exact Returns.after fun _ ↦ returns_pure h

/-- What has been read of the user fits. -/
structure UserFields.Fits (fields : UserFields) : Prop where
  userId : fields.userId.length ≤ maxUserIdLen
  userName : TextField fields.userName maxUserNameLen
  userDisplayName : TextField fields.userDisplayName maxDisplayNameLen

theorem returns_parseUserField (fields : UserFields) (h : fields.Fits) :
    Returns (parseUserField fields) UserFields.Fits := by
  refine Returns.after fun key ↦ ?_
  split
  · exact Returns.after fun _ ↦ (returns_cborReadBytesCopy _).bind fun _ huserId ↦
      returns_pure { h with userId := huserId }
  · exact Returns.after fun _ ↦ (returns_cborReadTextCopy _).bind fun _ huserName ↦
      returns_pure { h with userName := huserName }
  · exact Returns.after fun _ ↦ (returns_cborReadTextCopy _).bind fun _ huserDisplayName ↦
      returns_pure { h with userDisplayName := huserDisplayName }
  · exact Returns.after fun _ ↦ Returns.after fun _ ↦ returns_pure { h with }
  · exact Returns.after fun _ ↦ returns_pure h

theorem returns_parseMakeCredentialExtension (fields : MakeCredentialExtensions)
    (h : fields.hasCredProtect = true → credProtectValueIsValid fields.credProtect = true) :
    Returns (parseMakeCredentialExtension fields) fun fields ↦
      fields.hasCredProtect = true → credProtectValueIsValid fields.credProtect = true := by
  refine Returns.after fun key ↦ ?_
  split
  · exact Returns.after fun _ ↦ Returns.after fun _ ↦ (returns_refuseIf _ _).bind fun _ hvalid ↦
      returns_pure fun _ ↦ by simpa using hvalid
  · exact Returns.after fun _ ↦ Returns.after fun _ ↦ returns_pure h
  · exact Returns.after fun _ ↦ returns_pure h

/-- Each key leaves the request within its limits. -/
theorem returns_parseMakeCredentialField (crypto : Crypto) (capacity : ℕ)
    (packedAttestation : Bool) (key : ℕ) (request : ParsedMakeCredential)
    (h : request.toMakeCredentialRequest.Fits) :
    Returns (parseMakeCredentialField crypto capacity packedAttestation key request)
      (·.toMakeCredentialRequest.Fits) := by
  unfold parseMakeCredentialField
  split
  · exact Returns.after fun _ ↦ Returns.after fun _ ↦ returns_pure { h with }
  · exact Returns.after fun pairs ↦ (returns_repeated returns_parseRpField pairs _ h.rpId).bind
      fun _ hrpId ↦ returns_pure { h with rpId := hrpId }
  · refine Returns.after fun pairs ↦ (returns_repeated returns_parseUserField pairs _
      ⟨h.userId, h.userName, h.userDisplayName⟩).bind fun _ huser ↦ returns_pure ?_
    exact { h with
      userId := huser.userId
      userName := huser.userName
      userDisplayName := huser.userDisplayName }
  · exact Returns.after fun _ ↦ returns_pure { h with }
  · exact Returns.after fun _ ↦ returns_pure { h with }
  · exact Returns.after fun pairs ↦ (returns_repeated returns_parseMakeCredentialExtension pairs _
      h.credProtect).bind fun _ hprotect ↦ returns_pure { h with credProtect := hprotect }
  · exact Returns.after fun _ ↦ returns_pure { h with }
  · exact Returns.after fun _ ↦ returns_pure { h with }
  · exact Returns.after fun _ ↦ returns_pure { h with }
  · exact Returns.after fun _ ↦ Returns.after fun _ ↦ returns_pure { h with }
  · exact Returns.after fun _ ↦ returns_pure h

/-- The loop over fields keeps what every field keeps. -/
theorem returns_parseFields {Request : Type} {field : ℕ → Request → Parser Request}
    {invariant : Request → Prop}
    (h : ∀ key request, invariant request → Returns (field key request) invariant) (pairs : ℕ)
    (seenKeys : List ℕ) (request : Request) (hrequest : invariant request) :
    Returns (parseFields field pairs seenKeys request) invariant := by
  induction pairs generalizing seenKeys request with
  | zero => exact returns_pure hrequest
  | succ pairs ih =>
    refine Returns.after fun key ↦ ?_
    split
    · exact returns_throw _
    · exact (h key request hrequest).bind fun request hrequest ↦ ih _ request hrequest

theorem fits_initialMakeCredential : initialMakeCredential.toMakeCredentialRequest.Fits where
  rpId := show TextField [] maxRpIdLen from ⟨by decide, by decide, by decide⟩
  userId := Nat.zero_le _
  userName := show TextField [] maxUserNameLen from ⟨by decide, by decide, by decide⟩
  userDisplayName := show TextField [] maxDisplayNameLen from ⟨by decide, by decide, by decide⟩
  credProtect := by simp [initialMakeCredential]

/-- A request that the parser accepts is within the limits. -/
theorem withinLimits_of_parse {data : Bytes} {request : MakeCredentialRequest}
    (h : (ctapParseMakeCredential crypto capacity packedAttestation data).map
      (·.toMakeCredentialRequest) = .ok request) : request.WithinLimits := by
  obtain ⟨parsed, hparsed, rfl⟩ : ∃ parsed, ctapParseMakeCredential crypto capacity
      packedAttestation data = .ok parsed ∧ parsed.toMakeCredentialRequest = request := by
    cases hparse : ctapParseMakeCredential crypto capacity packedAttestation data with
    | error status => simp [hparse, Except.map] at h
    | ok parsed =>
      rw [hparse] at h
      exact ⟨parsed, rfl, Except.ok.inj h⟩
  obtain ⟨count, cursor, -, hrun, hvalid⟩ :=
    (parsesMap_ctapParseMakeCredential crypto capacity packedAttestation data parsed).mp hparsed
  have hfits : parsed.toMakeCredentialRequest.Fits := by
    cases hresult : (parseFields (parseMakeCredentialField crypto capacity packedAttestation) count
        [] initialMakeCredential).run cursor with
    | error status => simp [hresult, Except.toOption] at hrun
    | ok result =>
      rw [hresult] at hrun
      obtain rfl := Option.some.inj hrun
      exact returns_parseFields (returns_parseMakeCredentialField crypto capacity packedAttestation)
        count [] initialMakeCredential fits_initialMakeCredential cursor parsed [] hresult
  refine ⟨hfits, fun hempty ↦ ?_⟩
  unfold validateMakeCredentialRequest at hvalid
  simp [hempty] at hvalid

end Limits

end ZeroFido.Ctap
