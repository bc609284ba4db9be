import ZeroFido.Store.Index

/-!
# Credential visibility

`ctap/policy.c` and `ctap/extensions/cred_protect.c`: which credentials a getAssertion request may
use and which ones a makeCredential exclude list can hit. A credential with a protection level that
the request does not reach is to be invisible to both.

Both functions look the candidates up first, in a sorted list of bounded size, and drop the hidden
ones afterwards. `cred_protect_noninterference` says that nothing of the hidden ones is left in the
answer.
-/

set_option autoImplicit false
set_option relaxedAutoImplicit false

namespace ZeroFido.Ctap

open Foundations Storage Store

section Requests

/-- `ZfAssertionRequestData`, without the fields of the hmac-secret extension that only its encoder
reads. -/
structure AssertionRequestData where
  clientDataHash : Bytes
  rpId : Bytes
  hasHmacSecret : Bool := false
  hmacSecretPinProtocol : ℕ := 0
  deriving DecidableEq, Repr

/-- `ZfGetAssertionRequest`. The allow list has the digests of the credential ids. -/
structure GetAssertionRequest where
  assertion : AssertionRequestData
  allowList : List Bytes := []
  up : Bool := false
  hasUp : Bool := false
  uv : Bool := false
  hasUv : Bool := false
  pinAuth : Bytes := []
  pinProtocol : ℕ := 0
  hasPinAuth : Bool := false
  hasPinProtocol : Bool := false
  deriving DecidableEq, Repr

end Requests

section CredProtect

def credProtectUvOptionalWithCredId : ℕ := 2

/-- `zf_ctap_cred_protect_allows_assertion`. -/
def credProtectAllowsAssertion (credProtect : ℕ) (uvVerified usesAllowList : Bool) : Bool :=
  let effective := credProtectEffective credProtect
  if effective = credProtectUvOptional then true
  else if effective = credProtectUvOptionalWithCredId then uvVerified || usesAllowList
  else if effective = credProtectUvRequired then uvVerified
  else false

end CredProtect

section Policy

variable {Event : Type} (crypto : Crypto)

/-- `zf_ctap_request_uses_allow_list`. -/
def requestUsesAllowList (request : GetAssertionRequest) : Bool := !request.allowList.isEmpty

/-- `zf_ctap_descriptor_list_contains_id`. -/
def descriptorListContainsId (list : List Bytes) (credentialId : Bytes) : Bool :=
  if credentialId.length = 0 ∨ credentialIdLen < credentialId.length then false
  else list.contains (crypto.sha256 credentialId)

/-- `zf_ctap_store_entry_matches_descriptor_list`. -/
def storeEntryMatchesDescriptorList (list : List Bytes) (entry : CredentialIndexEntry) : Bool :=
  descriptorListContainsId crypto list entry.credentialId

/-- The loop of `zf_ctap_exclude_list_has_visible_match` over the candidates. A candidate that
cannot be loaded counts as a match. -/
def excludeListVisit (rpId : Bytes) (uvVerified : Bool) :
    List CredentialIndexEntry → Program (World Event) Bool
  | [] => return false
  | entry :: rest => do
    if !uvVerified && entry.credProtect == credProtectUvRequired then
      excludeListVisit rpId uvVerified rest
    else
      match ← loadRecord crypto entry with
      | none => return true
      | some record =>
        if record.rpId = rpId then
          return true
        else
          excludeListVisit rpId uvVerified rest

/-- `zf_ctap_exclude_list_has_visible_match`. -/
def excludeListHasVisibleMatch (store : CredentialStore) (rpId : Bytes) (excludeList : List Bytes)
    (uvVerified : Bool) : Program (World Event) Bool :=
  if excludeList.isEmpty then
    return false
  else
    let found := findByRpFiltered crypto store rpId
      (storeEntryMatchesDescriptorList crypto excludeList) maxCredentials
    excludeListVisit crypto rpId uvVerified (found.map (entryAt store))

/-- The candidates of `zf_ctap_resolve_assertion_matches`. -/
def assertionCandidates (store : CredentialStore) (request : GetAssertionRequest) : List ℕ :=
  if requestUsesAllowList request then
    findByRpFiltered crypto store request.assertion.rpId
      (storeEntryMatchesDescriptorList crypto request.allowList) maxCredentials
  else
    findByRp crypto store request.assertion.rpId maxCredentials

/-- `zf_ctap_credential_is_allowed_by_cred_protect`. -/
def credentialIsAllowedByCredProtect (request : GetAssertionRequest) (uvVerified : Bool)
    (entry : CredentialIndexEntry) : Bool :=
  credProtectAllowsAssertion entry.credProtect uvVerified (requestUsesAllowList request)

/-- `zf_ctap_resolve_assertion_matches`. -/
def resolveAssertionMatches (store : CredentialStore) (request : GetAssertionRequest)
    (uvVerified : Bool) : List ℕ :=
  (assertionCandidates crypto store request).filter fun index ↦
    credentialIsAllowedByCredProtect request uvVerified (entryAt store index)

end Policy

section NonInterference

variable {Event : Type} {crypto : Crypto} {store store' : CredentialStore} {uvVerified : Bool}

/-- A credential that getAssertion must not reveal: without user verification those that require it,
and without an allow list also those that ask for one. -/
def hiddenFromAssertion (uvVerified usesAllowList : Bool) (entry : CredentialIndexEntry) : Bool :=
  !uvVerified && (entry.credProtect == credProtectUvRequired ||
    !usesAllowList && entry.credProtect == credProtectUvOptionalWithCredId)

/-- A credential that an exclude list must not reveal. -/
def hiddenFromExclusion (uvVerified : Bool) (entry : CredentialIndexEntry) : Bool :=
  !uvVerified && entry.credProtect == credProtectUvRequired

/-- Two stores are the same but for hidden credentials at arbitrary positions. -/
def SameBut (hidden : CredentialIndexEntry → Bool) (store store' : CredentialStore) : Prop :=
  store.filter (fun entry ↦ !hidden entry) = store'.filter fun entry ↦ !hidden entry

theorem not_allowed_of_hidden {request : GetAssertionRequest} {entry : CredentialIndexEntry}
    (h : hiddenFromAssertion uvVerified (requestUsesAllowList request) entry = true) :
    credentialIsAllowedByCredProtect request uvVerified entry = false := by
  simp only [hiddenFromAssertion, Bool.and_eq_true, Bool.not_eq_true', Bool.or_eq_true,
    beq_iff_eq] at h
  obtain ⟨huv, hrequired | ⟨hlist, hlevel⟩⟩ := h
  · simp [credentialIsAllowedByCredProtect, credProtectAllowsAssertion, credProtectEffective,
      hrequired, huv, credProtectUvRequired, credProtectUvOptional,
      credProtectUvOptionalWithCredId]
  · simp [credentialIsAllowedByCredProtect, credProtectAllowsAssertion, credProtectEffective,
      hlevel, huv, hlist, credProtectUvOptional,
      credProtectUvOptionalWithCredId]

/-- The visible part of a lookup depends on the visible part of the store only. -/
theorem filter_findBy_eq {hidden : CredentialIndexEntry → Bool} (hsame : SameBut hidden store store')
    (hsize : store.length ≤ maxCredentials) (hsize' : store'.length ≤ maxCredentials)
    (keep : CredentialIndexEntry → Bool) :
    (((findBy store keep maxCredentials).map (entryAt store)).filter fun entry ↦ !hidden entry) =
      ((findBy store' keep maxCredentials).map (entryAt store')).filter
        fun entry ↦ !hidden entry := by
  have hcomm (list : CredentialStore) : (list.filter keep).filter (fun entry ↦ !hidden entry) =
      (list.filter fun entry ↦ !hidden entry).filter keep := by
    rw [List.filter_filter, List.filter_filter]
    exact List.filter_congr fun entry _ ↦ Bool.and_comm _ _
  rw [map_findBy hsize, map_findBy hsize',
    filter_foldl_insertLate weakOrder_indexIsNewer List.Pairwise.nil,
    filter_foldl_insertLate weakOrder_indexIsNewer List.Pairwise.nil, hcomm, hcomm, hsame]

/-- The entries of the matches are the allowed ones among the visible candidates. -/
theorem map_resolveAssertionMatches (store : CredentialStore) (request : GetAssertionRequest)
    (uvVerified : Bool) :
    (resolveAssertionMatches crypto store request uvVerified).map (entryAt store) =
      ((((assertionCandidates crypto store request).map (entryAt store)).filter fun entry ↦
        !hiddenFromAssertion uvVerified (requestUsesAllowList request) entry).filter
          (credentialIsAllowedByCredProtect request uvVerified)) := by
  rw [List.filter_filter, resolveAssertionMatches, List.filter_map]
  congr 1
  refine List.filter_congr fun index _ ↦ ?_
  cases hhidden : hiddenFromAssertion uvVerified (requestUsesAllowList request)
      (entryAt store index) with
  | false => simp [hhidden]
  | true => simp [hhidden, not_allowed_of_hidden hhidden]

theorem resolveAssertionMatches_eq {request : GetAssertionRequest}
    (hsame : SameBut (hiddenFromAssertion uvVerified (requestUsesAllowList request)) store store')
    (hsize : store.length ≤ maxCredentials) (hsize' : store'.length ≤ maxCredentials) :
    (resolveAssertionMatches crypto store request uvVerified).map (entryAt store) =
      (resolveAssertionMatches crypto store' request uvVerified).map (entryAt store') := by
  rw [map_resolveAssertionMatches, map_resolveAssertionMatches]
  unfold assertionCandidates
  split_ifs
  · rw [findByRpFiltered, findByRpFiltered, filter_findBy_eq hsame hsize hsize']
  · rw [findByRp, findByRp, filter_findBy_eq hsame hsize hsize']

/-- The exclude loop never looks at a hidden candidate. -/
theorem excludeListVisit_filter (rpId : Bytes) (uvVerified : Bool)
    (entries : List CredentialIndexEntry) :
    (excludeListVisit crypto rpId uvVerified entries : Program (World Event) Bool) =
      excludeListVisit crypto rpId uvVerified
        (entries.filter fun entry ↦ !hiddenFromExclusion uvVerified entry) := by
  induction entries with
  | nil => rfl
  | cons entry rest ih =>
    rw [List.filter_cons]
    cases hhidden : hiddenFromExclusion uvVerified entry with
    | true =>
      have hskip : (!uvVerified && entry.credProtect == credProtectUvRequired) = true := hhidden
      simp only [excludeListVisit, hskip, if_true, Bool.not_true, Bool.false_eq_true, if_false]
      exact ih
    | false =>
      have hskip : (!uvVerified && entry.credProtect == credProtectUvRequired) = false := hhidden
      simp only [excludeListVisit, hskip, Bool.not_false, if_true, Bool.false_eq_true, if_false, ih]

/-- Two stores with the same visible credentials run the same exclude check. -/
theorem excludeListHasVisibleMatch_eq (hsame : SameBut (hiddenFromExclusion uvVerified) store store')
    (hsize : store.length ≤ maxCredentials) (hsize' : store'.length ≤ maxCredentials)
    (rpId : Bytes) (excludeList : List Bytes) :
    (excludeListHasVisibleMatch crypto store rpId excludeList uvVerified :
        Program (World Event) Bool) =
      excludeListHasVisibleMatch crypto store' rpId excludeList uvVerified := by
  unfold excludeListHasVisibleMatch
  split_ifs
  · rfl
  · dsimp only
    rw [excludeListVisit_filter, findByRpFiltered, filter_findBy_eq hsame hsize hsize',
      ← findByRpFiltered, ← excludeListVisit_filter]

/-- On two devices on which the loads of visible candidates agree, the exclude check agrees. -/
theorem agrees_excludeListVisit {relation : World Event → World Event → Prop} {rpId : Bytes}
    {entries : List CredentialIndexEntry}
    (hload : ∀ entry ∈ entries, hiddenFromExclusion uvVerified entry = false →
      Agrees relation (loadRecord crypto entry) (loadRecord crypto entry)) :
    Agrees relation (excludeListVisit crypto rpId uvVerified entries)
      (excludeListVisit crypto rpId uvVerified entries) := by
  induction entries with
  | nil => exact Agrees.pure false
  | cons entry rest ih =>
    have hrest := ih fun other hother ↦ hload other (List.mem_cons_of_mem _ hother)
    unfold excludeListVisit
    by_cases hhidden : (!uvVerified && entry.credProtect == credProtectUvRequired) = true
    · rw [if_pos hhidden]
      exact hrest
    · rw [if_neg hhidden]
      have hvisible : hiddenFromExclusion uvVerified entry = false := by
        rw [hiddenFromExclusion]
        exact Bool.eq_false_iff.mpr hhidden
      refine (hload entry List.mem_cons_self hvisible).bind fun result ↦ ?_
      cases result with
      | none => exact Agrees.pure true
      | some record =>
        by_cases hrpId : record.rpId = rpId
        · simp only [if_pos hrpId]
          exact Agrees.pure true
        · simp only [if_neg hrpId]
          exact hrest

/-- Hidden credentials do not interfere. Take two stores that are the same but for credentials
hidden at the current verification state, on two devices on which a record loads the same way
whatever other records there are. The matches of every getAssertion request have the same
credentials in the same order, and every exclude list gets the same answer. -/
theorem cred_protect_noninterference {relation : World Event → World Event → Prop}
    {world world' : World Event} (hworld : relation world world')
    (hload : ∀ entry ∈ store, hiddenFromExclusion uvVerified entry = false →
      Agrees relation (loadRecord crypto entry) (loadRecord crypto entry))
    (hsize : store.length ≤ maxCredentials) (hsize' : store'.length ≤ maxCredentials) :
    (∀ request : GetAssertionRequest,
      SameBut (hiddenFromAssertion uvVerified (requestUsesAllowList request)) store store' →
      ((resolveAssertionMatches crypto store request uvVerified).map fun index ↦
          (entryAt store index).credentialId) =
        (resolveAssertionMatches crypto store' request uvVerified).map fun index ↦
          (entryAt store' index).credentialId) ∧
    (∀ (rpId : Bytes) (excludeList : List Bytes),
      SameBut (hiddenFromExclusion uvVerified) store store' →
      resultOf (excludeListHasVisibleMatch crypto store rpId excludeList uvVerified) world =
        resultOf (excludeListHasVisibleMatch crypto store' rpId excludeList uvVerified) world') := by
  constructor
  · intro request hsame
    have hentries : (resolveAssertionMatches crypto store request uvVerified).map
        (entryAt store) = _ := resolveAssertionMatches_eq hsame hsize hsize'
    have hids := congrArg (List.map CredentialIndexEntry.credentialId) hentries
    rw [List.map_map, List.map_map] at hids
    exact hids
  · intro rpId excludeList hsame
    rw [← excludeListHasVisibleMatch_eq hsame hsize hsize' rpId excludeList]
    refine Agrees.resultOf_eq ?_ hworld
    unfold excludeListHasVisibleMatch
    split_ifs
    · exact Agrees.pure false
    · refine agrees_excludeListVisit fun entry hentry ↦ hload entry ?_
      obtain ⟨index, hindex, rfl⟩ := List.mem_map.mp hentry
      obtain ⟨found, hfound, -⟩ := mem_findBy hindex
      rw [entryAt_of_getElem? hfound]
      exact List.mem_of_getElem? hfound

/-- A device with two credentials of the RP `a`, the newer of which requires user verification. -/
def publicAndHidden : World Unit :=
  Process.leaves (writeRecords [sampleRecord 1 1, sampleRecord 2 3]) (World.blank Unit)

/-- A store with the first of them, and the same store with the other one in front: neither the
matches of an assertion nor an exclude list of both shows the difference. -/
theorem cred_protect_noninterference_hiddenNewer :
    let visible := indexEntryFromRecord Crypto.standIn (sampleRecord 1 1)
    let hidden := indexEntryFromRecord Crypto.standIn (sampleRecord 2 3)
    let request : GetAssertionRequest :=
      { assertion := { clientDataHash := zeroBytes 32, rpId := [97] } }
    let excludeList := [visible.credentialId, hidden.credentialId]
    resolveAssertionMatches Crypto.standIn [visible] request false = [0] ∧
      ((resolveAssertionMatches Crypto.standIn [visible] request false).map fun index ↦
          (entryAt [visible] index).credentialId) =
        ((resolveAssertionMatches Crypto.standIn [hidden, visible] request false).map fun index ↦
          (entryAt [hidden, visible] index).credentialId) ∧
      resultOf (excludeListHasVisibleMatch Crypto.standIn [visible] [97] excludeList false)
          publicAndHidden = some true ∧
      resultOf (excludeListHasVisibleMatch Crypto.standIn [visible] [97] excludeList false)
          publicAndHidden =
        resultOf (excludeListHasVisibleMatch Crypto.standIn [hidden, visible] [97] excludeList false)
          publicAndHidden := by
  intro visible hidden request excludeList
  have hload : ∀ entry ∈ [visible], hiddenFromExclusion false entry = false →
      Agrees Eq (loadRecord Crypto.standIn entry : Program (World Unit) _)
        (loadRecord Crypto.standIn entry) := fun entry _ _ ↦ Agrees.refl _
  have hsmall : [visible].length ≤ maxCredentials := by decide
  have hlarge : [hidden, visible].length ≤ maxCredentials := by decide
  obtain ⟨hmatches, hexcluded⟩ := cred_protect_noninterference
    (Eq.refl publicAndHidden) hload hsmall hlarge
  have hassertion : SameBut (hiddenFromAssertion false (requestUsesAllowList request)) [visible]
      [hidden, visible] := by
    unfold SameBut
    decide +kernel
  have hexclusion : SameBut (hiddenFromExclusion false) [visible] [hidden, visible] := by
    unfold SameBut
    decide +kernel
  exact ⟨by decide +kernel, hmatches request hassertion, by decide +kernel,
    hexcluded [97] excludeList hexclusion⟩

end NonInterference

end ZeroFido.Ctap
