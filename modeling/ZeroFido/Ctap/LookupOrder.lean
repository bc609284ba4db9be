import ZeroFido.Ctap.Policy
import Mathlib.Data.List.Nodup

/-!
# The order of lookups

Both lookups of the store insert the positions they find into a list from the newest credential to
the oldest. When no two credentials in use have one id, the comparison decides between any two of
them, so that the list is determined by the set of credentials: it does not depend on where they
stand in the index. `lookup_order` says so, and that the assertion policy thins the list out in
place.
-/

set_option autoImplicit false
set_option relaxedAutoImplicit false

namespace ZeroFido.Ctap

open Foundations Storage Store

section Totality

/-- The first credential is newer, and of two created in one second the one with the greater id. -/
def Newer (first second : CredentialIndexEntry) : Prop :=
  second.createdAt < first.createdAt ∨
    second.createdAt = first.createdAt ∧ second.credentialId < first.credentialId

theorem memcmpGreater_iff (left right : Bytes) : memcmpGreater left right = true ↔ right < left := by
  induction left generalizing right with
  | nil => simp [memcmpGreater]
  | cons byte left ih =>
    cases right with
    | nil => simp [memcmpGreater]
    | cons other right =>
      rw [memcmpGreater, List.cons_lt_cons_iff]
      by_cases hsame : byte = other
      · subst hsame
        simp [ih]
      · simp [hsame, Ne.symm hsame]

theorem indexIsNewer_iff (first second : CredentialIndexEntry) :
    indexIsNewer first second = true ↔ Newer first second := by
  unfold indexIsNewer Newer
  by_cases hsame : first.createdAt = second.createdAt
  · rw [if_neg (by simpa using hsame), memcmpGreater_iff]
    simp [hsame]
  · rw [if_pos hsame, decide_eq_true_eq]
    simp [Ne.symm hsame]

theorem lt_or_lt_of_bytes_ne {left right : Bytes} (h : left ≠ right) :
    left < right ∨ right < left := by
  induction left generalizing right with
  | nil =>
    cases right with
    | nil => exact absurd rfl h
    | cons other right => exact Or.inl (List.nil_lt_cons other right)
  | cons byte left ih =>
    cases right with
    | nil => exact Or.inr (List.nil_lt_cons byte left)
    | cons other right =>
      rw [List.cons_lt_cons_iff, List.cons_lt_cons_iff]
      by_cases hsame : byte = other
      · subst hsame
        have htails : left ≠ right := fun heq ↦ h (by rw [heq])
        exact (ih htails).imp (fun hless ↦ Or.inr ⟨rfl, hless⟩) fun hless ↦ Or.inr ⟨rfl, hless⟩
      · exact (UInt8.lt_or_lt_of_ne hsame).imp Or.inl Or.inl

/-- Of two credentials with different ids one is newer. -/
theorem newer_of_not_newer {first second : CredentialIndexEntry}
    (hids : first.credentialId ≠ second.credentialId)
    (h : indexIsNewer second first = false) : Newer first second := by
  have hnot : ¬Newer second first := by
    rw [← indexIsNewer_iff, h]
    exact Bool.false_ne_true
  unfold Newer at hnot ⊢
  rcases lt_trichotomy second.createdAt first.createdAt with hlater | hsame | hearlier
  · exact Or.inl hlater
  · refine Or.inr ⟨hsame, ?_⟩
    rcases lt_or_lt_of_bytes_ne hids with hgreater | hless
    · exact absurd (Or.inr ⟨hsame.symm, hgreater⟩) hnot
    · exact hless
  · exact absurd (Or.inl hearlier) hnot

theorem Newer.asymm {first second : CredentialIndexEntry} (h : Newer first second) :
    ¬Newer second first := by
  have hnewer := (indexIsNewer_iff first second).mpr h
  have hnot := weakOrder_indexIsNewer.asymm first second hnewer
  rw [← indexIsNewer_iff, hnot]
  exact Bool.false_ne_true

end Totality

section Lookups

/-- No two credentials in use have one id. -/
def DistinctIds (store : CredentialStore) : Prop :=
  ((store.filter CredentialIndexEntry.inUse).map CredentialIndexEntry.credentialId).Nodup

/-- A list of positions is what a lookup for `keep` is to return: each position with a credential
that passes, once, from the newest to the oldest. -/
structure SortedLookup (store : CredentialStore) (keep : CredentialIndexEntry → Bool)
    (found : List ℕ) : Prop where
  nodup : found.Nodup
  mem_iff : ∀ index, index ∈ found ↔ ∃ entry, store[index]? = some entry ∧ keep entry = true
  sorted : found.Pairwise fun first second ↦ Newer (entryAt store first) (entryAt store second)

variable {store store' : CredentialStore} {keep : CredentialIndexEntry → Bool} {maxOut : ℕ}

/-- The credentials that pass the tests of a lookup are in use, so their ids are distinct. -/
theorem DistinctIds.filter (hids : DistinctIds store)
    (hkeep : ∀ entry, keep entry = true → entry.inUse = true) :
    ((store.filter keep).map CredentialIndexEntry.credentialId).Nodup := by
  have hsub : store.filter keep = (store.filter CredentialIndexEntry.inUse).filter keep := by
    rw [List.filter_filter]
    refine List.filter_congr fun entry _ ↦ ?_
    cases hpass : keep entry with
    | false => rfl
    | true => simp [hkeep entry hpass]
  rw [hsub]
  exact hids.sublist (List.filter_sublist.map _)

/-- The credentials a lookup finds, in its order. -/
theorem entries_findBy (hids : DistinctIds store)
    (hkeep : ∀ entry, keep entry = true → entry.inUse = true) (hsize : store.length ≤ maxOut) :
    ((findBy store keep maxOut).map (entryAt store)).Perm (store.filter keep) ∧
      ((findBy store keep maxOut).map (entryAt store)).Pairwise Newer := by
  obtain ⟨hinOrder, hperm⟩ :=
    sorted_foldl_insertLate weakOrder_indexIsNewer List.Pairwise.nil (store.filter keep)
  rw [← map_findBy hsize] at hinOrder hperm
  rw [List.append_nil] at hperm
  have hdistinct := (hperm.map CredentialIndexEntry.credentialId).nodup_iff.mpr
    (hids.filter hkeep)
  refine ⟨hperm, ?_⟩
  have hne := List.pairwise_map.mp hdistinct
  exact hinOrder.imp₂ (fun first second hlate hids ↦ newer_of_not_newer hids hlate) hne

theorem sortedLookup_findBy (hids : DistinctIds store)
    (hkeep : ∀ entry, keep entry = true → entry.inUse = true) (hsize : store.length ≤ maxOut) :
    SortedLookup store keep (findBy store keep maxOut) := by
  obtain ⟨hperm, hsorted⟩ := entries_findBy hids hkeep hsize
  have hnodup : (store.filter keep).Nodup := (hids.filter hkeep).of_map _
  constructor
  · exact (hperm.nodup_iff.mpr hnodup).of_map _
  · intro index
    refine ⟨mem_findBy, ?_⟩
    rintro ⟨entry, hentry, hpass⟩
    exact mem_findBy_of_getElem? hsize hentry hpass
  · exact List.pairwise_map.mp hsorted

/-- What a lookup finds does not depend on the order of the index. -/
theorem entries_findBy_perm (hids : DistinctIds store) (hperm : store'.Perm store)
    (hkeep : ∀ entry, keep entry = true → entry.inUse = true) (hsize : store.length ≤ maxOut) :
    (findBy store' keep maxOut).map (entryAt store') =
      (findBy store keep maxOut).map (entryAt store) := by
  have hids' : DistinctIds store' :=
    (((hperm.filter CredentialIndexEntry.inUse).map _).nodup_iff).mpr hids
  obtain ⟨hfound, hsorted⟩ := entries_findBy hids hkeep hsize
  obtain ⟨hfound', hsorted'⟩ := entries_findBy hids' hkeep (hperm.length_eq.trans_le hsize)
  refine List.Perm.eq_of_pairwise ?_ hsorted' hsorted ?_
  · exact fun first second _ _ hnewer holder ↦ absurd holder hnewer.asymm
  · exact hfound'.trans ((hperm.filter keep).trans hfound.symm)

/-- The ids of the credentials at these positions. -/
def idsAt (store : CredentialStore) (found : List ℕ) : List Bytes :=
  found.map fun index ↦ (entryAt store index).credentialId

theorem idsAt_findBy_perm (hids : DistinctIds store) (hperm : store'.Perm store)
    (hkeep : ∀ entry, keep entry = true → entry.inUse = true) (hsize : store.length ≤ maxOut) :
    idsAt store' (findBy store' keep maxOut) = idsAt store (findBy store keep maxOut) := by
  have hentries := entries_findBy_perm hids hperm hkeep hsize
  have hmapped := congrArg (List.map CredentialIndexEntry.credentialId) hentries
  rw [List.map_map, List.map_map] at hmapped
  exact hmapped

/-- Both lookups return each credential that matches once, from the newest to the oldest, and list
the same ids however the index is ordered. The assertion policy returns those of them that
credProtect allows, in the order of the lookup. -/
theorem lookup_order (crypto : Crypto) (hids : DistinctIds store) :
    (∀ (rpId : Bytes) (filter : CredentialIndexEntry → Bool) (maxOut : ℕ), store.length ≤ maxOut →
      SortedLookup store
        (fun entry ↦ entry.inUse && entry.residentKey && indexEntryMatchesRp crypto entry rpId)
        (findByRp crypto store rpId maxOut) ∧
      SortedLookup store
        (fun entry ↦ entry.inUse && indexEntryMatchesRp crypto entry rpId && filter entry)
        (findByRpFiltered crypto store rpId filter maxOut) ∧
      ∀ store' : CredentialStore, store'.Perm store →
        idsAt store' (findByRp crypto store' rpId maxOut) =
          idsAt store (findByRp crypto store rpId maxOut) ∧
        idsAt store' (findByRpFiltered crypto store' rpId filter maxOut) =
          idsAt store (findByRpFiltered crypto store rpId filter maxOut)) ∧
      ∀ (request : GetAssertionRequest) (uvVerified : Bool) (lookup : List ℕ),
        lookup = (if requestUsesAllowList request then
            findByRpFiltered crypto store request.assertion.rpId
              (storeEntryMatchesDescriptorList crypto request.allowList) maxCredentials
          else findByRp crypto store request.assertion.rpId maxCredentials) →
        (resolveAssertionMatches crypto store request uvVerified).Sublist lookup ∧
          ∀ index, index ∈ resolveAssertionMatches crypto store request uvVerified ↔
            index ∈ lookup ∧ credProtectAllowsAssertion (entryAt store index).credProtect uvVerified
              (requestUsesAllowList request) = true := by
  refine ⟨fun rpId filter maxOut hsize ↦ ?_, ?_⟩
  · have hresident (entry : CredentialIndexEntry) (h : (entry.inUse && entry.residentKey &&
        indexEntryMatchesRp crypto entry rpId) = true) : entry.inUse = true := by
      rw [Bool.and_eq_true, Bool.and_eq_true] at h
      exact h.1.1
    have hfiltered (entry : CredentialIndexEntry) (h : (entry.inUse &&
        indexEntryMatchesRp crypto entry rpId && filter entry) = true) : entry.inUse = true := by
      rw [Bool.and_eq_true, Bool.and_eq_true] at h
      exact h.1.1
    exact ⟨sortedLookup_findBy hids hresident hsize, sortedLookup_findBy hids hfiltered hsize,
      fun store' hperm ↦ ⟨idsAt_findBy_perm hids hperm hresident hsize,
        idsAt_findBy_perm hids hperm hfiltered hsize⟩⟩
  · rintro request uvVerified lookup rfl
    exact ⟨List.filter_sublist, fun index ↦ List.mem_filter⟩

/-- Two resident credentials of one relying party, in both orders. -/
theorem lookup_order_twoCredentials :
    let older : CredentialIndexEntry :=
      { unusedEntry with
        inUse := true, residentKey := true, rpIdHash := Crypto.standIn.sha256 [], createdAt := 1 }
    let newer : CredentialIndexEntry :=
      { older with credentialId := zeroBytes 31 ++ [1], createdAt := 2 }
    DistinctIds [older, newer] ∧ findByRp Crypto.standIn [older, newer] [] 2 = [1, 0] ∧
      idsAt [newer, older] (findByRp Crypto.standIn [newer, older] [] 2) =
        idsAt [older, newer] (findByRp Crypto.standIn [older, newer] [] 2) := by
  intro older newer
  have hids : DistinctIds [older, newer] := by
    unfold DistinctIds
    decide
  refine ⟨hids, by decide, ?_⟩
  exact (((lookup_order Crypto.standIn hids).1 [] (fun _ ↦ true) 2 (by decide)).2.2 _
    (List.Perm.swap ..)).1

end Lookups

end ZeroFido.Ctap
