import ZeroFido.Foundations.Insertion
import ZeroFido.Store.RecordFile

/-!
# The credential index

The in-memory index of `zerofido_store.c`. `CredentialStore` lists the entries in use of the
array, so its length is the C `count`; the growth of the array is not modelled. The operations that
work on files as well as on the index are programs, the others are functions of the index.

Lookups insert positions into a list sorted from the newest credential to the oldest.
`map_findBy` says which entries such a lookup finds, in which order.
-/

set_option autoImplicit false
set_option relaxedAutoImplicit false

namespace ZeroFido.Store

open Foundations Storage

/-- `ZfCredentialStore`. -/
abbrev CredentialStore := List CredentialIndexEntry

section Lookup

variable (crypto : Crypto)

/-- `memcmp(left, right, ZF_CREDENTIAL_ID_LEN) > 0`. -/
def memcmpGreater : Bytes → Bytes → Bool
  | [], _ => false
  | _ :: _, [] => true
  | left :: lefts, right :: rights =>
    if left = right then memcmpGreater lefts rights else decide (right < left)

/-- `zf_store_index_is_newer`. -/
def indexIsNewer (candidate other : CredentialIndexEntry) : Bool :=
  if candidate.createdAt ≠ other.createdAt then
    decide (other.createdAt < candidate.createdAt)
  else
    memcmpGreater candidate.credentialId other.credentialId

/-- An unused slot of the array, which is kept zeroed. -/
def unusedEntry : CredentialIndexEntry where
  inUse := false
  residentKey := false
  credentialId := zeroBytes credentialIdLen
  rpIdHash := zeroBytes 32
  signCount := 0
  counterHighWater := 0
  createdAt := 0
  credProtect := 0

/-- `store->records[index]`. -/
def entryAt (store : CredentialStore) (index : ℕ) : CredentialIndexEntry :=
  store.getD index unusedEntry

/-- `zf_store_insert_sorted_index`. The loop moves the entries that are older than the candidate up
by one place. -/
def insertSortedIndex (store : CredentialStore) (maxOut : ℕ) (outIndices : List ℕ) (index : ℕ) :
    List ℕ :=
  if maxOut ≤ outIndices.length ∨ store.length ≤ index then outIndices
  else insertLate (fun candidate other ↦ indexIsNewer (entryAt store candidate) (entryAt store other))
    index outIndices

/-- The loop of the lookups, for the entries that pass their tests. -/
def findBy (store : CredentialStore) (keep : CredentialIndexEntry → Bool) (maxOut : ℕ) : List ℕ :=
  store.zipIdx.foldl (fun outIndices (entry, index) ↦
    if keep entry then insertSortedIndex store maxOut outIndices index else outIndices) []

/-- `zf_store_index_entry_matches_rp`. -/
def indexEntryMatchesRp (entry : CredentialIndexEntry) (rpId : Bytes) : Bool :=
  entry.rpIdHash == crypto.sha256 rpId

/-- `zf_store_find_by_rp`. -/
def findByRp (store : CredentialStore) (rpId : Bytes) (maxOut : ℕ) : List ℕ :=
  findBy store (fun entry ↦ entry.inUse && entry.residentKey && indexEntryMatchesRp crypto entry rpId)
    maxOut

/-- `zf_store_find_by_rp_filtered`. -/
def findByRpFiltered (store : CredentialStore) (rpId : Bytes)
    (filter : CredentialIndexEntry → Bool) (maxOut : ℕ) : List ℕ :=
  findBy store (fun entry ↦ entry.inUse && indexEntryMatchesRp crypto entry rpId && filter entry)
    maxOut

/-- `zf_store_find_index_by_id`. -/
def findIndexById (store : CredentialStore) (credentialId : Bytes) : Option ℕ :=
  store.findIdx? fun entry ↦ entry.inUse && entry.credentialId == credentialId

section Order

theorem memcmpGreater_asymm (left right : Bytes) (h : memcmpGreater left right = true) :
    memcmpGreater right left = false := by
  induction left generalizing right with
  | nil => exact absurd h (by simp [memcmpGreater])
  | cons byte left ih =>
    cases right with
    | nil => rfl
    | cons other right =>
      simp only [memcmpGreater] at h ⊢
      by_cases hsame : byte = other
      · rw [if_pos hsame] at h
        rw [if_pos hsame.symm]
        exact ih right h
      · rw [if_neg hsame, decide_eq_true_eq] at h
        rw [if_neg (Ne.symm hsame), decide_eq_false_iff_not]
        exact UInt8.lt_asymm h

theorem memcmpGreater_not_trans (first second third : Bytes)
    (hfirst : memcmpGreater second first = false) (hsecond : memcmpGreater third second = false) :
    memcmpGreater third first = false := by
  induction first generalizing second third with
  | nil =>
    cases third with
    | nil => rfl
    | cons byte third =>
      cases second with
      | nil => exact absurd hsecond (by simp [memcmpGreater])
      | cons other second => exact absurd hfirst (by simp [memcmpGreater])
  | cons low first ih =>
    cases third with
    | nil => rfl
    | cons high third =>
      cases second with
      | nil => exact absurd hsecond (by simp [memcmpGreater])
      | cons middle second =>
        simp only [memcmpGreater] at hfirst hsecond ⊢
        by_cases hlow : middle = low
        · subst hlow
          rw [if_pos rfl] at hfirst
          by_cases hhigh : high = middle
          · rw [if_pos hhigh] at hsecond ⊢
            exact ih second third hfirst hsecond
          · rw [if_neg hhigh] at hsecond ⊢
            exact hsecond
        · rw [if_neg hlow, decide_eq_false_iff_not, UInt8.not_lt] at hfirst
          -- The middle byte is smaller, and the high byte is at most the middle one.
          have hless : middle < low := UInt8.lt_of_le_of_ne hfirst hlow
          have hle : high ≤ middle := by
            by_cases hhigh : high = middle
            · exact UInt8.le_of_eq hhigh
            · rw [if_neg hhigh, decide_eq_false_iff_not, UInt8.not_lt] at hsecond
              exact hsecond
          have hhighLow : high < low := UInt8.lt_of_le_of_lt hle hless
          rw [if_neg (UInt8.ne_of_lt hhighLow), decide_eq_false_iff_not]
          exact UInt8.lt_asymm hhighLow

theorem weakOrder_indexIsNewer : WeakOrder indexIsNewer := by
  constructor
  · intro first second h
    unfold indexIsNewer at h ⊢
    by_cases hsame : first.createdAt = second.createdAt
    · rw [if_neg (by simpa using hsame)] at h
      rw [if_neg (by simpa using hsame.symm)]
      exact memcmpGreater_asymm _ _ h
    · rw [if_pos hsame, decide_eq_true_eq] at h
      rw [if_pos (Ne.symm hsame), decide_eq_false_iff_not]
      omega
  · intro first second third hfirst hsecond
    unfold indexIsNewer at hfirst hsecond ⊢
    split_ifs at hfirst hsecond ⊢ with h1 h2 h3
    all_goals simp only [decide_eq_false_iff_not, not_lt, ne_eq, Decidable.not_not] at *
    all_goals first
      | omega
      | exact memcmpGreater_not_trans _ _ _ hfirst hsecond

end Order

section Found

variable {store : CredentialStore} {keep : CredentialIndexEntry → Bool} {maxOut : ℕ}

theorem entryAt_of_getElem? {index : ℕ} {entry : CredentialIndexEntry}
    (h : store[index]? = some entry) : entryAt store index = entry := by
  rw [entryAt, List.getD_eq_getElem?_getD, h, Option.getD_some]

theorem mem_insertLate {before : ℕ → ℕ → Bool} {new index : ℕ} {list : List ℕ} :
    index ∈ insertLate before new list ↔ index = new ∨ index ∈ list := by
  have hlist : index ∈ list ↔ index ∈ list.rdropWhile (before new) ∨
      index ∈ list.rtakeWhile (before new) := by
    rw [← List.mem_append, List.rdropWhile_append_rtakeWhile]
  rw [insertLate, List.mem_append, List.mem_cons, hlist]
  exact or_left_comm

theorem length_insertLate {before : ℕ → ℕ → Bool} {new : ℕ} {list : List ℕ} :
    (insertLate before new list).length = list.length + 1 := by
  have hlength : list.length = (list.rdropWhile (before new)).length +
      (list.rtakeWhile (before new)).length := by
    rw [← List.length_append, List.rdropWhile_append_rtakeWhile]
  rw [insertLate, List.length_append, List.length_cons]
  omega

/-- The entries that the rest of the loop inserts, when `done` positions lie behind it. -/
theorem map_foldl_findBy (hsize : store.length ≤ maxOut) (rest : List CredentialIndexEntry)
    (done : ℕ) (outIndices : List ℕ) (hrest : store.drop done = rest)
    (hlength : outIndices.length ≤ done) :
    ((rest.zipIdx done).foldl (fun outIndices (entry, index) ↦
      if keep entry then insertSortedIndex store maxOut outIndices index else outIndices)
        outIndices).map (entryAt store) =
      (rest.filter keep).foldl (fun sorted entry ↦ insertLate indexIsNewer entry sorted)
        (outIndices.map (entryAt store)) := by
  induction rest generalizing done outIndices with
  | nil => rfl
  | cons entry rest ih =>
    have hentry : store[done]? = some entry := by
      rw [← List.head?_drop, hrest, List.head?_cons]
    have hdone : done < store.length := (List.getElem?_eq_some_iff.mp hentry).1
    have htail : store.drop (done + 1) = rest := by
      rw [← List.tail_drop, hrest, List.tail_cons]
    rw [List.zipIdx_cons, List.foldl_cons, List.filter_cons]
    by_cases hkeep : keep entry = true
    · have hinsert : insertSortedIndex store maxOut outIndices done =
          insertLate (fun candidate other ↦
            indexIsNewer (entryAt store candidate) (entryAt store other)) done outIndices := by
        rw [insertSortedIndex, if_neg (by omega)]
      simp only [if_pos hkeep, hinsert, List.foldl_cons]
      rw [ih (done + 1) _ htail (by rw [length_insertLate]; omega), map_insertLate,
        entryAt_of_getElem? hentry]
    · simp only [if_neg hkeep]
      exact ih (done + 1) outIndices htail (by omega)

/-- A lookup finds the entries that pass its tests, sorted from the newest to the oldest. -/
theorem map_findBy (hsize : store.length ≤ maxOut) :
    (findBy store keep maxOut).map (entryAt store) =
      (store.filter keep).foldl (fun sorted entry ↦ insertLate indexIsNewer entry sorted) [] :=
  map_foldl_findBy hsize store 0 [] rfl (Nat.le_refl 0)

/-- Every position a lookup finds is in use and passes its tests. -/
theorem mem_findBy {index : ℕ} (h : index ∈ findBy store keep maxOut) :
    ∃ entry, store[index]? = some entry ∧ keep entry = true := by
  have hloop : ∀ (rest : List CredentialIndexEntry) (done : ℕ) (outIndices : List ℕ),
      store.drop done = rest →
      (∀ index ∈ outIndices, ∃ entry, store[index]? = some entry ∧ keep entry = true) →
      ∀ index ∈ (rest.zipIdx done).foldl (fun outIndices (entry, index) ↦
        if keep entry then insertSortedIndex store maxOut outIndices index else outIndices)
          outIndices,
        ∃ entry, store[index]? = some entry ∧ keep entry = true := by
    intro rest
    induction rest with
    | nil => exact fun done outIndices _ hout ↦ hout
    | cons entry rest ih =>
      intro done outIndices hrest hout
      have hentry : store[done]? = some entry := by
        rw [← List.head?_drop, hrest, List.head?_cons]
      refine ih (done + 1) _ (by rw [← List.tail_drop, hrest, List.tail_cons]) ?_
      intro index hindex
      dsimp only at hindex
      split_ifs at hindex with hkeep
      · unfold insertSortedIndex at hindex
        split_ifs at hindex
        · exact hout index hindex
        · obtain rfl | hindex := mem_insertLate.mp hindex
          · exact ⟨entry, hentry, hkeep⟩
          · exact hout index hindex
      · exact hout index hindex
  exact hloop store 0 [] rfl (by simp) index h

/-- A lookup with room for every entry finds every position that passes its tests. -/
theorem mem_findBy_of_getElem? (hsize : store.length ≤ maxOut) {index : ℕ}
    {entry : CredentialIndexEntry} (hentry : store[index]? = some entry) (hkeep : keep entry = true) :
    index ∈ findBy store keep maxOut := by
  -- The position is in the list already, or lies ahead of the loop.
  have hloop : ∀ (rest : List CredentialIndexEntry) (done : ℕ) (outIndices : List ℕ),
      store.drop done = rest → outIndices.length ≤ done →
      index ∈ outIndices ∨ done ≤ index →
      index ∈ (rest.zipIdx done).foldl (fun outIndices (entry, index) ↦
        if keep entry then insertSortedIndex store maxOut outIndices index else outIndices)
          outIndices := by
    intro rest
    induction rest with
    | nil =>
      rintro done outIndices hrest - (hfound | hahead)
      · exact hfound
      · have hlength := (List.getElem?_eq_some_iff.mp hentry).1
        have := List.drop_eq_nil_iff.mp hrest
        omega
    | cons head rest ih =>
      intro done outIndices hrest hlength hindex
      have hhead : store[done]? = some head := by
        rw [← List.head?_drop, hrest, List.head?_cons]
      have hdone : done < store.length := (List.getElem?_eq_some_iff.mp hhead).1
      have htail : store.drop (done + 1) = rest := by
        rw [← List.tail_drop, hrest, List.tail_cons]
      have hinsert : insertSortedIndex store maxOut outIndices done =
          insertLate (fun candidate other ↦
            indexIsNewer (entryAt store candidate) (entryAt store other)) done outIndices := by
        rw [insertSortedIndex, if_neg (by omega)]
      rw [List.zipIdx_cons, List.foldl_cons]
      dsimp only
      rw [hinsert]
      by_cases hheadKeep : keep head = true
      · rw [if_pos hheadKeep]
        refine ih (done + 1) _ htail (by rw [length_insertLate]; omega) ?_
        rw [mem_insertLate]
        rcases hindex with hfound | hahead
        · exact Or.inl (Or.inr hfound)
        · rcases Nat.eq_or_lt_of_le hahead with rfl | hlater
          · exact Or.inl (Or.inl rfl)
          · exact Or.inr hlater
      · rw [if_neg hheadKeep]
        refine ih (done + 1) outIndices htail (by omega) (hindex.imp id fun hahead ↦ ?_)
        have hne : done ≠ index := by
          rintro rfl
          rw [hhead, Option.some.injEq] at hentry
          exact hheadKeep (hentry ▸ hkeep)
        omega
  exact hloop store 0 [] rfl (Nat.le_refl 0) (Or.inr (Nat.zero_le index))

end Found

end Lookup

section Operations

variable {Event : Type} (crypto : Crypto)

/-- `zf_store_index_entry_file_name` of the production build. -/
def indexEntryFileName (entry : CredentialIndexEntry) : Path := hexEncode entry.credentialId

/-- `zf_store_compact_after_delete`. -/
def compactAfterDelete (store : CredentialStore) (index : ℕ) : CredentialStore :=
  store.eraseIdx index

/-- `zf_store_load_record_with_buffer`. -/
def loadRecord (entry : CredentialIndexEntry) : Program (World Event) (Option CredentialRecord) := do
  if !entry.inUse then
    return none
  recordFormatLoadRecord crypto (indexEntryFileName entry)

/-- `zf_store_prepare_credential`. The user fields are the parsed ones, so they fit their buffers.
-/
def prepareCredential (rpId userId userName userDisplayName : Bytes) (createdAt : ℕ)
    (residentKey : Bool) : Program (World Event) (Option CredentialRecord) := do
  if maxUserIdLen < userId.length then
    return none
  let credentialId ← randomFill credentialIdLen
  let hmacSecretWithoutUv ← randomFill hmacSecretLen
  let hmacSecretWithUv ← randomFill hmacSecretLen
  return some
    { inUse := true
      residentKey
      fileName := hexEncode credentialId
      storageVersion := storeFormatVersion
      credentialId
      rpId := rpId.take (maxRpIdLen - 1)
      userId
      userName := userName.take (maxUserNameLen - 1)
      userDisplayName := userDisplayName.take (maxDisplayNameLen - 1)
      createdAt
      credProtect := credProtectUvOptional
      hmacSecret := true
      hmacSecretWithoutUv
      hmacSecretWithUv }

/-- `zf_store_publish_added_record`. -/
def publishAddedRecord (store : CredentialStore) (record : CredentialRecord) :
    Option CredentialStore :=
  if maxCredentials ≤ store.length then none
  else some (store ++ [indexEntryFromRecord crypto record])

/-- `zf_store_add_record_with_buffer`. -/
def addRecord (store : CredentialStore) (record : CredentialRecord) :
    Program (World Event) (Bool × CredentialStore) := do
  if maxCredentials ≤ store.length then
    return (false, store)
  if !(← recordFormatWriteRecord crypto record) then
    return (false, store)
  return (true, store ++ [indexEntryFromRecord crypto record])

/-- `zf_store_remove_record_file`. -/
def removeRecordFile (record : CredentialRecord) : Program (World Event) Bool := do
  if !record.inUse then
    return false
  recoveryRemoveRecordPaths
    (if record.fileName = [] then hexEncode record.credentialId else record.fileName)

/-- `zf_store_prepare_counter_advance`: the counter high water to publish. -/
def prepareCounterAdvance (entry : CredentialIndexEntry) (record : CredentialRecord) :
    Program (World Event) (Option ℕ) := do
  if record.signCount < entry.signCount then
    return none
  if entry.counterHighWater < record.signCount then
    recordFormatReserveCounter crypto record
  else
    return some entry.counterHighWater

/-- The change `zf_store_publish_counter_advance` makes to the entry it finds. -/
def CredentialIndexEntry.advance (entry : CredentialIndexEntry) (record : CredentialRecord)
    (counterHighWater : ℕ) : CredentialIndexEntry :=
  { entry with
    signCount := record.signCount
    counterHighWater :=
      if entry.counterHighWater < record.signCount then counterHighWater else entry.counterHighWater }

/-- `zf_store_publish_counter_advance`. -/
def publishCounterAdvance (store : CredentialStore) (record : CredentialRecord)
    (counterHighWater : ℕ) : Option CredentialStore := do
  if counterHighWater < record.signCount then
    none
  let index ← findIndexById store record.credentialId
  let entry ← store[index]?
  if record.signCount < entry.signCount then
    none
  return store.set index (entry.advance record counterHighWater)

/-- `zf_store_advance_counter`. -/
def advanceCounter (store : CredentialStore) (record : CredentialRecord) :
    Program (World Event) (Bool × CredentialStore) := do
  match (findIndexById store record.credentialId).bind (store[·]?) with
  | none => return (false, store)
  | some entry =>
    match ← prepareCounterAdvance crypto entry record with
    | none => return (false, store)
    | some counterHighWater =>
      match publishCounterAdvance store record counterHighWater with
      | none => return (false, store)
      | some store' => return (true, store')

/-- The test of `zf_store_find_resident_credential_indices_for_user_with_buffer` on one entry. -/
def isResidentCredentialOfUser (rpId userId : Bytes) (entry : CredentialIndexEntry) :
    Program (World Event) Bool := do
  if !entry.inUse || !entry.residentKey || !indexEntryMatchesRp crypto entry rpId then
    return false
  match ← loadRecord crypto entry with
  | none => return false
  | some record => return record.rpId == rpId && record.userId == userId

/-- The loop of `zf_store_find_resident_credential_indices_for_user_with_buffer`. -/
def findResidentIndices (rpId userId : Bytes) (maxDeleted : ℕ) :
    List (CredentialIndexEntry × ℕ) → List ℕ → Program (World Event) (Option (List ℕ))
  | [], deleted => return some deleted
  | (entry, index) :: rest, deleted => do
    if ← isResidentCredentialOfUser crypto rpId userId entry then
      if maxDeleted ≤ deleted.length then
        return none
      findResidentIndices rpId userId maxDeleted rest (deleted ++ [index])
    else
      findResidentIndices rpId userId maxDeleted rest deleted

/-- `zf_store_find_resident_credential_indices_for_user_with_buffer`. -/
def findResidentCredentialIndicesForUser (store : CredentialStore) (rpId userId : Bytes)
    (maxDeleted : ℕ) : Program (World Event) (Option (List ℕ)) :=
  findResidentIndices crypto rpId userId maxDeleted store.zipIdx []

/-- `zf_store_remove_credential_files_by_indices`: whether every file was removed, and how many
credentials were. -/
def removeCredentialFilesByIndices (store : CredentialStore) :
    List ℕ → ℕ → Program (World Event) (Bool × ℕ)
  | [], removed => return (true, removed)
  | index :: rest, removed => do
    match store[index]? with
    | none => return (false, removed)
    | some entry =>
      if !entry.inUse then
        return (false, removed)
      if !(← recoveryRemoveRecordPaths (indexEntryFileName entry)) then
        return (false, removed)
      removeCredentialFilesByIndices store rest (removed + 1)

/-- `zf_store_publish_deleted_indices`: the last position goes first. -/
def publishDeletedIndices (store : CredentialStore) (deletedIndices : List ℕ) : CredentialStore :=
  deletedIndices.foldr (fun index store ↦ compactAfterDelete store index) store

/-- `ZfStoreDeleteResult`. -/
inductive StoreDeleteResult where
  | ok
  | notFound
  | removeFailed
  deriving DecidableEq, Repr

/-- `zf_store_delete_record`. -/
def deleteRecord (store : CredentialStore) (credentialId : Bytes) :
    Program (World Event) (StoreDeleteResult × CredentialStore) := do
  match findIndexById store credentialId with
  | none => return (.notFound, store)
  | some index =>
    if !(← recoveryRemoveRecordPaths (hexEncode credentialId)) then
      return (.removeFailed, store)
    return (.ok, compactAfterDelete store index)

section Facts

variable {crypto : Crypto} {store store' : CredentialStore} {record : CredentialRecord}

/-- Publishing a counter changes one entry, which keeps its credential. -/
theorem publishCounterAdvance_eq_some {counterHighWater : ℕ}
    (h : publishCounterAdvance store record counterHighWater = some store') :
    ∃ index entry, findIndexById store record.credentialId = some index ∧
      store[index]? = some entry ∧ entry.signCount ≤ record.signCount ∧
      record.signCount ≤ counterHighWater ∧
      store' = store.set index (entry.advance record counterHighWater) := by
  unfold publishCounterAdvance at h
  by_cases hlow : counterHighWater < record.signCount
  · rw [if_pos hlow] at h
    exact absurd h (by simp)
  · rw [if_neg hlow] at h
    obtain ⟨index, hindex, h⟩ := Option.bind_eq_some_iff.mp h
    obtain ⟨entry, hentry, h⟩ := Option.bind_eq_some_iff.mp h
    by_cases hback : record.signCount < entry.signCount
    · rw [if_pos hback] at h
      exact absurd h (by simp)
    · rw [if_neg hback] at h
      exact ⟨index, entry, hindex, hentry, not_lt.mp hback, not_lt.mp hlow,
        (Option.some.inj h).symm⟩

/-- Publishing a counter leaves the credential of every position. -/
theorem credentialId_publishCounterAdvance {counterHighWater : ℕ}
    (h : publishCounterAdvance store record counterHighWater = some store') (position : ℕ) :
    (entryAt store' position).credentialId = (entryAt store position).credentialId := by
  obtain ⟨index, entry, -, hentry, -, -, rfl⟩ := publishCounterAdvance_eq_some h
  by_cases hposition : index = position
  · subst hposition
    obtain ⟨hlength, -⟩ := List.getElem?_eq_some_iff.mp hentry
    rw [entryAt_of_getElem? hentry, entryAt_of_getElem? (List.getElem?_set_self hlength)]
    rfl
  · rw [entryAt, entryAt, List.getD_eq_getElem?_getD, List.getElem?_set_ne hposition,
      ← List.getD_eq_getElem?_getD]

/-- The positions lie in the index, each behind the one before. -/
structure Ascending (store : CredentialStore) (indices : List ℕ) : Prop where
  sorted : indices.Pairwise (· < ·)
  bounded : ∀ index ∈ indices, index < store.length

/-- Removing positions from the last to the first removes as many entries. -/
theorem length_publishDeletedIndices {indices : List ℕ} (h : Ascending store indices) :
    (publishDeletedIndices store indices).length + indices.length = store.length := by
  have hremoved : ∀ (indices : List ℕ) (bound : ℕ), indices.Pairwise (· < ·) →
      (∀ index ∈ indices, bound ≤ index ∧ index < store.length) → bound ≤ store.length →
      (publishDeletedIndices store indices).length + indices.length = store.length ∧
        bound ≤ (publishDeletedIndices store indices).length := by
    intro indices
    induction indices with
    | nil => exact fun bound _ _ hbound ↦ ⟨rfl, hbound⟩
    | cons first rest ih =>
      intro bound hsorted hbounded hbound
      obtain ⟨hfirst, hrest⟩ := List.pairwise_cons.mp hsorted
      have hinside := hbounded first (by simp)
      -- What is left after the later positions still has the first one.
      obtain ⟨hlength, hlater⟩ := ih (first + 1) hrest
        (fun index hindex ↦ ⟨hfirst index hindex, (hbounded index (by simp [hindex])).2⟩)
        (by omega)
      have herase : (publishDeletedIndices store (first :: rest)).length + 1 =
          (publishDeletedIndices store rest).length := by
        show ((publishDeletedIndices store rest).eraseIdx first).length + 1 = _
        rw [List.length_eraseIdx_of_lt (by omega)]
        omega
      rw [List.length_cons]
      omega
  exact (hremoved indices 0 h.sorted (fun index hindex ↦ ⟨Nat.zero_le _, h.bounded index hindex⟩)
    (Nat.zero_le _)).1

/-- The records that a registration replaces are found in ascending order. -/
theorem ensures_findResidentCredentialIndicesForUser {rpId userId : Bytes} {maxDeleted : ℕ}
    {world : World Event} :
    Ensures (findResidentCredentialIndicesForUser crypto store rpId userId maxDeleted)
      (fun found _ ↦ ∀ indices, found = some indices → Ascending store indices) (fun _ ↦ True)
      world := by
  have hloop : ∀ (rest : List CredentialIndexEntry) (done : ℕ) (deleted : List ℕ)
      (world : World Event), store.drop done = rest → Ascending store deleted →
      (∀ index ∈ deleted, index < done) →
      Ensures (findResidentIndices crypto rpId userId maxDeleted (rest.zipIdx done) deleted)
        (fun found _ ↦ ∀ indices, found = some indices → Ascending store indices) (fun _ ↦ True)
        world := by
    intro rest
    induction rest with
    | nil =>
      intro done deleted world _ hdeleted _ indices hfound
      obtain rfl : deleted = indices := Option.some.inj hfound
      exact hdeleted
    | cons entry rest ih =>
      intro done deleted world hrest hdeleted hbefore
      have hentry : store[done]? = some entry := by
        rw [← List.head?_drop, hrest, List.head?_cons]
      obtain ⟨hlength, -⟩ := List.getElem?_eq_some_iff.mp hentry
      have htail : store.drop (done + 1) = rest := by
        rw [← List.tail_drop, hrest, List.tail_cons]
      rw [List.zipIdx_cons, findResidentIndices, ensures_bind]
      unfold Ensures
      split
      · rename_i found middle hrun
        refine (ensures_ite _ _ _).mpr ⟨fun _ ↦ ?_, fun _ ↦ ?_⟩
        · refine (ensures_ite _ _ _).mpr ⟨fun _ ↦ ?_, fun _ ↦ ?_⟩
          · intro indices hnone
            exact absurd hnone (by simp)
          · refine ih (done + 1) _ middle htail ⟨?_, ?_⟩ ?_
            · exact List.pairwise_append.mpr ⟨hdeleted.sorted, List.pairwise_singleton _ _,
                fun index hindex last hlast ↦ by
                  rw [List.mem_singleton.mp hlast]
                  exact hbefore index hindex⟩
            · intro index hindex
              rcases List.mem_append.mp hindex with hindex | hindex
              · exact hdeleted.bounded index hindex
              · rw [List.mem_singleton.mp hindex]
                exact hlength
            · intro index hindex
              rcases List.mem_append.mp hindex with hindex | hindex
              · exact Nat.lt_succ_of_lt (hbefore index hindex)
              · rw [List.mem_singleton.mp hindex]
                exact Nat.lt_succ_self done
        · exact ih (done + 1) deleted middle htail hdeleted fun index hindex ↦
            Nat.lt_succ_of_lt (hbefore index hindex)
      · trivial
  exact hloop store 0 [] world rfl ⟨List.Pairwise.nil, by simp⟩ (by simp)

end Facts

end Operations

end ZeroFido.Store
