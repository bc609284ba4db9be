import Mathlib.Data.List.Nodup
import ZeroFido.Foundations.Compaction
import ZeroFido.Store.Undisturbed

/-!
# Replacing the credentials of an account

An index and the files agree when every entry's record loads and every record file belongs to an
entry (`Agrees`). The resident credentials of an account are found by their records
(`ensures_findResidentCredentialIndicesForUser_clean`), and removing them touches no other
credential (`ensures_removeCredentialFilesByIndices_clean`).

`Registers.replaced` puts the steps of a registration together: the account's credentials are gone,
the new one is the last, and the index and the files agree again.
-/

set_option autoImplicit false
set_option relaxedAutoImplicit false

namespace ZeroFido.Store

open Foundations Storage

section Agreement

variable (crypto : Crypto) (files : Path → Option Bytes)

/-- The entry's record loads, and the entry is about it. -/
structure Loads (entry : CredentialIndexEntry) (record : CredentialRecord) : Prop where
  inUse : entry.inUse = true
  credentialId : entry.credentialId.length = credentialIdLen
  rpIdHash : entry.rpIdHash = crypto.sha256 record.rpId
  found : loadFound crypto files (indexEntryFileName entry) = some record

/-- An index of the size it may have, with distinct ids, in which every record loads, and the files
have no other record. -/
structure Agrees (store : CredentialStore) : Prop where
  size : store.length ≤ maxCredentials
  distinct : (store.map (·.credentialId)).Nodup
  loads : ∀ entry ∈ store, ∃ record, Loads crypto files entry record
  listed : ∀ name, isRecordName name = true → files (recordPath name) ≠ none →
    ∃ entry ∈ store, indexEntryFileName entry = name

/-- The entry is a resident credential of the account. -/
def isAccount (rpId userId : Bytes) (entry : CredentialIndexEntry) : Bool :=
  entry.residentKey &&
    (loadFound crypto files (indexEntryFileName entry)).any fun record ↦
      record.rpId == rpId && record.userId == userId

/-- No file has the record name yet. -/
def Unused (name : Path) : Prop := ∀ path, FileOf name path → files path = none

end Agreement

section Records

variable {crypto : Crypto} {files files' files'' : Path → Option Bytes}
  {store : CredentialStore} {entry : CredentialIndexEntry} {record : CredentialRecord}
  {rpId userId : Bytes} {name : Path}

/-- What is found of every credential is the same, and so are the files of those not listed. -/
structure SameRecords (crypto : Crypto) (store : CredentialStore)
    (files files' : Path → Option Bytes) : Prop where
  frame : ∀ name, isRecordName name = true → (∀ entry ∈ store, indexEntryFileName entry ≠ name) →
    ∀ path, FileOf name path → files' path = files path
  record : ∀ name, isRecordName name = true → files' (recordPath name) = files (recordPath name)
  found : ∀ name, isRecordName name = true →
    loadFound crypto files' name = loadFound crypto files name

theorem SameRecords.refl : SameRecords crypto store files files :=
  ⟨fun _ _ _ _ _ ↦ rfl, fun _ _ ↦ rfl, fun _ _ ↦ rfl⟩

theorem SameRecords.trans (h : SameRecords crypto store files files')
    (h' : SameRecords crypto store files' files'') : SameRecords crypto store files files'' :=
  ⟨fun name hname hother path hpath ↦
      (h'.frame name hname hother path hpath).trans (h.frame name hname hother path hpath),
    fun name hname ↦ (h'.record name hname).trans (h.record name hname),
    fun name hname ↦ (h'.found name hname).trans (h.found name hname)⟩

theorem Loads.isRecord (h : Loads crypto files entry record) :
    isRecordName (indexEntryFileName entry) = true :=
  isRecordName_hexEncode h.credentialId

/-- An entry whose record is still found. -/
theorem Loads.of_found (h : Loads crypto files entry record)
    (hfound : loadFound crypto files' (indexEntryFileName entry) =
      loadFound crypto files (indexEntryFileName entry)) : Loads crypto files' entry record :=
  ⟨h.inUse, h.credentialId, h.rpIdHash, hfound.trans h.found⟩

/-- A record that is found has its file. -/
theorem Loads.file (h : Loads crypto files entry record) :
    files (recordPath (indexEntryFileName entry)) ≠ none := by
  intro hnone
  have hfound := h.found
  simp [loadFound, recordFound, hnone] at hfound

theorem isAccount_congr
    (hfound : loadFound crypto files' (indexEntryFileName entry) =
      loadFound crypto files (indexEntryFileName entry)) :
    isAccount crypto files' rpId userId entry = isAccount crypto files rpId userId entry := by
  unfold isAccount
  rw [hfound]

theorem Agrees.isRecord (h : Agrees crypto files store) (hentry : entry ∈ store) :
    isRecordName (indexEntryFileName entry) = true := by
  obtain ⟨record, hloads⟩ := h.loads entry hentry
  exact hloads.isRecord

theorem Agrees.of_same (h : Agrees crypto files store)
    (hsame : SameRecords crypto store files files') : Agrees crypto files' store := by
  refine ⟨h.size, h.distinct, fun entry hentry ↦ ?_, fun name hname hfile ↦ ?_⟩
  · obtain ⟨record, hloads⟩ := h.loads entry hentry
    exact ⟨record, hloads.of_found (hsame.found _ hloads.isRecord)⟩
  · rw [hsame.record name hname] at hfile
    exact h.listed name hname hfile

/-- A name of which there is no file is not that of an entry. -/
theorem Agrees.ne_of_unused (h : Agrees crypto files store) (hunused : Unused files name)
    (hentry : entry ∈ store) : indexEntryFileName entry ≠ name := by
  rintro rfl
  obtain ⟨record, hloads⟩ := h.loads entry hentry
  exact hloads.file (hunused _ (fileOf_recordPath _))

/-- The name stays unused. -/
theorem Unused.of_same (hunused : Unused files name) (hname : isRecordName name = true)
    (h : Agrees crypto files store) (hsame : SameRecords crypto store files files') :
    Unused files' name := by
  intro path hpath
  rw [hsame.frame name hname (fun _ hentry ↦ h.ne_of_unused hunused hentry) path hpath,
    hunused path hpath]

/-- The ids of an index tell its entries apart. -/
theorem Agrees.eq_of_name (h : Agrees crypto files store) {other : CredentialIndexEntry}
    (hentry : entry ∈ store) (hother : other ∈ store)
    (hname : indexEntryFileName entry = indexEntryFileName other) : entry = other :=
  List.inj_on_of_nodup_map h.distinct hentry hother (hexEncode_injective hname)

end Records

section Operations

variable {Event : Type} {crypto : Crypto} {world : World Event} {store : CredentialStore}
  {entry : CredentialIndexEntry} {record : CredentialRecord} {rpId userId : Bytes}

/-- Loading the record of an entry. -/
theorem ensures_loadRecord_clean (hlaws : SealLaws crypto) (hclean : Clean world)
    (hentry : entry ∈ store) (hloads : Loads crypto world.files entry record) :
    Ensures (loadRecord crypto entry)
      (fun loaded world' ↦ loaded = some record ∧
        SameRecords crypto store world.files world'.files ∧ Clean world') (fun _ ↦ False) world := by
  simp only [loadRecord, ensures_ite, ensures_pure]
  refine ⟨fun hnot ↦ absurd hloads.inUse (by simpa using hnot), fun _ ↦ ?_⟩
  refine (ensures_recordFormatLoadRecord_clean hlaws hloads.isRecord hclean hloads.found).mono
    ?_ fun _ hcut ↦ hcut
  rintro loaded world' ⟨rfl, hsucceeds, hfile, hfound⟩
  refine ⟨rfl, ⟨fun name hname hother ↦
    hsucceeds.elsewhere hloads.isRecord hname (hother entry hentry), ?_, ?_⟩, hsucceeds.clean⟩
  · intro name hname
    by_cases hsame : indexEntryFileName entry = name
    · rw [← hsame]
      exact hfile
    · exact hsucceeds.elsewhere hloads.isRecord hname hsame _ (fileOf_recordPath name)
  · intro name hname
    by_cases hsame : indexEntryFileName entry = name
    · rw [← hsame]
      exact hfound.trans hloads.found.symm
    · exact hsucceeds.loadFound_eq hloads.isRecord hname hsame

/-- Whether an entry is of the account. -/
theorem ensures_isResidentCredentialOfUser_clean (hlaws : SealLaws crypto) (hclean : Clean world)
    (hentry : entry ∈ store) (hloads : Loads crypto world.files entry record) :
    Ensures (isResidentCredentialOfUser crypto rpId userId entry)
      (fun found world' ↦ found = isAccount crypto world.files rpId userId entry ∧
        SameRecords crypto store world.files world'.files ∧ Clean world') (fun _ ↦ False) world := by
  have haccount : isAccount crypto world.files rpId userId entry =
      (entry.residentKey && (record.rpId == rpId && record.userId == userId)) := by
    unfold isAccount
    rw [hloads.found, Option.any_some]
  simp only [isResidentCredentialOfUser, ensures_ite, ensures_pure, ensures_bind]
  refine ⟨fun hskipped ↦ ⟨?_, SameRecords.refl, hclean⟩, fun hvisited ↦ ?_⟩
  · -- An entry with another hash has a record of another RP.
    rw [haccount]
    simp only [hloads.inUse, hloads.rpIdHash, indexEntryMatchesRp, Bool.not_true, Bool.false_or,
      Bool.or_eq_true, Bool.not_eq_true', beq_eq_false_iff_ne] at hskipped
    rcases hskipped with hresident | hhash
    · rw [hresident, Bool.false_and]
    · have hrpId : (record.rpId == rpId) = false := by
        rw [beq_eq_false_iff_ne]
        exact fun hsame ↦ hhash (congrArg crypto.sha256 hsame)
      rw [hrpId, Bool.false_and, Bool.and_false]
  · refine (ensures_loadRecord_clean hlaws hclean hentry hloads).mono ?_ fun _ hcut ↦ hcut
    rintro loaded world' ⟨rfl, hsame, hclean'⟩
    refine ⟨?_, hsame, hclean'⟩
    simp only [Bool.or_eq_true, Bool.not_eq_true', not_or, Bool.not_eq_false] at hvisited
    rw [haccount, hvisited.1.2, Bool.true_and]

/-- The search, from an entry of the index on. -/
theorem ensures_findResidentIndices_clean (hlaws : SealLaws crypto) {maxDeleted : ℕ}
    (rest : List CredentialIndexEntry) (start : ℕ) (deleted : List ℕ)
    (hclean : Clean world) (hstore : Agrees crypto world.files store)
    (hrest : ∀ entry ∈ rest, entry ∈ store)
    (hroom : deleted.length + (rest.filter (isAccount crypto world.files rpId userId)).length ≤
      maxDeleted) :
    Ensures (findResidentIndices crypto rpId userId maxDeleted (rest.zipIdx start) deleted)
      (fun found world' ↦
        found = some (deleted ++
          positionsFrom (isAccount crypto world.files rpId userId) rest start) ∧
        SameRecords crypto store world.files world'.files ∧ Clean world') (fun _ ↦ False) world := by
  induction rest generalizing start deleted world with
  | nil =>
    refine ⟨?_, SameRecords.refl, hclean⟩
    rw [positionsFrom_nil, List.append_nil]
  | cons entry rest ih =>
    rw [List.forall_mem_cons] at hrest
    obtain ⟨record, hloads⟩ := hstore.loads entry hrest.1
    rw [List.zipIdx_cons, findResidentIndices, ensures_bind]
    refine (ensures_isResidentCredentialOfUser_clean hlaws hclean hrest.1 hloads).mono ?_
      fun _ hcut ↦ hcut
    rintro found middle ⟨rfl, hsame, hmiddle⟩
    -- The records found are the same ones, so the account's entries are.
    have hcongr : ∀ entry ∈ rest, isAccount crypto middle.files rpId userId entry =
        isAccount crypto world.files rpId userId entry := fun entry hentry ↦
      isAccount_congr (hsame.found _ (hstore.isRecord (hrest.2 entry hentry)))
    have hfilter : rest.filter (isAccount crypto middle.files rpId userId) =
        rest.filter (isAccount crypto world.files rpId userId) := List.filter_congr hcongr
    have hagrees := hstore.of_same hsame
    rw [ensures_ite]
    refine ⟨fun hselected ↦ ?_, fun hskipped ↦ ?_⟩
    · rw [List.filter_cons_of_pos hselected, List.length_cons] at hroom
      rw [ensures_ite]
      refine ⟨fun hfull ↦ absurd hfull (by omega), fun _ ↦ ?_⟩
      refine (ih (start + 1) (deleted ++ [start]) hmiddle hagrees hrest.2 ?_).mono ?_
        fun _ hcut ↦ hcut
      · rw [hfilter, List.length_append, List.length_singleton]
        omega
      · rintro found final ⟨rfl, hsame', hfinal⟩
        refine ⟨?_, hsame.trans hsame', hfinal⟩
        rw [positionsFrom_cons_pos hselected, positionsFrom_congr hcongr, List.append_assoc]
        rfl
    · rw [Bool.not_eq_true] at hskipped
      rw [List.filter_cons_of_neg (by simp [hskipped])] at hroom
      refine (ih (start + 1) deleted hmiddle hagrees hrest.2 ?_).mono ?_ fun _ hcut ↦ hcut
      · rw [hfilter]
        exact hroom
      · rintro found final ⟨rfl, hsame', hfinal⟩
        refine ⟨?_, hsame.trans hsame', hfinal⟩
        rw [positionsFrom_cons_neg hskipped, positionsFrom_congr hcongr]

/-- The search finds the account's resident credentials. -/
theorem ensures_findResidentCredentialIndicesForUser_clean (hlaws : SealLaws crypto)
    (hclean : Clean world) (hstore : Agrees crypto world.files store) :
    Ensures (findResidentCredentialIndicesForUser crypto store rpId userId maxCredentials)
      (fun found world' ↦
        found = some (positions (isAccount crypto world.files rpId userId) store) ∧
        SameRecords crypto store world.files world'.files ∧ Clean world') (fun _ ↦ False) world := by
  refine ensures_findResidentIndices_clean hlaws store 0 [] hclean hstore (fun _ hentry ↦ hentry) ?_
  have hfilter := List.length_filter_le (isAccount crypto world.files rpId userId) store
  rw [List.length_nil, Nat.zero_add]
  exact hfilter.trans hstore.size

/-- The files of some names are gone, and no other file was touched. -/
structure Removes (names : List Path) (files files' : Path → Option Bytes) : Prop where
  frame : ∀ path, (∀ name ∈ names, ¬FileOf name path) → files' path = files path
  gone : ∀ name ∈ names, files' (recordPath name) = none

/-- The names of the entries at some positions. -/
def namesAt (store : CredentialStore) (indices : List ℕ) : List Path :=
  indices.map fun index ↦ indexEntryFileName (entryAt store index)

/-- Removing the files of listed entries. -/
theorem ensures_removeCredentialFilesByIndices_clean {indices : List ℕ} {removed : ℕ}
    (hclean : Clean world)
    (hlisted : ∀ index ∈ indices, ∃ entry, store[index]? = some entry ∧ entry.inUse = true ∧
      isRecordName (indexEntryFileName entry) = true) :
    Ensures (removeCredentialFilesByIndices store indices removed)
      (fun result world' ↦ result = (true, removed + indices.length) ∧ Clean world' ∧
        Removes (namesAt store indices) world.files world'.files) (fun _ ↦ False) world := by
  induction indices generalizing removed world with
  | nil => exact ⟨rfl, hclean, fun _ _ ↦ rfl, by simp [namesAt]⟩
  | cons index rest ih =>
    rw [List.forall_mem_cons] at hlisted
    obtain ⟨⟨entry, hentry, hinUse, hname⟩, hrest⟩ := hlisted
    have hnames : namesAt store (index :: rest) = indexEntryFileName entry :: namesAt store rest := by
      rw [namesAt, List.map_cons, entryAt_of_getElem? hentry]
      rfl
    rw [removeCredentialFilesByIndices, hentry, hnames]
    simp only [hinUse, Bool.not_true, Bool.false_eq_true, if_false, ensures_bind]
    refine (ensures_recoveryRemoveRecordPaths_clean hname hclean).mono ?_ fun _ hcut ↦ hcut
    rintro ok middle ⟨rfl, hsucceeds, hgone, -⟩
    simp only [Bool.not_true, Bool.false_eq_true, if_false]
    refine (ih hsucceeds.clean hrest).mono ?_ fun _ hcut ↦ hcut
    rintro result final ⟨rfl, hfinal, hremoves⟩
    refine ⟨?_, hfinal, fun path hpath ↦ ?_, ?_⟩
    · rw [List.length_cons]
      exact Prod.ext rfl (by omega)
    · rw [List.forall_mem_cons] at hpath
      exact (hremoves.frame path hpath.2).trans (hsucceeds.frame path hpath.1)
    · refine List.forall_mem_cons.mpr ⟨?_, hremoves.gone⟩
      -- A file that is gone stays gone, whether or not its name comes again.
      by_cases hagain : indexEntryFileName entry ∈ namesAt store rest
      · exact hremoves.gone _ hagain
      · rw [hremoves.frame, hgone]
        intro name hmem hfile
        obtain ⟨other, hother, rfl⟩ := List.mem_map.mp hmem
        obtain ⟨found, hfound, -, hfoundName⟩ := hrest other hother
        rw [entryAt_of_getElem? hfound] at hmem hfile
        exact hagain (hfile.unique hfoundName hname (fileOf_recordPath _) ▸ hmem)

end Operations

section Deletion

variable {Event : Type} {crypto : Crypto} {world : World Event} {store : CredentialStore}
  {credentialId : Bytes}

/-- The entries but for some. -/
def excluding (gone : List Bytes) (store : CredentialStore) : CredentialStore :=
  store.filter fun entry ↦ decide (entry.credentialId ∉ gone)

theorem mem_excluding {gone : List Bytes} {entry : CredentialIndexEntry} :
    entry ∈ excluding gone store ↔ entry ∈ store ∧ entry.credentialId ∉ gone := by
  rw [excluding, List.mem_filter, decide_eq_true_iff]

@[simp]
theorem excluding_nil : excluding [] store = store :=
  List.filter_eq_self.mpr fun _ _ ↦ decide_eq_true List.not_mem_nil

theorem excluding_append {gone : List Bytes} {first second : CredentialStore} :
    excluding gone (first ++ second) = excluding gone first ++ excluding gone second :=
  List.filter_append first second

theorem excluding_excluding {gone gone' : List Bytes} :
    excluding gone' (excluding gone store) = excluding (gone ++ gone') store := by
  unfold excluding
  rw [List.filter_filter]
  refine List.filter_congr fun entry _ ↦ ?_
  rw [← Bool.decide_and, decide_eq_decide, List.mem_append, not_or, and_comm]

/-- Deleting a credential of the index, or one that is not there. -/
theorem ensures_deleteRecord_clean (hclean : Clean world) (h : Agrees crypto world.files store)
    (credentialId : Bytes) :
    Ensures (deleteRecord store credentialId)
      (fun outcome world' ↦ (outcome = (.notFound, store) ∧ world' = world) ∨
        outcome = (.ok, excluding [credentialId] store) ∧
          credentialId ∈ store.map (·.credentialId) ∧
          Succeeds (hexEncode credentialId) world world' ∧
          world'.files (recordPath (hexEncode credentialId)) = none) (fun _ ↦ False) world := by
  unfold deleteRecord
  cases hindex : findIndexById store credentialId with
  | none => exact Or.inl ⟨rfl, rfl⟩
  | some index =>
    obtain ⟨hlength, hmatches, -⟩ := List.findIdx?_eq_some_iff_getElem.mp hindex
    rw [Bool.and_eq_true, beq_iff_eq] at hmatches
    obtain ⟨-, rfl⟩ := hmatches
    have hmem : store[index] ∈ store := List.getElem_mem hlength
    simp only [ensures_bind]
    refine (ensures_recoveryRemoveRecordPaths_clean (h.isRecord hmem) hclean).mono ?_
      fun _ hcut ↦ hcut
    rintro ok world' ⟨rfl, hsucceeds, hgone, -⟩
    refine Or.inr ⟨?_, List.mem_map_of_mem hmem, hsucceeds, hgone⟩
    have hfilter := eraseIdx_eq_filter h.distinct (List.getElem?_eq_getElem hlength)
    simp only [compactAfterDelete, hfilter, excluding, List.mem_singleton]

/-- The index and the files agree without the credential. -/
theorem Agrees.deleted {world' : World Event} (h : Agrees crypto world.files store)
    (hmem : credentialId ∈ store.map (·.credentialId))
    (hsucceeds : Succeeds (hexEncode credentialId) world world')
    (hgone : world'.files (recordPath (hexEncode credentialId)) = none) :
    Agrees crypto world'.files (excluding [credentialId] store) ∧
      (∀ entry ∈ excluding [credentialId] store,
        loadFound crypto world'.files (indexEntryFileName entry) =
          loadFound crypto world.files (indexEntryFileName entry)) ∧
      ∀ name, isRecordName name = true → Unused world.files name → Unused world'.files name := by
  obtain ⟨deleted, hdeleted, rfl⟩ := List.mem_map.mp hmem
  have hname : isRecordName (hexEncode deleted.credentialId) = true := h.isRecord hdeleted
  have hfound : ∀ entry ∈ excluding [deleted.credentialId] store,
      loadFound crypto world'.files (indexEntryFileName entry) =
        loadFound crypto world.files (indexEntryFileName entry) := by
    intro entry hentry
    obtain ⟨hstore, hne⟩ := mem_excluding.mp hentry
    refine hsucceeds.loadFound_eq hname (h.isRecord hstore) fun hsame ↦ hne ?_
    rw [hexEncode_injective hsame]
    exact List.mem_cons_self
  refine ⟨⟨(List.length_filter_le _ _).trans h.size, ?_, fun entry hentry ↦ ?_,
    fun name hisName hfile ↦ ?_⟩, hfound, fun name hisName hunused path hpath ↦ ?_⟩
  · exact h.distinct.sublist (List.filter_sublist.map _)
  · obtain ⟨record, hloads⟩ := h.loads entry (mem_excluding.mp hentry).1
    exact ⟨record, hloads.of_found (hfound entry hentry)⟩
  · have hne : hexEncode deleted.credentialId ≠ name := by
      rintro rfl
      exact hfile hgone
    rw [hsucceeds.elsewhere hname hisName hne _ (fileOf_recordPath name)] at hfile
    obtain ⟨entry, hentry, rfl⟩ := h.listed name hisName hfile
    refine ⟨entry, mem_excluding.mpr ⟨hentry, fun hsame ↦ hne ?_⟩, rfl⟩
    rw [← List.mem_singleton.mp hsame]
    rfl
  · rw [hsucceeds.elsewhere hname hisName (h.ne_of_unused hunused hdeleted) path hpath,
      hunused path hpath]

end Deletion

section Replacement

variable {crypto : Crypto} {files files' files'' final : Path → Option Bytes}
  {store : CredentialStore} {record : CredentialRecord} {rpId userId : Bytes}

/-- The credentials that a registration for the account keeps. -/
def others (crypto : Crypto) (files : Path → Option Bytes) (store : CredentialStore)
    (rpId userId : Bytes) : CredentialStore :=
  store.filter fun entry ↦ !isAccount crypto files rpId userId entry

/-- What a registration that replaces an account leaves. -/
structure Replaced (crypto : Crypto) (files : Path → Option Bytes) (store : CredentialStore)
    (rpId userId : Bytes) (record : CredentialRecord) (files' : Path → Option Bytes)
    (store' : CredentialStore) : Prop where
  store_eq : store' = others crypto files store rpId userId ++ [indexEntryFromRecord crypto record]
  agrees : Agrees crypto files' store'
  account : store'.filter (isAccount crypto files' rpId userId) =
    [indexEntryFromRecord crypto record]
  kept : ∀ entry ∈ others crypto files store rpId userId,
    loadFound crypto files' (indexEntryFileName entry) =
      loadFound crypto files (indexEntryFileName entry)
  added : loadFound crypto files' record.fileName = some record

/-- The new record is written, where no file was. -/
structure Written (crypto : Crypto) (record : CredentialRecord)
    (files files' : Path → Option Bytes) : Prop where
  frame : ∀ path, ¬FileOf record.fileName path → files' path = files path
  recorded : ∃ data, Recorded crypto data record ∧ files' (recordPath record.fileName) = some data
  counter : files' (counterFloorPath record.fileName) = files (counterFloorPath record.fileName)

theorem mem_others {entry : CredentialIndexEntry} :
    entry ∈ others crypto files store rpId userId ↔
      entry ∈ store ∧ isAccount crypto files rpId userId entry = false := by
  rw [others, List.mem_filter, Bool.not_eq_true']

/-- The names that a registration removes are those of the account's credentials. -/
theorem mem_namesAt_positions {name : Path} :
    name ∈ namesAt store (positions (isAccount crypto files rpId userId) store) ↔
      ∃ entry ∈ store, isAccount crypto files rpId userId entry = true ∧
        indexEntryFileName entry = name := by
  constructor
  · intro hmem
    obtain ⟨index, hindex, rfl⟩ := List.mem_map.mp hmem
    obtain ⟨entry, hentry, haccount⟩ := exists_of_mem_positions hindex
    exact ⟨entry, List.mem_of_getElem? hentry, haccount, by rw [entryAt_of_getElem? hentry]⟩
  · rintro ⟨entry, hmem, haccount, rfl⟩
    obtain ⟨index, hentry⟩ := List.mem_iff_getElem?.mp hmem
    refine List.mem_map.mpr ⟨index, mem_positions hentry haccount, ?_⟩
    rw [entryAt_of_getElem? hentry]

/-- The steps of a registration: the search, the write, and the removal of what was found. -/
structure RegistrationSteps (crypto : Crypto) (files : Path → Option Bytes)
    (store : CredentialStore) (rpId userId : Bytes) (record : CredentialRecord)
    (files' files'' final : Path → Option Bytes) : Prop where
  same : SameRecords crypto store files files'
  written : Written crypto record files' files''
  removes : Removes (namesAt store (positions (isAccount crypto files rpId userId) store)) files''
    final

/-- The steps of a registration from a store and files that agree, under a new name. -/
structure Registers (crypto : Crypto) (files : Path → Option Bytes) (store : CredentialStore)
    (rpId userId : Bytes) (record : CredentialRecord) (files' files'' final : Path → Option Bytes) :
    Prop extends RegistrationSteps crypto files store rpId userId record files' files'' final where
  agrees : Agrees crypto files store
  wellFormed : record.WellFormed
  unused : Unused files record.fileName

variable {entry : CredentialIndexEntry} {path name : Path}

theorem CredentialRecord.WellFormed.isRecord (h : record.WellFormed) :
    isRecordName record.fileName = true := by
  rw [h.fileName]
  exact isRecordName_hexEncode h.credentialId

/-- The entry that the index gets for a record. -/
theorem loads_indexEntryFromRecord (h : record.WellFormed)
    (hfound : loadFound crypto files record.fileName = some record) :
    Loads crypto files (indexEntryFromRecord crypto record) record := by
  refine ⟨h.inUse, h.credentialId, rfl, ?_⟩
  rw [h.fileName] at hfound
  exact hfound

/-- The files of the new name are as they were written. -/
theorem Registers.new_eq
    (h : Registers crypto files store rpId userId record files' files'' final)
    (hpath : FileOf record.fileName path) : final path = files'' path := by
  rw [h.removes.frame]
  intro other hmem hother
  obtain ⟨entry, hentry, -, rfl⟩ := mem_namesAt_positions.mp hmem
  exact h.agrees.ne_of_unused h.unused hentry
    (hother.unique (h.agrees.isRecord hentry) h.wellFormed.isRecord hpath)

/-- The files of a name that is neither new nor removed are as after the search. -/
theorem Registers.kept_eq
    (h : Registers crypto files store rpId userId record files' files'' final)
    (hname : isRecordName name = true) (hnew : name ≠ record.fileName)
    (hkept : name ∉ namesAt store (positions (isAccount crypto files rpId userId) store))
    (hpath : FileOf name path) : final path = files' path := by
  rw [h.removes.frame, h.written.frame]
  · exact fun hother ↦ hnew (hpath.unique hname h.wellFormed.isRecord hother)
  · intro other hmem hother
    obtain ⟨entry, hentry, -, rfl⟩ := mem_namesAt_positions.mp hmem
    exact hkept (hpath.unique hname (h.agrees.isRecord hentry) hother ▸ hmem)

theorem Registers.ne_new
    (h : Registers crypto files store rpId userId record files' files'' final)
    (hentry : entry ∈ others crypto files store rpId userId) :
    indexEntryFileName entry ≠ record.fileName :=
  h.agrees.ne_of_unused h.unused (mem_others.mp hentry).1

/-- What is found of the other credentials is the same. -/
theorem Registers.found_eq
    (h : Registers crypto files store rpId userId record files' files'' final)
    (hentry : entry ∈ others crypto files store rpId userId) :
    loadFound crypto final (indexEntryFileName entry) =
      loadFound crypto files (indexEntryFileName entry) := by
  obtain ⟨hstore, hother⟩ := mem_others.mp hentry
  have hname := h.agrees.isRecord hstore
  have hkept : indexEntryFileName entry ∉
      namesAt store (positions (isAccount crypto files rpId userId) store) := by
    intro hmem
    obtain ⟨removed, hremoved, haccount, hsameName⟩ := mem_namesAt_positions.mp hmem
    rw [h.agrees.eq_of_name hremoved hstore hsameName, hother] at haccount
    exact absurd haccount (by simp)
  rw [← h.same.found _ hname]
  exact loadFound_congr (h.kept_eq hname (h.ne_new hentry) hkept (fileOf_recordPath _))
    (h.kept_eq hname (h.ne_new hentry) hkept (fileOf_counterFloorPath _))

/-- The new record is found. -/
theorem Registers.added
    (h : Registers crypto files store rpId userId record files' files'' final) :
    loadFound crypto final record.fileName = some record := by
  have hunused := h.unused.of_same h.wellFormed.isRecord h.agrees h.same
  obtain ⟨data, hrecorded, hfile⟩ := h.written.recorded
  have hcounter : final (counterFloorPath record.fileName) = none := by
    rw [h.new_eq (fileOf_counterFloorPath _), h.written.counter,
      hunused _ (fileOf_counterFloorPath _)]
  refine loadFound_of_recorded (h.new_eq (fileOf_recordPath _) ▸ hfile) hrecorded ?_ (fun _ ↦ rfl)
    le_rfl
  intro raw hraw
  exact absurd (hcounter.symm.trans hraw) (by simp)

/-- The index and the files agree again. -/
theorem Registers.agrees_final
    (h : Registers crypto files store rpId userId record files' files'' final)
    (hroom : (others crypto files store rpId userId).length < maxCredentials) :
    Agrees crypto final
      (others crypto files store rpId userId ++ [indexEntryFromRecord crypto record]) := by
  have hnewName : indexEntryFileName (indexEntryFromRecord crypto record) = record.fileName :=
    h.wellFormed.fileName.symm
  refine ⟨?_, ?_, fun entry hentry ↦ ?_, fun name hname hfile ↦ ?_⟩
  · rw [List.length_append, List.length_singleton]
    exact hroom
  · rw [List.map_append, List.map_singleton]
    refine List.Nodup.append ?_ (List.nodup_singleton _) ?_
    · exact h.agrees.distinct.sublist (List.filter_sublist.map _)
    · intro credentialId hmem hlast
      obtain ⟨entry, hentry, rfl⟩ := List.mem_map.mp hmem
      refine h.ne_new hentry ?_
      rw [indexEntryFileName, List.mem_singleton.mp hlast]
      exact hnewName
  · rcases List.mem_append.mp hentry with hentry | hentry
    · obtain ⟨record, hloads⟩ := h.agrees.loads entry (mem_others.mp hentry).1
      exact ⟨record, hloads.of_found (h.found_eq hentry)⟩
    · rw [List.mem_singleton.mp hentry]
      exact ⟨record, loads_indexEntryFromRecord h.wellFormed h.added⟩
  · by_cases hnew : name = record.fileName
    · exact ⟨_, List.mem_append_right _ List.mem_cons_self, hnew ▸ hnewName⟩
    · have hkept : name ∉ namesAt store (positions (isAccount crypto files rpId userId) store) :=
        fun hmem ↦ hfile (h.removes.gone name hmem)
      rw [h.kept_eq hname hnew hkept (fileOf_recordPath _), h.same.record name hname] at hfile
      obtain ⟨entry, hentry, rfl⟩ := h.agrees.listed name hname hfile
      refine ⟨entry, List.mem_append_left _ (mem_others.mpr ⟨hentry, ?_⟩), rfl⟩
      by_contra haccount
      rw [Bool.not_eq_false] at haccount
      exact hkept (mem_namesAt_positions.mpr ⟨entry, hentry, haccount, rfl⟩)

/-- What the steps of a registration come to. -/
theorem Registers.replaced
    (h : Registers crypto files store rpId userId record files' files'' final)
    (hresident : record.residentKey = true) (hrpId : record.rpId = rpId)
    (huserId : record.userId = userId)
    (hroom : (others crypto files store rpId userId).length < maxCredentials) :
    Replaced crypto files store rpId userId record final
      (others crypto files store rpId userId ++ [indexEntryFromRecord crypto record]) := by
  refine ⟨rfl, h.agrees_final hroom, ?_, fun entry hentry ↦ h.found_eq hentry, h.added⟩
  have hnone : (others crypto files store rpId userId).filter
      (isAccount crypto final rpId userId) = [] := by
    refine List.filter_eq_nil_iff.mpr fun entry hentry ↦ ?_
    rw [isAccount_congr (h.found_eq hentry), (mem_others.mp hentry).2]
    exact Bool.false_ne_true
  have hone : isAccount crypto final rpId userId (indexEntryFromRecord crypto record) = true := by
    have hname : indexEntryFileName (indexEntryFromRecord crypto record) = record.fileName :=
      h.wellFormed.fileName.symm
    unfold isAccount
    rw [hname, h.added]
    simp [indexEntryFromRecord, hresident, hrpId, huserId]
  rw [List.filter_append, hnone, List.nil_append, List.filter_cons_of_pos hone, List.filter_nil]

end Replacement

end ZeroFido.Store
