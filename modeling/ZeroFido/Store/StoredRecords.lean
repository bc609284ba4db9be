import ZeroFido.Store.FailedRemoval
import ZeroFido.Store.Replacement

/-!
# Entries and the records they name

An entry of the index names a record file (`NamesRecord`), and an index in which every entry does is
`Stored`. Each operation on the index and the files keeps it, whatever fails, but for two kinds of
failures: a removal that takes a record file and then fails (`strands`), and a replacement of a
record that leaves no primary file (`tearsPrimary`).
-/

set_option autoImplicit false
set_option relaxedAutoImplicit false

namespace ZeroFido.Store

open Foundations Storage

section Stored

variable (crypto : Crypto) (files : Path → Option Bytes)

/-- The record file of the entry exists and decodes to a record with the entry's id and of the
entry's RP. -/
def NamesRecord (entry : CredentialIndexEntry) : Prop :=
  ∃ record embedded, recordFound crypto files (indexEntryFileName entry) = some (record, embedded) ∧
    record.credentialId = entry.credentialId ∧ entry.rpIdHash = crypto.sha256 record.rpId

/-- Every entry of the index names a record, and no two entries have one id. -/
structure Stored (store : CredentialStore) : Prop where
  distinct : (store.map (·.credentialId)).Nodup
  inUse : ∀ entry ∈ store, entry.inUse = true
  credentialId : ∀ entry ∈ store, entry.credentialId.length = credentialIdLen
  names : ∀ entry ∈ store, NamesRecord crypto files entry

/-- Every record file is as it was. -/
def RecordsKept (files files' : Path → Option Bytes) : Prop :=
  ∀ name, isRecordName name = true → files' (recordPath name) = files (recordPath name)

end Stored

section Facts

variable {crypto : Crypto} {files files' files'' : Path → Option Bytes}
  {store store' : CredentialStore} {entry : CredentialIndexEntry} {record : CredentialRecord}

theorem RecordsKept.refl : RecordsKept files files := fun _ _ ↦ rfl

theorem RecordsKept.trans (h : RecordsKept files files') (h' : RecordsKept files' files'') :
    RecordsKept files files'' :=
  fun name hname ↦ (h' name hname).trans (h name hname)

theorem NamesRecord.congr (h : NamesRecord crypto files entry)
    (hfile : files' (recordPath (indexEntryFileName entry)) =
      files (recordPath (indexEntryFileName entry))) : NamesRecord crypto files' entry := by
  unfold NamesRecord
  rw [recordFound_congr hfile]
  exact h

theorem stored_nil : Stored crypto files [] := ⟨List.nodup_nil, by simp, by simp, by simp⟩

theorem Stored.isRecord (h : Stored crypto files store) (hentry : entry ∈ store) :
    isRecordName (indexEntryFileName entry) = true :=
  isRecordName_hexEncode (h.credentialId entry hentry)

/-- An index whose entries find their record files as before. -/
theorem Stored.of_files (h : Stored crypto files store)
    (hfiles : ∀ entry ∈ store, files' (recordPath (indexEntryFileName entry)) =
      files (recordPath (indexEntryFileName entry))) : Stored crypto files' store :=
  ⟨h.distinct, h.inUse, h.credentialId, fun entry hentry ↦
    (h.names entry hentry).congr (hfiles entry hentry)⟩

theorem Stored.of_kept (h : Stored crypto files store) (hkept : RecordsKept files files') :
    Stored crypto files' store :=
  h.of_files fun _ hentry ↦ hkept _ (h.isRecord hentry)

theorem Stored.sublist (h : Stored crypto files store) (hsub : store'.Sublist store) :
    Stored crypto files store' :=
  ⟨h.distinct.sublist (hsub.map _), fun entry hentry ↦ h.inUse entry (hsub.subset hentry),
    fun entry hentry ↦ h.credentialId entry (hsub.subset hentry),
    fun entry hentry ↦ h.names entry (hsub.subset hentry)⟩

/-- An index with one more entry, of a credential it did not have. -/
theorem Stored.append (h : Stored crypto files store)
    (hfresh : ∀ other ∈ store, other.credentialId ≠ entry.credentialId)
    (hinUse : entry.inUse = true) (hid : entry.credentialId.length = credentialIdLen)
    (hnames : NamesRecord crypto files entry) : Stored crypto files (store ++ [entry]) := by
  constructor
  · rw [List.map_append, List.map_singleton]
    refine List.Nodup.append h.distinct (List.nodup_singleton _) fun credentialId hmem hlast ↦ ?_
    obtain ⟨other, hother, rfl⟩ := List.mem_map.mp hmem
    exact hfresh other hother (List.mem_singleton.mp hlast)
  · exact fun other hother ↦ (List.mem_append.mp hother).elim (h.inUse other)
      fun hlast ↦ List.mem_singleton.mp hlast ▸ hinUse
  · exact fun other hother ↦ (List.mem_append.mp hother).elim (h.credentialId other)
      fun hlast ↦ List.mem_singleton.mp hlast ▸ hid
  · exact fun other hother ↦ (List.mem_append.mp hother).elim (h.names other)
      fun hlast ↦ List.mem_singleton.mp hlast ▸ hnames

/-- An index with the entry of a record that is written. -/
theorem Stored.added (h : Stored crypto files store) (hrecord : record.WellFormed)
    (hfresh : ∀ entry ∈ store, entry.credentialId ≠ record.credentialId)
    (hnames : NamesRecord crypto files (indexEntryFromRecord crypto record)) :
    Stored crypto files (store ++ [indexEntryFromRecord crypto record]) :=
  h.append hfresh hrecord.inUse hrecord.credentialId hnames

/-- The ids of an index tell its entries apart. -/
theorem Stored.eq_of_name (h : Stored crypto files store) {other : CredentialIndexEntry}
    (hentry : entry ∈ store) (hother : other ∈ store)
    (hname : indexEntryFileName entry = indexEntryFileName other) : entry = other :=
  List.inj_on_of_nodup_map h.distinct hentry hother (hexEncode_injective hname)

/-- Publishing a counter. -/
theorem Stored.publishCounterAdvance {counterHighWater : ℕ} (h : Stored crypto files store)
    (hpublish : publishCounterAdvance store record counterHighWater = some store') :
    Stored crypto files store' := by
  obtain ⟨index, entry, -, hentry, -, -, rfl⟩ := publishCounterAdvance_eq_some hpublish
  obtain ⟨hlength, hat⟩ := List.getElem?_eq_some_iff.mp hentry
  have hmem : ∀ other ∈ store.set index (entry.advance record counterHighWater),
      ∃ original ∈ store, other.inUse = original.inUse ∧
        other.credentialId = original.credentialId ∧ other.rpIdHash = original.rpIdHash := by
    intro other hother
    rcases List.mem_or_eq_of_mem_set hother with hmem | rfl
    · exact ⟨other, hmem, rfl, rfl, rfl⟩
    · exact ⟨entry, List.mem_of_getElem? hentry, rfl, rfl, rfl⟩
  refine ⟨?_, fun other hother ↦ ?_, fun other hother ↦ ?_, fun other hother ↦ ?_⟩
  · have hsame : (store.set index (entry.advance record counterHighWater)).map (·.credentialId) =
        store.map (·.credentialId) := by
      have hbound : index < (store.map (·.credentialId)).length := by rwa [List.length_map]
      have hid : (entry.advance record counterHighWater).credentialId =
          (store.map (·.credentialId))[index] := by
        rw [List.getElem_map, hat]
        rfl
      rw [List.map_set, hid, List.set_getElem_self]
    rw [hsame]
    exact h.distinct
  · obtain ⟨original, horiginal, hinUse, -⟩ := hmem other hother
    rw [hinUse, h.inUse original horiginal]
  · obtain ⟨original, horiginal, -, hid, -⟩ := hmem other hother
    rw [hid, h.credentialId original horiginal]
  · obtain ⟨original, horiginal, -, hid, hrpId⟩ := hmem other hother
    have hnames := h.names original horiginal
    unfold NamesRecord indexEntryFileName at hnames ⊢
    rw [hid, hrpId]
    exact hnames

/-- A record that is found is well formed and has the name of its file. -/
theorem wellFormed_of_recordFound (hopen : OpenKeepsLength crypto) {name : Path}
    {embedded : Option Bytes} (h : recordFound crypto files name = some (record, embedded)) :
    record.WellFormed ∧ record.fileName = name := by
  obtain ⟨data, -, h⟩ := Option.bind_eq_some_iff.mp h
  split_ifs at h
  exact wellFormed_of_recordValue hopen h

/-- What a load finds is the record of the file, with a sign count of its own. -/
theorem exists_of_loadFound {name : Path} (h : loadFound crypto files name = some record) :
    ∃ stored embedded, recordFound crypto files name = some (stored, embedded) ∧
      record = { stored with signCount := record.signCount } := by
  obtain ⟨⟨stored, embedded⟩, hfound, h⟩ := Option.bind_eq_some_iff.mp h
  obtain ⟨signCount, -, h⟩ := Option.bind_eq_some_iff.mp h
  obtain rfl := Option.some.inj h
  exact ⟨stored, embedded, hfound, rfl⟩

end Facts

section Loads

variable {Event : Type} {crypto : Crypto} {world world' : World Event} {store : CredentialStore}
  {entry : CredentialIndexEntry} {name : Path}

/-- A rewritten counter floor leaves every record file. -/
theorem Rewrites.recordsKept {fresh : Bytes → Prop} (hname : isRecordName name = true)
    (h : Rewrites (counterFloorPath name) (counterFloorTempPath name) fresh world world') :
    RecordsKept world.files world'.files := by
  intro other hother
  by_cases hsame : name = other
  · rw [← hsame]
    exact (h.record_eq hname).1
  · exact (h.within (fileOf_counterFloorPath name) (fileOf_counterFloorTempPath name)).elsewhere
      hname hother hsame _ (fileOf_recordPath other)

/-- Loading the record of an entry. -/
theorem ensures_loadRecord_kept (hlaws : SealLaws crypto)
    (hname : isRecordName (indexEntryFileName entry) = true) :
    Ensures (loadRecord crypto entry)
      (fun loaded world' ↦ RecordsKept world.files world'.files ∧
        ∀ record, loaded = some record →
          loadFound crypto world.files (indexEntryFileName entry) = some record)
      (fun _ ↦ True) world := by
  simp only [loadRecord, ensures_ite, ensures_pure]
  refine ⟨fun _ ↦ ⟨RecordsKept.refl, by simp⟩, fun _ ↦ ?_⟩
  refine (ensures_recordFormatLoadRecord hlaws hname).mono ?_ fun _ _ ↦ trivial
  rintro loaded final hloaded
  refine ⟨hloaded.rewrites.recordsKept hname, ?_⟩
  rintro record rfl
  rcases hloaded.result_eq with hfound | ⟨habsurd, -⟩
  · rw [Option.map_id] at hfound
    exact hfound.symm
  · exact absurd habsurd (by simp)

/-- The search for the credentials of an account. -/
theorem ensures_findResidentIndices_kept (hlaws : SealLaws crypto) {rpId userId : Bytes}
    {maxDeleted : ℕ} (rest : List (CredentialIndexEntry × ℕ)) (deleted : List ℕ)
    (hrest : ∀ entry ∈ rest, isRecordName (indexEntryFileName entry.1) = true) :
    Ensures (findResidentIndices crypto rpId userId maxDeleted rest deleted)
      (fun _ world' ↦ RecordsKept world.files world'.files) (fun _ ↦ True) world := by
  induction rest generalizing deleted world with
  | nil => exact RecordsKept.refl
  | cons head rest ih =>
    obtain ⟨entry, index⟩ := head
    rw [List.forall_mem_cons] at hrest
    have hone : Ensures (isResidentCredentialOfUser crypto rpId userId entry)
        (fun _ world' ↦ RecordsKept world.files world'.files) (fun _ ↦ True) world := by
      simp only [isResidentCredentialOfUser, ensures_ite, ensures_pure, ensures_bind]
      refine ⟨fun _ ↦ RecordsKept.refl, fun _ ↦ ?_⟩
      refine (ensures_loadRecord_kept hlaws hrest.1).mono ?_ fun _ _ ↦ trivial
      rintro loaded final ⟨hkept, -⟩
      cases loaded <;> exact hkept
    rw [findResidentIndices, ensures_bind]
    refine hone.mono (fun found middle hmiddle ↦ ?_) fun _ _ ↦ trivial
    simp only [ensures_ite, ensures_pure]
    refine ⟨fun _ ↦ ⟨fun _ ↦ hmiddle, fun _ ↦ ?_⟩, fun _ ↦ ?_⟩
    · exact (ih _ hrest.2).mono (fun _ _ hfinal ↦ hmiddle.trans hfinal) fun _ _ ↦ trivial
    · exact (ih _ hrest.2).mono (fun _ _ hfinal ↦ hmiddle.trans hfinal) fun _ _ ↦ trivial

theorem ensures_findResidentCredentialIndicesForUser_kept (hlaws : SealLaws crypto)
    {rpId userId : Bytes} {maxDeleted : ℕ} (h : Stored crypto world.files store) :
    Ensures (findResidentCredentialIndicesForUser crypto store rpId userId maxDeleted)
      (fun _ world' ↦ RecordsKept world.files world'.files) (fun _ ↦ True) world := by
  refine ensures_findResidentIndices_kept hlaws _ _ fun entry hentry ↦ h.isRecord ?_
  exact List.mem_of_getElem? (List.mem_zipIdx_iff_getElem?.mp hentry)

/-- Rebuilding the index, from listed files with different names. -/
theorem ensures_bootstrapIndex_stored (hlaws : SealLaws crypto) (hopen : OpenKeepsLength crypto)
    {entries : List DirEntry} (h : Stored crypto world.files store)
    (hdistinct : ((entries.filter DirEntry.isRecord).map (·.name)).Nodup)
    (hahead : ∀ entry ∈ store, ∀ other ∈ entries, other.isRecord = true →
      indexEntryFileName entry ≠ other.name) :
    Ensures (bootstrapIndex crypto store entries)
      (fun store' world' ↦ Stored crypto world'.files store') (fun _ ↦ True) world := by
  induction entries generalizing store world with
  | nil => exact h
  | cons head rest ih =>
    have hrest : ((rest.filter DirEntry.isRecord).map (·.name)).Nodup :=
      hdistinct.sublist (((List.sublist_cons_self head rest).filter _).map _)
    have hbehind : ∀ entry ∈ store, ∀ other ∈ rest, other.isRecord = true →
        indexEntryFileName entry ≠ other.name :=
      fun entry hentry other hother ↦ hahead entry hentry other (List.mem_cons_of_mem _ hother)
    rw [bootstrapIndex, ensures_ite]
    refine ⟨fun _ ↦ ih h hrest hbehind, fun hskip ↦ ?_⟩
    simp only [Bool.or_eq_true, not_or, Bool.not_eq_true', Bool.not_eq_true, Bool.not_eq_false]
      at hskip
    obtain ⟨⟨hfile, hname⟩, -⟩ := hskip
    have hrecord : head.isRecord = true := by
      rw [DirEntry.isRecord, hfile, hname]
      rfl
    rw [ensures_bind]
    refine (ensures_recordFormatLoadIndex hlaws hname).mono ?_ fun _ _ ↦ trivial
    intro result middle hloaded
    have hmiddle := h.of_kept (hloaded.rewrites.recordsKept hname)
    cases result with
    | none => exact ih hmiddle hrest hbehind
    | some entry =>
      rcases hloaded.result_eq with hfound | ⟨habsurd, -⟩
      swap
      · exact absurd habsurd (by simp)
      obtain ⟨loaded, hloadedFound, rfl⟩ := Option.map_eq_some_iff.mp hfound.symm
      obtain ⟨stored, embedded, hstored, hsame⟩ := exists_of_loadFound hloadedFound
      obtain ⟨hwellFormed, hfileName⟩ := wellFormed_of_recordFound hopen hstored
      have hid : loaded.credentialId = stored.credentialId := by rw [hsame]
      have hentryName : indexEntryFileName (indexEntryFromRecord crypto loaded) = head.name := by
        rw [← hfileName, hwellFormed.fileName, ← hid]
        rfl
      refine ih (hmiddle.append ?_ ?_ ?_ ⟨stored, embedded, ?_, hid.symm, ?_⟩) hrest ?_
      · intro other hother hotherId
        refine hahead other hother head List.mem_cons_self hrecord ?_
        rw [← hentryName, indexEntryFileName, indexEntryFileName, hotherId]
      · rw [hsame]
        exact hwellFormed.inUse
      · rw [hsame]
        exact hwellFormed.credentialId
      · rw [hentryName, ← hstored]
        exact recordFound_congr (hloaded.rewrites.recordsKept hname _ hname)
      · rw [hsame]
        rfl
      · intro other hother next hnext hnextRecord
        rcases List.mem_append.mp hother with hother | hother
        · exact hbehind other hother next hnext hnextRecord
        · rw [List.mem_singleton.mp hother, hentryName]
          rw [List.filter_cons_of_pos hrecord, List.map_cons, List.nodup_cons] at hdistinct
          exact fun hsameName ↦ hdistinct.1 (hsameName ▸ List.mem_map_of_mem
            (List.mem_filter.mpr ⟨hnext, hnextRecord⟩))

/-- A startup on any files. -/
theorem ensures_bootstrapInit_stored (hlaws : SealLaws crypto) (hopen : OpenKeepsLength crypto)
    {listings : StartupListings}
    (hdistinct : ∀ entries, listings.records = some entries →
      ((entries.filter DirEntry.isRecord).map (·.name)).Nodup) :
    Ensures (bootstrapInit crypto listings)
      (fun result world' ↦ Stored crypto world'.files result.2) (fun _ ↦ True) world := by
  rw [bootstrapInit, ensures_bind]
  refine ensures_ensureAppDataDir.mono (fun ready first _ ↦ ?_) fun _ _ ↦ trivial
  rw [ensures_ite]
  refine ⟨fun _ ↦ stored_nil, fun _ ↦ ?_⟩
  rw [ensures_bind]
  refine (ensures_recoveryCleanupTempFiles_foreign hlaws).mono (fun _ second _ ↦ ?_)
    fun _ _ ↦ trivial
  cases hrecords : listings.records with
  | none => exact stored_nil
  | some entries =>
    simp only [ensures_bind, ensures_pure]
    exact ensures_bootstrapIndex_stored hlaws hopen stored_nil (hdistinct entries hrecords)
      (by simp)

end Loads

section Changes

variable {Event : Type} {crypto : Crypto} {world : World Event} {store : CredentialStore}
  {record : CredentialRecord} {name : Path} {indices : List ℕ} {removed : ℕ}

theorem sublist_publishDeletedIndices : (publishDeletedIndices store indices).Sublist store := by
  unfold publishDeletedIndices compactAfterDelete
  induction indices with
  | nil => exact List.Sublist.refl store
  | cons index rest ih => exact (List.eraseIdx_sublist _ index).trans ih

/-- Removing one credential that is not stranded: without success its record file is still there. -/
theorem ensures_recoveryRemoveRecordPaths_kept (hname : isRecordName name = true)
    {more : ℕ} (hspares : strands (more + 1) world.writes = false) :
    Ensures (recoveryRemoveRecordPaths name)
      (fun ok world' ↦
        (∀ other, isRecordName other = true → other ≠ name →
          world'.files (recordPath other) = world.files (recordPath other)) ∧
        (ok = true → strands more world'.writes = false) ∧
        (ok = false → world'.files (recordPath name) = world.files (recordPath name)))
      (fun _ ↦ True) world := by
  have hcalls : 6 * (more + 1) = (credentialPaths name).length + 6 * more := by
    have hlength : (credentialPaths name).length = 6 := rfl
    omega
  rw [strands, hcalls] at hspares
  have htakes := @takes_recoveryRemoveRecordPaths Event name hname
  refine ((htakes.spec world).and htakes.frame).mono ?_ fun _ _ ↦ trivial
  rintro ok final ⟨⟨hdone, hfailed⟩, hframe⟩
  refine ⟨fun other hother hne ↦ hframe _ (recordPath_not_mem_credentialPaths hname hother hne),
    fun hok ↦ ?_, fun hok ↦ ?_⟩
  · -- What fails behind the six calls fails in the removals to come.
    rw [(hdone hok).2, Option.any_map] at hspares
    rw [strands, ← hspares]
    refine congrArg (fun test ↦ (failureWithin (6 * more) final.writes).any test) ?_
    funext failure
    have hlength : (credentialPaths name).length = 6 := rfl
    simp only [hlength, taken_add, decide_eq_decide]
    omega
  · obtain ⟨failure, hbound, hfailure, hfiles⟩ := hfailed hok
    rw [hfailure, Option.any_some, decide_eq_false_iff_not] at hspares
    have hlength : (credentialPaths name).length = 6 := rfl
    rw [hfiles, cleared_of_not_mem (recordPath_not_mem_take hname (by omega))]

/-- The positions that a removal by positions comes to: it stops at one that is not in use. -/
def inUsePositions (store : CredentialStore) (indices : List ℕ) : List ℕ :=
  indices.takeWhile fun index ↦ store[index]?.any (·.inUse)

/-- Removing credentials by their positions. The removed ones are the first, as many as the result
says, and every other record file is still there. -/
theorem ensures_removeCredentialFilesByIndices_kept
    (hname : ∀ entry ∈ store, isRecordName (indexEntryFileName entry) = true)
    (hspares : strands (inUsePositions store indices).length world.writes = false) :
    Ensures (removeCredentialFilesByIndices store indices removed)
      (fun result world' ↦ ∃ count, result.2 = removed + count ∧
        (result.1 = true → count = indices.length) ∧
        (∀ index ∈ indices.take count, index < store.length) ∧
        ∀ name, isRecordName name = true → name ∉ namesAt store (indices.take count) →
          world'.files (recordPath name) = world.files (recordPath name))
      (fun _ ↦ True) world := by
  induction indices generalizing removed world with
  | nil => exact ⟨0, rfl, fun _ ↦ rfl, by simp, fun _ _ _ ↦ rfl⟩
  | cons index rest ih =>
    have hstopped : ∃ count, removed = removed + count ∧
        (false = true → count = (index :: rest).length) ∧
        (∀ position ∈ (index :: rest).take count, position < store.length) ∧
        ∀ name, isRecordName name = true → name ∉ namesAt store ((index :: rest).take count) →
          world.files (recordPath name) = world.files (recordPath name) :=
      ⟨0, rfl, by simp, by simp, fun _ _ _ ↦ rfl⟩
    rw [removeCredentialFilesByIndices]
    cases hentry : store[index]? with
    | none => exact hstopped
    | some entry =>
      refine (ensures_ite _ _ _).mpr ⟨fun _ ↦ hstopped, fun hinUse ↦ ?_⟩
      have hhead : inUsePositions store (index :: rest) = index :: inUsePositions store rest := by
        refine List.takeWhile_cons_of_pos ?_
        rw [hentry, Option.any_some]
        simpa using hinUse
      have hisName := hname entry (List.mem_of_getElem? hentry)
      have hnameAt : namesAt store [index] = [indexEntryFileName entry] := by
        rw [namesAt, List.map_singleton, entryAt_of_getElem? hentry]
      rw [hhead, List.length_cons] at hspares
      rw [ensures_bind]
      refine (ensures_recoveryRemoveRecordPaths_kept hisName hspares).mono ?_ fun _ _ ↦ trivial
      rintro ok middle ⟨helsewhere, hdone, hfailed⟩
      rw [ensures_ite]
      refine ⟨fun hnot ↦ ?_, fun hok ↦ ?_⟩
      · have hok : ok = false := by simpa using hnot
        refine ⟨0, rfl, by simp, by simp, fun name hname _ ↦ ?_⟩
        by_cases hsame : name = indexEntryFileName entry
        · rw [hsame]
          exact hfailed hok
        · exact helsewhere name hname hsame
      · refine (ih (hdone (by simpa using hok))).mono ?_ fun _ _ ↦ trivial
        rintro result final ⟨count, hcount, hall, hbounded, hkept⟩
        refine ⟨count + 1, by omega, fun hresult ↦ ?_, ?_, fun name hname hnot ↦ ?_⟩
        · rw [hall hresult, List.length_cons]
        · rw [List.take_succ_cons, List.forall_mem_cons]
          exact ⟨(List.getElem?_eq_some_iff.mp hentry).1, hbounded⟩
        · have hsplit : namesAt store ((index :: rest).take (count + 1)) =
              indexEntryFileName entry :: namesAt store (rest.take count) := by
            rw [List.take_succ_cons, namesAt, List.map_cons, entryAt_of_getElem? hentry]
            rfl
          rw [hsplit, List.mem_cons, not_or] at hnot
          rw [hkept name hname hnot.2, helsewhere name hname hnot.1]

/-- The index without some positions, when only the record files of these have changed. -/
theorem Stored.publishDeletedIndices {files files' : Path → Option Bytes}
    (h : Stored crypto files store) (hindices : Ascending store indices)
    (hkept : ∀ name, isRecordName name = true → name ∉ namesAt store indices →
      files' (recordPath name) = files (recordPath name)) :
    Stored crypto files' (publishDeletedIndices store indices) := by
  refine (h.sublist sublist_publishDeletedIndices).of_files fun entry hentry ↦ ?_
  have hmem := sublist_publishDeletedIndices.subset hentry
  obtain ⟨position, hposition, hnot⟩ := exists_of_mem_foldr_eraseIdx hindices.sorted hentry
  refine hkept _ (h.isRecord hmem) fun hlisted ↦ ?_
  obtain ⟨index, hindex, hname⟩ := List.mem_map.mp hlisted
  have hbound := hindices.bounded index hindex
  rw [entryAt_of_getElem? (List.getElem?_eq_getElem hbound)] at hname
  -- The entry of an erased position with that name would be the entry itself.
  have hsame := h.eq_of_name (List.getElem_mem hbound) hmem hname
  obtain ⟨hlength, hvalue⟩ := List.getElem?_eq_some_iff.mp hposition
  have heq : index = position :=
    (h.distinct.of_map _).getElem_inj_iff.mp (hsame.trans hvalue.symm)
  exact hnot (heq ▸ hindex)

/-- A credential that the index does not have is none of those at some positions. -/
theorem not_mem_namesAt (hbounded : ∀ index ∈ indices, index < store.length)
    (hrecord : record.WellFormed)
    (hfresh : ∀ entry ∈ store, entry.credentialId ≠ record.credentialId) :
    record.fileName ∉ namesAt store indices := by
  intro hmem
  obtain ⟨index, hindex, hname⟩ := List.mem_map.mp hmem
  have hbound := hbounded index hindex
  rw [entryAt_of_getElem? (List.getElem?_eq_getElem hbound), hrecord.fileName] at hname
  exact hfresh _ (List.getElem_mem hbound) (hexEncode_injective hname)

/-- Deleting one credential. -/
theorem ensures_deleteRecord_stored (h : Stored crypto world.files store) {credentialId : Bytes}
    (hspares : (findIndexById store credentialId).isSome → strands 1 world.writes = false) :
    Ensures (deleteRecord store credentialId)
      (fun result world' ↦ Stored crypto world'.files result.2) (fun _ ↦ True) world := by
  unfold deleteRecord
  cases hindex : findIndexById store credentialId with
  | none => exact h
  | some index =>
    obtain ⟨hlength, hmatches, -⟩ := List.findIdx?_eq_some_iff_getElem.mp hindex
    rw [Bool.and_eq_true, beq_iff_eq] at hmatches
    obtain ⟨-, rfl⟩ := hmatches
    have hmem : store[index] ∈ store := List.getElem_mem hlength
    have hat : entryAt store index = store[index] :=
      entryAt_of_getElem? (List.getElem?_eq_getElem hlength)
    simp only [ensures_bind]
    have hspared := hspares (by rw [hindex]; rfl)
    refine (ensures_recoveryRemoveRecordPaths_kept (h.isRecord hmem) hspared).mono ?_
      fun _ _ ↦ trivial
    rintro ok final ⟨helsewhere, -, hfailed⟩
    rw [ensures_ite]
    refine ⟨fun hnot ↦ ?_, fun _ ↦ ?_⟩
    · refine h.of_files fun entry hentry ↦ ?_
      by_cases hsame : indexEntryFileName entry = indexEntryFileName store[index]
      · rw [hsame]
        exact hfailed (by simpa using hnot)
      · exact helsewhere _ (h.isRecord hentry) hsame
    · have hindices : Ascending store [index] := ⟨List.pairwise_singleton _ _, by simpa⟩
      refine h.publishDeletedIndices hindices fun name hname hnot ↦ helsewhere name hname ?_
      rw [namesAt, List.map_singleton, List.mem_singleton, hat] at hnot
      exact hnot

/-- Writing the record of a credential that the index does not have yet. -/
theorem ensures_recordFormatWriteRecord_stored (hlaws : SealLaws crypto)
    (h : Stored crypto world.files store) (hrecord : record.WellFormed)
    (hfresh : ∀ entry ∈ store, entry.credentialId ≠ record.credentialId) :
    Ensures (recordFormatWriteRecord crypto record)
      (fun ok world' ↦ Stored crypto world'.files store ∧
        (ok = true → NamesRecord crypto world'.files (indexEntryFromRecord crypto record)))
      (fun _ ↦ True) world := by
  refine (ensures_recordFormatWriteRecord hlaws hrecord).mono ?_ fun _ _ ↦ trivial
  rintro ok final ⟨hrewrites, hdone, -⟩
  have hwithin := hrewrites.within (fileOf_recordPath _) (fileOf_tempPath _)
  have hstored : Stored crypto final.files store := by
    refine h.of_files fun entry hentry ↦ ?_
    refine hwithin.elsewhere hrecord.isRecord (h.isRecord hentry) (fun hsame ↦ ?_) _
      (fileOf_recordPath _)
    rw [hrecord.fileName] at hsame
    exact hfresh entry hentry (hexEncode_injective hsame).symm
  refine ⟨hstored, fun hok ↦ ?_⟩
  obtain ⟨data, hrecorded, hfile⟩ := hdone hok
  obtain ⟨counterFloor, hfound, -⟩ := recordFound_of_recorded hfile hrecorded
  refine ⟨record, some counterFloor, ?_, rfl, rfl⟩
  rw [hrecord.fileName] at hfound
  exact hfound

/-- Adding a credential that the index does not have yet. -/
theorem ensures_addRecord_stored (hlaws : SealLaws crypto) (h : Stored crypto world.files store)
    (hrecord : record.WellFormed)
    (hfresh : ∀ entry ∈ store, entry.credentialId ≠ record.credentialId) :
    Ensures (addRecord crypto store record)
      (fun result world' ↦ Stored crypto world'.files result.2) (fun _ ↦ True) world := by
  simp only [addRecord, ensures_ite, ensures_pure, ensures_bind]
  refine ⟨fun _ ↦ h, fun _ ↦ ?_⟩
  refine (ensures_recordFormatWriteRecord_stored hlaws h hrecord hfresh).mono ?_ fun _ _ ↦ trivial
  rintro ok final ⟨hstored, hnames⟩
  exact ⟨fun _ ↦ hstored, fun hok ↦ hstored.added hrecord hfresh (hnames (by simpa using hok))⟩

/-- The record with the sign count that a reservation writes. -/
def CredentialRecord.reserved (record : CredentialRecord) : CredentialRecord :=
  { record with signCount := counterReservedHighWater record.signCount }

theorem CredentialRecord.WellFormed.reserved (h : record.WellFormed) :
    record.reserved.WellFormed := by
  refine { h with signCount := ?_ }
  have hcount := h.signCount
  dsimp only [CredentialRecord.reserved]
  unfold counterReservedHighWater
  split_ifs <;> omega

/-- What reserving sign counts does before it replaces the record, and whether it comes to that. -/
def beforeReplacement (crypto : Crypto) (record : CredentialRecord) :
    Program (World Event) Bool := do
  if !(← counterFloorWriteValueFields crypto record.fileName record.credentialId record.createdAt
      record.reserved.signCount) then
    return false
  return (← recordFormatEncode crypto record.reserved).isSome

/-- Reserving sign counts for a credential of the index. -/
theorem ensures_recordFormatReserveCounter_stored (hlaws : SealLaws crypto)
    (h : Stored crypto world.files store) {entry : CredentialIndexEntry} (hentry : entry ∈ store)
    (hrecord : record.WellFormed) (hid : record.credentialId = entry.credentialId)
    (hrpId : entry.rpIdHash = crypto.sha256 record.rpId)
    (hspares : ∀ middle, (beforeReplacement crypto record).run world = .ok true middle →
      tearsPrimary middle.writes = false) :
    Ensures (recordFormatReserveCounter crypto record)
      (fun _ world' ↦ Stored crypto world'.files store) (fun _ ↦ True) world := by
  have hname := hrecord.isRecord
  have hfileName : indexEntryFileName entry = record.fileName := by
    rw [indexEntryFileName, hrecord.fileName, hid]
  simp only [recordFormatReserveCounter, ensures_bind]
  refine (ensures_counterFloorWriteValueFields hlaws hname).with_run.mono ?_ fun _ _ ↦ trivial
  rintro ok first ⟨⟨hfloor, -, -⟩, hrun⟩
  have hfirst := h.of_kept (hfloor.recordsKept hname)
  simp only [ensures_ite, ensures_pure]
  refine ⟨fun _ ↦ hfirst, fun hok ↦ ?_⟩
  obtain rfl : ok = true := by simpa using hok
  simp only [recordFormatWriteRecord, ensures_bind]
  have hencode : Ensures (recordFormatEncode crypto record.reserved)
      (fun result world' ↦ Idle first world' ∧ ∀ data, result = some data →
        Recorded crypto data record.reserved) (fun _ ↦ True) first :=
    ensures_recordFormatEncode hlaws hrecord.reserved fun _ _ hidle _ hdata ↦ ⟨hidle, hdata⟩
  refine hencode.with_run.mono ?_ fun _ _ ↦ trivial
  rintro encoded second ⟨⟨hidle, hdata⟩, hencoded⟩
  have hsecond : Stored crypto second.files store := by
    rw [hidle.files_eq]
    exact hfirst
  cases encoded with
  | none => exact hsecond
  | some data =>
    have hspared : tearsPrimary second.writes = false := by
      refine hspares second ?_
      rw [beforeReplacement, run_bind_eq_ok]
      refine ⟨true, first, hrun, ?_⟩
      simp only [Bool.not_true, Bool.false_eq_true, if_false, run_bind_eq_ok]
      exact ⟨some data, second, hencoded, rfl⟩
    have hrecorded := hdata data rfl
    obtain ⟨stored, embedded, hfound, -⟩ := hsecond.names entry hentry
    obtain ⟨old, hold, -⟩ := Option.bind_eq_some_iff.mp hfound
    rw [hfileName] at hold
    have hpaths := atomicPaths_record hname
    refine ((ensures_writeFileAtomic hpaths hrecorded.nonempty).and
      (ensures_writeFileAtomic_torn hpaths hrecorded.nonempty hold)).mono ?_ fun _ _ ↦ trivial
    rintro written final ⟨⟨hmoves, -⟩, -, hkept⟩
    have hfinal : Stored crypto final.files store := by
      refine ⟨h.distinct, h.inUse, h.credentialId, fun other hother ↦ ?_⟩
      by_cases hsame : other = entry
      · subst hsame
        rcases hkept hspared with hfile | hfile
        · refine (hsecond.names other hother).congr ?_
          rw [hfileName, hfile, hold]
        · obtain ⟨counterFloor, hfound, -⟩ :=
            @recordFound_of_recorded _ record.reserved _ _ hfile hrecorded
          refine ⟨record.reserved, some counterFloor, ?_, hid, hrpId⟩
          rw [hfileName]
          exact hfound
      · refine (hsecond.names other hother).congr ?_
        have hwithin := within_of_moves (fileOf_recordPath _) (fileOf_tempPath _) hmoves
        refine hwithin.elsewhere hname (h.isRecord hother) (fun hother' ↦ hsame ?_) _
          (fileOf_recordPath _)
        exact h.eq_of_name hother hentry (hother'.symm.trans hfileName.symm)
    rw [ensures_ite]
    exact ⟨fun _ ↦ hfinal, fun _ ↦ hfinal⟩

/-- Taking back the files of a credential that the index does not have. -/
theorem ensures_removeRecordFile_stored (h : Stored crypto world.files store)
    (hrecord : record.WellFormed)
    (hfresh : ∀ entry ∈ store, entry.credentialId ≠ record.credentialId) :
    Ensures (removeRecordFile record) (fun _ world' ↦ Stored crypto world'.files store)
      (fun _ ↦ True) world := by
  have hnamed : record.fileName ≠ [] := by
    intro hnil
    have hlength := length_of_isRecordName hrecord.isRecord
    rw [hnil] at hlength
    exact absurd hlength (by decide)
  simp only [removeRecordFile, hrecord.inUse, Bool.not_true, Bool.false_eq_true, if_false,
    if_neg hnamed]
  refine (takes_recoveryRemoveRecordPaths hrecord.isRecord).frame.mono ?_ fun _ _ ↦ trivial
  intro ok final hframe
  refine h.of_files fun entry hentry ↦ hframe _ ?_
  refine recordPath_not_mem_credentialPaths hrecord.isRecord (h.isRecord hentry) fun hsame ↦ ?_
  rw [hrecord.fileName] at hsame
  exact hfresh entry hentry (hexEncode_injective hsame)

/-- Advancing the counter of an entry. -/
theorem ensures_advanceCounter_stored (hlaws : SealLaws crypto)
    (h : Stored crypto world.files store) {index : ℕ} {entry : CredentialIndexEntry}
    (hentry : store[index]? = some entry) (hrecord : record.WellFormed)
    (hid : record.credentialId = entry.credentialId)
    (hrpId : entry.rpIdHash = crypto.sha256 record.rpId)
    (hspares : entry.signCount ≤ record.signCount → entry.counterHighWater < record.signCount →
      ∀ middle, (beforeReplacement crypto record).run world = .ok true middle →
        tearsPrimary middle.writes = false) :
    Ensures (advanceCounter crypto store record)
      (fun result world' ↦ Stored crypto world'.files result.2) (fun _ ↦ True) world := by
  have hmem := List.mem_of_getElem? hentry
  have hfind : (findIndexById store record.credentialId).bind (store[·]?) = some entry := by
    have hsome : (findIndexById store record.credentialId).isSome := by
      rw [findIndexById, List.findIdx?_isSome, List.any_eq_true]
      exact ⟨entry, hmem, by simp [h.inUse entry hmem, hid]⟩
    obtain ⟨position, hposition⟩ := Option.isSome_iff_exists.mp hsome
    obtain ⟨hlength, hmatches, -⟩ := List.findIdx?_eq_some_iff_getElem.mp hposition
    rw [Bool.and_eq_true, beq_iff_eq] at hmatches
    rw [hposition, Option.bind_some, List.getElem?_eq_getElem hlength]
    exact congrArg some (List.inj_on_of_nodup_map h.distinct (List.getElem_mem hlength) hmem
      (hmatches.2.trans hid))
  have hprepare : Ensures (prepareCounterAdvance crypto entry record)
      (fun _ world' ↦ Stored crypto world'.files store) (fun _ ↦ True) world := by
    simp only [prepareCounterAdvance, ensures_ite, ensures_pure]
    refine ⟨fun _ ↦ h, fun hcount ↦ ⟨fun hhigh ↦ ?_, fun _ ↦ h⟩⟩
    exact ensures_recordFormatReserveCounter_stored hlaws h hmem hrecord hid hrpId
      (hspares (not_lt.mp hcount) hhigh)
  unfold advanceCounter
  rw [hfind, ensures_bind]
  refine hprepare.mono (fun prepared final hfinal ↦ ?_) fun _ _ ↦ trivial
  cases prepared with
  | none => exact hfinal
  | some counterHighWater =>
    cases hpublish : publishCounterAdvance store record counterHighWater with
    | none =>
      simp only [hpublish, ensures_pure]
      exact hfinal
    | some store' =>
      simp only [hpublish, ensures_pure]
      exact hfinal.publishCounterAdvance hpublish

end Changes

end ZeroFido.Store
