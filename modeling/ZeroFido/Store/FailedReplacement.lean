import ZeroFido.Store.Reindexing

/-!
# A replacement that fails

Before a new credential replaces others, these are searched for and loaded, which leaves every file
as it is (`ensures_findResidentCredentialIndicesForUser_inOrder`). Their removal then stops at the
first call that fails. If the record file of the first one is gone by then, a credential is
destroyed (`destroys`). Otherwise only a temporary file and a backup of that one may be gone
(`ensures_removeCredentialFilesByIndices_destroys`).
-/

set_option autoImplicit false
set_option relaxedAutoImplicit false

namespace ZeroFido.Store

open Foundations Storage

section Order

variable {crypto : Crypto} {files files' files'' : Path → Option Bytes} {store : CredentialStore}
  {entry : CredentialIndexEntry} {index : ℕ}

/-- The files of every credential in the index are in order. -/
structure InOrder (crypto : Crypto) (files : Path → Option Bytes) (store : CredentialStore) :
    Prop where
  lengths : ∀ entry ∈ store, entry.credentialId.length = credentialIdLen
  counts : ∀ entry ∈ store, CountsFrom crypto files entry.credentialId 0

/-- The files of the credentials in the index are the same. -/
def SameFiles (store : CredentialStore) (files files' : Path → Option Bytes) : Prop :=
  ∀ entry ∈ store, ∀ path, FileOf (indexEntryFileName entry) path → files' path = files path

theorem SameFiles.refl : SameFiles store files files := fun _ _ _ _ ↦ rfl

theorem SameFiles.trans (h : SameFiles store files files') (h' : SameFiles store files' files'') :
    SameFiles store files files'' :=
  fun entry hentry path hpath ↦ (h' entry hentry path hpath).trans (h entry hentry path hpath)

theorem SameFiles.loadFound_eq (h : SameFiles store files files') (hentry : entry ∈ store) :
    loadFound crypto files' (indexEntryFileName entry) =
      loadFound crypto files (indexEntryFileName entry) :=
  loadFound_congr (h entry hentry _ (fileOf_recordPath _))
    (h entry hentry _ (fileOf_counterFloorPath _))

theorem InOrder.isRecord (h : InOrder crypto files store) (hentry : entry ∈ store) :
    isRecordName (indexEntryFileName entry) = true :=
  isRecordName_hexEncode (h.lengths entry hentry)

theorem InOrder.of_same (h : InOrder crypto files store) (hsame : SameFiles store files files') :
    InOrder crypto files' store := by
  refine ⟨h.lengths, fun entry hentry ↦ (h.counts entry hentry).fades (Fades.of_eq ?_ ?_)⟩
  · have hpath := fileOf_recordPath (indexEntryFileName entry)
    exact congrArg₂ Option.or (hsame entry hentry _ hpath) (hsame entry hentry _ hpath.backup)
  · have hpath := fileOf_counterFloorPath (indexEntryFileName entry)
    exact congrArg₂ Option.or (hsame entry hentry _ hpath) (hsame entry hentry _ hpath.backup)

/-- The position is that of a credential that can be loaded. -/
def LoadsAt (crypto : Crypto) (files : Path → Option Bytes) (store : CredentialStore)
    (index : ℕ) : Prop :=
  ∃ entry, store[index]? = some entry ∧ entry.inUse = true ∧
    (loadFound crypto files (indexEntryFileName entry)).isSome

theorem LoadsAt.of_same (h : LoadsAt crypto files store index)
    (hsame : SameFiles store files files') : LoadsAt crypto files' store index := by
  obtain ⟨entry, hentry, hinUse, hfound⟩ := h
  refine ⟨entry, hentry, hinUse, ?_⟩
  rw [hsame.loadFound_eq (List.mem_of_getElem? hentry)]
  exact hfound

end Order

section Search

variable {Event : Type} {crypto : Crypto} {world : World Event} {store : CredentialStore}
  {entry : CredentialIndexEntry} {rpId userId : Bytes} {maxDeleted : ℕ}

/-- Loading a credential that is in order. -/
theorem ensures_loadRecord_inOrder (hlaws : SealLaws crypto) (h : InOrder crypto world.files store)
    (hentry : entry ∈ store) :
    Ensures (loadRecord crypto entry)
      (fun result world' ↦ world'.files = world.files ∧ ∀ record, result = some record →
        loadFound crypto world.files (indexEntryFileName entry) = some record)
      (fun _ ↦ True) world :=
  (ensures_loadRecord_fades hlaws (h.lengths entry hentry) (h.lengths entry hentry)
    (h.counts entry hentry)).mono (fun _ _ hloaded ↦ ⟨hloaded.2.1 rfl, hloaded.2.2⟩)
      fun _ _ ↦ trivial

/-- Whether a credential is one of the account's. -/
theorem ensures_isResidentCredentialOfUser_inOrder (hlaws : SealLaws crypto)
    (h : InOrder crypto world.files store) (hentry : entry ∈ store) :
    Ensures (isResidentCredentialOfUser crypto rpId userId entry)
      (fun found world' ↦ world'.files = world.files ∧ (found = true → entry.inUse = true ∧
        (loadFound crypto world.files (indexEntryFileName entry)).isSome))
      (fun _ ↦ True) world := by
  simp only [isResidentCredentialOfUser, ensures_ite, ensures_pure, ensures_bind]
  refine ⟨fun _ ↦ ⟨trivial, by simp⟩, fun hvisited ↦ ?_⟩
  refine (ensures_loadRecord_inOrder hlaws h hentry).mono ?_ fun _ hcut ↦ hcut
  rintro loaded final ⟨hfiles, hfound⟩
  cases loaded with
  | none => exact ⟨hfiles, by simp⟩
  | some record =>
    refine ⟨hfiles, fun _ ↦ ⟨?_, by rw [hfound record rfl]; rfl⟩⟩
    simp only [Bool.or_eq_true, Bool.not_eq_true', not_or, Bool.not_eq_false] at hvisited
    exact hvisited.1.1

/-- The search for the account's credentials leaves the files as they are, and what it finds can be
loaded. -/
theorem ensures_findResidentCredentialIndicesForUser_inOrder (hlaws : SealLaws crypto)
    (h : InOrder crypto world.files store) :
    Ensures (findResidentCredentialIndicesForUser crypto store rpId userId maxDeleted)
      (fun found world' ↦ world'.files = world.files ∧ ∀ indices, found = some indices →
        ∀ index ∈ indices, LoadsAt crypto world.files store index)
      (fun _ ↦ True) world := by
  have hloop : ∀ (rest : List CredentialIndexEntry) (start : ℕ) (deleted : List ℕ)
      (middle : World Event), store.drop start = rest → middle.files = world.files →
      (∀ index ∈ deleted, LoadsAt crypto world.files store index) →
      Ensures (findResidentIndices crypto rpId userId maxDeleted (rest.zipIdx start) deleted)
        (fun found world' ↦ world'.files = world.files ∧ ∀ indices, found = some indices →
          ∀ index ∈ indices, LoadsAt crypto world.files store index) (fun _ ↦ True) middle := by
    intro rest
    induction rest with
    | nil =>
      intro start deleted middle _ hfiles hdeleted
      refine ⟨hfiles, ?_⟩
      rintro _ ⟨⟩
      exact hdeleted
    | cons entry rest ih =>
      intro start deleted middle hrest hfiles hdeleted
      have hentry : store[start]? = some entry := by
        rw [← List.head?_drop, hrest, List.head?_cons]
      have htail : store.drop (start + 1) = rest := by
        rw [← List.tail_drop, hrest, List.tail_cons]
      have horder : InOrder crypto middle.files store := by
        rw [hfiles]
        exact h
      rw [List.zipIdx_cons, findResidentIndices, ensures_bind]
      refine (ensures_isResidentCredentialOfUser_inOrder hlaws horder
        (List.mem_of_getElem? hentry)).mono ?_ fun _ hcut ↦ hcut
      rintro found next ⟨hnext, hfound⟩
      rw [hfiles] at hnext hfound
      rw [ensures_ite]
      refine ⟨fun hselected ↦ (ensures_ite _ _ _).mpr ⟨fun _ ↦ ⟨hnext, by simp⟩, fun _ ↦ ?_⟩,
        fun _ ↦ ih (start + 1) deleted next htail hnext hdeleted⟩
      refine ih (start + 1) _ next htail hnext fun index hindex ↦ ?_
      rcases List.mem_append.mp hindex with hindex | hindex
      · exact hdeleted index hindex
      · rw [List.mem_singleton.mp hindex]
        exact ⟨entry, hentry, hfound hselected⟩
  exact hloop store 0 [] world rfl rfl (by simp)

end Search

section Removal

variable {Event : Type} {crypto : Crypto} {files : Path → Option Bytes} {world : World Event}
  {store : CredentialStore} {index removed : ℕ} {indices rest : List ℕ}

/-- Whether removing some credentials, one after the other, takes the record file of the first one
and then fails. A credential has six files, and the record file is the third one to go. -/
def destroys (credentials : ℕ) (outcomes : List WriteOutcome) : Bool :=
  (failureWithin (6 * credentials) outcomes).any fun failure ↦ decide (2 < taken failure)

theorem takes_removeCredentialFilesByIndices (h : InOrder crypto files store)
    (hindices : ∀ index ∈ indices, LoadsAt crypto files store index) :
    Takes ((namesAt store indices).flatMap credentialPaths)
      (Prod.fst <$> removeCredentialFilesByIndices store indices removed :
        Program (World Event) Bool) := by
  induction indices generalizing removed with
  | nil => exact takes_nil
  | cons index rest ih =>
    rw [List.forall_mem_cons] at hindices
    obtain ⟨⟨entry, hentry, hinUse, -⟩, hrest⟩ := hindices
    have hname := h.isRecord (List.mem_of_getElem? hentry)
    have hprogram : (Prod.fst <$> removeCredentialFilesByIndices store (index :: rest) removed :
        Program (World Event) Bool) = (recoveryRemoveRecordPaths (indexEntryFileName entry) <&&>
          Prod.fst <$> removeCredentialFilesByIndices store rest (removed + 1)) := by
      rw [removeCredentialFilesByIndices, hentry]
      simp only [hinUse, Bool.not_true, Bool.false_eq_true, if_false, map_bind, andM]
      refine bind_congr fun ok ↦ ?_
      cases ok <;> rfl
    rw [hprogram, namesAt, List.map_cons, List.flatMap_cons, entryAt_of_getElem? hentry]
    exact (takes_recoveryRemoveRecordPaths hname).andThen (ih hrest)

theorem length_flatMap_credentialPaths (names : List Path) :
    (names.flatMap credentialPaths).length = 6 * names.length := by
  induction names with
  | nil => rfl
  | cons name rest ih =>
    have hlength : (credentialPaths name).length = 6 := rfl
    rw [List.flatMap_cons, List.length_append, ih, hlength, List.length_cons]
    omega

/-- What a removal that fails comes to. -/
theorem ensures_removeCredentialFilesByIndices_destroys {entry : CredentialIndexEntry}
    (h : InOrder crypto files store) (hentry : store[index]? = some entry)
    (hindices : ∀ other ∈ index :: rest, LoadsAt crypto files store other) :
    Ensures (removeCredentialFilesByIndices store (index :: rest) 0)
      (fun result world' ↦
        (destroys (index :: rest).length world.writes = false → result.1 = true ∨ result.2 = 0 ∧
          ∀ path, path ∉ [tempPath (indexEntryFileName entry),
            backupOf (recordPath (indexEntryFileName entry))] →
              world'.files path = world.files path) ∧
        (destroys (index :: rest).length world.writes = true → result.1 = false ∧
          world'.files (recordPath (indexEntryFileName entry)) = none))
      (fun _ ↦ True) world := by
  rw [List.forall_mem_cons] at hindices
  obtain ⟨⟨_, hentry', hinUse, -⟩, hrest⟩ := hindices
  obtain rfl := Option.some.inj (hentry.symm.trans hentry')
  have hname := h.isRecord (List.mem_of_getElem? hentry)
  have hlength : (credentialPaths (indexEntryFileName entry)).length = 6 := rfl
  have hcalls : 6 * (index :: rest).length =
      (credentialPaths (indexEntryFileName entry)).length + 6 * rest.length := by
    rw [List.length_cons, hlength]
    omega
  rw [destroys, hcalls, removeCredentialFilesByIndices, hentry]
  simp only [hinUse, Bool.not_true, Bool.false_eq_true, if_false, ensures_bind]
  refine ((takes_recoveryRemoveRecordPaths hname).spec world).mono ?_ fun _ hcut ↦ hcut
  rintro ok middle ⟨hdone, hfailed⟩
  rw [ensures_ite]
  refine ⟨fun hnot ↦ ?_, fun hok ↦ ?_⟩
  · -- The first credential is the one that could not be removed.
    obtain ⟨failure, hbound, hfailure, hfiles⟩ := hfailed (by simpa using hnot)
    rw [ensures_pure, hfailure, Option.any_some, hfiles]
    refine ⟨fun hspares ↦ Or.inr ⟨rfl, fun path hpath ↦ cleared_of_not_mem fun hmem ↦ hpath ?_⟩,
      fun hdestroys ↦ ⟨rfl, cleared_of_mem ?_⟩⟩
    · rw [decide_eq_false_iff_not, not_lt] at hspares
      exact List.take_subset_take_left _ hspares hmem
    · rw [decide_eq_true_eq] at hdestroys
      exact List.take_subset_take_left (credentialPaths (indexEntryFileName entry))
        (Nat.succ_le_of_lt hdestroys) (by simp [credentialPaths])
  · -- The record file of the first credential is gone, and stays away.
    obtain ⟨hfiles, hwithin⟩ := hdone (by simpa using hok)
    have hgone : middle.files (recordPath (indexEntryFileName entry)) = none := by
      rw [hfiles]
      exact cleared_of_mem (by simp [credentialPaths])
    have htakes := (@takes_removeCredentialFilesByIndices Event crypto files store 1 rest h
      hrest).spec middle
    rw [ensures_map, length_flatMap_credentialPaths] at htakes
    have hlengths : (namesAt store rest).length = rest.length := List.length_map _
    rw [hwithin]
    refine htakes.mono ?_ fun _ hcut ↦ hcut
    rintro ⟨removed, removedCount⟩ final ⟨hdone', hfailed'⟩
    cases removed with
    | true =>
      have hnone := (hdone' rfl).2 0
      rw [Nat.add_zero, hlengths, failureWithin, Option.map_none] at hnone
      rw [hnone]
      exact ⟨fun _ ↦ Or.inl rfl, fun hdestroys ↦ absurd hdestroys (by simp)⟩
    | false =>
      obtain ⟨failure, -, hfailure, hfiles'⟩ := hfailed' rfl
      have hsome := hfailure 0
      rw [Nat.add_zero, hlengths] at hsome
      rw [hsome, Option.map_some, Option.any_some, taken_add, hlength]
      refine ⟨fun hspares ↦ absurd hspares (by simp), fun _ ↦ ⟨rfl, ?_⟩⟩
      rw [hfiles', cleared, hgone, ite_self]

end Removal

section Survival

variable {Event : Type} {crypto : Crypto} {files files' files'' : Path → Option Bytes}
  {world : World Event} {name first : Path} {credentialId : Bytes} {record : CredentialRecord}

/-- What a load of the credential reads is the same, and so is the backup of its counter floor. -/
structure Survives (name : Path) (files files' : Path → Option Bytes) : Prop where
  record : files' (recordPath name) = files (recordPath name)
  floor : files' (counterFloorPath name) = files (counterFloorPath name)
  backup : files' (backupOf (counterFloorPath name)) = files (backupOf (counterFloorPath name))

theorem Survives.trans (h : Survives name files files') (h' : Survives name files' files'') :
    Survives name files files'' :=
  ⟨h'.record.trans h.record, h'.floor.trans h.floor, h'.backup.trans h.backup⟩

theorem SameFiles.survives {store : CredentialStore} {entry : CredentialIndexEntry}
    (h : SameFiles store files files') (hentry : entry ∈ store) :
    Survives (indexEntryFileName entry) files files' :=
  ⟨h entry hentry _ (fileOf_recordPath _), h entry hentry _ (fileOf_counterFloorPath _),
    h entry hentry _ (fileOf_counterFloorPath _).backup⟩

/-- The temporary file and the backup of a record may go. -/
theorem survives_of_frame (hname : isRecordName name = true) (hfirst : isRecordName first = true)
    (h : ∀ path, path ∉ [tempPath first, backupOf (recordPath first)] →
      files' path = files path) : Survives name files files' := by
  have hother : ∀ path, FileOf name path →
      (name = first → path ≠ tempPath first ∧ path ≠ backupOf (recordPath first)) →
      files' path = files path := by
    intro path hpath hsame
    refine h path fun hmem ↦ ?_
    rw [List.mem_cons, List.mem_singleton] at hmem
    have hfile : FileOf first path := by
      rcases hmem with rfl | rfl
      · exact fileOf_tempPath first
      · exact (fileOf_recordPath first).backup
    obtain ⟨htemp, hbackup⟩ := hsame (hpath.unique hname hfirst hfile)
    exact hmem.elim htemp hbackup
  refine ⟨hother _ (fileOf_recordPath name) ?_, hother _ (fileOf_counterFloorPath name) ?_,
    hother _ (fileOf_counterFloorPath name).backup ?_⟩
  · rintro rfl
    exact ⟨(atomicPaths_record hname).temp_ne.symm, (backupOf_ne _).symm⟩
  · rintro rfl
    obtain ⟨htemp, -, -⟩ := counterFloorPath_ne hname (Or.inr (Or.inr rfl))
    obtain ⟨hbackup, -, -⟩ := counterFloorPath_ne hname (Or.inr (Or.inl rfl))
    exact ⟨htemp.symm, hbackup.symm⟩
  · rintro rfl
    obtain ⟨-, htemp, -⟩ := counterFloorPath_ne hname (Or.inr (Or.inr rfl))
    obtain ⟨-, hbackup, -⟩ := counterFloorPath_ne hname (Or.inr (Or.inl rfl))
    exact ⟨htemp.symm, hbackup.symm⟩

/-- A credential that survives is found by a startup in which nothing fails. -/
theorem Survives.retained (h : Survives (hexEncode credentialId) files world.files)
    (hcounts : CountsFrom crypto files credentialId 0)
    (hfound : loadFound crypto files (hexEncode credentialId) = some record)
    (hclean : Clean world) : Retained crypto credentialId record world := by
  have hretrievable : Retrievable crypto files (hexEncode credentialId) record :=
    ⟨record.signCount, le_rfl, hfound⟩
  refine ⟨hclean, hcounts.fades (Fades.of_eq ?_ ?_), hretrievable.of_eq h.record h.floor⟩
  · -- The record is in the primary file, whatever becomes of its backup.
    obtain ⟨data, hdata⟩ := Option.isSome_iff_exists.mp hretrievable.isSome
    rw [heldRecord, heldRecord, logical, logical, h.record, hdata, Option.some_or, Option.some_or]
  · exact congrArg₂ Option.or h.floor h.backup

end Survival

end ZeroFido.Store
