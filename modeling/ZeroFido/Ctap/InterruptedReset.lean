import ZeroFido.Ctap.MakeCredential
import ZeroFido.Store.Startup
import ZeroFido.Storage.CrashSafety

/-!
# A reset that does not come to its end

A reset removes the files of the U2F key, then those of the PIN, then every file of the data
directory in the order of its listing. Where it stops, by a failing removal or a loss of power, the
files it has come to are gone (`wiped`) and the others survive.

The PIN goes first. A reset that stops after it and before the last record leaves credentials
without the PIN that protected them (`reset_stops_after_pin`). `interrupted_reset_protects` says
when this does not happen: the PIN file or its backup survives, or no record file and no backup of
one does.
-/

set_option autoImplicit false
set_option relaxedAutoImplicit false

namespace ZeroFido.Ctap

open Foundations Storage Store

section Definitions

variable (crypto : Crypto)

/-- `ZfStorageInitStatus`. -/
inductive StorageInitStatus where
  | ok
  | invalidPinState
  | failed
  deriving DecidableEq, Repr

/-- `zf_app_lifecycle_init_storage`, as far as it reads files. -/
def lifecycleInitStorage (listings : StartupListings) :
    Program Pin.Device (StorageInitStatus × CredentialStore × Pin.ClientPinState) := do
  let (ready, store) ← bootstrapInit crypto listings
  if !ready then
    return (.failed, store, {})
  let (pinInit, pinState) ← Pin.pinInitWithResult crypto
  match pinInit with
  | .invalidPersistedState => return (.invalidPinState, store, pinState)
  | .storageError => return (.failed, store, pinState)
  | .ok => return (.ok, store, pinState)

/-- What `zf_ctap_handle_reset` does to the files. -/
def resetFiles (listing : Listing) : Program Pin.Device Unit := do
  if ← wipeFiles listing then
    let _ ← Pin.pinInitWithResult crypto

/-- The files of `u2f_data_wipe`, in its order. -/
def u2fPathsToWipe : List Path :=
  [u2fKeyFileTmp, backupOf u2fKeyFile, u2fKeyFile, u2fCntFileTmp, backupOf u2fCntFile, u2fCntFile]

/-- The files of the data directory, in the order of a listing. -/
def listedPaths (entries : List DirEntry) : List Path :=
  (entries.filter fun entry ↦ !entry.isDir).map fun entry ↦ childPath entry.name

/-- The files a reset removes, in its order. -/
def wipePaths (listing : Listing) : List Path :=
  u2fPathsToWipe ++ (pinPathsToWipe ++ listedPaths (listing.getD []))

/-- The files that are gone when a sequence of removals stops: those of the removals that succeeded,
and that of the removal that stopped it, if it had taken effect. -/
def wiped : List Path → List WriteOutcome → List Path
  | [], _ => []
  | path :: paths, outcomes =>
    match outcomes.headD .done with
    | .done => path :: wiped paths outcomes.tail
    | .failed progress => if progress = 0 then [] else [path]
    | .interrupted progress => if progress = 0 then [] else [path]

/-- The files without those that are gone. -/
def without (gone : List Path) (files : Path → Option Bytes) : Path → Option Bytes :=
  fun path ↦ if path ∈ gone then none else files path

/-- The files a stopped reset leaves. -/
def survivors (listing : Listing) (outcomes : List WriteOutcome) (files : Path → Option Bytes) :
    Path → Option Bytes :=
  without (wiped (wipePaths listing) outcomes) files

/-- A device that has been switched on again, and on which nothing fails. -/
def restarted (world : Pin.Device) : Pin.Device :=
  { world with writes := [], reads := [], enclave := [], keyGenerations := [] }

/-- What the startup after a reset with the given outcomes comes to. -/
def afterReset (listing : Listing) (outcomes : List WriteOutcome) (listings : StartupListings)
    (world : Pin.Device) : Option (StorageInitStatus × CredentialStore × Pin.ClientPinState) :=
  resultOf (lifecycleInitStorage crypto listings)
    (restarted (performed (resetFiles crypto listing) outcomes world).2)

/-- No credential that existed before is indexed while the PIN is reported as not set. -/
def Protected (files : Path → Option Bytes)
    (startup : Option (StorageInitStatus × CredentialStore × Pin.ClientPinState)) : Prop :=
  ∀ store pinState, startup = some (.ok, store, pinState) → pinState.pinSet = false →
    ∀ entry ∈ store, files (recordPath (hexEncode entry.credentialId)) = none ∧
      files (backupOf (recordPath (hexEncode entry.credentialId))) = none

/-- A store at rest: every record is complete and none has a backup, and neither has the PIN. -/
structure AtRest (files : Path → Option Bytes) : Prop where
  record : ∀ name, isRecordName name = true → files (recordPath name) ≠ none →
    ∃ record, Intact crypto files name record
  recordBackup : ∀ name, isRecordName name = true → files (backupOf (recordPath name)) = none
  counterBackup : ∀ name, isRecordName name = true →
    files (backupOf (counterFloorPath name)) = none
  pinBackup : files (backupOf Pin.pinFilePath) = none

/-- The listings of a startup are of the files: a listed backup exists, and every record is listed,
among at most as many as the index has room for. -/
structure ListsFiles (listings : StartupListings) (files : Path → Option Bytes) : Prop where
  backups : ∀ entries, listings.backups = some entries → ∀ entry ∈ entries, entry.isDir = false →
    (files (childPath entry.name)).isSome
  records : ∃ entries, listings.records = some entries ∧
    (entries.filter DirEntry.isRecord).length ≤ maxCredentials ∧
    ∀ name, isRecordName name = true → (files (recordPath name)).isSome → { name } ∈ entries

end Definitions

section Wiping

variable {world world' : Pin.Device} {paths : List Path}

theorem without_nil (files : Path → Option Bytes) : without [] files = files := by
  funext path
  simp [without]

theorem without_append (gone more : List Path) (files : Path → Option Bytes) :
    without (gone ++ more) files = without more (without gone files) := by
  funext path
  by_cases hmore : path ∈ more
  · simp [without, hmore]
  · by_cases hgone : path ∈ gone
    · simp [without, hgone]
    · simp [without, hmore, hgone]

theorem removed_eq_without (path : Path) (files : Path → Option Bytes) :
    removed path files = without [path] files := by
  funext other
  by_cases hother : other = path
  · simp [removed, without, hother]
  · simp [removed, without, hother]

/-- A program that removes files one after the other, and stops at the first removal that fails. -/
structure Wipes (paths : List Path) (program : Program Pin.Device Bool) : Prop where
  spec : ∀ world : Pin.Device, world.directories appDataRoot = true →
    world.directories appDataDir = true →
    Ensures program
      (fun ok world' ↦ world'.directories = world.directories ∧
        (ok = true → world'.files = without paths world.files ∧
          ∀ later, wiped (paths ++ later) world.writes = paths ++ wiped later world'.writes) ∧
        (ok = false → ∃ gone, world'.files = without gone world.files ∧
          ∀ later, wiped (paths ++ later) world.writes = gone))
      (fun world' ↦ ∃ gone, world'.files = without gone world.files ∧
        ∀ later, wiped (paths ++ later) world.writes = gone) world

theorem wipes_nil : Wipes [] (return true) := by
  refine ⟨fun world _ _ ↦ ⟨rfl, fun _ ↦ ⟨?_, fun _ ↦ rfl⟩, by simp⟩⟩
  rw [without_nil]

theorem wipes_removeOptional (path : Path) : Wipes [path] (removeOptional path) := by
  constructor
  intro world _ _
  simp only [removeOptional, attempt, nextWrite, ensures_bind, ensures_modifyGet]
  cases houtcome : world.writes.headD .done with
  | done =>
    refine ⟨rfl, fun _ ↦ ⟨removed_eq_without path world.files, fun later ↦ ?_⟩, by simp⟩
    rw [List.singleton_append, wiped, houtcome]
    rfl
  | failed progress =>
    refine ⟨rfl, by simp, fun _ ↦ ⟨if progress = 0 then [] else [path], ?_, fun later ↦ ?_⟩⟩
    · by_cases hzero : progress = 0
      · simp [hzero, without_nil]
      · have hmin : min progress 1 ≠ 0 := by omega
        simp [hzero, hmin, removed_eq_without]
    · rw [List.singleton_append, wiped, houtcome]
  | interrupted progress =>
    refine ⟨if progress = 0 then [] else [path], ?_, fun later ↦ ?_⟩
    · by_cases hzero : progress = 0
      · simp [hzero, without_nil]
      · have hmin : min progress 1 ≠ 0 := by omega
        simp [hzero, hmin, removed_eq_without]
    · rw [List.singleton_append, wiped, houtcome]

/-- One sequence of removals after the other. -/
theorem Wipes.andThen {more : List Path} {first second : Program Pin.Device Bool}
    (hfirst : Wipes paths first) (hsecond : Wipes more second) :
    Wipes (paths ++ more) (first <&&> second) := by
  constructor
  intro world hroot hdir
  rw [ensures_andM]
  refine (hfirst.spec world hroot hdir).mono ?_ ?_
  · rintro ok middle ⟨hdirs, hdone, hstopped⟩
    refine ⟨fun hok ↦ ?_, fun hok ↦ ⟨hdirs, by simp, fun _ ↦ ?_⟩⟩
    · obtain ⟨hfiles, hwiped⟩ := hdone hok
      refine (hsecond.spec middle (by rw [hdirs, hroot]) (by rw [hdirs, hdir])).mono ?_ ?_
      · rintro ok' final ⟨hdirs', hdone', hstopped'⟩
        refine ⟨hdirs'.trans hdirs, fun hok' ↦ ?_, fun hok' ↦ ?_⟩
        · obtain ⟨hfiles', hwiped'⟩ := hdone' hok'
          refine ⟨by rw [hfiles', hfiles, without_append], fun later ↦ ?_⟩
          rw [List.append_assoc, hwiped, hwiped', List.append_assoc]
        · obtain ⟨gone, hfiles', hwiped'⟩ := hstopped' hok'
          refine ⟨paths ++ gone, by rw [hfiles', hfiles, without_append], fun later ↦ ?_⟩
          rw [List.append_assoc, hwiped, hwiped']
      · rintro final ⟨gone, hfiles', hwiped'⟩
        refine ⟨paths ++ gone, by rw [hfiles', hfiles, without_append], fun later ↦ ?_⟩
        rw [List.append_assoc, hwiped, hwiped']
    · obtain ⟨gone, hfiles, hwiped⟩ := hstopped hok
      exact ⟨gone, hfiles, fun later ↦ by rw [List.append_assoc, hwiped]⟩
  · rintro final ⟨gone, hfiles, hwiped⟩
    exact ⟨gone, hfiles, fun later ↦ by rw [List.append_assoc, hwiped]⟩

theorem wipes_removeAtomicFile {path temp : Path}
    (hbuild : buildSuffixedPath path ".bak".toList = some (backupOf path)) :
    Wipes [temp, backupOf path, path] (removeAtomicFile path temp) := by
  unfold removeAtomicFile
  simp only [hbuild]
  exact (wipes_removeOptional temp).andThen
    ((wipes_removeOptional (backupOf path)).andThen (wipes_removeOptional path))

theorem wipes_u2fDataWipe : Wipes u2fPathsToWipe u2fDataWipe :=
  (wipes_removeAtomicFile (by decide)).andThen (wipes_removeAtomicFile (by decide))

theorem wipes_removeOptionalPaths (paths : List Path) : Wipes paths (removeOptionalPaths paths) := by
  induction paths with
  | nil => exact wipes_nil
  | cons path rest ih => exact (wipes_removeOptional path).andThen ih

theorem visitDirEntries_wipe (entries : List DirEntry) :
    (visitDirEntries bootstrapWipeVisitor entries : Program Pin.Device Bool) =
      removeOptionalPaths (listedPaths entries) := by
  induction entries with
  | nil => rfl
  | cons entry rest ih =>
    rw [visitDirEntries, ih, bootstrapWipeVisitor]
    by_cases hdir : entry.isDir = true
    · have hlisted : listedPaths (entry :: rest) = listedPaths rest := by simp [listedPaths, hdir]
      rw [if_pos hdir, hlisted, pure_bind]
      rfl
    · have hlisted : listedPaths (entry :: rest) = childPath entry.name :: listedPaths rest := by
        simp [listedPaths, hdir]
      rw [if_neg hdir, hlisted, removeOptionalPaths, andM]
      refine bind_congr fun ok ↦ ?_
      cases ok
      · rfl
      · rfl

theorem wipes_ensureAppDataDir : Wipes [] ensureAppDataDir := by
  constructor
  intro world hroot hdir
  simp only [ensureAppDataDir, ensureDir, ensures_andM, ensures_bind, ensures_get, hroot, hdir,
    if_true, ensures_pure]
  exact ⟨fun _ ↦ ⟨trivial, fun _ ↦ ⟨(without_nil world.files).symm, fun _ ↦ rfl⟩, by simp⟩, by simp⟩

/-- The removals up to where they stop, whatever is done after them. -/
theorem Wipes.andLast {more : List Path} {first second : Program Pin.Device Bool}
    (hfirst : Wipes paths first)
    (hsecond : ∀ world : Pin.Device, world.directories appDataRoot = true →
      world.directories appDataDir = true → Ensures second
        (fun _ world' ↦ world'.files = without (wiped more world.writes) world.files)
        (fun world' ↦ world'.files = without (wiped more world.writes) world.files) world)
    (hroot : world.directories appDataRoot = true) (hdir : world.directories appDataDir = true) :
    Ensures (first <&&> second)
      (fun _ world' ↦ world'.files = without (wiped (paths ++ more) world.writes) world.files)
      (fun world' ↦ world'.files = without (wiped (paths ++ more) world.writes) world.files)
      world := by
  rw [ensures_andM]
  refine (hfirst.spec world hroot hdir).mono ?_ ?_
  · rintro ok middle ⟨hdirs, hdone, hstopped⟩
    constructor
    · intro hok
      obtain ⟨hfiles, hwiped⟩ := hdone hok
      have hsame : without (wiped more middle.writes) middle.files =
          without (wiped (paths ++ more) world.writes) world.files := by
        rw [hfiles, hwiped, without_append]
      refine (hsecond middle (by rw [hdirs, hroot]) (by rw [hdirs, hdir])).mono ?_ ?_
      · exact fun _ final hfinal ↦ hfinal.trans hsame
      · exact fun final hfinal ↦ hfinal.trans hsame
    · intro hok
      obtain ⟨gone, hfiles, hwiped⟩ := hstopped hok
      rw [hwiped, hfiles]
  · rintro final ⟨gone, hfiles, hwiped⟩
    rw [hwiped, hfiles]

theorem ensures_forEachDirEntry_wipe (listing : Listing)
    (hroot : world.directories appDataRoot = true) (hdir : world.directories appDataDir = true) :
    Ensures (forEachDirEntry bootstrapWipeVisitor listing)
      (fun _ world' ↦ world'.files =
        without (wiped (listedPaths (listing.getD [])) world.writes) world.files)
      (fun world' ↦ world'.files =
        without (wiped (listedPaths (listing.getD [])) world.writes) world.files) world := by
  cases listing with
  | none => exact (without_nil world.files).symm
  | some entries =>
    rw [forEachDirEntry, visitDirEntries_wipe, Option.getD_some]
    have hwipes := (wipes_removeOptionalPaths (listedPaths entries)).spec world hroot hdir
    refine hwipes.mono ?_ ?_
    · rintro ok final ⟨-, hdone, hstopped⟩
      cases ok with
      | true =>
        obtain ⟨hfiles, hwiped⟩ := hdone rfl
        rw [hfiles, ← List.append_nil (listedPaths entries), hwiped, wiped]
      | false =>
        obtain ⟨gone, hfiles, hwiped⟩ := hstopped rfl
        rw [hfiles, ← List.append_nil (listedPaths entries), hwiped]
    · rintro final ⟨gone, hfiles, hwiped⟩
      rw [hfiles, ← List.append_nil (listedPaths entries), hwiped]

theorem bootstrapWipeAppData_eq (listing : Listing) :
    (bootstrapWipeAppData listing : Program Pin.Device Bool) =
      (ensureAppDataDir <&&> removeOptionalPaths pinPathsToWipe <&&>
        forEachDirEntry bootstrapWipeVisitor listing) := by
  unfold bootstrapWipeAppData andM
  refine bind_congr fun ready ↦ ?_
  cases ready with
  | false => rfl
  | true =>
    refine bind_congr fun ok ↦ ?_
    cases ok
    · rfl
    · rfl

/-- A reset removes the files in its order, up to where it stops. -/
theorem ensures_wipeFiles {listing : Listing} (hroot : world.directories appDataRoot = true)
    (hdir : world.directories appDataDir = true) :
    Ensures (wipeFiles listing)
      (fun _ world' ↦ world'.files = survivors listing world.writes world.files)
      (fun world' ↦ world'.files = survivors listing world.writes world.files) world := by
  rw [wipeFiles, bootstrapWipeAppData_eq]
  refine wipes_u2fDataWipe.andLast ?_ hroot hdir
  intro middle hroot' hdir'
  refine wipes_ensureAppDataDir.andLast ?_ hroot' hdir'
  intro middle hroot' hdir'
  refine (wipes_removeOptionalPaths pinPathsToWipe).andLast ?_ hroot' hdir'
  intro middle hroot' hdir'
  exact ensures_forEachDirEntry_wipe listing hroot' hdir'

end Wiping

section Restart

variable {crypto : Crypto} {world : Pin.Device} {files : Path → Option Bytes}

/-- The files are these, up to a recovery of the PIN file. -/
structure UpToPin (files : Path → Option Bytes) (world : Pin.Device) : Prop where
  frame : ∀ path, path ≠ Pin.pinFilePath → path ≠ backupOf Pin.pinFilePath →
    path ≠ Pin.pinFileTempPath → world.files path = files path
  pin : logical world.files Pin.pinFilePath = logical files Pin.pinFilePath

theorem ensures_resetFiles {listing : Listing} (hroot : world.directories appDataRoot = true)
    (hdir : world.directories appDataDir = true) :
    Ensures (resetFiles crypto listing)
      (fun _ ↦ UpToPin (survivors listing world.writes world.files))
      (UpToPin (survivors listing world.writes world.files)) world := by
  have hsame : ∀ middle : Pin.Device, middle.files = survivors listing world.writes world.files →
      UpToPin (survivors listing world.writes world.files) middle :=
    fun middle hmiddle ↦ ⟨fun _ _ _ _ ↦ by rw [hmiddle], by rw [hmiddle]⟩
  simp only [resetFiles, ensures_bind, ensures_ite, ensures_pure]
  refine (ensures_wipeFiles hroot hdir).mono (fun wiped middle hmiddle ↦ ⟨fun _ ↦ ?_, fun _ ↦ ?_⟩)
    hsame
  · refine (Pin.ensures_pinInitWithResult.and Pin.ensures_pinInitWithResult_frame).mono ?_ ?_
    · rintro _ final ⟨⟨-, hlogical, -⟩, hframe⟩
      rw [hmiddle] at hlogical hframe
      exact ⟨hframe, hlogical⟩
    · rintro final ⟨⟨-, hlogical⟩, hframe⟩
      rw [hmiddle] at hlogical hframe
      exact ⟨hframe, hlogical⟩
  · exact hsame middle hmiddle

/-- What a reset leaves. -/
theorem upToPin_performed_resetFiles {listing : Listing} (outcomes : List WriteOutcome)
    (hroot : world.directories appDataRoot = true) (hdir : world.directories appDataDir = true) :
    UpToPin (survivors listing outcomes world.files)
      (restarted (performed (resetFiles crypto listing) outcomes world).2) := by
  have hspec : Ensures (resetFiles crypto listing)
      (fun _ ↦ UpToPin (survivors listing outcomes world.files))
      (UpToPin (survivors listing outcomes world.files)) { world with writes := outcomes } :=
    ensures_resetFiles hroot hdir
  obtain ⟨hreturned, hlost⟩ := performed_of_ensures world outcomes hspec
  have hkept : UpToPin (survivors listing outcomes world.files)
      (performed (resetFiles crypto listing) outcomes world).2 := by
    cases hresult : (performed (resetFiles crypto listing) outcomes world).1 with
    | none => exact hlost hresult
    | some value => exact hreturned value hresult
  exact ⟨hkept.frame, hkept.pin⟩

theorem foreign_of_short {file : Path} {last : Char} (hlength : file.length < 64)
    (hlast : file.getLast? = some last) (hne : last ≠ 'p') : Foreign (childPath file) :=
  ⟨not_tempFile hlast hne, fun _ hname ↦ not_fileOf_of_length hname hlength⟩

theorem pinFilePath_eq : Pin.pinFilePath = childPath "client_pin_v2.bin".toList := by decide

theorem pinFileTempPath_eq : Pin.pinFileTempPath = childPath "client_pin_v2.tmp".toList := by decide

theorem foreign_pinFilePath : Foreign Pin.pinFilePath := by
  rw [pinFilePath_eq]
  exact foreign_of_short (by decide) rfl (by decide)

theorem foreign_backupOf_pinFilePath : Foreign (backupOf Pin.pinFilePath) := by
  rw [pinFilePath_eq, backupOf_childPath]
  exact foreign_of_short (by decide) rfl (by decide)

/-- The files of a credential are none of those of the PIN. -/
theorem UpToPin.credential_eq (h : UpToPin files world) {name path : Path}
    (hname : isRecordName name = true) (hpath : FileOf name path) :
    world.files path = files path := by
  refine h.frame path ?_ ?_ ?_
  · rintro rfl
    exact foreign_pinFilePath.notRecord name hname hpath
  · rintro rfl
    exact foreign_backupOf_pinFilePath.notRecord name hname hpath
  · rintro rfl
    rw [pinFileTempPath_eq] at hpath
    exact not_fileOf_of_length hname (by decide) hpath

theorem UpToPin.absent (h : UpToPin files world) (habsent : Absent files) : Absent world.files :=
  habsent.of_eq fun name hname ↦ ⟨h.credential_eq hname (fileOf_recordPath name),
    h.credential_eq hname (fileOf_recordPath name).backup⟩

/-- A startup in which nothing fails reports a PIN file that is there. -/
theorem ensures_lifecycleInitStorage_pin (hlaws : SealLaws crypto) {listings : StartupListings}
    (hclean : Clean world) (hkeys : world.keyGenerations = []) :
    Ensures (lifecycleInitStorage crypto listings)
      (fun result _ ↦ result.1 = .ok →
        (result.2.2.pinSet = true ↔ (logical world.files Pin.pinFilePath).isSome))
      (fun _ ↦ True) world := by
  rw [lifecycleInitStorage, ensures_bind]
  refine (ensures_bootstrapInit_frame hlaws).mono ?_ fun _ _ ↦ trivial
  rintro ⟨ready, store⟩ middle hkept
  have hlogical : logical middle.files Pin.pinFilePath = logical world.files Pin.pinFilePath := by
    rw [logical, logical, hkept.frame _ foreign_pinFilePath,
      hkept.frame _ foreign_backupOf_pinFilePath]
  simp only [ensures_ite]
  refine ⟨fun _ habsurd ↦ absurd habsurd (by simp), fun _ ↦ ?_⟩
  rw [ensures_bind]
  refine (Pin.ensures_pinInitWithResult_clean (hclean.of_quiet hkept.toQuiet).writes
    (hkept.toQuiet.keyGenerations_nil hkeys)).mono ?_ fun _ hfalse ↦ hfalse.elim
  rintro ⟨pinInit, pinState⟩ final ⟨hset, hunset⟩
  rw [hlogical] at hset hunset
  cases hinit : pinInit with
  | invalidPersistedState => exact fun habsurd ↦ absurd habsurd (by simp)
  | storageError => exact fun habsurd ↦ absurd habsurd (by simp)
  | ok =>
    intro _
    constructor
    · intro hpinSet
      by_contra hnone
      rw [Option.not_isSome_iff_eq_none] at hnone
      rw [(hunset hnone).2] at hpinSet
      exact absurd hpinSet (by simp)
    · intro hsome
      rcases hset hsome with habsurd | hpinSet
      · rw [hinit] at habsurd
        exact absurd habsurd (by simp)
      · exact hpinSet

/-- Without a record and without a backup of one, a startup indexes nothing. -/
theorem ensures_lifecycleInitStorage_absent (hlaws : SealLaws crypto) {listings : StartupListings}
    (h : Absent world.files) :
    Ensures (lifecycleInitStorage crypto listings) (fun result _ ↦ result.2.1 = [])
      (fun _ ↦ True) world := by
  rw [lifecycleInitStorage, ensures_bind]
  refine (ensures_bootstrapInit_absent hlaws h).mono ?_ fun _ _ ↦ trivial
  rintro ⟨ready, store⟩ middle hstore
  simp only [ensures_ite]
  refine ⟨fun _ ↦ hstore, fun _ ↦ ?_⟩
  rw [ensures_bind]
  refine Pin.ensures_pinInitWithResult.mono ?_ fun _ _ ↦ trivial
  rintro ⟨pinInit, pinState⟩ final -
  cases pinInit
  all_goals exact hstore

/-- A startup in which nothing fails indexes an intact credential without backups, and comes to its
end when there is no PIN. -/
theorem ensures_lifecycleInitStorage_intact (hlaws : SealLaws crypto) {listings : StartupListings}
    {name : Path} {record : CredentialRecord} {entries : List DirEntry} (hclean : Clean world)
    (hkeys : world.keyGenerations = []) (hname : isRecordName name = true)
    (hbackups : ∀ entries, listings.backups = some entries → ∀ entry ∈ entries,
      cleanupTarget entry ≠ some name)
    (hrecords : listings.records = some entries) (hlisted : { name } ∈ entries)
    (hroom : (entries.filter DirEntry.isRecord).length ≤ maxCredentials)
    (h : Intact crypto world.files name record)
    (hpin : logical world.files Pin.pinFilePath = none) :
    Ensures (lifecycleInitStorage crypto listings)
      (fun result _ ↦ result.1 = .ok ∧ Indexed crypto record result.2.1 ∧
        result.2.2.pinSet = false) (fun _ ↦ False) world := by
  rw [lifecycleInitStorage, ensures_bind]
  refine ((ensures_bootstrapInit_intact hlaws hname hclean hbackups hrecords hlisted hroom h).and
    (ensures_bootstrapInit_frame hlaws)).mono ?_ fun _ hcut ↦ hcut.1
  rintro ⟨ready, store⟩ middle ⟨⟨hready, hindexed⟩, hkept⟩
  have hlogical : logical middle.files Pin.pinFilePath = none := by
    rw [← hpin, logical, logical, hkept.frame _ foreign_pinFilePath,
      hkept.frame _ foreign_backupOf_pinFilePath]
  simp only [ensures_ite]
  refine ⟨fun hnot ↦ absurd hready (by simpa using hnot), fun _ ↦ ?_⟩
  rw [ensures_bind]
  refine (Pin.ensures_pinInitWithResult_clean (hclean.of_quiet hkept.toQuiet).writes
    (hkept.toQuiet.keyGenerations_nil hkeys)).mono ?_ fun _ hfalse ↦ hfalse
  rintro ⟨pinInit, pinState⟩ final ⟨-, hunset⟩
  obtain ⟨hok, hpinSet⟩ := hunset hlogical
  dsimp only at hok
  rw [hok]
  exact ⟨rfl, hindexed, hpinSet⟩

/-- What survives of a store at rest is intact. -/
theorem AtRest.survivor (h : AtRest crypto world.files) {gone : List Path} {name : Path}
    (hname : isRecordName name = true)
    (hsome : without gone world.files (recordPath name) ≠ none) :
    ∃ record, Intact crypto (without gone world.files) name record := by
  have hkept : recordPath name ∉ gone := by
    intro hgone
    exact hsome (by rw [without, if_pos hgone])
  have hrecord : without gone world.files (recordPath name) = world.files (recordPath name) := by
    rw [without, if_neg hkept]
  rw [hrecord] at hsome
  obtain ⟨record, hintact⟩ := h.record name hname hsome
  refine ⟨record, hintact.fileName, ?_, fun raw hraw ↦ hintact.counterFile raw ?_⟩
  · rw [hrecord]
    exact hintact.recordFile
  · rw [without] at hraw
    split_ifs at hraw
    exact hraw

theorem without_eq_none (gone : List Path) {path : Path} (h : files path = none) :
    without gone files path = none := by
  rw [without, h, ite_self]

/-- In a store at rest what survives of the credentials are record files. -/
theorem AtRest.exists_survivor (h : AtRest crypto world.files) {gone : List Path}
    (hsome : ¬Absent (without gone world.files)) :
    ∃ name, isRecordName name = true ∧ without gone world.files (recordPath name) ≠ none := by
  by_contra hnone
  push Not at hnone
  refine hsome fun name hname ↦ ⟨hnone name hname, ?_⟩
  exact without_eq_none gone (h.recordBackup name hname)

/-- In a store at rest there is no backup to clean up. -/
theorem AtRest.not_cleanupTarget (h : AtRest crypto world.files) {gone : List Path}
    {listings : StartupListings} {name : Path} (hname : isRecordName name = true)
    (hlists : ListsFiles listings (without gone world.files)) :
    ∀ entries, listings.backups = some entries → ∀ entry ∈ entries,
      cleanupTarget entry ≠ some name := by
  intro entries hentries entry hentry htarget
  rcases @recoveryCleanupVisitor_cases Pin.PinEvent crypto entry with
    ⟨hnone, -⟩ | ⟨other, hother, -, hfile, hpath⟩
  · rw [hnone] at htarget
    exact absurd htarget (by simp)
  · rw [htarget] at hother
    obtain rfl := Option.some.inj hother
    have hexists := hlists.backups entries hentries entry hentry hfile
    rcases hpath with ⟨hpath, -⟩ | ⟨hpath, -⟩
    · rw [hpath, without_eq_none gone (h.recordBackup name hname)] at hexists
      exact absurd hexists (by simp)
    · rw [hpath, without_eq_none gone (h.counterBackup name hname)] at hexists
      exact absurd hexists (by simp)

/-- When an interrupted reset keeps its credentials protected. Let a reset be stopped anywhere, by
power loss or by a removal that fails, in any order of the directory. If the PIN file or its backup
survives, or if no record and no backup of one does, then after the following startup no credential
that existed before is indexed while the PIN is reported as not set. In a store at rest this is also
the only way. -/
theorem interrupted_reset_protects (hlaws : SealLaws crypto)
    (hroot : world.directories appDataRoot = true) (hdir : world.directories appDataDir = true)
    (listing : Listing) (outcomes : List WriteOutcome) (listings : StartupListings) :
    let kept := survivors listing outcomes world.files
    ((logical kept Pin.pinFilePath).isSome ∨ Absent kept →
      Protected world.files (afterReset crypto listing outcomes listings world)) ∧
    (AtRest crypto world.files → ListsFiles listings kept →
      Protected world.files (afterReset crypto listing outcomes listings world) →
        (logical kept Pin.pinFilePath).isSome ∨ Absent kept) := by
  intro kept
  have hkept : UpToPin kept (restarted (performed (resetFiles crypto listing) outcomes world).2) :=
    upToPin_performed_resetFiles outcomes hroot hdir
  generalize hstart : restarted (performed (resetFiles crypto listing) outcomes world).2 = start
    at hkept
  have hclean : Clean start := by
    rw [← hstart]
    exact ⟨rfl, rfl, rfl⟩
  have hkeys : start.keyGenerations = [] := by
    rw [← hstart]
    rfl
  have hafter : afterReset crypto listing outcomes listings world =
      resultOf (lifecycleInitStorage crypto listings) start := by
    rw [← hstart]
    rfl
  rw [hafter]
  constructor
  · rintro (hpin | habsent) store pinState hresult hunset
    · rw [← hkept.pin] at hpin
      obtain ⟨-, hset⟩ :=
        (ensures_lifecycleInitStorage_pin hlaws hclean hkeys).of_resultOf hresult
      rw [(hset rfl).mpr hpin] at hunset
      exact absurd hunset (by simp)
    · obtain ⟨-, hstore⟩ :=
        (ensures_lifecycleInitStorage_absent hlaws (hkept.absent habsent)).of_resultOf hresult
      obtain rfl : store = [] := hstore
      simp
  · intro hrest hlists hprotected
    by_contra hnot
    rw [not_or, Option.not_isSome_iff_eq_none] at hnot
    obtain ⟨hpin, hsome⟩ := hnot
    obtain ⟨name, hname, hrecord⟩ := hrest.exists_survivor hsome
    obtain ⟨record, hintact⟩ := hrest.survivor hname hrecord
    obtain ⟨entries, hrecords, hroom, hcomplete⟩ := hlists.records
    have hlisted := hcomplete name hname (Option.isSome_iff_ne_none.mpr hrecord)
    have hbackups := hrest.not_cleanupTarget hname hlists
    rw [← hkept.pin] at hpin
    have hstored : Intact crypto start.files name record :=
      hintact.of_eq (hkept.credential_eq hname (fileOf_recordPath name))
        (hkept.credential_eq hname (fileOf_counterFloorPath name))
    obtain ⟨⟨status, store, pinState⟩, -, hresult, rfl, ⟨count, -, hentry⟩, hunset⟩ :=
      (ensures_lifecycleInitStorage_intact hlaws hclean hkeys hname hbackups hrecords hlisted hroom
        hstored hpin).exists_resultOf
    obtain ⟨hnone, -⟩ := hprotected store pinState hresult hunset _ hentry
    obtain ⟨data, -, hrecorded⟩ := hintact.recordFile
    have hfile : hexEncode record.credentialId = name := by
      rw [← hrecorded.wellFormed.fileName, hintact.fileName]
    refine hrecord ?_
    rw [← hfile]
    exact without_eq_none _ hnone

end Restart

section Samples

/-- A device with one credential and a PIN. -/
def pinnedCredential : Pin.Device :=
  { World.blank _ with
    files := Function.update sampleFiles Pin.pinFilePath
      ((Process.leaves (Pin.pinSetPlaintext Crypto.standIn {} [49, 50, 51, 52])
        (World.blank _)).files Pin.pinFilePath) }

/-- What its directory lists. -/
def pinnedListing : Listing :=
  some [{ name := (sampleRecord 1 1).fileName }, { name := "client_pin_v2.bin".toList }]

def pinnedListings : StartupListings :=
  { temporary := pinnedListing, backups := pinnedListing, records := pinnedListing }

/-- A credential that existed before is indexed and the PIN is reported as not set. -/
def exposed (files : Path → Option Bytes) :
    Option (StorageInitStatus × CredentialStore × Pin.ClientPinState) → Bool
  | some (.ok, store, pinState) =>
    !pinState.pinSet &&
      store.any fun entry ↦ (files (recordPath (hexEncode entry.credentialId))).isSome
  | _ => false

theorem not_protected_of_exposed {files : Path → Option Bytes}
    {startup : Option (StorageInitStatus × CredentialStore × Pin.ClientPinState)}
    (h : exposed files startup = true) : ¬Protected files startup := by
  intro hprotected
  unfold exposed at h
  split at h
  · rename_i store pinState
    rw [Bool.and_eq_true, Bool.not_eq_true', List.any_eq_true] at h
    obtain ⟨hunset, entry, hentry, hsome⟩ := h
    rw [(hprotected store pinState rfl hunset entry hentry).1] at hsome
    exact absurd hsome (by simp)
  · exact absurd h (by simp)

/-- The removal of the first record fails after the PIN file is gone: the credential comes back
without its PIN. -/
theorem reset_stops_after_pin :
    (resultOf (lifecycleInitStorage Crypto.standIn pinnedListings) pinnedCredential).any
        (fun startup ↦ startup.2.2.pinSet) = true ∧
      ¬Protected pinnedCredential.files (afterReset Crypto.standIn pinnedListing
        (List.replicate 10 .done ++ [.failed 0]) pinnedListings pinnedCredential) := by
  constructor
  · decide +kernel
  · refine not_protected_of_exposed ?_
    decide +kernel

theorem pinnedCredential_files {name path : Path} (hname : isRecordName name = true)
    (hpath : FileOf name path) : pinnedCredential.files path = sampleFiles path := by
  refine Function.update_of_ne ?_ _ _
  rintro rfl
  exact foreign_pinFilePath.notRecord name hname hpath

theorem atRest_pinnedCredential : AtRest Crypto.standIn pinnedCredential.files := by
  obtain ⟨⟨data, hfile, hrecorded⟩, -⟩ := sampleFiles_eq
  constructor
  · intro name hname hsome
    rw [pinnedCredential_files hname (fileOf_recordPath name)] at hsome
    have hsame := eq_sampleRecord_of_file hname hsome
    refine ⟨sampleRecord 1 1, hsame.symm, ⟨data, ?_, hrecorded⟩, fun raw hraw ↦ ?_⟩
    · rw [pinnedCredential_files hname (fileOf_recordPath name), hsame]
      exact hfile
    · rw [pinnedCredential_files hname (fileOf_counterFloorPath name), counterFloorPath,
        sampleFiles_suffix hname (by decide) (by decide)] at hraw
      exact absurd hraw (by simp)
  · intro name hname
    rw [pinnedCredential_files hname (fileOf_recordPath name).backup, recordPath,
      backupOf_childPath]
    exact sampleFiles_suffix hname (by decide) (by decide)
  · intro name hname
    rw [pinnedCredential_files hname (fileOf_counterFloorPath name).backup, counterFloorPath,
      backupOf_childPath, List.append_assoc]
    exact sampleFiles_suffix hname (by decide) (by decide)
  · decide +kernel

theorem listsFiles_pinnedCredential : ListsFiles pinnedListings pinnedCredential.files := by
  constructor
  · rintro entries hentries entry hentry -
    obtain rfl := Option.some.inj hentries
    rw [List.mem_cons, List.mem_singleton] at hentry
    rcases hentry with rfl | rfl
    · decide +kernel
    · decide +kernel
  · refine ⟨_, rfl, by decide +kernel, fun name hname hsome ↦ ?_⟩
    rw [pinnedCredential_files hname (fileOf_recordPath name)] at hsome
    rw [eq_sampleRecord_of_file hname (Option.isSome_iff_ne_none.mp hsome)]
    exact List.mem_cons_self

/-- A reset of that device that stops before the PIN file. -/
theorem interrupted_reset_protects_pinnedCredential :
    (AtRest Crypto.standIn pinnedCredential.files ∧
      ListsFiles pinnedListings (survivors pinnedListing [.failed 0] pinnedCredential.files)) ∧
    Protected pinnedCredential.files (afterReset Crypto.standIn pinnedListing [.failed 0]
      pinnedListings pinnedCredential) := by
  have hkept : survivors pinnedListing [.failed 0] pinnedCredential.files =
      pinnedCredential.files := without_nil _
  have hroot : pinnedCredential.directories appDataRoot = true := by decide +kernel
  have hdir : pinnedCredential.directories appDataDir = true := by decide +kernel
  refine ⟨⟨atRest_pinnedCredential, ?_⟩, ?_⟩
  · rw [hkept]
    exact listsFiles_pinnedCredential
  · refine (interrupted_reset_protects sealLaws_standIn hroot hdir pinnedListing [.failed 0]
      pinnedListings).1 (Or.inl ?_)
    rw [hkept]
    decide +kernel

end Samples

end ZeroFido.Ctap
