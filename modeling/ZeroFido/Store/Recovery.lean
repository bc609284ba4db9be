import ZeroFido.Foundations.Process
import ZeroFido.Foundations.Run
import ZeroFido.Store.Startup

/-!
# Startups that fail

The clean-up of a record backup loads the primary record to learn whether it is valid, and removes
it when the load fails. A load also fails when a read, a decryption or the write of a counter floor
fails. Beside a complete backup this costs nothing but the newer contents. Beside a partial one the
credential is lost (`failed_load_discards_record`).

`Recoverable` is what a credential keeps through any number of startups in which the clean-up does
not discard the primary record beside a partial backup (`SafeStartup`). A later startup in which
nothing fails then indexes the credential (`startups_keep_credential`).
-/

set_option autoImplicit false
set_option relaxedAutoImplicit false

namespace ZeroFido.Store

open Foundations Storage

section Definitions

variable {Event : Type} (crypto : Crypto)

/-- The contents are one of two complete versions of a record. -/
def Complete (old new : CredentialRecord) (data : Bytes) : Prop :=
  Recorded crypto data old ∨ Recorded crypto data new

/-- The states in which an interrupted `zf_storage_write_file_atomic` can leave a credential. The
record has its old or its new contents in the primary file, beside whatever backup, or in the
backup when there is no primary file. The counter floor is in such a state as well, or was never
written. -/
structure Recoverable (files : Path → Option Bytes) (name : Path) (old new : CredentialRecord) :
    Prop where
  oldName : old.fileName = name
  newName : new.fileName = name
  sameId : new.credentialId = old.credentialId
  sameTime : new.createdAt = old.createdAt
  record : ∃ data, logical files (recordPath name) = some data ∧ Complete crypto old new data
  counter : ∀ raw, logical files (counterFloorPath name) = some raw →
    ∃ count, CounterFloor crypto old.credentialId old.createdAt raw count

/-- The clean-up of the record's backup takes the branch that removes the primary record: its load
fails, and the removal takes effect. -/
def Discards (name : Path) (world : World Event) : Prop :=
  ∃ middle : World Event, (recordFormatLoadIndex crypto name).run world = .ok none middle ∧
    (middle.writes.headD .done).takesEffect = true

/-- The clean-up of an entry does not discard a record that is there beside a backup that is not
complete. -/
def SafeVisit (name : Path) (old new : CredentialRecord) (entry : DirEntry) (world : World Event) :
    Prop :=
  childPath entry.name = backupOf (recordPath name) → (world.files (recordPath name)).isSome →
    (∃ data, world.files (backupOf (recordPath name)) = some data ∧ Complete crypto old new data) ∨
      ¬Discards crypto name world

/-- The entries that a loop over a directory comes to, each with the state it is visited in. -/
def visits (visitor : DirEntry → Program (World Event) Bool) :
    List DirEntry → World Event → List (DirEntry × World Event)
  | [], _ => []
  | entry :: rest, world =>
    (entry, world) ::
      match (visitor entry).run world with
      | .ok true next => visits visitor rest next
      | _ => []

/-- The start of a startup, up to the clean-up of the backups. -/
def beforeCleanup (temporary : Listing) : Program (World Event) Bool := do
  if !(← ensureAppDataDir) then
    return false
  let _ ← forEachDirEntry (removeSuffixVisitor ".tmp".toList) temporary
  return true

/-- The backups that a startup cleans up, each with the state it is visited in. -/
def cleanupVisits (listings : StartupListings) (world : World Event) :
    List (DirEntry × World Event) :=
  match (beforeCleanup listings.temporary).run world with
  | .ok true middle =>
    visits (recoveryCleanupVisitor crypto) (listings.backups.getD []) middle
  | _ => []

/-- One startup: what the directory lists, and the outcomes of the calls. -/
structure Startup where
  listings : StartupListings
  writes : List WriteOutcome
  reads : List Bool
  enclave : List Bool

/-- The device at the start of a startup. -/
def Startup.device (startup : Startup) (world : World Event) : World Event :=
  { world with writes := startup.writes, reads := startup.reads, enclave := startup.enclave }

/-- The device after a startup, whether it returned or lost power. -/
def afterStartup (world : World Event) (startup : Startup) : World Event :=
  Process.leaves (bootstrapInit crypto startup.listings) (startup.device world)

/-- No visit of the clean-up discards the record beside a backup that is not complete. -/
def SafeStartup (name : Path) (old new : CredentialRecord) (world : World Event)
    (startup : Startup) : Prop :=
  ∀ visit ∈ cleanupVisits crypto startup.listings (startup.device world),
    SafeVisit crypto name old new visit.1 visit.2

/-- A startup in which nothing fails. -/
def undisturbed (listings : StartupListings) : Startup :=
  { listings, writes := [], reads := [], enclave := [] }

/-- The listings of a startup are of the files, as far as they concern a credential: the backups
that are listed exist and are listed once, the credential's own is among them, and its record is
listed among at most as many records as the index has room for. -/
structure ListsCredential (listings : StartupListings) (files : Path → Option Bytes) (name : Path) :
    Prop where
  backups : ∃ entries, listings.backups = some entries ∧ entries.Nodup ∧
    (∀ entry ∈ entries, entry.isDir = false → (files (childPath entry.name)).isSome) ∧
    ((files (backupOf (recordPath name))).isSome → { name := name ++ ".bak".toList } ∈ entries)
  records : ∃ entries, listings.records = some entries ∧ { name } ∈ entries ∧
    (entries.filter DirEntry.isRecord).length ≤ maxCredentials

end Definitions

section Visits

variable {Event : Type} {world world' : World Event} {crypto : Crypto} {name : Path}
  {old new : CredentialRecord} {files files' : Path → Option Bytes}

theorem Recoverable.of_eq (h : Recoverable crypto files name old new)
    (hrecord : logical files' (recordPath name) = logical files (recordPath name))
    (hcounter : logical files' (counterFloorPath name) = logical files (counterFloorPath name)) :
    Recoverable crypto files' name old new := by
  refine ⟨h.oldName, h.newName, h.sameId, h.sameTime, ?_, ?_⟩
  · rw [hrecord]
    exact h.record
  · rw [hcounter]
    exact h.counter

/-- Only the record file and its backup change, and one of them is complete. -/
theorem Recoverable.of_record (h : Recoverable crypto files name old new)
    (hname : isRecordName name = true) {data : Bytes}
    (hframe : ∀ path, path ≠ recordPath name → path ≠ backupOf (recordPath name) →
      files' path = files path)
    (hlogical : logical files' (recordPath name) = some data)
    (hcomplete : Complete crypto old new data) : Recoverable crypto files' name old new := by
  obtain ⟨hpath, hbackup, -⟩ := counterFloorPath_ne hname (Or.inl rfl)
  obtain ⟨hpath', hbackup', -⟩ := counterFloorPath_ne hname (Or.inr (Or.inl rfl))
  refine ⟨h.oldName, h.newName, h.sameId, h.sameTime, ⟨data, hlogical, hcomplete⟩, ?_⟩
  rw [logical, hframe _ hpath.symm hpath'.symm, hframe _ hbackup.symm hbackup'.symm]
  exact h.counter

/-- What is found in a complete primary record is one of the two versions. -/
theorem Recoverable.recordFound_eq (h : Recoverable crypto files name old new)
    {record : CredentialRecord} {embedded : Option Bytes}
    (hfound : recordFound crypto files name = some (record, embedded)) :
    record.credentialId = old.credentialId ∧ record.createdAt = old.createdAt ∧
      record.signCount ≤ uint32Max := by
  obtain ⟨data, hlogical, hcomplete⟩ := h.record
  cases hfile : files (recordPath name) with
  | none =>
    rw [recordFound, hfile] at hfound
    exact absurd hfound (by simp)
  | some raw =>
    obtain rfl : raw = data := by
      rw [logical, hfile, Option.some_or] at hlogical
      exact Option.some.inj hlogical
    rcases hcomplete with hold | hnew
    · have hname := h.oldName
      obtain ⟨floor, hrecord, -⟩ := recordFound_of_recorded (hname.symm ▸ hfile) hold
      rw [hname, hfound] at hrecord
      obtain ⟨rfl, -⟩ := Prod.mk.inj (Option.some.inj hrecord)
      exact ⟨rfl, rfl, hold.wellFormed.signCount⟩
    · have hname := h.newName
      obtain ⟨floor, hrecord, -⟩ := recordFound_of_recorded (hname.symm ▸ hfile) hnew
      rw [hname, hfound] at hrecord
      obtain ⟨rfl, -⟩ := Prod.mk.inj (Option.some.inj hrecord)
      exact ⟨h.sameId, h.sameTime, hnew.wellFormed.signCount⟩

/-- A load, finished or not, keeps a credential recoverable. -/
theorem Recoverable.of_load (h : Recoverable crypto world.files name old new)
    (hname : isRecordName name = true)
    (hload : Rewrites (counterFloorPath name) (counterFloorTempPath name)
      (LoadFloor crypto world.files name) world world') :
    Recoverable crypto world'.files name old new := by
  obtain ⟨hprimary, hbackup⟩ := hload.record_eq hname
  refine ⟨h.oldName, h.newName, h.sameId, h.sameTime, ?_, fun raw hraw ↦ ?_⟩
  · rw [logical, hprimary, hbackup]
    exact h.record
  · rcases hload.holds with hsame | ⟨fresh, ⟨record, embedded, hfound, hseals⟩, hholds⟩
    · rw [hsame] at hraw
      exact h.counter raw hraw
    · obtain ⟨hid, htime, hbound⟩ := h.recordFound_eq hfound
      obtain rfl : fresh = raw := Option.some.inj (hholds.symm.trans hraw)
      have hfloor := hseals hbound
      rw [hid, htime] at hfloor
      exact ⟨record.signCount, hfloor⟩

/-- The second half of the clean-up of a record backup: the primary record is removed, and the
backup takes its place. -/
theorem ensures_promote_recoverable (hname : isRecordName name = true)
    (h : Recoverable crypto world.files name old new)
    (hsafe : (world.files (recordPath name)).isSome →
      (∃ data, world.files (backupOf (recordPath name)) = some data ∧
        Complete crypto old new data) ∨ (world.writes.headD .done).takesEffect = false) :
    Ensures (do
        if !(← removeOptional (recordPath name)) then
          return false
        rename (backupOf (recordPath name)) (recordPath name))
      (fun _ world' ↦ Recoverable crypto world'.files name old new)
      (fun world' ↦ Recoverable crypto world'.files name old new) world := by
  have hne := backupOf_ne (recordPath name)
  rw [ensures_bind]
  refine ensures_removeOptional_effect ?_ ?_
  · intro heffect ok middle _ hfiles
    obtain ⟨data, hbackup, hcomplete⟩ : ∃ data,
        world.files (backupOf (recordPath name)) = some data ∧ Complete crypto old new data := by
      by_cases hsome : (world.files (recordPath name)).isSome
      · rcases hsafe hsome with hbackup | hnot
        · exact hbackup
        · rw [heffect] at hnot
          exact absurd hnot (by simp)
      · obtain ⟨data, hlogical, hcomplete⟩ := h.record
        rw [Option.not_isSome_iff_eq_none] at hsome
        rw [logical, hsome, Option.none_or] at hlogical
        exact ⟨data, hlogical, hcomplete⟩
    have hprimary : middle.files (recordPath name) = none := by
      rw [hfiles, removed, Function.update_self]
    have hbackup' : middle.files (backupOf (recordPath name)) = some data := by
      rw [hfiles, removed, Function.update_of_ne hne, hbackup]
    have hmiddle : Recoverable crypto middle.files name old new := by
      refine h.of_record hname (fun path hpath _ ↦ ?_) ?_ hcomplete
      · rw [hfiles, removed, Function.update_of_ne hpath]
      · rw [logical, hprimary, Option.none_or, hbackup']
    refine ⟨?_, hmiddle⟩
    rw [ensures_ite]
    refine ⟨fun _ ↦ hmiddle, fun _ ↦ ?_⟩
    have hrenamed : ∀ final : World Event, final.files = middle.files ∨
        final.files = removed (recordPath name) middle.files ∨
        final.files = stored (recordPath name) data
          (removed (backupOf (recordPath name)) middle.files) →
        Recoverable crypto final.files name old new := by
      rintro final (hfinal | hfinal | hfinal)
      · rw [hfinal]
        exact hmiddle
      · refine hmiddle.of_record hname (fun path hpath _ ↦ ?_) ?_ hcomplete
        · rw [hfinal, removed, Function.update_of_ne hpath]
        · rw [logical, hfinal, removed, Function.update_self, Option.none_or,
            Function.update_of_ne hne, hbackup']
      · refine hmiddle.of_record hname (fun path hpath hpath' ↦ ?_) ?_ hcomplete
        · rw [hfinal, stored, removed, Function.update_of_ne hpath, Function.update_of_ne hpath']
        · rw [logical, hfinal, stored, Function.update_self, Option.some_or]
    exact ensures_rename hbackup' (fun final _ hfinal ↦ hrenamed final (Or.inr (Or.inr hfinal)))
      fun final _ _ hfinal ↦ ⟨hrenamed final hfinal, hrenamed final hfinal⟩
  · intro _ middle _ hfiles
    rw [← hfiles] at h
    exact ⟨h, h⟩

/-- The clean-up of a record backup. -/
theorem ensures_recoveryRecoverRecordBackup_recoverable (hlaws : SealLaws crypto)
    (hname : isRecordName name = true) (h : Recoverable crypto world.files name old new)
    (hsafe : (world.files (recordPath name)).isSome →
      (∃ data, world.files (backupOf (recordPath name)) = some data ∧
        Complete crypto old new data) ∨ ¬Discards crypto name world) :
    Ensures (recoveryRecoverRecordBackup crypto name (backupOf (recordPath name)))
      (fun _ world' ↦ Recoverable crypto world'.files name old new)
      (fun world' ↦ Recoverable crypto world'.files name old new) world := by
  have hne := backupOf_ne (recordPath name)
  simp only [recoveryRecoverRecordBackup, ensures_bind, ensures_fileExists, ensures_ite]
  refine ⟨fun hexists ↦ ?_, fun hmissing ↦ ?_⟩
  · refine (ensures_recordFormatLoadIndex hlaws hname).with_run.mono ?_ fun final hcut ↦
      h.of_load hname hcut.rewrites
    rintro result middle ⟨hloaded, hrun⟩
    have hmiddle := h.of_load hname hloaded.rewrites
    obtain ⟨hprimary, hbackup⟩ := hloaded.rewrites.record_eq hname
    refine ⟨fun _ ↦ ?_, fun hfailed ↦ ?_⟩
    · obtain ⟨data, hdata⟩ : ∃ data, world.files (recordPath name) = some data :=
        Option.isSome_iff_exists.mp hexists
      have hkept : ∀ final : World Event, final.files = middle.files ∨
          final.files = removed (backupOf (recordPath name)) middle.files →
          Recoverable crypto final.files name old new := by
        rintro final (hfinal | hfinal)
        · rw [hfinal]
          exact hmiddle
        · obtain ⟨data', hlogical, hcomplete⟩ := hmiddle.record
          refine hmiddle.of_record hname (fun path _ hpath ↦ ?_) ?_ hcomplete
          · rw [hfinal, removed, Function.update_of_ne hpath]
          · rw [← hlogical, logical, logical, hfinal, removed, Function.update_of_ne hne.symm,
              hprimary, hdata, Option.some_or, Option.some_or]
      exact ensures_removeOptional (fun final _ hfinal ↦ hkept final (Or.inr hfinal))
        fun final _ _ hfinal ↦ ⟨hkept final hfinal, hkept final hfinal⟩
    · have hsafe' : (middle.files (recordPath name)).isSome →
          (∃ data, middle.files (backupOf (recordPath name)) = some data ∧
            Complete crypto old new data) ∨ (middle.writes.headD .done).takesEffect = false := by
        intro _
        rw [hbackup]
        refine (hsafe hexists).imp id fun hnot ↦ ?_
        have hnone : result = none := by
          cases result with
          | none => rfl
          | some entry => exact absurd rfl hfailed
        rw [hnone] at hrun
        by_contra heffect
        exact hnot ⟨middle, hrun, by simpa using heffect⟩
      simpa only [ensures_bind, ensures_ite, recordPath] using
        ensures_promote_recoverable hname hmiddle hsafe'
  · simpa only [ensures_bind, ensures_ite, recordPath] using
      ensures_promote_recoverable hname h fun hsome ↦ absurd hsome hmissing

/-- The files of other credentials do not matter. -/
theorem Recoverable.of_elsewhere {other : Path} (h : Recoverable crypto world.files name old new)
    (hname : isRecordName name = true) (hother : isRecordName other = true) (hne : other ≠ name)
    (hwithin : Within other world world') : Recoverable crypto world'.files name old new := by
  have helse := hwithin.elsewhere hother hname hne
  have hrecord := fileOf_recordPath name
  have hcounter := fileOf_counterFloorPath name
  refine h.of_eq ?_ ?_
  · rw [logical, logical, helse _ hrecord, helse _ hrecord.backup]
  · rw [logical, logical, helse _ hcounter, helse _ hcounter.backup]

/-- The clean-up of any entry. -/
theorem ensures_recoveryCleanupVisitor_recoverable (hlaws : SealLaws crypto)
    (hname : isRecordName name = true) (entry : DirEntry)
    (h : Recoverable crypto world.files name old new)
    (hsafe : SafeVisit crypto name old new entry world) :
    Ensures (recoveryCleanupVisitor crypto entry)
      (fun _ world' ↦ Recoverable crypto world'.files name old new)
      (fun world' ↦ Recoverable crypto world'.files name old new) world := by
  rcases @recoveryCleanupVisitor_cases Event crypto entry with
    ⟨-, hnothing⟩ | ⟨other, -, hother, -, hvisit⟩
  · rw [hnothing]
    exact h
  · by_cases hsame : other = name
    · subst hsame
      rcases hvisit with ⟨hpath, hrecord⟩ | ⟨-, hcounter⟩
      · rw [hrecord]
        exact ensures_recoveryRecoverRecordBackup_recoverable hlaws hname h (hsafe hpath)
      · rw [hcounter]
        obtain ⟨hpath, hbackup, htemp⟩ := counterFloorPath_ne hname (Or.inl rfl)
        obtain ⟨hpath', hbackup', htemp'⟩ := counterFloorPath_ne hname (Or.inr (Or.inl rfl))
        have hkept : ∀ final : World Event, Keeps (counterFloorPath other)
            (counterFloorTempPath other) world final →
            Recoverable crypto final.files other old new := by
          intro final hfinal
          refine h.of_eq ?_ hfinal.logical_eq
          rw [logical, logical, hfinal.frame _ hpath hbackup htemp,
            hfinal.frame _ hpath' hbackup' htemp']
        refine (ensures_recoverAtomicFile (atomicPaths_counterFloor hname)).mono ?_ fun final hcut ↦
          hkept final hcut.moves
        rintro ok final ⟨hkeeps, -, -⟩
        exact hkept final hkeeps
    · rcases hvisit with ⟨-, hrecord⟩ | ⟨-, hcounter⟩
      · rw [hrecord]
        exact (ensures_recoveryRecoverRecordBackup_within hlaws hother).mono
          (fun _ final hfinal ↦ h.of_elsewhere hname hother hsame hfinal)
          fun final hfinal ↦ h.of_elsewhere hname hother hsame hfinal.toWithin
      · rw [hcounter]
        exact (ensures_recoveryRecoverCounterBackup_within hother).mono
          (fun _ final hfinal ↦ h.of_elsewhere hname hother hsame hfinal)
          fun final hfinal ↦ h.of_elsewhere hname hother hsame hfinal.toWithin

/-- The rule for a loop whose visits meet a condition. -/
theorem ensures_visitDirEntries_visits {visitor : DirEntry → Program (World Event) Bool}
    {invariant crash : World Event → Prop} {entries : List DirEntry}
    (h : ∀ visit ∈ visits visitor entries world, invariant visit.2 →
      Ensures (visitor visit.1) (fun _ ↦ invariant) crash visit.2) (hstart : invariant world) :
    Ensures (visitDirEntries visitor entries) (fun _ ↦ invariant) crash world := by
  induction entries generalizing world with
  | nil => exact hstart
  | cons entry rest ih =>
    rw [visitDirEntries, ensures_bind]
    refine (h (entry, world) List.mem_cons_self hstart).with_run.mono ?_ fun _ hcut ↦ hcut
    rintro goOn next ⟨hnext, hrun⟩
    rw [ensures_ite]
    refine ⟨fun _ ↦ hnext, fun hgoOn ↦ ih (fun visit hvisit ↦ h visit ?_) hnext⟩
    have htrue : goOn = true := by simpa using hgoOn
    rw [htrue] at hrun
    rw [visits, hrun]
    exact List.mem_cons_of_mem _ hvisit

end Visits

section Startups

variable {Event : Type} {world world' : World Event} {crypto : Crypto} {name : Path}
  {old new : CredentialRecord}

theorem Recoverable.of_tempsGone (h : Recoverable crypto world.files name old new)
    (hname : isRecordName name = true) (hgone : TempsGone world world') :
    Recoverable crypto world'.files name old new := by
  have hrecord := hgone.frame (backupOf (recordPath name)) (not_tempFile_backup name)
  have hcounter := hgone.frame (backupOf (counterFloorPath name)) (not_tempFile_backup _)
  refine h.of_eq ?_ ?_
  · rw [logical, logical, hgone.frame _ (not_tempFile_recordPath hname), hrecord]
  · rw [logical, logical, hgone.frame _ (not_tempFile_counterFloorPath name), hcounter]

theorem TempsGone.trans {world'' : World Event} (h : TempsGone world world')
    (h' : TempsGone world' world'') : TempsGone world world'' :=
  ⟨h.toQuiet.trans h'.toQuiet, fun path hpath ↦ (h'.frame path hpath).trans (h.frame path hpath)⟩

/-- The start of a startup. -/
theorem ensures_beforeCleanup {temporary : Listing} :
    Ensures (beforeCleanup temporary) (fun _ world' ↦ TempsGone world world')
      (fun world' ↦ TempsGone world world') world := by
  have hidle : ∀ {middle : World Event}, Idle world middle → TempsGone world middle :=
    fun h ↦ ⟨h.toQuiet, fun _ _ ↦ by rw [h.files_eq]⟩
  rw [beforeCleanup, ensures_bind]
  refine ensures_ensureAppDataDir.mono ?_ fun final hfinal ↦ hidle hfinal.1
  rintro ready first ⟨hfirst, -⟩
  rw [ensures_ite]
  refine ⟨fun _ ↦ hidle hfirst, fun _ ↦ ?_⟩
  rw [ensures_bind]
  refine (@ensures_forEachDirEntry Event first _ (TempsGone world) _ _ ?_ (hidle hfirst)).mono
    (fun _ _ hfinal ↦ hfinal) fun _ hfinal ↦ hfinal
  intro entries _ entry _ middle hmiddle
  exact (ensures_removeSuffixVisitor entry).mono (fun _ final hfinal ↦ hmiddle.trans hfinal)
    fun final hfinal ↦ hmiddle.trans hfinal.1

/-- A startup begins with `beforeCleanup`. -/
theorem bootstrapInit_eq (listings : StartupListings) :
    (bootstrapInit crypto listings : Program (World Event) (Bool × CredentialStore)) = do
      if !(← beforeCleanup listings.temporary) then
        return (false, [])
      let _ ← forEachDirEntry (recoveryCleanupVisitor crypto) listings.backups
      match listings.records with
      | none => return (false, [])
      | some entries => return (true, ← bootstrapIndex crypto [] entries) := by
  rw [bootstrapInit, beforeCleanup, bind_assoc]
  refine bind_congr fun ready ↦ ?_
  cases ready with
  | false => rfl
  | true =>
    cases listings.records <;>
      simp only [Bool.not_true, Bool.false_eq_true, if_false, bind_assoc, pure_bind,
        recoveryCleanupTempFiles]

/-- A startup that discards nothing keeps a credential recoverable, wherever it fails. -/
theorem ensures_bootstrapInit_recoverable (hlaws : SealLaws crypto)
    (hname : isRecordName name = true) {listings : StartupListings}
    (h : Recoverable crypto world.files name old new)
    (hsafe : ∀ visit ∈ cleanupVisits crypto listings world,
      SafeVisit crypto name old new visit.1 visit.2) :
    Ensures (bootstrapInit crypto listings)
      (fun _ world' ↦ Recoverable crypto world'.files name old new)
      (fun world' ↦ Recoverable crypto world'.files name old new) world := by
  rw [bootstrapInit_eq, ensures_bind]
  refine ensures_beforeCleanup.with_run.mono ?_ fun final hfinal ↦ h.of_tempsGone hname hfinal
  rintro ready first ⟨hgone, hrun⟩
  have hfirst := h.of_tempsGone hname hgone
  rw [ensures_ite]
  refine ⟨fun _ ↦ hfirst, fun hready ↦ ?_⟩
  have htrue : ready = true := by simpa using hready
  have hvisits : cleanupVisits crypto listings world =
      visits (recoveryCleanupVisitor crypto) (listings.backups.getD []) first := by
    rw [cleanupVisits, hrun, htrue]
  rw [hvisits] at hsafe
  have hcleanup : Ensures (forEachDirEntry (recoveryCleanupVisitor crypto) listings.backups)
      (fun _ world' ↦ Recoverable crypto world'.files name old new)
      (fun world' ↦ Recoverable crypto world'.files name old new) first := by
    cases hbackups : listings.backups with
    | none => exact hfirst
    | some entries =>
      rw [hbackups, Option.getD_some] at hsafe
      refine @ensures_visitDirEntries_visits Event first _
        (fun world' ↦ Recoverable crypto world'.files name old new) _ _ ?_ hfirst
      intro visit hvisit hrecoverable
      exact ensures_recoveryCleanupVisitor_recoverable hlaws hname visit.1 hrecoverable
        (hsafe visit hvisit)
  rw [ensures_bind]
  refine hcleanup.mono (fun _ second hsecond ↦ ?_) fun _ hfinal ↦ hfinal
  cases listings.records with
  | none => exact hsecond
  | some entries =>
    simp only [ensures_bind, ensures_pure]
    refine @ensures_bootstrapIndex _ _ _
      (fun _ world' ↦ Recoverable crypto world'.files name old new) _ _ _ ?_ hsecond
    intro entry _ hentry _ middle hmiddle
    have hkept : ∀ final : World Event, Rewrites (counterFloorPath entry.name)
        (counterFloorTempPath entry.name) (LoadFloor crypto middle.files entry.name) middle final →
        Recoverable crypto final.files name old new := by
      intro final hfinal
      by_cases hsame : entry.name = name
      · rw [hsame] at hfinal
        exact hmiddle.of_load hname hfinal
      · exact hmiddle.of_elsewhere hname hentry hsame
          (hfinal.within (fileOf_counterFloorPath _) (fileOf_counterFloorTempPath _))
    exact (ensures_recordFormatLoadIndex hlaws hentry).mono
      (fun _ final hloaded ↦ hkept final hloaded.rewrites) fun final hcut ↦ hkept final hcut.rewrites

/-- So does any number of startups. -/
theorem recoverable_run (hlaws : SealLaws crypto) (hname : isRecordName name = true)
    {startups : List Startup}
    (hsafe : EveryStep (afterStartup crypto) (SafeStartup crypto name old new) world startups)
    (h : Recoverable crypto world.files name old new) :
    Recoverable crypto (run (afterStartup crypto) world startups).files name old new := by
  refine @run_invariant _ _ _ _ _
    (fun world : World Event ↦ Recoverable crypto world.files name old new) ?_ _ hsafe h
  intro state startup hstartup hstate
  have hdevice : Recoverable crypto (startup.device state).files name old new := hstate
  exact Process.leaves_of_ensures
    (ensures_bootstrapInit_recoverable hlaws hname hdevice hstartup)

end Startups

section Undisturbed

variable {Event : Type} {world world' : World Event} {crypto : Crypto} {name : Path}
  {old new : CredentialRecord} {entry : DirEntry}

theorem cleanupTarget_backup (hname : isRecordName name = true) (hfile : entry.isDir = false)
    (hpath : childPath entry.name = backupOf (recordPath name)) :
    cleanupTarget entry = some name := by
  rw [recordPath, backupOf_childPath] at hpath
  have hentry := childPath_injective hpath
  have hlength : (name ++ ".bak".toList).length - 4 = name.length := by
    rw [List.length_append]
    exact Nat.add_sub_cancel_right name.length 4
  have hsuffix : hasSuffix (name ++ ".bak".toList) ".bak".toList = true :=
    List.isSuffixOf_iff_suffix.mpr (List.suffix_append _ _)
  rw [cleanupTarget, hfile, hentry, hsuffix, hlength, List.take_left, if_pos hname]
  rfl

/-- A visit in which nothing fails goes on to the next one. It leaves a record file wherever there
was one and for the credential of its own backup, and leaves the backups of other records alone. -/
structure Visited (entry : DirEntry) (world world' : World Event) : Prop where
  clean : Clean world'
  primary : ∀ name, isRecordName name = true → (world.files (recordPath name)).isSome →
    (world'.files (recordPath name)).isSome
  promoted : ∀ name, isRecordName name = true → entry.isDir = false →
    childPath entry.name = backupOf (recordPath name) → (world'.files (recordPath name)).isSome
  backup : ∀ name, isRecordName name = true →
    (entry.isDir = false → childPath entry.name ≠ backupOf (recordPath name)) →
    world'.files (backupOf (recordPath name)) = world.files (backupOf (recordPath name))

/-- The clean-up of a record backup that is there, when nothing fails. -/
theorem ensures_recoveryRecoverRecordBackup_clean (hlaws : SealLaws crypto)
    (hname : isRecordName name = true) (hclean : Clean world)
    (hbackup : (world.files (backupOf (recordPath name))).isSome) :
    Ensures (recoveryRecoverRecordBackup crypto name (backupOf (recordPath name)))
      (fun ok world' ↦ ok = true ∧ (world'.files (recordPath name)).isSome) (fun _ ↦ False)
      world := by
  have hne := backupOf_ne (recordPath name)
  have hpromote : ∀ middle : World Event, Clean middle →
      (middle.files (backupOf (recordPath name))).isSome →
      Ensures (do
          if !(← removeOptional (recordPath name)) then
            return false
          rename (backupOf (recordPath name)) (recordPath name))
        (fun ok world' ↦ ok = true ∧ (world'.files (recordPath name)).isSome) (fun _ ↦ False)
        middle := by
    intro middle hmiddle hsome
    obtain ⟨data, hdata⟩ := Option.isSome_iff_exists.mp hsome
    rw [ensures_bind]
    refine ensures_removeOptional (fun last honly hfiles ↦ ?_) fun _ _ hwrites _ ↦
      absurd hmiddle.writes hwrites
    have hlast : last.files (backupOf (recordPath name)) = some data := by
      rw [hfiles, removed, Function.update_of_ne hne, hdata]
    rw [Bool.not_true, if_neg Bool.false_ne_true]
    refine ensures_rename hlast (fun final _ hfinal ↦ ⟨rfl, ?_⟩) fun _ _ hwrites _ ↦
      absurd (honly.writes_nil hmiddle.writes) hwrites
    rw [hfinal, stored, Function.update_self]
    rfl
  simp only [recoveryRecoverRecordBackup, ensures_bind, ensures_fileExists, ensures_ite]
  refine ⟨fun hexists ↦ ?_, fun hmissing ↦ ?_⟩
  · refine (ensures_recordFormatLoadIndex hlaws hname).mono ?_ fun _ hcut ↦
      hcut.listed hclean.writes
    intro result middle hloaded
    have hmiddle := hclean.of_quiet hloaded.within.toQuiet
    obtain ⟨hprimary, hkept⟩ := hloaded.rewrites.record_eq hname
    refine ⟨fun _ ↦ ?_, fun _ ↦ ?_⟩
    · refine ensures_removeOptional (fun final _ hfinal ↦ ⟨rfl, ?_⟩) fun _ _ hwrites _ ↦
        absurd hmiddle.writes hwrites
      rw [hfinal, removed, Function.update_of_ne hne.symm, hprimary]
      exact hexists
    · rw [← hkept] at hbackup
      simpa only [ensures_bind, ensures_ite, recordPath] using hpromote middle hmiddle hbackup
  · simpa only [ensures_bind, ensures_ite, recordPath] using hpromote world hclean hbackup

/-- The clean-up of an entry, when nothing fails. -/
theorem ensures_recoveryCleanupVisitor_clean (hlaws : SealLaws crypto) (entry : DirEntry)
    (hclean : Clean world)
    (hexists : ∀ name, isRecordName name = true → entry.isDir = false →
      childPath entry.name = backupOf (recordPath name) →
      (world.files (backupOf (recordPath name))).isSome) :
    Ensures (recoveryCleanupVisitor crypto entry)
      (fun ok world' ↦ ok = true ∧ Visited entry world world') (fun _ ↦ False) world := by
  rcases @recoveryCleanupVisitor_cases Event crypto entry with
    ⟨hnone, hnothing⟩ | ⟨other, htarget, hother, hfile, ⟨hpath, hrecord⟩ | ⟨hpath, hcounter⟩⟩
  · rw [hnothing]
    refine ⟨rfl, hclean, fun _ _ hsome ↦ hsome, fun name hname hfile hpath ↦ ?_, fun _ _ _ ↦ rfl⟩
    rw [cleanupTarget_backup hname hfile hpath] at hnone
    exact absurd hnone (by simp)
  · rw [hrecord]
    have hclean' := ensures_recoveryRecoverRecordBackup_clean hlaws hother hclean
      (hexists other hother hfile hpath)
    refine (hclean'.and (ensures_recoveryRecoverRecordBackup_within hlaws hother)).mono ?_
      fun _ hfalse ↦ hfalse.1
    rintro ok final ⟨⟨hok, hsome⟩, hwithin⟩
    refine ⟨hok, hclean.of_quiet hwithin.toQuiet, fun name hname hbefore ↦ ?_, ?_, ?_⟩
    · by_cases hsame : other = name
      · rw [← hsame]
        exact hsome
      · rw [hwithin.elsewhere hother hname hsame _ (fileOf_recordPath name)]
        exact hbefore
    · intro name hname hfile' hpath'
      have htarget' := cleanupTarget_backup hname hfile' hpath'
      rw [htarget] at htarget'
      rw [← Option.some.inj htarget']
      exact hsome
    · intro name hname hne
      have hsame : other ≠ name := by
        rintro rfl
        exact hne hfile hpath
      exact hwithin.elsewhere hother hname hsame _ (fileOf_recordPath name).backup
  · rw [hcounter]
    refine (ensures_recoverAtomicFile (atomicPaths_counterFloor hother)).mono ?_ fun _ hcut ↦
      hcut.writes hclean.writes
    rintro ok final ⟨hkeeps, -, hfailed⟩
    have hok : ok = true := by
      by_contra hnot
      exact (hfailed (Bool.not_eq_true _ ▸ hnot)).1 hclean.writes
    have hframe : ∀ name path, isRecordName name = true →
        path = recordPath name ∨ path = backupOf (recordPath name) ∨ path = tempPath name →
        final.files path = world.files path := by
      intro name path hname hrecord
      by_cases hsame : other = name
      · rw [← hsame] at hrecord
        obtain ⟨hprimary, hbackup, htemp⟩ := counterFloorPath_ne hother hrecord
        exact hkeeps.frame _ hprimary hbackup htemp
      · have hfile : FileOf name path := by
          rcases hrecord with rfl | rfl | rfl
          · exact fileOf_recordPath name
          · exact (fileOf_recordPath name).backup
          · exact fileOf_tempPath name
        exact (within_of_moves (fileOf_counterFloorPath other) (fileOf_counterFloorTempPath other)
          hkeeps).elsewhere hother hname hsame _ hfile
    refine ⟨hok, hclean.of_quiet hkeeps.only.quiet, fun name hname hbefore ↦ ?_, ?_, ?_⟩
    · rw [hframe name _ hname (Or.inl rfl)]
      exact hbefore
    · intro name hname hfile' hpath'
      rw [hpath'] at hpath
      have hne := (counterFloorPath_ne hname (Or.inr (Or.inl rfl))).2.1
      have hsame : other = name :=
        (fileOf_counterFloorPath other).backup.unique hother hname
          (hpath ▸ (fileOf_recordPath name).backup)
      rw [hsame] at hpath
      exact absurd hpath hne
    · exact fun name hname _ ↦ hframe name _ hname (Or.inr (Or.inl rfl))

/-- A recoverable credential with a primary record is intact. -/
theorem Recoverable.intact {files : Path → Option Bytes}
    (h : Recoverable crypto files name old new) (hsome : (files (recordPath name)).isSome) :
    Intact crypto files name old ∨ Intact crypto files name new := by
  obtain ⟨data, hlogical, hcomplete⟩ := h.record
  obtain ⟨raw, hfile⟩ := Option.isSome_iff_exists.mp hsome
  obtain rfl : raw = data := by
    rw [logical, hfile, Option.some_or] at hlogical
    exact Option.some.inj hlogical
  have hcounter : ∀ raw, files (counterFloorPath name) = some raw →
      ∃ count, CounterFloor crypto old.credentialId old.createdAt raw count := by
    intro raw hraw
    refine h.counter raw ?_
    rw [logical, hraw, Option.some_or]
  rcases hcomplete with hold | hnew
  · exact Or.inl ⟨h.oldName, ⟨raw, hfile, hold⟩, hcounter⟩
  · refine Or.inr ⟨h.newName, ⟨raw, hfile, hnew⟩, ?_⟩
    rw [h.sameId, h.sameTime]
    exact hcounter

/-- When nothing fails, the load of a complete record does not fail. -/
theorem Recoverable.not_discards (hlaws : SealLaws crypto) (hname : isRecordName name = true)
    (h : Recoverable crypto world.files name old new) (hclean : Clean world)
    (hsome : (world.files (recordPath name)).isSome) : ¬Discards crypto name world := by
  rintro ⟨middle, hrun, -⟩
  have hloaded := (ensures_recordFormatLoadIndex hlaws hname).of_run hrun
  have hfound : ∃ record, loadFound crypto world.files name = some record := by
    rcases h.intact hsome with hintact | hintact
    · obtain ⟨count, -, hfound⟩ := hintact.retrievable
      exact ⟨_, hfound⟩
    · obtain ⟨count, -, hfound⟩ := hintact.retrievable
      exact ⟨_, hfound⟩
  obtain ⟨record, hfound⟩ := hfound
  rcases hloaded.result_eq with hresult | ⟨-, hfailed⟩
  · rw [hfound] at hresult
    exact absurd hresult (by simp)
  · rcases hfailed with hreads | henclave | ⟨hwrites, -⟩
    · exact hreads hclean.reads
    · exact henclave hclean.enclave
    · exact hwrites hclean.writes

/-- The clean-up of the backups, when nothing fails, leaves the credential with a primary record. -/
theorem ensures_visitDirEntries_undisturbed (hlaws : SealLaws crypto)
    (hname : isRecordName name = true) {entries : List DirEntry} (hclean : Clean world)
    (h : Recoverable crypto world.files name old new) (hnodup : entries.Nodup)
    (hexists : ∀ entry ∈ entries, ∀ name, isRecordName name = true → entry.isDir = false →
      childPath entry.name = backupOf (recordPath name) →
      (world.files (backupOf (recordPath name))).isSome)
    (hlisted : (world.files (recordPath name)).isSome ∨
      { name := name ++ ".bak".toList } ∈ entries) :
    Ensures (visitDirEntries (recoveryCleanupVisitor crypto) entries)
      (fun _ world' ↦ Clean world' ∧ Recoverable crypto world'.files name old new ∧
        (world'.files (recordPath name)).isSome) (fun _ ↦ False) world := by
  induction entries generalizing world with
  | nil =>
    rcases hlisted with hsome | habsurd
    · exact ⟨hclean, h, hsome⟩
    · exact absurd habsurd (by simp)
  | cons entry rest ih =>
    obtain ⟨hfresh, hrest⟩ := List.nodup_cons.mp hnodup
    rw [visitDirEntries, ensures_bind]
    have hvisit := ensures_recoveryCleanupVisitor_clean hlaws entry hclean
      (hexists entry List.mem_cons_self)
    have hkept := ensures_recoveryCleanupVisitor_recoverable hlaws hname entry h
      fun _ hsome ↦ Or.inr (h.not_discards hlaws hname hclean hsome)
    refine (hvisit.and hkept).mono ?_ fun _ hfalse ↦ hfalse.1
    rintro ok middle ⟨⟨rfl, hmiddle⟩, hrecoverable⟩
    rw [Bool.not_true, if_neg Bool.false_ne_true]
    refine ih hmiddle.clean hrecoverable hrest ?_ ?_
    · intro other hother name hname hfile hpath
      have hne : entry.isDir = false → childPath entry.name ≠ backupOf (recordPath name) := by
        intro hfile' hsame
        have hsameName : entry.name = other.name := childPath_injective (hsame.trans hpath.symm)
        refine hfresh ?_
        have hentry : entry = other := by
          cases entry
          cases other
          simp_all
        rw [hentry]
        exact hother
      rw [hmiddle.backup name hname hne]
      exact hexists other (List.mem_cons_of_mem _ hother) name hname hfile hpath
    · rcases hlisted with hsome | hmem
      · exact Or.inl (hmiddle.primary name hname hsome)
      · rcases List.mem_cons.mp hmem with heq | hmem
        · refine Or.inl (hmiddle.promoted name hname ?_ ?_)
          · rw [← heq]
          · rw [← heq, recordPath, backupOf_childPath]
        · exact Or.inr hmem

theorem ensures_beforeCleanup_clean {temporary : Listing} (hclean : Clean world) :
    Ensures (beforeCleanup temporary) (fun ready world' ↦ ready = true ∧ TempsGone world world')
      (fun _ ↦ False) world := by
  rw [beforeCleanup, ensures_bind]
  refine ensures_ensureAppDataDir.mono ?_ fun _ hcut ↦ hcut.2 hclean.writes
  rintro ready first ⟨hfirst, hfailed⟩
  have hgone : TempsGone world first := ⟨hfirst.toQuiet, fun _ _ ↦ by rw [hfirst.files_eq]⟩
  rw [ensures_ite]
  refine ⟨fun hnot ↦ absurd hclean.writes (hfailed (by simpa using hnot)), fun _ ↦ ?_⟩
  rw [ensures_bind]
  refine (@ensures_forEachDirEntry Event first _ (TempsGone world) _ _ ?_ hgone).mono
    (fun _ _ hfinal ↦ ⟨rfl, hfinal⟩) fun _ hfinal ↦ hfinal
  intro entries _ entry _ middle hmiddle
  exact (ensures_removeSuffixVisitor entry).mono (fun _ final hfinal ↦ hmiddle.trans hfinal)
    fun final hfinal ↦ hfinal.2 (hmiddle.writes_nil hclean.writes)

/-- A startup in which nothing fails indexes a recoverable credential. -/
theorem ensures_bootstrapInit_undisturbed (hlaws : SealLaws crypto)
    (hname : isRecordName name = true) {listings : StartupListings} (hclean : Clean world)
    (h : Recoverable crypto world.files name old new)
    (hlists : ListsCredential listings world.files name) :
    Ensures (bootstrapInit crypto listings)
      (fun result _ ↦ result.1 = true ∧
        (Indexed crypto old result.2 ∨ Indexed crypto new result.2)) (fun _ ↦ False) world := by
  obtain ⟨backups, hbackups, hnodup, hexists, hlisted⟩ := hlists.backups
  obtain ⟨records, hrecords, hmem, hroom⟩ := hlists.records
  rw [bootstrapInit_eq, ensures_bind]
  refine (ensures_beforeCleanup_clean hclean).mono ?_ fun _ hfalse ↦ hfalse
  rintro ready first ⟨rfl, hgone⟩
  have hbackup := hgone.frame (backupOf (recordPath name)) (not_tempFile_backup name)
  have hfirst := h.of_tempsGone hname hgone
  have hexists' : ∀ entry ∈ backups, ∀ name, isRecordName name = true → entry.isDir = false →
      childPath entry.name = backupOf (recordPath name) →
      (first.files (backupOf (recordPath name))).isSome := by
    intro entry hentry other hother hfile hpath
    have hkept := hgone.frame (backupOf (recordPath other)) (not_tempFile_backup other)
    rw [hkept, ← hpath]
    exact hexists entry hentry hfile
  have hlisted' : (first.files (recordPath name)).isSome ∨
      { name := name ++ ".bak".toList } ∈ backups := by
    obtain ⟨data, hlogical, -⟩ := hfirst.record
    cases hprimary : first.files (recordPath name) with
    | some raw => exact Or.inl rfl
    | none =>
      rw [logical, hprimary, Option.none_or, hbackup] at hlogical
      exact Or.inr (hlisted (by rw [hlogical]; rfl))
  rw [Bool.not_true, if_neg Bool.false_ne_true, ensures_bind, hbackups]
  refine (ensures_visitDirEntries_undisturbed hlaws hname (hclean.of_quiet hgone.toQuiet) hfirst
    hnodup hexists' hlisted').mono ?_ fun _ hfalse ↦ hfalse
  rintro _ second ⟨hsecond, hrecoverable, hsome⟩
  have hroom' : ([] : CredentialStore).length + (records.filter DirEntry.isRecord).length ≤
      maxCredentials := by
    rw [List.length_nil, Nat.zero_add]
    exact hroom
  simp only [hrecords, ensures_bind, ensures_pure]
  rcases hrecoverable.intact hsome with hintact | hintact
  · exact (ensures_bootstrapIndex_retrievable hlaws hname hsecond hroom'
      (Or.inr ⟨hintact.retrievable, hmem⟩)).mono
      (fun _ _ hindexed ↦ ⟨trivial, Or.inl hindexed⟩) fun _ hfalse ↦ hfalse
  · exact (ensures_bootstrapIndex_retrievable hlaws hname hsecond hroom'
      (Or.inr ⟨hintact.retrievable, hmem⟩)).mono
      (fun _ _ hindexed ↦ ⟨trivial, Or.inr hindexed⟩) fun _ hfalse ↦ hfalse

/-- Startups that fail do not lose a credential, as long as they do not discard it. Let a
credential be in a state that an interrupted write can leave, and let any startups follow, each
with any failures or a power loss, in which no clean-up removes its primary record beside a backup
that is not complete. Then a startup in which nothing fails indexes the credential, with its old or
its new contents. -/
theorem startups_keep_credential (hlaws : SealLaws crypto) (world : World Event)
    (hname : isRecordName name = true) (h : Recoverable crypto world.files name old new)
    (startups : List Startup)
    (hsafe : EveryStep (afterStartup crypto) (SafeStartup crypto name old new) world startups)
    (listings : StartupListings)
    (hlists : ListsCredential listings (run (afterStartup crypto) world startups).files name) :
    ∃ store, resultOf (bootstrapInit crypto listings)
        ((undisturbed listings).device (run (afterStartup crypto) world startups)) =
          some (true, store) ∧
      (Indexed crypto old store ∨ Indexed crypto new store) := by
  have hkept := recoverable_run hlaws hname hsafe h
  have hclean : Clean ((undisturbed listings).device (run (afterStartup crypto) world startups)) :=
    ⟨rfl, rfl, rfl⟩
  obtain ⟨⟨ready, store⟩, -, hresult, rfl, hindexed⟩ :=
    (@ensures_bootstrapInit_undisturbed Event _ crypto name old new hlaws hname listings hclean
      hkept hlists).exists_resultOf
  exact ⟨store, hresult, hindexed⟩

end Undisturbed

section Samples

/-- The name of the record file of the sample. -/
def sampleName : Path := (sampleRecord 1 1).fileName

/-- A credential with its record file and the first bytes of a backup of it. -/
def partlyBackedUp : World Unit :=
  { World.blank Unit with
    files := Function.update sampleFiles (backupOf (recordPath sampleName)) (some [0xB1, 0x01]) }

/-- What its directory lists before and after the clean-up of the backup. -/
def partlyListed : StartupListings where
  temporary := some []
  backups := some [{ name := sampleName ++ ".bak".toList }]
  records := some [{ name := sampleName }]

def plainlyListed : StartupListings := { partlyListed with backups := some [] }

/-- A startup in which the removal of the backup fails. -/
def failedRemoval : Startup := { undisturbed partlyListed with writes := [.failed 0] }

/-- A startup whose first read fails. -/
def failedRead : Startup := { undisturbed partlyListed with reads := [false] }

theorem recoverable_partlyBackedUp :
    Recoverable Crypto.standIn partlyBackedUp.files sampleName (sampleRecord 1 1)
      (sampleRecord 1 1) := by
  obtain ⟨⟨data, hfile, hrecorded⟩, -⟩ := sampleFiles_eq
  have hname : isRecordName sampleName = true := isRecordName_sampleRecord
  obtain ⟨hne, hne', -⟩ := counterFloorPath_ne hname (Or.inr (Or.inl rfl))
  have hfiles : ∀ path, path ≠ backupOf (recordPath sampleName) →
      partlyBackedUp.files path = sampleFiles path :=
    fun path hpath ↦ Function.update_of_ne hpath _ _
  have hprimary : partlyBackedUp.files (recordPath sampleName) = some data :=
    (hfiles _ (backupOf_ne _).symm).trans hfile
  have hfloor : sampleFiles (counterFloorPath sampleName) = none :=
    sampleFiles_suffix hname (by decide) (by decide)
  have hbackup : sampleFiles (backupOf (counterFloorPath sampleName)) = none := by
    rw [counterFloorPath, backupOf_childPath, List.append_assoc]
    exact sampleFiles_suffix hname (by decide) (by decide)
  have hcounter : logical partlyBackedUp.files (counterFloorPath sampleName) = none := by
    rw [logical, hfiles _ hne.symm, hfiles _ hne'.symm, hfloor, hbackup]
    rfl
  refine ⟨rfl, rfl, rfl, rfl, ⟨data, ?_, Or.inl hrecorded⟩, fun raw hraw ↦ ?_⟩
  · rw [logical, hprimary, Option.some_or]
  · rw [hcounter] at hraw
    exact absurd hraw (by simp)

theorem listsCredential_partlyListed {files : Path → Option Bytes}
    (hbackup : (files (backupOf (recordPath sampleName))).isSome) :
    ListsCredential partlyListed files sampleName := by
  constructor
  · refine ⟨_, rfl, by simp, ?_, fun _ ↦ List.mem_cons_self⟩
    intro entry hentry _
    rw [List.mem_singleton] at hentry
    rw [hentry, ← backupOf_childPath]
    exact hbackup
  · exact ⟨_, rfl, List.mem_cons_self, by decide +kernel⟩

theorem listsCredential_plainlyListed {files : Path → Option Bytes}
    (hbackup : (files (backupOf (recordPath sampleName))).isSome = false) :
    ListsCredential plainlyListed files sampleName := by
  constructor
  · refine ⟨[], rfl, List.nodup_nil, by simp, fun habsurd ↦ ?_⟩
    rw [hbackup] at habsurd
    exact absurd habsurd (by simp)
  · exact ⟨_, rfl, List.mem_cons_self, by decide +kernel⟩

/-- One failing read, and the credential is gone: the partial backup has taken the place of the
record. -/
theorem failed_load_discards_record :
    Recoverable Crypto.standIn partlyBackedUp.files sampleName (sampleRecord 1 1)
        (sampleRecord 1 1) ∧
      ListsCredential plainlyListed
        (run (afterStartup Crypto.standIn) partlyBackedUp [failedRead]).files sampleName ∧
      resultOf (bootstrapInit Crypto.standIn plainlyListed)
        ((undisturbed plainlyListed).device
          (run (afterStartup Crypto.standIn) partlyBackedUp [failedRead])) = some (true, []) := by
  refine ⟨recoverable_partlyBackedUp, listsCredential_plainlyListed ?_, ?_⟩
  · decide +kernel
  · decide +kernel

/-- A failing removal costs nothing. -/
theorem startups_keep_credential_failedRemoval :
    ∃ store, resultOf (bootstrapInit Crypto.standIn partlyListed)
        ((undisturbed partlyListed).device
          (run (afterStartup Crypto.standIn) partlyBackedUp [failedRemoval])) =
            some (true, store) ∧
      (Indexed Crypto.standIn (sampleRecord 1 1) store ∨
        Indexed Crypto.standIn (sampleRecord 1 1) store) := by
  refine startups_keep_credential sealLaws_standIn partlyBackedUp isRecordName_sampleRecord
    recoverable_partlyBackedUp [failedRemoval] ⟨?_, trivial⟩ partlyListed
    (listsCredential_partlyListed (by decide +kernel))
  have hloads : ((cleanupVisits Crypto.standIn partlyListed
      (failedRemoval.device partlyBackedUp)).all fun visit ↦
        (resultOf (recordFormatLoadIndex Crypto.standIn sampleName) visit.2).all
          Option.isSome) = true := by
    decide +kernel
  rw [List.all_eq_true] at hloads
  rintro visit hvisit - -
  refine Or.inr ?_
  rintro ⟨middle, hrun, -⟩
  have hnone : resultOf (recordFormatLoadIndex Crypto.standIn sampleName) visit.2 = some none := by
    rw [resultOf, sampleName, hrun]
  have hloaded := hloads visit hvisit
  rw [hnone] at hloaded
  exact absurd hloaded (by simp)

end Samples

end ZeroFido.Store
