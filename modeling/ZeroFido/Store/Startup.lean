import ZeroFido.Store.Footprint

/-!
# What a startup does to the files

The loops of `store/recovery.c` and `store/bootstrap.c` over the data directory, one entry at a
time. A temporary file may go at any time. The clean-up of a backup works on the files of the
credential it belongs to (`cleanupTarget`), and so does a load, which may write the counter floor.
Every other file stays (`ensures_bootstrapInit_frame`).

Two results say when there is something to index: without a record file and without a backup of one
the index is empty (`ensures_bootstrapInit_absent`), and in a startup in which nothing fails every
intact record is indexed (`ensures_bootstrapInit_intact`).
-/

set_option autoImplicit false
set_option relaxedAutoImplicit false

namespace ZeroFido.Store

open Foundations Storage

section Loops

variable {Event : Type} {world : World Event} {visitor : DirEntry → Program (World Event) Bool}
  {invariant crash : World Event → Prop}

/-- The rule for a loop over a directory. -/
theorem ensures_visitDirEntries {entries : List DirEntry}
    (h : ∀ entry ∈ entries, ∀ world, invariant world →
      Ensures (visitor entry) (fun _ ↦ invariant) crash world) (hstart : invariant world) :
    Ensures (visitDirEntries visitor entries) (fun _ ↦ invariant) crash world := by
  induction entries generalizing world with
  | nil => exact hstart
  | cons entry rest ih =>
    rw [visitDirEntries, ensures_bind]
    refine (h entry List.mem_cons_self world hstart).mono (fun goOn middle hmiddle ↦ ?_)
      fun _ hcut ↦ hcut
    rw [ensures_ite]
    exact ⟨fun _ ↦ hmiddle, fun _ ↦
      ih (fun other hother ↦ h other (List.mem_cons_of_mem _ hother)) hmiddle⟩

theorem ensures_forEachDirEntry {listing : Listing}
    (h : ∀ entries, listing = some entries → ∀ entry ∈ entries, ∀ world, invariant world →
      Ensures (visitor entry) (fun _ ↦ invariant) crash world) (hstart : invariant world) :
    Ensures (forEachDirEntry visitor listing) (fun _ ↦ invariant) crash world := by
  cases listing with
  | none => exact hstart
  | some entries => exact ensures_visitDirEntries (h entries rfl) hstart

end Loops

section Names

/-- A file whose name ends in `.tmp`. -/
def TempFile (path : Path) : Prop :=
  ∃ name, hasSuffix name ".tmp".toList = true ∧ path = childPath name

theorem eq_append_of_hasSuffix {name suffix : Path} (h : hasSuffix name suffix = true) :
    name = name.take (name.length - suffix.length) ++ suffix := by
  obtain ⟨base, rfl⟩ := List.isSuffixOf_iff_suffix.mp h
  rw [List.length_append, Nat.add_sub_cancel, List.take_left]

/-- A name with another last character does not end in `.tmp`. -/
theorem not_tempFile {name : Path} {last : Char} (hlast : name.getLast? = some last)
    (hne : last ≠ 'p') : ¬TempFile (childPath name) := by
  rintro ⟨other, hsuffix, hpath⟩
  rw [childPath_injective hpath] at hlast
  rw [eq_append_of_hasSuffix hsuffix, List.getLast?_append] at hlast
  exact hne (Option.some.inj hlast).symm

theorem not_tempFile_recordPath {name : Path} (hname : isRecordName name = true) :
    ¬TempFile (recordPath name) := by
  have hlength := length_of_isRecordName hname
  have hne : name ≠ [] := by
    rintro rfl
    exact absurd hlength (by simp)
  refine not_tempFile (List.getLast?_eq_getLast_of_ne_nil hne) fun hlast ↦ ?_
  unfold isRecordName at hname
  rw [Bool.and_eq_true, List.all_eq_true] at hname
  have := hname.2 _ (List.getLast_mem hne)
  rw [hlast] at this
  exact absurd this (by decide)

theorem not_tempFile_append {name suffix : Path} {last : Char}
    (hlast : suffix.getLast? = some last) (hne : last ≠ 'p') :
    ¬TempFile (childPath (name ++ suffix)) := by
  refine not_tempFile ?_ hne
  rw [List.getLast?_append, hlast, Option.some_or]

theorem not_tempFile_backup (path : Path) : ¬TempFile (backupOf (childPath path)) := by
  rw [backupOf_childPath]
  exact not_tempFile_append rfl (by decide)

theorem not_tempFile_counterFloorPath (name : Path) : ¬TempFile (counterFloorPath name) :=
  not_tempFile_append rfl (by decide)

/-- The credential whose files the clean-up of a backup works on. -/
def cleanupTarget (entry : DirEntry) : Option Path :=
  if entry.isDir || !hasSuffix entry.name ".bak".toList then none
  else
    let fileName := entry.name.take (entry.name.length - 4)
    if isRecordName fileName then some fileName
    else if hasSuffix fileName ".counter".toList &&
        isRecordName (fileName.take (fileName.length - 8)) then
      some (fileName.take (fileName.length - 8))
    else none

theorem isRecordName_of_cleanupTarget {entry : DirEntry} {name : Path}
    (h : cleanupTarget entry = some name) : isRecordName name = true := by
  unfold cleanupTarget at h
  dsimp only at h
  split_ifs at h with hnot hrecord hcounter
  · rw [← Option.some.inj h]
    exact hrecord
  · rw [Bool.and_eq_true] at hcounter
    rw [← Option.some.inj h]
    exact hcounter.2

end Names

section Visitors

variable {Event : Type} {world world' : World Event} {crypto : Crypto}

/-- Only temporary files went. -/
structure TempsGone (world world' : World Event) : Prop extends Quiet world world' where
  frame : ∀ path, ¬TempFile path → world'.files path = world.files path

theorem ensures_removeSuffixVisitor (entry : DirEntry) :
    Ensures (removeSuffixVisitor ".tmp".toList entry) (fun _ world' ↦ TempsGone world world')
      (fun world' ↦ TempsGone world world' ∧ world.writes ≠ []) world := by
  have hgone : hasSuffix entry.name ".tmp".toList = true → ∀ world', OnlyFiles world world' →
      world'.files = world.files ∨ world'.files = removed (childPath entry.name) world.files →
      TempsGone world world' := by
    intro hsuffix world' honly hfiles
    refine ⟨honly.quiet, fun path hpath ↦ ?_⟩
    rcases hfiles with hfiles | hfiles
    · rw [hfiles]
    · rw [hfiles, removed, Function.update_of_ne]
      rintro rfl
      exact hpath ⟨entry.name, hsuffix, rfl⟩
  unfold removeSuffixVisitor
  split_ifs with hskip
  · exact ⟨Quiet.refl world, fun _ _ ↦ rfl⟩
  · have hsuffix : hasSuffix entry.name ".tmp".toList = true := by
      rw [Bool.or_eq_true, not_or, Bool.not_eq_true', Bool.not_eq_false] at hskip
      exact hskip.2
    refine ensures_removeOptional (fun world' honly hfiles ↦ ?_) fun world' honly hlisted hfiles ↦ ?_
    · exact hgone hsuffix world' honly (Or.inr hfiles)
    · exact ⟨hgone hsuffix world' honly hfiles, hgone hsuffix world' honly hfiles, hlisted⟩

/-- The clean-up of an entry is that of a record backup, that of a counter backup, or nothing. -/
theorem recoveryCleanupVisitor_cases (entry : DirEntry) :
    (cleanupTarget entry = none ∧
        (recoveryCleanupVisitor crypto entry : Program (World Event) Bool) = pure true) ∨
      ∃ name, cleanupTarget entry = some name ∧ isRecordName name = true ∧ entry.isDir = false ∧
        (childPath entry.name = backupOf (recordPath name) ∧
            (recoveryCleanupVisitor crypto entry : Program (World Event) Bool) =
              recoveryRecoverRecordBackup crypto name (backupOf (recordPath name)) ∨
          childPath entry.name = backupOf (counterFloorPath name) ∧
            (recoveryCleanupVisitor crypto entry : Program (World Event) Bool) =
              recoveryRecoverCounterBackup name) := by
  unfold cleanupTarget recoveryCleanupVisitor
  by_cases hskip : (entry.isDir || !hasSuffix entry.name ".bak".toList) = true
  · rw [if_pos hskip, if_pos hskip]
    exact Or.inl ⟨rfl, rfl⟩
  · rw [if_neg hskip, if_neg hskip]
    rw [Bool.or_eq_true, not_or, Bool.not_eq_true', Bool.not_eq_true, Bool.not_eq_false] at hskip
    obtain ⟨hfile, hbackup⟩ := hskip
    have hentry := eq_append_of_hasSuffix hbackup
    dsimp only
    by_cases hrecord : isRecordName (entry.name.take (entry.name.length - 4)) = true
    · rw [if_pos hrecord, if_pos hrecord]
      have hpath : childPath entry.name =
          backupOf (recordPath (entry.name.take (entry.name.length - 4))) := by
        rw [recordPath, backupOf_childPath]
        exact congrArg childPath hentry
      refine Or.inr ⟨_, rfl, hrecord, hfile, Or.inl ⟨hpath, ?_⟩⟩
      rw [hpath]
    · rw [if_neg hrecord, if_neg hrecord]
      by_cases hcounter : hasSuffix (entry.name.take (entry.name.length - 4))
          ".counter".toList = true
      · rw [if_pos hcounter, hcounter, Bool.true_and]
        have hfileName := eq_append_of_hasSuffix hcounter
        by_cases hname : isRecordName ((entry.name.take (entry.name.length - 4)).take
            ((entry.name.take (entry.name.length - 4)).length - 8)) = true
        · rw [if_pos hname, if_pos hname]
          refine Or.inr ⟨_, rfl, hname, hfile, Or.inr ⟨?_, rfl⟩⟩
          rw [counterFloorPath, backupOf_childPath]
          exact congrArg childPath (hentry.trans (congrArg (· ++ ".bak".toList) hfileName))
        · rw [if_neg hname, if_neg hname]
          exact Or.inl ⟨rfl, rfl⟩
      · have hneither : ¬(hasSuffix (entry.name.take (entry.name.length - 4)) ".counter".toList &&
            isRecordName ((entry.name.take (entry.name.length - 4)).take
              ((entry.name.take (entry.name.length - 4)).length - 8))) = true := by
          rw [Bool.and_eq_true]
          exact fun hboth ↦ hcounter hboth.1
        rw [if_neg hcounter, if_neg hneither]
        exact Or.inl ⟨rfl, rfl⟩

/-- The clean-up of an entry changes only files of the credential it is for. -/
theorem ensures_recoveryCleanupVisitor_within (hlaws : SealLaws crypto) (entry : DirEntry) :
    Ensures (recoveryCleanupVisitor crypto entry)
      (fun _ world' ↦ world' = world ∨ ∃ name, cleanupTarget entry = some name ∧
        Within name world world')
      (fun world' ↦ ∃ name, cleanupTarget entry = some name ∧ WithinCut name world world')
      world := by
  rcases @recoveryCleanupVisitor_cases Event crypto entry with
    ⟨-, hnothing⟩ | ⟨name, htarget, hname, -, ⟨-, hrecord⟩ | ⟨-, hcounter⟩⟩
  · rw [hnothing]
    exact Or.inl rfl
  · rw [hrecord]
    exact (ensures_recoveryRecoverRecordBackup_within hlaws hname).mono
      (fun _ final hfinal ↦ Or.inr ⟨name, htarget, hfinal⟩) fun final hfinal ↦
        ⟨name, htarget, hfinal⟩
  · rw [hcounter]
    exact (ensures_recoveryRecoverCounterBackup_within hname).mono
      (fun _ final hfinal ↦ Or.inr ⟨name, htarget, hfinal⟩) fun final hfinal ↦
        ⟨name, htarget, hfinal⟩

end Visitors

section Frame

variable {Event : Type} {world : World Event} {crypto : Crypto}

/-- A file that is no temporary file and belongs to no credential. -/
structure Foreign (path : Path) : Prop where
  notTemp : ¬TempFile path
  notRecord : ∀ name, isRecordName name = true → ¬FileOf name path

/-- The files that no startup touches stay. -/
structure ForeignKept (world world' : World Event) : Prop extends Quiet world world' where
  frame : ∀ path, Foreign path → world'.files path = world.files path

theorem ForeignKept.refl (world : World Event) : ForeignKept world world :=
  ⟨Quiet.refl world, fun _ _ ↦ rfl⟩

theorem ForeignKept.trans {world' world'' : World Event} (h : ForeignKept world world')
    (h' : ForeignKept world' world'') : ForeignKept world world'' :=
  ⟨h.toQuiet.trans h'.toQuiet, fun path hpath ↦ (h'.frame path hpath).trans (h.frame path hpath)⟩

theorem Within.foreignKept {name : Path} {world' : World Event} (hname : isRecordName name = true)
    (h : Within name world world') : ForeignKept world world' :=
  ⟨h.toQuiet, fun path hpath ↦ h.frame path (hpath.notRecord name hname)⟩

theorem ensures_recoveryCleanupTempFiles_foreign (hlaws : SealLaws crypto)
    {temporary backups : Listing} :
    Ensures (recoveryCleanupTempFiles crypto temporary backups)
      (fun _ world' ↦ ForeignKept world world') (fun world' ↦ ForeignKept world world') world := by
  rw [recoveryCleanupTempFiles, ensures_bind]
  refine (@ensures_forEachDirEntry Event world _ (ForeignKept world) _ _ ?_ (ForeignKept.refl world)).mono
    ?_ fun _ hcut ↦ hcut
  · intro entries _ entry _ middle hmiddle
    refine (ensures_removeSuffixVisitor entry).mono ?_ ?_
    · exact fun _ final hfinal ↦
        hmiddle.trans ⟨hfinal.toQuiet, fun path hpath ↦ hfinal.frame path hpath.notTemp⟩
    · rintro final ⟨hfinal, -⟩
      exact hmiddle.trans ⟨hfinal.toQuiet, fun path hpath ↦ hfinal.frame path hpath.notTemp⟩
  · intro _ middle hmiddle
    rw [ensures_bind]
    refine (@ensures_forEachDirEntry Event middle _ (ForeignKept world) _ _ ?_ hmiddle).mono ?_
      fun _ hcut ↦ hcut
    · intro entries _ entry _ middle hmiddle
      refine (ensures_recoveryCleanupVisitor_within hlaws entry).mono ?_ ?_
      · rintro _ final (rfl | ⟨name, htarget, hfinal⟩)
        · exact hmiddle
        · exact hmiddle.trans (hfinal.foreignKept (isRecordName_of_cleanupTarget htarget))
      · rintro final ⟨name, htarget, hfinal⟩
        exact hmiddle.trans (hfinal.toWithin.foreignKept (isRecordName_of_cleanupTarget htarget))
    · exact fun _ final hfinal ↦ hfinal

/-- The rule for rebuilding the index. -/
theorem ensures_bootstrapIndex {invariant : CredentialStore → World Event → Prop}
    {crash : World Event → Prop} {entries : List DirEntry} {store : CredentialStore}
    (h : ∀ entry ∈ entries, isRecordName entry.name = true → ∀ store world,
      invariant store world → Ensures (recordFormatLoadIndex crypto entry.name)
        (fun result world' ↦ invariant (store ++ result.toList) world') crash world)
    (hstart : invariant store world) :
    Ensures (bootstrapIndex crypto store entries) invariant crash world := by
  induction entries generalizing store world with
  | nil => exact hstart
  | cons entry rest ih =>
    have hrest : ∀ other ∈ rest, isRecordName other.name = true → ∀ store world,
        invariant store world → Ensures (recordFormatLoadIndex crypto other.name)
          (fun result world' ↦ invariant (store ++ result.toList) world') crash world :=
      fun other hother ↦ h other (List.mem_cons_of_mem _ hother)
    rw [bootstrapIndex, ensures_ite]
    refine ⟨fun _ ↦ ih hrest hstart, fun hskip ↦ ?_⟩
    have hname : isRecordName entry.name = true := by
      simp only [Bool.or_eq_true, not_or, Bool.not_eq_true', Bool.not_eq_false] at hskip
      exact hskip.1.2
    rw [ensures_bind]
    refine (h entry List.mem_cons_self hname store world hstart).mono ?_ fun _ hcut ↦ hcut
    intro result middle hmiddle
    cases result with
    | none =>
      rw [Option.toList_none, List.append_nil] at hmiddle
      exact ih hrest hmiddle
    | some indexEntry => exact ih hrest hmiddle

/-- Every other file stays. -/
theorem ensures_bootstrapInit_frame (hlaws : SealLaws crypto) {listings : StartupListings} :
    Ensures (bootstrapInit crypto listings) (fun _ world' ↦ ForeignKept world world')
      (fun world' ↦ ForeignKept world world') world := by
  have hidle : ∀ {middle : World Event}, Idle world middle → ForeignKept world middle :=
    fun h ↦ ⟨h.toQuiet, fun _ _ ↦ by rw [h.files_eq]⟩
  rw [bootstrapInit, ensures_bind]
  refine ensures_ensureAppDataDir.mono ?_ fun final hfinal ↦ hidle hfinal.1
  rintro ready first ⟨hfirst, -⟩
  rw [ensures_ite]
  refine ⟨fun _ ↦ hidle hfirst, fun _ ↦ ?_⟩
  rw [ensures_bind]
  refine (ensures_recoveryCleanupTempFiles_foreign hlaws).mono ?_ fun final hfinal ↦
    (hidle hfirst).trans hfinal
  intro _ second hsecond
  have hkept := (hidle hfirst).trans hsecond
  cases listings.records with
  | none => exact hkept
  | some entries =>
    simp only [ensures_bind, ensures_pure]
    refine @ensures_bootstrapIndex _ _ _ (fun _ world' ↦ ForeignKept world world') _ _ _ ?_ hkept
    intro entry _ hname _ middle hmiddle
    exact (ensures_recordFormatLoadIndex hlaws hname).mono
      (fun _ final hloaded ↦ hmiddle.trans (hloaded.within.foreignKept hname))
      fun final hcut ↦ hmiddle.trans (hcut.withinCut.toWithin.foreignKept hname)

end Frame

section Absent

variable {Event : Type} {world : World Event} {crypto : Crypto}

/-- There is neither a record file nor a backup of one. -/
def Absent (files : Path → Option Bytes) : Prop :=
  ∀ name, isRecordName name = true →
    files (recordPath name) = none ∧ files (backupOf (recordPath name)) = none

theorem Absent.of_eq {files files' : Path → Option Bytes} (h : Absent files)
    (hsame : ∀ name, isRecordName name = true → files' (recordPath name) = files (recordPath name) ∧
      files' (backupOf (recordPath name)) = files (backupOf (recordPath name))) : Absent files' := by
  intro name hname
  obtain ⟨hrecord, hbackup⟩ := hsame name hname
  rw [hrecord, hbackup]
  exact h name hname

/-- Where nothing is, nothing comes from recovering a backup. -/
theorem ensures_recoveryRecoverRecordBackup_absent {name : Path} (hname : isRecordName name = true)
    (h : Absent world.files) :
    Ensures (recoveryRecoverRecordBackup crypto name (backupOf (recordPath name)))
      (fun _ world' ↦ Absent world'.files) (fun world' ↦ Absent world'.files) world := by
  obtain ⟨hrecord, hbackup⟩ := h name hname
  have hgone : ∀ world' : World Event, world'.files = world.files ∨
      world'.files = removed (recordPath name) world.files → Absent world'.files := by
    intro world' hfiles
    rcases hfiles with hfiles | hfiles
    · rw [hfiles]
      exact h
    · rw [hfiles]
      intro other hother
      have hmissing := h other hother
      constructor
      · by_cases hsame : recordPath other = recordPath name
        · rw [hsame, removed, Function.update_self]
        · rw [removed, Function.update_of_ne hsame, hmissing.1]
      · by_cases hsame : backupOf (recordPath other) = recordPath name
        · rw [hsame, removed, Function.update_self]
        · rw [removed, Function.update_of_ne hsame, hmissing.2]
  have hrecord' : world.files (childPath name) = none := hrecord
  simp only [recoveryRecoverRecordBackup, ensures_bind, ensures_fileExists, hrecord',
    Option.isSome_none, Bool.false_eq_true, if_false]
  refine ensures_removeOptional (fun middle honly hfiles ↦ ?_) fun middle honly _ hfiles ↦ ?_
  · have hbackup' : middle.files (backupOf (recordPath name)) = none :=
      (hgone middle (Or.inr hfiles) name hname).2
    simp only [Bool.not_true, Bool.false_eq_true, if_false, rename, ensures_bind, ensures_get,
      hbackup', ensures_pure]
    exact hgone middle (Or.inr hfiles)
  · exact ⟨hgone middle hfiles, hgone middle hfiles⟩

theorem ensures_recoveryCleanupVisitor_absent (entry : DirEntry) (h : Absent world.files) :
    Ensures (recoveryCleanupVisitor crypto entry) (fun _ world' ↦ Absent world'.files)
      (fun world' ↦ Absent world'.files) world := by
  rcases @recoveryCleanupVisitor_cases Event crypto entry with
    ⟨-, hnothing⟩ | ⟨name, -, hname, -, ⟨-, hrecord⟩ | ⟨-, hcounter⟩⟩
  · rw [hnothing]
    exact h
  · rw [hrecord]
    exact ensures_recoveryRecoverRecordBackup_absent hname h
  · rw [hcounter]
    have hkept : ∀ (next : Option Bytes) (world' : World Event), Moves (counterFloorPath name)
        (counterFloorTempPath name) next world world' → Absent world'.files := by
      intro next world' hmoves
      refine h.of_eq fun other hother ↦ ?_
      by_cases hsame : name = other
      · subst hsame
        obtain ⟨hpath, hbackup, htemp⟩ := counterFloorPath_ne hname (Or.inl rfl)
        obtain ⟨hpath', hbackup', htemp'⟩ := counterFloorPath_ne hname (Or.inr (Or.inl rfl))
        exact ⟨hmoves.frame _ hpath hbackup htemp, hmoves.frame _ hpath' hbackup' htemp'⟩
      · have hwithin := (within_of_moves (fileOf_counterFloorPath name)
          (fileOf_counterFloorTempPath name) hmoves).elsewhere hname hother hsame
        exact ⟨hwithin _ (fileOf_recordPath other), hwithin _ (fileOf_recordPath other).backup⟩
    refine (ensures_recoverAtomicFile (atomicPaths_counterFloor hname)).mono ?_ fun final hfinal ↦
      hkept _ final hfinal.moves
    rintro ok final ⟨hkeeps, -, -⟩
    exact hkept _ final hkeeps

theorem ensures_recoveryCleanupTempFiles_absent {temporary backups : Listing}
    (h : Absent world.files) :
    Ensures (recoveryCleanupTempFiles crypto temporary backups)
      (fun _ world' ↦ Absent world'.files) (fun world' ↦ Absent world'.files) world := by
  rw [recoveryCleanupTempFiles, ensures_bind]
  refine (@ensures_forEachDirEntry Event world _ (fun world' ↦ Absent world'.files) _ _ ?_ h).mono
    ?_ fun _ hcut ↦ hcut
  · intro entries _ entry _ middle hmiddle
    have hkept : ∀ final, TempsGone middle final → Absent final.files := fun final hfinal ↦
      hmiddle.of_eq fun name hname ↦ ⟨hfinal.frame _ (not_tempFile_recordPath hname),
        hfinal.frame _ (not_tempFile_backup name)⟩
    exact (ensures_removeSuffixVisitor entry).mono (fun _ final hfinal ↦ hkept final hfinal)
      fun final hfinal ↦ hkept final hfinal.1
  · intro _ middle hmiddle
    rw [ensures_bind]
    refine (@ensures_forEachDirEntry Event middle _ (fun world' ↦ Absent world'.files) _ _ ?_
      hmiddle).mono (fun _ final hfinal ↦ hfinal) fun _ hcut ↦ hcut
    exact fun entries _ entry _ world hworld ↦ ensures_recoveryCleanupVisitor_absent entry hworld

/-- Without a record file and without a backup of one the index is empty. -/
theorem ensures_bootstrapInit_absent (hlaws : SealLaws crypto) {listings : StartupListings}
    (h : Absent world.files) :
    Ensures (bootstrapInit crypto listings) (fun result _ ↦ result.2 = []) (fun _ ↦ True)
      world := by
  rw [bootstrapInit, ensures_bind]
  refine ensures_ensureAppDataDir.mono ?_ fun _ _ ↦ trivial
  rintro ready first ⟨hfirst, -⟩
  rw [← hfirst.files_eq] at h
  rw [ensures_ite]
  refine ⟨fun _ ↦ rfl, fun _ ↦ ?_⟩
  rw [ensures_bind]
  refine (ensures_recoveryCleanupTempFiles_absent h).mono ?_ fun _ _ ↦ trivial
  intro _ second hsecond
  cases listings.records with
  | none => exact rfl
  | some entries =>
    simp only [ensures_bind, ensures_pure]
    refine (@ensures_bootstrapIndex _ _ _
      (fun store world' ↦ store = [] ∧ Absent world'.files) (fun _ ↦ True) _ _ ?_
      ⟨rfl, hsecond⟩).mono (fun _ _ hdone ↦ hdone.1) fun _ _ ↦ trivial
    rintro entry _ hname store middle ⟨rfl, hmiddle⟩
    refine (ensures_recordFormatLoadIndex hlaws hname).mono ?_ fun _ _ ↦ trivial
    intro result final hloaded
    have hnone : loadFound crypto middle.files entry.name = none := by
      rw [loadFound, recordFound, (hmiddle entry.name hname).1]
      rfl
    have hresult : result = none := by
      rcases hloaded.result_eq with hresult | hresult
      · rw [hresult, hnone, Option.map_none]
      · exact hresult.1
    refine ⟨by rw [hresult, Option.toList_none, List.append_nil], ?_⟩
    refine hmiddle.of_eq fun other hother ↦ ?_
    by_cases hsame : entry.name = other
    · rw [← hsame]
      exact hloaded.rewrites.record_eq hname
    · have helse := hloaded.within.elsewhere hname hother hsame
      exact ⟨helse _ (fileOf_recordPath other), helse _ (fileOf_recordPath other).backup⟩

end Absent

section Intact

variable {Event : Type} {world world' : World Event} {crypto : Crypto} {name : Path}
  {record : CredentialRecord}

/-- No call to come fails. -/
structure Clean (world : World Event) : Prop where
  writes : world.writes = []
  reads : world.reads = []
  enclave : world.enclave = []

theorem Clean.of_quiet (h : Clean world) (hquiet : Quiet world world') : Clean world' := by
  refine ⟨hquiet.writes_nil h.writes, ?_, ?_⟩
  · have hreads := hquiet.reads
    rwa [h.reads, List.suffix_nil] at hreads
  · have henclave := hquiet.enclave
    rwa [h.enclave, List.suffix_nil] at henclave

/-- The credential has a complete record file, and its counter floor is complete or missing. -/
structure Intact (crypto : Crypto) (files : Path → Option Bytes) (name : Path)
    (record : CredentialRecord) : Prop where
  fileName : record.fileName = name
  recordFile : ∃ data, files (recordPath name) = some data ∧ Recorded crypto data record
  counterFile : ∀ raw, files (counterFloorPath name) = some raw →
    ∃ count, CounterFloor crypto record.credentialId record.createdAt raw count

theorem Intact.of_eq {files files' : Path → Option Bytes} (h : Intact crypto files name record)
    (hrecord : files' (recordPath name) = files (recordPath name))
    (hcounter : files' (counterFloorPath name) = files (counterFloorPath name)) :
    Intact crypto files' name record := by
  refine ⟨h.fileName, ?_, ?_⟩
  · rw [hrecord]
    exact h.recordFile
  · rw [hcounter]
    exact h.counterFile

theorem recordFound_of_recorded {files : Path → Option Bytes} {data : Bytes}
    (hfile : files (recordPath record.fileName) = some data) (h : Recorded crypto data record) :
    ∃ counterFloor, recordFound crypto files record.fileName = some (record, some counterFloor) ∧
      CounterFloor crypto record.credentialId record.createdAt counterFloor record.signCount := by
  obtain ⟨counterFloor, hvalue, hfloor⟩ := h.value
  refine ⟨counterFloor, ?_, hfloor⟩
  have hsize : 0 < data.length ∧ data.length ≤ storeRecordMaxSize :=
    ⟨List.length_pos_iff.mpr h.nonempty, h.fits⟩
  simp only [recordFound, hfile, Option.bind_eq_bind, Option.bind_some, if_pos hsize, hvalue]

/-- A load of the credential gives the record, perhaps with a higher count. -/
def Retrievable (crypto : Crypto) (files : Path → Option Bytes) (name : Path)
    (record : CredentialRecord) : Prop :=
  ∃ count, record.signCount ≤ count ∧
    loadFound crypto files name = some { record with signCount := count }

theorem Retrievable.of_eq {files files' : Path → Option Bytes}
    (h : Retrievable crypto files name record)
    (hrecord : files' (recordPath name) = files (recordPath name))
    (hcounter : files' (counterFloorPath name) = files (counterFloorPath name)) :
    Retrievable crypto files' name record := by
  unfold Retrievable
  rw [loadFound_congr hrecord hcounter]
  exact h

/-- An intact credential can be loaded. -/
theorem Intact.retrievable {files : Path → Option Bytes} (h : Intact crypto files name record) :
    Retrievable crypto files name record := by
  obtain ⟨data, hfile, hrecorded⟩ := h.recordFile
  rw [← h.fileName] at hfile
  obtain ⟨counterFloor, hfound, hfloor⟩ := recordFound_of_recorded hfile hrecorded
  rw [h.fileName] at hfound
  have hcount : ∃ count, record.signCount ≤ count ∧ countFound crypto files name
      record.credentialId record.createdAt record.signCount (some counterFloor) = some count := by
    cases hcounter : files (counterFloorPath name) with
    | none =>
      refine ⟨record.signCount, Nat.le_refl _, ?_⟩
      simp [countFound, hcounter, hfloor.value]
    | some raw =>
      obtain ⟨count, hraw⟩ := h.counterFile raw hcounter
      refine ⟨max record.signCount count, Nat.le_max_left _ _, ?_⟩
      simp [countFound, hcounter, hraw.length, hraw.value]
  obtain ⟨count, hle, hcount⟩ := hcount
  refine ⟨count, hle, ?_⟩
  simp [loadFound, hfound, hcount]

/-- The entries that the index loop loads. -/
def DirEntry.isRecord (entry : DirEntry) : Bool := !entry.isDir && isRecordName entry.name

/-- The index has an entry made from the record, perhaps with a higher count. -/
def Indexed (crypto : Crypto) (record : CredentialRecord) (store : CredentialStore) : Prop :=
  ∃ count, record.signCount ≤ count ∧
    indexEntryFromRecord crypto { record with signCount := count } ∈ store

/-- A credential that can be loaded and is listed is indexed, when nothing fails and there is
room. -/
theorem ensures_bootstrapIndex_retrievable (hlaws : SealLaws crypto) (hname : isRecordName name = true)
    {entries : List DirEntry} {store : CredentialStore} (hclean : Clean world)
    (hroom : store.length + (entries.filter DirEntry.isRecord).length ≤ maxCredentials)
    (h : Indexed crypto record store ∨
      Retrievable crypto world.files name record ∧ { name } ∈ entries) :
    Ensures (bootstrapIndex crypto store entries)
      (fun store _ ↦ Indexed crypto record store) (fun _ ↦ False) world := by
  induction entries generalizing store world with
  | nil =>
    rcases h with h | ⟨-, habsurd⟩
    · exact h
    · exact absurd habsurd (by simp)
  | cons entry rest ih =>
    rw [bootstrapIndex, ensures_ite]
    rw [List.filter_cons] at hroom
    by_cases hrecord : entry.isRecord = true
    · have hentry := hrecord
      rw [DirEntry.isRecord, Bool.and_eq_true, Bool.not_eq_true'] at hentry
      rw [if_pos hrecord, List.length_cons] at hroom
      have hgo : (entry.isDir || !isRecordName entry.name || decide (maxCredentials ≤ store.length))
          = false := by
        rw [hentry.1, hentry.2, Bool.false_or, Bool.not_true, Bool.false_or, decide_eq_false_iff_not]
        omega
      refine ⟨fun habsurd ↦ absurd (hgo.symm.trans habsurd) (by simp), fun _ ↦ ?_⟩
      rw [ensures_bind]
      refine (ensures_recordFormatLoadIndex hlaws hentry.2).mono ?_ ?_
      · intro result middle hloaded
        have hmiddle := hclean.of_quiet hloaded.within.toQuiet
        have hresult : result = (loadFound crypto world.files entry.name).map
            (indexEntryFromRecord crypto) := by
          rcases hloaded.result_eq with hresult | ⟨-, hfailed⟩
          · exact hresult
          · rcases hfailed with hreads | henclave | ⟨hwrites, -⟩
            · exact absurd hclean.reads hreads
            · exact absurd hclean.enclave henclave
            · exact absurd hclean.writes hwrites
        have hnext : Indexed crypto record (store ++ result.toList) ∨
            Retrievable crypto middle.files name record ∧ { name } ∈ rest := by
          rcases h with ⟨count, hle, hfound⟩ | ⟨hretrievable, hlisted⟩
          · exact Or.inl ⟨count, hle, List.mem_append_left _ hfound⟩
          · by_cases hsame : entry.name = name
            · rw [hsame] at hresult
              obtain ⟨count, hle, hload⟩ := hretrievable
              rw [hload, Option.map_some] at hresult
              refine Or.inl ⟨count, hle, List.mem_append_right _ ?_⟩
              rw [hresult, Option.toList_some]
              exact List.mem_singleton_self _
            · have helse := hloaded.within.elsewhere hentry.2 hname hsame
              refine Or.inr ⟨hretrievable.of_eq (helse _ (fileOf_recordPath name))
                (helse _ (fileOf_counterFloorPath name)), ?_⟩
              rcases List.mem_cons.mp hlisted with heq | hrest
              · exact absurd (congrArg DirEntry.name heq).symm hsame
              · exact hrest
        cases result with
        | none =>
          rw [Option.toList_none, List.append_nil] at hnext
          exact ih hmiddle (by omega) hnext
        | some indexEntry =>
          refine ih hmiddle ?_ hnext
          rw [List.length_append, List.length_singleton]
          omega
      · exact fun _ hcut ↦ hcut.listed hclean.writes
    · rw [if_neg hrecord] at hroom
      have hskip : (entry.isDir || !isRecordName entry.name ||
          decide (maxCredentials ≤ store.length)) = true := by
        rw [DirEntry.isRecord, Bool.not_eq_true, Bool.and_eq_false_iff] at hrecord
        rcases hrecord with hdir | hnot
        · rw [Bool.not_eq_false'] at hdir
          rw [hdir, Bool.true_or, Bool.true_or]
        · rw [hnot, Bool.not_false, Bool.or_true, Bool.true_or]
      refine ⟨fun _ ↦ ih hclean hroom (h.imp id fun ⟨hretrievable, hlisted⟩ ↦ ⟨hretrievable, ?_⟩),
        fun hgo ↦ absurd hskip hgo⟩
      rcases List.mem_cons.mp hlisted with heq | hrest
      · refine absurd ?_ hrecord
        rw [← heq, DirEntry.isRecord, hname]
        rfl
      · exact hrest

/-- A credential without backups goes through the clean-up unharmed. -/
theorem ensures_recoveryCleanupTempFiles_intact (hlaws : SealLaws crypto)
    (hname : isRecordName name = true) {temporary backups : Listing} (hclean : Clean world)
    (hbackups : ∀ entries, backups = some entries → ∀ entry ∈ entries,
      cleanupTarget entry ≠ some name) (h : Intact crypto world.files name record) :
    Ensures (recoveryCleanupTempFiles crypto temporary backups)
      (fun _ world' ↦ Clean world' ∧ Intact crypto world'.files name record) (fun _ ↦ False)
      world := by
  rw [recoveryCleanupTempFiles, ensures_bind]
  refine (@ensures_forEachDirEntry Event world _
    (fun world' ↦ Clean world' ∧ Intact crypto world'.files name record) _ _ ?_ ⟨hclean, h⟩).mono
    ?_ fun _ hcut ↦ hcut
  · rintro entries - entry - middle ⟨hmiddle, hintact⟩
    refine (ensures_removeSuffixVisitor entry).mono ?_ fun final hfinal ↦
      hfinal.2 hmiddle.writes
    intro _ final hfinal
    exact ⟨hmiddle.of_quiet hfinal.toQuiet, hintact.of_eq
      (hfinal.frame _ (not_tempFile_recordPath hname))
      (hfinal.frame _ (not_tempFile_counterFloorPath name))⟩
  · rintro _ second ⟨hsecond, hintact⟩
    rw [ensures_bind]
    refine (@ensures_forEachDirEntry Event second _
      (fun world' ↦ Clean world' ∧ Intact crypto world'.files name record) _ _ ?_
      ⟨hsecond, hintact⟩).mono (fun _ _ hfinal ↦ hfinal) fun _ hcut ↦ hcut
    rintro entries hentries entry hentry middle ⟨hmiddle, hintact⟩
    refine (ensures_recoveryCleanupVisitor_within hlaws entry).mono ?_ ?_
    · rintro _ final (rfl | ⟨other, htarget, hfinal⟩)
      · exact ⟨hmiddle, hintact⟩
      · have hne : other ≠ name := by
          rintro rfl
          exact hbackups entries hentries entry hentry htarget
        have helse := hfinal.elsewhere (isRecordName_of_cleanupTarget htarget) hname hne
        exact ⟨hmiddle.of_quiet hfinal.toQuiet, hintact.of_eq (helse _ (fileOf_recordPath name))
          (helse _ (fileOf_counterFloorPath name))⟩
    · rintro final ⟨other, -, hcut⟩
      exact hcut.listed hmiddle.writes

/-- In a startup in which nothing fails an intact credential without backups is indexed. -/
theorem ensures_bootstrapInit_intact (hlaws : SealLaws crypto) (hname : isRecordName name = true)
    {listings : StartupListings} {entries : List DirEntry} (hclean : Clean world)
    (hbackups : ∀ entries, listings.backups = some entries → ∀ entry ∈ entries,
      cleanupTarget entry ≠ some name)
    (hrecords : listings.records = some entries) (hlisted : { name } ∈ entries)
    (hroom : (entries.filter DirEntry.isRecord).length ≤ maxCredentials)
    (h : Intact crypto world.files name record) :
    Ensures (bootstrapInit crypto listings)
      (fun result _ ↦ result.1 = true ∧ Indexed crypto record result.2) (fun _ ↦ False) world := by
  rw [bootstrapInit, ensures_bind]
  refine ensures_ensureAppDataDir.mono ?_ fun _ hcut ↦ hcut.2 hclean.writes
  rintro ready first ⟨hfirst, hfailed⟩
  rw [← hfirst.files_eq] at h
  rw [ensures_ite]
  refine ⟨fun hnot ↦ absurd hclean.writes (hfailed (by simpa using hnot)), fun _ ↦ ?_⟩
  rw [ensures_bind]
  refine (ensures_recoveryCleanupTempFiles_intact hlaws hname (hclean.of_quiet hfirst.toQuiet)
    hbackups h).mono ?_ fun _ hcut ↦ hcut
  rintro _ second ⟨hsecond, hintact⟩
  simp only [hrecords, ensures_bind, ensures_pure]
  refine (ensures_bootstrapIndex_retrievable hlaws hname hsecond ?_
    (Or.inr ⟨hintact.retrievable, hlisted⟩)).mono
    (fun _ _ hindexed ↦ ⟨trivial, hindexed⟩) fun _ hcut ↦ hcut
  rw [List.length_nil, Nat.zero_add]
  exact hroom

end Intact

end ZeroFido.Store
