import ZeroFido.Store.Bootstrap

/-!
# The files of one credential

Every file of a credential is named by its record name with a suffix, so the files of two
credentials never meet. `Within` says that an operation left every file alone but those of one
credential; what is found of the other credentials then stays the same (`loadFound_congr`).
-/

set_option autoImplicit false
set_option relaxedAutoImplicit false

namespace ZeroFido.Store

open Foundations Storage

section Names

/-- The path is a file of the credential with the record name. -/
def FileOf (name path : Path) : Prop := ∃ suffix, path = childPath (name ++ suffix)

theorem fileOf_recordPath (name : Path) : FileOf name (recordPath name) := ⟨[], recordPath_eq name⟩

theorem fileOf_tempPath (name : Path) : FileOf name (tempPath name) := ⟨_, rfl⟩

theorem fileOf_counterFloorPath (name : Path) : FileOf name (counterFloorPath name) := ⟨_, rfl⟩

theorem fileOf_counterFloorTempPath (name : Path) : FileOf name (counterFloorTempPath name) :=
  ⟨_, rfl⟩

theorem FileOf.backup {name path : Path} (h : FileOf name path) : FileOf name (backupOf path) := by
  obtain ⟨suffix, rfl⟩ := h
  exact ⟨suffix ++ ".bak".toList, by rw [backupOf_childPath, List.append_assoc]⟩

/-- No file belongs to two credentials. -/
theorem FileOf.unique {name other path : Path} (hname : isRecordName name = true)
    (hother : isRecordName other = true) (h : FileOf name path) (h' : FileOf other path) :
    name = other := by
  obtain ⟨suffix, rfl⟩ := h
  obtain ⟨suffix', hpath⟩ := h'
  exact (recordName_append_inj hname hother hpath).1

/-- A short name is no file of a credential. -/
theorem not_fileOf_of_length {name file : Path} (hname : isRecordName name = true)
    (hfile : file.length < 64) : ¬FileOf name (childPath file) := by
  rintro ⟨suffix, hpath⟩
  have hlength := congrArg List.length (childPath_injective hpath)
  rw [List.length_append, length_of_isRecordName hname] at hlength
  omega

/-- The two atomic files of a credential have different paths. -/
theorem counterFloorPath_ne {name path : Path} (hname : isRecordName name = true)
    (hpath : path = recordPath name ∨ path = backupOf (recordPath name) ∨ path = tempPath name) :
    path ≠ counterFloorPath name ∧ path ≠ backupOf (counterFloorPath name) ∧
      path ≠ counterFloorTempPath name := by
  have hne : ∀ suffix suffix' : Path, suffix ≠ suffix' →
      childPath (name ++ suffix) ≠ childPath (name ++ suffix') :=
    fun _ _ hsuffix h ↦ hsuffix (recordName_append_inj hname hname h).2
  have hcounterBackup : backupOf (counterFloorPath name) =
      childPath (name ++ ".counter.bak".toList) := by
    rw [counterFloorPath, backupOf_childPath, List.append_assoc]
    rfl
  have hbackup : backupOf (recordPath name) = childPath (name ++ ".bak".toList) := by
    rw [recordPath, backupOf_childPath]
  rw [hcounterBackup]
  rcases hpath with rfl | rfl | rfl
  · rw [recordPath_eq]
    exact ⟨hne _ _ (by decide), hne _ _ (by decide), hne _ _ (by decide)⟩
  · rw [hbackup]
    exact ⟨hne _ _ (by decide), hne _ _ (by decide), hne _ _ (by decide)⟩
  · exact ⟨hne _ _ (by decide), hne _ _ (by decide), hne _ _ (by decide)⟩

end Names

section Frames

variable {Event : Type} {world world' world'' : World Event} {name other : Path}

/-- Only files of one credential were changed. -/
structure Within (name : Path) (world world' : World Event) : Prop extends Quiet world world' where
  frame : ∀ path, ¬FileOf name path → world'.files path = world.files path

theorem Within.refl (world : World Event) : Within name world world := ⟨Quiet.refl world, fun _ _ ↦ rfl⟩

theorem Within.trans (h : Within name world world') (h' : Within name world' world'') :
    Within name world world'' :=
  ⟨h.toQuiet.trans h'.toQuiet, fun path hpath ↦ (h'.frame path hpath).trans (h.frame path hpath)⟩

/-- An operation on one credential that lost power, which only a listed outcome can cause. -/
structure WithinCut (name : Path) (world world' : World Event) : Prop
    extends Within name world world' where
  listed : world.writes ≠ []

theorem WithinCut.after (h' : WithinCut name world' world'') (h : Within name world world') :
    WithinCut name world world'' :=
  ⟨h.trans h'.toWithin, fun hnil ↦ h'.listed (h.writes_nil hnil)⟩

theorem Rewrites.within {path temp : Path} {fresh : Bytes → Prop} (hpath : FileOf name path)
    (htemp : FileOf name temp) (h : Rewrites path temp fresh world world') :
    Within name world world' := by
  refine ⟨h.toQuiet, fun file hfile ↦ h.frame file ?_ ?_ ?_⟩
  · rintro rfl
    exact hfile hpath
  · rintro rfl
    exact hfile hpath.backup
  · rintro rfl
    exact hfile htemp

theorem within_of_moves {path temp : Path} {next : Option Bytes} (hpath : FileOf name path)
    (htemp : FileOf name temp) (h : Moves path temp next world world') :
    Within name world world' := by
  refine ⟨h.only.quiet, fun file hfile ↦ h.frame file ?_ ?_ ?_⟩
  · rintro rfl
    exact hfile hpath
  · rintro rfl
    exact hfile hpath.backup
  · rintro rfl
    exact hfile htemp

/-- The files of another credential stay. -/
theorem Within.elsewhere (h : Within name world world') (hname : isRecordName name = true)
    (hother : isRecordName other = true) (hne : name ≠ other) :
    ∀ path, FileOf other path → world'.files path = world.files path :=
  fun path hpath ↦ h.frame path fun hfile ↦ hne (hfile.unique hname hother hpath)

end Frames

section Congruence

variable {crypto : Crypto} {files files' : Path → Option Bytes} {name : Path}

theorem recordFound_congr (h : files' (recordPath name) = files (recordPath name)) :
    recordFound crypto files' name = recordFound crypto files name := by
  rw [recordFound, recordFound, h]

theorem countFound_congr (h : files' (counterFloorPath name) = files (counterFloorPath name))
    (credentialId : Bytes) (createdAt signCount : ℕ) (embedded : Option Bytes) :
    countFound crypto files' name credentialId createdAt signCount embedded =
      countFound crypto files name credentialId createdAt signCount embedded := by
  unfold countFound
  rw [h]

/-- What is found of a credential depends on its two files. -/
theorem loadFound_congr (hrecord : files' (recordPath name) = files (recordPath name))
    (hcounter : files' (counterFloorPath name) = files (counterFloorPath name)) :
    loadFound crypto files' name = loadFound crypto files name := by
  simp only [loadFound, recordFound_congr hrecord, countFound_congr hcounter]

end Congruence

section Operations

variable {Event : Type} {world world' : World Event} {crypto : Crypto} {name : Path}

theorem Loaded.within {Value : Type} {view : CredentialRecord → Value} {result : Option Value}
    (h : Loaded crypto name view world result world') : Within name world world' :=
  h.rewrites.within (fileOf_counterFloorPath name) (fileOf_counterFloorTempPath name)

theorem LoadCut.withinCut (h : LoadCut crypto name world world') : WithinCut name world world' :=
  ⟨h.rewrites.within (fileOf_counterFloorPath name) (fileOf_counterFloorTempPath name), h.listed⟩

/-- A load leaves the record file and its backup alone. -/
theorem Rewrites.record_eq {fresh : Bytes → Prop} (hname : isRecordName name = true)
    (h : Rewrites (counterFloorPath name) (counterFloorTempPath name) fresh world world') :
    world'.files (recordPath name) = world.files (recordPath name) ∧
      world'.files (backupOf (recordPath name)) = world.files (backupOf (recordPath name)) := by
  obtain ⟨hpath, hbackup, htemp⟩ := counterFloorPath_ne hname (Or.inl rfl)
  obtain ⟨hpath', hbackup', htemp'⟩ := counterFloorPath_ne hname (Or.inr (Or.inl rfl))
  exact ⟨h.frame _ hpath hbackup htemp, h.frame _ hpath' hbackup' htemp'⟩

theorem within_of_removed {path : Path} (hpath : FileOf name path) (honly : OnlyFiles world world')
    (hfiles : world'.files = world.files ∨ world'.files = removed path world.files) :
    Within name world world' := by
  refine ⟨honly.quiet, fun file hfile ↦ ?_⟩
  rcases hfiles with hfiles | hfiles
  · rw [hfiles]
  · rw [hfiles, removed, Function.update_of_ne]
    rintro rfl
    exact hfile hpath

theorem withinCut_of_cut {path temp : Path} {next : Option Bytes} (hpath : FileOf name path)
    (htemp : FileOf name temp) (h : Cut path temp next world world') : WithinCut name world world' :=
  ⟨within_of_moves hpath htemp h.moves, h.writes⟩

theorem ensures_removeOptional_within {path : Path} (hpath : FileOf name path) :
    Ensures (removeOptional path) (fun _ world' ↦ Within name world world')
      (fun world' ↦ WithinCut name world world') world :=
  ensures_removeOptional (fun _ honly hfiles ↦ within_of_removed hpath honly (Or.inr hfiles))
    fun _ honly hlisted hfiles ↦
      ⟨within_of_removed hpath honly hfiles, within_of_removed hpath honly hfiles, hlisted⟩

theorem ensures_rename_within {source target : Path} (hsource : FileOf name source)
    (htarget : FileOf name target) :
    Ensures (rename source target) (fun _ world' ↦ Within name world world')
      (fun world' ↦ WithinCut name world world') world := by
  have hframe : ∀ (data : Bytes) (world' : World Event), OnlyFiles world world' →
      world'.files = world.files ∨ world'.files = removed target world.files ∨
        world'.files = stored target data (removed source world.files) →
      Within name world world' := by
    rintro data world' honly hfiles
    refine ⟨honly.quiet, fun file hfile ↦ ?_⟩
    have hne : file ≠ source ∧ file ≠ target := by
      constructor
      · rintro rfl
        exact hfile hsource
      · rintro rfl
        exact hfile htarget
    rcases hfiles with hfiles | hfiles | hfiles
    · rw [hfiles]
    · rw [hfiles, removed, Function.update_of_ne hne.2]
    · rw [hfiles, stored, removed, Function.update_of_ne hne.2, Function.update_of_ne hne.1]
  cases hfile : world.files source with
  | none =>
    simp only [rename, ensures_bind, ensures_get, hfile, ensures_pure]
    exact Within.refl world
  | some data =>
    refine ensures_rename hfile (fun world' honly hfiles ↦ ?_) fun world' honly hlisted hfiles ↦ ?_
    · exact hframe data world' honly (Or.inr (Or.inr hfiles))
    · exact ⟨hframe data world' honly hfiles, hframe data world' honly hfiles, hlisted⟩

/-- Removing a credential. -/
theorem ensures_recoveryRemoveRecordPaths_within (hname : isRecordName name = true) :
    Ensures (recoveryRemoveRecordPaths name) (fun _ world' ↦ Within name world world')
      (fun world' ↦ WithinCut name world world') world := by
  have hcounter := fileOf_counterFloorPath name
  have hcounterTemp := fileOf_counterFloorTempPath name
  rw [recoveryRemoveRecordPaths, ensures_andM]
  refine (ensures_removeAtomicFile (atomicPaths_record hname)).mono ?_ fun final hfinal ↦
    withinCut_of_cut (fileOf_recordPath name) (fileOf_tempPath name) hfinal
  rintro ok middle ⟨hmoves, -, -⟩
  have hmiddle := within_of_moves (fileOf_recordPath name) (fileOf_tempPath name) hmoves
  refine ⟨fun _ ↦ ?_, fun _ ↦ hmiddle⟩
  refine (ensures_removeAtomicFile (atomicPaths_counterFloor hname)).mono ?_ fun final hfinal ↦
    (withinCut_of_cut hcounter hcounterTemp hfinal).after hmiddle
  rintro ok' final ⟨hmoves', -, -⟩
  exact hmiddle.trans (within_of_moves hcounter hcounterTemp hmoves')

/-- Recovering a record from its backup. -/
theorem ensures_recoveryRecoverRecordBackup_within (hlaws : SealLaws crypto)
    (hname : isRecordName name = true) :
    Ensures (recoveryRecoverRecordBackup crypto name (backupOf (recordPath name)))
      (fun _ world' ↦ Within name world world') (fun world' ↦ WithinCut name world world')
      world := by
  have hrecord := fileOf_recordPath name
  have hpromote : ∀ middle : World Event, Within name world middle →
      Ensures (do
          if !(← removeOptional (recordPath name)) then
            return false
          rename (backupOf (recordPath name)) (recordPath name))
        (fun _ world' ↦ Within name world world') (fun world' ↦ WithinCut name world world')
        middle := by
    intro middle hmiddle
    rw [ensures_bind]
    refine (ensures_removeOptional_within hrecord).mono (fun removed last hlast ↦ ?_)
      fun last hlast ↦ hlast.after hmiddle
    rw [ensures_ite]
    refine ⟨fun _ ↦ hmiddle.trans hlast, fun _ ↦ ?_⟩
    exact (ensures_rename_within hrecord.backup hrecord).mono
      (fun _ final hfinal ↦ (hmiddle.trans hlast).trans hfinal)
      fun final hfinal ↦ hfinal.after (hmiddle.trans hlast)
  simp only [recoveryRecoverRecordBackup, ensures_bind, ensures_fileExists, ensures_ite]
  refine ⟨fun _ ↦ ?_, fun _ ↦ ?_⟩
  · refine (ensures_recordFormatLoadIndex hlaws hname).mono (fun result middle hloaded ↦ ?_)
      fun middle hcut ↦ hcut.withinCut
    refine ⟨fun _ ↦ ?_, fun _ ↦ ?_⟩
    · exact (ensures_removeOptional_within hrecord.backup).mono
        (fun _ final hfinal ↦ hloaded.within.trans hfinal)
        fun final hfinal ↦ hfinal.after hloaded.within
    · simpa only [ensures_bind, ensures_ite, recordPath] using hpromote middle hloaded.within
  · simpa only [ensures_bind, ensures_ite, recordPath] using hpromote world (Within.refl world)

theorem ensures_recoveryRecoverCounterBackup_within (hname : isRecordName name = true) :
    Ensures (recoveryRecoverCounterBackup name) (fun _ world' ↦ Within name world world')
      (fun world' ↦ WithinCut name world world') world := by
  have hcounter := fileOf_counterFloorPath name
  have htemp := fileOf_counterFloorTempPath name
  refine (ensures_recoverAtomicFile (atomicPaths_counterFloor hname)).mono ?_ fun final hfinal ↦
    withinCut_of_cut hcounter htemp hfinal
  rintro ok final ⟨hkeeps, -, -⟩
  exact within_of_moves hcounter htemp hkeeps

end Operations

end ZeroFido.Store
