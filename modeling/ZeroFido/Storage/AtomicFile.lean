import ZeroFido.Storage.World

/-!
# Files replaced atomically

The file operations of `zerofido_storage.c`: a file is replaced by writing a temporary file, copying
the old contents to a backup, renaming the temporary file over the primary one and removing the
backup, and an interrupted replacement is recovered from what it left behind.

What a file holds is `logical`: the primary file, or the backup when there is no primary file. Every
operation keeps it or moves it to the value the operation is for, at every point where the power may
be lost and for every failing call: `ensures_recoverAtomicFile`, `ensures_writeFileAtomic` and
`ensures_removeAtomicFile`.
-/

set_option autoImplicit false
set_option relaxedAutoImplicit false

namespace ZeroFido.Storage

open Foundations

section Operations

variable {Event : Type}

def pathBufferSize : ℕ := 192

/-- `zf_storage_build_suffixed_path`; `none` when the result does not fit the caller's buffer. -/
def buildSuffixedPath (path suffix : Path) : Option Path :=
  if path.length = 0 ∨ pathBufferSize ≤ suffix.length ∨
      pathBufferSize - suffix.length - 1 < path.length then
    none
  else
    some (path ++ suffix)

/-- `ZF_STORAGE_BACKUP_SUFFIX` added to a path. -/
def backupOf (path : Path) : Path := path ++ ".bak".toList

/-- `zf_storage_ensure_dir`. -/
def ensureDir (path : Path) : Program (World Event) Bool := do
  if (← get).directories path then
    return true
  match ← nextWrite with
  | .done =>
    modify fun world ↦ { world with directories := Function.update world.directories path true }
    return true
  | .failed _ => return false
  | .interrupted _ => throw .stopped

/-- `zf_storage_ensure_app_data_dir`. -/
def ensureAppDataDir : Program (World Event) Bool :=
  ensureDir appDataRoot <&&> ensureDir appDataDir

/-- `zf_storage_read_file`. -/
def readFile (path : Path) (capacity : ℕ) : Program (World Event) (Option Bytes) := do
  match (← get).files path with
  | none => return none
  | some data =>
    if ← nextRead then
      if 0 < data.length ∧ data.length ≤ capacity then
        return some data
    return none

/-- `zf_storage_recover_atomic_file`. -/
def recoverAtomicFile (path temp : Path) : Program (World Event) Bool := do
  match buildSuffixedPath path ".bak".toList with
  | none => return false
  | some backup =>
    let primaryExists ← fileExists path
    let backupExists ← fileExists backup
    if !primaryExists && backupExists then
      if !(← rename backup path) then
        let _ ← removeOptional temp
        return false
    if primaryExists || backupExists then
      let _ ← removeOptional backup
    let _ ← removeOptional temp
    return true

/-- `zf_storage_remove_atomic_file`. -/
def removeAtomicFile (path temp : Path) : Program (World Event) Bool := do
  match buildSuffixedPath path ".bak".toList with
  | none => return false
  | some backup =>
    removeOptional temp <&&> removeOptional backup <&&> removeOptional path

/-- `zf_storage_prepare_atomic_backup`; on success the result says whether there is a backup. -/
def prepareAtomicBackup (path backup : Path) : Program (World Event) (Option Bool) := do
  if !(← fileExists path) then
    return some false
  if !(← removeOptional backup) then
    return none
  if !(← copyFile path backup) then
    return none
  return some true

/-- `zf_storage_publish_atomic_temp`. -/
def publishAtomicTemp (path temp : Path) : Program (World Event) Bool := do
  match buildSuffixedPath path ".bak".toList with
  | none =>
    let _ ← removeOptional temp
    return false
  | some backup =>
    match ← prepareAtomicBackup path backup with
    | none =>
      let _ ← removeOptional temp
      return false
    | some backupActive =>
      if ← rename temp path then
        if backupActive then
          let _ ← removeOptional backup
        let _ ← removeOptional temp
        return true
      let _ ← recoverAtomicFile path temp
      return false

/-- `zf_storage_write_file_atomic`. -/
def writeFileAtomic (path temp : Path) (data : Bytes) : Program (World Event) Bool := do
  if data.length = 0 then
    return false
  if !(← recoverAtomicFile path temp) then
    return false
  let _ ← removeOptional temp
  let written ← createFile temp data
  let mut ok := false
  if written then
    ok ← publishAtomicTemp path temp
  let _ ← removeOptional temp
  return ok

end Operations

section Calls

variable {Event : Type} {world : World Event}

/-- A read returns the file's contents or nothing. -/
theorem ensures_readFile {path : Path} {capacity : ℕ} {post : Option Bytes → World Event → Prop}
    {crash : World Event → Prop}
    (h : ∀ result world', Idle world world' →
      (∀ data, result = some data → world.files path = some data ∧ 0 < data.length ∧
        data.length ≤ capacity) →
      (∀ data, world.files path = some data → 0 < data.length → data.length ≤ capacity →
        world.reads = [] → result = some data) →
      post result world') :
    Ensures (readFile path capacity) post crash world := by
  simp only [readFile, ensures_bind, ensures_get]
  cases hfile : world.files path with
  | none => exact h none world (Idle.refl world) (by simp) (by simp [hfile])
  | some data =>
    simp only [ensures_bind]
    refine ensures_nextRead fun ok world' hidle hreads ↦ ?_
    by_cases hok : ok = true ∧ 0 < data.length ∧ data.length ≤ capacity
    · obtain ⟨hok, hlength⟩ := hok
      simp only [hok, if_true, hlength, and_self, ensures_pure]
      refine h _ world' hidle ?_ ?_
      · rintro _ ⟨rfl⟩
        exact ⟨hfile, hlength⟩
      · rintro _ hdata - - -
        rw [← hdata, hfile]
    · have hnone : ∀ data', world.files path = some data' → 0 < data'.length →
          data'.length ≤ capacity → world.reads = [] → (none : Option Bytes) = some data' := by
        intro data' hdata' hpos hcap hnil
        obtain rfl : data = data' := Option.some.inj (hfile.symm.trans hdata')
        refine absurd ⟨?_, hpos, hcap⟩ hok
        by_contra hfailed
        exact hreads (by simpa using hfailed) hnil
      cases ok with
      | false => simpa using h none world' hidle (by simp) hnone
      | true =>
        have hlength : ¬(0 < data.length ∧ data.length ≤ capacity) := fun hlength ↦
          hok ⟨rfl, hlength⟩
        simp only [if_true, hlength, if_false, ensures_pure]
        exact h none world' hidle (by simp) hnone

/-- Creating the application's directories leaves every file alone. -/
theorem ensures_ensureDir {path : Path} :
    Ensures (ensureDir path)
      (fun ok world' ↦ Idle world world' ∧ (ok = false → world.writes ≠ []))
      (fun world' ↦ Idle world world' ∧ world.writes ≠ []) world := by
  have hidle (directories : Path → Bool) : Idle world
      { world with writes := world.writes.tail, directories := directories } :=
    ⟨⟨rfl, rfl, List.suffix_refl _, List.tail_suffix _, List.suffix_refl _,
      List.suffix_refl _⟩, rfl⟩
  simp only [ensureDir, nextWrite, ensures_bind, ensures_get, ensures_modifyGet, ensures_ite,
    ensures_pure]
  refine ⟨fun _ ↦ ⟨Idle.refl world, by simp⟩, fun _ ↦ ?_⟩
  cases houtcome : world.writes.headD .done with
  | done => exact ⟨hidle _, by simp⟩
  | failed progress =>
    refine ⟨hidle world.directories, fun _ hnil ↦ ?_⟩
    simp [hnil] at houtcome
  | interrupted progress =>
    refine ⟨hidle world.directories, fun hnil ↦ ?_⟩
    simp [hnil] at houtcome

theorem ensures_ensureAppDataDir :
    Ensures ensureAppDataDir
      (fun ok world' ↦ Idle world world' ∧ (ok = false → world.writes ≠ []))
      (fun world' ↦ Idle world world' ∧ world.writes ≠ []) world := by
  simp only [ensureAppDataDir, ensures_andM]
  refine ensures_ensureDir.mono ?_ fun _ hcrash ↦ hcrash
  rintro ok middle ⟨hidle, hfailed⟩
  refine ⟨fun _ ↦ ?_, fun hok ↦ ⟨hidle, fun _ ↦ hfailed hok⟩⟩
  refine ensures_ensureDir.mono ?_ fun final hfinal ↦
    ⟨hidle.trans hfinal.1, fun hnil ↦ hfinal.2 (hidle.writes_nil hnil)⟩
  rintro ok' final ⟨hidle', hfailed'⟩
  exact ⟨hidle.trans hidle', fun hok' hnil ↦ hfailed' hok' (hidle.writes_nil hnil)⟩

end Calls

section Contents

variable {Event : Type} {world world' world'' : World Event} {path temp : Path}
  {next : Option Bytes}

/-- What a file holds: its primary contents, or the backup when there is no primary file. -/
def logical (files : Path → Option Bytes) (path : Path) : Option Bytes :=
  (files path).or (files (backupOf path))

/-- The names of one atomic file: the backup name fits the path buffer and the temporary name is
neither of the other two. -/
structure AtomicPaths (path temp : Path) : Prop where
  nonempty : path ≠ []
  fits : path.length + 5 ≤ pathBufferSize
  temp_ne : temp ≠ path
  temp_ne_backup : temp ≠ backupOf path

theorem backupOf_ne (path : Path) : backupOf path ≠ path := by
  intro h
  have := congrArg List.length h
  simp [backupOf] at this

theorem AtomicPaths.build (hpaths : AtomicPaths path temp) :
    buildSuffixedPath path ".bak".toList = some (backupOf path) := by
  have hlength : path.length ≠ 0 := by simpa using hpaths.nonempty
  have hfits := hpaths.fits
  have hsuffix : ".bak".toList.length = 4 := rfl
  have hsize : pathBufferSize = 192 := rfl
  unfold buildSuffixedPath
  rw [if_neg (by omega)]
  rfl

/-- A change that concerns one atomic file. No other file is touched, and what the file holds is
what it held before or `next`. -/
structure Moves (path temp : Path) (next : Option Bytes) (world world' : World Event) : Prop where
  only : OnlyFiles world world'
  frame : ∀ other, other ≠ path → other ≠ backupOf path → other ≠ temp →
    world'.files other = world.files other
  holds : logical world'.files path = logical world.files path ∨ logical world'.files path = next

theorem Moves.refl (world : World Event) : Moves path temp next world world :=
  ⟨OnlyFiles.refl world, fun _ _ _ _ ↦ rfl, Or.inl rfl⟩

theorem Moves.trans (h : Moves path temp next world world')
    (h' : Moves path temp next world' world'') : Moves path temp next world world'' := by
  refine ⟨h.only.trans h'.only, fun other hpath hbackup htemp ↦ ?_, ?_⟩
  · rw [h'.frame other hpath hbackup htemp, h.frame other hpath hbackup htemp]
  · obtain hholds | hholds := h'.holds
    · rw [hholds]
      exact h.holds
    · exact Or.inr hholds

/-- A change that keeps what the file holds. -/
abbrev Keeps (path temp : Path) (world world' : World Event) : Prop :=
  Moves path temp (logical world.files path) world world'

theorem Keeps.logical_eq (h : Keeps path temp world world') :
    logical world'.files path = logical world.files path :=
  h.holds.elim id id

theorem Keeps.moves (h : Keeps path temp world world') : Moves path temp next world world' :=
  ⟨h.only, h.frame, Or.inl h.logical_eq⟩

theorem Keeps.trans (h : Keeps path temp world world') (h' : Keeps path temp world' world'') :
    Keeps path temp world world'' :=
  Moves.trans h h'.moves

/-- A change that was cut short by a power loss, which only a listed outcome can cause. -/
structure Cut (path temp : Path) (next : Option Bytes) (world world' : World Event) : Prop where
  moves : Moves path temp next world world'
  writes : world.writes ≠ []

theorem Cut.after (h' : Cut path temp next world' world'') (h : Moves path temp next world world') :
    Cut path temp next world world'' :=
  ⟨h.trans h'.moves, h.only.writes_ne_nil h'.writes⟩

/-- A change that keeps what the file holds, cut short. -/
abbrev KeepsCut (path temp : Path) (world world' : World Event) : Prop :=
  Cut path temp (logical world.files path) world world'

theorem KeepsCut.cut (h : KeepsCut path temp world world') : Cut path temp next world world' :=
  ⟨Keeps.moves h.moves, h.writes⟩

theorem KeepsCut.afterKeeps (h' : KeepsCut path temp world' world'')
    (h : Keeps path temp world world') : KeepsCut path temp world world'' :=
  h'.cut.after h

/-- Removing the backup while the primary file is there keeps what the file holds. -/
theorem keeps_removed_backup (honly : OnlyFiles world world')
    (hprimary : (world.files path).isSome)
    (hfiles : world'.files = world.files ∨ world'.files = removed (backupOf path) world.files) :
    Keeps path temp world world' ∧ world'.files path = world.files path := by
  have hne := backupOf_ne path
  obtain ⟨data, hdata⟩ := Option.isSome_iff_exists.mp hprimary
  obtain hfiles | hfiles := hfiles
  · exact ⟨⟨honly, fun other _ _ _ ↦ by rw [hfiles], Or.inl (by rw [hfiles])⟩, by rw [hfiles]⟩
  · have hkeep : world'.files path = world.files path := by
      rw [hfiles, removed, Function.update_of_ne hne.symm]
    refine ⟨⟨honly, fun other _ hbackup _ ↦ ?_, Or.inl ?_⟩, hkeep⟩
    · rw [hfiles, removed, Function.update_of_ne hbackup]
    · rw [logical, logical, hkeep, hdata, Option.some_or, Option.some_or]

/-- Whatever happens to the temporary file, the primary file and the backup stay. -/
theorem keeps_temp_changed (hpaths : AtomicPaths path temp) (honly : OnlyFiles world world')
    (hfiles : ∀ other, other ≠ temp → world'.files other = world.files other) :
    Keeps path temp world world' ∧ world'.files path = world.files path ∧
      world'.files (backupOf path) = world.files (backupOf path) := by
  have hpath := hfiles path hpaths.temp_ne.symm
  have hbackup := hfiles (backupOf path) hpaths.temp_ne_backup.symm
  refine ⟨⟨honly, fun other _ _ htemp ↦ hfiles other htemp, Or.inl ?_⟩, hpath, hbackup⟩
  rw [logical, logical, hpath, hbackup]

theorem keeps_removed_temp (hpaths : AtomicPaths path temp) (honly : OnlyFiles world world')
    (hfiles : world'.files = world.files ∨ world'.files = removed temp world.files) :
    Keeps path temp world world' ∧ world'.files path = world.files path ∧
      world'.files (backupOf path) = world.files (backupOf path) := by
  refine keeps_temp_changed hpaths honly fun other hother ↦ ?_
  obtain hfiles | hfiles := hfiles
  · rw [hfiles]
  · rw [hfiles, removed, Function.update_of_ne hother]

/-- Removing the temporary file is a step no other part of the file notices. -/
theorem ensures_removeOptional_temp (hpaths : AtomicPaths path temp) :
    Ensures (removeOptional temp)
      (fun ok world' ↦ Keeps path temp world world' ∧ world'.files path = world.files path ∧
        world'.files (backupOf path) = world.files (backupOf path) ∧
        (ok = false → world.writes ≠ []))
      (fun world' ↦ KeepsCut path temp world world') world := by
  refine ensures_removeOptional (fun world' honly hfiles ↦ ?_)
    fun world' honly hwrites hfiles ↦ ?_
  · obtain ⟨hkeeps, hpath, hbackup⟩ := keeps_removed_temp hpaths honly (Or.inr hfiles)
    exact ⟨hkeeps, hpath, hbackup, by simp⟩
  · obtain ⟨hkeeps, hpath, hbackup⟩ := keeps_removed_temp hpaths honly hfiles
    exact ⟨⟨hkeeps, hpath, hbackup, fun _ ↦ hwrites⟩, hkeeps, hwrites⟩

/-- Moving the backup to a missing primary file. -/
theorem keeps_renamed_backup {data : Bytes}
    (honly : OnlyFiles world world') (hprimary : world.files path = none)
    (hbackup : world.files (backupOf path) = some data)
    (hfiles : world'.files = world.files ∨ world'.files = removed path world.files ∨
      world'.files = stored path data (removed (backupOf path) world.files)) :
    Keeps path temp world world' := by
  have hne := backupOf_ne path
  obtain hfiles | hfiles | hfiles := hfiles
  · exact ⟨honly, fun other _ _ _ ↦ by rw [hfiles], Or.inl (by rw [hfiles])⟩
  · refine ⟨honly, fun other hother _ _ ↦ ?_, Or.inl ?_⟩
    · rw [hfiles, removed, Function.update_of_ne hother]
    · simp [logical, hfiles, removed, hprimary, hne]
  · refine ⟨honly, fun other hother hother' _ ↦ ?_, Or.inl ?_⟩
    · rw [hfiles, stored, removed, Function.update_of_ne hother, Function.update_of_ne hother']
    · simp [logical, hfiles, stored, removed, hprimary, hbackup]

/-- The removals that end a recovery, from a state that already has the file's contents in the
primary file. -/
theorem ensures_recovered_temp (hpaths : AtomicPaths path temp)
    (hkeeps : Keeps path temp world world') (hpath : world'.files path = logical world.files path) :
    Ensures (removeOptional temp)
      (fun _ final ↦ Keeps path temp world final ∧ final.files path = logical world.files path)
      (fun final ↦ KeepsCut path temp world final) world' := by
  refine (ensures_removeOptional_temp hpaths).mono ?_ fun final hfinal ↦ hfinal.afterKeeps hkeeps
  rintro ok final ⟨hfinal, hsame, -, -⟩
  exact ⟨hkeeps.trans hfinal, hsame.trans hpath⟩

theorem ensures_recovered_backup (hpaths : AtomicPaths path temp)
    (hkeeps : Keeps path temp world world') (hpath : world'.files path = logical world.files path)
    (hsome : (world'.files path).isSome) :
    Ensures (removeOptional (backupOf path))
      (fun _ middle ↦ Ensures (removeOptional temp)
        (fun _ final ↦ Keeps path temp world final ∧ final.files path = logical world.files path)
        (fun final ↦ KeepsCut path temp world final) middle)
      (fun final ↦ KeepsCut path temp world final) world' := by
  have hstep : ∀ middle, OnlyFiles world' middle → middle.files = world'.files ∨
      middle.files = removed (backupOf path) world'.files →
      Keeps path temp world middle ∧ middle.files path = logical world.files path := by
    intro middle honly hfiles
    obtain ⟨hmiddle, hsame⟩ := keeps_removed_backup honly hsome hfiles
    exact ⟨hkeeps.trans hmiddle, hsame.trans hpath⟩
  refine ensures_removeOptional (fun middle honly hfiles ↦ ?_) fun middle honly hwrites hfiles ↦ ?_
  · obtain ⟨hmiddle, hsame⟩ := hstep middle honly (Or.inr hfiles)
    exact ensures_recovered_temp hpaths hmiddle hsame
  · obtain ⟨hmiddle, hsame⟩ := hstep middle honly hfiles
    exact ⟨ensures_recovered_temp hpaths hmiddle hsame, hmiddle, hkeeps.only.writes_ne_nil hwrites⟩

/-- Recovery keeps what the file holds, and a recovery that succeeds leaves it in the primary
file. It can only fail to bring back a missing primary file. -/
theorem ensures_recoverAtomicFile (hpaths : AtomicPaths path temp) :
    Ensures (recoverAtomicFile path temp)
      (fun ok world' ↦ Keeps path temp world world' ∧
        (ok = true → world'.files path = logical world.files path) ∧
        (ok = false → world.writes ≠ [] ∧ world.files path = none ∧
          (world.files (backupOf path)).isSome))
      (fun world' ↦ KeepsCut path temp world world') world := by
  simp only [recoverAtomicFile, hpaths.build, ensures_bind, ensures_fileExists]
  cases hprimary : world.files path with
  | some data =>
    have hheld : world.files path = logical world.files path := by simp [logical, hprimary]
    simpa using ensures_recovered_backup hpaths (Moves.refl world) hheld (by simp [hprimary])
  | none =>
    cases hbackup : world.files (backupOf path) with
    | none =>
      have hheld : world.files path = logical world.files path := by
        simp [logical, hprimary, hbackup]
      simpa using ensures_recovered_temp hpaths (Moves.refl world) hheld
    | some data =>
      have hheld : logical world.files path = some data := by simp [logical, hprimary, hbackup]
      simp only [Option.isSome_none, Option.isSome_some, Bool.not_false, Bool.and_self, if_true,
        Bool.or_true, ensures_bind]
      refine ensures_rename hbackup (fun middle honly hfiles ↦ ?_)
        fun middle honly hwrites hfiles ↦ ?_
      · have hkeeps : Keeps path temp world middle :=
          keeps_renamed_backup honly hprimary hbackup (Or.inr (Or.inr hfiles))
        have hpath : middle.files path = some data := by simp [hfiles, stored]
        simpa using ensures_recovered_backup hpaths hkeeps (hpath.trans hheld.symm)
          (by simp [hpath])
      · have hkeeps : Keeps path temp world middle :=
          keeps_renamed_backup honly hprimary hbackup hfiles
        refine ⟨?_, hkeeps, hwrites⟩
        simp only [Bool.not_false, if_true, ensures_bind, ensures_pure]
        refine (ensures_removeOptional_temp hpaths).mono ?_ fun final hfinal ↦
          hfinal.afterKeeps hkeeps
        rintro ok final ⟨hfinal, -⟩
        exact ⟨hkeeps.trans hfinal, by simp, fun _ ↦ ⟨hwrites, by simp⟩⟩

/-- After `zf_storage_prepare_atomic_backup` the primary and the temporary file are as before. When
it succeeds the backup holds the primary contents, or there is no primary file and the files are
unchanged. -/
theorem ensures_prepareAtomicBackup :
    Ensures (prepareAtomicBackup path (backupOf path))
      (fun result world' ↦ OnlyFiles world world' ∧
        (∀ other, other ≠ backupOf path → world'.files other = world.files other) ∧
        (result = none → world.writes ≠ [] ∧ (world.files path).isSome) ∧
        (result = some false → world'.files = world.files ∧ world.files path = none) ∧
        (result = some true → (world.files path).isSome ∧
          world'.files (backupOf path) = world.files path))
      (fun world' ↦ OnlyFiles world world' ∧ world.writes ≠ [] ∧ (world.files path).isSome ∧
        ∀ other, other ≠ backupOf path → world'.files other = world.files other) world := by
  have hne := backupOf_ne path
  simp only [prepareAtomicBackup, ensures_bind, ensures_fileExists]
  cases hprimary : world.files path with
  | none => simp [OnlyFiles.refl]
  | some data =>
    have hremoved : ∀ middle : World Event, middle.files = world.files ∨
        middle.files = removed (backupOf path) world.files →
        ∀ other, other ≠ backupOf path → middle.files other = world.files other := by
      rintro middle (hfiles | hfiles) other hother
      · rw [hfiles]
      · rw [hfiles, removed, Function.update_of_ne hother]
    simp only [Option.isSome_some, Bool.not_true, Bool.false_eq_true, if_false, ensures_bind]
    refine ensures_removeOptional (fun middle honly hfiles ↦ ?_) fun middle honly hwrites hfiles ↦ ?_
    · have hsame := hremoved middle (Or.inr hfiles)
      have hsource : middle.files path = some data := (hsame path hne.symm).trans hprimary
      simp only [Bool.not_true, Bool.false_eq_true, if_false, ensures_bind]
      refine ensures_copyFile hsource (fun final honly' hfiles' ↦ ?_)
        fun final honly' hwrites' hfiles' ↦ ?_
      · simp only [Bool.not_true, Bool.false_eq_true, if_false, ensures_pure]
        refine ⟨honly.trans honly', fun other hother ↦ ?_, by simp, by simp, fun _ ↦ ⟨trivial, ?_⟩⟩
        · rw [hfiles', stored, Function.update_of_ne hother, hsame other hother]
        · rw [hfiles', stored, Function.update_self]
      · have hkept : ∀ other, other ≠ backupOf path → final.files other = world.files other := by
          intro other hother
          obtain hfiles' | ⟨written, hfiles'⟩ := hfiles'
          · rw [hfiles', hsame other hother]
          · rw [hfiles', stored, Function.update_of_ne hother, hsame other hother]
        have hwrites := honly.writes_ne_nil hwrites'
        simp only [Bool.not_false, if_true, ensures_pure]
        exact ⟨⟨honly.trans honly', hkept, fun _ ↦ ⟨hwrites, trivial⟩, by simp, by simp⟩,
          honly.trans honly', hwrites, trivial, hkept⟩
    · have hsame := hremoved middle hfiles
      simp only [Bool.not_false, if_true, ensures_pure]
      exact ⟨⟨honly, hsame, fun _ ↦ ⟨hwrites, trivial⟩, by simp, by simp⟩, honly, hwrites, trivial,
        hsame⟩

/-- Changing only the backup while the primary file is there keeps what the file holds. -/
theorem keeps_backup_changed (honly : OnlyFiles world world') (hprimary : (world.files path).isSome)
    (hfiles : ∀ other, other ≠ backupOf path → world'.files other = world.files other) :
    Keeps path temp world world' := by
  obtain ⟨data, hdata⟩ := Option.isSome_iff_exists.mp hprimary
  refine ⟨honly, fun other _ hbackup _ ↦ hfiles other hbackup, Or.inl ?_⟩
  rw [logical, logical, hfiles path (backupOf_ne path).symm, hdata, Option.some_or, Option.some_or]

/-- The rename that publishes the temporary file. Before it the backup holds what the file holds,
so a rename that stops between removing the old primary file and moving the new one loses
nothing. -/
theorem moves_published {data : Bytes}
    (honly : OnlyFiles world world')
    (hbackup : world.files (backupOf path) = logical world.files path)
    (hfiles : world'.files = world.files ∨ world'.files = removed path world.files ∨
      world'.files = stored path data (removed temp world.files)) :
    Moves path temp (some data) world world' := by
  have hne := backupOf_ne path
  obtain hfiles | hfiles | hfiles := hfiles
  · exact ⟨honly, fun other _ _ _ ↦ by rw [hfiles], Or.inl (by rw [hfiles])⟩
  · refine ⟨honly, fun other hother _ _ ↦ ?_, Or.inl ?_⟩
    · rw [hfiles, removed, Function.update_of_ne hother]
    · rw [← hbackup, logical, hfiles, removed, Function.update_self, Option.none_or,
        Function.update_of_ne hne]
  · refine ⟨honly, fun other hother _ htemp ↦ ?_, Or.inr ?_⟩
    · rw [hfiles, stored, removed, Function.update_of_ne hother, Function.update_of_ne htemp]
    · rw [logical, hfiles, stored, Function.update_self, Option.some_or]

/-- Publishing a complete temporary file. -/
theorem ensures_publishAtomicTemp {data : Bytes} (hpaths : AtomicPaths path temp)
    (htemp : world.files temp = some data)
    (hprimary : world.files path = logical world.files path) :
    Ensures (publishAtomicTemp path temp)
      (fun ok world' ↦ Moves path temp (some data) world world' ∧
        (ok = true → world'.files path = some data) ∧ (ok = false → world.writes ≠ []))
      (fun world' ↦ Cut path temp (some data) world world') world := by
  have hne := backupOf_ne path
  simp only [publishAtomicTemp, hpaths.build, ensures_bind]
  refine ensures_prepareAtomicBackup.mono ?_ ?_
  rotate_left
  · rintro final ⟨honly, hwrites, hsome, hsame⟩
    exact ⟨(keeps_backup_changed honly hsome hsame).moves, hwrites⟩
  rintro result middle ⟨honly, hsame, hnone, hfalse, htrue⟩
  cases result with
  | none =>
    obtain ⟨hwrites, hsome⟩ := hnone rfl
    have hkeeps : Keeps path temp world middle := keeps_backup_changed honly hsome hsame
    simp only [ensures_bind, ensures_pure]
    refine (ensures_removeOptional_temp hpaths).mono ?_ fun final hfinal ↦
      (hfinal.afterKeeps hkeeps).cut
    rintro ok final ⟨hfinal, -⟩
    exact ⟨(hkeeps.trans hfinal).moves, by simp, fun _ ↦ hwrites⟩
  | some active =>
    have hkeeps : Keeps path temp world middle := by
      cases active with
      | true => exact keeps_backup_changed honly (htrue rfl).1 hsame
      | false =>
        refine ⟨honly, fun other _ hbackup _ ↦ hsame other hbackup, Or.inl ?_⟩
        rw [(hfalse rfl).1]
    -- With or without an old primary file, the backup now stands for the file's contents.
    have hbackup : middle.files (backupOf path) = logical middle.files path := by
      rw [hkeeps.logical_eq, ← hprimary]
      cases active with
      | true => exact (htrue rfl).2
      | false =>
        obtain ⟨hfiles, hpath⟩ := hfalse rfl
        rw [hpath] at hprimary ⊢
        rw [logical, hpath, Option.none_or] at hprimary
        rw [hfiles, ← hprimary]
    have hsource : middle.files temp = some data := (hsame temp hpaths.temp_ne_backup).trans htemp
    simp only [ensures_bind]
    refine ensures_rename hsource (fun final honly' hfiles ↦ ?_)
      fun final honly' hwrites hfiles ↦ ?_
    · have hmoves : Moves path temp (some data) world final :=
        (hkeeps.moves).trans (moves_published honly' hbackup (Or.inr (Or.inr hfiles)))
      have hpath : final.files path = some data := by rw [hfiles, stored, Function.update_self]
      have hheld : final.files path = logical final.files path := by
        rw [logical, hpath, Option.some_or]
      have hfinish : ∀ last, Keeps path temp final last ∧ last.files path =
          logical final.files path → Moves path temp (some data) world last ∧
            last.files path = some data :=
        fun last hlast ↦ ⟨hmoves.trans hlast.1.moves, hlast.2.trans (hheld.symm.trans hpath)⟩
      cases active with
      | true =>
        simp only [if_true, ensures_bind, ensures_pure]
        refine (ensures_recovered_backup hpaths (Moves.refl final) hheld (by simp [hpath])).mono
          (fun ok middle' hmiddle ↦ ?_) fun last hlast ↦ hlast.cut.after hmoves
        refine hmiddle.mono (fun ok last hlast ↦ ?_) fun last hlast ↦ hlast.cut.after hmoves
        exact ⟨(hfinish last hlast).1, fun _ ↦ (hfinish last hlast).2, by simp⟩
      | false =>
        simp only [if_true, Bool.false_eq_true, if_false, ensures_bind, ensures_pure]
        refine (ensures_recovered_temp hpaths (Moves.refl final) hheld).mono
          (fun ok last hlast ↦ ?_) fun last hlast ↦ hlast.cut.after hmoves
        exact ⟨(hfinish last hlast).1, fun _ ↦ (hfinish last hlast).2, by simp⟩
    · have hmoves : Moves path temp (some data) world final :=
        (hkeeps.moves).trans (moves_published honly' hbackup hfiles)
      refine ⟨?_, hmoves, honly.writes_ne_nil hwrites⟩
      simp only [Bool.false_eq_true, if_false, ensures_bind, ensures_pure]
      refine (ensures_recoverAtomicFile hpaths).mono ?_ fun last hlast ↦ hlast.cut.after hmoves
      rintro ok last ⟨hlast, -⟩
      exact ⟨hmoves.trans hlast.moves, by simp, fun _ ↦ honly.writes_ne_nil hwrites⟩

/-- Replacing a file. At every exit it holds its old contents or the new ones; a replacement that
reports success has the new contents in the primary file; and only a listed outcome of a primitive
makes it fail. -/
theorem ensures_writeFileAtomic {data : Bytes} (hpaths : AtomicPaths path temp) (hdata : data ≠ []) :
    Ensures (writeFileAtomic path temp data)
      (fun ok world' ↦ Moves path temp (some data) world world' ∧
        (ok = true → world'.files path = some data) ∧ (ok = false → world.writes ≠ []))
      (fun world' ↦ Cut path temp (some data) world world') world := by
  have hlength : data.length ≠ 0 := by simpa using hdata
  simp only [writeFileAtomic, hlength, if_false, ensures_bind]
  refine (ensures_recoverAtomicFile hpaths).mono ?_ fun final hfinal ↦ hfinal.cut
  rintro recovered first ⟨hkeeps, hpath, hfailed⟩
  cases recovered with
  | false => exact ⟨hkeeps.moves, by simp, fun _ ↦ (hfailed rfl).1⟩
  | true =>
    replace hpath := hpath rfl
    simp only [Bool.not_true, Bool.false_eq_true, if_false, ensures_bind]
    refine (ensures_removeOptional_temp hpaths).mono ?_ fun final hfinal ↦
      (hfinal.afterKeeps hkeeps).cut
    rintro ok second ⟨hsecond, hsamepath, hsamebackup, -⟩
    replace hkeeps := hkeeps.trans hsecond
    replace hpath : second.files path = logical second.files path := by
      rw [hkeeps.logical_eq, hsamepath, hpath]
    -- The last removal of the temporary file, whatever the write came to.
    have hlast : ∀ (ok : Bool) (third : World Event), Moves path temp (some data) world third →
        (ok = true → third.files path = some data) → (ok = false → world.writes ≠ []) →
        Ensures (removeOptional temp)
          (fun _ final ↦ Moves path temp (some data) world final ∧
            (ok = true → final.files path = some data) ∧ (ok = false → world.writes ≠ []))
          (fun final ↦ Cut path temp (some data) world final) third := by
      intro ok third hmoves hdone hwrites
      refine (ensures_removeOptional_temp hpaths).mono ?_ fun final hfinal ↦
        hfinal.cut.after hmoves
      rintro _ final ⟨hfinal, hsame, -⟩
      exact ⟨hmoves.trans hfinal.moves, fun hok ↦ hsame.trans (hdone hok), hwrites⟩
    refine ensures_createFile (fun third honly hfiles ↦ ?_) fun third honly hwrites hfiles ↦ ?_
    · obtain ⟨hthird, hthirdpath, hthirdbackup⟩ := keeps_temp_changed hpaths honly
        fun other hother ↦ by rw [hfiles, stored, Function.update_of_ne hother]
      have hcomplete : third.files temp = some data := by
        rw [hfiles, stored, Function.update_self]
      have hheld : third.files path = logical third.files path := by
        rw [hthird.logical_eq, hthirdpath, hpath]
      simp only [if_true, ensures_bind, ensures_pure]
      refine (ensures_publishAtomicTemp hpaths hcomplete hheld).mono ?_ fun final hfinal ↦
        hfinal.after (hkeeps.trans hthird).moves
      rintro ok fourth ⟨hfourth, hdone, hwrites⟩
      exact hlast ok fourth ((hkeeps.trans hthird).moves.trans hfourth) hdone
        fun hok ↦ (hkeeps.trans hthird).only.writes_ne_nil (hwrites hok)
    · have hother : ∀ other, other ≠ temp → third.files other = second.files other := by
        intro other hother
        obtain hfiles | ⟨written, hfiles⟩ := hfiles
        · rw [hfiles]
        · rw [hfiles, stored, Function.update_of_ne hother]
      have hthird := (hkeeps.trans (keeps_temp_changed hpaths honly hother).1)
      refine ⟨?_, hthird.moves, hkeeps.only.writes_ne_nil hwrites⟩
      simp only [Bool.false_eq_true, if_false, ensures_bind, ensures_pure]
      simpa using hlast false third hthird.moves (by simp)
        fun _ ↦ hkeeps.only.writes_ne_nil hwrites

/-- Removing a file and its traces. At every exit it holds its old contents or nothing, and a
removal that reports success leaves none of the three files. -/
theorem ensures_removeAtomicFile (hpaths : AtomicPaths path temp) :
    Ensures (removeAtomicFile path temp)
      (fun ok world' ↦ Moves path temp none world world' ∧
        (ok = true → world'.files path = none ∧ world'.files (backupOf path) = none) ∧
        (ok = false → world.writes ≠ []))
      (fun world' ↦ Cut path temp none world world') world := by
  have hne := backupOf_ne path
  simp only [removeAtomicFile, hpaths.build, ensures_andM]
  refine (ensures_removeOptional_temp hpaths).mono ?_ fun final hfinal ↦ hfinal.cut
  rintro ok first ⟨hkeeps, hpath, hbackup, hwrites⟩
  refine ⟨fun _ ↦ ?_, fun hok ↦ ⟨hkeeps.moves, by simp, fun _ ↦ hwrites hok⟩⟩
  -- Removing the backup loses the contents only when there is no primary file.
  have hstep : ∀ second : World Event, OnlyFiles first second → second.files = first.files ∨
      second.files = removed (backupOf path) first.files →
      Moves path temp none first second := by
    intro second honly hfiles
    cases hprimary : first.files path with
    | some data => exact (keeps_removed_backup honly (by simp [hprimary]) hfiles).1.moves
    | none =>
      obtain hfiles | hfiles := hfiles
      · exact ⟨honly, fun other _ _ _ ↦ by rw [hfiles], Or.inl (by rw [hfiles])⟩
      · refine ⟨honly, fun other _ hother _ ↦ ?_, Or.inr ?_⟩
        · rw [hfiles, removed, Function.update_of_ne hother]
        · rw [logical, hfiles, removed, Function.update_self, Function.update_of_ne hne.symm,
            hprimary, Option.or_none]
  refine ensures_removeOptional (fun second honly hfiles ↦ ?_) fun second honly hfails hfiles ↦ ?_
  · have hsecond := hkeeps.moves.trans (hstep second honly (Or.inr hfiles))
    have hgone : second.files (backupOf path) = none := by
      rw [hfiles, removed, Function.update_self]
    have hlast : ∀ third : World Event, OnlyFiles second third → third.files = second.files ∨
        third.files = removed path second.files → Moves path temp none second third := by
      intro third honly' hfiles'
      obtain hfiles' | hfiles' := hfiles'
      · exact ⟨honly', fun other _ _ _ ↦ by rw [hfiles'], Or.inl (by rw [hfiles'])⟩
      · refine ⟨honly', fun other hother _ _ ↦ ?_, Or.inr ?_⟩
        · rw [hfiles', removed, Function.update_of_ne hother]
        · rw [logical, hfiles', removed, Function.update_self, Function.update_of_ne hne, hgone]
          rfl
    refine ⟨fun _ ↦ ?_, by simp⟩
    refine ensures_removeOptional (fun third honly' hfiles' ↦ ?_)
      fun third honly' hfails' hfiles' ↦ ?_
    · refine ⟨hsecond.trans (hlast third honly' (Or.inr hfiles')), fun _ ↦ ⟨?_, ?_⟩, by simp⟩
      · rw [hfiles', removed, Function.update_self]
      · rw [hfiles', removed, Function.update_of_ne hne, hgone]
    · have hmoves := hsecond.trans (hlast third honly' hfiles')
      have hfirst := hsecond.only.writes_ne_nil hfails'
      exact ⟨⟨hmoves, by simp, fun _ ↦ hfirst⟩, hmoves, hfirst⟩
  · have hmoves := hkeeps.moves.trans (hstep second honly hfiles)
    have hfirst := hkeeps.only.writes_ne_nil hfails
    exact ⟨⟨by simp, fun _ ↦ ⟨hmoves, by simp, fun _ ↦ hfirst⟩⟩, hmoves, hfirst⟩

end Contents

section CutWrites

variable {Event : Type} {world : World Event} {path temp : Path}
  {post : Bool → World Event → Prop} {crash : World Event → Prop} {rest : List WriteOutcome}

/-- A removal that succeeds. -/
theorem ensures_removeOptional_done (hwrites : world.writes = .done :: rest) :
    Ensures (removeOptional path) post crash world ↔
      post true { world with files := removed path world.files, writes := rest } := by
  simp only [removeOptional, attempt, nextWrite, ensures_bind, ensures_modifyGet, hwrites,
    List.headD_cons, List.tail_cons, ensures_modify, ensures_pure]
  rfl

/-- The creation of a file that fails after some of its steps. -/
theorem ensures_createFile_failed {data : Bytes} {progress : ℕ}
    (hwrites : world.writes = .failed progress :: rest) :
    Ensures (createFile path data) post crash world ↔
      post false { world with
        files := writeEffect path data (min progress (data.length + 1)) world.files
        writes := rest } := by
  simp only [createFile, attempt, nextWrite, ensures_bind, ensures_modifyGet, hwrites,
    List.headD_cons, List.tail_cons, ensures_modify, ensures_pure]

/-- A replacement of which the temporary file is cut short fails and keeps the old contents. -/
theorem ensures_writeFileAtomic_cutTemp (hpaths : AtomicPaths path temp) (data : Bytes)
    {progress : ℕ} (hprimary : (world.files path).isSome)
    (hwrites : world.writes = .done :: .done :: .done :: .failed progress :: rest) :
    Ensures (writeFileAtomic path temp data)
      (fun ok final ↦ ok = false ∧ logical final.files path = logical world.files path)
      (fun _ ↦ True) world := by
  have htemp : ∀ files : Path → Option Bytes, removed temp files path = files path := fun files ↦
    Function.update_of_ne hpaths.temp_ne.symm _ _
  have hbackup : ∀ files : Path → Option Bytes, removed (backupOf path) files path = files path :=
    fun files ↦ Function.update_of_ne (backupOf_ne path).symm _ _
  have hcut : ∀ (written : ℕ) (files : Path → Option Bytes),
      writeEffect temp data written files path = files path := by
    intro written files
    cases written with
    | zero => rfl
    | succ written => exact Function.update_of_ne hpaths.temp_ne.symm _ _
  have hsame : ∀ files : Path → Option Bytes, files path = world.files path →
      logical files path = logical world.files path := by
    intro files hpath
    obtain ⟨old, hold⟩ := Option.isSome_iff_exists.mp hprimary
    rw [logical, logical, hpath, hold, Option.some_or, Option.some_or]
  have hlast : ∀ middle : World Event, middle.files path = world.files path →
      Ensures (removeOptional temp)
        (fun _ final ↦ logical final.files path = logical world.files path) (fun _ ↦ True)
        middle := by
    intro middle hmiddle
    apply ensures_removeOptional
    · intro final _ hfinal
      exact hsame _ (by rw [hfinal, htemp, hmiddle])
    · intro final _ _ hfinal
      refine ⟨hsame _ ?_, trivial⟩
      rcases hfinal with hfinal | hfinal
      · rw [hfinal, hmiddle]
      · rw [hfinal, htemp, hmiddle]
  simp only [writeFileAtomic, recoverAtomicFile, hpaths.build, ensures_ite, ensures_bind,
    ensures_pure, ensures_fileExists, hprimary, Bool.not_true, Bool.false_and, Bool.true_or,
    Bool.false_eq_true, IsEmpty.forall_iff, true_and, and_true, not_true_eq_false,
    not_false_eq_true, forall_const]
  refine ⟨fun _ ↦ trivial, fun _ ↦ ?_⟩
  rw [ensures_removeOptional_done hwrites, ensures_removeOptional_done rfl,
    ensures_removeOptional_done rfl, ensures_createFile_failed rfl]
  constructor
  · intro h
    exact (Bool.false_ne_true h).elim
  · intro _
    apply hlast
    exact (hcut _ _).trans ((htemp _).trans ((htemp _).trans (hbackup _)))

end CutWrites

end ZeroFido.Storage
