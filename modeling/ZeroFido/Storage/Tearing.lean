import ZeroFido.Storage.AtomicFile

/-!
# Replacements that leave no primary file

While a file is replaced, what it holds is in the primary file or in the backup (`logical`), but a
reader looks at the primary file only. By the outcomes of its calls, a replacement leaves no primary
file exactly when the rename removes it without moving the new one and the rename of the backup
moves nothing back either (`tearsPrimary`).
-/

set_option autoImplicit false
set_option relaxedAutoImplicit false

namespace ZeroFido.Storage

open Foundations

/-- The outcome of the call after `count` others that change a file. -/
def outcomeAt (outcomes : List WriteOutcome) (count : ℕ) : WriteOutcome :=
  outcomes.getD count .done

/-- Whether publishing the temporary file of a file that is there leaves no primary file: the old
backup is removed and the primary file copied to it, the rename removes the primary file only, and
the rename that is to bring the backup back moves nothing. -/
def tearsRename (outcomes : List WriteOutcome) : Bool :=
  outcomeAt outcomes 0 == .done && outcomeAt outcomes 1 == .done &&
    outcomeAt outcomes 2 == .failed 1 &&
    (outcomeAt outcomes 3 == .failed 0 || outcomeAt outcomes 3 == .failed 1)

/-- Whether replacing a file that is there leaves no primary file. Three removals come before the
temporary file is written. -/
def tearsPrimary (outcomes : List WriteOutcome) : Bool :=
  outcomeAt outcomes 3 == .done && tearsRename (outcomes.drop 4)

section Outcomes

variable {Event : Type} {world : World Event} {path temp : Path}

theorem outcomeAt_zero (outcomes : List WriteOutcome) :
    outcomeAt outcomes 0 = outcomes.headD .done := by
  cases outcomes <;> rfl

theorem outcomeAt_drop (outcomes : List WriteOutcome) (before count : ℕ) :
    outcomeAt (outcomes.drop before) count = outcomeAt outcomes (before + count) := by
  simp only [outcomeAt, List.getD_eq_getElem?_getD, List.getElem?_drop]

/-- A primitive, by its outcome. -/
theorem ensures_attempt_outcome {steps : ℕ}
    {effect : ℕ → (Path → Option Bytes) → Path → Option Bytes} {post : Bool → World Event → Prop}
    {crash : World Event → Prop}
    (hdone : outcomeAt world.writes 0 = .done →
      post true { world with files := effect steps world.files, writes := world.writes.drop 1 })
    (hfailed : ∀ progress, outcomeAt world.writes 0 = .failed progress →
      post false
        { world with
          files := effect (min progress steps) world.files, writes := world.writes.drop 1 })
    (hcrash : ∀ final, crash final) :
    Ensures (attempt steps effect) post crash world := by
  rw [outcomeAt_zero, List.drop_one] at hdone hfailed
  simp only [attempt, nextWrite, ensures_bind, ensures_modifyGet]
  cases houtcome : world.writes.headD .done with
  | done => exact hdone houtcome
  | failed progress => exact hfailed progress houtcome
  | interrupted progress => exact hcrash _

/-- Removing another file. -/
theorem ensures_removeOptional_outcome :
    Ensures (removeOptional temp)
      (fun ok world' ↦ world'.writes = world.writes.drop 1 ∧
        (ok = true ↔ outcomeAt world.writes 0 = .done) ∧
        ∀ other, other ≠ temp → world'.files other = world.files other)
      (fun _ ↦ True) world := by
  have hkept : ∀ (progress : ℕ) (other : Path), other ≠ temp →
      (if progress = 0 then world.files else removed temp world.files) other =
        world.files other := by
    intro progress other hother
    split_ifs
    · rfl
    · rw [removed, Function.update_of_ne hother]
  refine ensures_attempt_outcome (fun hdone ↦ ?_) (fun progress hfailed ↦ ?_) fun _ ↦ trivial
  · exact ⟨rfl, by simp [hdone], hkept 1⟩
  · exact ⟨rfl, by simp [hfailed], hkept _⟩

end Outcomes

section Replacement

variable {Event : Type} {world : World Event} {path temp : Path} {old data : Bytes}

/-- Removing the temporary file leaves the primary file as it is. -/
theorem ensures_removeOptional_primary (hpaths : AtomicPaths path temp) {held : Option Bytes}
    (hfile : world.files path = held) :
    Ensures (removeOptional temp) (fun _ world' ↦ world'.files path = held) (fun _ ↦ True)
      world := by
  refine ensures_removeOptional_outcome.mono (fun _ final hfinal ↦ ?_) fun _ _ ↦ trivial
  rw [hfinal.2.2 path hpaths.temp_ne.symm, hfile]

/-- Recovering a file that is there. -/
theorem ensures_recoverAtomicFile_present (hpaths : AtomicPaths path temp)
    (hprimary : (world.files path).isSome) :
    Ensures (recoverAtomicFile path temp)
      (fun ok world' ↦ ok = true ∧ world'.writes = world.writes.drop 2 ∧
        world'.files path = world.files path) (fun _ ↦ True) world := by
  have hne := backupOf_ne path
  simp only [recoverAtomicFile, hpaths.build, ensures_bind, ensures_fileExists, hprimary,
    Bool.not_true, Bool.false_and, Bool.false_eq_true, if_false, Bool.true_or, if_true]
  refine ensures_removeOptional_outcome.mono (fun ok first hfirst ↦ ?_) fun _ _ ↦ trivial
  refine ensures_removeOptional_outcome.mono (fun ok' second hsecond ↦ ?_) fun _ _ ↦ trivial
  obtain ⟨hwrites, -, hfiles⟩ := hfirst
  obtain ⟨hwrites', -, hfiles'⟩ := hsecond
  refine ⟨rfl, ?_, ?_⟩
  · rw [hwrites', hwrites, List.drop_drop]
  · rw [hfiles' path hpaths.temp_ne.symm, hfiles path hne.symm]

/-- Bringing the backup back. -/
theorem ensures_recoverAtomicFile_missing (hpaths : AtomicPaths path temp)
    (hprimary : world.files path = none) (hbackup : world.files (backupOf path) = some old) :
    Ensures (recoverAtomicFile path temp)
      (fun _ world' ↦ world'.files path =
        if outcomeAt world.writes 0 = .failed 0 ∨ outcomeAt world.writes 0 = .failed 1 then none
        else some old) (fun _ ↦ True) world := by
  have hne := backupOf_ne path
  simp only [recoverAtomicFile, hpaths.build, ensures_bind, ensures_fileExists, hprimary, hbackup,
    Option.isSome_none, Option.isSome_some, Bool.not_false, Bool.true_and, if_true, rename,
    ensures_get]
  refine ensures_attempt_outcome (fun hdone ↦ ?_) (fun progress hfailed ↦ ?_) fun _ ↦ trivial
  · simp only [Bool.not_true, Bool.false_eq_true, if_false, Bool.false_or, if_true, ensures_bind,
      hdone, reduceCtorEq, or_self]
    refine ensures_removeOptional_outcome.mono (fun _ middle hmiddle ↦ ?_) fun _ _ ↦ trivial
    refine ensures_removeOptional_primary hpaths ?_
    rw [hmiddle.2.2 path hne.symm]
    exact Function.update_self _ _ _
  · simp only [Bool.not_false, if_true, ensures_bind, ensures_pure, hfailed]
    refine ensures_removeOptional_primary hpaths ?_
    obtain rfl | rfl | hmore : progress = 0 ∨ progress = 1 ∨ 2 ≤ progress := by omega
    · exact hprimary
    · exact Function.update_self _ _ _
    · rw [min_eq_right hmore, if_neg (by simp; omega)]
      exact Function.update_self _ _ _

/-- What a primary file is after a step that may tear it. -/
def Torn (torn : Bool) (path : Path) (old data : Bytes) (world : World Event) : Prop :=
  (torn = true → world.files path = none) ∧
    (torn = false → world.files path = some old ∨ world.files path = some data)

theorem torn_false (hfiles : world.files path = some old ∨ world.files path = some data) :
    Torn false path old data world := ⟨by simp, fun _ ↦ hfiles⟩

/-- The end of a step, which removes the temporary file. -/
theorem Torn.removeTemp {torn : Bool} (hpaths : AtomicPaths path temp)
    (h : Torn torn path old data world) (result : Bool) :
    Ensures (do
        let _ ← removeOptional temp
        return result)
      (fun _ world' ↦ Torn torn path old data world') (fun _ ↦ True) world := by
  rw [ensures_bind]
  refine (ensures_removeOptional_primary hpaths rfl).mono (fun _ final hfinal ↦ ?_)
    fun _ _ ↦ trivial
  rw [ensures_pure, Torn, hfinal]
  exact h

theorem writeEffect_of_ne {other : Path} (hother : other ≠ path) (progress : ℕ)
    (files : Path → Option Bytes) : writeEffect path data progress files other = files other := by
  cases progress with
  | zero => rfl
  | succ written => exact Function.update_of_ne hother _ _

theorem writeEffect_complete (files : Path → Option Bytes) :
    writeEffect path data (data.length + 1) files path = some data := by
  rw [writeEffect, List.take_length, stored, Function.update_self]

/-- The rename of the temporary file, with a backup, and what comes after it. -/
theorem ensures_rename_torn (hpaths : AtomicPaths path temp)
    (hprimary : world.files path = some old) (hbackup : world.files (backupOf path) = some old)
    (htemp : world.files temp = some data) :
    Ensures (do
        if ← rename temp path then
          let _ ← removeOptional (backupOf path)
          let _ ← removeOptional temp
          return true
        let _ ← recoverAtomicFile path temp
        return false)
      (fun _ world' ↦ Torn (outcomeAt world.writes 0 == .failed 1 &&
        (outcomeAt world.writes 1 == .failed 0 || outcomeAt world.writes 1 == .failed 1))
        path old data world') (fun _ ↦ True) world := by
  have hne := backupOf_ne path
  simp only [rename, ensures_bind, ensures_get, htemp]
  refine ensures_attempt_outcome (fun hdone ↦ ?_) (fun progress hfailed ↦ ?_) fun _ ↦ trivial
  · simp only [if_true, ensures_bind, hdone, ensures_pure]
    refine ensures_removeOptional_outcome.mono (fun _ first hfirst ↦ ?_) fun _ _ ↦ trivial
    refine ensures_removeOptional_outcome.mono (fun _ second hsecond ↦ ?_) fun _ _ ↦ trivial
    refine torn_false (Or.inr ?_)
    rw [hsecond.2.2 path hpaths.temp_ne.symm, hfirst.2.2 path hne.symm]
    exact Function.update_self _ _ _
  · simp only [Bool.false_eq_true, if_false, ensures_bind, ensures_pure, hfailed]
    -- With a primary file the recovery leaves it.
    have hpresent : ∀ middle : World Event, middle.files path = some old ∨
        middle.files path = some data → progress ≠ 1 →
        Ensures (recoverAtomicFile path temp) (fun _ world' ↦
          Torn (WriteOutcome.failed progress == .failed 1 &&
            (outcomeAt world.writes 1 == .failed 0 || outcomeAt world.writes 1 == .failed 1))
            path old data world') (fun _ ↦ True) middle := by
      intro middle hmiddle hprogress
      have hsome : (middle.files path).isSome = true := by
        rcases hmiddle with hmiddle | hmiddle <;> rw [hmiddle] <;> rfl
      refine (ensures_recoverAtomicFile_present hpaths hsome).mono (fun _ final hfinal ↦ ?_)
        fun _ _ ↦ trivial
      have hnot : (WriteOutcome.failed progress == .failed 1) = false := by simpa using hprogress
      rw [hnot, Bool.false_and]
      refine torn_false ?_
      rw [hfinal.2.2]
      exact hmiddle
    obtain rfl | rfl | hmore : progress = 0 ∨ progress = 1 ∨ 2 ≤ progress := by omega
    · exact hpresent _ (Or.inl hprimary) (by simp)
    · have hgone : (renameEffect temp path data (min 1 2) world.files) path = none :=
        Function.update_self _ _ _
      have hkept : (renameEffect temp path data (min 1 2) world.files) (backupOf path) = some old :=
        (Function.update_of_ne hne _ _).trans hbackup
      refine (ensures_recoverAtomicFile_missing hpaths hgone hkept).mono (fun _ final hfinal ↦ ?_)
        fun _ _ ↦ trivial
      dsimp only at hfinal
      rw [outcomeAt_drop] at hfinal
      constructor
      · intro htorn
        rw [hfinal, if_pos (by simpa using htorn)]
      · intro htorn
        rw [hfinal, if_neg (by simpa using htorn)]
        exact Or.inl rfl
    · refine hpresent _ (Or.inr ?_) (by omega)
      rw [min_eq_right hmore]
      exact Function.update_self _ _ _

/-- Publishing a complete temporary file, by the outcomes of the calls. -/
theorem ensures_publishAtomicTemp_torn (hpaths : AtomicPaths path temp)
    (hprimary : world.files path = some old) (htemp : world.files temp = some data) :
    Ensures (publishAtomicTemp path temp)
      (fun _ world' ↦ Torn (tearsRename world.writes) path old data world') (fun _ ↦ True)
      world := by
  have hne := backupOf_ne path
  -- A call that fails before the rename leaves the primary file.
  have hearly : ∀ middle : World Event, middle.files path = some old →
      tearsRename world.writes = false → Torn (tearsRename world.writes) path old data middle := by
    intro middle hmiddle hnot
    rw [hnot]
    exact torn_false (Or.inl hmiddle)
  simp only [publishAtomicTemp, prepareAtomicBackup, hpaths.build, ensures_bind, ensures_fileExists,
    hprimary, Option.isSome_some, Bool.not_true, Bool.false_eq_true, if_false]
  refine ensures_removeOptional_outcome.mono (fun ok first hfirst ↦ ?_) fun _ _ ↦ trivial
  obtain ⟨hwrites, hok, hfiles⟩ := hfirst
  have hpath : first.files path = some old := (hfiles path hne.symm).trans hprimary
  cases ok with
  | false =>
    have hnot : tearsRename world.writes = false := by
      have hoff : outcomeAt world.writes 0 ≠ .done := fun hdone ↦
        absurd (hok.mpr hdone) (by simp)
      simp [tearsRename, hoff]
    simpa using (hearly first hpath hnot).removeTemp hpaths false
  | true =>
    have hremoved := hok.mp rfl
    simp only [Bool.not_true, Bool.false_eq_true, if_false, copyFile, createFile, ensures_bind,
      ensures_get, hpath]
    refine ensures_attempt_outcome (fun hcopied ↦ ?_) (fun progress hfailed ↦ ?_) fun _ ↦ trivial
    · have hkept : writeEffect (backupOf path) old (old.length + 1) first.files path =
          some old := by
        rw [writeEffect_of_ne hne.symm, hpath]
      have hcomplete : writeEffect (backupOf path) old (old.length + 1) first.files temp =
          some data := by
        rw [writeEffect_of_ne hpaths.temp_ne_backup, hfiles temp hpaths.temp_ne_backup, htemp]
      rw [hwrites, outcomeAt_drop] at hcopied
      refine (ensures_rename_torn hpaths hkept (writeEffect_complete _) hcomplete).mono
        (fun _ final hfinal ↦ ?_) fun _ _ ↦ trivial
      dsimp only at hfinal
      rw [hwrites, List.drop_drop, outcomeAt_drop, outcomeAt_drop] at hfinal
      simpa [tearsRename, hremoved, hcopied] using hfinal
    · have hnot : tearsRename world.writes = false := by
        rw [hwrites, outcomeAt_drop] at hfailed
        simp [tearsRename, hfailed]
      have hkept : writeEffect (backupOf path) old (min progress (old.length + 1)) first.files
          path = some old := by
        rw [writeEffect_of_ne hne.symm, hpath]
      simpa using Torn.removeTemp hpaths (hearly _ hkept hnot) false

/-- Replacing a file that is there leaves no primary file just when the outcomes tear it, and else
the primary file is the old or the new one. -/
theorem ensures_writeFileAtomic_torn (hpaths : AtomicPaths path temp) (hdata : data ≠ [])
    (hprimary : world.files path = some old) :
    Ensures (writeFileAtomic path temp data)
      (fun _ world' ↦ Torn (tearsPrimary world.writes) path old data world') (fun _ ↦ True)
      world := by
  have hlength : data.length ≠ 0 := by simpa using hdata
  simp only [writeFileAtomic, hlength, if_false, ensures_bind]
  refine (ensures_recoverAtomicFile_present hpaths (by rw [hprimary]; rfl)).mono ?_
    fun _ _ ↦ trivial
  rintro _ first ⟨rfl, hwrites, hfirst⟩
  simp only [Bool.not_true, Bool.false_eq_true, if_false, ensures_bind]
  refine ensures_removeOptional_outcome.mono ?_ fun _ _ ↦ trivial
  rintro ok second ⟨hwrites', -, hfiles⟩
  have hpath : second.files path = some old := by
    rw [hfiles path hpaths.temp_ne.symm, hfirst, hprimary]
  rw [hwrites, List.drop_drop] at hwrites'
  refine ensures_attempt_outcome (fun hdone ↦ ?_) (fun progress hfailed ↦ ?_) fun _ ↦ trivial
  · rw [hwrites', outcomeAt_drop] at hdone
    have hkept : writeEffect temp data (data.length + 1) second.files path = some old := by
      rw [writeEffect_of_ne hpaths.temp_ne.symm, hpath]
    simp only [if_true, ensures_bind]
    refine (ensures_publishAtomicTemp_torn hpaths hkept (writeEffect_complete _)).mono
      (fun ok third hthird ↦ ?_) fun _ _ ↦ trivial
    dsimp only at hthird
    rw [hwrites', List.drop_drop] at hthird
    have htorn : tearsPrimary world.writes = tearsRename (world.writes.drop 4) := by
      simp [tearsPrimary, hdone]
    rw [← htorn] at hthird
    simpa using hthird.removeTemp hpaths ok
  · rw [hwrites', outcomeAt_drop] at hfailed
    have hnot : tearsPrimary world.writes = false := by simp [tearsPrimary, hfailed]
    have hkept : writeEffect temp data (min progress (data.length + 1)) second.files path =
        some old := by
      rw [writeEffect_of_ne hpaths.temp_ne.symm, hpath]
    rw [hnot]
    simpa using Torn.removeTemp hpaths (torn_false (Or.inl hkept)) false

end Replacement

end ZeroFido.Storage
