import ZeroFido.Foundations.Invariant
import ZeroFido.Storage.AtomicFile

/-!
# What may lie in a set of files

The operations on an atomically replaced file only move, copy, cut short and remove what lies in its
three files, and add what they are given. So contents that are closed under cutting short stay the
only ones in a set of files, whichever calls fail and wherever the power is lost.
-/

set_option autoImplicit false
set_option relaxedAutoImplicit false

namespace ZeroFido.Storage

open Foundations

variable {Event : Type} {paths : Path → Prop} {allowed : Bytes → Prop}

/-- The files of a set hold allowed contents only. -/
def Holds (paths : Path → Prop) (allowed : Bytes → Prop) (world : World Event) : Prop :=
  ∀ path, paths path → ∀ data, world.files path = some data → allowed data

section Primitives

theorem Holds.of_files_eq {world world' : World Event} (h : Holds paths allowed world)
    (hfiles : world'.files = world.files) : Holds paths allowed world' := by
  intro path hpath data hdata
  rw [hfiles] at hdata
  exact h path hpath data hdata

theorem Holds.removed {world world' : World Event} {target : Path} (h : Holds paths allowed world)
    (hfiles : world'.files = removed target world.files) : Holds paths allowed world' := by
  intro path hpath data hdata
  rw [hfiles, Storage.removed] at hdata
  by_cases htarget : path = target
  · rw [htarget, Function.update_self] at hdata
    exact absurd hdata (by simp)
  · rw [Function.update_of_ne htarget] at hdata
    exact h path hpath data hdata

theorem Holds.stored {world world' : World Event} {target : Path} {contents : Bytes}
    (h : Holds paths allowed world) (hcontents : allowed contents)
    (hfiles : world'.files = stored target contents world.files) : Holds paths allowed world' := by
  intro path hpath data hdata
  rw [hfiles, Storage.stored] at hdata
  by_cases htarget : path = target
  · rw [htarget, Function.update_self] at hdata
    rwa [← Option.some.inj hdata]
  · rw [Function.update_of_ne htarget] at hdata
    exact h path hpath data hdata

/-- A call that touches no file. -/
theorem sustains_of_idle {Value : Type} {program : Program (World Event) Value}
    {post : Value → Prop}
    (h : ∀ world, Ensures program (fun value world' ↦ post value ∧ world'.files = world.files)
      (fun world' ↦ world'.files = world.files) world) :
    Sustains (Holds paths allowed) post program := by
  intro world hworld
  exact (h world).mono (fun value final hfinal ↦ ⟨hfinal.1, hworld.of_files_eq hfinal.2⟩)
    fun final hfinal ↦ hworld.of_files_eq hfinal

theorem sustains_fileExists (path : Path) :
    Sustains (Holds paths allowed) (fun _ ↦ True) (fileExists path : Program (World Event) Bool) :=
  sustains_of_idle fun _ ↦ ⟨trivial, rfl⟩

theorem sustains_randomFill (length : ℕ) :
    Sustains (Holds paths allowed) (fun bytes ↦ bytes.length = length)
      (randomFill length : Program (World Event) Bytes) :=
  sustains_of_idle fun _ ↦ ensures_randomFill fun _ _ hidle hlength ↦ ⟨hlength, hidle.files_eq⟩

theorem sustains_note (event : Event) :
    Sustains (Holds paths allowed) (fun _ ↦ True) (note event) :=
  .modifying fun _ hworld ↦ hworld.of_files_eq rfl

theorem sustains_removeOptional (path : Path) :
    Sustains (Holds paths allowed) (fun _ ↦ True)
      (removeOptional path : Program (World Event) Bool) := by
  intro world hworld
  refine ensures_removeOptional (fun final _ hfiles ↦ ⟨trivial, hworld.removed hfiles⟩)
    fun final _ _ hfiles ↦ ?_
  have hfinal : Holds paths allowed final :=
    hfiles.elim (fun hsame ↦ hworld.of_files_eq hsame) fun hgone ↦ hworld.removed hgone
  exact ⟨⟨trivial, hfinal⟩, hfinal⟩

theorem sustains_rename {source target : Path} (hsource : paths source) :
    Sustains (Holds paths allowed) (fun _ ↦ True)
      (rename source target : Program (World Event) Bool) := by
  intro world hworld
  cases hdata : world.files source with
  | none =>
    simp only [rename, ensures_bind, ensures_get, hdata]
    exact ⟨trivial, hworld⟩
  | some data =>
    have hmoved : ∀ final : World Event,
        final.files = Storage.stored target data (Storage.removed source world.files) →
          Holds paths allowed final := by
      intro final hfiles
      have hgone : Holds paths allowed { world with files := Storage.removed source world.files } :=
        hworld.removed rfl
      exact hgone.stored (hworld source hsource data hdata) hfiles
    refine ensures_rename hdata (fun final _ hfiles ↦ ⟨trivial, hmoved final hfiles⟩)
      fun final _ _ hfiles ↦ ?_
    have hfinal : Holds paths allowed final := by
      obtain hsame | hgone | hfiles := hfiles
      · exact hworld.of_files_eq hsame
      · exact hworld.removed hgone
      · exact hmoved final hfiles
    exact ⟨⟨trivial, hfinal⟩, hfinal⟩

theorem sustains_createFile {path : Path} {data : Bytes}
    (hdata : ∀ written, allowed (data.take written)) :
    Sustains (Holds paths allowed) (fun _ ↦ True)
      (createFile path data : Program (World Event) Bool) := by
  have hwhole : allowed data := by
    rw [← List.take_length (l := data)]
    exact hdata data.length
  intro world hworld
  refine ensures_createFile (fun final _ hfiles ↦ ⟨trivial, hworld.stored hwhole hfiles⟩)
    fun final _ _ hfiles ↦ ?_
  have hfinal : Holds paths allowed final := by
    obtain hsame | ⟨written, hfiles⟩ := hfiles
    · exact hworld.of_files_eq hsame
    · exact hworld.stored (hdata written) hfiles
  exact ⟨⟨trivial, hfinal⟩, hfinal⟩

end Primitives

section Operations

variable {path temp : Path}

theorem sustains_copyFile {source target : Path} (hsource : paths source)
    (hcut : ∀ data written, allowed data → allowed (data.take written)) :
    Sustains (Holds paths allowed) (fun _ ↦ True)
      (copyFile source target : Program (World Event) Bool) := by
  intro world hworld
  cases hdata : world.files source with
  | none =>
    simp only [copyFile, ensures_bind, ensures_get, hdata]
    exact ⟨trivial, hworld⟩
  | some data =>
    simp only [copyFile, ensures_bind, ensures_get, hdata]
    exact sustains_createFile (fun written ↦ hcut data written (hworld source hsource data hdata))
      world hworld

theorem sustains_ensureDir (path : Path) :
    Sustains (Holds paths allowed) (fun _ ↦ True) (ensureDir path : Program (World Event) Bool) :=
  sustains_of_idle fun _ ↦ ensures_ensureDir.mono (fun _ _ hfinal ↦ ⟨trivial, hfinal.1.files_eq⟩)
    fun _ hfinal ↦ hfinal.1.files_eq

/-- The only path the backup suffix leads to. -/
theorem eq_backupOf {backup : Path} (hbuild : buildSuffixedPath path ".bak".toList = some backup) :
    backup = backupOf path := by
  unfold buildSuffixedPath at hbuild
  split_ifs at hbuild
  exact (Option.some.inj hbuild).symm

theorem sustains_recoverAtomicFile (hbackup : paths (backupOf path)) :
    Sustains (Holds paths allowed) (fun _ ↦ True)
      (recoverAtomicFile path temp : Program (World Event) Bool) := by
  unfold recoverAtomicFile
  cases hbuild : buildSuffixedPath path ".bak".toList with
  | none => exact .pure trivial
  | some backup =>
    rw [← eq_backupOf hbuild] at hbackup
    refine (sustains_fileExists path).bind fun primaryExists _ ↦ ?_
    refine (sustains_fileExists backup).bind fun backupExists _ ↦ ?_
    have hlast : Sustains (Holds paths allowed) (fun _ ↦ True) (do
        let _ ← removeOptional temp
        return true : Program (World Event) Bool) :=
      (sustains_removeOptional temp).bind fun _ _ ↦ .pure trivial
    have hend : Sustains (Holds paths allowed) (fun _ ↦ True) (do
        if primaryExists || backupExists then
          let _ ← removeOptional backup
        let _ ← removeOptional temp
        return true : Program (World Event) Bool) :=
      .ite (fun _ ↦ (sustains_removeOptional backup).bind fun _ _ ↦ hlast) fun _ ↦ hlast
    refine .ite (fun _ ↦ ?_) fun _ ↦ hend
    refine (sustains_rename hbackup).bind fun renamed _ ↦ ?_
    exact .ite (fun _ ↦ (sustains_removeOptional temp).bind fun _ _ ↦ .pure trivial) fun _ ↦ hend

theorem sustains_removeAtomicFile :
    Sustains (Holds paths allowed) (fun _ ↦ True)
      (removeAtomicFile path temp : Program (World Event) Bool) := by
  unfold removeAtomicFile
  cases buildSuffixedPath path ".bak".toList with
  | none => exact .pure trivial
  | some backup =>
    exact .andM (sustains_removeOptional temp)
      (.andM (sustains_removeOptional backup) (sustains_removeOptional path))

section Replacement

variable (hpath : paths path) (hbackup : paths (backupOf path)) (htemp : paths temp)
  (hcut : ∀ data written, allowed data → allowed (data.take written))

include hpath hcut in
theorem sustains_prepareAtomicBackup (backup : Path) :
    Sustains (Holds paths allowed) (fun _ ↦ True)
      (prepareAtomicBackup path backup : Program (World Event) (Option Bool)) := by
  unfold prepareAtomicBackup
  refine (sustains_fileExists path).bind fun _ _ ↦ .ite (fun _ ↦ .pure trivial) fun _ ↦ ?_
  refine (sustains_removeOptional backup).bind fun _ _ ↦ .ite (fun _ ↦ .pure trivial) fun _ ↦ ?_
  exact (sustains_copyFile hpath hcut).bind fun _ _ ↦
    .ite (fun _ ↦ .pure trivial) fun _ ↦ .pure trivial

include hpath hbackup htemp hcut in
theorem sustains_publishAtomicTemp :
    Sustains (Holds paths allowed) (fun _ ↦ True)
      (publishAtomicTemp path temp : Program (World Event) Bool) := by
  unfold publishAtomicTemp
  have hfailed : Sustains (Holds paths allowed) (fun _ ↦ True) (do
      let _ ← removeOptional temp
      return false : Program (World Event) Bool) :=
    (sustains_removeOptional temp).bind fun _ _ ↦ .pure trivial
  have hlast : Sustains (Holds paths allowed) (fun _ ↦ True) (do
      let _ ← removeOptional temp
      return true : Program (World Event) Bool) :=
    (sustains_removeOptional temp).bind fun _ _ ↦ .pure trivial
  cases buildSuffixedPath path ".bak".toList with
  | none => exact hfailed
  | some backup =>
    refine (sustains_prepareAtomicBackup hpath hcut backup).bind fun prepared _ ↦ ?_
    cases prepared with
    | none => exact hfailed
    | some backupActive =>
      refine (sustains_rename htemp).bind fun renamed _ ↦ .ite (fun _ ↦ ?_) fun _ ↦ ?_
      · exact .ite (fun _ ↦ (sustains_removeOptional backup).bind fun _ _ ↦ hlast) fun _ ↦ hlast
      · exact (sustains_recoverAtomicFile hbackup).bind fun _ _ ↦ .pure trivial

include hpath hbackup htemp hcut in
/-- Replacing a file adds what is written, whole or cut short, and nothing else. -/
theorem sustains_writeFileAtomic {data : Bytes} (hdata : allowed data) :
    Sustains (Holds paths allowed) (fun _ ↦ True)
      (writeFileAtomic path temp data : Program (World Event) Bool) := by
  unfold writeFileAtomic
  have hlast : ∀ ok : Bool, Sustains (Holds paths allowed) (fun _ ↦ True) (do
      let _ ← removeOptional temp
      return ok : Program (World Event) Bool) := fun ok ↦
    (sustains_removeOptional temp).bind fun _ _ ↦ .pure trivial
  refine .ite (fun _ ↦ .pure trivial) fun _ ↦ ?_
  refine (sustains_recoverAtomicFile hbackup).bind fun _ _ ↦ .ite (fun _ ↦ .pure trivial) fun _ ↦ ?_
  refine (sustains_removeOptional temp).bind fun _ _ ↦ ?_
  refine (sustains_createFile fun written ↦ hcut data written hdata).bind fun written _ ↦ ?_
  refine .ite (fun _ ↦ ?_) fun _ ↦ hlast false
  exact (sustains_publishAtomicTemp hpath hbackup htemp hcut).bind fun ok _ ↦ hlast ok

end Replacement

end Operations

end ZeroFido.Storage
