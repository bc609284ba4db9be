import ZeroFido.Storage.Tearing
import ZeroFido.Store.Footprint

/-!
# Removals that fail

A sequence of removals stops at the first one that fails (`failureWithin`), which may have taken its
file all the same. The files before it are gone and those behind it are not touched (`Takes`). When
the removal of a credential fails after it took the record file, the caller is told that the
credential was not removed, and the credential has no record file any more (`strands`).
-/

set_option autoImplicit false
set_option relaxedAutoImplicit false

namespace ZeroFido.Store

open Foundations Storage

section Failures

/-- The first of some calls that fails: how many calls succeed before it, and how far it comes.
After a loss of power nothing fails any more. -/
def failureWithin : ℕ → List WriteOutcome → Option (ℕ × ℕ)
  | 0, _ => none
  | calls + 1, outcomes =>
    match outcomeAt outcomes 0 with
    | .done => (failureWithin calls (outcomes.drop 1)).map fun failure ↦ (failure.1 + 1, failure.2)
    | .failed progress => some (0, progress)
    | .interrupted _ => none

/-- How many files a failed sequence of removals takes. -/
def taken (failure : ℕ × ℕ) : ℕ := if failure.2 = 0 then failure.1 else failure.1 + 1

/-- Whether removing some credentials, one after the other, takes the record file of one of them and
then fails before the other files of that credential are gone. A credential has six files, and the
record file is the third one to go. -/
def strands (credentials : ℕ) (outcomes : List WriteOutcome) : Bool :=
  (failureWithin (6 * credentials) outcomes).any fun failure ↦
    decide (6 * (failure.1 / 6) + 2 < taken failure)

theorem taken_add (failure : ℕ × ℕ) (calls : ℕ) :
    taken (failure.1 + calls, failure.2) = taken failure + calls := by
  unfold taken
  split_ifs <;> omega

end Failures

section Takes

variable {Event : Type} {world : World Event} {paths more : List Path}

/-- The files without those at some paths. -/
def cleared (paths : List Path) (files : Path → Option Bytes) (path : Path) : Option Bytes :=
  if paths.contains path then none else files path

theorem cleared_of_mem {files : Path → Option Bytes} {path : Path} (h : path ∈ paths) :
    cleared paths files path = none := if_pos (List.contains_iff_mem.mpr h)

theorem cleared_of_not_mem {files : Path → Option Bytes} {path : Path} (h : path ∉ paths) :
    cleared paths files path = files path := if_neg (mt List.contains_iff_mem.mp h)

@[simp]
theorem cleared_nil (files : Path → Option Bytes) : cleared [] files = files :=
  funext fun _ ↦ cleared_of_not_mem List.not_mem_nil

theorem cleared_singleton (path : Path) (files : Path → Option Bytes) :
    cleared [path] files = removed path files := by
  funext other
  simp only [cleared, removed, List.contains_iff_mem, List.mem_singleton, Function.update_apply]

theorem cleared_cleared (files : Path → Option Bytes) :
    cleared more (cleared paths files) = cleared (paths ++ more) files := by
  funext path
  simp only [cleared, List.contains_iff_mem, List.mem_append]
  by_cases hmore : path ∈ more <;> simp [hmore]

/-- A program that removes files one after the other, and stops at the first removal that fails. -/
structure Takes (paths : List Path) (program : Program (World Event) Bool) : Prop where
  spec : ∀ world : World Event, Ensures program
    (fun ok world' ↦
      (ok = true → world'.files = cleared paths world.files ∧
        ∀ calls, failureWithin (paths.length + calls) world.writes =
          (failureWithin calls world'.writes).map fun failure ↦
            (failure.1 + paths.length, failure.2)) ∧
      (ok = false → ∃ failure, failure.1 < paths.length ∧
        (∀ calls, failureWithin (paths.length + calls) world.writes = some failure) ∧
        world'.files = cleared (paths.take (taken failure)) world.files))
    (fun _ ↦ True) world

theorem takes_nil : Takes [] (return true : Program (World Event) Bool) := by
  refine ⟨fun world ↦ ⟨fun _ ↦ ⟨(cleared_nil _).symm, fun calls ↦ ?_⟩, by simp⟩⟩
  rw [List.length_nil, Nat.zero_add]
  exact Option.map_id'.symm

theorem takes_removeOptional (path : Path) :
    Takes [path] (removeOptional path : Program (World Event) Bool) := by
  constructor
  intro world
  refine ensures_attempt_outcome (fun hdone ↦ ?_) (fun progress hfailed ↦ ?_) fun _ ↦ trivial
  · refine ⟨fun _ ↦ ⟨(cleared_singleton path world.files).symm, fun calls ↦ ?_⟩, by simp⟩
    rw [List.length_singleton, Nat.add_comm, failureWithin, hdone]
  · refine ⟨by simp, fun _ ↦ ⟨(0, progress), by simp, fun calls ↦ ?_, ?_⟩⟩
    · rw [List.length_singleton, Nat.add_comm, failureWithin, hfailed]
    · dsimp only
      by_cases hzero : progress = 0
      · rw [hzero, Nat.zero_min, if_pos rfl, taken, if_pos rfl, List.take_zero, cleared_nil]
      · rw [if_neg (by omega), taken, if_neg hzero, Nat.zero_add, List.take_succ_cons,
          List.take_zero, cleared_singleton]

/-- Other files stay, whatever fails. -/
theorem Takes.frame {program : Program (World Event) Bool} (h : Takes paths program) :
    Ensures program (fun _ world' ↦ ∀ path, path ∉ paths → world'.files path = world.files path)
      (fun _ ↦ True) world := by
  refine (h.spec world).mono ?_ fun _ _ ↦ trivial
  rintro ok final ⟨hdone, hfailed⟩ path hpath
  cases ok with
  | true => rw [(hdone rfl).1, cleared_of_not_mem hpath]
  | false =>
    obtain ⟨failure, -, -, hfiles⟩ := hfailed rfl
    rw [hfiles, cleared_of_not_mem fun hmem ↦ hpath (List.take_subset _ _ hmem)]

/-- One sequence of removals after the other. -/
theorem Takes.andThen {first second : Program (World Event) Bool} (hfirst : Takes paths first)
    (hsecond : Takes more second) : Takes (paths ++ more) (first <&&> second) := by
  constructor
  intro world
  rw [ensures_andM]
  refine (hfirst.spec world).mono ?_ fun _ _ ↦ trivial
  rintro ok middle ⟨hdone, hfailed⟩
  refine ⟨fun hok ↦ ?_, fun hok ↦ ?_⟩
  · obtain ⟨hfiles, hwithin⟩ := hdone hok
    refine (hsecond.spec middle).mono ?_ fun _ _ ↦ trivial
    rintro ok' final ⟨hdone', hfailed'⟩
    have hcalls : ∀ calls, failureWithin ((paths ++ more).length + calls) world.writes =
        (failureWithin (more.length + calls) middle.writes).map fun failure ↦
          (failure.1 + paths.length, failure.2) := by
      intro calls
      rw [List.length_append, Nat.add_assoc, hwithin]
    refine ⟨fun hok' ↦ ?_, fun hok' ↦ ?_⟩
    · obtain ⟨hfiles', hwithin'⟩ := hdone' hok'
      refine ⟨by rw [hfiles', hfiles, cleared_cleared], fun calls ↦ ?_⟩
      rw [hcalls, hwithin', Option.map_map, List.length_append]
      refine congrArg (fun shift ↦ (failureWithin calls final.writes).map shift) ?_
      funext failure
      exact Prod.ext (by simp only [Function.comp_apply]; omega) rfl
    · obtain ⟨failure, hbound, hfailure, hfiles'⟩ := hfailed' hok'
      refine ⟨(failure.1 + paths.length, failure.2), ?_, fun calls ↦ ?_, ?_⟩
      · rw [List.length_append]
        dsimp only
        omega
      · rw [hcalls, hfailure, Option.map_some]
      · rw [taken_add, Nat.add_comm, List.take_length_add_append, hfiles', hfiles, cleared_cleared]
  · obtain ⟨failure, hbound, hfailure, hfiles⟩ := hfailed hok
    have htaken : taken failure ≤ paths.length := by
      unfold taken
      split_ifs <;> omega
    refine ⟨by simp, fun _ ↦ ⟨failure, ?_, fun calls ↦ ?_, ?_⟩⟩
    · rw [List.length_append]
      omega
    · rw [List.length_append, Nat.add_assoc]
      exact hfailure _
    · rw [List.take_append_of_le_length htaken]
      exact hfiles

theorem takes_removeOptionalPaths (paths : List Path) :
    Takes paths (removeOptionalPaths paths : Program (World Event) Bool) := by
  induction paths with
  | nil => exact takes_nil
  | cons path rest ih => exact (takes_removeOptional path).andThen ih

theorem takes_removeAtomicFile {path temp : Path}
    (hbuild : buildSuffixedPath path ".bak".toList = some (backupOf path)) :
    Takes [temp, backupOf path, path]
      (removeAtomicFile path temp : Program (World Event) Bool) := by
  unfold removeAtomicFile
  simp only [hbuild]
  exact (takes_removeOptional temp).andThen
    ((takes_removeOptional (backupOf path)).andThen (takes_removeOptional path))

end Takes

section Credentials

variable {Event : Type} {world : World Event} {name : Path}

/-- The files of a credential, in the order in which they are removed. -/
def credentialPaths (name : Path) : List Path :=
  [tempPath name, backupOf (recordPath name), recordPath name] ++
    [counterFloorTempPath name, backupOf (counterFloorPath name), counterFloorPath name]

theorem takes_recoveryRemoveRecordPaths (hname : isRecordName name = true) :
    Takes (credentialPaths name)
      (recoveryRemoveRecordPaths name : Program (World Event) Bool) :=
  (takes_removeAtomicFile (atomicPaths_record hname).build).andThen
    (takes_removeAtomicFile (atomicPaths_counterFloor hname).build)

/-- The files of one credential are no record files of another. -/
theorem recordPath_not_mem_credentialPaths {other : Path} (hname : isRecordName name = true)
    (hother : isRecordName other = true) (hne : other ≠ name) :
    recordPath other ∉ credentialPaths name := by
  have hfiles : ∀ path ∈ credentialPaths name, FileOf name path := by
    intro path hpath
    simp only [credentialPaths, List.cons_append, List.nil_append, List.mem_cons,
      List.not_mem_nil, or_false] at hpath
    rcases hpath with rfl | rfl | rfl | rfl | rfl | rfl
    · exact fileOf_tempPath name
    · exact (fileOf_recordPath name).backup
    · exact fileOf_recordPath name
    · exact fileOf_counterFloorTempPath name
    · exact (fileOf_counterFloorPath name).backup
    · exact fileOf_counterFloorPath name
  intro hmem
  exact hne ((fileOf_recordPath other).unique hother hname (hfiles _ hmem))

/-- A failing removal that is not one that strands the credential leaves its record file. -/
theorem recordPath_not_mem_take {failure : ℕ × ℕ} (hname : isRecordName name = true)
    (h : taken failure ≤ 2) : recordPath name ∉ (credentialPaths name).take (taken failure) := by
  intro hmem
  have hpaths := atomicPaths_record hname
  have htwo : recordPath name ∈ [tempPath name, backupOf (recordPath name)] :=
    (List.take_subset_take_left _ h) hmem
  rw [List.mem_cons, List.mem_singleton] at htwo
  rcases htwo with htemp | hbackup
  · exact hpaths.temp_ne htemp.symm
  · exact backupOf_ne _ hbackup.symm

end Credentials

end ZeroFido.Store
