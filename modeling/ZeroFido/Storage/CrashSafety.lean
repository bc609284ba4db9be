import ZeroFido.Storage.AtomicFile
import ZeroFido.Foundations.Run

/-!
# Replacing a file is crash safe

A file is replaced again and again, and each replacement or recovery may be stopped anywhere or meet
failing calls. `performed` is one such attempt, with the outcomes of its storage calls as an input,
and `recovered` is what the path holds after a recovery in which nothing fails.

The invariant behind the result is that an attempt keeps or replaces `logical`, the contents a later
recovery brings back: `recovered_eq_logical` and the specifications of the two operations give
`replacement_crash_safe`, for a file in whatever state any earlier attempts left it.
-/

set_option autoImplicit false
set_option relaxedAutoImplicit false

namespace ZeroFido.Storage

open Foundations

section Attempts

variable {Event Value : Type}

/-- Runs a program with the given outcomes of its storage calls. There is no result when the power
was lost. -/
def performed (program : Program (World Event) Value) (outcomes : List WriteOutcome)
    (world : World Event) : Option Value × World Event :=
  match program.run { world with writes := outcomes } with
  | .ok value final => (some value, final)
  | .error _ final => (none, final)

/-- A use of the atomic file at a path, with the outcomes of its storage calls. -/
inductive Attempt where
  | write (data : Bytes) (outcomes : List WriteOutcome)
  | recover (outcomes : List WriteOutcome)
  deriving DecidableEq, Repr

/-- The device after an attempt, whether it returned or was stopped. -/
def afterAttempt (path temp : Path) (world : World Event) : Attempt → World Event
  | .write data outcomes => (performed (writeFileAtomic path temp data) outcomes world).2
  | .recover outcomes => (performed (recoverAtomicFile path temp) outcomes world).2

/-- What the path holds after `zf_storage_recover_atomic_file` with no failure. -/
def recovered (path temp : Path) (world : World Event) : Option Bytes :=
  (performed (recoverAtomicFile path temp) [] world).2.files path

end Attempts

section Safety

variable {Event Value : Type} {world : World Event} {path temp : Path} {data : Bytes}

/-- What a specification says of an attempt. -/
theorem performed_of_ensures {program : Program (World Event) Value}
    {post : Value → World Event → Prop} {crash : World Event → Prop} (world : World Event)
    (outcomes : List WriteOutcome)
    (h : Ensures program post crash { world with writes := outcomes }) :
    (∀ value, (performed program outcomes world).1 = some value →
      post value (performed program outcomes world).2) ∧
    ((performed program outcomes world).1 = none → crash (performed program outcomes world).2) := by
  unfold Ensures at h
  unfold performed
  split at h
  · rename_i value final hrun
    rw [hrun]
    refine ⟨?_, by simp⟩
    rintro _ ⟨rfl⟩
    exact h
  · rename_i reason final hrun
    rw [hrun]
    exact ⟨by simp, fun _ ↦ h⟩

/-- A path whose backup name does not fit its buffer is never touched. -/
theorem atomicPaths_or_build_none (htemp : temp ≠ path) (hbackup : temp ≠ backupOf path) :
    AtomicPaths path temp ∨ buildSuffixedPath path ".bak".toList = none := by
  by_cases hfits : path.length ≠ 0 ∧ path.length + 5 ≤ pathBufferSize
  · exact Or.inl ⟨by simpa using hfits.1, hfits.2, htemp, hbackup⟩
  · refine Or.inr ?_
    have hsuffix : ".bak".toList.length = 4 := rfl
    have hsize : pathBufferSize = 192 := rfl
    unfold buildSuffixedPath
    rw [if_pos]
    omega

theorem performed_recover_of_build_none (hbuild : buildSuffixedPath path ".bak".toList = none)
    (outcomes : List WriteOutcome) :
    performed (recoverAtomicFile path temp) outcomes world =
      (some false, { world with writes := outcomes }) := by
  simp only [performed, recoverAtomicFile, hbuild]
  rfl

theorem performed_write_of_build_none (hbuild : buildSuffixedPath path ".bak".toList = none)
    (hdata : data ≠ []) (outcomes : List WriteOutcome) :
    performed (writeFileAtomic path temp data) outcomes world =
      (some false, { world with writes := outcomes }) := by
  have hlength : data.length ≠ 0 := by simpa using hdata
  simp only [performed, writeFileAtomic, hlength, if_false, recoverAtomicFile, hbuild]
  rfl

/-- A recovery in which nothing fails leaves in the primary file what the file holds. -/
theorem recovered_eq_logical (hpaths : AtomicPaths path temp) :
    recovered path temp world = logical world.files path := by
  obtain ⟨hreturned, hlost⟩ := performed_of_ensures world [] (ensures_recoverAtomicFile hpaths)
  cases hresult : (performed (recoverAtomicFile path temp) [] world).1 with
  | none => exact absurd rfl (hlost hresult).writes
  | some ok =>
    obtain ⟨-, hprimary, hfailed⟩ := hreturned ok hresult
    cases ok with
    | true => exact hprimary rfl
    | false => exact absurd rfl (hfailed rfl).1

/-- A recovery changes nothing that a later recovery would not bring back. -/
theorem recovered_afterRecover (htemp : temp ≠ path) (hbackup : temp ≠ backupOf path)
    (outcomes : List WriteOutcome) :
    recovered path temp (performed (recoverAtomicFile path temp) outcomes world).2 =
      recovered path temp world := by
  obtain hpaths | hbuild := atomicPaths_or_build_none htemp hbackup
  · rw [recovered_eq_logical hpaths, recovered_eq_logical hpaths]
    obtain ⟨hreturned, hlost⟩ :=
      performed_of_ensures world outcomes (ensures_recoverAtomicFile hpaths)
    cases hresult : (performed (recoverAtomicFile path temp) outcomes world).1 with
    | none =>
      have hholds := (hlost hresult).moves.holds
      exact hholds.elim id id
    | some ok =>
      obtain ⟨hkeeps, -⟩ := hreturned ok hresult
      exact hkeeps.logical_eq
  · simp only [recovered, performed_recover_of_build_none hbuild]

theorem recovered_afterRecoveries (htemp : temp ≠ path) (hbackup : temp ≠ backupOf path)
    (recoveries : List (List WriteOutcome)) :
    recovered path temp (run (afterAttempt path temp) world (recoveries.map Attempt.recover)) =
      recovered path temp world := by
  induction recoveries generalizing world with
  | nil => rfl
  | cons outcomes recoveries ih =>
    rw [List.map_cons, run_cons, ih]
    exact recovered_afterRecover htemp hbackup outcomes

/-- A replacement leaves the old contents or the new ones to a later recovery, and the new ones when
it reported success. -/
theorem recovered_afterWrite (htemp : temp ≠ path) (hbackup : temp ≠ backupOf path)
    (hdata : data ≠ []) (outcomes : List WriteOutcome) :
    (recovered path temp (performed (writeFileAtomic path temp data) outcomes world).2 =
        recovered path temp world ∨
      recovered path temp (performed (writeFileAtomic path temp data) outcomes world).2 =
        some data) ∧
    ((performed (writeFileAtomic path temp data) outcomes world).1 = some true →
      recovered path temp (performed (writeFileAtomic path temp data) outcomes world).2 =
        some data) := by
  obtain hpaths | hbuild := atomicPaths_or_build_none htemp hbackup
  · rw [recovered_eq_logical hpaths, recovered_eq_logical hpaths]
    obtain ⟨hreturned, hlost⟩ :=
      performed_of_ensures world outcomes (ensures_writeFileAtomic hpaths hdata)
    cases hresult : (performed (writeFileAtomic path temp data) outcomes world).1 with
    | none => exact ⟨(hlost hresult).moves.holds, by simp⟩
    | some ok =>
      obtain ⟨hmoves, hdone, -⟩ := hreturned ok hresult
      refine ⟨hmoves.holds, ?_⟩
      rintro ⟨rfl⟩
      rw [logical, hdone rfl, Option.some_or]
  · simp [recovered, performed_recover_of_build_none hbuild,
      performed_write_of_build_none hbuild hdata]

/-- Atomic replacement is crash safe. Let any attempts, each with any failures or a power loss, have
been made on a file, and let `old` be what a recovery would find. After one more write with any
outcomes, and any further recoveries that were themselves stopped or failed, a recovery in which
nothing fails finds `old` or the new contents, and the new contents when the write reported success.
A file without a leftover backup is found as it is. -/
theorem replacement_crash_safe (htemp : temp ≠ path) (hbackup : temp ≠ backupOf path)
    (start : World Event) (earlier : List Attempt) (hdata : data ≠ [])
    (outcomes : List WriteOutcome) (recoveries : List (List WriteOutcome)) :
    let before := run (afterAttempt path temp) start earlier
    let old := recovered path temp before
    let written := performed (writeFileAtomic path temp data) outcomes before
    let after := run (afterAttempt path temp) written.2 (recoveries.map Attempt.recover)
    (recovered path temp after = old ∨ recovered path temp after = some data) ∧
    (written.1 = some true → recovered path temp after = some data) ∧
    (before.files (backupOf path) = none → old = before.files path) := by
  intro before old written after
  have hafter : recovered path temp after = recovered path temp written.2 :=
    recovered_afterRecoveries htemp hbackup recoveries
  obtain ⟨heither, hdone⟩ : _ ∧ (written.1 = some true → _) :=
    recovered_afterWrite htemp hbackup hdata outcomes
  rw [hafter]
  refine ⟨heither, hdone, fun hnone ↦ ?_⟩
  obtain hpaths | hbuild := atomicPaths_or_build_none htemp hbackup
  · show recovered path temp before = _
    rw [recovered_eq_logical hpaths, logical, hnone, Option.or_none]
  · show recovered path temp before = _
    rw [recovered, performed_recover_of_build_none hbuild]

/-- A file that holds one byte, whose replacement loses power between the two halves of the
publishing rename, after an earlier attempt that failed to copy the old contents. -/
theorem replacement_crash_safe_cutRename :
    let path : Path := "pin".toList
    let temp : Path := "tmp".toList
    let start : World Unit := { World.blank Unit with files := stored path [1] fun _ ↦ none }
    let copyFails : Attempt := .write [2] [.done, .done, .done, .done, .done, .failed 1]
    let before := run (afterAttempt path temp) start [copyFails]
    let cut : List WriteOutcome :=
      [.done, .done, .done, .done, .done, .done, .interrupted 1]
    let written := performed (writeFileAtomic path temp [3]) cut before
    let after := run (afterAttempt path temp) written.2 ([[.interrupted 1]].map Attempt.recover)
    (temp ≠ path ∧ temp ≠ backupOf path ∧ ([3] : Bytes) ≠ []) ∧
      before.files (backupOf path) = some [] ∧ written.1 = none ∧
      (recovered path temp after = recovered path temp before ∨
        recovered path temp after = some [3]) := by
  intro path temp start copyFails before cut written after
  refine ⟨⟨by decide, by decide, by decide⟩, by decide +kernel, by decide +kernel, ?_⟩
  exact (replacement_crash_safe (by decide) (by decide) start [copyFails] (by decide) cut
    [[.interrupted 1]]).1

end Safety

end ZeroFido.Storage
