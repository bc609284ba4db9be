import ZeroFido.Store.Rollback
import ZeroFido.Store.Startup

/-!
# Record files when nothing fails

The operations on the files of one credential, on a device on which no call to come fails: each
succeeds with its whole effect, leaves every other file alone and leaves a device of the same kind
(`Succeeds`). What is loaded before and after it is given as `loadFound`.
-/

set_option autoImplicit false
set_option relaxedAutoImplicit false

namespace ZeroFido.Store

open Foundations Storage

variable {Event : Type} {crypto : Crypto} {name other : Path} {record : CredentialRecord}
  {world world' world'' : World Event} {files files' : Path → Option Bytes}

section Found

/-- A record's count is at most the one it is loaded with. -/
theorem le_of_countFound {credentialId : Bytes} {createdAt signCount count : ℕ}
    {embedded : Option Bytes}
    (h : countFound crypto files name credentialId createdAt signCount embedded = some count) :
    signCount ≤ count := by
  unfold countFound at h
  split at h
  · split_ifs at h
    obtain ⟨stored, -, hmax⟩ := Option.map_eq_some_iff.mp h
    exact hmax ▸ Nat.le_max_left _ _
  · split_ifs at h
    exact Nat.le_of_eq (Option.some.inj h)
  · exact Nat.le_of_eq (Option.some.inj h)

/-- A load that succeeded finds the same again. -/
theorem Loaded.loadFound_eq {Value : Type} {view : CredentialRecord → Value} {value : Value}
    (h : Loaded crypto name view world (some value) world') (hname : isRecordName name = true) :
    loadFound crypto world'.files name = loadFound crypto world.files name := by
  obtain ⟨hrecordFile, -⟩ := h.rewrites.record_eq hname
  obtain ⟨record, embedded, count, hrecord, hcount, -, hfloored⟩ := h.found
  have hrecord' := hrecord
  rw [← recordFound_congr hrecordFile] at hrecord'
  by_cases hfile : (world.files (counterFloorPath name)).isSome ∨ embedded = none
  · obtain ⟨raw, hraw, hfloor⟩ := hfloored hfile
    have hcount' : countFound crypto world'.files name record.credentialId record.createdAt
        record.signCount embedded = some count := by
      simp only [countFound, hraw, if_pos hfloor.length, hfloor.value, Option.map_some]
      rw [max_eq_right (le_of_countFound hcount)]
    simp [loadFound, hrecord, hrecord', hcount, hcount']
  · -- An embedded floor is read only when there is no file, and then nothing is written.
    rw [not_or, Option.not_isSome_iff_eq_none] at hfile
    have hnone : ¬LoadWrites crypto world.files name := by
      rintro ⟨record', embedded', hfound, hwrites⟩
      obtain ⟨rfl, rfl⟩ := Prod.mk.inj (Option.some.inj (hrecord.symm.trans hfound))
      cases embedded with
      | none => exact hfile.2 rfl
      | some raw => simp [writesFloor, hfile.1] at hwrites
    rw [h.untouched hnone]

theorem loadFound_of_recorded {data : Bytes} (hfile : files (recordPath record.fileName) = some data)
    (h : Recorded crypto data record) {count : ℕ}
    (hcounter : ∀ raw, files (counterFloorPath record.fileName) = some raw →
      CounterFloor crypto record.credentialId record.createdAt raw count)
    (hcount : files (counterFloorPath record.fileName) = none → count = record.signCount)
    (hle : record.signCount ≤ count) :
    loadFound crypto files record.fileName = some { record with signCount := count } := by
  obtain ⟨counterFloor, hfound, hfloor⟩ := recordFound_of_recorded hfile h
  have hcountFound : countFound crypto files record.fileName record.credentialId record.createdAt
      record.signCount (some counterFloor) = some count := by
    cases hraw : files (counterFloorPath record.fileName) with
    | none =>
      rw [hcount hraw]
      simp [countFound, hraw, hfloor.value]
    | some raw =>
      have hcounter := hcounter raw hraw
      simp [countFound, hraw, hcounter.length, hcounter.value, hle]
  simp [loadFound, hfound, hcountFound]

end Found

section Operations

/-- An operation on the files of one credential that had its effect. -/
structure Succeeds (name : Path) (world world' : World Event) : Prop
    extends Within name world world' where
  clean : Clean world'

theorem Succeeds.of_within (h : Within name world world') (hclean : Clean world) :
    Succeeds name world world' := ⟨h, hclean.of_quiet h.toQuiet⟩

theorem Succeeds.trans (h : Succeeds name world world') (h' : Succeeds name world' world'') :
    Succeeds name world world'' := ⟨h.toWithin.trans h'.toWithin, h'.clean⟩

/-- Another credential is found as before. -/
theorem Within.loadFound_eq (h : Within name world world') (hname : isRecordName name = true)
    (hother : isRecordName other = true) (hne : name ≠ other) :
    loadFound crypto world'.files other = loadFound crypto world.files other :=
  loadFound_congr (h.elsewhere hname hother hne _ (fileOf_recordPath other))
    (h.elsewhere hname hother hne _ (fileOf_counterFloorPath other))

/-- Loading a credential that is found. -/
theorem ensures_recordFormatLoadRecord_clean (hlaws : SealLaws crypto)
    (hname : isRecordName name = true) (hclean : Clean world)
    (hfound : loadFound crypto world.files name = some record) :
    Ensures (recordFormatLoadRecord crypto name)
      (fun result world' ↦ result = some record ∧ Succeeds name world world' ∧
        world'.files (recordPath name) = world.files (recordPath name) ∧
        loadFound crypto world'.files name = some record)
      (fun _ ↦ False) world := by
  refine (ensures_recordFormatLoadRecord hlaws hname).mono ?_ fun _ hcut ↦ hcut.listed hclean.writes
  intro result world' hloaded
  obtain hresult | ⟨-, hfailed⟩ := hloaded.result_eq
  · rw [hfound, Option.map_some] at hresult
    subst hresult
    refine ⟨rfl, Succeeds.of_within hloaded.within hclean, (hloaded.rewrites.record_eq hname).1, ?_⟩
    rw [hloaded.loadFound_eq hname, hfound]
  · obtain hlisted | hlisted | ⟨hlisted, -⟩ := hfailed
    · exact absurd hclean.reads hlisted
    · exact absurd hclean.enclave hlisted
    · exact absurd hclean.writes hlisted

/-- Writing a record. -/
theorem ensures_recordFormatWriteRecord_clean (hlaws : SealLaws crypto)
    (hrecord : record.WellFormed) (hclean : Clean world) :
    Ensures (recordFormatWriteRecord crypto record)
      (fun ok world' ↦ ok = true ∧ Succeeds record.fileName world world' ∧
        (∃ data, Recorded crypto data record ∧
          world'.files (recordPath record.fileName) = some data) ∧
        world'.files (counterFloorPath record.fileName) =
          world.files (counterFloorPath record.fileName))
      (fun _ ↦ False) world := by
  have hname : isRecordName record.fileName = true := by
    rw [hrecord.fileName]
    exact isRecordName_hexEncode hrecord.credentialId
  refine (ensures_recordFormatWriteRecord hlaws hrecord).mono ?_ fun _ hcut ↦ hcut.2 hclean.writes
  rintro ok world' ⟨hrewrites, hdone, hfailed⟩
  cases ok with
  | false => exact absurd (hfailed rfl) (by simp [hclean.enclave, hclean.writes])
  | true =>
    refine ⟨rfl, Succeeds.of_within (hrewrites.within (fileOf_recordPath _) (fileOf_tempPath _))
      hclean, hdone rfl, hrewrites.frame _ ?_ ?_ ?_⟩
    · exact ((counterFloorPath_ne hname (Or.inl rfl)).1).symm
    · exact ((counterFloorPath_ne hname (Or.inr (Or.inl rfl))).1).symm
    · exact ((counterFloorPath_ne hname (Or.inr (Or.inr rfl))).1).symm

/-- Removing a credential. -/
theorem ensures_recoveryRemoveRecordPaths_clean (hname : isRecordName name = true)
    (hclean : Clean world) :
    Ensures (recoveryRemoveRecordPaths name)
      (fun ok world' ↦ ok = true ∧ Succeeds name world world' ∧
        world'.files (recordPath name) = none ∧ world'.files (counterFloorPath name) = none)
      (fun _ ↦ False) world := by
  rw [recoveryRemoveRecordPaths, ensures_andM]
  refine (ensures_removeAtomicFile (atomicPaths_record hname)).mono ?_ fun _ hcut ↦
    hcut.writes hclean.writes
  rintro ok middle ⟨hmoves, hgone, hfailed⟩
  have hmiddle := Succeeds.of_within
    (within_of_moves (fileOf_recordPath name) (fileOf_tempPath name) hmoves) hclean
  refine ⟨fun hok ↦ ?_, fun hok ↦ absurd hclean.writes (hfailed hok)⟩
  refine (ensures_removeAtomicFile (atomicPaths_counterFloor hname)).mono ?_ fun _ hcut ↦
    hcut.writes hmiddle.clean.writes
  rintro ok' final ⟨hmoves', hgone', hfailed'⟩
  have hfinal := Succeeds.of_within
    (within_of_moves (fileOf_counterFloorPath name) (fileOf_counterFloorTempPath name) hmoves')
    hmiddle.clean
  cases ok' with
  | false => exact absurd hmiddle.clean.writes (hfailed' rfl)
  | true =>
    refine ⟨rfl, hmiddle.trans hfinal, ?_, (hgone' rfl).1⟩
    obtain ⟨hpath, hbackup, htemp⟩ := counterFloorPath_ne hname (Or.inl rfl)
    rw [hmoves'.frame _ hpath hbackup htemp]
    exact (hgone hok).1

/-- Reserving counts: both files come to the new high water. -/
theorem ensures_recordFormatReserveCounter_clean (hlaws : SealLaws crypto)
    (hrecord : record.WellFormed) (hclean : Clean world) :
    Ensures (recordFormatReserveCounter crypto record)
      (fun result world' ↦ result = some (counterReservedHighWater record.signCount) ∧
        Succeeds record.fileName world world' ∧
        loadFound crypto world'.files record.fileName =
          some { record with signCount := counterReservedHighWater record.signCount })
      (fun _ ↦ False) world := by
  have hname : isRecordName record.fileName = true := by
    rw [hrecord.fileName]
    exact isRecordName_hexEncode hrecord.credentialId
  have hbound : counterReservedHighWater record.signCount ≤ uint32Max := by
    have hcount := hrecord.signCount
    unfold counterReservedHighWater
    split_ifs <;> omega
  have hreserved : CredentialRecord.WellFormed
      { record with signCount := counterReservedHighWater record.signCount } :=
    { hrecord with signCount := hbound }
  simp only [recordFormatReserveCounter, ensures_bind]
  refine (ensures_counterFloorWriteValueFields hlaws hname).mono ?_ fun _ hcut ↦
    hcut.2 hclean.writes
  rintro ok middle ⟨hrewrites, hdone, hfailed⟩
  cases ok with
  | false => exact absurd (hfailed rfl) (by simp [hclean.enclave, hclean.writes])
  | true =>
    obtain ⟨raw, hseals, hraw⟩ := hdone rfl
    have hmiddle := Succeeds.of_within
      (hrewrites.within (fileOf_counterFloorPath _) (fileOf_counterFloorTempPath _)) hclean
    simp only [Bool.not_true, Bool.false_eq_true, if_false, ensures_bind]
    refine (ensures_recordFormatWriteRecord_clean hlaws hreserved hmiddle.clean).mono ?_
      fun _ hcut ↦ hcut
    rintro ok' final ⟨rfl, hfinal, ⟨data, hrecorded, hdata⟩, hcounter⟩
    refine ⟨rfl, hmiddle.trans hfinal, ?_⟩
    refine loadFound_of_recorded hdata hrecorded (fun raw' hraw' ↦ ?_) (fun _ ↦ rfl) (Nat.le_refl _)
    obtain rfl : raw = raw' := Option.some.inj (hraw.symm.trans (hcounter.symm.trans hraw'))
    exact hseals hbound

end Operations

end ZeroFido.Store
