import ZeroFido.Store.RecordFile

/-!
# Rolling a record back

A record file says nothing about its age, so an earlier version may have been put back in its
place. What a load makes of it is decided by the counter floor: `load_respects_floor` for any
contents of the record file, whichever of the two loads that check the counter comes to it.

Sealed counts cannot be forged by assumption: a count is what opening a seal gives. The laws of
sealing are used for the floors that the loads write themselves.
-/

set_option autoImplicit false
set_option relaxedAutoImplicit false

namespace ZeroFido.Store

open Foundations Storage

section Statement

variable (crypto : Crypto) (name : Path)

/-- The count of what was loaded from the files agrees with their counter floors, and so do the
files that the load left. -/
structure RespectsFloor (files files' : Path → Option Bytes) (credentialId : Bytes)
    (createdAt signCount : ℕ) : Prop where
  /-- The counter file is one of this credential, its count is no greater, whoever it is read for, and
  afterwards the file has the count that was loaded. -/
  counter : ∀ raw, files (counterFloorPath name) = some raw →
    (∃ stored, CounterFloor crypto credentialId createdAt raw stored) ∧
      (∀ credentialId' createdAt' stored,
        counterFloorValue crypto credentialId' createdAt' raw = some stored → stored ≤ signCount) ∧
      FloorHolds crypto files' name credentialId createdAt signCount
  /-- Without a counter file the embedded floor has the record's own count, which is what was loaded. -/
  embedded : files (counterFloorPath name) = none → ∀ record raw,
    recordFound crypto files name = some (record, some raw) →
    counterFloorValue crypto credentialId createdAt raw = some record.signCount ∧
      signCount = record.signCount

/-- The counter file is the one before, or one with a greater count of its credential. -/
def FloorKept (files files' : Path → Option Bytes) : Prop :=
  ∀ raw, files (counterFloorPath name) = some raw →
    logical files' (counterFloorPath name) = some raw ∨
      ∃ fresh credentialId createdAt stored signCount,
        logical files' (counterFloorPath name) = some fresh ∧
        counterFloorValue crypto credentialId createdAt raw = some stored ∧
        CounterFloor crypto credentialId createdAt fresh signCount ∧ stored < signCount

end Statement

section Loads

variable {Event Value : Type} {crypto : Crypto} {name : Path} {world world' : World Event}
  {view : CredentialRecord → Value}

/-- The count in a seal does not depend on who reads it. -/
theorem counterFloorValue_unique {credentialId credentialId' raw : Bytes}
    {createdAt createdAt' stored stored' : ℕ}
    (h : counterFloorValue crypto credentialId createdAt raw = some stored)
    (h' : counterFloorValue crypto credentialId' createdAt' raw = some stored') :
    stored = stored' := by
  unfold counterFloorValue counterFloorCheck at h h'
  dsimp only at h h'
  split_ifs at h h'
  exact (Option.some.inj h).symm.trans (Option.some.inj h')

/-- What a load that succeeded found. -/
theorem Loaded.found {value : Value} (h : Loaded crypto name view world (some value) world') :
    ∃ record embedded count, recordFound crypto world.files name = some (record, embedded) ∧
      countFound crypto world.files name record.credentialId record.createdAt record.signCount
        embedded = some count ∧
      value = view { record with signCount := count } ∧
      ((world.files (counterFloorPath name)).isSome ∨ embedded = none →
        FloorHolds crypto world'.files name record.credentialId record.createdAt count) := by
  obtain hresult | ⟨hnone, -⟩ := h.result_eq
  · obtain ⟨loaded, hloaded, rfl⟩ := Option.map_eq_some_iff.mp hresult.symm
    obtain ⟨⟨record, embedded⟩, hrecord, hloaded⟩ := Option.bind_eq_some_iff.mp hloaded
    obtain ⟨count, hcount, hloaded⟩ := Option.bind_eq_some_iff.mp hloaded
    refine ⟨record, embedded, count, hrecord, hcount, ?_, ?_⟩
    · rw [← Option.some.inj hloaded]
    · exact h.floored record embedded count hrecord hcount rfl
  · exact absurd hnone (by simp)

/-- The rules for the count, read off the files. -/
theorem respectsFloor_of_found {record : CredentialRecord} {embedded : Option Bytes} {count : ℕ}
    {files files' : Path → Option Bytes}
    (hrecord : recordFound crypto files name = some (record, embedded))
    (hcount : countFound crypto files name record.credentialId record.createdAt record.signCount
      embedded = some count)
    (hfloored : (files (counterFloorPath name)).isSome ∨ embedded = none →
      FloorHolds crypto files' name record.credentialId record.createdAt count) :
    RespectsFloor crypto name files files' record.credentialId record.createdAt count := by
  constructor
  · intro raw hraw
    have hbound : ∃ stored, CounterFloor crypto record.credentialId record.createdAt raw stored ∧
        stored ≤ count := by
      simp only [countFound, hraw] at hcount
      split_ifs at hcount with hlength
      obtain ⟨stored, hstored, hmax⟩ := Option.map_eq_some_iff.mp hcount
      exact ⟨stored, ⟨hlength, hstored⟩, hmax ▸ Nat.le_max_right _ _⟩
    obtain ⟨stored, hstored, hle⟩ := hbound
    refine ⟨⟨stored, hstored⟩, fun credentialId' createdAt' stored' hstored' ↦ ?_, ?_⟩
    · rw [counterFloorValue_unique hstored' hstored.value]
      exact hle
    · exact hfloored (Or.inl (by rw [hraw]; rfl))
  · intro hnone record' raw hrecord'
    obtain ⟨rfl, rfl⟩ := Prod.mk.inj (Option.some.inj (hrecord.symm.trans hrecord'))
    simp only [countFound, hnone] at hcount
    split_ifs at hcount with hvalue
    exact ⟨hvalue, (Option.some.inj hcount).symm⟩

/-- The only floor a load writes is one for a count that the file's floor is lower than. -/
theorem floorKept_of_rewrites
    (hrewrites : Rewrites (counterFloorPath name) (counterFloorTempPath name)
      (LoadFloor crypto world.files name) world world')
    (huntouched : ¬LoadWrites crypto world.files name → world'.files = world.files) :
    FloorKept crypto name world.files world'.files := by
  intro raw hraw
  have hsame : logical world.files (counterFloorPath name) = some raw := by
    rw [logical, hraw, Option.some_or]
  by_cases hwrites : LoadWrites crypto world.files name
  · obtain hholds | ⟨fresh, ⟨record, embedded, hrecord, hseals⟩, hholds⟩ := hrewrites.holds
    · exact Or.inl (hholds.trans hsame)
    · obtain ⟨record', embedded', hrecord', hwritten⟩ := hwrites
      obtain ⟨rfl, rfl⟩ := Prod.mk.inj (Option.some.inj (hrecord.symm.trans hrecord'))
      simp only [writesFloor, hraw] at hwritten
      obtain ⟨stored, hlow, hstored⟩ := hwritten
      exact Or.inr ⟨fresh, record.credentialId, record.createdAt, stored, record.signCount, hholds,
        hstored, hseals (signCount_recordFound hrecord), hlow⟩
  · rw [huntouched hwrites]
    exact Or.inl hsame

theorem Loaded.floorKept {result : Option Value}
    (h : Loaded crypto name view world result world') :
    FloorKept crypto name world.files world'.files :=
  floorKept_of_rewrites h.rewrites h.untouched

theorem LoadCut.floorKept (h : LoadCut crypto name world world') :
    FloorKept crypto name world.files world'.files :=
  floorKept_of_rewrites h.rewrites fun hnot ↦ absurd h.writes hnot

/-- Whatever the record file holds, both loads that check the counter respect the counter floor when
they succeed, and leave a counter file with no lower count when they fail or are cut short. -/
theorem load_respects_floor (hlaws : SealLaws crypto) (hname : isRecordName name = true)
    (world : World Event) :
    Ensures (recordFormatLoadRecord crypto name)
        (fun result world' ↦ FloorKept crypto name world.files world'.files ∧
          ∀ record, result = some record →
            RespectsFloor crypto name world.files world'.files record.credentialId record.createdAt
              record.signCount)
        (fun world' ↦ FloorKept crypto name world.files world'.files) world ∧
      Ensures (recordFormatLoadIndex crypto name)
        (fun result world' ↦ FloorKept crypto name world.files world'.files ∧
          ∀ entry, result = some entry →
            RespectsFloor crypto name world.files world'.files entry.credentialId entry.createdAt
              entry.signCount)
        (fun world' ↦ FloorKept crypto name world.files world'.files) world := by
  constructor
  · refine (ensures_recordFormatLoadRecord hlaws hname).mono ?_ fun _ hcut ↦ hcut.floorKept
    rintro result world' hloaded
    refine ⟨hloaded.floorKept, ?_⟩
    rintro loaded rfl
    obtain ⟨record, embedded, count, hrecord, hcount, rfl, hfloored⟩ := hloaded.found
    have hrespects : RespectsFloor crypto name world.files world'.files record.credentialId
        record.createdAt count := respectsFloor_of_found hrecord hcount hfloored
    exact hrespects
  · refine (ensures_recordFormatLoadIndex hlaws hname).mono ?_ fun _ hcut ↦ hcut.floorKept
    rintro result world' hloaded
    refine ⟨hloaded.floorKept, ?_⟩
    rintro entry rfl
    obtain ⟨record, embedded, count, hrecord, hcount, rfl, hfloored⟩ := hloaded.found
    have hrespects : RespectsFloor crypto name world.files world'.files record.credentialId
        record.createdAt count := respectsFloor_of_found hrecord hcount hfloored
    exact hrespects

/-- A device on which a record of count 0 stands beside a counter file of count 33. -/
def rolledBack : World Unit :=
  Process.leaves (counterFloorWriteValueFields Crypto.standIn (sampleRecord 1 1).fileName
    (sampleRecord 1 1).credentialId (sampleRecord 1 1).createdAt 33)
    (Process.leaves (writeRecords [sampleRecord 1 1]) (World.blank Unit))

/-- The load of the old record succeeds with the count of the counter file. -/
theorem load_respects_floor_rolledBack :
    ∃ raw, rolledBack.files (counterFloorPath (sampleRecord 1 1).fileName) = some raw ∧
      counterFloorValue Crypto.standIn (sampleRecord 1 1).credentialId (sampleRecord 1 1).createdAt
        raw = some 33 ∧
      ∃ record, resultOf (recordFormatLoadRecord Crypto.standIn (sampleRecord 1 1).fileName)
        rolledBack = some (some record) ∧ 33 ≤ record.signCount := by
  have hloaded : ((resultOf (recordFormatLoadRecord Crypto.standIn (sampleRecord 1 1).fileName)
      rolledBack).map Option.isSome) = some true := by decide +kernel
  have hfile : ((rolledBack.files (counterFloorPath (sampleRecord 1 1).fileName)).bind
      (counterFloorValue Crypto.standIn (sampleRecord 1 1).credentialId
        (sampleRecord 1 1).createdAt)) = some 33 := by decide +kernel
  have hname := isRecordName_sampleRecord
  generalize rolledBack = world at hloaded hfile ⊢
  generalize sampleRecord 1 1 = old at hname hloaded hfile ⊢
  obtain ⟨raw, hraw, hstored⟩ := Option.bind_eq_some_iff.mp hfile
  obtain ⟨result, hresult, hsome⟩ := Option.map_eq_some_iff.mp hloaded
  obtain ⟨record, rfl⟩ := Option.isSome_iff_exists.mp hsome
  obtain ⟨final, -, hrespects⟩ :=
    (load_respects_floor sealLaws_standIn hname world).1.of_resultOf hresult
  exact ⟨raw, hraw, hstored, record, hresult,
    ((hrespects record rfl).counter raw hraw).2.1 _ _ _ hstored⟩

end Loads

end ZeroFido.Store
