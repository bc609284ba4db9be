import ZeroFido.Foundations.Process
import ZeroFido.Store.RecordFormat

/-!
# Record files

The operations of `store/record_format.c` and `store/recovery.c` on the two files of one credential:
loading a record with its counter floor, writing a record, reserving a range of sign counts and
removing a credential.

Each specification says what can become of the two files and that no other file is touched.
`Rewrites` is the common form: an atomic file keeps its contents or gets contents that the operation
is for, whatever fails and wherever the power is lost.
-/

set_option autoImplicit false
set_option relaxedAutoImplicit false

namespace ZeroFido.Store

open Foundations Storage

section Operations

variable {Event : Type} (crypto : Crypto)

/-- `zf_store_counter_floor_write_value_fields`. -/
def counterFloorWriteValueFields (fileName : Path) (credentialId : Bytes)
    (createdAt signCount : ℕ) : Program (World Event) Bool := do
  match ← counterFloorEncodeFields crypto credentialId createdAt signCount with
  | none => return false
  | some raw => writeFileAtomic (counterFloorPath fileName) (counterFloorTempPath fileName) raw

/-- `zf_store_counter_floor_validate_fields`: the validated sign count and the high water. -/
def counterFloorValidateFields (fileName : Path) (credentialId : Bytes)
    (createdAt signCount : ℕ) (embedded : Option Bytes) :
    Program (World Event) (Option (ℕ × ℕ)) := do
  if !(← fileExists (counterFloorPath fileName)) then
    match embedded with
    | some raw =>
      match ← counterFloorDecodeFields crypto credentialId createdAt raw with
      | none => return none
      | some stored =>
        if stored ≠ signCount then
          return none
        return some (signCount, stored)
    | none =>
      if !(← counterFloorWriteValueFields crypto fileName credentialId createdAt signCount) then
        return none
      return some (signCount, signCount)
  else
    match ← readFile (counterFloorPath fileName) counterFloorFileSize with
    | none => return none
    | some raw =>
      if raw.length ≠ counterFloorFileSize then
        return none
      match ← counterFloorDecodeFields crypto credentialId createdAt raw with
      | none => return none
      | some stored =>
        if signCount < stored then
          return some (stored, stored)
        else if stored < signCount then
          if !(← counterFloorWriteValueFields crypto fileName credentialId createdAt
              signCount) then
            return none
          return some (signCount, signCount)
        else
          return some (signCount, stored)

/-- The start of every load: read the record file and decode it. -/
def readRecord (fileName : Path) :
    Program (World Event) (Option (CredentialRecord × Option Bytes)) := do
  match ← readFile (recordPath fileName) storeRecordMaxSize with
  | none => return none
  | some data => recordDecode crypto data fileName

/-- `zf_store_record_format_load_record_with_buffer`. -/
def recordFormatLoadRecord (fileName : Path) :
    Program (World Event) (Option CredentialRecord) := do
  match ← readRecord crypto fileName with
  | none => return none
  | some (record, embedded) =>
    match ← counterFloorValidateFields crypto fileName record.credentialId record.createdAt
        record.signCount embedded with
    | none => return none
    | some (signCount, _) => return some { record with signCount }

/-- `zf_store_index_entry_from_record`. -/
def indexEntryFromRecord (record : CredentialRecord) : CredentialIndexEntry where
  inUse := record.inUse
  residentKey := record.residentKey
  credentialId := record.credentialId
  rpIdHash := crypto.sha256 record.rpId
  signCount := record.signCount
  counterHighWater := record.signCount
  createdAt := record.createdAt
  credProtect := credProtectEffective record.credProtect

/-- `zf_store_record_format_load_index_with_buffer`. -/
def recordFormatLoadIndex (fileName : Path) :
    Program (World Event) (Option CredentialIndexEntry) := do
  match ← readRecord crypto fileName with
  | none => return none
  | some (record, embedded) =>
    let entry := indexEntryFromRecord crypto record
    match ← counterFloorValidateFields crypto fileName entry.credentialId entry.createdAt
        entry.signCount embedded with
    | none => return none
    | some (signCount, counterHighWater) => return some { entry with signCount, counterHighWater }

/-- `zf_store_record_format_write_record_with_buffer`. -/
def recordFormatWriteRecord (record : CredentialRecord) : Program (World Event) Bool := do
  match ← recordFormatEncode crypto record with
  | none => return false
  | some data => writeFileAtomic (recordPath record.fileName) (tempPath record.fileName) data

/-- `zf_store_record_format_reserve_counter_with_buffer`: the new high water. -/
def recordFormatReserveCounter (record : CredentialRecord) :
    Program (World Event) (Option ℕ) := do
  let highWater := counterReservedHighWater record.signCount
  if !(← counterFloorWriteValueFields crypto record.fileName record.credentialId record.createdAt
      highWater) then
    return none
  if !(← recordFormatWriteRecord crypto { record with signCount := highWater }) then
    return none
  return some highWater

/-- `zf_store_recovery_remove_record_paths`. -/
def recoveryRemoveRecordPaths (fileName : Path) : Program (World Event) Bool :=
  removeAtomicFile (recordPath fileName) (tempPath fileName) <&&>
    removeAtomicFile (counterFloorPath fileName) (counterFloorTempPath fileName)

end Operations

section Paths

variable {name : Path}

theorem backupOf_childPath (file : Path) :
    backupOf (childPath file) = childPath (file ++ ".bak".toList) := by
  simp [backupOf, childPath]

theorem length_childPath (file : Path) : (childPath file).length = 24 + file.length := by
  have hdir : appDataDir.length = 23 := by decide +kernel
  rw [childPath, List.length_append, List.length_cons, hdir]
  omega

theorem childPath_ne_nil (file : Path) : childPath file ≠ [] := by
  have hlength := length_childPath file
  intro hnil
  rw [hnil, List.length_nil] at hlength
  omega

/-- The names of an atomic file of a record. -/
theorem atomicPaths_of_suffix {suffix temp : Path} (hname : isRecordName name = true)
    (hlength : suffix.length ≤ 8) (htemp : temp ≠ suffix) (hbackup : temp ≠ suffix ++ ".bak".toList) :
    AtomicPaths (childPath (name ++ suffix)) (childPath (name ++ temp)) := by
  refine ⟨childPath_ne_nil _, ?_, ?_, ?_⟩
  · have hbuffer : pathBufferSize = 192 := rfl
    rw [length_childPath, List.length_append, length_of_isRecordName hname]
    omega
  · intro h
    exact htemp (recordName_append_inj hname hname h).2
  · intro h
    rw [backupOf_childPath, List.append_assoc] at h
    exact hbackup (recordName_append_inj hname hname h).2

theorem recordPath_eq (name : Path) : recordPath name = childPath (name ++ []) := by
  rw [List.append_nil]
  rfl

theorem atomicPaths_record (hname : isRecordName name = true) :
    AtomicPaths (recordPath name) (tempPath name) := by
  rw [recordPath_eq]
  exact atomicPaths_of_suffix hname (by decide) (by decide) (by decide)

theorem atomicPaths_counterFloor (hname : isRecordName name = true) :
    AtomicPaths (counterFloorPath name) (counterFloorTempPath name) :=
  atomicPaths_of_suffix hname (by decide) (by decide) (by decide)

end Paths

section Specifications

variable {Event : Type} {world world' world'' : World Event} {path temp : Path}
  {fresh : Bytes → Prop}

/-- An atomic file keeps its contents or gets fresh ones, and no other file is touched. -/
structure Rewrites (path temp : Path) (fresh : Bytes → Prop) (world world' : World Event) : Prop
    extends Quiet world world' where
  frame : ∀ other, other ≠ path → other ≠ backupOf path → other ≠ temp →
    world'.files other = world.files other
  holds : logical world'.files path = logical world.files path ∨
    ∃ data, fresh data ∧ logical world'.files path = some data

theorem Idle.rewrites (h : Idle world world') : Rewrites path temp fresh world world' :=
  ⟨h.toQuiet, fun _ _ _ _ ↦ by rw [h.files_eq], Or.inl (by rw [h.files_eq])⟩

theorem Rewrites.trans (h : Rewrites path temp fresh world world')
    (h' : Rewrites path temp fresh world' world'') : Rewrites path temp fresh world world'' := by
  refine ⟨h.toQuiet.trans h'.toQuiet, fun other hpath hbackup htemp ↦ ?_, ?_⟩
  · rw [h'.frame other hpath hbackup htemp, h.frame other hpath hbackup htemp]
  · obtain hholds | hfresh := h'.holds
    · rw [hholds]
      exact h.holds
    · exact Or.inr hfresh

theorem Rewrites.of_moves {data : Bytes} (hdata : fresh data)
    (h : Moves path temp (some data) world world') : Rewrites path temp fresh world world' :=
  ⟨h.only.quiet, h.frame, h.holds.imp id fun hholds ↦ ⟨data, hdata, hholds⟩⟩

variable {crypto : Crypto} {name : Path} {credentialId : Bytes} {createdAt signCount : ℕ}

/-- What a counter floor file of the credential may be rewritten to. -/
def SealsCount (crypto : Crypto) (credentialId : Bytes) (createdAt signCount : ℕ) (raw : Bytes) :
    Prop :=
  signCount ≤ uint32Max → CounterFloor crypto credentialId createdAt raw signCount

/-- Writing a counter floor. -/
theorem ensures_counterFloorWriteValueFields (hlaws : SealLaws crypto)
    (hname : isRecordName name = true) :
    Ensures (counterFloorWriteValueFields crypto name credentialId createdAt signCount)
      (fun ok world' ↦
        Rewrites (counterFloorPath name) (counterFloorTempPath name)
          (SealsCount crypto credentialId createdAt signCount) world world' ∧
        (ok = true → ∃ raw, SealsCount crypto credentialId createdAt signCount raw ∧
          world'.files (counterFloorPath name) = some raw) ∧
        (ok = false → world.enclave ≠ [] ∨ world.writes ≠ []))
      (fun world' ↦ Rewrites (counterFloorPath name) (counterFloorTempPath name)
        (SealsCount crypto credentialId createdAt signCount) world world' ∧ world.writes ≠ [])
      world := by
  simp only [counterFloorWriteValueFields, ensures_bind]
  refine ensures_counterFloorEncodeFields hlaws fun result middle hidle hnone hraw ↦ ?_
  cases result with
  | none => exact ⟨Idle.rewrites hidle, by simp, fun _ ↦ Or.inl (hnone rfl)⟩
  | some raw =>
    obtain ⟨hne, hseals⟩ := hraw raw rfl
    have hwrites : middle.writes ≠ [] → world.writes ≠ [] :=
      fun hmiddle hnil ↦ hmiddle (hidle.writes_nil hnil)
    refine (ensures_writeFileAtomic (atomicPaths_counterFloor hname) hne).mono ?_ ?_
    · rintro ok final ⟨hmoves, hdone, hfailed⟩
      exact ⟨(Idle.rewrites hidle).trans (Rewrites.of_moves hseals hmoves),
        fun hok ↦ ⟨raw, hseals, hdone hok⟩, fun hok ↦ Or.inr (hwrites (hfailed hok))⟩
    · rintro final ⟨hmoves, hlisted⟩
      exact ⟨(Idle.rewrites hidle).trans (Rewrites.of_moves hseals hmoves), hwrites hlisted⟩

/-- Writing a record. -/
theorem ensures_recordFormatWriteRecord (hlaws : SealLaws crypto) {record : CredentialRecord}
    (hrecord : record.WellFormed) :
    Ensures (recordFormatWriteRecord crypto record)
      (fun ok world' ↦
        Rewrites (recordPath record.fileName) (tempPath record.fileName)
          (fun data ↦ Recorded crypto data record) world world' ∧
        (ok = true → ∃ data, Recorded crypto data record ∧
          world'.files (recordPath record.fileName) = some data) ∧
        (ok = false → world.enclave ≠ [] ∨ world.writes ≠ []))
      (fun world' ↦ Rewrites (recordPath record.fileName) (tempPath record.fileName)
        (fun data ↦ Recorded crypto data record) world world' ∧ world.writes ≠ []) world := by
  have hname : isRecordName record.fileName = true := by
    rw [hrecord.fileName]
    exact isRecordName_hexEncode hrecord.credentialId
  simp only [recordFormatWriteRecord, ensures_bind]
  refine ensures_recordFormatEncode hlaws hrecord fun result middle hidle hnone hdata ↦ ?_
  cases result with
  | none => exact ⟨Idle.rewrites hidle, by simp, fun _ ↦ Or.inl (hnone rfl)⟩
  | some data =>
    have hrecorded := hdata data rfl
    have hwrites : middle.writes ≠ [] → world.writes ≠ [] :=
      fun hmiddle hnil ↦ hmiddle (hidle.writes_nil hnil)
    refine (ensures_writeFileAtomic (atomicPaths_record hname) hrecorded.nonempty).mono ?_ ?_
    · rintro ok final ⟨hmoves, hdone, hfailed⟩
      exact ⟨(Idle.rewrites hidle).trans (Rewrites.of_moves hrecorded hmoves),
        fun hok ↦ ⟨data, hrecorded, hdone hok⟩, fun hok ↦ Or.inr (hwrites (hfailed hok))⟩
    · rintro final ⟨hmoves, hlisted⟩
      exact ⟨(Idle.rewrites hidle).trans (Rewrites.of_moves hrecorded hmoves), hwrites hlisted⟩

/-- What is in a record file. -/
def recordFound (crypto : Crypto) (files : Path → Option Bytes) (name : Path) :
    Option (CredentialRecord × Option Bytes) := do
  let data ← files (recordPath name)
  if 0 < data.length ∧ data.length ≤ storeRecordMaxSize then recordValue crypto data name else none

theorem signCount_recordFound {files : Path → Option Bytes} {record : CredentialRecord}
    {embedded : Option Bytes} (h : recordFound crypto files name = some (record, embedded)) :
    record.signCount ≤ uint32Max := by
  obtain ⟨data, -, h⟩ := Option.bind_eq_some_iff.mp h
  split_ifs at h
  exact signCount_recordValue h

/-- The sign count the counter floor leads to for a record with the given count: a floor in a file
may raise it, and an embedded floor must agree with it. -/
def countFound (crypto : Crypto) (files : Path → Option Bytes) (name : Path) (credentialId : Bytes)
    (createdAt signCount : ℕ) (embedded : Option Bytes) : Option ℕ :=
  match files (counterFloorPath name), embedded with
  | some raw, _ =>
    if raw.length = counterFloorFileSize then
      (counterFloorValue crypto credentialId createdAt raw).map (max signCount)
    else none
  | none, some raw =>
    if counterFloorValue crypto credentialId createdAt raw = some signCount then some signCount
    else none
  | none, none => some signCount

/-- Whether validating the count writes a counter floor: the stored one is lower than the record's
count, or there is none. -/
def writesFloor (crypto : Crypto) (files : Path → Option Bytes) (name : Path) (credentialId : Bytes)
    (createdAt signCount : ℕ) (embedded : Option Bytes) : Prop :=
  match files (counterFloorPath name), embedded with
  | some raw, _ =>
    ∃ stored < signCount, counterFloorValue crypto credentialId createdAt raw = some stored
  | none, some _ => False
  | none, none => True

/-- Reading and decoding a record file gives what is in it, unless a call fails. -/
theorem ensures_readRecord {post : Option (CredentialRecord × Option Bytes) → World Event → Prop}
    {crash : World Event → Prop}
    (h : ∀ result world', Idle world world' →
      (result = recordFound crypto world.files name ∨
        result = none ∧ (world.reads ≠ [] ∨ world.enclave ≠ [])) → post result world') :
    Ensures (readRecord crypto name) post crash world := by
  simp only [readRecord, ensures_bind]
  refine ensures_readFile fun result middle hidle hread hcomplete ↦ ?_
  cases result with
  | none =>
    refine h none middle hidle ?_
    by_cases hreads : world.reads = []
    · refine Or.inl ?_
      unfold recordFound
      cases hfile : world.files (recordPath name) with
      | none => rfl
      | some data =>
        by_cases hsize : 0 < data.length ∧ data.length ≤ storeRecordMaxSize
        · exact absurd (hcomplete data hfile hsize.1 hsize.2 hreads) (by simp)
        · simp [hsize]
    · exact Or.inr ⟨rfl, Or.inl hreads⟩
  | some data =>
    obtain ⟨hfile, hsize⟩ := hread data rfl
    have hfound : recordFound crypto world.files name = recordValue crypto data name := by
      simp [recordFound, hfile, hsize]
    refine ensures_recordDecode fun result' final hidle' hresult ↦ ?_
    refine h result' final (hidle.trans hidle') ?_
    rw [hfound]
    exact hresult.imp_right (And.imp_right fun henclave ↦ Or.inr (hidle.enclave_ne_nil henclave))

/-- The counter floor file is one with the count. -/
def FloorHolds (crypto : Crypto) (files : Path → Option Bytes) (name : Path) (credentialId : Bytes)
    (createdAt signCount : ℕ) : Prop :=
  ∃ raw, files (counterFloorPath name) = some raw ∧
    CounterFloor crypto credentialId createdAt raw signCount

/-- What validating a count comes to: the files it leaves, and its result. Unless the count was
taken from an embedded floor, the file has it in the end. -/
structure Validated (crypto : Crypto) (name : Path) (credentialId : Bytes) (createdAt signCount : ℕ)
    (embedded : Option Bytes) (world : World Event) (result : Option (ℕ × ℕ))
    (world' : World Event) : Prop where
  rewrites : Rewrites (counterFloorPath name) (counterFloorTempPath name)
    (SealsCount crypto credentialId createdAt signCount) world world'
  untouched : ¬writesFloor crypto world.files name credentialId createdAt signCount embedded →
    world'.files = world.files
  result_eq : result = (countFound crypto world.files name credentialId createdAt signCount
      embedded).map (fun count ↦ (count, count)) ∨
    result = none ∧ (world.reads ≠ [] ∨ world.enclave ≠ [] ∨ world.writes ≠ [] ∧
      writesFloor crypto world.files name credentialId createdAt signCount embedded)
  floored : ∀ counts, result = some counts →
    (world.files (counterFloorPath name)).isSome ∨ embedded = none → signCount ≤ uint32Max →
    FloorHolds crypto world'.files name credentialId createdAt counts.1

theorem Validated.of_idle {embedded : Option Bytes} {result : Option (ℕ × ℕ)}
    (hidle : Idle world world')
    (hfloored : ∀ counts, result = some counts →
      (world.files (counterFloorPath name)).isSome ∨ embedded = none →
      FloorHolds crypto world.files name credentialId createdAt counts.1)
    (hresult : result = (countFound crypto world.files name credentialId createdAt signCount
      embedded).map (fun count ↦ (count, count)) ∨
        result = none ∧ (world.reads ≠ [] ∨ world.enclave ≠ [])) :
    Validated crypto name credentialId createdAt signCount embedded world result world' := by
  refine ⟨Idle.rewrites hidle, fun _ ↦ hidle.files_eq, hresult.imp id ?_, ?_⟩
  · rintro ⟨hnone, hfailed⟩
    exact ⟨hnone, hfailed.imp id Or.inl⟩
  · intro counts hcounts hfile _
    rw [hidle.files_eq]
    exact hfloored counts hcounts hfile

/-- The branches of the validation that write the floor. -/
theorem ensures_validated_write (hlaws : SealLaws crypto) (hname : isRecordName name = true)
    {embedded : Option Bytes} {middle : World Event} (hidle : Idle world middle)
    (hwrites : writesFloor crypto world.files name credentialId createdAt signCount embedded)
    (hcount : countFound crypto world.files name credentialId createdAt signCount embedded =
      some signCount) :
    Ensures (do
        if !(← counterFloorWriteValueFields crypto name credentialId createdAt signCount) then
          return none
        return some (signCount, signCount))
      (fun result world' ↦
        Validated crypto name credentialId createdAt signCount embedded world result world')
      (fun world' ↦ Rewrites (counterFloorPath name) (counterFloorTempPath name)
        (SealsCount crypto credentialId createdAt signCount) world world' ∧
        writesFloor crypto world.files name credentialId createdAt signCount embedded ∧
        world.writes ≠ []) middle := by
  have hlisted : middle.writes ≠ [] → world.writes ≠ [] :=
    fun hmiddle hnil ↦ hmiddle (hidle.writes_nil hnil)
  simp only [ensures_bind]
  refine (ensures_counterFloorWriteValueFields hlaws hname).mono ?_ ?_
  · rintro ok final ⟨hrewrites, hdone, hfailed⟩
    have htotal := (Idle.rewrites hidle).trans hrewrites
    cases ok with
    | true =>
      refine ⟨htotal, fun hnot ↦ absurd hwrites hnot, Or.inl ?_, ?_⟩
      · rw [hcount, Option.map_some]
      · intro counts hcounts _ hbound
        obtain ⟨raw, hseals, hfile⟩ := hdone rfl
        rw [← Option.some.inj hcounts]
        exact ⟨raw, hfile, hseals hbound⟩
    | false =>
      refine ⟨htotal, fun hnot ↦ absurd hwrites hnot, Or.inr ⟨rfl, Or.inr ?_⟩, ?_⟩
      · exact (hfailed rfl).imp hidle.enclave_ne_nil fun hmiddle ↦ ⟨hlisted hmiddle, hwrites⟩
      · intro counts hcounts
        exact absurd hcounts (by simp)
  · rintro final ⟨hrewrites, hmiddle⟩
    exact ⟨(Idle.rewrites hidle).trans hrewrites, hwrites, hlisted hmiddle⟩

/-- Validating a sign count against the counter floor. -/
theorem ensures_counterFloorValidateFields (hlaws : SealLaws crypto)
    (hname : isRecordName name = true) {embedded : Option Bytes} :
    Ensures (counterFloorValidateFields crypto name credentialId createdAt signCount embedded)
      (fun result world' ↦
        Validated crypto name credentialId createdAt signCount embedded world result world')
      (fun world' ↦ Rewrites (counterFloorPath name) (counterFloorTempPath name)
        (SealsCount crypto credentialId createdAt signCount) world world' ∧
        writesFloor crypto world.files name credentialId createdAt signCount embedded ∧
        world.writes ≠ []) world := by
  simp only [counterFloorValidateFields, ensures_bind, ensures_fileExists]
  cases hfile : world.files (counterFloorPath name) with
  | none =>
    simp only [Option.isSome_none, Bool.not_false, if_true]
    cases embedded with
    | none =>
      exact ensures_validated_write hlaws hname (Idle.refl world) (by simp [writesFloor, hfile])
        (by simp [countFound, hfile])
    | some raw =>
      have hcount : countFound crypto world.files name credentialId createdAt signCount
          (some raw) = if counterFloorValue crypto credentialId createdAt raw = some signCount
            then some signCount else none := by
        simp [countFound, hfile]
      simp only [ensures_bind]
      refine ensures_counterFloorDecodeFields fun result world' hidle hresult ↦ ?_
      obtain rfl | ⟨rfl, henclave⟩ := hresult
      · cases hvalue : counterFloorValue crypto credentialId createdAt raw with
        | none =>
          refine Validated.of_idle hidle (by simp) (Or.inl ?_)
          rw [hcount, hvalue]
          rfl
        | some stored =>
          simp only [ensures_ite, ensures_pure]
          refine ⟨fun hne ↦ ?_, fun heq ↦ ?_⟩
          · refine Validated.of_idle hidle (by simp) (Or.inl ?_)
            rw [hcount, hvalue, if_neg (by simpa using hne)]
            rfl
          · obtain rfl : stored = signCount := not_not.mp heq
            refine Validated.of_idle hidle (by simp [hfile]) (Or.inl ?_)
            rw [hcount, hvalue, if_pos rfl]
            rfl
      · exact Validated.of_idle hidle (by simp) (Or.inr ⟨rfl, Or.inr henclave⟩)
  | some raw =>
    have hcount : countFound crypto world.files name credentialId createdAt signCount embedded =
        if raw.length = counterFloorFileSize then
          (counterFloorValue crypto credentialId createdAt raw).map (max signCount) else none := by
      simp [countFound, hfile]
    simp only [Option.isSome_some, Bool.not_true, Bool.false_eq_true, if_false, ensures_bind]
    refine ensures_readFile fun result middle hidle hread hcomplete ↦ ?_
    cases result with
    | none =>
      refine Validated.of_idle hidle (by simp) ?_
      by_cases hreads : world.reads = []
      · refine Or.inl ?_
        rw [hcount, if_neg fun hlength ↦ ?_, Option.map_none]
        have := hcomplete raw hfile (by rw [hlength]; decide) (Nat.le_of_eq hlength) hreads
        exact absurd this (by simp)
      · exact Or.inr ⟨rfl, Or.inl hreads⟩
    | some data =>
      obtain rfl : raw = data := Option.some.inj (hfile.symm.trans (hread data rfl).1)
      simp only [ensures_ite, ensures_pure, ensures_bind]
      refine ⟨fun hlength ↦ ?_, fun hlength ↦ ?_⟩
      · refine Validated.of_idle hidle (by simp) (Or.inl ?_)
        rw [hcount, if_neg hlength, Option.map_none]
      · rw [if_pos (not_not.mp hlength)] at hcount
        refine ensures_counterFloorDecodeFields fun result third hidle' hresult ↦ ?_
        have htotal := hidle.trans hidle'
        obtain rfl | ⟨rfl, henclave⟩ := hresult
        · cases hvalue : counterFloorValue crypto credentialId createdAt raw with
          | none =>
            refine Validated.of_idle htotal (by simp) (Or.inl ?_)
            rw [hcount, hvalue]
            rfl
          | some stored =>
            have hholds : FloorHolds crypto world.files name credentialId createdAt stored :=
              ⟨raw, hfile, not_not.mp hlength, hvalue⟩
            rw [hvalue, Option.map_some] at hcount
            simp only [ensures_ite, ensures_pure]
            refine ⟨fun hlow ↦ ?_, fun hlow ↦ ⟨fun hhigh ↦ ?_, fun hhigh ↦ ?_⟩⟩
            · refine Validated.of_idle htotal
                (fun counts hcounts _ ↦ Option.some.inj hcounts ▸ hholds) (Or.inl ?_)
              rw [hcount, max_eq_right (Nat.le_of_lt hlow), Option.map_some]
            · refine ensures_validated_write hlaws hname htotal ?_ ?_
              · simp only [writesFloor, hfile]
                exact ⟨stored, hhigh, hvalue⟩
              · rw [hcount, max_eq_left (Nat.le_of_lt hhigh)]
            · obtain rfl : stored = signCount := by omega
              refine Validated.of_idle htotal
                (fun counts hcounts _ ↦ Option.some.inj hcounts ▸ hholds) (Or.inl ?_)
              rw [hcount, max_self, Option.map_some]
        · exact Validated.of_idle htotal (by simp) (Or.inr ⟨rfl, Or.inr (hidle.enclave_ne_nil henclave)⟩)

/-- What a load gives when nothing fails. -/
def loadFound (crypto : Crypto) (files : Path → Option Bytes) (name : Path) :
    Option CredentialRecord := do
  let (record, embedded) ← recordFound crypto files name
  let signCount ← countFound crypto files name record.credentialId record.createdAt
    record.signCount embedded
  return { record with signCount }

/-- Whether a load writes the counter floor. -/
def LoadWrites (crypto : Crypto) (files : Path → Option Bytes) (name : Path) : Prop :=
  ∃ record embedded, recordFound crypto files name = some (record, embedded) ∧
    writesFloor crypto files name record.credentialId record.createdAt record.signCount embedded

/-- The counter floor a load may write: one for the count in the record. -/
def LoadFloor (crypto : Crypto) (files : Path → Option Bytes) (name : Path) (raw : Bytes) : Prop :=
  ∃ record embedded, recordFound crypto files name = some (record, embedded) ∧
    SealsCount crypto record.credentialId record.createdAt record.signCount raw

/-- What a load comes to, seen through `view`. -/
structure Loaded {Value : Type} (crypto : Crypto) (name : Path) (view : CredentialRecord → Value)
    (world : World Event) (result : Option Value) (world' : World Event) : Prop where
  rewrites : Rewrites (counterFloorPath name) (counterFloorTempPath name)
    (LoadFloor crypto world.files name) world world'
  untouched : ¬LoadWrites crypto world.files name → world'.files = world.files
  result_eq : result = (loadFound crypto world.files name).map view ∨
    result = none ∧ (world.reads ≠ [] ∨ world.enclave ≠ [] ∨ world.writes ≠ [] ∧
      LoadWrites crypto world.files name)
  floored : ∀ record embedded count, recordFound crypto world.files name = some (record, embedded) →
    countFound crypto world.files name record.credentialId record.createdAt record.signCount
      embedded = some count → result.isSome →
    (world.files (counterFloorPath name)).isSome ∨ embedded = none →
    FloorHolds crypto world'.files name record.credentialId record.createdAt count

/-- How an interrupted load leaves the files. -/
structure LoadCut (crypto : Crypto) (name : Path) (world world' : World Event) : Prop where
  rewrites : Rewrites (counterFloorPath name) (counterFloorTempPath name)
    (LoadFloor crypto world.files name) world world'
  writes : LoadWrites crypto world.files name
  listed : world.writes ≠ []

/-- Both loads read the record, validate its count and return a view of the result. -/
theorem ensures_load {Value : Type} (hlaws : SealLaws crypto) (hname : isRecordName name = true)
    {view : CredentialRecord → Value} (finish : CredentialRecord → ℕ × ℕ → Value)
    (hview : ∀ record count, finish record (count, count) = view { record with signCount := count })
    {load : Program (World Event) (Option Value)}
    (hload : load = do
      match ← readRecord crypto name with
      | none => return none
      | some (record, embedded) =>
        match ← counterFloorValidateFields crypto name record.credentialId record.createdAt
            record.signCount embedded with
        | none => return none
        | some (signCount, highWater) => return some (finish record (signCount, highWater))) :
    Ensures load (fun result world' ↦ Loaded crypto name view world result world')
      (fun world' ↦ LoadCut crypto name world world') world := by
  subst hload
  simp only [ensures_bind]
  refine ensures_readRecord fun found middle hidle hfound ↦ ?_
  have hnone : found = none → Loaded crypto name view world none middle := by
    rintro rfl
    refine ⟨Idle.rewrites hidle, fun _ ↦ hidle.files_eq, ?_, by simp⟩
    obtain hnone | ⟨-, hfailed⟩ := hfound
    · exact Or.inl (by rw [loadFound, ← hnone]; rfl)
    · exact Or.inr ⟨rfl, hfailed.imp id Or.inl⟩
  cases found with
  | none => exact hnone rfl
  | some found =>
    obtain ⟨record, embedded⟩ := found
    obtain hrecord | ⟨habsurd, -⟩ := hfound
    swap
    · exact absurd habsurd (by simp)
    -- The validation starts from the same files and with a suffix of the outcomes.
    have hfloor : ∀ raw, SealsCount crypto record.credentialId record.createdAt record.signCount
        raw → LoadFloor crypto world.files name raw :=
      fun raw hraw ↦ ⟨record, embedded, hrecord.symm, hraw⟩
    have hrewrites : ∀ final, Rewrites (counterFloorPath name) (counterFloorTempPath name)
        (SealsCount crypto record.credentialId record.createdAt record.signCount) middle final →
        Rewrites (counterFloorPath name) (counterFloorTempPath name)
          (LoadFloor crypto world.files name) world final := by
      intro final hfinal
      refine (Idle.rewrites hidle).trans ⟨hfinal.toQuiet, hfinal.frame, hfinal.holds.imp id ?_⟩
      rintro ⟨raw, hraw, hholds⟩
      exact ⟨raw, hfloor raw hraw, hholds⟩
    have hwrites : writesFloor crypto middle.files name record.credentialId record.createdAt
        record.signCount embedded → LoadWrites crypto world.files name := by
      intro h
      rw [hidle.files_eq] at h
      exact ⟨record, embedded, hrecord.symm, h⟩
    simp only [ensures_bind]
    refine (ensures_counterFloorValidateFields hlaws hname).mono ?_ ?_
    · intro validated final hvalidated
      have hresult : validated.map (finish record) =
          (loadFound crypto world.files name).map view ∨
          validated = none ∧ (world.reads ≠ [] ∨ world.enclave ≠ [] ∨ world.writes ≠ [] ∧
            LoadWrites crypto world.files name) := by
        obtain heq | ⟨hvalidatedNone, hfailed⟩ := hvalidated.result_eq
        · refine Or.inl ?_
          rw [heq, hidle.files_eq, loadFound, ← hrecord]
          cases hcount : countFound crypto world.files name record.credentialId record.createdAt
            record.signCount embedded with
          | none => simp [hcount]
          | some count => simp [hcount, hview]
        · refine Or.inr ⟨hvalidatedNone, ?_⟩
          obtain hreads | henclave | ⟨hlisted, hwritten⟩ := hfailed
          · exact Or.inl (hidle.reads_ne_nil hreads)
          · exact Or.inr (Or.inl (hidle.enclave_ne_nil henclave))
          · exact Or.inr (Or.inr ⟨fun hnil ↦ hlisted (hidle.writes_nil hnil), hwrites hwritten⟩)
      have hloaded : Loaded crypto name view world (validated.map (finish record)) final := by
        refine ⟨hrewrites final hvalidated.rewrites, fun hnot ↦ ?_, hresult.imp id ?_, ?_⟩
        · rw [hvalidated.untouched fun h ↦ hnot (hwrites h), hidle.files_eq]
        · rintro ⟨rfl, hfailed⟩
          exact ⟨rfl, hfailed⟩
        · intro record' embedded' count hfound hcount hsome hfile
          have hbound := signCount_recordFound hfound
          obtain ⟨rfl, rfl⟩ := Prod.mk.inj (Option.some.inj (hrecord.trans hfound))
          obtain ⟨counts, hcounts⟩ := Option.isSome_iff_exists.mp (Option.isSome_map ▸ hsome)
          rw [← hidle.files_eq] at hfile hcount
          have hholds := hvalidated.floored counts hcounts hfile hbound
          obtain heq | ⟨hnone, -⟩ := hvalidated.result_eq
          · rw [hcounts, hcount, Option.map_some] at heq
            rwa [Option.some.inj heq] at hholds
          · exact absurd (hcounts.symm.trans hnone) (by simp)
      cases validated with
      | none => exact hloaded
      | some count => exact hloaded
    · rintro final ⟨hfinal, hwritten, hlisted⟩
      exact ⟨hrewrites final hfinal, hwrites hwritten, fun hnil ↦ hlisted (hidle.writes_nil hnil)⟩

theorem ensures_recordFormatLoadRecord (hlaws : SealLaws crypto) (hname : isRecordName name = true) :
    Ensures (recordFormatLoadRecord crypto name)
      (fun result world' ↦ Loaded crypto name id world result world')
      (fun world' ↦ LoadCut crypto name world world') world :=
  ensures_load hlaws hname (fun record counts ↦ { record with signCount := counts.1 })
    (fun _ _ ↦ rfl) rfl

theorem ensures_recordFormatLoadIndex (hlaws : SealLaws crypto) (hname : isRecordName name = true) :
    Ensures (recordFormatLoadIndex crypto name)
      (fun result world' ↦ Loaded crypto name (indexEntryFromRecord crypto) world result world')
      (fun world' ↦ LoadCut crypto name world world') world :=
  ensures_load hlaws hname
    (fun record counts ↦ { indexEntryFromRecord crypto record with
      signCount := counts.1, counterHighWater := counts.2 })
    (fun _ _ ↦ rfl) rfl

end Specifications

section Samples

/-- A resident credential of the RP `a` whose id repeats one byte. -/
def sampleRecord (tag : UInt8) (credProtect : ℕ) : CredentialRecord :=
  { inUse := true
    residentKey := true
    fileName := hexEncode (List.replicate credentialIdLen tag)
    storageVersion := storeFormatVersion
    credentialId := List.replicate credentialIdLen tag
    rpId := [97]
    userId := [tag]
    createdAt := tag.toNat
    credProtect }

/-- Writes the files of several credentials. -/
def writeRecords {Event : Type} : List CredentialRecord → Program (World Event) Bool
  | [] => return true
  | record :: rest => recordFormatWriteRecord Crypto.standIn record <&&> writeRecords rest

theorem wellFormed_sampleRecord (tag : UInt8) {credProtect : ℕ}
    (h : credProtectValueIsValid credProtect = true) :
    (sampleRecord tag credProtect).WellFormed where
  inUse := rfl
  fileName := rfl
  storageVersion := rfl
  credentialId := List.length_replicate
  rpId := show TextField [97] maxRpIdLen from ⟨by decide, by decide, by decide⟩
  rpId_ne := by simp [sampleRecord]
  userId := by simp [sampleRecord, maxUserIdLen]
  userName := show TextField [] maxUserNameLen from ⟨by decide, by decide, by decide⟩
  userDisplayName := show TextField [] maxDisplayNameLen from ⟨by decide, by decide, by decide⟩
  publicX := List.length_replicate
  publicY := List.length_replicate
  privateWrapped := List.length_replicate
  privateIv := List.length_replicate
  signCount := Nat.zero_le _
  createdAt := by
    have hbound : tag.toNat < 256 := tag.toNat_lt
    simp only [sampleRecord, uint32Max]
    omega
  credProtect := h
  hmacSecretWithoutUv := List.length_replicate
  hmacSecretWithUv := List.length_replicate
  noSecret := fun _ ↦ ⟨rfl, rfl⟩

/-- The files of a device with one credential. -/
def sampleFiles : Path → Option Bytes :=
  (Process.leaves (writeRecords [sampleRecord 1 1]) (World.blank Unit)).files

theorem isRecordName_sampleRecord : isRecordName (sampleRecord 1 1).fileName = true :=
  isRecordName_hexEncode List.length_replicate

/-- There is its record file, and no other. -/
theorem sampleFiles_eq :
    (∃ data, sampleFiles (recordPath (sampleRecord 1 1).fileName) = some data ∧
      Recorded Crypto.standIn data (sampleRecord 1 1)) ∧
    ∀ path, path ≠ recordPath (sampleRecord 1 1).fileName →
      path ≠ tempPath (sampleRecord 1 1).fileName → sampleFiles path = none := by
  generalize hrecord : sampleRecord 1 1 = record
  have hwellFormed : record.WellFormed := by
    rw [← hrecord]
    exact wellFormed_sampleRecord 1 (by decide)
  have hspec : Ensures (writeRecords [record])
      (fun ok world' ↦ Rewrites (recordPath record.fileName) (tempPath record.fileName)
        (fun data ↦ Recorded Crypto.standIn data record) (World.blank _) world' ∧
        (ok = true → ∃ data, world'.files (recordPath record.fileName) = some data ∧
          Recorded Crypto.standIn data record))
      (fun _ ↦ True) (World.blank Unit) := by
    rw [writeRecords, ensures_andM]
    refine (ensures_recordFormatWriteRecord sealLaws_standIn hwellFormed).mono ?_
      fun _ _ ↦ trivial
    rintro ok final ⟨hrewrites, hdone, -⟩
    refine ⟨fun hok ↦ ⟨hrewrites, fun _ ↦ ?_⟩, fun hok ↦ ⟨hrewrites, by simp⟩⟩
    obtain ⟨data, hrecorded, hfile⟩ := hdone hok
    exact ⟨data, hfile, hrecorded⟩
  have hbackup : sampleFiles (backupOf (recordPath record.fileName)) = none := by
    rw [← hrecord]
    decide +kernel
  have hdone : resultOf (writeRecords [record]) (World.blank Unit) = some true := by
    rw [← hrecord]
    decide +kernel
  rw [sampleFiles, hrecord] at hbackup ⊢
  unfold resultOf at hdone
  unfold Process.leaves at hbackup ⊢
  cases hrun : (writeRecords [record]).run (World.blank Unit) with
  | error reason final =>
    rw [hrun] at hdone
    exact absurd hdone (by simp)
  | ok ok final =>
    rw [hrun] at hdone hbackup
    obtain ⟨hrewrites, hwritten⟩ := hspec.of_run hrun
    refine ⟨hwritten (Option.some.inj hdone), fun path hpath htemp ↦ ?_⟩
    by_cases hsame : path = backupOf (recordPath record.fileName)
    · rw [hsame]
      exact hbackup
    · exact hrewrites.frame path hpath hsame htemp

/-- It has no file with another suffix. -/
theorem sampleFiles_suffix {name suffix : Path} (hname : isRecordName name = true)
    (hsuffix : suffix ≠ []) (htemp : suffix ≠ ".tmp".toList) :
    sampleFiles (childPath (name ++ suffix)) = none := by
  have hsample := isRecordName_sampleRecord
  refine sampleFiles_eq.2 _ ?_ ?_
  · rw [recordPath_eq]
    exact fun h ↦ hsuffix (recordName_append_inj hname hsample h).2
  · exact fun h ↦ htemp (recordName_append_inj hname hsample h).2

/-- Only that credential has a record file. -/
theorem eq_sampleRecord_of_file {name : Path} (hname : isRecordName name = true)
    (hsome : sampleFiles (recordPath name) ≠ none) : name = (sampleRecord 1 1).fileName := by
  have hsample := isRecordName_sampleRecord
  by_contra hne
  refine hsome (sampleFiles_eq.2 _ ?_ ?_)
  · exact fun h ↦ hne (childPath_injective h)
  · rw [recordPath_eq]
    exact fun h ↦ hne (recordName_append_inj hname hsample h).1

end Samples

end ZeroFido.Store
