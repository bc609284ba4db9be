import ZeroFido.Cbor.Primitives
import ZeroFido.Store.Recovery
import ZeroFido.Store.StoredRecords

/-!
# The sign counts of a credential

A sign count is kept in the record file and in the counter floor, and both are replaced one after
the other when a window of counts is reserved. `CountsFrom` says how far a credential has come: the
count of its record, in the primary file or else in the backup, is at least a given one, and the
counter floor is not behind the record. Every count on the card is the end of a window
(`WindowEnd`), so two different ones are at least two apart.

An index entry is `Settled` when it was made from the files as they are, with a high-water mark at
the end of a window, or when the record has reached its high-water mark. `Settled.mark_lt` is why
that matters: a settled entry does not let a count be emitted without a reservation.

Loads, deletions and startups only let a credential's files fade: the two contents stay or go
(`Fades`). A reservation moves the counter floor and then the record (`Reserves`).
-/

set_option autoImplicit false
set_option relaxedAutoImplicit false

namespace ZeroFido.Store

open Foundations Storage

section WindowEnds

/-- The end of a window of reserved sign counts, when the first window starts at zero. -/
structure WindowEnd (count : ℕ) : Prop where
  bound : count ≤ uint32Max
  whole : count = uint32Max ∨ count % (counterReservationWindow + 1) = 0

theorem windowEnd_zero : WindowEnd 0 := ⟨Nat.zero_le _, Or.inr rfl⟩

variable {count low high : ℕ}

/-- A reservation comes to the end of the next window. -/
theorem WindowEnd.reserved (h : WindowEnd count) (hroom : count < uint32Max) :
    WindowEnd (counterReservedHighWater (count + 1)) := by
  obtain ⟨hbound, hwhole⟩ := h
  unfold counterReservedHighWater
  unfold counterReservationWindow at hwhole ⊢
  by_cases hnear : uint32Max - (count + 1) < 32
  · rw [if_pos hnear]
    exact ⟨le_rfl, Or.inl rfl⟩
  · rw [if_neg hnear]
    constructor
    · omega
    · right
      unfold counterReservationWindow
      omega

theorem lt_counterReservedHighWater (hroom : count < uint32Max) :
    count < counterReservedHighWater (count + 1) := by
  unfold counterReservedHighWater
  split_ifs
  · exact hroom
  · omega

/-- Two ends of windows are at least two apart. -/
theorem WindowEnd.gap (hlow : WindowEnd low) (hhigh : WindowEnd high) (hlt : low < high) :
    low + 1 < high := by
  obtain ⟨-, hlow⟩ := hlow
  obtain ⟨hbound, hhigh⟩ := hhigh
  unfold counterReservationWindow at hlow hhigh
  unfold uint32Max at *
  omega

end WindowEnds

section Files

variable (crypto : Crypto)

/-- A record of the credential whose count has come to `least`, and a counter floor that is not
behind it. -/
structure Counting (credentialId : Bytes) (least : ℕ) (stored : CredentialRecord)
    (floor : Option Bytes) : Prop where
  named : stored.credentialId = credentialId
  windowEnd : WindowEnd stored.signCount
  least : least ≤ stored.signCount
  floor : ∀ raw, floor = some raw → ∃ count,
    CounterFloor crypto credentialId stored.createdAt raw count ∧ WindowEnd count ∧
      stored.signCount ≤ count

/-- What the record file of the credential holds, in the primary file or else in the backup. -/
def heldRecord (files : Path → Option Bytes) (credentialId : Bytes) : Option Bytes :=
  logical files (recordPath (hexEncode credentialId))

/-- What its counter floor holds. -/
def heldFloor (files : Path → Option Bytes) (credentialId : Bytes) : Option Bytes :=
  logical files (counterFloorPath (hexEncode credentialId))

/-- A credential whose sign count has come to `least`, if it is still there. -/
def CountsFrom (files : Path → Option Bytes) (credentialId : Bytes) (least : ℕ) : Prop :=
  ∀ data, heldRecord files credentialId = some data →
    ∃ stored, Recorded crypto data stored ∧
      Counting crypto credentialId least stored (heldFloor files credentialId)

/-- An entry that was made from the files at the end of a window, or whose high-water mark the
record has reached. -/
def Settled (files : Path → Option Bytes) (entry : CredentialIndexEntry) : Prop :=
  entry.signCount = entry.counterHighWater ∧ WindowEnd entry.counterHighWater ∨
    ∀ data stored, heldRecord files entry.credentialId = some data → Recorded crypto data stored →
      stored.credentialId = entry.credentialId → entry.counterHighWater ≤ stored.signCount

/-- The contents of the credential's two files stay, or go. -/
structure Fades (credentialId : Bytes) (files files' : Path → Option Bytes) : Prop where
  record : heldRecord files' credentialId = heldRecord files credentialId ∨
    heldRecord files' credentialId = none
  floor : heldFloor files' credentialId = heldFloor files credentialId ∨
    heldFloor files' credentialId = none

variable {crypto} {files files' files'' : Path → Option Bytes} {credentialId : Bytes} {least : ℕ}
  {entry : CredentialIndexEntry}

theorem Fades.refl : Fades credentialId files files := ⟨Or.inl rfl, Or.inl rfl⟩

theorem Fades.of_eq (hrecord : heldRecord files' credentialId = heldRecord files credentialId)
    (hfloor : heldFloor files' credentialId = heldFloor files credentialId) :
    Fades credentialId files files' := ⟨Or.inl hrecord, Or.inl hfloor⟩

theorem Fades.trans (h : Fades credentialId files files') (h' : Fades credentialId files' files'') :
    Fades credentialId files files'' := by
  constructor
  · rcases h'.record with hsame | hgone
    · rw [hsame]
      exact h.record
    · exact Or.inr hgone
  · rcases h'.floor with hsame | hgone
    · rw [hsame]
      exact h.floor
    · exact Or.inr hgone

theorem CountsFrom.fades (h : CountsFrom crypto files credentialId least)
    (hfades : Fades credentialId files files') : CountsFrom crypto files' credentialId least := by
  intro data hdata
  rcases hfades.record with hsame | hgone
  · rw [hsame] at hdata
    obtain ⟨stored, hrecorded, hcounting⟩ := h data hdata
    refine ⟨stored, hrecorded, hcounting.named, hcounting.windowEnd, hcounting.least, ?_⟩
    intro raw hraw
    rcases hfades.floor with hsame' | hgone'
    · exact hcounting.floor raw (hsame'.symm.trans hraw)
    · exact absurd (hgone'.symm.trans hraw) (by simp)
  · exact absurd (hgone.symm.trans hdata) (by simp)

theorem Settled.fades (h : Settled crypto files entry)
    (hfades : Fades entry.credentialId files files') : Settled crypto files' entry := by
  refine h.imp id fun hreached data stored hdata ↦ ?_
  rcases hfades.record with hsame | hgone
  · exact hreached data stored (hsame.symm.trans hdata)
  · exact absurd (hgone.symm.trans hdata) (by simp)

/-- A record file holds one record of a credential. -/
theorem Recorded.unique {data : Bytes} {first second : CredentialRecord}
    (h : Recorded crypto data first) (h' : Recorded crypto data second)
    (hsame : first.credentialId = second.credentialId) : first = second := by
  obtain ⟨counterFloor, hvalue, -⟩ := h.value
  obtain ⟨counterFloor', hvalue', -⟩ := h'.value
  rw [h.wellFormed.fileName, hsame, ← h'.wellFormed.fileName, hvalue'] at hvalue
  exact (Prod.mk.inj (Option.some.inj hvalue)).1.symm

/-- What is found of a credential when its primary record file is there. -/
theorem CountsFrom.found (h : CountsFrom crypto files credentialId least)
    {found : CredentialRecord} {embedded : Option Bytes}
    (hfound : recordFound crypto files (hexEncode credentialId) = some (found, embedded)) :
    ∃ data counterFloor, heldRecord files credentialId = some data ∧ Recorded crypto data found ∧
      embedded = some counterFloor ∧
      CounterFloor crypto credentialId found.createdAt counterFloor found.signCount ∧
      Counting crypto credentialId least found (heldFloor files credentialId) := by
  obtain ⟨data, hdata, -⟩ := Option.bind_eq_some_iff.mp hfound
  have hheld : heldRecord files credentialId = some data := by
    rw [heldRecord, logical, hdata, Option.some_or]
  obtain ⟨stored, hrecorded, hcounting⟩ := h data hheld
  have hname : stored.fileName = hexEncode credentialId := by
    rw [hrecorded.wellFormed.fileName, hcounting.named]
  rw [← hname] at hdata
  obtain ⟨counterFloor, hstored, hfloor⟩ := recordFound_of_recorded hdata hrecorded
  rw [hname, hfound] at hstored
  obtain ⟨rfl, rfl⟩ := Prod.mk.inj (Option.some.inj hstored)
  rw [hcounting.named] at hfloor
  exact ⟨data, counterFloor, hheld, hrecorded, rfl, hfloor, hcounting⟩

/-- Its counter floor need not be written by a load. -/
theorem CountsFrom.not_loadWrites (h : CountsFrom crypto files credentialId least) :
    ¬LoadWrites crypto files (hexEncode credentialId) := by
  rintro ⟨found, embedded, hfound, hwrites⟩
  obtain ⟨data, counterFloor, -, -, rfl, -, hcounting⟩ := h.found hfound
  cases hfloor : files (counterFloorPath (hexEncode credentialId)) with
  | none => simp [writesFloor, hfloor] at hwrites
  | some raw =>
    simp only [writesFloor, hfloor] at hwrites
    obtain ⟨stored, hlow, hvalue⟩ := hwrites
    have hheld : heldFloor files credentialId = some raw := by
      rw [heldFloor, logical, hfloor, Option.some_or]
    obtain ⟨count, hcount, -, hle⟩ := hcounting.floor raw hheld
    have hsame := counterFloorValue_unique hvalue hcount.value
    omega

/-- The record is that of the credential's files, with a count that is not behind it. -/
def Drawn (crypto : Crypto) (files : Path → Option Bytes) (credentialId : Bytes) (least : ℕ)
    (record : CredentialRecord) : Prop :=
  ∃ data stored, heldRecord files credentialId = some data ∧ Recorded crypto data stored ∧
    Counting crypto credentialId least stored (heldFloor files credentialId) ∧
    record = { stored with signCount := record.signCount } ∧
    stored.signCount ≤ record.signCount ∧ WindowEnd record.signCount

/-- What a load of the credential gives. -/
theorem CountsFrom.loaded (h : CountsFrom crypto files credentialId least)
    {record : CredentialRecord}
    (hload : loadFound crypto files (hexEncode credentialId) = some record) :
    Drawn crypto files credentialId least record := by
  obtain ⟨⟨found, embedded⟩, hfound, hload⟩ := Option.bind_eq_some_iff.mp hload
  obtain ⟨count, hcount, hload⟩ := Option.bind_eq_some_iff.mp hload
  obtain rfl := Option.some.inj hload
  obtain ⟨data, counterFloor, hheld, hrecorded, rfl, hembedded, hcounting⟩ := h.found hfound
  refine ⟨data, found, hheld, hrecorded, hcounting, rfl, ?_⟩
  dsimp only at hcount ⊢
  cases hfloor : files (counterFloorPath (hexEncode credentialId)) with
  | none =>
    rw [hcounting.named] at hcount
    simp only [countFound, hfloor, hembedded.value, if_true, Option.some.injEq] at hcount
    rw [← hcount]
    exact ⟨le_rfl, hcounting.windowEnd⟩
  | some raw =>
    have hraw : heldFloor files credentialId = some raw := by
      rw [heldFloor, logical, hfloor, Option.some_or]
    obtain ⟨high, hhigh, hend, hle⟩ := hcounting.floor raw hraw
    rw [hcounting.named] at hcount
    simp only [countFound, hfloor, hhigh.length, hhigh.value, if_true, Option.map_some,
      Option.some.injEq] at hcount
    rw [← hcount, max_eq_right hle]
    exact ⟨hle, hend⟩

/-- A load of the primary file succeeds when nothing fails. -/
theorem CountsFrom.isSome_loadFound (h : CountsFrom crypto files credentialId least)
    (hfile : (files (recordPath (hexEncode credentialId))).isSome) :
    (loadFound crypto files (hexEncode credentialId)).isSome := by
  obtain ⟨data, hdata⟩ := Option.isSome_iff_exists.mp hfile
  have hheld : heldRecord files credentialId = some data := by
    rw [heldRecord, logical, hdata, Option.some_or]
  obtain ⟨stored, hrecorded, hcounting⟩ := h data hheld
  have hname : stored.fileName = hexEncode credentialId := by
    rw [hrecorded.wellFormed.fileName, hcounting.named]
  have hintact : Intact crypto files (hexEncode credentialId) stored := by
    refine ⟨hname, ⟨data, hdata, hrecorded⟩, fun raw hraw ↦ ?_⟩
    have hfloor : heldFloor files credentialId = some raw := by
      rw [heldFloor, logical, hraw, Option.some_or]
    obtain ⟨count, hcount, -⟩ := hcounting.floor raw hfloor
    rw [hcounting.named]
    exact ⟨count, hcount⟩
  obtain ⟨count, -, hfound⟩ := hintact.retrievable
  rw [hfound]
  rfl

theorem Drawn.named {record : CredentialRecord}
    (h : Drawn crypto files credentialId least record) : record.credentialId = credentialId := by
  obtain ⟨data, stored, -, -, hcounting, hsame, -⟩ := h
  rw [hsame]
  exact hcounting.named

theorem Drawn.least_le {record : CredentialRecord}
    (h : Drawn crypto files credentialId least record) : least ≤ record.signCount := by
  obtain ⟨data, stored, -, -, hcounting, -, hle, -⟩ := h
  exact hcounting.least.trans hle

/-- Passing the high-water mark. An entry whose mark is not behind the next count of the files was
not settled, unless it forbids that count. -/
theorem Settled.mark_lt (h : Settled crypto files entry) {record : CredentialRecord}
    (hdrawn : Drawn crypto files entry.credentialId least record)
    (hallowed : entry.signCount ≤ record.signCount + 1) :
    entry.counterHighWater ≤ record.signCount := by
  obtain ⟨data, stored, hheld, hrecorded, hcounting, -, hle, hend⟩ := hdrawn
  rcases h with ⟨hsame, hmark⟩ | hreached
  · by_contra hlow
    have hgap := hend.gap hmark (not_le.mp hlow)
    omega
  · exact (hreached data stored hheld hrecorded hcounting.named).trans hle

/-- A counter floor has four bytes for its count. -/
theorem le_uint32Max_of_counterFloorValue {createdAt count : ℕ} {raw : Bytes}
    (h : counterFloorValue crypto credentialId createdAt raw = some count) :
    count ≤ uint32Max := by
  unfold counterFloorValue counterFloorCheck at h
  dsimp only at h
  split_ifs at h
  obtain rfl := Option.some.inj h
  have hlt := Cbor.ofLittleEndian_lt
    (((crypto.enclaveDecrypt (CounterFloorFile.decode raw).iv
      (CounterFloorFile.decode raw).sealed).drop 4).take 4)
  have hwidth := List.length_take_le 4 ((crypto.enclaveDecrypt (CounterFloorFile.decode raw).iv
    (CounterFloorFile.decode raw).sealed).drop 4)
  have hpower := Nat.pow_le_pow_right (show 0 < 256 by decide) hwidth
  unfold CounterFloorSeal.decode uint32Max
  dsimp only
  omega

/-- What a load finds is a well-formed record. -/
theorem wellFormed_of_loadFound (hopen : OpenKeepsLength crypto) {name : Path}
    {record : CredentialRecord} (h : loadFound crypto files name = some record) :
    record.WellFormed ∧ record.fileName = name := by
  obtain ⟨⟨stored, embedded⟩, hfound, h⟩ := Option.bind_eq_some_iff.mp h
  obtain ⟨count, hcount, h⟩ := Option.bind_eq_some_iff.mp h
  obtain rfl := Option.some.inj h
  obtain ⟨hwellFormed, hname⟩ := wellFormed_of_recordFound hopen hfound
  refine ⟨{ hwellFormed with signCount := ?_ }, hname⟩
  have hstored := hwellFormed.signCount
  dsimp only at hcount ⊢
  unfold countFound at hcount
  split at hcount
  · split_ifs at hcount
    obtain ⟨floor, hfloor, rfl⟩ := Option.map_eq_some_iff.mp hcount
    exact max_le hstored (le_uint32Max_of_counterFloorValue hfloor)
  · split_ifs at hcount
    exact Option.some.inj hcount ▸ hstored
  · exact Option.some.inj hcount ▸ hstored

end Files

section Operations

variable {Event : Type} {crypto : Crypto} {world world' : World Event} {credentialId : Bytes}
  {least : ℕ} {entry : CredentialIndexEntry} {record : CredentialRecord} {name : Path}

/-- An operation on another credential. -/
theorem Within.fades (h : Within name world world') (hname : isRecordName name = true)
    (hlength : credentialId.length = credentialIdLen) (hne : name ≠ hexEncode credentialId) :
    Fades credentialId world.files world'.files := by
  have helse := h.elsewhere hname (isRecordName_hexEncode hlength) hne
  have hrecord := fileOf_recordPath (hexEncode credentialId)
  have hfloor := fileOf_counterFloorPath (hexEncode credentialId)
  refine Fades.of_eq ?_ ?_
  · rw [heldRecord, heldRecord, logical, logical, helse _ hrecord, helse _ hrecord.backup]
  · rw [heldFloor, heldFloor, logical, logical, helse _ hfloor, helse _ hfloor.backup]

/-- A load of any credential. -/
theorem Loaded.fades {Value : Type} {view : CredentialRecord → Value} {result : Option Value}
    (h : Loaded crypto name view world result world') (hname : isRecordName name = true)
    (hlength : credentialId.length = credentialIdLen)
    (hcounts : CountsFrom crypto world.files credentialId least) :
    Fades credentialId world.files world'.files := by
  by_cases hsame : name = hexEncode credentialId
  · subst hsame
    rw [h.untouched hcounts.not_loadWrites]
    exact Fades.refl
  · exact h.within.fades hname hlength hsame

theorem LoadCut.fades (h : LoadCut crypto name world world') (hname : isRecordName name = true)
    (hlength : credentialId.length = credentialIdLen)
    (hcounts : CountsFrom crypto world.files credentialId least) :
    Fades credentialId world.files world'.files := by
  by_cases hsame : name = hexEncode credentialId
  · subst hsame
    exact absurd h.writes hcounts.not_loadWrites
  · exact h.withinCut.toWithin.fades hname hlength hsame

/-- Loading the record of an index entry. The credential's own load changes no file. -/
theorem ensures_loadRecord_fades (hlaws : SealLaws crypto)
    (hentry : entry.credentialId.length = credentialIdLen)
    (hlength : credentialId.length = credentialIdLen)
    (hcounts : CountsFrom crypto world.files credentialId least) :
    Ensures (loadRecord crypto entry)
      (fun result world' ↦ Fades credentialId world.files world'.files ∧
        (entry.credentialId = credentialId → world'.files = world.files) ∧
        ∀ record, result = some record →
          loadFound crypto world.files (hexEncode entry.credentialId) = some record)
      (fun world' ↦ Fades credentialId world.files world'.files) world := by
  have hname : isRecordName (indexEntryFileName entry) = true := isRecordName_hexEncode hentry
  simp only [loadRecord, ensures_ite, ensures_pure]
  refine ⟨fun _ ↦ ⟨Fades.refl, fun _ ↦ trivial, by simp⟩, fun _ ↦ ?_⟩
  refine (ensures_recordFormatLoadRecord hlaws hname).mono ?_ fun _ hcut ↦
    hcut.fades hname hlength hcounts
  intro result final hloaded
  refine ⟨hloaded.fades hname hlength hcounts, ?_, fun record hrecord ↦ ?_⟩
  · rintro rfl
    exact hloaded.untouched hcounts.not_loadWrites
  · rcases hloaded.result_eq with heq | ⟨hnone, -⟩
    · rw [hrecord, Option.map_id] at heq
      exact heq.symm
    · exact absurd (hnone.symm.trans hrecord) (by simp)

/-- Removing the files of any credential. -/
theorem ensures_recoveryRemoveRecordPaths_fades (hname : isRecordName name = true)
    (hlength : credentialId.length = credentialIdLen) :
    Ensures (recoveryRemoveRecordPaths name)
      (fun _ world' ↦ Fades credentialId world.files world'.files)
      (fun world' ↦ Fades credentialId world.files world'.files) world := by
  by_cases hsame : name = hexEncode credentialId
  · subst hsame
    -- The record goes before the counter floor, each with its backup first.
    have hrecord : ∀ {start final : World Event}, Moves (recordPath (hexEncode credentialId))
        (tempPath (hexEncode credentialId)) none start final →
        Fades credentialId start.files final.files := by
      intro start final hmoves
      obtain ⟨hpath, hbackup, htemp⟩ := counterFloorPath_ne hname (Or.inl rfl)
      obtain ⟨hpath', hbackup', htemp'⟩ := counterFloorPath_ne hname (Or.inr (Or.inl rfl))
      obtain ⟨hpath'', hbackup'', htemp''⟩ := counterFloorPath_ne hname (Or.inr (Or.inr rfl))
      refine ⟨hmoves.holds, Or.inl ?_⟩
      rw [heldFloor, heldFloor, logical, logical,
        hmoves.frame _ hpath.symm hpath'.symm hpath''.symm,
        hmoves.frame _ hbackup.symm hbackup'.symm hbackup''.symm]
    have hfloor : ∀ {start final : World Event}, Moves (counterFloorPath (hexEncode credentialId))
        (counterFloorTempPath (hexEncode credentialId)) none start final →
        Fades credentialId start.files final.files := by
      intro start final hmoves
      obtain ⟨hpath, hbackup, htemp⟩ := counterFloorPath_ne hname (Or.inl rfl)
      obtain ⟨hpath', hbackup', htemp'⟩ := counterFloorPath_ne hname (Or.inr (Or.inl rfl))
      refine ⟨Or.inl ?_, hmoves.holds⟩
      rw [heldRecord, heldRecord, logical, logical, hmoves.frame _ hpath hbackup htemp,
        hmoves.frame _ hpath' hbackup' htemp']
    rw [recoveryRemoveRecordPaths, ensures_andM]
    refine (ensures_removeAtomicFile (atomicPaths_record hname)).mono ?_ fun _ hcut ↦
      hrecord hcut.moves
    rintro ok middle ⟨hmoves, -, -⟩
    refine ⟨fun _ ↦ ?_, fun _ ↦ hrecord hmoves⟩
    refine (ensures_removeAtomicFile (atomicPaths_counterFloor hname)).mono ?_ fun _ hcut ↦
      (hrecord hmoves).trans (hfloor hcut.moves)
    rintro ok' final ⟨hmoves', -, -⟩
    exact (hrecord hmoves).trans (hfloor hmoves')
  · exact (ensures_recoveryRemoveRecordPaths_within hname).mono
      (fun _ _ hwithin ↦ hwithin.fades hname hlength hsame)
      fun _ hcut ↦ hcut.toWithin.fades hname hlength hsame

/-- What reserving a window does to the credential's files: the counter floor comes first. -/
structure Reserves (crypto : Crypto) (record : CredentialRecord)
    (files files' : Path → Option Bytes) : Prop where
  floor : heldFloor files' record.credentialId = heldFloor files record.credentialId ∨
    ∃ raw, heldFloor files' record.credentialId = some raw ∧
      CounterFloor crypto record.credentialId record.createdAt raw record.signCount
  record : heldRecord files' record.credentialId = heldRecord files record.credentialId ∨
    (∃ data, heldRecord files' record.credentialId = some data ∧ Recorded crypto data record) ∧
      ∃ raw, heldFloor files' record.credentialId = some raw ∧
        CounterFloor crypto record.credentialId record.createdAt raw record.signCount

theorem ensures_recordFormatReserveCounter_reserves (hlaws : SealLaws crypto)
    (hrecord : record.WellFormed) :
    Ensures (recordFormatReserveCounter crypto record)
      (fun result world' ↦ Within record.fileName world world' ∧
        Reserves crypto record.reserved world.files world'.files ∧
        ∀ highWater, result = some highWater → highWater = record.reserved.signCount ∧
          ∃ data, heldRecord world'.files record.credentialId = some data ∧
            Recorded crypto data record.reserved)
      (fun world' ↦ Within record.fileName world world' ∧
        Reserves crypto record.reserved world.files world'.files) world := by
  have hname : isRecordName record.fileName = true := hrecord.isRecord
  have hfile : record.fileName = hexEncode record.credentialId := hrecord.fileName
  have hreserved := hrecord.reserved
  have hbound : record.reserved.signCount ≤ uint32Max := hreserved.signCount
  -- The counter floor after its part of the reservation.
  have hfloorPart : ∀ {final : World Event}, Rewrites (counterFloorPath record.fileName)
      (counterFloorTempPath record.fileName) (SealsCount crypto record.credentialId
        record.createdAt record.reserved.signCount) world final →
      Within record.fileName world final ∧ Reserves crypto record.reserved world.files final.files ∧
        heldRecord final.files record.credentialId =
          heldRecord world.files record.credentialId := by
    intro final hrewrites
    obtain ⟨hprimary, hbackup⟩ := hrewrites.record_eq hname
    have hsame : heldRecord final.files record.credentialId =
        heldRecord world.files record.credentialId := by
      rw [heldRecord, heldRecord, logical, logical, ← hfile, hprimary, hbackup]
    refine ⟨hrewrites.within (fileOf_counterFloorPath _) (fileOf_counterFloorTempPath _),
      ⟨?_, Or.inl hsame⟩, hsame⟩
    have hholds := hrewrites.holds
    rw [hfile] at hholds
    rcases hholds with hkept | ⟨raw, hseals, hraw⟩
    · exact Or.inl hkept
    · exact Or.inr ⟨raw, hraw, hseals hbound⟩
  simp only [recordFormatReserveCounter, ensures_bind]
  refine (ensures_counterFloorWriteValueFields hlaws hname).mono ?_ ?_
  · rintro ok first ⟨hrewrites, hwritten, -⟩
    obtain ⟨hwithin, hreserves, hsame⟩ := hfloorPart hrewrites
    simp only [ensures_ite, ensures_pure]
    refine ⟨fun _ ↦ ⟨hwithin, hreserves, by simp⟩, fun hok ↦ ?_⟩
    obtain ⟨raw, hseals, hraw⟩ := hwritten (by simpa using hok)
    rw [hfile] at hraw
    have hfloor : heldFloor first.files record.credentialId = some raw := by
      rw [heldFloor, logical, hraw, Option.some_or]
    -- The record after its part; the counter floor stays as it is.
    have hrecordPart : ∀ {final : World Event}, Rewrites (recordPath record.reserved.fileName)
        (tempPath record.reserved.fileName) (fun data ↦ Recorded crypto data record.reserved) first
          final → Within record.fileName world final ∧
        Reserves crypto record.reserved world.files final.files := by
      intro final hrewrites'
      have hnext := hrewrites'.within (fileOf_recordPath _) (fileOf_tempPath _)
      obtain ⟨hpath, hbackup, htemp⟩ := counterFloorPath_ne hname (Or.inl rfl)
      obtain ⟨hpath', hbackup', htemp'⟩ := counterFloorPath_ne hname (Or.inr (Or.inl rfl))
      obtain ⟨hpath'', hbackup'', htemp''⟩ := counterFloorPath_ne hname (Or.inr (Or.inr rfl))
      have hkept : heldFloor final.files record.credentialId = some raw := by
        have hprimary := hrewrites'.frame _ hpath.symm hpath'.symm hpath''.symm
        have hsecond := hrewrites'.frame _ hbackup.symm hbackup'.symm hbackup''.symm
        rw [← hfloor, heldFloor, heldFloor, logical, logical, ← hfile, hprimary, hsecond]
      have hsealed : ∃ raw, heldFloor final.files record.credentialId = some raw ∧
          CounterFloor crypto record.credentialId record.createdAt raw
            record.reserved.signCount := ⟨raw, hkept, hseals hbound⟩
      refine ⟨hwithin.trans hnext, Or.inr hsealed, ?_⟩
      have hholds := hrewrites'.holds
      rw [show record.reserved.fileName = hexEncode record.credentialId from hfile] at hholds
      rcases hholds with hold | ⟨data, hrecorded, hdata⟩
      · exact Or.inl (Eq.trans hold hsame)
      · exact Or.inr ⟨⟨data, hdata, hrecorded⟩, hsealed⟩
    simp only [ensures_bind]
    refine (ensures_recordFormatWriteRecord hlaws hreserved).mono ?_ fun _ hcut ↦
      hrecordPart hcut.1
    rintro ok' final ⟨hrewrites', hdone, -⟩
    obtain ⟨hwithin', hreserves'⟩ := hrecordPart hrewrites'
    simp only [ensures_ite, ensures_pure]
    refine ⟨fun _ ↦ ⟨hwithin', hreserves', by simp⟩, fun hok' ↦ ⟨hwithin', hreserves', ?_⟩⟩
    intro highWater hhighWater
    obtain ⟨data, hrecorded, hdata⟩ := hdone (by simpa using hok')
    rw [show record.reserved.fileName = hexEncode record.credentialId from hfile] at hdata
    refine ⟨(Option.some.inj hhighWater).symm, data, ?_, hrecorded⟩
    rw [heldRecord, logical, hdata, Option.some_or]
  · rintro final ⟨hrewrites, -⟩
    obtain ⟨hwithin, hreserves, -⟩ := hfloorPart hrewrites
    exact ⟨hwithin, hreserves⟩

variable {files files' : Path → Option Bytes}

/-- The record to write a higher count into is the one on the card, if that is still there. -/
def Continues (crypto : Crypto) (files : Path → Option Bytes) (record : CredentialRecord) : Prop :=
  ∀ data stored, heldRecord files record.credentialId = some data → Recorded crypto data stored →
    stored.credentialId = record.credentialId →
      stored.createdAt = record.createdAt ∧ stored.signCount ≤ record.signCount

theorem Continues.fades (h : Continues crypto files record)
    (hfades : Fades record.credentialId files files') : Continues crypto files' record := by
  intro data stored hdata
  rcases hfades.record with hsame | hgone
  · exact h data stored (hsame.symm.trans hdata)
  · exact absurd (hgone.symm.trans hdata) (by simp)

/-- A reservation keeps the credential's counts in order, wherever it stops. -/
theorem CountsFrom.reserves (h : CountsFrom crypto files record.credentialId least)
    (hend : WindowEnd record.signCount) (hle : least ≤ record.signCount)
    (hcontinues : Continues crypto files record) (hreserves : Reserves crypto record files files') :
    CountsFrom crypto files' record.credentialId least := by
  intro data hdata
  rcases hreserves.record with hsame | ⟨⟨data', hdata', hrecorded⟩, raw, hraw, hfloor⟩
  · rw [hsame] at hdata
    obtain ⟨stored, hrecorded, hcounting⟩ := h data hdata
    refine ⟨stored, hrecorded, hcounting.named, hcounting.windowEnd, hcounting.least, ?_⟩
    intro raw hraw
    obtain ⟨htime, hbehind⟩ := hcontinues data stored hdata hrecorded hcounting.named
    rcases hreserves.floor with hkept | ⟨raw', hraw', hfloor⟩
    · exact hcounting.floor raw (hkept.symm.trans hraw)
    · obtain rfl : raw' = raw := Option.some.inj (hraw'.symm.trans hraw)
      rw [htime]
      exact ⟨record.signCount, hfloor, hend, hbehind⟩
  · obtain rfl : data' = data := Option.some.inj (hdata'.symm.trans hdata)
    refine ⟨record, hrecorded, rfl, hend, hle, fun raw' hraw' ↦ ?_⟩
    obtain rfl : raw = raw' := Option.some.inj (hraw.symm.trans hraw')
    exact ⟨record.signCount, hfloor, hend, le_rfl⟩

/-- A reservation that succeeds takes the credential to the end of the window. -/
theorem CountsFrom.reserved {data : Bytes} (h : CountsFrom crypto files credentialId least)
    (hdata : heldRecord files credentialId = some data) (hrecorded : Recorded crypto data record)
    (hid : record.credentialId = credentialId) :
    CountsFrom crypto files credentialId record.signCount := by
  intro data' hdata'
  obtain rfl : data = data' := Option.some.inj (hdata.symm.trans hdata')
  obtain ⟨stored, hstored, hcounting⟩ := h data hdata
  obtain rfl := hstored.unique hrecorded (hcounting.named.trans hid.symm)
  exact ⟨stored, hstored, hcounting.named, hcounting.windowEnd, le_rfl, hcounting.floor⟩

/-- An entry whose mark the new count has reached stays settled. -/
theorem Settled.reserves (h : Settled crypto files entry)
    (hid : entry.credentialId = record.credentialId)
    (hmark : entry.signCount = entry.counterHighWater ∧ WindowEnd entry.counterHighWater ∨
      entry.counterHighWater ≤ record.signCount)
    (hreserves : Reserves crypto record files files') : Settled crypto files' entry := by
  rcases h with hfresh | hreached
  · exact Or.inl hfresh
  · refine hmark.imp id fun hmark data stored hdata hstored hnamed ↦ ?_
    rw [hid] at hdata hnamed
    rcases hreserves.record with hsame | ⟨⟨data', hdata', hrecorded⟩, -⟩
    · rw [← hid] at hsame hdata hnamed
      exact hreached data stored (hsame.symm.trans hdata) hstored hnamed
    · obtain rfl : data' = data := Option.some.inj (hdata'.symm.trans hdata)
      obtain rfl := hstored.unique hrecorded hnamed
      exact hmark

/-- The record that goes on from the one drawn. -/
theorem Drawn.continues {least : ℕ} {next : CredentialRecord}
    (h : Drawn crypto files credentialId least record)
    (hid : next.credentialId = credentialId) (htime : next.createdAt = record.createdAt)
    (hcount : record.signCount ≤ next.signCount) : Continues crypto files next := by
  obtain ⟨data, stored, hheld, hrecorded, hcounting, hsame, hle, -⟩ := h
  intro data' stored' hheld' hrecorded' hnamed
  rw [hid] at hheld' hnamed
  obtain rfl : data = data' := Option.some.inj (hheld.symm.trans hheld')
  obtain rfl := hrecorded.unique hrecorded' (hcounting.named.trans hnamed.symm)
  rw [htime, hsame]
  exact ⟨rfl, hle.trans hcount⟩

/-- What an entry of the credential must say for a reservation up to `highWater` to leave it
settled. -/
theorem Settled.mark_le {highWater : ℕ} (h : Settled crypto files entry)
    (hdrawn : Drawn crypto files entry.credentialId least record)
    (hcount : record.signCount ≤ highWater) :
    entry.signCount = entry.counterHighWater ∧ WindowEnd entry.counterHighWater ∨
      entry.counterHighWater ≤ highWater := by
  obtain ⟨data, stored, hheld, hrecorded, hcounting, -, hle, -⟩ := hdrawn
  exact h.imp id fun hreached ↦
    (hreached data stored hheld hrecorded hcounting.named).trans (hle.trans hcount)

/-- A reservation for the record drawn keeps the counts in order and every settled entry settled,
wherever it stops. -/
theorem Drawn.reserves {next : CredentialRecord}
    (hdrawn : Drawn crypto files credentialId least record)
    (h : CountsFrom crypto files credentialId least) (hreserves : Reserves crypto next files files')
    (hid : next.credentialId = credentialId) (htime : next.createdAt = record.createdAt)
    (hend : WindowEnd next.signCount) (hcount : record.signCount ≤ next.signCount) :
    CountsFrom crypto files' credentialId least ∧
      ∀ other, other.credentialId = credentialId → Settled crypto files other →
        Settled crypto files' other := by
  have hcontinues : Continues crypto files next := hdrawn.continues hid htime hcount
  subst hid
  refine ⟨h.reserves hend (hdrawn.least_le.trans hcount) hcontinues hreserves,
    fun other hother hsettled ↦ ?_⟩
  rw [← hother] at hdrawn
  exact hsettled.reserves hother (hsettled.mark_le hdrawn hcount) hreserves

/-- Once the record is written, an entry up to its count is settled. -/
theorem settled_of_recorded {data : Bytes} (hdata : heldRecord files credentialId = some data)
    (hrecorded : Recorded crypto data record) (hid : record.credentialId = credentialId)
    (hentry : entry.credentialId = credentialId)
    (hmark : entry.counterHighWater ≤ record.signCount) : Settled crypto files entry := by
  refine Or.inr fun data' stored hdata' hstored hnamed ↦ ?_
  rw [hentry] at hdata' hnamed
  obtain rfl : data = data' := Option.some.inj (hdata.symm.trans hdata')
  obtain rfl := hrecorded.unique hstored (hid.trans hnamed.symm)
  exact hmark

/-- Advancing the count of the credential. Wherever it stops, the counts stay in order and every
settled entry stays settled; when it succeeds, the files are at the high-water mark. -/
theorem ensures_prepareCounterAdvance_counts (hlaws : SealLaws crypto)
    (hrecord : record.WellFormed) (hroom : record.signCount < uint32Max)
    (hcounts : CountsFrom crypto world.files credentialId least)
    (hdrawn : Drawn crypto world.files credentialId least record)
    (hentry : entry.credentialId = credentialId) (hsettled : Settled crypto world.files entry) :
    Ensures (prepareCounterAdvance crypto entry
        { record with signCount := record.signCount + 1 })
      (fun result world' ↦ CountsFrom crypto world'.files credentialId least ∧
        (∀ other, other.credentialId = credentialId → Settled crypto world.files other →
          Settled crypto world'.files other) ∧
        ∀ highWater, result = some highWater → record.signCount < highWater ∧
          CountsFrom crypto world'.files credentialId highWater ∧
          ∀ other, other.credentialId = credentialId → other.counterHighWater ≤ highWater →
            Settled crypto world'.files other)
      (fun world' ↦ CountsFrom crypto world'.files credentialId least ∧
        ∀ other, other.credentialId = credentialId → Settled crypto world.files other →
          Settled crypto world'.files other) world := by
  have hid : record.credentialId = credentialId := hdrawn.named
  have hend : WindowEnd record.signCount := by
    obtain ⟨data, stored, -, -, -, -, -, hend⟩ := hdrawn
    exact hend
  have hnext : CredentialRecord.WellFormed { record with signCount := record.signCount + 1 } :=
    { hrecord with signCount := hroom }
  have hpast : record.signCount < counterReservedHighWater (record.signCount + 1) :=
    lt_counterReservedHighWater hroom
  simp only [prepareCounterAdvance, ensures_ite, ensures_pure]
  refine ⟨fun _ ↦ ⟨hcounts, fun _ _ hother ↦ hother, by simp⟩,
    fun hallowed ↦ ⟨fun _ ↦ ?_, fun hnot ↦ ?_⟩⟩
  · refine (ensures_recordFormatReserveCounter_reserves hlaws hnext).mono ?_ fun _ hcut ↦
      hdrawn.reserves hcounts hcut.2 hid rfl (hend.reserved hroom) (Nat.le_of_lt hpast)
    rintro result final ⟨-, hreserves, hdone⟩
    obtain ⟨hcounts', hsettled'⟩ := hdrawn.reserves hcounts hreserves hid rfl
      (hend.reserved hroom) (Nat.le_of_lt hpast)
    refine ⟨hcounts', hsettled', fun highWater hresult ↦ ?_⟩
    obtain ⟨rfl, data, hdata, hrecorded⟩ := hdone highWater hresult
    rw [hid] at hdata
    exact ⟨hpast, hcounts'.reserved hdata hrecorded hid,
      fun other hother hmark ↦ settled_of_recorded hdata hrecorded hid hother hmark⟩
  · -- A settled entry that allows the count is behind it.
    rw [← hentry] at hdrawn
    have hmark := hsettled.mark_lt hdrawn (not_lt.mp hallowed)
    exact absurd (Nat.lt_succ_of_le hmark) hnot

/-- Advancing the count of another credential. -/
theorem ensures_prepareCounterAdvance_within (hlaws : SealLaws crypto)
    (hrecord : record.WellFormed) :
    Ensures (prepareCounterAdvance crypto entry record)
      (fun _ world' ↦ Within record.fileName world world')
      (fun world' ↦ Within record.fileName world world') world := by
  simp only [prepareCounterAdvance, ensures_ite, ensures_pure]
  refine ⟨fun _ ↦ Within.refl world, fun _ ↦ ⟨fun _ ↦ ?_, fun _ ↦ Within.refl world⟩⟩
  exact (ensures_recordFormatReserveCounter_reserves hlaws hrecord).mono
    (fun _ _ hdone ↦ hdone.1) fun _ hcut ↦ hcut.1

/-- Writing the record of a credential that has no files yet. -/
theorem ensures_recordFormatWriteRecord_counts (hlaws : SealLaws crypto)
    (hrecord : record.WellFormed) (hzero : record.signCount = 0)
    (hfresh : heldRecord world.files record.credentialId = none)
    (hunfloored : heldFloor world.files record.credentialId = none) :
    Ensures (recordFormatWriteRecord crypto record)
      (fun _ world' ↦ Within record.fileName world world' ∧
        CountsFrom crypto world'.files record.credentialId 0)
      (fun world' ↦ Within record.fileName world world' ∧
        CountsFrom crypto world'.files record.credentialId 0) world := by
  have hname : isRecordName record.fileName = true := hrecord.isRecord
  have hfile : record.fileName = hexEncode record.credentialId := hrecord.fileName
  have hwritten : ∀ {final : World Event}, Rewrites (recordPath record.fileName)
      (tempPath record.fileName) (fun data ↦ Recorded crypto data record) world final →
      Within record.fileName world final ∧
        CountsFrom crypto final.files record.credentialId 0 := by
    intro final hrewrites
    refine ⟨hrewrites.within (fileOf_recordPath _) (fileOf_tempPath _), fun data hdata ↦ ?_⟩
    obtain ⟨hpath, hbackup, htemp⟩ := counterFloorPath_ne hname (Or.inl rfl)
    obtain ⟨hpath', hbackup', htemp'⟩ := counterFloorPath_ne hname (Or.inr (Or.inl rfl))
    obtain ⟨hpath'', hbackup'', htemp''⟩ := counterFloorPath_ne hname (Or.inr (Or.inr rfl))
    have hfloor : heldFloor final.files record.credentialId = none := by
      have hprimary := hrewrites.frame _ hpath.symm hpath'.symm hpath''.symm
      have hsecond := hrewrites.frame _ hbackup.symm hbackup'.symm hbackup''.symm
      rw [← hunfloored, heldFloor, heldFloor, logical, logical, ← hfile, hprimary, hsecond]
    have hholds := hrewrites.holds
    rw [hfile] at hholds
    rcases hholds with hkept | ⟨data', hrecorded, hdata'⟩
    · exact absurd (hdata.symm.trans (hkept.trans hfresh)) (by simp)
    · obtain rfl : data = data' := Option.some.inj (hdata.symm.trans hdata')
      refine ⟨record, hrecorded, rfl, ?_, Nat.zero_le _, fun raw hraw ↦ ?_⟩
      · rw [hzero]
        exact windowEnd_zero
      · exact absurd (hraw.symm.trans hfloor) (by simp)
  refine (ensures_recordFormatWriteRecord hlaws hrecord).mono ?_ fun _ hcut ↦ hwritten hcut.1
  rintro ok final ⟨hrewrites, -, -⟩
  exact hwritten hrewrites

end Operations

section Fading

variable {Event Value Next : Type} {crypto : Crypto} {credentialId : Bytes}
  {store : CredentialStore} {record : CredentialRecord} {name : Path}

/-- The program lets the credential's files fade at most, wherever it is interrupted. -/
def Fading (crypto : Crypto) (credentialId : Bytes) (program : Program (World Event) Value) :
    Prop :=
  ∀ (least : ℕ) (world : World Event), CountsFrom crypto world.files credentialId least →
    Ensures program (fun _ world' ↦ Fades credentialId world.files world'.files)
      (fun world' ↦ Fades credentialId world.files world'.files) world

theorem fading_pure (value : Value) :
    Fading crypto credentialId (pure value : Program (World Event) Value) :=
  fun _ _ _ ↦ Fades.refl

theorem Fading.bind {program : Program (World Event) Value}
    {rest : Value → Program (World Event) Next} (h : Fading crypto credentialId program)
    (hrest : ∀ value, Fading crypto credentialId (rest value)) :
    Fading crypto credentialId (program >>= rest) := by
  intro least world hcounts
  rw [ensures_bind]
  refine (h least world hcounts).mono ?_ fun _ hcut ↦ hcut
  intro value middle hfades
  exact (hrest value least middle (hcounts.fades hfades)).mono
    (fun _ _ hnext ↦ hfades.trans hnext) fun _ hnext ↦ hfades.trans hnext

theorem fading_ite {condition : Prop} [Decidable condition] {yes no : Program (World Event) Value}
    (hyes : Fading crypto credentialId yes) (hno : Fading crypto credentialId no) :
    Fading crypto credentialId (if condition then yes else no) := by
  split_ifs
  · exact hyes
  · exact hno

variable (hlaws : SealLaws crypto) (hlength : credentialId.length = credentialIdLen)

include hlaws hlength in
theorem fading_loadRecord {entry : CredentialIndexEntry}
    (hentry : entry.credentialId.length = credentialIdLen) :
    Fading crypto credentialId
      (loadRecord crypto entry : Program (World Event) (Option CredentialRecord)) :=
  fun _ _ hcounts ↦ (ensures_loadRecord_fades hlaws hentry hlength hcounts).mono
    (fun _ _ h ↦ h.1) fun _ h ↦ h

include hlength in
theorem fading_recoveryRemoveRecordPaths (hname : isRecordName name = true) :
    Fading crypto credentialId (recoveryRemoveRecordPaths name : Program (World Event) Bool) :=
  fun _ _ _ ↦ ensures_recoveryRemoveRecordPaths_fades hname hlength

include hlength in
theorem fading_removeRecordFile (hrecord : record.WellFormed) :
    Fading crypto credentialId (removeRecordFile record : Program (World Event) Bool) := by
  refine fading_ite (fading_pure _) (fading_recoveryRemoveRecordPaths hlength ?_)
  split_ifs
  · exact isRecordName_hexEncode hrecord.credentialId
  · exact hrecord.isRecord

include hlaws hlength in
/-- The search for the credentials of an account. -/
theorem fading_findResidentIndices {rpId userId : Bytes} {maxDeleted : ℕ}
    (rest : List (CredentialIndexEntry × ℕ)) (deleted : List ℕ)
    (hrest : ∀ entry ∈ rest, entry.1.credentialId.length = credentialIdLen) :
    Fading crypto credentialId (findResidentIndices crypto rpId userId maxDeleted rest deleted :
      Program (World Event) (Option (List ℕ))) := by
  induction rest generalizing deleted with
  | nil => exact fading_pure _
  | cons head rest ih =>
    obtain ⟨entry, index⟩ := head
    rw [List.forall_mem_cons] at hrest
    rw [findResidentIndices]
    refine Fading.bind (fading_ite (fading_pure _) ?_) fun found ↦ ?_
    · refine (fading_loadRecord hlaws hlength hrest.1).bind fun loaded ↦ ?_
      cases loaded <;> exact fading_pure _
    · exact fading_ite (fading_ite (fading_pure _) (ih _ hrest.2)) (ih _ hrest.2)

include hlaws hlength in
theorem fading_findResidentCredentialIndicesForUser {rpId userId : Bytes} {maxDeleted : ℕ}
    (hstore : ∀ entry ∈ store, entry.credentialId.length = credentialIdLen) :
    Fading crypto credentialId (findResidentCredentialIndicesForUser crypto store rpId userId
      maxDeleted : Program (World Event) (Option (List ℕ))) := by
  refine fading_findResidentIndices hlaws hlength _ _ fun entry hentry ↦ hstore _ ?_
  exact List.mem_of_getElem? (List.mem_zipIdx_iff_getElem?.mp hentry)

include hlength in
/-- Removing credentials by their positions. -/
theorem fading_removeCredentialFilesByIndices
    (hstore : ∀ entry ∈ store, entry.credentialId.length = credentialIdLen)
    (indices : List ℕ) (removed : ℕ) :
    Fading crypto credentialId (removeCredentialFilesByIndices store indices removed :
      Program (World Event) (Bool × ℕ)) := by
  induction indices generalizing removed with
  | nil => exact fading_pure _
  | cons index rest ih =>
    rw [removeCredentialFilesByIndices]
    cases hentry : store[index]? with
    | none => exact fading_pure _
    | some entry =>
      have hname := isRecordName_hexEncode (hstore entry (List.mem_of_getElem? hentry))
      refine fading_ite (fading_pure _) ?_
      exact (fading_recoveryRemoveRecordPaths hlength hname).bind fun ok ↦
        fading_ite (fading_pure _) (ih _)

include hlength in
/-- Deleting a credential, with what it leaves in the index. -/
theorem ensures_deleteRecord_fades {world : World Event} {other : Bytes}
    (hstore : ∀ entry ∈ store, entry.credentialId.length = credentialIdLen) :
    Ensures (deleteRecord store other)
      (fun result world' ↦ Fades credentialId world.files world'.files ∧
        result.2.Sublist store)
      (fun world' ↦ Fades credentialId world.files world'.files) world := by
  unfold deleteRecord
  cases hindex : findIndexById store other with
  | none => exact ⟨Fades.refl, List.Sublist.refl store⟩
  | some index =>
    obtain ⟨hbound, hmatches, -⟩ := List.findIdx?_eq_some_iff_getElem.mp hindex
    rw [Bool.and_eq_true, beq_iff_eq] at hmatches
    have hname : isRecordName (hexEncode other) = true := by
      rw [← hmatches.2]
      exact isRecordName_hexEncode (hstore _ (List.getElem_mem hbound))
    simp only [ensures_bind, ensures_ite, ensures_pure]
    refine (ensures_recoveryRemoveRecordPaths_fades hname hlength).mono ?_ fun _ hcut ↦ hcut
    intro ok final hfades
    exact ⟨fun _ ↦ ⟨hfades, List.Sublist.refl store⟩,
      fun _ ↦ ⟨hfades, List.eraseIdx_sublist store index⟩⟩

end Fading

section Startups

variable {Event : Type} {crypto : Crypto} {credentialId : Bytes} {least : ℕ}
  {files : Path → Option Bytes} {world world' : World Event}

/-- The credential's contents are as they were, and no read or decryption to come fails. -/
structure Holding (credentialId : Bytes) (files : Path → Option Bytes) (world : World Event) :
    Prop where
  record : heldRecord world.files credentialId = heldRecord files credentialId
  floor : heldFloor world.files credentialId = heldFloor files credentialId
  reads : world.reads = []
  enclave : world.enclave = []

theorem Holding.fades (h : Holding credentialId files world) :
    Fades credentialId files world.files :=
  Fades.of_eq h.record h.floor

/-- A step that leaves both contents. -/
theorem Holding.step (h : Holding credentialId files world) (hquiet : Quiet world world')
    (hrecord : heldRecord world'.files credentialId = heldRecord world.files credentialId)
    (hfloor : heldFloor world'.files credentialId = heldFloor world.files credentialId) :
    Holding credentialId files world' := by
  refine ⟨hrecord.trans h.record, hfloor.trans h.floor, ?_, ?_⟩
  · by_contra hne
    exact hquiet.reads_ne_nil hne h.reads
  · by_contra hne
    exact hquiet.enclave_ne_nil hne h.enclave

/-- A step on another credential. -/
theorem Holding.within {name : Path} (h : Holding credentialId files world)
    (hlength : credentialId.length = credentialIdLen) (hname : isRecordName name = true)
    (hne : name ≠ hexEncode credentialId) (hwithin : Within name world world') :
    Holding credentialId files world' := by
  have helse := hwithin.elsewhere hname (isRecordName_hexEncode hlength) hne
  have hrecord := fileOf_recordPath (hexEncode credentialId)
  have hfloor := fileOf_counterFloorPath (hexEncode credentialId)
  refine h.step hwithin.toQuiet ?_ ?_
  · rw [heldRecord, heldRecord, logical, logical, helse _ hrecord, helse _ hrecord.backup]
  · rw [heldFloor, heldFloor, logical, logical, helse _ hfloor, helse _ hfloor.backup]

theorem Holding.tempsGone (h : Holding credentialId files world)
    (hlength : credentialId.length = credentialIdLen) (hgone : TempsGone world world') :
    Holding credentialId files world' := by
  have hname : isRecordName (hexEncode credentialId) = true := isRecordName_hexEncode hlength
  refine h.step hgone.toQuiet ?_ ?_
  · rw [heldRecord, heldRecord, logical, logical, hgone.frame _ (not_tempFile_recordPath hname),
      hgone.frame (backupOf (recordPath _)) (not_tempFile_backup _)]
  · rw [heldFloor, heldFloor, logical, logical, hgone.frame _ (not_tempFile_counterFloorPath _),
      hgone.frame (backupOf (counterFloorPath _)) (not_tempFile_backup _)]

/-- A recovery of the record file, or of the counter floor. -/
theorem Holding.keeps_record (h : Holding credentialId files world)
    (hlength : credentialId.length = credentialIdLen)
    (hkeeps : Keeps (recordPath (hexEncode credentialId)) (tempPath (hexEncode credentialId)) world
      world') : Holding credentialId files world' := by
  have hname : isRecordName (hexEncode credentialId) = true := isRecordName_hexEncode hlength
  obtain ⟨hpath, hbackup, htemp⟩ := counterFloorPath_ne hname (Or.inl rfl)
  obtain ⟨hpath', hbackup', htemp'⟩ := counterFloorPath_ne hname (Or.inr (Or.inl rfl))
  obtain ⟨hpath'', hbackup'', htemp''⟩ := counterFloorPath_ne hname (Or.inr (Or.inr rfl))
  refine h.step hkeeps.only.quiet hkeeps.logical_eq ?_
  rw [heldFloor, heldFloor, logical, logical,
    hkeeps.frame _ hpath.symm hpath'.symm hpath''.symm,
    hkeeps.frame _ hbackup.symm hbackup'.symm hbackup''.symm]

theorem Holding.keeps_floor (h : Holding credentialId files world)
    (hlength : credentialId.length = credentialIdLen)
    (hkeeps : Keeps (counterFloorPath (hexEncode credentialId))
      (counterFloorTempPath (hexEncode credentialId)) world world') :
    Holding credentialId files world' := by
  have hname : isRecordName (hexEncode credentialId) = true := isRecordName_hexEncode hlength
  obtain ⟨hpath, hbackup, htemp⟩ := counterFloorPath_ne hname (Or.inl rfl)
  obtain ⟨hpath', hbackup', htemp'⟩ := counterFloorPath_ne hname (Or.inr (Or.inl rfl))
  refine h.step hkeeps.only.quiet ?_ hkeeps.logical_eq
  rw [heldRecord, heldRecord, logical, logical, hkeeps.frame _ hpath hbackup htemp,
    hkeeps.frame _ hpath' hbackup' htemp']

/-- Loading the credential into the index: the primary record is there, so the load succeeds. -/
theorem ensures_recordFormatLoadIndex_holding (hlaws : SealLaws crypto)
    (hlength : credentialId.length = credentialIdLen)
    (hcounts : CountsFrom crypto files credentialId least)
    (h : Holding credentialId files world) :
    Ensures (recordFormatLoadIndex crypto (hexEncode credentialId))
      (fun result world' ↦ Holding credentialId files world' ∧ world'.files = world.files ∧
        result = (loadFound crypto world.files (hexEncode credentialId)).map
          (indexEntryFromRecord crypto))
      (fun _ ↦ False) world := by
  have hname : isRecordName (hexEncode credentialId) = true := isRecordName_hexEncode hlength
  have hquiet : ¬LoadWrites crypto world.files (hexEncode credentialId) :=
    (hcounts.fades h.fades).not_loadWrites
  refine (ensures_recordFormatLoadIndex hlaws hname).mono ?_ fun _ hcut ↦
    absurd hcut.writes hquiet
  intro result final hloaded
  have hfiles := hloaded.untouched hquiet
  refine ⟨h.step hloaded.rewrites.toQuiet (by rw [hfiles]) (by rw [hfiles]), hfiles, ?_⟩
  rcases hloaded.result_eq with heq | ⟨-, hreads | henclave | ⟨-, hwrites⟩⟩
  · exact heq
  · exact absurd h.reads hreads
  · exact absurd h.enclave henclave
  · exact absurd hwrites hquiet

/-- The clean-up of the credential's record backup. -/
theorem ensures_recoveryRecoverRecordBackup_holding (hlaws : SealLaws crypto)
    (hlength : credentialId.length = credentialIdLen)
    (hcounts : CountsFrom crypto files credentialId least)
    (h : Holding credentialId files world) :
    Ensures (recoveryRecoverRecordBackup crypto (hexEncode credentialId)
        (backupOf (recordPath (hexEncode credentialId))))
      (fun _ world' ↦ Holding credentialId files world')
      (fun world' ↦ Holding credentialId files world') world := by
  have hname : isRecordName (hexEncode credentialId) = true := isRecordName_hexEncode hlength
  simp only [recoveryRecoverRecordBackup, ensures_bind, ensures_fileExists, ensures_ite]
  refine ⟨fun hexists ↦ ?_, fun hmissing ↦ ?_⟩
  · have hexists' : (world.files (recordPath (hexEncode credentialId))).isSome = true := hexists
    refine (ensures_recordFormatLoadIndex_holding hlaws hlength hcounts h).mono ?_
      fun _ hcut ↦ hcut.elim
    rintro result middle ⟨hmiddle, hfiles, rfl⟩
    have hsome := (hcounts.fades h.fades).isSome_loadFound hexists'
    refine ⟨fun _ ↦ ?_, fun hfailed ↦ ?_⟩
    · have hkeeps : ∀ final : World Event, OnlyFiles middle final → final.files = middle.files ∨
          final.files = removed (backupOf (recordPath (hexEncode credentialId))) middle.files →
          Holding credentialId files final := by
        intro final honly hfinal
        rw [← hfiles] at hexists'
        exact hmiddle.keeps_record hlength (keeps_removed_backup honly hexists' hfinal).1
      exact ensures_removeOptional (fun final honly hfinal ↦ hkeeps final honly (Or.inr hfinal))
        fun final honly _ hfinal ↦ ⟨hkeeps final honly hfinal, hkeeps final honly hfinal⟩
    · rw [Option.isSome_map, hsome] at hfailed
      exact absurd rfl hfailed
  · -- There is no primary record, so that removing it changes nothing.
    have hgone : world.files (recordPath (hexEncode credentialId)) = none :=
      Option.not_isSome_iff_eq_none.mp hmissing
    have hsame : removed (recordPath (hexEncode credentialId)) world.files = world.files := by
      rw [removed, ← hgone, Function.update_eq_self]
    have hremoved : ∀ middle : World Event, OnlyFiles world middle →
        middle.files = world.files ∨
          middle.files = removed (recordPath (hexEncode credentialId)) world.files →
        Holding credentialId files middle ∧ middle.files = world.files := by
      intro middle honly hmiddle
      rw [hsame, or_self] at hmiddle
      exact ⟨h.step honly.quiet (by rw [hmiddle]) (by rw [hmiddle]), hmiddle⟩
    have hrename : ∀ middle : World Event, Holding credentialId files middle ∧
        middle.files = world.files →
        Ensures (rename (backupOf (recordPath (hexEncode credentialId)))
          (recordPath (hexEncode credentialId)))
        (fun _ world' ↦ Holding credentialId files world')
        (fun world' ↦ Holding credentialId files world') middle := by
      rintro middle ⟨hmiddle, hfiles⟩
      cases hbackup : middle.files (backupOf (recordPath (hexEncode credentialId))) with
      | none =>
        rw [rename, ensures_bind, ensures_get, hbackup]
        exact hmiddle
      | some data =>
        rw [← hfiles] at hgone
        have hkeeps : ∀ final : World Event, OnlyFiles middle final →
            final.files = middle.files ∨
              final.files = removed (recordPath (hexEncode credentialId)) middle.files ∨
              final.files = stored (recordPath (hexEncode credentialId)) data
                (removed (backupOf (recordPath (hexEncode credentialId))) middle.files) →
            Holding credentialId files final := fun final honly hfinal ↦
          hmiddle.keeps_record hlength (keeps_renamed_backup honly hgone hbackup hfinal)
        exact ensures_rename hbackup (fun final honly hfinal ↦
          hkeeps final honly (Or.inr (Or.inr hfinal)))
          fun final honly _ hfinal ↦ ⟨hkeeps final honly hfinal, hkeeps final honly hfinal⟩
    refine ensures_removeOptional (fun middle honly hmiddle ↦ ?_)
      fun middle honly _ hmiddle ↦ ?_
    · have hholding := hremoved middle honly (Or.inr hmiddle)
      exact ⟨fun _ ↦ hholding.1, fun _ ↦ hrename middle hholding⟩
    · have hholding := hremoved middle honly hmiddle
      exact ⟨⟨fun _ ↦ hholding.1, fun _ ↦ hrename middle hholding⟩, hholding.1⟩

/-- The clean-up of any entry. -/
theorem ensures_recoveryCleanupVisitor_holding (hlaws : SealLaws crypto)
    (hlength : credentialId.length = credentialIdLen)
    (hcounts : CountsFrom crypto files credentialId least) (entry : DirEntry)
    (h : Holding credentialId files world) :
    Ensures (recoveryCleanupVisitor crypto entry)
      (fun _ world' ↦ Holding credentialId files world')
      (fun world' ↦ Holding credentialId files world') world := by
  have hname : isRecordName (hexEncode credentialId) = true := isRecordName_hexEncode hlength
  rcases @recoveryCleanupVisitor_cases Event crypto entry with
    ⟨-, hnothing⟩ | ⟨other, -, hother, -, hvisit⟩
  · rw [hnothing]
    exact h
  · by_cases hsame : other = hexEncode credentialId
    · subst hsame
      rcases hvisit with ⟨-, hrecord⟩ | ⟨-, hcounter⟩
      · rw [hrecord]
        exact ensures_recoveryRecoverRecordBackup_holding hlaws hlength hcounts h
      · rw [hcounter]
        refine (ensures_recoverAtomicFile (atomicPaths_counterFloor hname)).mono ?_
          fun _ hcut ↦ h.keeps_floor hlength hcut.moves
        rintro ok final ⟨hkeeps, -, -⟩
        exact h.keeps_floor hlength hkeeps
    · rcases hvisit with ⟨-, hrecord⟩ | ⟨-, hcounter⟩
      · rw [hrecord]
        exact (ensures_recoveryRecoverRecordBackup_within hlaws hother).mono
          (fun _ _ hfinal ↦ h.within hlength hother hsame hfinal)
          fun _ hfinal ↦ h.within hlength hother hsame hfinal.toWithin
      · rw [hcounter]
        exact (ensures_recoveryRecoverCounterBackup_within hother).mono
          (fun _ _ hfinal ↦ h.within hlength hother hsame hfinal)
          fun _ hfinal ↦ h.within hlength hother hsame hfinal.toWithin

/-- An entry of an index in which the credential is settled. -/
def Indexes (crypto : Crypto) (credentialId : Bytes) (files : Path → Option Bytes)
    (entry : CredentialIndexEntry) : Prop :=
  entry.credentialId.length = credentialIdLen ∧
    (entry.credentialId = credentialId → Settled crypto files entry)

theorem Indexes.fades {files' : Path → Option Bytes} {entry : CredentialIndexEntry}
    (h : Indexes crypto credentialId files entry)
    (hfades : Fades credentialId files files') : Indexes crypto credentialId files' entry := by
  refine ⟨h.1, fun hid ↦ (h.2 hid).fades ?_⟩
  rw [hid]
  exact hfades

/-- Rebuilding the index. -/
theorem ensures_bootstrapIndex_holding (hlaws : SealLaws crypto) (hopen : OpenKeepsLength crypto)
    (hlength : credentialId.length = credentialIdLen)
    (hcounts : CountsFrom crypto files credentialId least) (h : Holding credentialId files world)
    {entries : List DirEntry} :
    Ensures (bootstrapIndex crypto [] entries)
      (fun store world' ↦ Holding credentialId files world' ∧
        ∀ entry ∈ store, Indexes crypto credentialId files entry)
      (fun world' ↦ Holding credentialId files world') world := by
  refine @ensures_bootstrapIndex Event world crypto
    (fun store world' ↦ Holding credentialId files world' ∧
      ∀ entry ∈ store, Indexes crypto credentialId files entry) _ _ _ ?_ ⟨h, by simp⟩
  rintro entry - hname store middle ⟨hmiddle, hstore⟩
  have hadd : ∀ {final : World Event} {result : Option CredentialIndexEntry},
      Holding credentialId files final →
      (∀ indexEntry, result = some indexEntry → Indexes crypto credentialId files indexEntry) →
      Holding credentialId files final ∧ ∀ indexEntry ∈ store ++ result.toList,
        Indexes crypto credentialId files indexEntry := by
    intro final result hfinal hresult
    refine ⟨hfinal, fun indexEntry hmem ↦ ?_⟩
    rcases List.mem_append.mp hmem with hmem | hmem
    · exact hstore indexEntry hmem
    · exact hresult indexEntry (Option.mem_toList.mp hmem)
  -- The name of a loaded record is that of its file.
  have hnamed : ∀ {record : CredentialRecord},
      loadFound crypto middle.files entry.name = some record →
      record.credentialId.length = credentialIdLen ∧
        hexEncode record.credentialId = entry.name := by
    intro record hfound
    obtain ⟨stored, embedded, hstored, hsame⟩ := exists_of_loadFound hfound
    obtain ⟨hwellFormed, hfileName⟩ := wellFormed_of_recordFound hopen hstored
    have hid : record.credentialId = stored.credentialId := by rw [hsame]
    rw [hid]
    exact ⟨hwellFormed.credentialId, hwellFormed.fileName.symm.trans hfileName⟩
  by_cases hsame : entry.name = hexEncode credentialId
  · rw [hsame]
    refine (ensures_recordFormatLoadIndex_holding hlaws hlength hcounts hmiddle).mono ?_
      fun _ hcut ↦ hcut.elim
    rintro result final ⟨hfinal, -, rfl⟩
    refine hadd hfinal fun indexEntry hindexed ↦ ?_
    obtain ⟨record, hfound, rfl⟩ := Option.map_eq_some_iff.mp hindexed
    obtain ⟨-, -, -, -, -, -, -, hend⟩ := (hcounts.fades hmiddle.fades).loaded hfound
    rw [← hsame] at hfound
    exact ⟨(hnamed hfound).1, fun _ ↦ Or.inl ⟨rfl, hend⟩⟩
  · refine (ensures_recordFormatLoadIndex hlaws hname).mono ?_ fun _ hcut ↦
      hmiddle.within hlength hname hsame hcut.withinCut.toWithin
    intro result final hloaded
    refine hadd (hmiddle.within hlength hname hsame hloaded.within) fun indexEntry hindexed ↦ ?_
    rcases hloaded.result_eq with heq | ⟨hnone, -⟩
    · obtain ⟨record, hfound, rfl⟩ := Option.map_eq_some_iff.mp (heq.symm.trans hindexed)
      obtain ⟨hrecordLength, hrecordName⟩ := hnamed hfound
      refine ⟨hrecordLength, fun hid ↦ absurd ?_ hsame⟩
      rw [← hrecordName]
      exact congrArg hexEncode hid
    · exact absurd (hnone.symm.trans hindexed) (by simp)

/-- A startup that can read. Wherever it loses power the credential's contents are as they were, and
what it indexes of the credential is settled. -/
theorem ensures_bootstrapInit_counts (hlaws : SealLaws crypto) (hopen : OpenKeepsLength crypto)
    (hlength : credentialId.length = credentialIdLen)
    (hcounts : CountsFrom crypto world.files credentialId least) (hreads : world.reads = [])
    (henclave : world.enclave = []) {listings : StartupListings} :
    Ensures (bootstrapInit crypto listings)
      (fun result world' ↦ Holding credentialId world.files world' ∧
        ∀ entry ∈ result.2, Indexes crypto credentialId world.files entry)
      (fun world' ↦ Holding credentialId world.files world') world := by
  have hstart : Holding credentialId world.files world := ⟨rfl, rfl, hreads, henclave⟩
  rw [bootstrapInit_eq, ensures_bind]
  refine ensures_beforeCleanup.mono ?_ fun _ hcut ↦ hstart.tempsGone hlength hcut
  intro ready first hgone
  have hfirst := hstart.tempsGone hlength hgone
  rw [ensures_ite]
  refine ⟨fun _ ↦ ⟨hfirst, by simp⟩, fun _ ↦ ?_⟩
  rw [ensures_bind]
  refine (@ensures_forEachDirEntry Event first _ (Holding credentialId world.files) _ _ ?_
    hfirst).mono ?_ fun _ hcut ↦ hcut
  · intro entries _ entry _ middle hmiddle
    exact ensures_recoveryCleanupVisitor_holding hlaws hlength hcounts entry hmiddle
  · intro _ second hsecond
    cases listings.records with
    | none => exact ⟨hsecond, by simp⟩
    | some entries =>
      simp only [ensures_bind, ensures_pure]
      exact ensures_bootstrapIndex_holding hlaws hopen hlength hcounts hsecond

end Startups

end ZeroFido.Store
