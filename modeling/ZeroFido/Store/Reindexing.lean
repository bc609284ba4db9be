import ZeroFido.Store.SignCounts

/-!
# A credential after a restart

What a startup in which nothing fails does to a credential with a primary record file: whatever
backups and temporary files are beside it, the clean-up leaves the record, and a counter floor that
is there (`Retained`), and the index gets an entry for it with no lower count
(`ensures_bootstrapInit_retained`).
-/

set_option autoImplicit false
set_option relaxedAutoImplicit false

namespace ZeroFido.Store

open Foundations Storage

section Retained

variable {Event : Type} {crypto : Crypto} {credentialId : Bytes} {record : CredentialRecord}
  {files files' : Path → Option Bytes} {world world' : World Event}

/-- The startup finds the record file, among at most as many as the index has room for. -/
def FindsRecord (listings : StartupListings) (name : Path) : Prop :=
  ∃ entries, listings.records = some entries ∧ { name } ∈ entries ∧
    (entries.filter DirEntry.isRecord).length ≤ maxCredentials

/-- Nothing will fail, the files of the credential are in order, and a load gives the record. -/
structure Retained (crypto : Crypto) (credentialId : Bytes) (record : CredentialRecord)
    (world : World Event) : Prop where
  clean : Clean world
  counts : CountsFrom crypto world.files credentialId 0
  retrievable : Retrievable crypto world.files (hexEncode credentialId) record

theorem Retrievable.isSome {name : Path} (h : Retrievable crypto files name record) :
    (files (recordPath name)).isSome := by
  obtain ⟨count, -, hfound⟩ := h
  obtain ⟨⟨found, embedded⟩, hrecord, -⟩ := Option.bind_eq_some_iff.mp hfound
  obtain ⟨data, hdata, -⟩ := Option.bind_eq_some_iff.mp hrecord
  rw [hdata]
  rfl

/-- A counter floor that comes to a record without one does not lower the count. -/
theorem Retrievable.of_floor (h : Retrievable crypto files (hexEncode credentialId) record)
    (hcounts : CountsFrom crypto files' credentialId 0)
    (hrecord : files' (recordPath (hexEncode credentialId)) =
      files (recordPath (hexEncode credentialId)))
    (hfloor : files (counterFloorPath (hexEncode credentialId)) = none ∨
      files' (counterFloorPath (hexEncode credentialId)) =
        files (counterFloorPath (hexEncode credentialId))) :
    Retrievable crypto files' (hexEncode credentialId) record := by
  rcases hfloor with hnone | hsame
  swap
  · exact h.of_eq hrecord hsame
  cases hraw : files' (counterFloorPath (hexEncode credentialId)) with
  | none => exact h.of_eq hrecord (hraw.trans hnone.symm)
  | some raw =>
    obtain ⟨count, hle, hfound⟩ := h
    obtain ⟨⟨found, embedded⟩, hfound', hloaded⟩ := Option.bind_eq_some_iff.mp hfound
    obtain ⟨count', hcount, hloaded⟩ := Option.bind_eq_some_iff.mp hloaded
    have hsame : { found with signCount := count' } = { record with signCount := count } :=
      Option.some.inj hloaded
    obtain rfl : count' = count := congrArg (·.signCount) hsame
    rw [← recordFound_congr hrecord] at hfound'
    obtain ⟨data, counterFloor, -, -, rfl, -, hcounting⟩ := hcounts.found hfound'
    have hheld : heldFloor files' credentialId = some raw := by
      rw [heldFloor, logical, hraw, Option.some_or]
    obtain ⟨high, hhigh, -, hreached⟩ := hcounting.floor raw hheld
    -- Without a floor in a file the count is that of the record.
    have hcount' : count' = found.signCount := by
      simp only [countFound, hnone] at hcount
      split_ifs at hcount
      exact (Option.some.inj hcount).symm
    refine ⟨high, hle.trans (hcount'.trans_le hreached), ?_⟩
    have hraised : countFound crypto files' (hexEncode credentialId) found.credentialId
        found.createdAt found.signCount (some counterFloor) = some high := by
      simp only [countFound, hraw, hcounting.named, hhigh.length, hhigh.value, if_true,
        Option.map_some, max_eq_right hreached]
    simp only [loadFound, hfound', Option.bind_eq_bind, Option.bind_some, hraised]
    exact congrArg (fun record : CredentialRecord ↦ some { record with signCount := high }) hsame

theorem Retained.holding (h : Retained crypto credentialId record world) :
    Holding credentialId world.files world :=
  ⟨rfl, rfl, h.clean.reads, h.clean.enclave⟩

/-- A step that leaves the record and the counter floor, and what their files hold. -/
theorem Retained.step (h : Retained crypto credentialId record world) (hquiet : Quiet world world')
    (hfades : Fades credentialId world.files world'.files)
    (hrecord : world'.files (recordPath (hexEncode credentialId)) =
      world.files (recordPath (hexEncode credentialId)))
    (hfloor : world.files (counterFloorPath (hexEncode credentialId)) = none ∨
      world'.files (counterFloorPath (hexEncode credentialId)) =
        world.files (counterFloorPath (hexEncode credentialId))) :
    Retained crypto credentialId record world' :=
  ⟨h.clean.of_quiet hquiet, h.counts.fades hfades,
    h.retrievable.of_floor (h.counts.fades hfades) hrecord hfloor⟩

theorem Retained.within {name : Path} (h : Retained crypto credentialId record world)
    (hlength : credentialId.length = credentialIdLen) (hname : isRecordName name = true)
    (hne : name ≠ hexEncode credentialId) (hwithin : Within name world world') :
    Retained crypto credentialId record world' := by
  have helse := hwithin.elsewhere hname (isRecordName_hexEncode hlength) hne
  exact h.step hwithin.toQuiet (hwithin.fades hname hlength hne) (helse _ (fileOf_recordPath _))
    (Or.inr (helse _ (fileOf_counterFloorPath _)))

theorem Retained.tempsGone (h : Retained crypto credentialId record world)
    (hlength : credentialId.length = credentialIdLen) (hgone : TempsGone world world') :
    Retained crypto credentialId record world' :=
  h.step hgone.toQuiet (h.holding.tempsGone hlength hgone).fades
    (hgone.frame _ (not_tempFile_recordPath (isRecordName_hexEncode hlength)))
    (Or.inr (hgone.frame _ (not_tempFile_counterFloorPath _)))

theorem ensures_recordFormatLoadIndex_retained (hlaws : SealLaws crypto)
    (hlength : credentialId.length = credentialIdLen)
    (h : Retained crypto credentialId record world) :
    Ensures (recordFormatLoadIndex crypto (hexEncode credentialId))
      (fun result world' ↦ result.isSome = true ∧ Retained crypto credentialId record world')
      (fun _ ↦ False) world := by
  have hquiet := h.counts.not_loadWrites
  refine (ensures_recordFormatLoadIndex hlaws (isRecordName_hexEncode hlength)).mono ?_
    fun _ hcut ↦ absurd hcut.writes hquiet
  intro result final hloaded
  have hfiles := hloaded.untouched hquiet
  refine ⟨?_, h.step hloaded.rewrites.toQuiet (Fades.of_eq (by rw [hfiles]) (by rw [hfiles]))
    (by rw [hfiles]) (Or.inr (by rw [hfiles]))⟩
  obtain ⟨count, -, hfound⟩ := h.retrievable
  rcases hloaded.result_eq with heq | ⟨-, hreads | henclave | ⟨-, hwrites⟩⟩
  · rw [heq, hfound]
    rfl
  · exact absurd h.clean.reads hreads
  · exact absurd h.clean.enclave henclave
  · exact absurd hwrites hquiet

/-- The clean-up of the credential's record backup: the record is there, and stays. -/
theorem ensures_recoveryRecoverRecordBackup_retained (hlaws : SealLaws crypto)
    (hlength : credentialId.length = credentialIdLen)
    (h : Retained crypto credentialId record world) :
    Ensures (recoveryRecoverRecordBackup crypto (hexEncode credentialId)
        (backupOf (recordPath (hexEncode credentialId))))
      (fun _ world' ↦ Retained crypto credentialId record world') (fun _ ↦ False) world := by
  have hname : isRecordName (hexEncode credentialId) = true := isRecordName_hexEncode hlength
  obtain ⟨hne, -, -⟩ := counterFloorPath_ne hname (Or.inr (Or.inl rfl))
  have hsome := h.retrievable.isSome
  simp only [recoveryRecoverRecordBackup, ensures_bind, ensures_fileExists, ensures_ite]
  refine ⟨fun _ ↦ ?_, fun hmissing ↦ absurd hsome hmissing⟩
  refine (ensures_recordFormatLoadIndex_retained hlaws hlength h).mono ?_ fun _ hcut ↦ hcut
  rintro result middle ⟨hresult, hmiddle⟩
  refine ⟨fun _ ↦ ?_, fun hfailed ↦ absurd hresult hfailed⟩
  refine ensures_removeOptional (fun final honly hfinal ↦ ?_) fun _ _ hwrites _ ↦
    absurd hmiddle.clean.writes hwrites
  obtain ⟨hkeeps, hrecord⟩ := @keeps_removed_backup _ _ _ _ (tempPath (hexEncode credentialId))
    honly hmiddle.retrievable.isSome (Or.inr hfinal)
  refine hmiddle.step hkeeps.only.quiet (hmiddle.holding.keeps_record hlength hkeeps).fades hrecord
    (Or.inr ?_)
  rw [hfinal, removed, Function.update_of_ne hne.symm]

/-- The clean-up of any entry. -/
theorem ensures_recoveryCleanupVisitor_retained (hlaws : SealLaws crypto)
    (hlength : credentialId.length = credentialIdLen) (entry : DirEntry)
    (h : Retained crypto credentialId record world) :
    Ensures (recoveryCleanupVisitor crypto entry)
      (fun _ world' ↦ Retained crypto credentialId record world') (fun _ ↦ False) world := by
  have hname : isRecordName (hexEncode credentialId) = true := isRecordName_hexEncode hlength
  rcases @recoveryCleanupVisitor_cases Event crypto entry with
    ⟨-, hnothing⟩ | ⟨other, -, hother, -, hvisit⟩
  · rw [hnothing]
    exact h
  · by_cases hsame : other = hexEncode credentialId
    · subst hsame
      rcases hvisit with ⟨-, hrecord⟩ | ⟨-, hcounter⟩
      · rw [hrecord]
        exact ensures_recoveryRecoverRecordBackup_retained hlaws hlength h
      · rw [hcounter]
        refine (ensures_recoverAtomicFile (atomicPaths_counterFloor hname)).mono ?_
          fun _ hcut ↦ absurd h.clean.writes hcut.writes
        rintro ok final ⟨hkeeps, hdone, hfailed⟩
        obtain ⟨hpath, hbackup, htemp⟩ := counterFloorPath_ne hname (Or.inl rfl)
        have hok : ok = true := by
          by_contra hnot
          exact (hfailed (by simpa using hnot)).1 h.clean.writes
        refine h.step hkeeps.only.quiet (h.holding.keeps_floor hlength hkeeps).fades
          (hkeeps.frame _ hpath hbackup htemp) ?_
        cases hfloor : world.files (counterFloorPath (hexEncode credentialId)) with
        | none => exact Or.inl rfl
        | some raw =>
          refine Or.inr ?_
          rw [hdone hok, logical, hfloor, Option.some_or]
    · rcases hvisit with ⟨-, hrecord⟩ | ⟨-, hcounter⟩
      · rw [hrecord]
        exact (ensures_recoveryRecoverRecordBackup_within hlaws hother).mono
          (fun _ _ hfinal ↦ h.within hlength hother hsame hfinal)
          fun _ hcut ↦ hcut.listed h.clean.writes
      · rw [hcounter]
        exact (ensures_recoveryRecoverCounterBackup_within hother).mono
          (fun _ _ hfinal ↦ h.within hlength hother hsame hfinal)
          fun _ hcut ↦ hcut.listed h.clean.writes

/-- Rebuilding the index leaves the credential as it is. -/
theorem ensures_bootstrapIndex_retained (hlaws : SealLaws crypto)
    (hlength : credentialId.length = credentialIdLen) {store : CredentialStore}
    {entries : List DirEntry} (h : Retained crypto credentialId record world) :
    Ensures (bootstrapIndex crypto store entries)
      (fun _ world' ↦ Retained crypto credentialId record world') (fun _ ↦ False) world := by
  refine @ensures_bootstrapIndex _ _ _ (fun _ ↦ Retained crypto credentialId record) _ _ _ ?_ h
  intro entry _ hname _ middle hmiddle
  by_cases hsame : entry.name = hexEncode credentialId
  · rw [hsame]
    exact (ensures_recordFormatLoadIndex_retained hlaws hlength hmiddle).mono
      (fun _ _ hfinal ↦ hfinal.2) fun _ hcut ↦ hcut
  · exact (ensures_recordFormatLoadIndex hlaws hname).mono
      (fun _ _ hloaded ↦ hmiddle.within hlength hname hsame hloaded.within)
      fun _ hcut ↦ absurd hmiddle.clean.writes hcut.withinCut.listed

/-- A startup in which nothing fails indexes the credential again, with no lower count, and a load
still gives its record. -/
theorem ensures_bootstrapInit_retained (hlaws : SealLaws crypto)
    (hlength : credentialId.length = credentialIdLen)
    (h : Retained crypto credentialId record world) {listings : StartupListings}
    (hfinds : FindsRecord listings (hexEncode credentialId)) :
    Ensures (bootstrapInit crypto listings)
      (fun result world' ↦ result.1 = true ∧ Indexed crypto record result.2 ∧
        Retrievable crypto world'.files (hexEncode credentialId) record)
      (fun _ ↦ False) world := by
  obtain ⟨entries, hrecords, hlisted, hroom⟩ := hfinds
  rw [bootstrapInit_eq, ensures_bind]
  refine (ensures_beforeCleanup_clean h.clean).mono ?_ fun _ hcut ↦ hcut
  rintro ready first ⟨rfl, hgone⟩
  rw [Bool.not_true, if_neg Bool.false_ne_true, ensures_bind]
  refine (@ensures_forEachDirEntry Event first _ (Retained crypto credentialId record) _ _ ?_
    (h.tempsGone hlength hgone)).mono ?_ fun _ hcut ↦ hcut
  · intro backups _ entry _ middle hmiddle
    exact ensures_recoveryCleanupVisitor_retained hlaws hlength entry hmiddle
  · intro _ second hsecond
    simp only [hrecords, ensures_bind, ensures_pure]
    refine ((ensures_bootstrapIndex_retrievable hlaws (isRecordName_hexEncode hlength)
      hsecond.clean ?_ (Or.inr ⟨hsecond.retrievable, hlisted⟩)).and
        (ensures_bootstrapIndex_retained hlaws hlength hsecond)).mono
      (fun _ _ hindexed ↦ ⟨trivial, hindexed.1, hindexed.2.retrievable⟩) fun _ hcut ↦ hcut.1
    rw [List.length_nil, Nat.zero_add]
    exact hroom

end Retained

end ZeroFido.Store
