import ZeroFido.Ctap.InterruptedReset
import ZeroFido.Store.StoredRecords

/-!
# The index names stored credentials

The store over a whole life of the device: startups, new credentials, registrations that replace
others, deletions, counters that advance and resets, each of which may meet failing storage calls or
lose power (`storeStep`).

A failure can leave an entry in the index that names no record any more. The index drops a
credential when its removal is reported as done, and a removal that takes the record file and then
fails is not; a reset that fails keeps the index, and a replacement of a record may leave no
primary file. `index_names_stored` says that nothing else does: as long as no step fails in one of
these ways (`sparesRecords`), every entry names a record that is stored.
-/

set_option autoImplicit false
set_option relaxedAutoImplicit false

namespace ZeroFido.Ctap

open Foundations Storage Store Process

section Machine

variable (crypto : Crypto)

/-- The device and, from a successful startup until the power is lost, the index. -/
structure StoreState where
  device : Pin.Device
  store : Option CredentialStore := none

/-- What happens to the store. -/
inductive StoreEvent where
  | start (listings : StartupListings)
  | add (record : CredentialRecord) (hrecord : record.WellFormed)
  | register (request : MakeCredentialRequest) (record : CredentialRecord)
      (hrecord : record.WellFormed) (residentKey : Bool)
  | delete (credentialId : Bytes)
  | deleteIndices (indices : List ℕ)
  | advanceCounter (index : ℕ) (signCount : UInt32)
  | reset (listing : Listing)

/-- A command that nobody interferes with, as a program of the device. -/
def undisturbedOn {Value : Type} (process : Process App Value) (store : CredentialStore) :
    Program Pin.Device CredentialStore := fun device ↦
  match process.finish { store, device } with
  | (some _, app) => .ok app.store app.device
  | (none, app) => .error .stopped app.device

/-- Deletes the credentials at some positions, and publishes those that were removed. -/
def deleteByIndices (store : CredentialStore) (indices : List ℕ) :
    Program Pin.Device CredentialStore := do
  let (_, removedCount) ← removeCredentialFilesByIndices store indices 0
  return publishDeletedIndices store (indices.take removedCount)

/-- Loads the record at a position and advances its counter. -/
def advanceAt (store : CredentialStore) (index signCount : ℕ) :
    Program Pin.Device CredentialStore := do
  match store[index]? with
  | none => return store
  | some entry =>
    match ← loadRecord crypto entry with
    | none => return store
    | some record =>
      let (_, store) ← advanceCounter crypto store { record with signCount }
      return store

/-- What an event does to the index and the files. -/
def changeStore (store : CredentialStore) : StoreEvent → Program Pin.Device CredentialStore
  | .start _ => return store
  | .add record _ => Prod.snd <$> addRecord crypto store record
  | .register request record _ residentKey =>
    undisturbedOn (commitCredential crypto request record residentKey) store
  | .delete credentialId => Prod.snd <$> deleteRecord store credentialId
  | .deleteIndices indices => deleteByIndices store indices
  | .advanceCounter index signCount => advanceAt crypto store index signCount.toNat
  | .reset listing => undisturbedOn (resetLocked crypto listing) store

/-- A startup gives an index when it succeeds, and the other events need one. -/
def storeOperation (store : Option CredentialStore) :
    StoreEvent → Program Pin.Device (Option CredentialStore)
  | .start listings => do
    let (ready, store) ← bootstrapInit crypto listings
    return if ready then some store else none
  | event =>
    match store with
    | none => return none
    | some store => some <$> changeStore crypto store event

/-- One event. The index is gone when the power is. -/
def storeStep (state : StoreState) (event : StoreEvent) : StoreState :=
  match (storeOperation crypto state.store event).run state.device with
  | .ok store device => { device, store }
  | .error _ device => { device }

end Machine

section Conditions

variable (crypto : Crypto)

/-- What a registration does before it removes the credentials it replaces, and where these are. -/
def beforeRemoval (request : MakeCredentialRequest) (record : CredentialRecord)
    (residentKey : Bool) (store : CredentialStore) : Program Pin.Device (List ℕ) := do
  if !residentKey then
    return []
  match ← findResidentCredentialIndicesForUser crypto store request.rpId request.userId
      maxCredentials with
  | none => return []
  | some deletedIndices =>
    let effectiveCount :=
      if deletedIndices.length ≤ store.length then store.length - deletedIndices.length
      else store.length
    if maxCredentials ≤ effectiveCount then
      return []
    if !(← recordFormatWriteRecord crypto record) then
      return []
    return deletedIndices

/-- What advancing a counter does before it replaces the record, and whether it comes to that. -/
def beforeAdvance (store : CredentialStore) (index signCount : ℕ) : Program Pin.Device Bool := do
  match store[index]? with
  | none => return false
  | some entry =>
    match ← loadRecord crypto entry with
    | none => return false
    | some record =>
      if signCount < entry.signCount ∨ signCount ≤ entry.counterHighWater then
        return false
      beforeReplacement crypto { record with signCount }

/-- What a reset removes before the files of the data directory. -/
def beforeListing : Program Pin.Device Bool :=
  u2fDataWipe <&&> ensureAppDataDir <&&> removeOptionalPaths pinPathsToWipe

/-- The files that a sequence of removals takes when it fails. -/
def takenByFailure (paths : List Path) (outcomes : List WriteOutcome) : List Path :=
  ((failureWithin paths.length outcomes).map fun failure ↦ paths.take (taken failure)).getD []

/-- The index does not have the id. -/
def isNew (store : CredentialStore) (credentialId : Bytes) : Bool :=
  store.all fun entry ↦ entry.credentialId != credentialId

/-- An event in which no failure takes the record of an entry that stays in the index. Names are
listed once, new credentials have new ids and positions to delete are in ascending order. -/
def sparesRecords (state : StoreState) (event : StoreEvent) : Bool :=
  match event, state.store with
  | .start listings, _ =>
    decide ((((listings.records.getD []).filter DirEntry.isRecord).map (·.name)).Nodup)
  | _, none => true
  | .add record _, some store => isNew store record.credentialId
  | .register request record _ residentKey, some store =>
    isNew store record.credentialId &&
      passes (beforeRemoval crypto request record residentKey store) state.device
        fun deletedIndices device ↦
          !strands (inUsePositions store deletedIndices).length device.writes
  | .delete credentialId, some store =>
    isNew store credentialId || !strands 1 state.device.writes
  | .deleteIndices indices, some store =>
    decide (indices.Pairwise (· < ·)) &&
      !strands (inUsePositions store indices).length state.device.writes
  | .advanceCounter index signCount, some store =>
    passes (beforeAdvance crypto store index signCount.toNat) state.device
      fun replaces device ↦ !replaces || !tearsPrimary device.writes
  | .reset listing, some store =>
    passes beforeListing state.device fun ready device ↦ !ready || store.all fun entry ↦
      !(takenByFailure (listedPaths (listing.getD [])) device.writes).contains
        (recordPath (indexEntryFileName entry))

end Conditions

section Steps

variable {crypto : Crypto} {world : Pin.Device} {store : CredentialStore}
  {record : CredentialRecord}

theorem ne_of_isNew {credentialId : Bytes} (h : isNew store credentialId = true) :
    ∀ entry ∈ store, entry.credentialId ≠ credentialId := by
  intro entry hentry
  have hne := List.all_eq_true.mp h entry hentry
  simpa using hne

/-- What a command that is run alone comes to. -/
theorem ensures_undisturbedOn {Value : Type} {process : Process App Value}
    {post : CredentialStore → Pin.Device → Prop}
    (h : Maintains Eq (fun _ ↦ True) (fun _ app ↦ post app.store app.device) (fun _ ↦ True) process
      { store, device := world }) :
    Ensures (undisturbedOn process store) post (fun _ ↦ True) world := by
  have hreturned := h.finish.1
  unfold Ensures EStateM.run undisturbedOn
  rcases hfinish : process.finish { store, device := world } with ⟨_ | value, app⟩
  · trivial
  · rw [hfinish] at hreturned
    exact hreturned value rfl

/-- Every entry of the shared index names a record. -/
def App.Stored (crypto : Crypto) (app : App) : Prop :=
  Store.Stored crypto app.device.files app.store

/-- A section on the device of a process that is run alone. -/
theorem maintains_onDevice_alone {Value : Type} {program : Program Pin.Device Value} {app : App}
    {post : Value → App → Prop}
    (h : Ensures program (fun value device ↦ post value { app with device }) (fun _ ↦ True)
      app.device) :
    Maintains Eq (fun _ ↦ True) post (fun _ ↦ True) (atomically (onDevice program)) app :=
  maintains_alone ((ensures_onDevice program).mpr h) trivial

section Registration

variable {app : App} {request : MakeCredentialRequest} {deletedIndices : List ℕ}

/-- Publishing the new credential, whose record is written, and the removal of the old ones. -/
theorem maintains_addCredential_stored (hrecord : record.WellFormed)
    (hstored : Store.Stored crypto app.device.files
      (publishDeletedIndices app.store deletedIndices))
    (hnames : NamesRecord crypto app.device.files (indexEntryFromRecord crypto record))
    (hfresh : ∀ entry ∈ app.store, entry.credentialId ≠ record.credentialId) :
    Maintains Eq (fun _ ↦ True) (fun _ app' ↦ app'.Stored crypto) (fun _ ↦ True)
      (addCredential crypto deletedIndices record) app := by
  have hremaining : ∀ entry ∈ publishDeletedIndices app.store deletedIndices,
      entry.credentialId ≠ record.credentialId :=
    fun entry hentry ↦ hfresh entry (sublist_publishDeletedIndices.subset hentry)
  unfold addCredential
  rw [maintains_bind]
  refine maintains_alone ?_ trivial
  simp only [publishCredential, publishAddedRecord, ensures_bind, ensures_modify, ensures_get]
  by_cases hfull : maxCredentials ≤ (publishDeletedIndices app.store deletedIndices).length
  · simp only [if_pos hfull, ensures_pure, Bool.not_false, if_true, maintains_bind]
    refine maintains_onDevice_alone ?_
    exact (ensures_removeRecordFile_stored hstored hrecord hremaining).mono
      (fun _ _ hfinal ↦ hfinal) fun _ _ ↦ trivial
  · simp only [if_neg hfull, ensures_bind, ensures_modify, assertionQueueClear, announce,
      ensures_pure, Bool.not_true, Bool.false_eq_true, if_false, maintains_pure]
    exact hstored.added hrecord hremaining hnames

/-- Removing the credentials that the new one replaces. -/
theorem maintains_replaceCredentials_stored (h : app.Stored crypto) (hrecord : record.WellFormed)
    (hnames : NamesRecord crypto app.device.files (indexEntryFromRecord crypto record))
    (hfresh : ∀ entry ∈ app.store, entry.credentialId ≠ record.credentialId)
    (hsorted : deletedIndices.Pairwise (· < ·))
    (hspares : strands (inUsePositions app.store deletedIndices).length app.device.writes = false) :
    Maintains Eq (fun _ ↦ True) (fun _ app' ↦ app'.Stored crypto) (fun _ ↦ True)
      (replaceCredentials crypto deletedIndices record) app := by
  unfold replaceCredentials
  rw [maintains_bind]
  refine maintains_alone ?_ trivial
  rw [ensures_bind, ensures_get, ensures_onDevice]
  refine (ensures_removeCredentialFilesByIndices_kept (fun entry hentry ↦ h.isRecord hentry)
    hspares).mono ?_ fun _ _ ↦ trivial
  rintro ⟨removed, removedCount⟩ device ⟨count, hcount, hall, hbounded, hkept⟩
  rw [Nat.zero_add] at hcount
  dsimp only at hcount hall
  subst hcount
  have hremaining : Store.Stored crypto device.files
      (publishDeletedIndices app.store (deletedIndices.take removedCount)) :=
    Store.Stored.publishDeletedIndices h ⟨hsorted.sublist (List.take_sublist _ _), hbounded⟩ hkept
  simp only [maintains_ite]
  refine ⟨fun _ ↦ ?_, fun hremoved ↦ ?_⟩
  · -- The removal failed: what was removed is published, and the new record is taken back.
    have htaken : ∀ later : App, later.device = device → later.store =
        publishDeletedIndices app.store (deletedIndices.take removedCount) →
        Maintains Eq (fun _ ↦ True) (fun _ app' ↦ app'.Stored crypto) (fun _ ↦ True) (do
          let _ ← atomically (onDevice (removeRecordFile record))
          return CtapStatus.other : Process App CtapStatus) later := by
      rintro later rfl hlater
      rw [maintains_bind]
      refine maintains_onDevice_alone ?_
      rw [← hlater] at hremaining
      refine (ensures_removeRecordFile_stored hremaining hrecord fun entry hentry ↦ ?_).mono
        (fun _ _ hfinal ↦ hfinal) fun _ _ ↦ trivial
      rw [hlater] at hentry
      exact hfresh entry (sublist_publishDeletedIndices.subset hentry)
    refine ⟨fun _ ↦ ?_, fun hnone ↦ ?_⟩
    · rw [maintains_bind]
      refine maintains_alone ?_ trivial
      simp only [publishPartialRemoval, assertionQueueClear, ensures_bind, ensures_modify]
      exact htaken _ rfl rfl
    · obtain rfl : removedCount = 0 := by omega
      exact htaken _ rfl rfl
  · have hwhole : deletedIndices.take removedCount = deletedIndices := by
      rw [hall (by simpa using hremoved), List.take_length]
    rw [hwhole] at hremaining
    refine maintains_addCredential_stored hrecord hremaining (hnames.congr ?_) hfresh
    have hname : indexEntryFileName (indexEntryFromRecord crypto record) = record.fileName :=
      hrecord.fileName.symm
    rw [hname]
    exact hkept _ hrecord.isRecord (not_mem_namesAt hbounded hrecord hfresh)

/-- Writing the new record and what comes after it. -/
theorem maintains_storeCredential_stored (hlaws : SealLaws crypto) (h : app.Stored crypto)
    (hrecord : record.WellFormed)
    (hfresh : ∀ entry ∈ app.store, entry.credentialId ≠ record.credentialId)
    (hsorted : deletedIndices.Pairwise (· < ·)) {residentKey : Bool}
    (hspares : residentKey = true → ∀ device,
      ¬maxCredentials ≤ (if deletedIndices.length ≤ app.store.length then
        app.store.length - deletedIndices.length else app.store.length) →
      (recordFormatWriteRecord crypto record).run app.device = .ok true device →
        strands (inUsePositions app.store deletedIndices).length device.writes = false)
    (hnone : residentKey = false → deletedIndices = []) :
    Maintains Eq (fun _ ↦ True) (fun _ app' ↦ app'.Stored crypto) (fun _ ↦ True)
      (storeCredential crypto record residentKey deletedIndices) app := by
  unfold storeCredential
  rw [maintains_bind]
  refine maintains_alone ?_ trivial
  rw [ensures_bind, ensures_get, ensures_pure, maintains_ite]
  refine ⟨fun _ ↦ h, fun hroom ↦ ?_⟩
  rw [maintains_bind]
  refine maintains_onDevice_alone ?_
  refine (ensures_recordFormatWriteRecord_stored hlaws h hrecord hfresh).with_run.mono ?_
    fun _ _ ↦ trivial
  rintro ok device ⟨⟨hstored, hnames⟩, hrun⟩
  simp only [maintains_ite, maintains_pure]
  refine ⟨fun _ ↦ hstored, fun hok ↦ ?_⟩
  obtain rfl : ok = true := by simpa using hok
  have hadds : ∀ indices : List ℕ, indices = [] →
      Maintains Eq (fun _ ↦ True) (fun _ app' ↦ app'.Stored crypto) (fun _ ↦ True)
        (addCredential crypto indices record) { app with device } := by
    rintro _ rfl
    exact maintains_addCredential_stored hrecord hstored (hnames rfl) hfresh
  refine ⟨fun hresident ↦ ?_, fun hother ↦ hadds _ ?_⟩
  · rw [Bool.and_eq_true] at hresident
    exact maintains_replaceCredentials_stored hstored hrecord (hnames rfl) hfresh hsorted
      (hspares hresident.1 device hroom hrun)
  · cases residentKey with
    | false => exact hnone rfl
    | true =>
      rw [Bool.true_and, decide_eq_true_eq] at hother
      exact List.length_eq_zero_iff.mp (Nat.eq_zero_of_not_pos hother)

/-- A registration. -/
theorem maintains_commitCredential_stored (hlaws : SealLaws crypto) (h : app.Stored crypto)
    (hrecord : record.WellFormed)
    (hfresh : ∀ entry ∈ app.store, entry.credentialId ≠ record.credentialId) {residentKey : Bool}
    (hspares : passes (beforeRemoval crypto request record residentKey app.store) app.device
      (fun deletedIndices device ↦
        !strands (inUsePositions app.store deletedIndices).length device.writes) = true) :
    Maintains Eq (fun _ ↦ True) (fun _ app' ↦ app'.Stored crypto) (fun _ ↦ True)
      (commitCredential crypto request record residentKey) app := by
  unfold commitCredential findReplacedIndices
  cases residentKey with
  | false =>
    simp only [Bool.false_eq_true, if_false]
    exact maintains_storeCredential_stored hlaws h hrecord hfresh List.Pairwise.nil (by simp)
      fun _ ↦ rfl
  | true =>
    rw [if_pos rfl, maintains_bind]
    refine maintains_alone ?_ trivial
    rw [ensures_bind, ensures_get, ensures_onDevice]
    refine ((ensures_findResidentCredentialIndicesForUser_kept hlaws h).and
      ensures_findResidentCredentialIndicesForUser).with_run.mono ?_ fun _ _ ↦ trivial
    rintro found device ⟨⟨hkept, hascending⟩, hrun⟩
    have hstored : App.Stored crypto { app with device } := Store.Stored.of_kept h hkept
    cases found with
    | none => exact hstored
    | some deletedIndices =>
      refine maintains_storeCredential_stored hlaws hstored hrecord hfresh
        (hascending _ rfl).sorted (fun _ final hroom hwritten ↦ ?_) (by simp)
      have hbefore : (beforeRemoval crypto request record true app.store).run app.device =
          .ok deletedIndices final := by
        simp only [beforeRemoval, Bool.not_true, Bool.false_eq_true, if_false, run_bind_eq_ok]
        refine ⟨some deletedIndices, device, hrun, ?_⟩
        simp only [if_neg hroom, run_bind_eq_ok]
        exact ⟨true, final, hwritten, rfl⟩
      simpa using passes_of_run hspares hbefore

end Registration

section Reset

variable {listing : Listing}

/-- The files that a reset removes before those of the data directory are no records. -/
theorem ensures_beforeListing_kept :
    Ensures beforeListing (fun _ world' ↦ RecordsKept world.files world'.files) (fun _ ↦ True)
      world := by
  have hshort : ∀ path ∈ u2fPathsToWipe ++ pinPathsToWipe, path.length < 88 := by decide +kernel
  have hrecord : ∀ name : Path, isRecordName name = true → (recordPath name).length = 88 := by
    intro name hname
    rw [recordPath, length_childPath, length_of_isRecordName hname]
  have hkeeps : ∀ (paths : List Path) (program : Program Pin.Device Bool), Takes paths program →
      (∀ path ∈ paths, path ∈ u2fPathsToWipe ++ pinPathsToWipe) → ∀ start : Pin.Device,
      Ensures program (fun _ world' ↦ RecordsKept start.files world'.files) (fun _ ↦ True)
        start := by
    intro paths program htakes hpaths start
    refine htakes.frame.mono ?_ fun _ _ ↦ trivial
    rintro ok final hframe name hname
    refine hframe _ fun hmem ↦ ?_
    have hlength := hshort _ (hpaths _ hmem)
    rw [hrecord name hname] at hlength
    omega
  have hu2f : Takes u2fPathsToWipe (u2fDataWipe : Program Pin.Device Bool) :=
    (takes_removeAtomicFile (by decide)).andThen (takes_removeAtomicFile (by decide))
  rw [beforeListing, ensures_andM]
  refine (hkeeps _ _ hu2f (fun path hpath ↦ List.mem_append_left _ hpath) world).mono ?_
    fun _ _ ↦ trivial
  intro ok first hfirst
  refine ⟨fun _ ↦ ?_, fun _ ↦ hfirst⟩
  rw [ensures_andM]
  refine ensures_ensureAppDataDir.mono ?_ fun _ _ ↦ trivial
  rintro ready second ⟨hidle, -⟩
  have hsecond : RecordsKept world.files second.files := by
    rw [hidle.files_eq]
    exact hfirst
  refine ⟨fun _ ↦ ?_, fun _ ↦ hsecond⟩
  exact (hkeeps _ _ (takes_removeOptionalPaths pinPathsToWipe)
    (fun path hpath ↦ List.mem_append_right _ hpath) second).mono
    (fun _ _ hfinal ↦ hsecond.trans hfinal) fun _ _ ↦ trivial

theorem wipeFiles_eq (listing : Listing) :
    (wipeFiles listing : Program Pin.Device Bool) =
      (beforeListing <&&> forEachDirEntry bootstrapWipeVisitor listing) := by
  rw [wipeFiles, bootstrapWipeAppData_eq, beforeListing, andM_assoc, andM_assoc]

/-- A wipe that fails without taking a record of the index. -/
theorem ensures_wipeFiles_stored (h : Store.Stored crypto world.files store)
    (hspares : passes beforeListing world (fun ready device ↦ !ready || store.all fun entry ↦
      !(takenByFailure (listedPaths (listing.getD [])) device.writes).contains
        (recordPath (indexEntryFileName entry))) = true) :
    Ensures (wipeFiles listing)
      (fun ok world' ↦ ok = false → Store.Stored crypto world'.files store) (fun _ ↦ True)
      world := by
  rw [wipeFiles_eq, ensures_andM]
  refine ensures_beforeListing_kept.with_run.mono ?_ fun _ _ ↦ trivial
  rintro ready middle ⟨hkept, hrun⟩
  have hmiddle := h.of_kept hkept
  refine ⟨fun hready ↦ ?_, fun _ _ ↦ hmiddle⟩
  subst hready
  have hentries := passes_of_run hspares hrun
  rw [Bool.not_true, Bool.false_or, List.all_eq_true] at hentries
  cases listing with
  | none => exact fun _ ↦ hmiddle
  | some entries =>
    rw [forEachDirEntry, visitDirEntries_wipe]
    refine ((takes_removeOptionalPaths (listedPaths entries)).spec middle).mono ?_
      fun _ _ ↦ trivial
    rintro ok final ⟨-, hfailed⟩ hok
    obtain ⟨failure, -, hfailure, hfiles⟩ := hfailed hok
    refine hmiddle.of_files fun entry hentry ↦ ?_
    rw [hfiles]
    refine cleared_of_not_mem fun hmem ↦ ?_
    have htaken : takenByFailure (listedPaths entries) middle.writes =
        (listedPaths entries).take (taken failure) := by
      rw [takenByFailure, ← Nat.add_zero (listedPaths entries).length, hfailure, Option.map_some,
        Option.getD_some]
    have hnot := hentries entry hentry
    rw [Option.getD_some, htaken, Bool.not_eq_true', ← Bool.not_eq_true, List.contains_iff_mem]
      at hnot
    exact hnot hmem

/-- A reset. -/
theorem maintains_resetLocked_stored {app : App} (h : app.Stored crypto)
    (hspares : passes beforeListing app.device (fun ready device ↦ !ready ||
      app.store.all fun entry ↦
        !(takenByFailure (listedPaths (listing.getD [])) device.writes).contains
          (recordPath (indexEntryFileName entry))) = true) :
    Maintains Eq (fun _ ↦ True) (fun _ app' ↦ app'.Stored crypto) (fun _ ↦ True)
      (resetLocked crypto listing) app := by
  unfold resetLocked
  rw [maintains_bind]
  refine maintains_alone ?_ trivial
  simp only [assertionQueueClear, announce, ensures_bind, ensures_modify, maintains_bind]
  refine maintains_onDevice_alone ?_
  refine (ensures_wipeFiles_stored h hspares).mono (fun ok middle hmiddle ↦ ?_) fun _ _ ↦ trivial
  simp only [maintains_ite, maintains_pure, maintains_bind]
  refine ⟨fun hok ↦ hmiddle (by simpa using hok), fun _ ↦ ?_⟩
  refine maintains_onDevice_alone ?_
  refine Pin.ensures_pinInitWithResult.mono ?_ fun _ _ ↦ trivial
  rintro ⟨pinInit, nextPinState⟩ final -
  rw [maintains_bind]
  refine maintains_alone ?_ trivial
  rw [ensures_modify]
  exact stored_nil

end Reset

/-- Advancing the counter of a record that is loaded for it. -/
theorem ensures_advanceAt_stored (hlaws : SealLaws crypto) (hopen : OpenKeepsLength crypto)
    (h : Store.Stored crypto world.files store) {index : ℕ} {signCount : UInt32}
    (hspares : passes (beforeAdvance crypto store index signCount.toNat) world
      (fun replaces device ↦ !replaces || !tearsPrimary device.writes) = true) :
    Ensures (advanceAt crypto store index signCount.toNat)
      (fun store' world' ↦ Store.Stored crypto world'.files store') (fun _ ↦ True) world := by
  unfold advanceAt
  cases hentry : store[index]? with
  | none => exact h
  | some entry =>
    have hmem := List.mem_of_getElem? hentry
    simp only [ensures_bind]
    refine (ensures_loadRecord_kept hlaws (h.isRecord hmem)).with_run.mono ?_ fun _ _ ↦ trivial
    rintro loaded middle ⟨⟨hkept, hfound⟩, hrun⟩
    have hmiddle := h.of_kept hkept
    cases loaded with
    | none => exact hmiddle
    | some record =>
      obtain ⟨stored, embedded, hstored, hsame⟩ := exists_of_loadFound (hfound record rfl)
      obtain ⟨hwellFormed, -⟩ := wellFormed_of_recordFound hopen hstored
      obtain ⟨named, embedded', hnamed, hid, hrpId⟩ := h.names entry hmem
      obtain ⟨rfl, -⟩ := Prod.mk.inj (Option.some.inj (hstored.symm.trans hnamed))
      have hrecord : CredentialRecord.WellFormed { record with signCount := signCount.toNat } := by
        rw [hsame]
        exact { hwellFormed with signCount := Nat.le_of_lt_succ signCount.toNat_lt }
      simp only [ensures_bind]
      refine (ensures_advanceCounter_stored hlaws hmiddle hentry hrecord ?_ ?_ ?_).mono
        (fun _ _ hfinal ↦ hfinal) fun _ _ ↦ trivial
      · rw [hsame]
        exact hid
      · rw [hsame]
        exact hrpId
      · intro hcount hhigh final hreplaces
        have hnot : ¬(signCount.toNat < entry.signCount ∨
            signCount.toNat ≤ entry.counterHighWater) := by
          dsimp only at hcount hhigh
          omega
        have hbefore : (beforeAdvance crypto store index signCount.toNat).run world =
            .ok true final := by
          unfold beforeAdvance
          simp only [hentry, run_bind_eq_ok]
          refine ⟨some record, middle, hrun, ?_⟩
          simp only [if_neg hnot]
          exact hreplaces
        simpa using passes_of_run hspares hbefore

/-- Every event keeps the index and the files together, unless a failure takes a record. -/
theorem ensures_changeStore_stored (hlaws : SealLaws crypto) (hopen : OpenKeepsLength crypto)
    {event : StoreEvent} (h : Store.Stored crypto world.files store)
    (hspares : sparesRecords crypto { device := world, store := some store } event = true) :
    Ensures (changeStore crypto store event)
      (fun store' device ↦ Store.Stored crypto device.files store') (fun _ ↦ True) world := by
  cases event with
  | start listings => exact h
  | add record hrecord =>
    rw [changeStore, ensures_map]
    exact ensures_addRecord_stored hlaws h hrecord (ne_of_isNew hspares)
  | register request record hrecord residentKey =>
    obtain ⟨hnew, hremoval⟩ := Bool.and_eq_true_iff.mp hspares
    have happ : App.Stored crypto { store, device := world } := h
    exact ensures_undisturbedOn (maintains_commitCredential_stored hlaws happ hrecord
      (ne_of_isNew hnew) hremoval)
  | delete credentialId =>
    rw [changeStore, ensures_map]
    refine ensures_deleteRecord_stored h fun hfound ↦ ?_
    obtain ⟨index, hindex⟩ := Option.isSome_iff_exists.mp hfound
    obtain ⟨hlength, hmatches, -⟩ := List.findIdx?_eq_some_iff_getElem.mp hindex
    rw [Bool.and_eq_true, beq_iff_eq] at hmatches
    rcases Bool.or_eq_true_iff.mp hspares with hnew | hremoval
    · exact absurd hmatches.2 (ne_of_isNew hnew _ (List.getElem_mem hlength))
    · simpa using hremoval
  | deleteIndices indices =>
    obtain ⟨hsorted, hremoval⟩ := Bool.and_eq_true_iff.mp hspares
    rw [changeStore, deleteByIndices, ensures_bind]
    refine (ensures_removeCredentialFilesByIndices_kept (fun entry hentry ↦ h.isRecord hentry)
      (by simpa using hremoval)).mono ?_ fun _ _ ↦ trivial
    rintro ⟨removed, removedCount⟩ final ⟨count, hcount, -, hbounded, hkept⟩
    obtain rfl : removedCount = count := hcount.trans (Nat.zero_add count)
    exact h.publishDeletedIndices
      ⟨(of_decide_eq_true hsorted).sublist (List.take_sublist _ _), hbounded⟩ hkept
  | advanceCounter index signCount => exact ensures_advanceAt_stored hlaws hopen h hspares
  | reset listing =>
    have happ : App.Stored crypto { store, device := world } := h
    exact ensures_undisturbedOn (maintains_resetLocked_stored happ hspares)

/-- The index, when there is one, and the files. -/
def StoreState.Stored (crypto : Crypto) (state : StoreState) : Prop :=
  ∀ store, state.store = some store → Store.Stored crypto state.device.files store

theorem stored_storeStep (hlaws : SealLaws crypto) (hopen : OpenKeepsLength crypto)
    {state : StoreState} {event : StoreEvent} (h : state.Stored crypto)
    (hspares : sparesRecords crypto state event = true) :
    (storeStep crypto state event).Stored crypto := by
  have hoperation : Ensures (storeOperation crypto state.store event)
      (fun next device ↦ ∀ store, next = some store → Store.Stored crypto device.files store)
      (fun _ ↦ True) state.device := by
    obtain ⟨device, current⟩ := state
    cases event with
    | start listings =>
      rw [storeOperation, ensures_bind]
      refine (ensures_bootstrapInit_stored hlaws hopen fun entries hentries ↦ ?_).mono ?_
        fun _ _ ↦ trivial
      · have hdistinct := of_decide_eq_true hspares
        rwa [hentries, Option.getD_some] at hdistinct
      · rintro ⟨ready, store⟩ final hfinal result hresult
        split_ifs at hresult
        exact Option.some.inj hresult ▸ hfinal
    | _ =>
      cases current with
      | none => exact fun _ hstore ↦ absurd hstore (by simp)
      | some store =>
        simp only [storeOperation, ensures_map]
        refine (ensures_changeStore_stored hlaws hopen (h store rfl) hspares).mono ?_
          fun _ _ ↦ trivial
        rintro store' final hfinal _ ⟨⟩
        exact hfinal
  intro store hstore
  unfold Ensures at hoperation
  unfold storeStep at hstore ⊢
  split at hstore
  · rename_i next device hrun
    rw [hrun] at hoperation
    exact hoperation store hstore
  · exact absurd hstore (by simp)

/-- When the index names stored credentials only. Let a device be started, any number of times, and
be used in any way, while any storage call fails or loses power. If no failure takes the record of
an entry that stays in the index, every entry in use names a record file that exists and decodes to
a record with the entry's id and of the entry's RP. -/
theorem index_names_stored (hlaws : SealLaws crypto) (hopen : OpenKeepsLength crypto)
    (device : Pin.Device) {events : List StoreEvent}
    (hevents : EveryStep (storeStep crypto)
      (fun state event ↦ sparesRecords crypto state event = true) { device } events) :
    let final := run (storeStep crypto) { device } events
    ∀ store, final.store = some store → ∀ entry ∈ store, entry.inUse = true →
      NamesRecord crypto final.device.files entry := by
  intro final store hstore entry hentry _
  have hfinal : final.Stored crypto :=
    run_invariant (fun state event hspares hstate ↦ stored_storeStep hlaws hopen hstate hspares)
      hevents fun _ hnone ↦ absurd hnone (by simp)
  exact (hfinal store hstore).names entry hentry

end Steps

section Samples

/-- A device with one credential, and what its directory lists. -/
def sampleStoreDevice (writes : List WriteOutcome) : Pin.Device :=
  { World.blank _ with files := sampleFiles, writes }

def sampleStoreListings : StartupListings :=
  let listing := some [{ name := (sampleRecord 1 1).fileName }]
  { temporary := listing, backups := listing, records := listing }

/-- Another credential is registered, counts are reserved for the first one, and a deletion fails
before it comes to the record file. -/
def sampleStoreEvents : List StoreEvent :=
  [.start sampleStoreListings,
    .register { clientDataHash := zeroBytes 32, rpId := [97], userId := [2] } (sampleRecord 2 1)
      (wellFormed_sampleRecord 2 (by decide)) true,
    .advanceCounter 0 1, .delete (sampleRecord 1 1).credentialId]

/-- The device on which the deletion fails there. -/
def sparingDevice : Pin.Device := sampleStoreDevice (List.replicate 22 .done ++ [.failed 0])

theorem index_names_stored_sparingDevice :
    (EveryStep (storeStep Crypto.standIn)
      (fun state event ↦ sparesRecords Crypto.standIn state event = true)
      { device := sparingDevice } sampleStoreEvents ∧
      ((run (storeStep Crypto.standIn) { device := sparingDevice } sampleStoreEvents).store.map
        List.length) = some 2) ∧
    let final := run (storeStep Crypto.standIn) { device := sparingDevice } sampleStoreEvents
    ∀ store, final.store = some store → ∀ entry ∈ store, entry.inUse = true →
      NamesRecord Crypto.standIn final.device.files entry := by
  have hevents : EveryStep (storeStep Crypto.standIn)
      (fun state event ↦ sparesRecords Crypto.standIn state event = true)
      { device := sparingDevice } sampleStoreEvents := by decide +kernel
  exact ⟨⟨hevents, by decide +kernel⟩,
    index_names_stored sealLaws_standIn (fun _ _ ↦ rfl) sparingDevice hevents⟩

/-- An entry of the index that has no record file. -/
def hasDangling (state : StoreState) : Bool :=
  state.store.any fun store ↦ store.any fun entry ↦
    entry.inUse && (state.device.files (recordPath (indexEntryFileName entry))).isNone

theorem not_namesRecord_of_hasDangling {crypto : Crypto} {state : StoreState}
    (h : hasDangling state = true) :
    ¬∀ store, state.store = some store → ∀ entry ∈ store, entry.inUse = true →
      NamesRecord crypto state.device.files entry := by
  intro hnames
  obtain ⟨store, hstore, hentries⟩ := (Option.any_eq_true _ _).mp h
  obtain ⟨entry, hentry, hdangling⟩ := List.any_eq_true.mp hentries
  rw [Bool.and_eq_true, Option.isNone_iff_eq_none] at hdangling
  obtain ⟨record, embedded, hfound, -⟩ := hnames store hstore entry hentry hdangling.1
  obtain ⟨data, hdata, -⟩ := Option.bind_eq_some_iff.mp hfound
  exact absurd (hdangling.2.symm.trans hdata) (by simp)

/-- A deletion whose fourth removal fails: the record file is gone, and the entry stays. -/
theorem failed_deletion_dangles :
    let events := [.start sampleStoreListings, .delete (sampleRecord 1 1).credentialId]
    let device := sampleStoreDevice [.done, .done, .done, .failed 0]
    let final := run (storeStep Crypto.standIn) { device } events
    (storeStep Crypto.standIn { device } (.start sampleStoreListings)).store.isSome ∧
      ¬∀ store, final.store = some store → ∀ entry ∈ store, entry.inUse = true →
        NamesRecord Crypto.standIn final.device.files entry :=
  ⟨by decide +kernel, not_namesRecord_of_hasDangling (by decide +kernel)⟩

end Samples

end ZeroFido.Ctap
