import ZeroFido.Ctap.DeviceLife
import ZeroFido.Ctap.UntilRemoval

/-!
# A registration that fails

When the removal of the replaced credentials takes a record file and then fails, makeCredential
answers with an error and a credential is gone. Whatever else fails, every credential can be used as
before, at once and after a restart (`failed_registration_destroys_nothing`). The stores that this
is about are those that a device comes to in its life (`inOrder_of_life`).
-/

set_option autoImplicit false
set_option relaxedAutoImplicit false

namespace ZeroFido.Ctap

open Foundations Storage Store Process

section Removing

variable {crypto : Crypto} {start app app' : App} {record : CredentialRecord}
  {entry : CredentialIndexEntry} {index : ℕ} {rest : List ℕ} {store : CredentialStore}
  {files files' : Path → Option Bytes} {name : Path} {status : CtapStatus} {credentials : ℕ}
  {outcomes : List WriteOutcome}

/-- The index is that of an earlier state, and every credential in it survives. -/
structure Outlives (start : App) (store : CredentialStore) (files : Path → Option Bytes) :
    Prop where
  store : store = start.store
  survives : ∀ entry ∈ start.store,
    Survives (indexEntryFileName entry) start.device.files files

theorem aboutCredentials_outlives : AboutCredentials start (Outlives start) :=
  fun _ _ _ h hsame ↦
    ⟨h.store, fun entry hentry ↦ (h.survives entry hentry).trans (hsame.survives hentry)⟩

/-- A credential has lost its record file. -/
def Lost (name : Path) (_ : CredentialStore) (files : Path → Option Bytes) : Prop :=
  files (recordPath name) = none

theorem aboutCredentials_lost (hentry : entry ∈ start.store) :
    AboutCredentials start (Lost (indexEntryFileName entry)) :=
  fun _ _ _ h hsame ↦ (hsame entry hentry _ (fileOf_recordPath _)).trans h

/-- What makeCredential comes to with a removal. -/
structure Ended (start : App) (name : Path) (credentials : ℕ) (outcomes : List WriteOutcome)
    (status : CtapStatus) (app : App) : Prop where
  kept : destroys credentials outcomes = false → status = .success ∨ Idly (Outlives start) app
  lost : destroys credentials outcomes = true → status = .other ∧ Idly (Lost name) app

theorem Ended.of_kept (hspares : destroys credentials outcomes = false)
    (h : status = .success ∨ Idly (Outlives start) app) :
    Ended start name credentials outcomes status app :=
  ⟨fun _ ↦ h, fun hdestroys ↦ absurd (hspares.symm.trans hdestroys) (by simp)⟩

theorem Ended.of_lost (hdestroys : destroys credentials outcomes = true)
    (h : status = .other ∧ Idly (Lost name) app) :
    Ended start name credentials outcomes status app :=
  ⟨fun hspares ↦ absurd (hspares.symm.trans hdestroys) (by simp), fun _ ↦ h⟩

theorem Ended.uiStep (h : Ended start name credentials outcomes status app) {event : UiEvent}
    (hevent : Undeleting app (some event)) :
    Ended start name credentials outcomes status (Ctap.uiStep app event) :=
  ⟨fun hspares ↦ (h.kept hspares).imp id fun hidly ↦ hidly.uiStep hevent,
    fun hdestroys ↦ ⟨(h.lost hdestroys).1, (h.lost hdestroys).2.uiStep hevent⟩⟩

variable (hstart : InOrder crypto start.device.files start.store)
  (hreplacing : Replacing crypto start (index :: rest) record)

include hreplacing

/-- Publishing the new credential, when those that it replaces are gone. -/
theorem maintains_addCredential_success (h : Idly (fun store _ ↦ store = start.store) app) :
    Maintains Apart (fun _ ↦ True) (fun status _ ↦ status = .success) (fun _ ↦ True)
      (addCredential crypto (index :: rest) record) app := by
  unfold addCredential
  rw [maintains_bind]
  refine maintains_idly h fun later hlater _ _ ↦ ?_
  simp only [publishCredential, ensures_bind, ensures_modify, ensures_get, hlater.holds,
    publishAddedRecord, if_neg (not_le.mpr hreplacing.room), assertionQueueClear, announce,
    ensures_pure, Bool.not_true, Bool.false_eq_true, if_false, maintains_pure]

include hstart

/-- Taking the new record back, with an error. -/
theorem maintains_takeBack {property : CredentialStore → (Path → Option Bytes) → Prop}
    (hproperty : AboutCredentials start property) (h : Idly property app) :
    Maintains Apart (fun _ ↦ True) (fun status app' ↦ status = .other ∧ Idly property app')
      (fun _ ↦ True) (do
        let _ ← atomically (onDevice (removeRecordFile record))
        return CtapStatus.other) app := by
  rw [maintains_bind]
  exact (upholds_idly_removeRecordFile hstart.lengths hproperty hreplacing.novel app h).weaken
    fun _ _ hfinal ↦ ⟨rfl, hfinal⟩

/-- The removal and what follows it. -/
theorem maintains_replaceCredentials_ended (hentry : start.store[index]? = some entry)
    (h : Idly (Spares start) app) :
    Maintains Apart (fun _ ↦ True)
      (Ended start (indexEntryFileName entry) (index :: rest).length app.device.writes)
      (fun _ ↦ True) (replaceCredentials crypto (index :: rest) record) app := by
  have hmem := List.mem_of_getElem? hentry
  have hname := hstart.isRecord hmem
  unfold replaceCredentials
  rw [maintains_bind]
  refine maintains_idly h fun first hfirst _ hwaiting ↦ ?_
  have hremoval := @ensures_removeCredentialFilesByIndices_destroys _ _ _ first.device _ _ _ _
    hstart hentry hreplacing.loads
  rw [← hfirst.holds.store, hwaiting.writes] at hremoval
  rw [ensures_bind, ensures_get, ensures_onDevice]
  refine hremoval.mono ?_ fun _ _ ↦ trivial
  rintro ⟨removed, removedCount⟩ device ⟨hkept, hlost⟩
  dsimp only at hkept hlost ⊢
  by_cases hdestroys : destroys (index :: rest).length app.device.writes = true
  · obtain ⟨rfl, hgone⟩ := hlost hdestroys
    have hsecond : Idly (Lost (indexEntryFileName entry)) { first with device } :=
      ⟨hfirst.idle, hgone⟩
    simp only [Bool.not_false, if_true]
    have htaken : ∀ app', Idly (Lost (indexEntryFileName entry)) app' → Maintains Apart
        (fun _ ↦ True) (Ended start (indexEntryFileName entry) (index :: rest).length
          app.device.writes) (fun _ ↦ True) (do
            let _ ← atomically (onDevice (removeRecordFile record))
            return CtapStatus.other) app' := fun app' happ' ↦
      (maintains_takeBack hstart hreplacing (aboutCredentials_lost hmem) happ').weaken
        fun _ _ hfinal ↦ Ended.of_lost hdestroys hfinal
    rw [maintains_ite]
    refine ⟨fun _ ↦ ?_, fun _ ↦ htaken _ hsecond⟩
    rw [maintains_bind]
    refine maintains_idly hsecond fun third hthird _ _ ↦ ?_
    simp only [publishPartialRemoval, assertionQueueClear, ensures_bind, ensures_modify]
    exact htaken _ ⟨hthird.idle, hthird.holds⟩
  · rw [Bool.not_eq_true] at hdestroys
    cases removed with
    | true =>
      simp only [Bool.not_true, Bool.false_eq_true, if_false]
      have hsecond : Idly (fun store _ ↦ store = start.store) { first with device } :=
        ⟨hfirst.idle, hfirst.holds.store⟩
      exact (maintains_addCredential_success hreplacing hsecond).weaken
        fun _ _ hstatus ↦ Ended.of_kept hdestroys (Or.inl hstatus)
    | false =>
      rcases hkept hdestroys with habsurd | ⟨rfl, hframe⟩
      · exact absurd habsurd (by simp)
      · have hsecond : Idly (Outlives start) { first with device } := by
          refine ⟨hfirst.idle, hfirst.holds.store, fun other hother ↦ ?_⟩
          exact (hfirst.holds.files.survives hother).trans
            (survives_of_frame (hstart.isRecord hother) hname hframe)
        simp only [Bool.not_false, if_true, Nat.lt_irrefl, if_false]
        exact (maintains_takeBack hstart hreplacing aboutCredentials_outlives hsecond).weaken
          fun _ _ hfinal ↦ Ended.of_kept hdestroys (Or.inr hfinal.2)

/-- The rest of makeCredential, from the removal on. -/
theorem maintains_finishRegistration_ended (hentry : start.store[index]? = some entry)
    (h : Idly (Spares start) app) :
    Maintains Apart (fun _ ↦ True)
      (Ended start (indexEntryFileName entry) (index :: rest).length app.device.writes)
      (fun _ ↦ True) (finishRegistration crypto (.replacing (index :: rest) record)) app := by
  unfold finishRegistration
  rw [maintains_bind]
  refine (maintains_replaceCredentials_ended hstart hreplacing hentry h).weaken
    fun status first hfirst ↦ ?_
  rw [maintains_bind]
  by_cases hdestroys : destroys (index :: rest).length app.device.writes = true
  · obtain ⟨hstatus, hidly⟩ := hfirst.lost hdestroys
    exact (upholds_idly_endMaintenance first hidly).weaken
      fun _ _ hfinal ↦ Ended.of_lost hdestroys ⟨hstatus, hfinal⟩
  · rw [Bool.not_eq_true] at hdestroys
    rcases hfirst.kept hdestroys with hstatus | hidly
    · exact (maintains_atomically _).mpr ⟨trivial, fun later _ ↦
        Ended.of_kept hdestroys (Or.inl hstatus)⟩
    · exact (upholds_idly_endMaintenance first hidly).weaken
        fun _ _ hfinal ↦ Ended.of_kept hdestroys (Or.inr hfinal)

end Removing

section Result

variable {crypto : Crypto} {app app' : App}

/-- A load of a credential in the index gives the record. -/
structure Usable (crypto : Crypto) (app : App) (entry : CredentialIndexEntry)
    (record : CredentialRecord) : Prop where
  indexed : entry ∈ app.store
  inUse : entry.inUse = true
  found : loadFound crypto app.device.files (indexEntryFileName entry) = some record

/-- A startup in which nothing fails indexes the credential again, with no lower count, and a load
then gives its record. -/
def FoundAgain (crypto : Crypto) (listings : StartupListings) (device : Pin.Device)
    (entry : CredentialIndexEntry) (record : CredentialRecord) : Prop :=
  Ensures (bootstrapInit crypto listings)
    (fun result device' ↦ result.1 = true ∧ Indexed crypto record result.2 ∧
      Retrievable crypto device'.files (indexEntryFileName entry) record)
    (fun _ ↦ False) ((undisturbed listings).device device)

/-- Every credential that could be used can be used, and still after a restart that finds its
file. -/
def DestroysNothing (crypto : Crypto) (before after : App) : Prop :=
  ∀ entry record, Usable crypto before entry record → Usable crypto after entry record ∧
    ∀ listings, FindsRecord listings (indexEntryFileName entry) →
      FoundAgain crypto listings after.device entry record

/-- The state in which the removal begins, if this run comes to one, is one in which it does not
take a record file and then fail. -/
def sparesRemoval (crypto : Crypto) (capabilities : Capabilities) (createdAt : ℕ)
    (parsed : Reply MakeCredentialRequest) (app : App) (schedule : List (Option UiEvent)) : Bool :=
  (comesTo uiStep schedule
    (makeCredentialUntilRemoval crypto capabilities createdAt parsed, app)).all fun reached ↦
      match reached.1 with
      | .answered _ => true
      | .replacing deletedIndices _ => !destroys deletedIndices.length reached.2.1.device.writes

theorem Outlives.destroysNothing (hlaws : SealLaws crypto)
    (hstart : InOrder crypto app.device.files app.store)
    (h : Outlives app app'.store app'.device.files) : DestroysNothing crypto app app' := by
  intro entry record husable
  have hmem := husable.indexed
  have hsurvives := h.survives entry hmem
  refine ⟨⟨h.store ▸ hmem, husable.inUse, ?_⟩, fun listings hfinds ↦ ?_⟩
  · rw [loadFound_congr hsurvives.record hsurvives.floor]
    exact husable.found
  · have hretained : Retained crypto entry.credentialId record
        ((undisturbed listings).device app'.device) :=
      Survives.retained hsurvives (hstart.counts entry hmem) husable.found ⟨rfl, rfl, rfl⟩
    exact ensures_bootstrapInit_retained hlaws (hstart.lengths entry hmem) hretained hfinds

theorem Spares.outlives {start : App} {store : CredentialStore} {files : Path → Option Bytes}
    (h : Spares start store files) : Outlives start store files :=
  ⟨h.store, fun _ hentry ↦ h.files.survives hentry⟩

end Result

section Reachable

variable {crypto : Crypto} {device : Pin.Device} {events : List LifeEvent}

/-- The credentials of a device that began its life without any are in order. -/
theorem inOrder_of_life (hlaws : SealLaws crypto) (hopen : OpenKeepsLength crypto)
    (hkeys : KeyLaws crypto)
    (hnew : ∀ credentialId : Bytes, credentialId.length = credentialIdLen →
      heldRecord device.files credentialId = none)
    (hallowed : ∀ credentialId : Bytes, credentialId.length = credentialIdLen →
      EveryStep (lifeStep crypto) (Allowed credentialId) (Life.off device) events) :
    InOrder crypto (run (lifeStep crypto) (Life.off device) events).system.app.device.files
      (run (lifeStep crypto) (Life.off device) events).system.app.store := by
  have hatCount : ∀ credentialId : Bytes, credentialId.length = credentialIdLen →
      AtCount crypto credentialId 0
        (run (lifeStep crypto) (Life.off device) events).system.app.device.files
        (run (lifeStep crypto) (Life.off device) events).system.app.store :=
    fun credentialId hlength ↦ Ctap.AtCount.lower (ordered_run hlaws hopen hkeys hlength
      (hnew _ hlength) (hallowed _ hlength)).kept.1 (Nat.zero_le _)
  have hlengths := (hatCount (zeroBytes credentialIdLen) (by simp [zeroBytes])).lengths
  exact ⟨hlengths, fun entry hentry ↦ (hatCount _ (hlengths entry hentry)).counts⟩

end Reachable

section Samples

instance decidableUndeleting (app : App) (event : Option UiEvent) :
    Decidable (Undeleting app event) :=
  match event with
  | none => inferInstanceAs (Decidable (∀ entry ∈ app.store,
      entry.credentialId ≠ (List.range credentialIdLen).map app.device.entropy))
  | some (.beginDelete _) => isFalse id
  | some (.finishInteraction _) | some (.selectAccount _) | some .deleteFiles | some .endDelete
  | some (.timePasses _) => isTrue trivial

/-- The authenticator with one credential, on which one call that changes a file fails. -/
def failingAfter (calls : ℕ) : App :=
  { oneAccount with
    device := { oneAccount.device with writes := List.replicate calls .done ++ [.failed 0] } }

/-- The user approves the registration. -/
def approvingSchedule : List (Option UiEvent) :=
  List.replicate 12 none ++ [some (.finishInteraction .approved)] ++ List.replicate 16 none

/-- The account is registered again. -/
def failingAccountAgain (calls : ℕ) : Process App CtapStatus × App :=
  interleave uiStep (handleMakeCredential Crypto.standIn {} 1 (.ok accountRequest))
    (failingAfter calls) approvingSchedule

/-- A credential that was written at count zero, without a counter floor. -/
theorem inOrder_singleton {crypto : Crypto} {files : Path → Option Bytes}
    {record : CredentialRecord} {data : Bytes}
    (hdata : files (recordPath record.fileName) = some data)
    (hrecorded : Store.Recorded crypto data record)
    (hzero : record.signCount = 0) (hfloor : heldFloor files record.credentialId = none) :
    InOrder crypto files [indexEntryFromRecord crypto record] := by
  have hlength : record.credentialId.length = credentialIdLen := hrecorded.wellFormed.credentialId
  have hcounts : CountsFrom crypto files record.credentialId 0 := by
    intro data' hdata'
    rw [hrecorded.wellFormed.fileName] at hdata
    rw [heldRecord, logical, hdata, Option.some_or] at hdata'
    obtain rfl := Option.some.inj hdata'
    refine ⟨record, hrecorded, rfl, ?_, Nat.zero_le _, fun raw hraw ↦ ?_⟩
    · rw [hzero]
      exact windowEnd_zero
    · exact absurd (hraw.symm.trans hfloor) (by simp)
  constructor
  all_goals
    intro entry hentry
    rw [List.mem_singleton.mp hentry]
  · exact hlength
  · exact hcounts

theorem inOrder_sampleFiles :
    InOrder Crypto.standIn sampleFiles
      [indexEntryFromRecord Crypto.standIn (sampleRecord 1 1)] := by
  have hname := isRecordName_sampleRecord
  have hzero : (sampleRecord 1 1).signCount = 0 := rfl
  have hfile : (sampleRecord 1 1).fileName = hexEncode (sampleRecord 1 1).credentialId := rfl
  obtain ⟨⟨data, hdata, hrecorded⟩, hother⟩ := sampleFiles_eq
  generalize sampleRecord 1 1 = record at hname hzero hfile hdata hrecorded hother ⊢
  generalize sampleFiles = files at hdata hother ⊢
  obtain ⟨hrecord, hbackup, -⟩ := counterFloorPath_ne hname (Or.inl rfl)
  obtain ⟨htemp, htemp', -⟩ := counterFloorPath_ne hname (Or.inr (Or.inr rfl))
  refine inOrder_singleton hdata hrecorded hzero ?_
  rw [heldFloor, logical, ← hfile, hother _ hrecord.symm htemp.symm,
    hother _ hbackup.symm htemp'.symm, Option.none_or]

theorem inOrder_failingAfter (calls : ℕ) :
    InOrder Crypto.standIn (failingAfter calls).device.files (failingAfter calls).store := by
  have hstart := inOrder_sampleFiles
  simp only [failingAfter, oneAccount]
  generalize sampleRecord 1 1 = record at hstart ⊢
  exact hstart

end Samples

end ZeroFido.Ctap
