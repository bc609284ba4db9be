import ZeroFido.Ctap.ApprovedCredential
import ZeroFido.Ctap.Footprint
import ZeroFido.Ctap.RequestLimits

/-!
# Registering an account that is already there

makeCredential with `rk` removes the resident credentials of the account and adds the new one, in a
commit under the gate (`maintains_commitCredential_committed`). What the user deletes before or
after it does not get in its way (`Registered`).

`resident_registration_replaces` is the result for a whole makeCredential, under any actions of the
user interface.
-/

set_option autoImplicit false
set_option relaxedAutoImplicit false

namespace ZeroFido.Ctap

open Foundations Storage Store Process

section Commit

variable {crypto : Crypto} {request : MakeCredentialRequest} {record : CredentialRecord}
  {app app' : App} {files : Path → Option Bytes} {deletedIndices : List ℕ}

/-- A state of a commit, in which the index is still as it was. -/
structure Committing (start : App) (files : Path → Option Bytes) (app : App) : Prop where
  held : app.Held
  store : app.store = start.store
  record : app.record = start.record
  clean : Clean app.device
  files : app.device.files = files

/-- What a commit came to: the new credential is in the place of the account's, or there are too
many others. -/
structure Committed (crypto : Crypto) (request : MakeCredentialRequest) (record : CredentialRecord)
    (start : App) (status : CtapStatus) (app : App) : Prop where
  held : app.Held
  clean : Clean app.device
  outcome :
    (status = .success ∧
      (∃ files' files'', RegistrationSteps crypto start.device.files start.store request.rpId
        request.userId record files' files'' app.device.files) ∧
      (others crypto start.device.files start.store request.rpId request.userId).length <
        maxCredentials ∧
      app.store = others crypto start.device.files start.store request.rpId request.userId ++
        [indexEntryFromRecord crypto record] ∧
      app.record = start.record ++ [.registered record.credentialId]) ∨
    (status ≠ .success ∧ maxCredentials ≤
      (others crypto start.device.files start.store request.rpId request.userId).length)

/-- The user interface changes nothing of what a commit came to. -/
theorem Committed.ui {start : App} {status : CtapStatus}
    (h : Committed crypto request record start status app) (event : UiEvent) :
    Committed crypto request record start status (uiStep app event) := by
  have heffect := uiEffect_uiStep app event
  obtain ⟨hstore, -, hrecord, milliseconds, hdevice⟩ := h.held.ui_eq heffect
  refine ⟨stable_held.ui _ _ heffect h.held, ?_, ?_⟩
  · rw [hdevice]
    exact ⟨h.clean.writes, h.clean.reads, h.clean.enclave⟩
  · rw [hstore, hrecord, hdevice]
    exact h.outcome

theorem committing_rely {start : App} (hrely : UiRely app app') (h : Committing start files app) :
    Committing start files app' := by
  refine @Disturbs.stable _ _ uiStep app app' _ (fun state event hstate ↦ ?_) hrely h
  have heffect := uiEffect_uiStep state event
  obtain ⟨hstore, -, hrecord, milliseconds, hdevice⟩ := hstate.held.ui_eq heffect
  refine ⟨stable_held.ui _ _ heffect hstate.held, hstore.trans hstate.store,
    hrecord.trans hstate.record, ?_, ?_⟩
  · rw [hdevice]
    exact ⟨hstate.clean.writes, hstate.clean.reads, hstate.clean.enclave⟩
  · rw [hdevice]
    exact hstate.files

/-- A section of a commit. -/
theorem maintains_committing {Value : Type} {program : Program App Value}
    {post : Value → App → Prop} {start : App} (h : Committing start files app)
    (hprogram : ∀ later, Committing start files later →
      Ensures program post (fun _ ↦ False) later) :
    Maintains UiRely (fun _ ↦ True) post (fun _ ↦ False) (atomically program) app :=
  maintains_of_stable (fun _ _ ↦ committing_rely) trivial h hprogram

/-- The other credentials, and those the commit removes. -/
theorem length_others (crypto : Crypto) (files : Path → Option Bytes) (store : CredentialStore)
    (rpId userId : Bytes) :
    (positions (isAccount crypto files rpId userId) store).length +
      (others crypto files store rpId userId).length = store.length := by
  rw [positions, length_positionsFrom]
  exact (List.length_eq_length_filter_add (isAccount crypto files rpId userId)).symm

/-- The section that publishes the new credential. -/
theorem maintains_addCredential_committed {start : App} {files' files'' : Path → Option Bytes}
    (h : Committing start files app)
    (hsteps : RegistrationSteps crypto start.device.files start.store request.rpId request.userId
      record files' files'' files)
    (hroom : (others crypto start.device.files start.store request.rpId request.userId).length <
      maxCredentials) :
    Maintains UiRely (fun _ ↦ True) (Committed crypto request record start) (fun _ ↦ False)
      (addCredential crypto
        (positions (isAccount crypto start.device.files request.rpId request.userId) start.store)
        record) app := by
  unfold addCredential
  rw [maintains_bind]
  refine maintains_committing h fun later hlater ↦ ?_
  have hothers : publishDeletedIndices later.store
      (positions (isAccount crypto start.device.files request.rpId request.userId) start.store) =
        others crypto start.device.files start.store request.rpId request.userId := by
    rw [hlater.store]
    exact foldr_eraseIdx_positions
  simp only [publishCredential, ensures_bind, ensures_modify, ensures_get, hothers,
    publishAddedRecord, if_neg (not_le.mpr hroom), assertionQueueClear, announce, ensures_pure,
    Bool.not_true, Bool.false_eq_true, if_false, maintains_pure]
  refine ⟨hlater.held, hlater.clean, Or.inl ⟨rfl, ⟨files', files'', ?_⟩, hroom, rfl, ?_⟩⟩
  · rw [hlater.files]
    exact hsteps
  · rw [hlater.record]

/-- The sections that remove the account's credentials. -/
theorem maintains_replaceCredentials_committed {start : App} {files' : Path → Option Bytes}
    (hagrees : Agrees crypto start.device.files start.store) (h : Committing start files app)
    (hsame : SameRecords crypto start.store start.device.files files')
    (hwritten : Written crypto record files' files)
    (hroom : (others crypto start.device.files start.store request.rpId request.userId).length <
      maxCredentials) :
    Maintains UiRely (fun _ ↦ True) (Committed crypto request record start) (fun _ ↦ False)
      (replaceCredentials crypto
        (positions (isAccount crypto start.device.files request.rpId request.userId) start.store)
        record) app := by
  unfold replaceCredentials
  rw [maintains_bind]
  refine maintains_committing h fun later hlater ↦ ?_
  rw [ensures_bind, ensures_get, ensures_onDevice, hlater.store]
  refine (ensures_removeCredentialFilesByIndices_clean hlater.clean fun index hindex ↦ ?_).mono ?_
    fun _ hcut ↦ hcut
  · obtain ⟨entry, hentry, -⟩ := exists_of_mem_positions hindex
    have hmem := List.mem_of_getElem? hentry
    obtain ⟨loaded, hloads⟩ := hagrees.loads entry hmem
    exact ⟨entry, hentry, hloads.inUse, hloads.isRecord⟩
  · rintro result device ⟨rfl, hclean, hremoves⟩
    simp only [Bool.not_true, Bool.false_eq_true, if_false]
    rw [hlater.files] at hremoves
    exact maintains_addCredential_committed ⟨hlater.held, rfl, hlater.record, hclean, rfl⟩
      ⟨hsame, hwritten, hremoves⟩ hroom

/-- The capacity check, the write and the rest. -/
theorem maintains_storeCredential_committed (hlaws : SealLaws crypto) {start : App}
    (hagrees : Agrees crypto start.device.files start.store) (hrecord : record.WellFormed)
    (h : Committing start files app)
    (hsame : SameRecords crypto start.store start.device.files files) :
    Maintains UiRely (fun _ ↦ True) (Committed crypto request record start) (fun _ ↦ False)
      (storeCredential crypto record true
        (positions (isAccount crypto start.device.files request.rpId request.userId)
          start.store)) app := by
  have hlength := length_others crypto start.device.files start.store request.rpId request.userId
  have hfewer : (positions (isAccount crypto start.device.files request.rpId request.userId)
      start.store).length ≤ start.store.length := by omega
  unfold storeCredential
  rw [maintains_bind]
  refine maintains_committing h fun first hfirst ↦ ?_
  rw [ensures_bind, ensures_get, ensures_pure, hfirst.store, if_pos hfewer, maintains_ite]
  refine ⟨fun hfull ↦ ⟨hfirst.held, hfirst.clean, Or.inr ⟨by simp, by omega⟩⟩, fun hroom ↦ ?_⟩
  rw [maintains_bind]
  refine maintains_committing hfirst fun second hsecond ↦ ?_
  rw [ensures_onDevice]
  refine (ensures_recordFormatWriteRecord_clean hlaws hrecord hsecond.clean).mono ?_
    fun _ hcut ↦ hcut
  rintro ok device ⟨rfl, hsucceeds, hrecorded, hcounter⟩
  have hwritten : Written crypto record files device.files := by
    rw [← hsecond.files]
    exact ⟨hsucceeds.frame, hrecorded, hcounter⟩
  have hthird : Committing start device.files { second with device } :=
    ⟨hsecond.held, hsecond.store, hsecond.record, hsucceeds.clean, rfl⟩
  simp only [Bool.not_true, Bool.false_eq_true, if_false, Bool.true_and, decide_eq_true_eq,
    maintains_ite]
  refine ⟨fun _ ↦ ?_, fun hnone ↦ ?_⟩
  · exact maintains_replaceCredentials_committed hagrees hthird hsame hwritten (by omega)
  · -- Without credentials to remove, nothing is removed.
    have hnil : positions (isAccount crypto start.device.files request.rpId request.userId)
        start.store = [] := List.length_eq_zero_iff.mp (Nat.eq_zero_of_not_pos hnone)
    refine maintains_addCredential_committed hthird ⟨hsame, hwritten, ?_⟩ (by omega)
    rw [hnil]
    exact ⟨fun _ _ ↦ rfl, by simp [namesAt]⟩

/-- The commit. -/
theorem maintains_commitCredential_committed (hlaws : SealLaws crypto) (hheld : app.Held)
    (hclean : Clean app.device) (hagrees : Agrees crypto app.device.files app.store)
    (hrecord : record.WellFormed) :
    Maintains UiRely (fun _ ↦ True) (Committed crypto request record app) (fun _ ↦ False)
      (commitCredential crypto request record true) app := by
  unfold commitCredential findReplacedIndices
  rw [if_pos rfl, maintains_bind]
  refine maintains_committing ⟨hheld, rfl, rfl, hclean, rfl⟩ fun later hlater ↦ ?_
  rw [ensures_bind, ensures_get, ensures_onDevice]
  have hagrees' : Agrees crypto later.device.files later.store := by
    rw [hlater.files, hlater.store]
    exact hagrees
  refine (ensures_findResidentCredentialIndicesForUser_clean hlaws hlater.clean hagrees').mono ?_
    fun _ hcut ↦ hcut
  rintro found device ⟨rfl, hsame, hdevice⟩
  rw [hlater.files, hlater.store] at hsame ⊢
  exact maintains_storeCredential_committed hlaws hagrees hrecord
    ⟨hlater.held, rfl, hlater.record, hdevice, rfl⟩ hsame

end Commit

section Preparation

variable {crypto : Crypto} {request : MakeCredentialRequest} {record : CredentialRecord}
  {world : Pin.Device}

/-- The public key of a private key is a pair of coordinates of P-256. -/
def KeyLaws (crypto : Crypto) : Prop :=
  ∀ privateKey : Bytes, privateKey.length = privateKeyLen →
    (crypto.p256PublicKey privateKey).1.length = publicKeyLen ∧
      (crypto.p256PublicKey privateKey).2.length = publicKeyLen

/-- A record for the request that needs a key pair only. -/
structure Drafted (request : MakeCredentialRequest) (record : CredentialRecord) : Prop where
  rpId : record.rpId = request.rpId
  userId : record.userId = request.userId
  residentKey : record.residentKey = true
  wellFormed : ∀ publicX publicY privateWrapped privateIv : Bytes,
    publicX.length = publicKeyLen → publicY.length = publicKeyLen →
    privateWrapped.length = privateKeyLen → privateIv.length = wrapIvLen →
    CredentialRecord.WellFormed { record with publicX, publicY, privateWrapped, privateIv }

/-- The level of protection that the request asks for. -/
theorem Drafted.protected (h : Drafted request record) (hrequest : request.WithinLimits) :
    Drafted request
      (if request.hasCredProtect then { record with credProtect := request.credProtect }
        else record) := by
  split_ifs with hprotect
  · refine ⟨h.rpId, h.userId, h.residentKey, fun _ _ _ _ hx hy hwrapped hiv ↦ ?_⟩
    exact { h.wellFormed _ _ _ _ hx hy hwrapped hiv with
      credProtect := hrequest.credProtect hprotect }
  · exact h

theorem take_textField {text : Bytes} {bufferSize : ℕ} (h : TextField text bufferSize) :
    text.take (bufferSize - 1) = text :=
  List.take_of_length_le (Nat.le_pred_of_lt h.fits)

/-- Drawing the id and the secrets of a credential. -/
theorem ensures_prepareCredential_drafted {createdAt : ℕ} (hrequest : request.WithinLimits)
    (hcreatedAt : createdAt ≤ uint32Max) :
    Ensures (prepareCredential request.rpId request.userId request.userName
        request.userDisplayName createdAt true)
      (fun result world' ↦ Idle world world' ∧ ∀ record, result = some record →
        Drafted request record) (fun _ ↦ False) world := by
  simp only [prepareCredential, ensures_ite, ensures_pure, ensures_bind,
    take_textField hrequest.rpId, take_textField hrequest.userName,
    take_textField hrequest.userDisplayName]
  refine ⟨fun _ ↦ ⟨Idle.refl world, by simp⟩, fun _ ↦ ?_⟩
  refine ensures_randomFill fun credentialId first hfirst hid ↦ ?_
  refine ensures_randomFill fun withoutUv second hsecond hwithoutUv ↦ ?_
  refine ensures_randomFill fun withUv third hthird hwithUv ↦ ?_
  refine ⟨(hfirst.trans hsecond).trans hthird, ?_⟩
  rintro _ ⟨⟩
  refine ⟨rfl, rfl, rfl, fun publicX publicY privateWrapped privateIv hx hy hwrapped hiv ↦ ?_⟩
  exact
    { inUse := rfl
      fileName := rfl
      storageVersion := rfl
      credentialId := hid
      rpId := hrequest.rpId
      rpId_ne := hrequest.rpId_ne
      userId := hrequest.userId
      userName := hrequest.userName
      userDisplayName := hrequest.userDisplayName
      publicX := hx
      publicY := hy
      privateWrapped := hwrapped
      privateIv := hiv
      signCount := Nat.zero_le _
      createdAt := hcreatedAt
      credProtect := rfl
      hmacSecretWithoutUv := hwithoutUv
      hmacSecretWithUv := hwithUv
      noSecret := fun hnone ↦ absurd hnone (by simp) }

/-- A record for the request, with its key pair. -/
structure Prepared (request : MakeCredentialRequest) (record : CredentialRecord) : Prop where
  rpId : record.rpId = request.rpId
  userId : record.userId = request.userId
  residentKey : record.residentKey = true
  wellFormed : record.WellFormed

/-- Generating the key pair. -/
theorem ensures_generateCredentialKeypair_prepared (hlaws : SealLaws crypto)
    (hkeys : KeyLaws crypto) (h : Drafted request record) :
    Ensures (generateCredentialKeypair crypto record)
      (fun result world' ↦ Idle world world' ∧ ∀ record, result = some record →
        Prepared request record) (fun _ ↦ False) world := by
  simp only [generateCredentialKeypair, Crypto.generateKeyAgreementKey, ensures_bind]
  refine ensures_nextKeyGeneration fun first hfirst ↦ ?_
  rw [ensures_ite]
  refine ⟨fun _ ↦ ?_, fun _ ↦ ⟨hfirst, by simp⟩⟩
  rw [ensures_bind]
  refine ensures_randomFill fun privateKey second hsecond hprivate ↦ ?_
  simp only [ensures_pure, ensures_bind]
  refine ensures_randomFill fun iv third hthird hiv ↦ ?_
  refine Crypto.ensures_enclaveSeal fun result fourth hfourth _ hsealed ↦ ?_
  have hidle := ((hfirst.trans hsecond).trans hthird).trans hfourth
  cases result with
  | none => exact ⟨hidle, by simp⟩
  | some privateWrapped =>
    refine ⟨hidle, ?_⟩
    rintro _ ⟨⟩
    obtain ⟨hx, hy⟩ := hkeys privateKey hprivate
    refine ⟨h.rpId, h.userId, h.residentKey, h.wellFormed _ _ _ _ hx hy ?_ hiv⟩
    rw [hsealed privateWrapped rfl, hlaws.length_seal, hprivate]

end Preparation

section Outcome

variable {crypto : Crypto} {request : MakeCredentialRequest} {record : CredentialRecord}
  {app app' before : App} {files files' files'' final : Path → Option Bytes}
  {store : CredentialStore} {gone : List Bytes}

/-- What a registration leaves of an index and files that agreed, but for what the user deleted: the
account's only resident credential is the new one, the others are as they were in their order, and
the index and the files agree again. -/
structure Registered (crypto : Crypto) (files : Path → Option Bytes) (store : CredentialStore)
    (request : MakeCredentialRequest) (record : CredentialRecord) (app : App) : Prop where
  agrees : Agrees crypto app.device.files app.store
  index : ∃ gone : List Bytes, (∀ credentialId ∈ gone, app.UserDeleted credentialId) ∧
    app.store = excluding gone (others crypto files store request.rpId request.userId ++
      [indexEntryFromRecord crypto record]) ∧
    app.store.filter (isAccount crypto app.device.files request.rpId request.userId) =
      excluding gone [indexEntryFromRecord crypto record]
  kept : ∀ entry ∈ app.store, entry ∈ others crypto files store request.rpId request.userId →
    loadFound crypto app.device.files (indexEntryFileName entry) =
      loadFound crypto files (indexEntryFileName entry)

/-- The new credential's place, when the user had deleted some before. -/
structure Placed (crypto : Crypto) (files : Path → Option Bytes) (store : CredentialStore)
    (request : MakeCredentialRequest) (record : CredentialRecord) (gone : List Bytes)
    (final : Path → Option Bytes) (store' : CredentialStore) : Prop where
  store_eq : store' = excluding gone (others crypto files store request.rpId request.userId) ++
    [indexEntryFromRecord crypto record]
  account : store'.filter (isAccount crypto final request.rpId request.userId) =
    [indexEntryFromRecord crypto record]
  found : ∀ entry ∈ store', entry ∈ others crypto files store request.rpId request.userId →
    loadFound crypto final (indexEntryFileName entry) =
      loadFound crypto files (indexEntryFileName entry)
  fresh : record.credentialId ∉ gone

/-- Leaving out what the user deleted commutes with leaving out the account. -/
theorem Pruned.others_eq (h : Pruned crypto files store before)
    (hindex : before.store = excluding gone store) (rpId userId : Bytes) :
    others crypto before.device.files before.store rpId userId =
      excluding gone (others crypto files store rpId userId) := by
  have hcongr : others crypto before.device.files before.store rpId userId =
      others crypto files before.store rpId userId := by
    refine List.filter_congr fun entry hentry ↦ ?_
    rw [isAccount_congr (h.found entry hentry)]
  rw [hcongr, hindex, others, others, excluding, excluding, List.filter_filter, List.filter_filter]
  exact List.filter_congr fun _ _ ↦ Bool.and_comm _ _

/-- What the steps of a commit come to after deletions. -/
theorem Pruned.placed (h : Pruned crypto files store before) (hstore : Agrees crypto files store)
    (hprepared : Prepared request record) (hunused : Unused files record.fileName)
    (hsteps : RegistrationSteps crypto before.device.files before.store request.rpId
      request.userId record files' files'' final)
    (hroom : (others crypto before.device.files before.store request.rpId request.userId).length <
      maxCredentials)
    (hindex : before.store = excluding gone store)
    (hgone : ∀ credentialId ∈ gone, credentialId ∈ store.map (·.credentialId)) :
    Placed crypto files store request record gone final
        (others crypto before.device.files before.store request.rpId request.userId ++
          [indexEntryFromRecord crypto record]) ∧
      Agrees crypto final
        (others crypto before.device.files before.store request.rpId request.userId ++
          [indexEntryFromRecord crypto record]) := by
  have hregisters : Registers crypto before.device.files before.store request.rpId request.userId
      record files' files'' final :=
    ⟨hsteps, h.agrees, hprepared.wellFormed,
      h.unused _ hprepared.wellFormed.isRecord hunused⟩
  have hreplaced := hregisters.replaced hprepared.residentKey hprepared.rpId hprepared.userId hroom
  have hnew : ∀ entry ∈ store, entry.credentialId ≠ record.credentialId := by
    intro entry hentry hsame
    refine hstore.ne_of_unused hunused hentry ?_
    rw [hprepared.wellFormed.fileName, ← hsame]
    rfl
  refine ⟨⟨?_, hreplaced.account, fun entry hentry hother ↦ ?_, fun hmem ↦ ?_⟩, hreplaced.agrees⟩
  · rw [h.others_eq hindex]
  · rcases List.mem_append.mp hentry with hentry | hentry
    · rw [hreplaced.kept entry hentry]
      exact h.found entry (mem_others.mp hentry).1
    · rw [List.mem_singleton.mp hentry] at hother
      exact absurd rfl (hnew _ (mem_others.mp hother).1)
  · obtain ⟨entry, hentry, hid⟩ := List.mem_map.mp (hgone _ hmem)
    exact hnew entry hentry hid

/-- What is left after more deletions. -/
theorem Placed.registered {store' : CredentialStore}
    (h : Placed crypto files store request record gone final store')
    (hpruned : Pruned crypto final store' app)
    (hgone : ∀ credentialId ∈ gone, app.UserDeleted credentialId) :
    Registered crypto files store request record app := by
  obtain ⟨gone', hdeleted, hindex⟩ := hpruned.index
  have hnew : excluding gone [indexEntryFromRecord crypto record] =
      [indexEntryFromRecord crypto record] :=
    List.filter_eq_self.mpr fun entry hentry ↦ by
      rw [List.mem_singleton.mp hentry]
      exact decide_eq_true h.fresh
  have hstore : store' = excluding gone
      (others crypto files store request.rpId request.userId ++
        [indexEntryFromRecord crypto record]) := by
    rw [h.store_eq, excluding_append, hnew]
  refine ⟨hpruned.agrees, ⟨gone ++ gone', fun credentialId hmem ↦ ?_, ?_, ?_⟩,
    fun entry hentry hother ↦ ?_⟩
  · exact (List.mem_append.mp hmem).elim (hgone credentialId) fun hmem ↦ (hdeleted _ hmem).1
  · rw [hindex, hstore, excluding_excluding]
  · have hcongr : app.store.filter (isAccount crypto app.device.files request.rpId request.userId) =
        app.store.filter (isAccount crypto final request.rpId request.userId) :=
      List.filter_congr fun entry hentry ↦ isAccount_congr (hpruned.found entry hentry)
    have haccount := h.account
    rw [hcongr, hindex, ← excluding_excluding, hnew, ← haccount, excluding, excluding,
      List.filter_filter, List.filter_filter]
    exact List.filter_congr fun _ _ ↦ Bool.and_comm _ _
  · rw [hpruned.found entry hentry]
    rw [hindex] at hentry
    exact h.found entry (mem_excluding.mp hentry).1 hother

end Outcome

section Handler

variable {crypto : Crypto} {request : MakeCredentialRequest} {record : CredentialRecord}
  {app app' : App} {files : Path → Option Bytes} {store : CredentialStore} {status : CtapStatus}

/-- What holds of an answer of success from the moment of the commit on. -/
def Succeeded (crypto : Crypto) (files : Path → Option Bytes) (store : CredentialStore)
    (request : MakeCredentialRequest) (status : CtapStatus) (app : App) : Prop :=
  status = .success → ∃ record, Prepared request record ∧
    .registered record.credentialId ∈ app.record ∧
    (Unused files record.fileName → ∃ gone final store',
      Placed crypto files store request record gone final store' ∧
      Pruned crypto final store' app ∧ ∀ credentialId ∈ gone, .deleted credentialId ∈ app.record)

theorem succeeded_of_ne (h : status ≠ .success) : Succeeded crypto files store request status app :=
  fun hsuccess ↦ absurd hsuccess h

/-- The user interface adds to the observer's record only. -/
theorem mem_record_uiStep {told : CtapEvent} (h : told ∈ app.record) (event : UiEvent) :
    told ∈ (uiStep app event).record := by
  have heffect := uiEffect_uiStep app event
  generalize uiStep app event = app' at heffect ⊢
  cases heffect with
  | ended credentialId hui => exact List.mem_append_left _ h
  | _ => exact h

theorem Succeeded.ui (h : Succeeded crypto files store request status app) (event : UiEvent) :
    Succeeded crypto files store request status (uiStep app event) := by
  intro hsuccess
  obtain ⟨record, hprepared, htold, hplaced⟩ := h hsuccess
  refine ⟨record, hprepared, mem_record_uiStep htold event, fun hunused ↦ ?_⟩
  obtain ⟨gone, final, store', hplaced, hpruned, hgone⟩ := hplaced hunused
  exact ⟨gone, final, store', hplaced, pruned_uiStep hpruned event,
    fun credentialId hmem ↦ mem_record_uiStep (hgone credentialId hmem) event⟩

theorem succeeded_rely (hrely : UiRely app app')
    (h : Succeeded crypto files store request status app) :
    Succeeded crypto files store request status app' :=
  hrely.stable (fun _ event hstate ↦ hstate.ui event) h

theorem Succeeded.of_eq (h : Succeeded crypto files store request status app)
    (hstore : app'.store = app.store) (hdevice : app'.device = app.device)
    (hrecord : app'.record = app.record) (hui : app'.ui = app.ui) :
    Succeeded crypto files store request status app' := by
  intro hsuccess
  obtain ⟨record, hprepared, htold, hplaced⟩ := h hsuccess
  rw [← hrecord] at htold
  refine ⟨record, hprepared, htold, fun hunused ↦ ?_⟩
  obtain ⟨gone, final, store', hplaced, hpruned, hgone⟩ := hplaced hunused
  rw [← hrecord] at hgone
  exact ⟨gone, final, store', hplaced, hpruned.of_eq hstore hdevice hrecord hui, hgone⟩

/-- Giving the gate back, before which the user interface may act once more. -/
theorem maintains_endMaintenance_succeeded
    (h : Succeeded crypto files store request status app) :
    Maintains UiRely (fun _ ↦ True) (fun _ ↦ Succeeded crypto files store request status)
      (fun _ ↦ True) endMaintenance app := by
  refine maintains_of_stable (fun _ _ ↦ succeeded_rely) trivial h fun later hlater ↦ ?_
  rw [ensures_modify]
  exact hlater.of_eq rfl rfl rfl rfl

/-- A commit that began after deletions. -/
theorem Committed.succeeded {before : App} (hpruned : Pruned crypto files store before)
    (hbefore : before.Held) (hstore : Agrees crypto files store)
    (hprepared : Prepared request record)
    (h : Committed crypto request record before status app) :
    Succeeded crypto files store request status app := by
  rcases h.outcome with ⟨-, ⟨files', files'', hsteps⟩, hroom, hindex, hrecord⟩ | ⟨hne, -⟩
  · intro _
    refine ⟨record, hprepared, ?_, fun hunused ↦ ?_⟩
    · rw [hrecord]
      exact List.mem_append_right _ List.mem_cons_self
    · obtain ⟨gone, hgone, hbeforeIndex⟩ := hpruned.index
      obtain ⟨hplaced, hagrees⟩ := hpruned.placed hstore hprepared hunused hsteps hroom hbeforeIndex
        fun credentialId hmem ↦ (hgone credentialId hmem).2
      rw [← hindex] at hplaced hagrees
      refine ⟨gone, app.device.files, app.store, hplaced, Pruned.start h.clean hagrees,
        fun credentialId hmem ↦ ?_⟩
      rw [hrecord]
      refine List.mem_append_left _ ((hgone credentialId hmem).1.resolve_right fun hui ↦ ?_)
      exact absurd (hbefore.2.symm.trans hui) (by simp)
  · exact succeeded_of_ne hne

/-- From the end of the approval on. -/
theorem maintains_createCredential_succeeded (hlaws : SealLaws crypto) (hkeys : KeyLaws crypto)
    (hstore : Agrees crypto files store) (hdrafted : Drafted request record)
    (h : Unchanged crypto files store app) :
    Maintains UiRely (fun _ ↦ True) (Succeeded crypto files store request) (fun _ ↦ True)
      (createCredential crypto request record true) app := by
  unfold createCredential
  rw [maintains_bind]
  refine maintains_of_stable (fun _ _ ↦ unchanged_rely) trivial h fun later hlater ↦ ?_
  refine (ensures_onDevice_spared hlater ((ensures_generateCredentialKeypair_prepared hlaws hkeys
    hdrafted).mono (fun result device hresult ↦ ⟨Spared.of_idle hresult.1 hlater.clean, hresult.2⟩)
    fun _ hcut ↦ hcut)).mono ?_ fun _ hcut ↦ hcut
  rintro result first ⟨hfirst, hresult⟩
  cases result with
  | none => exact succeeded_of_ne (by simp)
  | some record =>
    have hprepared := hresult record rfl
    dsimp only
    rw [maintains_bind]
    refine (steady_nextStatus first hfirst).weaken fun built second hsecond ↦ ?_
    rw [maintains_ite]
    refine ⟨fun hne ↦ succeeded_of_ne hne, fun _ ↦ ?_⟩
    rw [maintains_bind]
    refine (steady_nextStatus second hsecond).weaken fun polled third hthird ↦ ?_
    rw [maintains_ite]
    refine ⟨fun hne ↦ succeeded_of_ne hne, fun _ ↦ ?_⟩
    rw [maintains_bind]
    refine maintains_beginMaintenance_unchanged hthird (fun _ _ ↦ succeeded_of_ne (by simp))
      fun before hbefore hheld ↦ ?_
    simp only [Bool.not_true, Bool.false_eq_true, if_false, maintains_bind]
    refine (maintains_commitCredential_committed hlaws hheld hbefore.clean hbefore.agrees
      hprepared.wellFormed).mono ?_ fun _ hcut ↦ hcut.elim
    intro status done hdone
    exact maintains_endMaintenance_succeeded (hdone.succeeded hbefore hheld hstore hprepared)

/-- From the end of the PIN check on. -/
theorem maintains_registerCredential_succeeded (hlaws : SealLaws crypto) (hkeys : KeyLaws crypto)
    (hstore : Agrees crypto files store) (hrequest : request.WithinLimits) {createdAt : ℕ}
    (hcreatedAt : createdAt ≤ uint32Max) {uvVerified : Bool} (h : Unchanged crypto files store app) :
    Maintains UiRely (fun _ ↦ True) (Succeeded crypto files store request) (fun _ ↦ True)
      (registerCredential crypto createdAt request true uvVerified) app := by
  unfold registerCredential
  rw [maintains_bind]
  refine (steady_excludeCheck hlaws app h).weaken fun excluded first hfirst ↦ ?_
  cases excluded with
  | none => exact succeeded_of_ne (by simp)
  | some excluded =>
    cases excluded with
    | true =>
      dsimp only
      rw [maintains_bind]
      refine (steady_requestApproval first hfirst).weaken fun status second _ ↦ ?_
      refine succeeded_of_ne ?_
      split_ifs with hcancel
      · rw [hcancel]
        simp
      · simp
    | false =>
      dsimp only
      rw [maintains_bind]
      refine maintains_of_stable (fun _ _ ↦ unchanged_rely) trivial hfirst fun later hlater ↦ ?_
      refine (ensures_onDevice_spared hlater ((ensures_prepareCredential_drafted hrequest
        hcreatedAt).mono (fun result device hresult ↦
          ⟨Spared.of_idle hresult.1 hlater.clean, hresult.2⟩) fun _ hcut ↦ hcut)).mono ?_
        fun _ hcut ↦ hcut
      rintro result second ⟨hsecond, hresult⟩
      cases result with
      | none => exact succeeded_of_ne (by simp)
      | some record =>
        have hdrafted := (hresult record rfl).protected hrequest
        dsimp only
        rw [maintains_bind]
        refine (steady_requestApproval second hsecond).weaken fun approved third hthird ↦ ?_
        rw [maintains_ite]
        refine ⟨fun hne ↦ succeeded_of_ne hne, fun _ ↦ ?_⟩
        rw [maintains_bind]
        refine (steady_nextStatus third hthird).weaken fun polled fourth hfourth ↦ ?_
        rw [maintains_ite]
        refine ⟨fun hne ↦ succeeded_of_ne hne, fun _ ↦ ?_⟩
        exact maintains_createCredential_succeeded hlaws hkeys hstore hdrafted hfourth

/-- An empty `pinUvAuthParam` is never answered with success. -/
theorem maintains_handleEmptyPinAuthProbe_ne (h : Unchanged crypto files store app) :
    Maintains UiRely (fun _ ↦ True) (fun status _ ↦ status ≠ .success) (fun _ ↦ True)
      handleEmptyPinAuthProbe app := by
  unfold handleEmptyPinAuthProbe
  rw [maintains_bind]
  refine (steady_requestApproval app h).weaken fun status first hfirst ↦ ?_
  rw [maintains_ite]
  refine ⟨fun hne ↦ hne, fun _ ↦ ?_⟩
  rw [maintains_bind]
  refine (steady_read (fun app ↦ app.pinState.pinSet) first hfirst).weaken fun pinIsSet _ _ ↦ ?_
  rw [maintains_pure]
  split_ifs <;> simp

/-- makeCredential with `rk`. -/
theorem maintains_handleMakeCredential_succeeded (hlaws : SealLaws crypto) (hkeys : KeyLaws crypto)
    (hstore : Agrees crypto files store) (hrequest : request.WithinLimits) {createdAt : ℕ}
    (hcreatedAt : createdAt ≤ uint32Max) (hresident : (request.hasRk && request.rk) = true)
    (capabilities : Capabilities) (h : Unchanged crypto files store app) :
    Maintains UiRely (fun _ ↦ True) (Succeeded crypto files store request) (fun _ ↦ True)
      (handleMakeCredential crypto capabilities createdAt (.ok request)) app := by
  unfold handleMakeCredential
  dsimp only
  rw [maintains_ite]
  refine ⟨fun hne ↦ succeeded_of_ne hne, fun _ ↦ ?_⟩
  rw [maintains_ite]
  refine ⟨fun _ ↦ ?_, fun _ ↦ ?_⟩
  · exact (maintains_handleEmptyPinAuthProbe_ne h).weaken fun status _ hne ↦ succeeded_of_ne hne
  · rw [maintains_ite]
    refine ⟨fun _ ↦ succeeded_of_ne (by simp), fun _ ↦ ?_⟩
    rw [maintains_bind]
    refine (steady_read (fun app ↦ app.pinState.pinSet) app h).weaken fun pinIsSet first hfirst ↦ ?_
    rw [maintains_ite]
    refine ⟨fun _ ↦ succeeded_of_ne (by simp), fun _ ↦ ?_⟩
    rw [maintains_bind]
    refine (steady_requirePinAuthWithState first hfirst).weaken fun checked second hsecond ↦ ?_
    obtain ⟨status, uvVerified⟩ := checked
    dsimp only
    rw [maintains_ite]
    refine ⟨fun hne ↦ succeeded_of_ne hne, fun _ ↦ ?_⟩
    rw [maintains_bind]
    refine (steady_nextStatus second hsecond).weaken fun polled third hthird ↦ ?_
    rw [maintains_ite]
    refine ⟨fun hne ↦ succeeded_of_ne hne, fun _ ↦ ?_⟩
    rw [hresident]
    exact maintains_registerCredential_succeeded hlaws hkeys hstore hrequest hcreatedAt hthird

/-- Registering a resident credential. When makeCredential answers with success, the new credential
is in the place of the account's, the others are as they were in their order, and the index and the
files agree, but for what the user deletes meanwhile. When the account has a credential already,
the commit comes to success, however many credentials there are. -/
theorem resident_registration_replaces (hlaws : SealLaws crypto) (hkeys : KeyLaws crypto)
    {capacity : ℕ} {packedAttestation : Bool} {data : Bytes}
    (hparsed : (ctapParseMakeCredential crypto capacity packedAttestation data).map
      (·.toMakeCredentialRequest) = .ok request)
    {createdAt : ℕ} (hcreatedAt : createdAt ≤ uint32Max)
    (hresident : (request.hasRk && request.rk) = true) (hclean : Clean app.device)
    (hstore : Agrees crypto app.device.files app.store) (hgate : app.GateKept) :
    (∀ (capabilities : Capabilities) (schedule : List (Option UiEvent)) (app' : App),
      interleave uiStep (handleMakeCredential crypto capabilities createdAt (.ok request))
        app.watched schedule = (.done .success, app') →
      ∃ record, Prepared request record ∧ .registered record.credentialId ∈ app'.record ∧
        (Unused app.device.files record.fileName →
          Registered crypto app.device.files app.store request record app')) ∧
    ∀ record : CredentialRecord, record.WellFormed → app.Held →
      (∃ entry ∈ app.store,
        isAccount crypto app.device.files request.rpId request.userId entry = true) →
      ∀ schedule : List (Option UiEvent), ∃ count app',
        interleave uiStep (commitCredential crypto request record true) app
          (schedule ++ List.replicate count none) = (.done .success, app') := by
  refine ⟨fun capabilities schedule app' hdone ↦ ?_, ?_⟩
  · have hrequest := withinLimits_of_parse hparsed
    have hunchanged : Unchanged crypto app.device.files app.store app.watched :=
      ⟨@Pruned.start _ app.watched hclean hstore, hgate⟩
    have hmaintains := Maintains.interleave (maintains_handleMakeCredential_succeeded hlaws hkeys
      hstore hrequest hcreatedAt hresident capabilities hunchanged) (fun _ _ _ ↦ trivial)
      (fun status state event h ↦ Succeeded.ui h event) (fun _ _ _ ↦ trivial) schedule
    rw [hdone] at hmaintains
    obtain ⟨record, hprepared, htold, hplaced⟩ := hmaintains rfl
    refine ⟨record, hprepared, htold, fun hunused ↦ ?_⟩
    obtain ⟨gone, final, store', hplaced, hpruned, hgone⟩ := hplaced hunused
    exact hplaced.registered hpruned fun credentialId hmem ↦ Or.inl (hgone credentialId hmem)
  · rintro record hrecord hheld ⟨entry, hentry, haccount⟩ schedule
    have hcommit : Maintains UiRely (fun _ ↦ True) (Committed crypto request record app)
        (fun _ ↦ False) (commitCredential crypto request record true) app :=
      maintains_commitCredential_committed hlaws hheld hclean hstore hrecord
    have hmaintains := hcommit.interleave (fun _ _ _ ↦ trivial)
      (fun status state event h ↦ Committed.ui h event) (fun _ _ hcut ↦ hcut.elim) schedule
    obtain ⟨count, status, app', hdone, hcommitted⟩ := hmaintains.finishes
    refine ⟨count, app', ?_⟩
    rw [interleave_append, hdone]
    rcases hcommitted.outcome with ⟨rfl, -⟩ | ⟨-, hfull⟩
    · rfl
    · -- With one of the account's left out, the others are fewer than the capacity.
      have hfewer : (others crypto app.device.files app.store request.rpId request.userId).length <
          app.store.length := by
        refine List.length_filter_lt_length_iff_exists.mpr ⟨entry, hentry, ?_⟩
        simp [haccount]
      exact absurd (hfewer.trans_le hstore.size) (not_lt.mpr hfull)

end Handler

section Samples

/-- An authenticator with one credential. -/
def oneAccount : App :=
  { store := [indexEntryFromRecord Crypto.standIn (sampleRecord 1 1)]
    device := { World.blank _ with files := sampleFiles } }

/-- A request for the account that is there. -/
def accountRequest : MakeCredentialRequest :=
  { clientDataHash := zeroBytes clientDataHashLen
    rpId := [97]
    userId := [1]
    hasRk := true
    rk := true }

/-- The account is registered again. -/
def oneAccountAgain : Process App CtapStatus × App :=
  interleave uiStep (handleMakeCredential Crypto.standIn {} 1 (.ok accountRequest))
    oneAccount.watched
    (List.replicate 12 none ++ [some (.finishInteraction .approved)] ++ List.replicate 13 none)

theorem keyLaws_standIn : KeyLaws Crypto.standIn := fun _ hlength ↦ ⟨hlength, hlength⟩

/-- The bytes of the request: the hash, the RP, the user, the algorithm and `rk`. -/
def accountData : Bytes :=
  [0xA5, 0x01, 0x58, 0x20] ++ zeroBytes clientDataHashLen ++
    [0x02, 0xA1, 0x62, 0x69, 0x64, 0x61, 0x61] ++ [0x03, 0xA1, 0x62, 0x69, 0x64, 0x41, 0x01] ++
    [0x04, 0x81, 0xA2, 0x63, 0x61, 0x6C, 0x67, 0x26, 0x64, 0x74, 0x79, 0x70, 0x65, 0x6A] ++
    "public-key".toUTF8.toList ++ [0x07, 0xA1, 0x62, 0x72, 0x6B, 0xF5]

theorem parse_accountData : (ctapParseMakeCredential Crypto.standIn 0 false accountData).map
    (·.toMakeCredentialRequest) = .ok accountRequest := by
  decide +kernel

/-- An index of one credential agrees with files that have its record only. -/
theorem agrees_singleton {crypto : Crypto} {files : Path → Option Bytes} {record : CredentialRecord}
    (hrecord : record.WellFormed) (hfound : loadFound crypto files record.fileName = some record)
    (honly : ∀ name, isRecordName name = true → files (recordPath name) ≠ none →
      name = record.fileName) : Agrees crypto files [indexEntryFromRecord crypto record] := by
  refine ⟨by simp [maxCredentials], List.nodup_singleton _, fun entry hentry ↦ ?_,
    fun name hname hfile ↦ ?_⟩
  · rw [List.mem_singleton.mp hentry]
    exact ⟨record, loads_indexEntryFromRecord hrecord hfound⟩
  · exact ⟨_, List.mem_singleton_self _,
      hrecord.fileName.symm.trans (honly name hname hfile).symm⟩

theorem agrees_oneAccount : Agrees Crypto.standIn oneAccount.device.files oneAccount.store := by
  have hwellFormed : (sampleRecord 1 1).WellFormed := wellFormed_sampleRecord 1 (by decide)
  have hfound : loadFound Crypto.standIn sampleFiles (sampleRecord 1 1).fileName =
      some (sampleRecord 1 1) := by decide +kernel
  have honly : ∀ name, isRecordName name = true → sampleFiles (recordPath name) ≠ none →
      name = (sampleRecord 1 1).fileName := fun _ ↦ eq_sampleRecord_of_file
  simp only [oneAccount]
  generalize sampleRecord 1 1 = record at hwellFormed hfound honly ⊢
  exact agrees_singleton hwellFormed hfound honly

/-- A registration of the credential. -/
def registersOnly (credentialId : Bytes) : CtapEvent → Bool
  | .registered other => decide (other = credentialId)
  | _ => true

theorem resident_registration_replaces_oneAccount :
    ∃ record, Prepared accountRequest record ∧
      .registered record.credentialId ∈ oneAccountAgain.2.record ∧
      Registered Crypto.standIn oneAccount.device.files oneAccount.store accountRequest record
        oneAccountAgain.2 := by
  have hdone : oneAccountAgain = (.done .success, oneAccountAgain.2) := by
    have hresult : oneAccountAgain.1.result? = some .success := by decide +kernel
    rw [← eq_done_of_result? hresult]
  have hids : oneAccountAgain.2.record.all (registersOnly (List.replicate credentialIdLen 0)) =
      true := by decide +kernel
  have hreplaces := resident_registration_replaces sealLaws_standIn keyLaws_standIn
    parse_accountData (show 1 ≤ uint32Max by decide) rfl
    (show Clean oneAccount.device from ⟨rfl, rfl, rfl⟩) agrees_oneAccount
    (fun hui ↦ absurd rfl hui)
  generalize oneAccountAgain.2 = final at hids hdone ⊢
  unfold oneAccountAgain at hdone
  obtain ⟨record, hprepared, htold, hregistered⟩ := hreplaces.1 _ _ _ hdone
  refine ⟨record, hprepared, htold, hregistered ?_⟩
  have hid : record.credentialId = List.replicate credentialIdLen 0 :=
    of_decide_eq_true (List.all_eq_true.mp hids _ htold)
  have hname : isRecordName record.fileName = true := hprepared.wellFormed.isRecord
  have hne : record.fileName ≠ (sampleRecord 1 1).fileName := by
    rw [hprepared.wellFormed.fileName, hid]
    decide
  have hfiles : oneAccount.device.files = sampleFiles := by simp only [oneAccount]
  intro path hpath
  rw [hfiles]
  refine sampleFiles_eq.2 path ?_ ?_
  · rintro rfl
    exact hne (hpath.unique hname isRecordName_sampleRecord (fileOf_recordPath _))
  · rintro rfl
    exact hne (hpath.unique hname isRecordName_sampleRecord (fileOf_tempPath _))

end Samples

end ZeroFido.Ctap
