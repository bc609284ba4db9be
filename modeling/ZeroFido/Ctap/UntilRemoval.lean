import ZeroFido.Ctap.CountedRegistration
import ZeroFido.Store.FailedReplacement

/-!
# makeCredential up to the removal

makeCredential is a part that comes to an answer or to the removal of the credentials that the new
one replaces (`BeforeRemoval`), and the rest of it (`handleMakeCredential_eq`). While the user
deletes nothing, the first part leaves the index, and the files of every credential in it, as they
were (`Reaches`), whatever fails in it and whoever refuses or cancels.
-/

set_option autoImplicit false
set_option relaxedAutoImplicit false

namespace ZeroFido.Ctap

open Foundations Storage Store Process

section Parts

variable (crypto : Crypto)

/-- What makeCredential comes to without the removal of credentials: an answer, or the credentials
that it is about to remove, in place of which the new record is written. -/
inductive BeforeRemoval where
  | answered (status : CtapStatus)
  | replacing (deletedIndices : List ℕ) (record : CredentialRecord)

/-- `storeCredential` up to the removal. -/
def storeUntilRemoval (record : CredentialRecord) (residentKey : Bool) (deletedIndices : List ℕ) :
    Process App BeforeRemoval := do
  let count ← Process.atomically (return (← get).store.length)
  let effectiveCount :=
    if deletedIndices.length ≤ count then count - deletedIndices.length else count
  if maxCredentials ≤ effectiveCount then
    return .answered .keyStoreFull
  if !(← Process.atomically (onDevice (recordFormatWriteRecord crypto record))) then
    return .answered .keyStoreFull
  if residentKey && decide (0 < deletedIndices.length) then
    return .replacing deletedIndices record
  else
    .answered <$> addCredential crypto deletedIndices record

/-- `commitCredential` up to the removal. -/
def commitUntilRemoval (request : MakeCredentialRequest) (record : CredentialRecord)
    (residentKey : Bool) : Process App BeforeRemoval := do
  match ← findReplacedIndices crypto request residentKey with
  | none => return .answered .other
  | some deletedIndices => storeUntilRemoval crypto record residentKey deletedIndices

/-- Gives the gate back, when there is an answer. -/
def releaseAnswered : BeforeRemoval → Process App BeforeRemoval
  | .answered status => do
    endMaintenance
    return .answered status
  | .replacing deletedIndices record => return .replacing deletedIndices record

/-- `createCredential` up to the removal. -/
def createUntilRemoval (request : MakeCredentialRequest) (record : CredentialRecord)
    (residentKey : Bool) : Process App BeforeRemoval := do
  match ← Process.atomically (onDevice (generateCredentialKeypair crypto record)) with
  | none => return .answered .keyStoreFull
  | some record =>
    let status ← Process.atomically nextStatus
    if status ≠ .success then
      return .answered status
    let status ← pollCborControl
    if status ≠ .success then
      return .answered status
    if !(← beginMaintenance) then
      return .answered .notAllowed
    releaseAnswered (← commitUntilRemoval crypto request record residentKey)

/-- `registerCredential` up to the removal. -/
def registerUntilRemoval (createdAt : ℕ) (request : MakeCredentialRequest) (residentKey uvVerified :
    Bool) : Process App BeforeRemoval := do
  match ← excludeCheck crypto request uvVerified with
  | none => return .answered .notAllowed
  | some true =>
    let status ← requestApproval
    return .answered (if status = .keepaliveCancel then status else .credentialExcluded)
  | some false =>
    match ← Process.atomically (onDevice (prepareCredential request.rpId request.userId
        request.userName request.userDisplayName createdAt residentKey)) with
    | none => return .answered .invalidParameter
    | some record =>
      let record :=
        if request.hasCredProtect then { record with credProtect := request.credProtect } else record
      let status ← requestApproval
      if status ≠ .success then
        return .answered status
      let status ← pollCborControl
      if status ≠ .success then
        return .answered status
      createUntilRemoval crypto request record residentKey

/-- `handleMakeCredential` up to the removal. -/
def makeCredentialUntilRemoval (capabilities : Capabilities) (createdAt : ℕ)
    (parsed : Reply MakeCredentialRequest) : Process App BeforeRemoval := do
  match parsed with
  | .error status => return .answered status
  | .ok request =>
    let status := validatePinAuthProtocol request.hasPinAuth request.hasPinProtocol
      request.pinProtocol capabilities.pinUvAuthProtocol2Enabled
    if status ≠ .success then
      return .answered status
    if request.hasPinAuth && request.pinAuth.isEmpty then
      return ← BeforeRemoval.answered <$> handleEmptyPinAuthProbe
    if effectiveUvRequested request.hasPinAuth request.hasUv request.uv then
      return .answered .unsupportedOption
    let residentKey := request.hasRk && request.rk
    let pinIsSet ← Process.atomically (return (← get).pinState.pinSet)
    if !request.hasPinAuth && pinIsSet && residentKey then
      return .answered .pinRequired
    let (status, uvVerified) ← requirePinAuthWithState crypto
      { uvRequested := request.hasUv && request.uv
        hasPinAuth := request.hasPinAuth
        clientDataHash := request.clientDataHash
        pinAuth := request.pinAuth
        hasPinProtocol := request.hasPinProtocol
        pinProtocol := request.pinProtocol
        rpId := some request.rpId
        requiredPermissions := Pin.permissionMc }
    if status ≠ .success then
      return .answered status
    let status ← pollCborControl
    if status ≠ .success then
      return .answered status
    registerUntilRemoval crypto createdAt request residentKey uvVerified

/-- The rest of `storeCredential`. -/
def finishStoring : BeforeRemoval → Process App CtapStatus
  | .answered status => return status
  | .replacing deletedIndices record => replaceCredentials crypto deletedIndices record

/-- The rest of `handleMakeCredential`. -/
def finishRegistration : BeforeRemoval → Process App CtapStatus
  | .answered status => return status
  | .replacing deletedIndices record => do
    let status ← replaceCredentials crypto deletedIndices record
    endMaintenance
    return status

end Parts

section Equations

variable {crypto : Crypto} {request : MakeCredentialRequest} {record : CredentialRecord}
  {residentKey : Bool}

theorem storeCredential_eq (deletedIndices : List ℕ) :
    storeCredential crypto record residentKey deletedIndices =
      storeUntilRemoval crypto record residentKey deletedIndices >>= finishStoring crypto :=
  bind_splits fun _ ↦ ite_splits rfl (bind_splits fun _ ↦ ite_splits rfl (ite_splits rfl
    (map_splits fun _ ↦ rfl)))

theorem commitCredential_eq :
    commitCredential crypto request record residentKey =
      commitUntilRemoval crypto request record residentKey >>= finishStoring crypto := by
  refine bind_splits fun found ↦ ?_
  cases found with
  | none => rfl
  | some deletedIndices => exact storeCredential_eq deletedIndices

theorem createCredential_eq :
    createCredential crypto request record residentKey =
      createUntilRemoval crypto request record residentKey >>= finishRegistration crypto := by
  refine bind_splits fun generated ↦ ?_
  cases generated with
  | none => rfl
  | some record =>
    refine bind_splits fun built ↦ ite_splits rfl (bind_splits fun polled ↦ ite_splits rfl
      (bind_splits fun free ↦ ite_splits rfl ?_))
    rw [commitCredential_eq, bind_assoc, bind_assoc]
    refine bind_congr fun reached ↦ ?_
    cases reached <;> rfl

theorem registerCredential_eq {createdAt : ℕ} {uvVerified : Bool} :
    registerCredential crypto createdAt request residentKey uvVerified =
      registerUntilRemoval crypto createdAt request residentKey uvVerified >>=
        finishRegistration crypto := by
  refine bind_splits fun excluded ↦ ?_
  cases excluded with
  | none => rfl
  | some excluded =>
    cases excluded with
    | true => exact bind_splits fun status ↦ rfl
    | false =>
      refine bind_splits fun drafted ↦ ?_
      cases drafted with
      | none => rfl
      | some record =>
        exact bind_splits fun approved ↦ ite_splits rfl (bind_splits fun polled ↦
          ite_splits rfl createCredential_eq)

/-- makeCredential is its part up to the removal, and the rest. -/
theorem handleMakeCredential_eq {capabilities : Capabilities} {createdAt : ℕ}
    {parsed : Reply MakeCredentialRequest} :
    handleMakeCredential crypto capabilities createdAt parsed =
      makeCredentialUntilRemoval crypto capabilities createdAt parsed >>=
        finishRegistration crypto := by
  cases parsed with
  | error status => rfl
  | ok request =>
    exact ite_splits rfl (ite_splits (map_splits fun _ ↦ rfl) (ite_splits rfl
      (bind_splits fun pinIsSet ↦ ite_splits rfl (bind_splits fun checked ↦ ite_splits rfl
        (bind_splits fun polled ↦ ite_splits rfl registerCredential_eq)))))

end Equations

section Idleness

variable {Value Next : Type} {app later : App}
  {property : CredentialStore → (Path → Option Bytes) → Prop}

/-- The index, the files and the outcomes of the writes to come are the same. -/
structure Waiting (app later : App) : Prop where
  store : later.store = app.store
  ui : later.ui = app.ui
  files : later.device.files = app.device.files
  writes : later.device.writes = app.device.writes

theorem Waiting.refl : Waiting app app := ⟨rfl, rfl, rfl, rfl⟩

/-- The generator is not about to give the id of a credential in the index. -/
def App.Undrawn (app : App) : Prop :=
  ∀ entry ∈ app.store, entry.credentialId ≠ (List.range credentialIdLen).map app.device.entropy

/-- The user begins no deletion, and no id is drawn again. -/
def Undeleting (app : App) : Option UiEvent → Prop
  | none => app.Undrawn
  | some (.beginDelete _) => False
  | some _ => True

/-- What a section of a command may rely on when the user deletes nothing. -/
structure Apart (app later : App) : Prop where
  waiting : app.ui = .idle → Waiting app later
  undrawn : later.Undrawn

/-- The user interface is not at a deletion, and the index and the files have a property. -/
structure Idly (property : CredentialStore → (Path → Option Bytes) → Prop) (app : App) : Prop where
  idle : app.ui = .idle
  holds : property app.store app.device.files

/-- An idle user interface that begins no deletion changes the prompt and the clock only. -/
theorem waiting_uiStep (hidle : app.ui = .idle) {event : UiEvent}
    (hevent : Undeleting app (some event)) : Waiting app (uiStep app event) := by
  unfold uiStep
  split_ifs
  · exact Waiting.refl
  · cases event with
    | finishInteraction state =>
      simp only [finishInteractionLocked]
      split_ifs
      · exact ⟨rfl, rfl, rfl, rfl⟩
      · exact Waiting.refl
    | selectAccount menuIndex =>
      simp only [finishAssertionSelectionLocked]
      split_ifs
      · split
        · exact Waiting.refl
        · split
          · exact Waiting.refl
          · split_ifs
            · exact ⟨rfl, rfl, rfl, rfl⟩
            · exact Waiting.refl
      · exact Waiting.refl
    | beginDelete selectedIndex => exact hevent.elim
    | deleteFiles =>
      simp only [deleteFiles, hidle]
      exact Waiting.refl
    | endDelete =>
      simp only [endDelete, hidle]
      exact Waiting.refl
    | timePasses milliseconds => exact ⟨rfl, rfl, rfl, rfl⟩

theorem Idly.of_eq (h : Idly property app) (hui : later.ui = app.ui)
    (hstore : later.store = app.store) (hfiles : later.device.files = app.device.files) :
    Idly property later := by
  refine ⟨hui.trans h.idle, ?_⟩
  rw [hstore, hfiles]
  exact h.holds

theorem Idly.waiting (h : Idly property app) (hwaiting : Waiting app later) :
    Idly property later :=
  h.of_eq hwaiting.ui hwaiting.store hwaiting.files

theorem idly_apart (hapart : Apart app later) (h : Idly property app) : Idly property later :=
  h.waiting (hapart.waiting h.idle)

theorem Idly.uiStep (h : Idly property app) {event : UiEvent}
    (hevent : Undeleting app (some event)) : Idly property (Ctap.uiStep app event) :=
  h.waiting (waiting_uiStep h.idle hevent)

/-- What an act of the user interface leaves to rely on was so before it. -/
theorem Apart.before {event : UiEvent} (hevent : Undeleting app (some event))
    (h : Apart (uiStep app event) later) : Apart app later := by
  refine ⟨fun hidle ↦ ?_, h.undrawn⟩
  have hstep := waiting_uiStep hidle hevent
  have hlater := h.waiting (hstep.ui.trans hidle)
  exact ⟨hlater.store.trans hstep.store, hlater.ui.trans hstep.ui,
    hlater.files.trans hstep.files, hlater.writes.trans hstep.writes⟩

/-- The rule for a section. -/
theorem maintains_idly {program : Program App Value} {post : Value → App → Prop}
    (h : Idly property app) (hprogram : ∀ later, Idly property later → later.Undrawn →
      Waiting app later → Ensures program post (fun _ ↦ True) later) :
    Maintains Apart (fun _ ↦ True) post (fun _ ↦ True) (atomically program) app :=
  (maintains_atomically program).mpr ⟨trivial, fun later hapart ↦
    hprogram later (idly_apart hapart h) hapart.undrawn (hapart.waiting h.idle)⟩

/-- A section that leaves the index and the files alone. -/
theorem upholds_idly {program : Program App Value}
    (h : ∀ app, Ensures program (fun _ app' ↦ app'.ui = app.ui ∧ app'.store = app.store ∧
      app'.device.files = app.device.files) (fun _ ↦ True) app) :
    Upholds Apart (Idly property) (atomically program) :=
  upholds_atomically (fun _ _ ↦ idly_apart) fun app happ ↦
    (h app).mono (fun _ _ hsame ↦ happ.of_eq hsame.1 hsame.2.1 hsame.2.2) fun _ hcut ↦ hcut

/-- A section on the device. -/
theorem upholds_idly_onDevice {program : Program Pin.Device Value}
    (h : ∀ store world, property store world.files → Ensures program
      (fun _ world' ↦ property store world'.files) (fun _ ↦ True) world) :
    Upholds Apart (Idly property) (atomically (onDevice program)) := by
  refine upholds_atomically (fun _ _ ↦ idly_apart) fun app happ ↦ ?_
  rw [ensures_onDevice]
  exact (h app.store app.device happ.holds).mono (fun _ _ hfinal ↦ ⟨happ.idle, hfinal⟩)
    fun _ hcut ↦ hcut

theorem upholds_idly_read (value : App → Value) :
    Upholds Apart (Idly property) (atomically (return value (← get))) :=
  upholds_idly fun _ ↦ ⟨rfl, rfl, rfl⟩

theorem upholds_idly_nextStatus : Upholds Apart (Idly property) (atomically nextStatus) :=
  upholds_idly fun _ ↦ ⟨rfl, rfl, rfl⟩

theorem upholds_idly_requestApproval : Upholds Apart (Idly property) requestApproval :=
  @upholds_requestApproval Apart (Idly property) (fun _ _ ↦ idly_apart)
    fun _ _ hsame h ↦ h.of_eq hsame.ui hsame.store (congrArg (·.files) hsame.device)

theorem upholds_idly_beginMaintenance : Upholds Apart (Idly property) beginMaintenance := by
  refine upholds_idly fun app ↦ ?_
  simp

theorem upholds_idly_endMaintenance : Upholds Apart (Idly property) endMaintenance :=
  upholds_idly fun _ ↦ ⟨rfl, rfl, rfl⟩

/-- Work under the gate. -/
theorem upholds_idly_gated {refused : Value} {work : Process App Value}
    (h : Upholds Apart (Idly property) work) :
    Upholds Apart (Idly property) (do
      if !(← beginMaintenance) then
        return refused
      let value ← work
      endMaintenance
      return value) :=
  upholds_idly_beginMaintenance.bind fun _ ↦ upholds_ite (upholds_pure _)
    (h.bind fun _ ↦ upholds_idly_endMaintenance.bind fun _ ↦ upholds_pure _)

end Idleness

section Sparing

variable {crypto : Crypto} {start app : App} {store : CredentialStore}
  {files files' : Path → Option Bytes} {record : CredentialRecord}

/-- The index is that of an earlier state, and so are the files of its credentials. -/
structure Spares (start : App) (store : CredentialStore) (files : Path → Option Bytes) : Prop where
  store : store = start.store
  files : SameFiles start.store start.device.files files

theorem Spares.refl : Spares start start.store start.device.files := ⟨rfl, SameFiles.refl⟩

/-- A property that lasts while the files of the credentials stay. -/
def AboutCredentials (start : App)
    (property : CredentialStore → (Path → Option Bytes) → Prop) : Prop :=
  ∀ store files files', property store files → SameFiles start.store files files' →
    property store files'

theorem aboutCredentials_spares : AboutCredentials start (Spares start) :=
  fun _ _ _ h hsame ↦ ⟨h.store, h.files.trans hsame⟩

theorem Spares.inOrder (h : Spares start store files)
    (hstart : InOrder crypto start.device.files start.store) : InOrder crypto files store := by
  rw [h.store]
  exact hstart.of_same h.files

/-- An operation on a credential that is not in the index. -/
theorem sameFiles_of_within {world world' : Pin.Device}
    (hlengths : ∀ entry ∈ store, entry.credentialId.length = credentialIdLen)
    (hname : isRecordName record.fileName = true)
    (hnovel : ∀ entry ∈ store, indexEntryFileName entry ≠ record.fileName)
    (hwithin : Within record.fileName world world') : SameFiles store world.files world'.files :=
  fun entry hentry ↦ hwithin.elsewhere hname (isRecordName_hexEncode (hlengths entry hentry))
    fun hsame ↦ hnovel entry hentry hsame.symm

theorem upholds_spares_checkPinAuth {request : Pin.AuthRequest}
    (hstart : InOrder crypto start.device.files start.store) :
    Upholds Apart (Idly (Spares start)) (checkPinAuth crypto request) := by
  refine (upholds_idly_read _).bind fun pinState ↦ Upholds.bind
    (upholds_idly_onDevice fun store world hspares ↦ ?_) fun result ↦
      Upholds.bind (upholds_idly fun _ ↦ ⟨rfl, rfl, rfl⟩) fun _ ↦ upholds_pure _
  refine (Pin.besidesPin_pinRequireAuth pinState request world fun _ _ _ _ ↦ rfl).mono ?_
    fun _ _ ↦ trivial
  rintro _ final ⟨-, hbesides⟩
  refine aboutCredentials_spares _ _ _ hspares fun entry hentry path hpath ↦ ?_
  obtain ⟨hprimary, hbackup, htemp⟩ := ne_pin_of_fileOf (hstart.isRecord hentry) hpath
  exact hbesides path hprimary hbackup htemp

/-- The exclude check leaves every file as it is. -/
theorem ensures_excludeListHasVisibleMatch_inOrder (hlaws : SealLaws crypto) {world : Pin.Device}
    {rpId : Bytes} {excludeList : List Bytes} {uvVerified : Bool}
    (h : InOrder crypto world.files store) :
    Ensures (excludeListHasVisibleMatch crypto store rpId excludeList uvVerified)
      (fun _ world' ↦ world'.files = world.files) (fun _ ↦ True) world := by
  have hload : ∀ (index : ℕ) (middle : Pin.Device), middle.files = world.files →
      Ensures (loadRecord crypto (entryAt store index))
        (fun _ world' ↦ world'.files = world.files) (fun _ ↦ True) middle := by
    intro index middle hmiddle
    rw [← hmiddle] at h ⊢
    cases hentry : store[index]? with
    | none =>
      have hdefault : (entryAt store index).inUse = false := by
        rw [entryAt, List.getD_eq_getElem?_getD, hentry]
        rfl
      simp only [loadRecord, hdefault, Bool.not_false, if_true, ensures_pure]
    | some entry =>
      rw [entryAt_of_getElem? hentry]
      exact (ensures_loadRecord_inOrder hlaws h (List.mem_of_getElem? hentry)).mono
        (fun _ _ hloaded ↦ hloaded.1) fun _ hcut ↦ hcut
  have hvisit : ∀ (indices : List ℕ) (middle : Pin.Device), middle.files = world.files →
      Ensures (excludeListVisit crypto rpId uvVerified (indices.map (entryAt store)))
        (fun _ world' ↦ world'.files = world.files) (fun _ ↦ True) middle := by
    intro indices
    induction indices with
    | nil => exact fun middle hmiddle ↦ hmiddle
    | cons index rest ih =>
      intro middle hmiddle
      rw [List.map_cons, excludeListVisit, ensures_ite]
      refine ⟨fun _ ↦ ih middle hmiddle, fun _ ↦ ?_⟩
      rw [ensures_bind]
      refine (hload index middle hmiddle).mono (fun loaded final hfinal ↦ ?_) fun _ hcut ↦ hcut
      cases loaded with
      | none => exact hfinal
      | some record =>
        rw [ensures_ite]
        exact ⟨fun _ ↦ hfinal, fun _ ↦ ih final hfinal⟩
  unfold excludeListHasVisibleMatch
  rw [ensures_ite]
  exact ⟨fun _ ↦ rfl, fun _ ↦ hvisit _ world rfl⟩

theorem upholds_spares_excludeCheck (hlaws : SealLaws crypto)
    (hstart : InOrder crypto start.device.files start.store) {request : MakeCredentialRequest}
    {uvVerified : Bool} :
    Upholds Apart (Idly (Spares start)) (excludeCheck crypto request uvVerified) := by
  refine upholds_idly_gated (upholds_atomically (fun _ _ ↦ idly_apart) fun app happ ↦ ?_)
  rw [ensures_bind, ensures_get, ensures_map, ensures_onDevice]
  refine (ensures_excludeListHasVisibleMatch_inOrder hlaws (happ.holds.inOrder hstart)).mono ?_
    fun _ hcut ↦ hcut
  intro excluded device hfiles
  exact happ.of_eq rfl rfl hfiles

end Sparing

section Reaching

variable {Value : Type} {crypto : Crypto} {start app : App} {request : MakeCredentialRequest}
  {record : CredentialRecord} {deletedIndices : List ℕ} {residentKey : Bool}

/-- A record of a new credential, with an id that is not in the index. -/
structure Novel (start : App) (record : CredentialRecord) : Prop where
  wellFormed : record.WellFormed
  names : ∀ entry ∈ start.store, indexEntryFileName entry ≠ record.fileName

/-- The credentials at some positions may be replaced by a new one: they can be loaded, and there is
room for it in their place. -/
structure Replaceable (crypto : Crypto) (start : App) (deletedIndices : List ℕ) : Prop where
  loads : ∀ index ∈ deletedIndices, LoadsAt crypto start.device.files start.store index
  ascending : Ascending start.store deletedIndices

/-- Where makeCredential stands when it is about to remove credentials. -/
structure Replacing (crypto : Crypto) (start : App) (deletedIndices : List ℕ)
    (record : CredentialRecord) : Prop extends Replaceable crypto start deletedIndices where
  nonempty : deletedIndices ≠ []
  room : (publishDeletedIndices start.store deletedIndices).length < maxCredentials
  novel : Novel start record

/-- What makeCredential has come to without the removal. -/
def Reached (crypto : Crypto) (start : App) : BeforeRemoval → App → Prop
  | .answered status, app => status ≠ .success → Idly (Spares start) app
  | .replacing deletedIndices record, app =>
    Idly (Spares start) app ∧ Replacing crypto start deletedIndices record

/-- The process comes to an answer or to the removal, and has destroyed nothing. -/
def Reaches (crypto : Crypto) (start : App) (process : Process App BeforeRemoval) : Prop :=
  ∀ app, Idly (Spares start) app →
    Maintains Apart (fun _ ↦ True) (Reached crypto start) (fun _ ↦ True) process app

theorem reaches_answered (status : CtapStatus) :
    Reaches crypto start (pure (.answered status)) :=
  fun _ h _ ↦ h

theorem reaches_ite {condition : Prop} [Decidable condition] {yes no : Process App BeforeRemoval}
    (hyes : Reaches crypto start yes) (hno : Reaches crypto start no) :
    Reaches crypto start (if condition then yes else no) := by
  split_ifs
  · exact hyes
  · exact hno

/-- A process that destroys nothing before it. -/
theorem Upholds.bindReaches {process : Process App Value}
    {next : Value → Process App BeforeRemoval} (h : Upholds Apart (Idly (Spares start)) process)
    (hnext : ∀ value, Reaches crypto start (next value)) :
    Reaches crypto start (process >>= next) := by
  intro app happ
  rw [maintains_bind]
  exact (h app happ).weaken fun value app' happ' ↦ hnext value app' happ'

theorem publishDeletedIndices_nil (store : CredentialStore) :
    publishDeletedIndices store [] = store := rfl

/-- Taking back the record of a new credential. -/
theorem upholds_idly_removeRecordFile
    {property : CredentialStore → (Path → Option Bytes) → Prop}
    (hlengths : ∀ entry ∈ start.store, entry.credentialId.length = credentialIdLen)
    (hproperty : AboutCredentials start property) (hnovel : Novel start record) :
    Upholds Apart (Idly property) (atomically (onDevice (removeRecordFile record))) := by
  have hnamed : record.fileName ≠ [] := by
    intro hnil
    have hlength := length_of_isRecordName hnovel.wellFormed.isRecord
    rw [hnil] at hlength
    exact absurd hlength (by decide)
  refine upholds_idly_onDevice fun store world hworld ↦ ?_
  simp only [removeRecordFile, hnovel.wellFormed.inUse, Bool.not_true, Bool.false_eq_true, if_false,
    if_neg hnamed]
  exact (ensures_recoveryRemoveRecordPaths_within hnovel.wellFormed.isRecord).mono
    (fun _ _ hwithin ↦ hproperty _ _ _ hworld (sameFiles_of_within hlengths
      hnovel.wellFormed.isRecord hnovel.names hwithin)) fun _ _ ↦ trivial

variable (hstart : InOrder crypto start.device.files start.store)

include hstart

/-- A new credential that replaces none. -/
theorem reaches_addCredential (hnovel : Novel start record) :
    Reaches crypto start (.answered <$> addCredential crypto [] record) := by
  intro app happ
  rw [maintains_map, addCredential, maintains_bind]
  refine maintains_idly happ fun later hlater _ _ ↦ ?_
  simp only [publishCredential, ensures_bind, ensures_modify, ensures_get,
    publishDeletedIndices_nil]
  cases publishAddedRecord crypto later.store record with
  | none =>
    have hkept : Idly (Spares start) { later with store := later.store } := hlater
    simp only [ensures_pure, Bool.not_false, if_true, maintains_bind]
    exact (upholds_idly_removeRecordFile hstart.lengths aboutCredentials_spares hnovel _
      hkept).weaken fun _ final hfinal _ ↦ hfinal
  | some store =>
    simp only [ensures_bind, ensures_modify, ensures_pure, assertionQueueClear, announce,
      Bool.not_true, Bool.false_eq_true, if_false]
    exact fun hfailed ↦ absurd rfl hfailed

/-- The capacity check and the write. -/
theorem reaches_storeUntilRemoval (hlaws : SealLaws crypto) (hnovel : Novel start record)
    (hreplaceable : Replaceable crypto start deletedIndices)
    (hresident : residentKey = false → deletedIndices = []) :
    Reaches crypto start (storeUntilRemoval crypto record residentKey deletedIndices) := by
  have hlength := length_publishDeletedIndices hreplaceable.ascending
  have hfewer : deletedIndices.length ≤ start.store.length := by omega
  intro app happ
  unfold storeUntilRemoval
  rw [maintains_bind]
  refine maintains_idly happ fun first hfirst _ _ ↦ ?_
  rw [ensures_bind, ensures_get, ensures_pure, hfirst.holds.store, if_pos hfewer, maintains_ite]
  refine ⟨fun _ _ ↦ hfirst, fun hroom ↦ ?_⟩
  refine Upholds.bindReaches (upholds_idly_onDevice fun store world hspares ↦ ?_)
    (fun written ↦ reaches_ite (reaches_answered _) ?_) first hfirst
  · have hwithin : ∀ {final : Pin.Device}, Rewrites (recordPath record.fileName)
        (tempPath record.fileName) (fun data ↦ Store.Recorded crypto data record) world final →
          Spares start store final.files := fun hrewrites ↦
      aboutCredentials_spares _ _ _ hspares (sameFiles_of_within hstart.lengths
        hnovel.wellFormed.isRecord hnovel.names
        (hrewrites.within (fileOf_recordPath _) (fileOf_tempPath _)))
    exact (ensures_recordFormatWriteRecord hlaws hnovel.wellFormed).mono
      (fun _ _ hdone ↦ hwithin hdone.1) fun _ _ ↦ trivial
  · by_cases hreplaces : (residentKey && decide (0 < deletedIndices.length)) = true
    · rw [if_pos hreplaces]
      rw [Bool.and_eq_true, decide_eq_true_eq] at hreplaces
      exact fun later hlater ↦ ⟨hlater, hreplaceable, List.length_pos_iff.mp hreplaces.2,
        by omega, hnovel⟩
    · rw [if_neg hreplaces]
      have hnone : deletedIndices = [] := by
        cases residentKey with
        | false => exact hresident rfl
        | true => simpa using hreplaces
      rw [hnone]
      exact reaches_addCredential hstart hnovel

/-- The search for the credentials to replace, and what follows. -/
theorem reaches_commitUntilRemoval (hlaws : SealLaws crypto) (hnovel : Novel start record) :
    Reaches crypto start (commitUntilRemoval crypto request record residentKey) := by
  intro app happ
  unfold commitUntilRemoval
  rw [maintains_bind]
  have hfind : Maintains Apart (fun _ ↦ True) (fun found app' ↦ Idly (Spares start) app' ∧
      ∀ indices, found = some indices → Replaceable crypto start indices ∧
        (residentKey = false → indices = [])) (fun _ ↦ True)
      (findReplacedIndices crypto request residentKey) app := by
    cases residentKey with
    | false =>
      refine ⟨happ, ?_⟩
      rintro _ ⟨⟩
      exact ⟨⟨by simp, List.Pairwise.nil, by simp⟩, fun _ ↦ rfl⟩
    | true =>
      refine maintains_idly happ fun later hlater _ _ ↦ ?_
      rw [ensures_bind, ensures_get, ensures_onDevice]
      refine ((ensures_findResidentCredentialIndicesForUser_inOrder hlaws
        (hlater.holds.inOrder hstart)).and ensures_findResidentCredentialIndicesForUser).mono ?_
          fun _ _ ↦ trivial
      rintro found device ⟨⟨hfiles, hloads⟩, hascending⟩
      refine ⟨hlater.of_eq rfl rfl hfiles, fun indices hfound ↦ ⟨⟨fun index hindex ↦ ?_, ?_⟩,
        by simp⟩⟩
      · obtain ⟨entry, hentry, hinUse, hfound⟩ := hloads indices hfound index hindex
        rw [hlater.holds.store] at hentry
        refine ⟨entry, hentry, hinUse, ?_⟩
        rwa [hlater.holds.files.loadFound_eq (List.mem_of_getElem? hentry)] at hfound
      · have hsorted := hascending indices hfound
        rwa [hlater.holds.store] at hsorted
  refine hfind.weaken ?_
  rintro found first ⟨hfirst, hindices⟩
  cases found with
  | none => exact fun _ ↦ hfirst
  | some indices =>
    obtain ⟨hreplaceable, hresident⟩ := hindices indices rfl
    exact reaches_storeUntilRemoval hstart hlaws hnovel hreplaceable hresident first hfirst

omit hstart in
/-- Giving the gate back changes neither the index nor the files. -/
theorem maintains_releaseAnswered {reached : BeforeRemoval}
    (h : Reached crypto start reached app) :
    Maintains Apart (fun _ ↦ True) (Reached crypto start) (fun _ ↦ True)
      (releaseAnswered reached) app := by
  cases reached with
  | answered status =>
    by_cases hstatus : status = .success
    · refine (maintains_bind _ _).mpr ((maintains_atomically _).mpr ⟨trivial, fun later _ ↦ ?_⟩)
      exact fun hfailed ↦ absurd hstatus hfailed
    · exact Upholds.bindReaches upholds_idly_endMaintenance (fun _ ↦ reaches_answered status) app
        (h hstatus)
  | replacing deletedIndices record => exact h

/-- makeCredential from the end of the user's approval on. -/
theorem reaches_createUntilRemoval (hlaws : SealLaws crypto) (hkeys : KeyLaws crypto)
    (hdraft : NewDraft record)
    (hid : ∀ entry ∈ start.store, entry.credentialId ≠ record.credentialId) :
    Reaches crypto start (createUntilRemoval crypto request record residentKey) := by
  intro app happ
  unfold createUntilRemoval
  rw [maintains_bind]
  refine maintains_idly happ fun later hlater _ _ ↦ ?_
  rw [ensures_onDevice]
  refine (ensures_generateCredentialKeypair_newRecord hlaws hkeys hdraft).mono ?_
    fun _ _ ↦ trivial
  rintro generated device ⟨hfiles, hgenerated⟩
  have hfirst : Idly (Spares start) { later with device } := hlater.of_eq rfl rfl hfiles
  cases generated with
  | none => exact fun _ ↦ hfirst
  | some generated =>
    obtain ⟨hrecord, hsame⟩ := hgenerated generated rfl
    have hnovel : Novel start generated := by
      refine ⟨hrecord.wellFormed, fun entry hentry hname ↦ hid entry hentry ?_⟩
      rw [hrecord.wellFormed.fileName, hsame] at hname
      exact hexEncode_injective hname
    refine Upholds.bindReaches upholds_idly_nextStatus (fun built ↦ reaches_ite
      (reaches_answered _) (Upholds.bindReaches upholds_idly_nextStatus fun polled ↦ reaches_ite
        (reaches_answered _) (Upholds.bindReaches upholds_idly_beginMaintenance fun free ↦
          reaches_ite (reaches_answered _) fun first hfirst ↦ ?_))) _ hfirst
    rw [maintains_bind]
    exact (reaches_commitUntilRemoval hstart hlaws hnovel first hfirst).weaken
      fun reached _ hreached ↦ maintains_releaseAnswered hreached

/-- makeCredential from the end of the PIN check on. -/
theorem reaches_registerUntilRemoval (hlaws : SealLaws crypto) (hkeys : KeyLaws crypto)
    {createdAt : ℕ} {uvVerified : Bool} (hrequest : request.WithinLimits)
    (hcreatedAt : createdAt ≤ uint32Max) :
    Reaches crypto start
      (registerUntilRemoval crypto createdAt request residentKey uvVerified) := by
  refine Upholds.bindReaches (upholds_spares_excludeCheck hlaws hstart) fun excluded ↦ ?_
  cases excluded with
  | none => exact reaches_answered _
  | some excluded =>
    cases excluded with
    | true =>
      exact Upholds.bindReaches upholds_idly_requestApproval fun status ↦ reaches_answered _
    | false =>
      intro app happ
      dsimp only
      rw [maintains_bind]
      refine maintains_idly happ fun later hlater hundrawn _ ↦ ?_
      rw [ensures_onDevice]
      refine (ensures_prepareCredential_newDraft hrequest hcreatedAt).mono ?_ fun _ _ ↦ trivial
      rintro drafted device ⟨hfiles, hdrafted⟩
      have hfirst : Idly (Spares start) { later with device } := hlater.of_eq rfl rfl hfiles
      cases drafted with
      | none => exact fun _ ↦ hfirst
      | some record =>
        obtain ⟨hdraft, hdrawn⟩ := hdrafted record rfl
        replace hdraft := hdraft.protected hrequest
        have hid : ∀ entry ∈ start.store, entry.credentialId ≠
            (if request.hasCredProtect then { record with credProtect := request.credProtect }
              else record : CredentialRecord).credentialId := by
          intro entry hentry
          rw [protected_credentialId, hdrawn]
          rw [← hlater.holds.store] at hentry
          exact hundrawn entry hentry
        exact Upholds.bindReaches upholds_idly_requestApproval (fun approved ↦ reaches_ite
          (reaches_answered _) (Upholds.bindReaches upholds_idly_nextStatus fun polled ↦
            reaches_ite (reaches_answered _)
              (reaches_createUntilRemoval hstart hlaws hkeys hdraft hid))) _ hfirst

/-- makeCredential, for what its parser may make of a request. -/
theorem reaches_makeCredentialUntilRemoval (hlaws : SealLaws crypto) (hkeys : KeyLaws crypto)
    {capabilities : Capabilities} {createdAt : ℕ} {parsed : Reply MakeCredentialRequest}
    (hparsed : ∀ request, parsed = .ok request → request.WithinLimits)
    (hcreatedAt : createdAt ≤ uint32Max) :
    Reaches crypto start (makeCredentialUntilRemoval crypto capabilities createdAt parsed) := by
  cases parsed with
  | error status => exact reaches_answered _
  | ok request =>
    refine reaches_ite (reaches_answered _) (reaches_ite ?_ (reaches_ite (reaches_answered _) ?_))
    · have hprobe : Upholds Apart (Idly (Spares start)) handleEmptyPinAuthProbe :=
        upholds_idly_requestApproval.bind fun status ↦ upholds_ite (upholds_pure _)
          ((upholds_idly_read _).bind fun _ ↦ upholds_pure _)
      exact Upholds.bindReaches hprobe fun status ↦ reaches_answered status
    · refine Upholds.bindReaches (upholds_idly_read _) fun pinIsSet ↦ reaches_ite
        (reaches_answered _) (Upholds.bindReaches
          (upholds_idly_gated (upholds_spares_checkPinAuth hstart)) ?_)
      rintro ⟨status, uvVerified⟩
      refine reaches_ite (reaches_answered _) (Upholds.bindReaches upholds_idly_nextStatus
        fun polled ↦ reaches_ite (reaches_answered _) ?_)
      exact reaches_registerUntilRemoval hstart hlaws hkeys (hparsed request rfl) hcreatedAt

end Reaching

end ZeroFido.Ctap
