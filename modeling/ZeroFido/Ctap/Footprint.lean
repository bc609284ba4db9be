import ZeroFido.Ctap.Interference
import ZeroFido.Ctap.InterruptedReset
import ZeroFido.Foundations.Schedule
import ZeroFido.Store.Replacement

/-!
# What happens to the credentials before a commit

The PIN check and the loads of a command leave every credential as it is, and between its sections
the user may delete some. `Pruned` says that the index and the files are those of an earlier state
but for what the user deleted since; it is kept by every step of the user interface
(`pruned_uiStep`) and by the sections of a command before it commits (`Steady`).
-/

set_option autoImplicit false
set_option relaxedAutoImplicit false

namespace ZeroFido.Ctap

open Foundations Storage Store Process

section Device

variable {crypto : Crypto} {world world' : Pin.Device} {store : CredentialStore}

/-- The credentials are untouched, and no call to come fails. -/
structure Spared (crypto : Crypto) (store : CredentialStore) (world world' : Pin.Device) : Prop where
  same : SameRecords crypto store world.files world'.files
  clean : Clean world'

theorem Spared.of_idle (h : Idle world world') (hclean : Clean world) :
    Spared crypto store world world' := by
  refine ⟨?_, hclean.of_quiet h.toQuiet⟩
  rw [h.files_eq]
  exact SameRecords.refl

/-- The files of the PIN are not those of a credential. -/
theorem ne_pin_of_fileOf {name path : Path} (hname : isRecordName name = true)
    (hpath : FileOf name path) : path ≠ Pin.pinFilePath ∧ path ≠ backupOf Pin.pinFilePath ∧
      path ≠ Pin.pinFileTempPath := by
  refine ⟨?_, ?_, ?_⟩
  · rintro rfl
    exact foreign_pinFilePath.notRecord name hname hpath
  · rintro rfl
    exact foreign_backupOf_pinFilePath.notRecord name hname hpath
  · rintro rfl
    rw [pinFileTempPath_eq] at hpath
    exact not_fileOf_of_length hname (by decide) hpath

theorem Spared.of_pin (hclean : Clean world') (hframe : ∀ path, path ≠ Pin.pinFilePath →
      path ≠ backupOf Pin.pinFilePath → path ≠ Pin.pinFileTempPath →
      world'.files path = world.files path) : Spared crypto store world world' := by
  have hfile : ∀ name path, isRecordName name = true → FileOf name path →
      world'.files path = world.files path := by
    intro name path hname hpath
    obtain ⟨hprimary, hbackup, htemp⟩ := ne_pin_of_fileOf hname hpath
    exact hframe path hprimary hbackup htemp
  refine ⟨⟨fun name hname _ path hpath ↦ hfile name path hname hpath,
    fun name hname ↦ hfile name _ hname (fileOf_recordPath name), fun name hname ↦ ?_⟩, hclean⟩
  exact loadFound_congr (hfile name _ hname (fileOf_recordPath name))
    (hfile name _ hname (fileOf_counterFloorPath name))

/-- Persisting the PIN state. -/
theorem ensures_pinStateStorePersist_clean {state : Pin.ClientPinState} (store : CredentialStore)
    (hclean : Clean world) :
    Ensures (Pin.pinStateStorePersist crypto state)
      (fun ok world' ↦ ok = true ∧ Spared crypto store world world') (fun _ ↦ False) world := by
  refine ((Pin.ensures_pinStateStorePersist state).and
    (Pin.ensures_pinStateStorePersist_frame state)).mono ?_
    fun _ hcut ↦ hcut.1.listed hclean.writes
  rintro ok world' ⟨⟨hquiet, -, -, hfailed⟩, hframe⟩
  refine ⟨?_, Spared.of_pin (hclean.of_quiet hquiet) hframe⟩
  cases ok with
  | true => rfl
  | false =>
    rcases (hfailed rfl).1 with hlisted | hlisted
    · exact absurd hclean.writes hlisted
    · exact absurd hclean.enclave hlisted

/-- The end of the PIN check. -/
theorem ensures_pinCommitAuthorization_clean {state : Pin.ClientPinState}
    {request : Pin.AuthRequest} (hclean : Clean world) :
    Ensures (Pin.pinCommitAuthorization crypto state request)
      (fun _ world' ↦ Spared crypto store world world') (fun _ ↦ False) world := by
  simp only [Pin.pinCommitAuthorization, ensures_bind]
  refine (ensures_pinStateStorePersist_clean store hclean).mono ?_ fun _ hcut ↦ hcut
  rintro ok world' ⟨rfl, hspared⟩
  simp only [Bool.not_true, Bool.false_eq_true, if_false, note, ensures_bind, ensures_get,
    ensures_modify, ensures_pure]
  exact ⟨hspared.same, hspared.clean.writes, hspared.clean.reads, hspared.clean.enclave⟩

/-- The PIN check of a command. -/
theorem ensures_pinRequireAuth_clean {state : Pin.ClientPinState} {request : Pin.AuthRequest}
    (store : CredentialStore) (hclean : Clean world) :
    Ensures (Pin.pinRequireAuth crypto state request)
      (fun _ world' ↦ Spared crypto store world world') (fun _ ↦ False) world := by
  have hnothing : Spared crypto store world world := Spared.of_idle (Idle.refl world) hclean
  have hcommit : ∀ state, Ensures (Pin.pinCommitAuthorization crypto state request)
      (fun _ world' ↦ Spared crypto store world world') (fun _ ↦ False) world :=
    fun _ ↦ ensures_pinCommitAuthorization_clean hclean
  simp only [Pin.pinRequireAuth, Pin.pinTokenIsExpired, getTick, ensures_ite, ensures_bind,
    ensures_get, ensures_pure]
  refine ⟨fun _ ↦ ⟨fun _ ↦ hnothing, fun _ ↦ ⟨fun _ ↦ hnothing, fun _ ↦ ⟨fun _ ↦ hnothing,
    fun _ ↦ ⟨fun _ ↦ hnothing, fun _ ↦ ⟨fun _ ↦ hnothing, fun _ ↦ ⟨fun _ ↦ hnothing,
      fun _ ↦ ⟨fun _ ↦ hnothing, fun _ ↦ ?_⟩⟩⟩⟩⟩⟩⟩,
    fun _ ↦ ⟨fun _ ↦ hnothing, fun _ ↦ ⟨fun _ ↦ hnothing, fun _ ↦ hnothing⟩⟩⟩
  cases crypto.hmacSha256 state.pinToken request.clientDataHash with
  | none => exact hnothing
  | some expected =>
    rw [ensures_ite]
    refine ⟨fun _ ↦ ?_, fun _ ↦ ?_⟩
    · -- A wrong `pinUvAuthParam` is counted durably.
      simp only [Pin.pinNotePinAuthMismatch, Pin.persistOrBlock, ensures_bind]
      refine (ensures_pinStateStorePersist_clean store hclean).mono ?_ fun _ hcut ↦ hcut
      rintro ok world' ⟨rfl, hspared⟩
      exact hspared
    · simp only [Pin.pinAuthorize, ensures_ite, ensures_pure]
      exact ⟨fun _ ↦ hnothing, fun _ ↦ ⟨fun _ ↦ ⟨fun _ ↦ hnothing, fun _ ↦ ⟨fun _ ↦ hnothing,
        fun _ ↦ ⟨fun _ ↦ hcommit _, fun _ ↦ hcommit _⟩⟩⟩, fun _ ↦ hcommit _⟩⟩

end Device

section Deletions

/-- The user has deleted the credential. -/
def App.UserDeleted (app : App) (credentialId : Bytes) : Prop :=
  .deleted credentialId ∈ app.record ∨ app.ui = .deleted credentialId .ok

variable {crypto : Crypto} {files : Path → Option Bytes} {store : CredentialStore} {app app' : App}

/-- The index and the files are as they were, but for what the user deleted. -/
structure Pruned (crypto : Crypto) (files : Path → Option Bytes) (store : CredentialStore)
    (app : App) : Prop where
  clean : Clean app.device
  agrees : Agrees crypto app.device.files app.store
  index : ∃ gone : List Bytes,
    (∀ credentialId ∈ gone, app.UserDeleted credentialId ∧
      credentialId ∈ store.map (·.credentialId)) ∧ app.store = excluding gone store
  found : ∀ entry ∈ app.store, loadFound crypto app.device.files (indexEntryFileName entry) =
    loadFound crypto files (indexEntryFileName entry)
  unused : ∀ name, isRecordName name = true → Unused files name → Unused app.device.files name

theorem Pruned.start (hclean : Clean app.device) (h : Agrees crypto app.device.files app.store) :
    Pruned crypto app.device.files app.store app :=
  ⟨hclean, h, ⟨[], by simp, excluding_nil.symm⟩, fun _ _ ↦ rfl, fun _ _ hunused ↦ hunused⟩

/-- A step that spares the credentials. -/
theorem Pruned.of_spared (h : Pruned crypto files store app)
    (hspared : Spared crypto app.store app.device app'.device) (hstore : app'.store = app.store)
    (hdeleted : ∀ credentialId, app.UserDeleted credentialId → app'.UserDeleted credentialId) :
    Pruned crypto files store app' := by
  refine ⟨hspared.clean, ?_, ?_, ?_, fun name hname hunused ↦ ?_⟩
  · rw [hstore]
    exact h.agrees.of_same hspared.same
  · obtain ⟨gone, hgone, hindex⟩ := h.index
    exact ⟨gone, fun credentialId hmem ↦ ⟨hdeleted _ (hgone credentialId hmem).1,
      (hgone credentialId hmem).2⟩, hstore.trans hindex⟩
  · rw [hstore]
    intro entry hentry
    rw [hspared.same.found _ (h.agrees.isRecord hentry)]
    exact h.found entry hentry
  · exact (h.unused name hname hunused).of_same hname h.agrees hspared.same

/-- A step that leaves the credentials, the device and the observer's record alone. -/
theorem Pruned.of_eq (h : Pruned crypto files store app) (hstore : app'.store = app.store)
    (hdevice : app'.device = app.device) (hrecord : app'.record = app.record)
    (hui : app'.ui = app.ui) : Pruned crypto files store app' := by
  refine h.of_spared ?_ hstore fun credentialId hdeleted ↦ ?_
  · rw [hdevice]
    exact Spared.of_idle (Idle.refl _) h.clean
  · unfold App.UserDeleted
    rw [hrecord, hui]
    exact hdeleted

theorem pruned_deleteFiles (h : Pruned crypto files store app) :
    Pruned crypto files store (deleteFiles app) := by
  unfold deleteFiles
  split
  · rename_i credentialId hui
    have hrun := ensures_deleteRecord_clean h.clean h.agrees credentialId
    unfold Ensures at hrun
    split
    · rename_i hresult
      rw [hresult] at hrun
      exact hrun.elim
    · rename_i result remaining device hresult
      rw [hresult] at hrun
      rcases hrun with ⟨houtcome, rfl⟩ | ⟨houtcome, hmem, hsucceeds, hgone⟩
      · obtain ⟨rfl, rfl⟩ := Prod.mk.inj houtcome
        refine h.of_spared (Spared.of_idle (Idle.refl _) h.clean) rfl fun other hdeleted ↦ ?_
        exact hdeleted.imp id fun hother ↦ absurd (hui.symm.trans hother) (by simp)
      · obtain ⟨rfl, rfl⟩ := Prod.mk.inj houtcome
        obtain ⟨hagrees, hfound, hunused⟩ := h.agrees.deleted hmem hsucceeds hgone
        obtain ⟨gone, hdeleted, hindex⟩ := h.index
        refine ⟨hsucceeds.clean, hagrees, ⟨gone ++ [credentialId], ?_, ?_⟩,
          fun entry hentry ↦ ?_, fun name hname hname' ↦ hunused name hname (h.unused name hname
            hname')⟩
        · intro other hother
          rcases List.mem_append.mp hother with hother | hother
          · refine ⟨(hdeleted other hother).1.imp id fun hsame ↦ ?_, (hdeleted other hother).2⟩
            exact absurd (hui.symm.trans hsame) (by simp)
          · obtain rfl := List.mem_singleton.mp hother
            refine ⟨Or.inr rfl, ?_⟩
            obtain ⟨entry, hentry, hid⟩ := List.mem_map.mp hmem
            rw [hindex] at hentry
            exact List.mem_map.mpr ⟨entry, (mem_excluding.mp hentry).1, hid⟩
        · rw [← excluding_excluding, ← hindex]
        · rw [hfound entry hentry]
          exact h.found entry (mem_excluding.mp hentry).1
  · exact h

/-- No step of the user interface does more than delete. -/
theorem pruned_uiStep (h : Pruned crypto files store app) (event : UiEvent) :
    Pruned crypto files store (uiStep app event) := by
  unfold uiStep
  split_ifs
  · exact h
  · cases event with
    | finishInteraction state =>
      simp only [finishInteractionLocked]
      split_ifs
      · exact h.of_eq rfl rfl rfl rfl
      · exact h
    | selectAccount menuIndex =>
      simp only [finishAssertionSelectionLocked]
      split_ifs
      · split
        · exact h
        · split
          · exact h
          · split_ifs
            · exact h.of_eq rfl rfl rfl rfl
            · exact h
      · exact h
    | beginDelete selectedIndex =>
      simp only [beginDelete]
      split
      · rename_i entry hidle hentry
        split_ifs
        · exact h
        · refine h.of_spared (Spared.of_idle (Idle.refl _) h.clean) rfl fun other hdeleted ↦ ?_
          exact hdeleted.imp id fun hother ↦ absurd (hidle.symm.trans hother) (by simp)
      · exact h
    | deleteFiles => exact pruned_deleteFiles h
    | endDelete =>
      simp only [endDelete]
      split
      · rename_i credentialId result hui
        split_ifs with hresult
        · refine h.of_spared (Spared.of_idle (Idle.refl _) h.clean) rfl fun other hdeleted ↦ ?_
          refine Or.inl (List.mem_append.mpr (hdeleted.imp id fun hother ↦ ?_))
          obtain ⟨rfl, -⟩ := UiPhase.deleted.inj (hui.symm.trans hother)
          exact List.mem_cons_self
        · refine h.of_spared (Spared.of_idle (Idle.refl _) h.clean) rfl fun other hdeleted ↦ ?_
          refine hdeleted.imp id fun hother ↦ absurd ?_ hresult
          exact (UiPhase.deleted.inj (hui.symm.trans hother)).2
      · exact h
    | timePasses milliseconds =>
      exact h.of_spared ⟨SameRecords.refl, h.clean.writes, h.clean.reads, h.clean.enclave⟩ rfl
        fun _ hdeleted ↦ hdeleted

end Deletions

section Untouched

/-- The state is the same but for the prompt, the outcomes to come, the PIN state and the queue. -/
structure Untouched (app app' : App) : Prop where
  store : app'.store = app.store
  device : app'.device = app.device
  record : app'.record = app.record
  ui : app'.ui = app.ui
  maintenanceBusy : app'.maintenanceBusy = app.maintenanceBusy

variable {Value : Type} {rely : App → App → Prop} {property : App → Prop}
  (hstable : ∀ app app', rely app app' → property app → property app')
  (huntouched : ∀ app app', Untouched app app' → property app → property app')

include hstable huntouched

theorem upholds_untouched {program : Program App Value}
    (h : ∀ app, Ensures program (fun _ ↦ Untouched app) (fun _ ↦ True) app) :
    Upholds rely property (atomically program) :=
  upholds_atomically hstable fun app happ ↦
    (h app).mono (fun _ app' hsame ↦ huntouched app app' hsame happ) fun _ hcut ↦ hcut

theorem upholds_read (value : App → Value) :
    Upholds rely property (atomically (return value (← get))) :=
  upholds_untouched hstable huntouched fun _ ↦ ⟨rfl, rfl, rfl, rfl, rfl⟩

theorem upholds_nextStatus : Upholds rely property (atomically nextStatus) :=
  upholds_untouched hstable huntouched fun _ ↦ ⟨rfl, rfl, rfl, rfl, rfl⟩

/-- Waiting for the user. -/
theorem upholds_requestApproval : Upholds rely property requestApproval := by
  have hread := fun value : App → ApprovalState ↦
    @upholds_read ApprovalState rely property hstable huntouched value
  have hprepare : Upholds rely property (atomically prepareApproval) := by
    refine upholds_untouched hstable huntouched fun app ↦ ?_
    simp only [prepareApproval, ensures_bind, ensures_get, ensures_ite, ensures_pure, ensures_set]
    exact ⟨fun _ ↦ ⟨rfl, rfl, rfl, rfl, rfl⟩, fun _ ↦ ⟨fun _ ↦ ⟨rfl, rfl, rfl, rfl, rfl⟩,
      fun _ ↦ ⟨rfl, rfl, rfl, rfl, rfl⟩⟩⟩
  have hwait : Upholds rely property waitForInteractionResult := by
    have hnext : Upholds rely property (atomically nextWait) :=
      upholds_untouched hstable huntouched fun _ ↦ ⟨rfl, rfl, rfl, rfl, rfl⟩
    unfold waitForInteractionResult
    refine hnext.bind fun waited ↦ ?_
    exact upholds_ite (upholds_pure _) ((hread _).bind fun _ ↦ upholds_pure _)
  unfold requestApproval uiRequestApproval
  refine Upholds.bind (hprepare.bind fun outcome ↦ ?_) fun approved ↦ ?_
  · cases outcome with
    | refused => exact upholds_pure _
    | accepted => exact upholds_pure _
    | shown => exact hwait
  · cases approved with
    | none => exact upholds_pure _
    | some approved =>
      cases approved with
      | true => exact upholds_pure _
      | false => exact (hread _).bind fun _ ↦ upholds_pure _

end Untouched

section Steady

variable {Value : Type} {crypto : Crypto} {files : Path → Option Bytes}
  {store : CredentialStore} {app app' : App}

/-- The credentials are as they were but for deletions, and the gate is kept. -/
structure Unchanged (crypto : Crypto) (files : Path → Option Bytes) (store : CredentialStore)
    (app : App) : Prop extends Pruned crypto files store app where
  gate : app.GateKept

/-- The process leaves the credentials to the user. -/
def Steady (crypto : Crypto) (files : Path → Option Bytes) (store : CredentialStore)
    (process : Process App Value) : Prop :=
  ∀ app, Unchanged crypto files store app → Maintains UiRely (fun _ ↦ True)
    (fun _ ↦ Unchanged crypto files store) (fun _ ↦ True) process app

theorem unchanged_rely (hrely : UiRely app app') (h : Unchanged crypto files store app) :
    Unchanged crypto files store app' := by
  refine @Disturbs.stable _ _ uiStep app app' _ (fun state event hstate ↦ ?_) hrely h
  exact ⟨pruned_uiStep hstate.toPruned event,
    stable_gateKept.ui _ _ (uiEffect_uiStep state event) hstate.gate⟩

theorem held_rely (hrely : UiRely app app') (h : Pruned crypto files store app ∧ app.Held) :
    Pruned crypto files store app' ∧ app'.Held := by
  refine @Disturbs.stable _ _ uiStep app app' (fun state ↦ Pruned crypto files store state ∧
    state.Held) (fun state event hstate ↦ ?_) hrely h
  exact ⟨pruned_uiStep hstate.1 event, stable_held.ui _ _ (uiEffect_uiStep state event) hstate.2⟩

theorem Untouched.unchanged (hsame : Untouched app app') (h : Unchanged crypto files store app) :
    Unchanged crypto files store app' := by
  refine ⟨h.toPruned.of_eq hsame.store hsame.device hsame.record hsame.ui, ?_⟩
  unfold App.GateKept
  rw [hsame.ui, hsame.maintenanceBusy]
  exact h.gate

theorem steady_read (value : App → Value) :
    Steady crypto files store (atomically (return value (← get))) :=
  @upholds_read _ UiRely (Unchanged crypto files store) (fun _ _ ↦ unchanged_rely)
    (fun _ _ ↦ Untouched.unchanged) value

theorem steady_nextStatus : Steady crypto files store (atomically nextStatus) :=
  @upholds_nextStatus UiRely (Unchanged crypto files store) (fun _ _ ↦ unchanged_rely)
    fun _ _ ↦ Untouched.unchanged

theorem steady_requestApproval : Steady crypto files store requestApproval :=
  @upholds_requestApproval UiRely (Unchanged crypto files store) (fun _ _ ↦ unchanged_rely)
    fun _ _ ↦ Untouched.unchanged

/-- A section on the device that spares the credentials. -/
theorem ensures_onDevice_spared {program : Program Pin.Device Value}
    {post : Value → Pin.Device → Prop} (h : Unchanged crypto files store app)
    (hprogram : Ensures program (fun value device ↦ Spared crypto app.store app.device device ∧
      post value device) (fun _ ↦ False) app.device) :
    Ensures (onDevice program) (fun value app' ↦ Unchanged crypto files store app' ∧
      post value app'.device) (fun _ ↦ True) app := by
  rw [ensures_onDevice]
  refine hprogram.mono ?_ fun _ hcut ↦ hcut.elim
  rintro value device ⟨hspared, hpost⟩
  exact ⟨⟨h.toPruned.of_spared hspared rfl fun _ hdeleted ↦ hdeleted, h.gate⟩, hpost⟩

/-- Taking the gate. -/
theorem maintains_beginMaintenance_unchanged {post : Bool → App → Prop}
    (h : Unchanged crypto files store app)
    (hrefused : ∀ app, Unchanged crypto files store app → post false app)
    (htaken : ∀ app, Pruned crypto files store app → app.Held → post true app) :
    Maintains UiRely (fun _ ↦ True) post (fun _ ↦ True) beginMaintenance app := by
  refine maintains_of_stable (fun _ _ ↦ unchanged_rely) trivial h fun later hlater ↦ ?_
  simp only [ensures_bind, ensures_get, ensures_ite, ensures_pure, ensures_modify]
  refine ⟨fun _ ↦ hrefused later hlater, fun hfree ↦ ?_⟩
  have hidle : later.ui = .idle := by
    by_contra hne
    exact hfree (hlater.gate hne)
  exact htaken _ (hlater.toPruned.of_eq rfl rfl rfl rfl) ⟨rfl, hidle⟩

/-- Giving the gate back. -/
theorem maintains_endMaintenance_pruned (h : Pruned crypto files store app) (hheld : app.Held) :
    Maintains UiRely (fun _ ↦ True) (fun _ ↦ Unchanged crypto files store) (fun _ ↦ True)
      endMaintenance app := by
  refine maintains_of_stable (fun _ _ ↦ held_rely) trivial ⟨h, hheld⟩ ?_
  rintro later ⟨hlater, hlaterHeld⟩
  exact ⟨hlater.of_eq rfl rfl rfl rfl, fun hne ↦ absurd hlaterHeld.2 hne⟩

/-- Work under the gate that spares the credentials. -/
theorem steady_gated {refused : Value} {work : Process App Value}
    (hwork : ∀ app, Pruned crypto files store app → app.Held → Maintains UiRely (fun _ ↦ True)
      (fun _ app' ↦ Pruned crypto files store app' ∧ app'.Held) (fun _ ↦ True) work app) :
    Steady crypto files store (do
      if !(← beginMaintenance) then
        return refused
      let value ← work
      endMaintenance
      return value) := by
  intro app happ
  rw [maintains_bind]
  refine maintains_beginMaintenance_unchanged happ (fun app happ ↦ happ) fun app happ hheld ↦ ?_
  simp only [Bool.not_true, Bool.false_eq_true, if_false, maintains_bind]
  refine (hwork app happ hheld).weaken ?_
  rintro value app' ⟨happ', hheld'⟩
  exact maintains_endMaintenance_pruned happ' hheld'

/-- The PIN check of a command. -/
theorem steady_requirePinAuthWithState {request : Pin.AuthRequest} :
    Steady crypto files store (requirePinAuthWithState crypto request) := by
  refine steady_gated fun app happ hheld ↦ ?_
  unfold checkPinAuth
  rw [maintains_bind]
  refine maintains_of_stable (fun _ _ ↦ held_rely) trivial ⟨happ, hheld⟩ fun first hfirst ↦ ?_
  rw [ensures_bind, ensures_get, ensures_pure, maintains_bind]
  refine maintains_of_stable (fun _ _ ↦ held_rely) trivial hfirst fun second hsecond ↦ ?_
  rw [ensures_onDevice]
  refine (ensures_pinRequireAuth_clean second.store hsecond.1.clean).mono ?_ fun _ hcut ↦ hcut.elim
  rintro ⟨result, pinState⟩ device hspared
  have hthird : Pruned crypto files store { second with device } :=
    hsecond.1.of_spared hspared rfl fun _ hdeleted ↦ hdeleted
  rw [maintains_bind]
  refine maintains_of_stable (fun _ _ ↦ held_rely) trivial ⟨hthird, hsecond.2⟩ fun third hthird ↦ ?_
  rw [ensures_modify]
  exact ⟨hthird.1.of_eq rfl rfl rfl rfl, hthird.2⟩

/-- Loading the record at a position, or at none. -/
theorem ensures_loadRecord_spared (hlaws : SealLaws crypto) {world : Pin.Device} {index : ℕ}
    (hclean : Clean world) (h : Agrees crypto world.files store) :
    Ensures (loadRecord crypto (entryAt store index))
      (fun _ world' ↦ Spared crypto store world world') (fun _ ↦ False) world := by
  cases hentry : store[index]? with
  | none =>
    have hdefault : (entryAt store index).inUse = false := by
      rw [entryAt, List.getD_eq_getElem?_getD, hentry]
      rfl
    simp only [loadRecord, hdefault, Bool.not_false, if_true, ensures_pure]
    exact Spared.of_idle (Idle.refl world) hclean
  | some entry =>
    have hmem := List.mem_of_getElem? hentry
    obtain ⟨record, hloads⟩ := h.loads entry hmem
    rw [entryAt_of_getElem? hentry]
    exact (ensures_loadRecord_clean hlaws hclean hmem hloads).mono
      (fun _ _ hloaded ↦ ⟨hloaded.2.1, hloaded.2.2⟩) fun _ hcut ↦ hcut

/-- The exclude check. -/
theorem ensures_excludeListHasVisibleMatch_spared (hlaws : SealLaws crypto) {world : Pin.Device}
    {rpId : Bytes} {excludeList : List Bytes} {uvVerified : Bool} (hclean : Clean world)
    (h : Agrees crypto world.files store) :
    Ensures (excludeListHasVisibleMatch crypto store rpId excludeList uvVerified)
      (fun _ world' ↦ Spared crypto store world world') (fun _ ↦ False) world := by
  have hvisit : ∀ (indices : List ℕ) (middle : Pin.Device), Spared crypto store world middle →
      Ensures (excludeListVisit crypto rpId uvVerified (indices.map (entryAt store)))
        (fun _ world' ↦ Spared crypto store world world') (fun _ ↦ False) middle := by
    intro indices
    induction indices with
    | nil => exact fun middle hmiddle ↦ hmiddle
    | cons index rest ih =>
      intro middle hmiddle
      rw [List.map_cons, excludeListVisit, ensures_ite]
      refine ⟨fun _ ↦ ih middle hmiddle, fun _ ↦ ?_⟩
      rw [ensures_bind]
      refine (ensures_loadRecord_spared hlaws hmiddle.clean (h.of_same hmiddle.same)).mono ?_
        fun _ hcut ↦ hcut
      intro loaded final hspared
      have hfinal : Spared crypto store world final :=
        ⟨hmiddle.same.trans hspared.same, hspared.clean⟩
      cases loaded with
      | none => exact hfinal
      | some record =>
        rw [ensures_ite]
        exact ⟨fun _ ↦ hfinal, fun _ ↦ ih final hfinal⟩
  unfold excludeListHasVisibleMatch
  rw [ensures_ite]
  have hnothing : Spared crypto store world world := Spared.of_idle (Idle.refl world) hclean
  exact ⟨fun _ ↦ hnothing, fun _ ↦ hvisit _ world hnothing⟩

theorem steady_excludeCheck (hlaws : SealLaws crypto) {request : MakeCredentialRequest}
    {uvVerified : Bool} : Steady crypto files store (excludeCheck crypto request uvVerified) := by
  refine steady_gated fun app happ hheld ↦ ?_
  refine maintains_of_stable (fun _ _ ↦ held_rely) trivial ⟨happ, hheld⟩ ?_
  rintro later ⟨hlater, hlaterHeld⟩
  rw [ensures_bind, ensures_get, ensures_map, ensures_onDevice]
  refine (ensures_excludeListHasVisibleMatch_spared hlaws hlater.clean hlater.agrees).mono ?_
    fun _ hcut ↦ hcut.elim
  intro excluded device hspared
  exact ⟨hlater.of_spared hspared rfl fun _ hdeleted ↦ hdeleted, hlaterHeld⟩

end Steady

end ZeroFido.Ctap
