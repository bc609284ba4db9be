import ZeroFido.Ctap.GetAssertion
import ZeroFido.Ctap.MakeCredential

/-!
# Commands and the user interface side by side

What the user interface can do between two sections of a command (`UiEffect`), and which properties
of the shared state survive it. A property is `Stable` when no step of the user interface breaks it
and it is about the shared part of the state only, and `Indifferent` when moreover it does not
depend on the gate and the prompt.

A process is `Local` when it keeps every stable property, and `Harmless` when it keeps every
indifferent one; a harmless process may show a prompt, and may take the gate if it gives it back.
The polls, the loads and the PIN check of the commands are of these kinds, so an invariant has to
be followed only through the sections that publish something.
-/

set_option autoImplicit false
set_option relaxedAutoImplicit false

namespace ZeroFido.Ctap

open Foundations Storage Store Process

section UserInterface

variable {app : App}

/-- What one step of the user interface does. -/
inductive UiEffect (app : App) : App → Prop where
  | nothing : UiEffect app app
  | waited (milliseconds : ℕ) : UiEffect app
      { app with device := { app.device with clock := app.device.clock + milliseconds } }
  | finished (state : ApprovalState) (hpending : app.approval.state = .pending) :
      UiEffect app { app with approval := { app.approval with state } }
  | selected (recordIndex : ℕ) (entry : CredentialIndexEntry)
      (hpending : app.approval.state = .pending)
      (hlisted : recordIndex ∈ app.approval.credentialIndices)
      (hentry : app.store[recordIndex]? = some entry) :
      UiEffect app
        { app with
          approval := { app.approval with
            state := .approved
            selectedRecordIndex := some recordIndex }
          selectedCredential := some entry.credentialId }
  | begun (credentialId : Bytes) (hidle : app.ui = .idle) (hfree : app.maintenanceBusy = false) :
      UiEffect app { app with maintenanceBusy := true, ui := .deleting credentialId }
  | cut (credentialId : Bytes) (hui : app.ui = .deleting credentialId) (device : Pin.Device) :
      UiEffect app { app with device, stopped := true }
  | kept (credentialId : Bytes) (hui : app.ui = .deleting credentialId) (device : Pin.Device)
      (result : StoreDeleteResult) (hresult : result ≠ .ok) :
      UiEffect app { app with device, ui := .deleted credentialId result }
  | compacted (credentialId : Bytes) (hui : app.ui = .deleting credentialId) (device : Pin.Device)
      (index : ℕ) (hindex : findIndexById app.store credentialId = some index) :
      UiEffect app
        { app with
          device
          store := app.store.eraseIdx index
          ui := .deleted credentialId .ok
          deletedPositions := app.deletedPositions ++ [index] }
  | released (credentialId : Bytes) (result : StoreDeleteResult)
      (hui : app.ui = .deleted credentialId result) (hresult : result ≠ .ok) :
      UiEffect app { app with maintenanceBusy := false, ui := .idle }
  | ended (credentialId : Bytes) (hui : app.ui = .deleted credentialId .ok) :
      UiEffect app
        { app with
          maintenanceBusy := false
          ui := .idle
          assertionQueue := {}
          record := app.record ++ [.deleted credentialId] }

/-- What `zf_store_delete_record` comes to. -/
theorem deleteRecord_cases {Event : Type} {store store' : CredentialStore} {credentialId : Bytes}
    {world world' : World Event} {result : StoreDeleteResult}
    (h : (deleteRecord store credentialId).run world = .ok (result, store') world') :
    (result ≠ .ok ∧ store' = store) ∨
      result = .ok ∧ ∃ index, findIndexById store credentialId = some index ∧
        store' = store.eraseIdx index := by
  unfold deleteRecord at h
  cases hfind : findIndexById store credentialId with
  | none =>
    rw [hfind] at h
    obtain ⟨⟨rfl, rfl⟩, -⟩ := EStateM.Result.ok.inj h
    exact Or.inl ⟨by simp, rfl⟩
  | some index =>
    rw [hfind] at h
    obtain ⟨removed, middle, -, h⟩ := run_bind_eq_ok.mp h
    cases removed with
    | false =>
      obtain ⟨⟨rfl, rfl⟩, -⟩ := EStateM.Result.ok.inj h
      exact Or.inl ⟨by simp, rfl⟩
    | true =>
      obtain ⟨⟨rfl, rfl⟩, -⟩ := EStateM.Result.ok.inj h
      exact Or.inr ⟨rfl, index, rfl, rfl⟩

theorem uiEffect_finishAssertionSelectionLocked (menuIndex : ℕ) :
    UiEffect app (finishAssertionSelectionLocked app menuIndex) := by
  unfold finishAssertionSelectionLocked
  split_ifs with hprompt
  · cases hlisted : app.approval.credentialIndices[menuIndex]? with
    | none => exact UiEffect.nothing
    | some recordIndex =>
      cases hentry : app.store[recordIndex]? with
      | none => simp only [hentry]; exact UiEffect.nothing
      | some entry =>
        simp only [hentry]
        split_ifs
        · exact UiEffect.selected recordIndex entry hprompt.1 (List.mem_of_getElem? hlisted) hentry
        · exact UiEffect.nothing
  · exact UiEffect.nothing

theorem uiEffect_beginDelete (selectedIndex : ℕ) : UiEffect app (beginDelete app selectedIndex) := by
  unfold beginDelete
  split
  · rename_i entry hidle hentry
    split_ifs with hrefused
    · exact UiEffect.nothing
    · rw [not_or, Bool.not_eq_true] at hrefused
      exact UiEffect.begun entry.credentialId hidle hrefused.2
  · exact UiEffect.nothing

theorem uiEffect_deleteFiles : UiEffect app (deleteFiles app) := by
  unfold deleteFiles
  split
  · rename_i credentialId hui
    split
    · rename_i device hrun
      exact UiEffect.cut credentialId hui device
    · rename_i result store device hrun
      obtain ⟨hresult, rfl⟩ | ⟨rfl, index, hindex, rfl⟩ := deleteRecord_cases hrun
      · rw [if_neg hresult, List.append_nil]
        exact UiEffect.kept credentialId hui device result hresult
      · rw [if_pos rfl, hindex]
        exact UiEffect.compacted credentialId hui device index hindex
  · exact UiEffect.nothing

theorem uiEffect_endDelete : UiEffect app (endDelete app) := by
  unfold endDelete
  split
  · rename_i credentialId result hui
    by_cases hresult : result = .ok
    · subst hresult
      exact UiEffect.ended credentialId hui
    · simp only [if_neg hresult]
      exact UiEffect.released credentialId result hui hresult
  · exact UiEffect.nothing

/-- Every step of the user interface is one of these. -/
theorem uiEffect_uiStep (app : App) (event : UiEvent) : UiEffect app (uiStep app event) := by
  unfold uiStep
  split_ifs with hstopped
  · exact UiEffect.nothing
  · cases event with
    | finishInteraction state =>
      simp only [finishInteractionLocked]
      split_ifs with hpending
      · exact UiEffect.finished state hpending
      · exact UiEffect.nothing
    | selectAccount menuIndex => exact uiEffect_finishAssertionSelectionLocked menuIndex
    | beginDelete selectedIndex => exact uiEffect_beginDelete selectedIndex
    | deleteFiles => exact uiEffect_deleteFiles
    | endDelete => exact uiEffect_endDelete
    | timePasses milliseconds => exact UiEffect.waited milliseconds

end UserInterface

section Properties

/-- The state is the same but for the device, the PIN state, the outcomes to come and what the
settings say. -/
structure SameShared (app app' : App) : Prop where
  store : app'.store = app.store
  maintenanceBusy : app'.maintenanceBusy = app.maintenanceBusy
  approval : app'.approval = app.approval
  assertionQueue : app'.assertionQueue = app.assertionQueue
  ui : app'.ui = app.ui
  record : app'.record = app.record
  deletedPositions : app'.deletedPositions = app.deletedPositions
  selectedCredential : app'.selectedCredential = app.selectedCredential
  expiry : app'.expiry = app.expiry

theorem SameShared.refl (app : App) : SameShared app app := ⟨rfl, rfl, rfl, rfl, rfl, rfl, rfl, rfl, rfl⟩

/-- A property of the shared state that the user interface does not break. -/
structure Stable (property : App → Prop) : Prop where
  ui : ∀ app app', UiEffect app app' → property app → property app'
  shared : ∀ app app', SameShared app app' → property app → property app'

/-- A stable property that does not depend on the gate. -/
structure Ungated (property : App → Prop) : Prop extends Stable property where
  gate : ∀ app maintenanceBusy, property app → property { app with maintenanceBusy }

/-- A stable property that does not depend on the gate and the prompt. -/
structure Indifferent (property : App → Prop) : Prop extends Ungated property where
  prompt : ∀ app approval selectedCredential, property app →
    property { app with approval, selectedCredential }

/-- The user interface holds the gate while it deletes. -/
def App.GateKept (app : App) : Prop := app.ui ≠ .idle → app.maintenanceBusy = true

/-- The gate is taken, and not by the user interface. -/
def App.Held (app : App) : Prop := app.maintenanceBusy = true ∧ app.ui = .idle

variable {property property' : App → Prop}

theorem Stable.and (h : Stable property) (h' : Stable property') :
    Stable fun app ↦ property app ∧ property' app :=
  ⟨fun app app' heffect hboth ↦ ⟨h.ui app app' heffect hboth.1, h'.ui app app' heffect hboth.2⟩,
    fun app app' hsame hboth ↦ ⟨h.shared app app' hsame hboth.1, h'.shared app app' hsame hboth.2⟩⟩

theorem stable_gateKept : Stable App.GateKept := by
  constructor
  · intro app app' heffect hkept
    cases heffect with
    | nothing => exact hkept
    | waited milliseconds => exact hkept
    | finished state hpending => exact hkept
    | selected recordIndex entry hpending hlisted hentry => exact hkept
    | begun credentialId hidle hfree => exact fun _ ↦ rfl
    | cut credentialId hui device => exact hkept
    | kept credentialId hui device result hresult =>
      exact fun _ ↦ hkept (by rw [hui]; simp)
    | compacted credentialId hui device index hindex =>
      exact fun _ ↦ hkept (by rw [hui]; simp)
    | released credentialId result hui hresult => exact fun hne ↦ absurd rfl hne
    | ended credentialId hui => exact fun hne ↦ absurd rfl hne
  · intro app app' hsame hkept
    unfold App.GateKept
    rw [hsame.ui, hsame.maintenanceBusy]
    exact hkept

/-- While somebody else holds the gate the user interface does not touch the index. -/
theorem stable_held : Stable App.Held := by
  constructor
  · rintro app app' heffect ⟨hbusy, hidle⟩
    cases heffect with
    | nothing => exact ⟨hbusy, hidle⟩
    | waited milliseconds => exact ⟨hbusy, hidle⟩
    | finished state hpending => exact ⟨hbusy, hidle⟩
    | selected recordIndex entry hpending hlisted hentry => exact ⟨hbusy, hidle⟩
    | begun credentialId _ hfree => exact absurd (hbusy.symm.trans hfree) (by simp)
    | cut credentialId hui device => exact ⟨hbusy, hidle⟩
    | kept credentialId hui device result hresult => exact absurd (hidle.symm.trans hui) (by simp)
    | compacted credentialId hui device index hindex =>
      exact absurd (hidle.symm.trans hui) (by simp)
    | released credentialId result hui hresult => exact absurd (hidle.symm.trans hui) (by simp)
    | ended credentialId hui => exact absurd (hidle.symm.trans hui) (by simp)
  · rintro app app' hsame ⟨hbusy, hidle⟩
    exact ⟨hsame.maintenanceBusy.trans hbusy, hsame.ui.trans hidle⟩

theorem App.Held.gateKept {app : App} (h : app.Held) : app.GateKept := fun _ ↦ h.1

/-- While somebody else holds the gate the user interface lets time pass and answers the prompt. -/
theorem App.Held.ui_eq {app app' : App} (h : app.Held) (heffect : UiEffect app app') :
    app'.store = app.store ∧ app'.assertionQueue = app.assertionQueue ∧
      app'.record = app.record ∧
      ∃ milliseconds, app'.device =
        { app.device with clock := app.device.clock + milliseconds } := by
  obtain ⟨hbusy, hidle⟩ := h
  cases heffect with
  | nothing => exact ⟨rfl, rfl, rfl, 0, rfl⟩
  | waited milliseconds => exact ⟨rfl, rfl, rfl, milliseconds, rfl⟩
  | finished state hpending => exact ⟨rfl, rfl, rfl, 0, rfl⟩
  | selected recordIndex entry hpending hlisted hentry => exact ⟨rfl, rfl, rfl, 0, rfl⟩
  | begun credentialId _ hfree => exact absurd (hbusy.symm.trans hfree) (by simp)
  | cut credentialId hui device => exact absurd (hidle.symm.trans hui) (by simp)
  | kept credentialId hui device result hresult => exact absurd (hidle.symm.trans hui) (by simp)
  | compacted credentialId hui device index hindex =>
    exact absurd (hidle.symm.trans hui) (by simp)
  | released credentialId result hui hresult => exact absurd (hidle.symm.trans hui) (by simp)
  | ended credentialId hui => exact absurd (hidle.symm.trans hui) (by simp)

end Properties

section Judgment

variable {Value Next : Type}

/-- What the user interface may do between two sections. -/
abbrev UiRely : App → App → Prop := Disturbs uiStep

theorem Stable.rely {property : App → Prop} (h : Stable property) {app app' : App}
    (hrely : UiRely app app') (happ : property app) : property app' :=
  hrely.stable (fun app event ↦ h.ui app _ (uiEffect_uiStep app event)) happ

/-- The process keeps every stable property. -/
structure Local (process : Process App Value) : Prop where
  maintains : ∀ {property keep crash : App → Prop} {app : App}, Stable property →
    (∀ app, property app → keep app) → (∀ app, property app → crash app) → property app →
    Maintains UiRely keep (fun _ ↦ property) crash process app

/-- The process keeps every indifferent property. -/
structure Harmless (process : Process App Value) : Prop where
  maintains : ∀ {property keep crash : App → Prop} {app : App}, Indifferent property →
    (∀ app, property app → app.GateKept → keep app) →
    (∀ app, property app → app.GateKept → crash app) → property app → app.GateKept →
    Maintains UiRely keep (fun _ app ↦ property app ∧ app.GateKept) crash process app

theorem local_pure (value : Value) : Local (pure value : Process App Value) :=
  ⟨fun _ _ _ happ ↦ happ⟩

theorem Local.bind {process : Process App Value} {next : Value → Process App Next}
    (h : Local process) (hnext : ∀ value, Local (next value)) : Local (process >>= next) := by
  constructor
  intro property keep crash app hstable hkeep hcrash happ
  rw [maintains_bind]
  exact (h.maintains hstable hkeep hcrash happ).mono
    (fun value app happ ↦ (hnext value).maintains hstable hkeep hcrash happ) fun _ hcut ↦ hcut

/-- A section that leaves the shared state alone. -/
theorem local_atomically {program : Program App Value}
    (h : ∀ app, Ensures program (fun _ app' ↦ SameShared app app') (SameShared app) app) :
    Local (atomically program) := by
  constructor
  intro property keep crash app hstable hkeep hcrash happ
  refine maintains_of_stable (fun _ _ ↦ hstable.rely) (hkeep app happ) happ fun later hlater ↦ ?_
  exact (h later).mono (fun _ final hsame ↦ hstable.shared later final hsame hlater)
    fun final hsame ↦ hcrash final (hstable.shared later final hsame hlater)

/-- A section that reads. -/
theorem local_read (value : App → Value) : Local (atomically (return value (← get))) := by
  refine local_atomically fun app ↦ ?_
  rw [ensures_bind, ensures_get]
  exact SameShared.refl app

/-- A section that works on the device. -/
theorem local_onDevice (program : Program Pin.Device Value) :
    Local (atomically (onDevice program)) := by
  refine local_atomically fun app ↦ ?_
  rw [ensures_onDevice]
  unfold Ensures
  split
  · exact ⟨rfl, rfl, rfl, rfl, rfl, rfl, rfl, rfl, rfl⟩
  · exact ⟨rfl, rfl, rfl, rfl, rfl, rfl, rfl, rfl, rfl⟩

theorem Local.harmless {process : Process App Value} (h : Local process) : Harmless process := by
  constructor
  intro property keep crash app hproperty hkeep hcrash happ hgate
  exact h.maintains (hproperty.toStable.and stable_gateKept) (fun app happ ↦ hkeep app happ.1 happ.2)
    (fun app happ ↦ hcrash app happ.1 happ.2) ⟨happ, hgate⟩

theorem harmless_pure (value : Value) : Harmless (pure value : Process App Value) :=
  (local_pure value).harmless

theorem Harmless.bind {process : Process App Value} {next : Value → Process App Next}
    (h : Harmless process) (hnext : ∀ value, Harmless (next value)) :
    Harmless (process >>= next) := by
  constructor
  intro property keep crash app hproperty hkeep hcrash happ hgate
  rw [maintains_bind]
  exact (h.maintains hproperty hkeep hcrash happ hgate).mono
    (fun value app happ ↦ (hnext value).maintains hproperty hkeep hcrash happ.1 happ.2)
    fun _ hcut ↦ hcut

/-- A section that changes at most the prompt. -/
theorem harmless_atomically {program : Program App Value}
    (h : ∀ app, Ensures program (fun _ app' ↦ ∃ approval selectedCredential,
      SameShared { app with approval, selectedCredential } app') (fun _ ↦ False) app) :
    Harmless (atomically program) := by
  constructor
  intro property keep crash app hproperty hkeep hcrash happ hgate
  have hstable := hproperty.toStable.and stable_gateKept
  refine maintains_of_stable (fun _ _ ↦ hstable.rely) (hkeep app happ hgate) ⟨happ, hgate⟩
    fun later hlater ↦ ?_
  refine (h later).mono ?_ fun _ hfalse ↦ hfalse.elim
  rintro value final ⟨approval, selectedCredential, hsame⟩
  exact hstable.shared _ _ hsame
    ⟨hproperty.prompt later approval selectedCredential hlater.1, hlater.2⟩

/-- Taking the gate. -/
theorem maintains_beginMaintenance {property keep crash : App → Prop}
    {post : Bool → App → Prop} {app : App} (hproperty : Ungated property)
    (hkeep : ∀ app, property app → app.GateKept → keep app) (happ : property app)
    (hgate : app.GateKept)
    (hrefused : ∀ app, property app → app.GateKept → post false app)
    (htaken : ∀ app, property app → app.Held → post true app) :
    Maintains UiRely keep post crash beginMaintenance app := by
  have hstable := hproperty.toStable.and stable_gateKept
  refine maintains_of_stable (fun _ _ ↦ hstable.rely) (hkeep app happ hgate) ⟨happ, hgate⟩ ?_
  rintro later ⟨hlater, hlaterGate⟩
  simp only [ensures_bind, ensures_get, ensures_ite, ensures_pure, ensures_modify]
  refine ⟨fun _ ↦ hrefused later hlater hlaterGate, fun hfree ↦ ?_⟩
  have hidle : later.ui = .idle := by
    by_contra hne
    exact hfree (hlaterGate hne)
  exact htaken _ (hproperty.gate later true hlater) ⟨rfl, hidle⟩

/-- Giving the gate back. -/
theorem maintains_endMaintenance {property keep crash : App → Prop} {app : App}
    (hproperty : Ungated property) (hkeep : ∀ app, property app → app.GateKept → keep app)
    (happ : property app) (hheld : app.Held) :
    Maintains UiRely keep (fun _ app ↦ property app ∧ app.GateKept) crash endMaintenance app := by
  have hstable := hproperty.toStable.and stable_held
  refine maintains_of_stable (fun _ _ ↦ hstable.rely) (hkeep app happ hheld.gateKept)
    ⟨happ, hheld⟩ ?_
  rintro later ⟨hlater, hlaterHeld⟩
  exact ⟨hproperty.gate later false hlater, fun hne ↦ absurd hlaterHeld.2 hne⟩

/-- A process that takes the gate, works and gives it back. -/
theorem maintains_gated {property keep crash : App → Prop} {app : App} {refused : Value}
    {work : Process App Value} {post : Value → App → Prop} (hproperty : Ungated property)
    (hkeep : ∀ app, property app → app.GateKept → keep app) (happ : property app)
    (hgate : app.GateKept)
    (hrefused : ∀ app, property app → app.GateKept → post refused app)
    (hwork : ∀ app, property app → app.Held →
      Maintains UiRely keep (fun value app ↦
        Maintains UiRely keep (fun _ ↦ post value) crash endMaintenance app) crash work app) :
    Maintains UiRely keep post crash (do
      if !(← beginMaintenance) then
        return refused
      let value ← work
      endMaintenance
      return value) app := by
  rw [maintains_bind]
  refine maintains_beginMaintenance hproperty hkeep happ hgate (fun app happ hgate ↦ ?_)
    fun app happ hheld ↦ ?_
  · exact hrefused app happ hgate
  · simp only [Bool.not_true, Bool.false_eq_true, if_false, maintains_bind]
    exact hwork app happ hheld

/-- Local work under the gate. -/
theorem harmless_gated {refused : Value} {work : Process App Value} (hwork : Local work) :
    Harmless (do
      if !(← beginMaintenance) then
        return refused
      let value ← work
      endMaintenance
      return value) := by
  constructor
  intro property keep crash app hproperty hkeep hcrash happ hgate
  refine maintains_gated hproperty.toUngated hkeep happ hgate (fun app happ hgate ↦ ⟨happ, hgate⟩)
    fun app happ hheld ↦ ?_
  refine (hwork.maintains (hproperty.toStable.and stable_held)
    (fun app happ ↦ hkeep app happ.1 happ.2.gateKept)
    (fun app happ ↦ hcrash app happ.1 happ.2.gateKept) ⟨happ, hheld⟩).mono ?_ fun _ hcut ↦ hcut
  rintro value app ⟨happ, hheld⟩
  exact maintains_endMaintenance hproperty.toUngated hkeep happ hheld

end Judgment

section Shared

variable {Value : Type} {crypto : Crypto}

/-- A section that reads the shared state and then works on the device. -/
theorem local_withStore (program : CredentialStore → Program Pin.Device Value) :
    Local (atomically (do
      let store := (← get).store
      onDevice (program store))) := by
  refine local_atomically fun app ↦ ?_
  rw [ensures_bind, ensures_get, ensures_onDevice]
  unfold Ensures
  split
  · exact ⟨rfl, rfl, rfl, rfl, rfl, rfl, rfl, rfl, rfl⟩
  · exact ⟨rfl, rfl, rfl, rfl, rfl, rfl, rfl, rfl, rfl⟩

theorem local_nextStatus : Local (atomically nextStatus) :=
  local_atomically fun _ ↦ ⟨rfl, rfl, rfl, rfl, rfl, rfl, rfl, rfl, rfl⟩

theorem local_pollCborControl : Local pollCborControl := local_nextStatus

theorem local_nextWait : Local (atomically nextWait) :=
  local_atomically fun _ ↦ ⟨rfl, rfl, rfl, rfl, rfl, rfl, rfl, rfl, rfl⟩

theorem local_waitForInteractionResult : Local waitForInteractionResult := by
  refine local_nextWait.bind fun ended ↦ ?_
  cases ended with
  | false => exact local_pure none
  | true => exact (local_read _).bind fun state ↦ local_pure _

theorem local_checkPinAuth (request : Pin.AuthRequest) : Local (checkPinAuth crypto request) := by
  refine (local_read _).bind fun pinState ↦ (local_onDevice _).bind fun checked ↦ ?_
  refine Local.bind (local_atomically fun _ ↦ ?_) fun _ ↦ local_pure _
  exact ⟨rfl, rfl, rfl, rfl, rfl, rfl, rfl, rfl, rfl⟩

theorem harmless_requirePinAuthWithState (request : Pin.AuthRequest) :
    Harmless (requirePinAuthWithState crypto request) :=
  harmless_gated (local_checkPinAuth request)

theorem harmless_prepareApproval : Harmless (atomically prepareApproval) := by
  refine harmless_atomically fun app ↦ ?_
  have hsame : ∃ approval selectedCredential,
      SameShared { app with approval, selectedCredential } app :=
    ⟨app.approval, app.selectedCredential, SameShared.refl app⟩
  simp only [prepareApproval, ensures_bind, ensures_get, ensures_ite, ensures_pure, ensures_set]
  exact ⟨fun _ ↦ hsame, fun _ ↦ ⟨fun _ ↦ hsame, fun _ ↦ ⟨_, app.selectedCredential,
    SameShared.refl _⟩⟩⟩

theorem harmless_uiRequestApproval : Harmless uiRequestApproval := by
  refine harmless_prepareApproval.bind fun outcome ↦ ?_
  cases outcome with
  | refused => exact harmless_pure none
  | accepted => exact harmless_pure (some true)
  | shown => exact local_waitForInteractionResult.harmless

theorem harmless_requestApproval : Harmless requestApproval := by
  refine harmless_uiRequestApproval.bind fun result ↦ ?_
  match result with
  | none => exact harmless_pure _
  | some true => exact harmless_pure _
  | some false => exact ((local_read _).bind fun state ↦ local_pure _).harmless

theorem harmless_handleEmptyPinAuthProbe : Harmless handleEmptyPinAuthProbe := by
  refine harmless_requestApproval.bind fun status ↦ ?_
  split_ifs
  · exact harmless_pure status
  · exact ((local_read _).bind fun pinIsSet ↦ local_pure _).harmless

theorem local_prepareAssertionResponse (request : AssertionRequestData) (record : CredentialRecord)
    (userPresent uvVerified includeUserDetails includeCount : Bool) (matchCount : ℕ)
    (userSelected includeUserSelected : Bool) :
    Local (atomically (prepareAssertionResponse request record userPresent uvVerified
      includeUserDetails includeCount matchCount userSelected includeUserSelected)) := by
  refine local_atomically fun app ↦ ?_
  have hsame : ∀ statuses, SameShared app { app with statuses } :=
    fun _ ↦ ⟨rfl, rfl, rfl, rfl, rfl, rfl, rfl, rfl, rfl⟩
  simp only [prepareAssertionResponse, ensures_ite, ensures_pure, ensures_bind, nextStatus,
    ensures_modifyGet]
  exact ⟨fun _ ↦ SameShared.refl app, fun _ ↦ ⟨fun _ ↦ hsame _, fun _ ↦ ⟨fun _ ↦ hsame _,
    fun _ ↦ hsame _⟩⟩⟩

/-- A built response is the one for the record. -/
theorem maintains_prepareAssertionResponse {request : AssertionRequestData}
    {record : CredentialRecord} {userPresent uvVerified includeUserDetails includeCount : Bool}
    {matchCount : ℕ} {userSelected includeUserSelected : Bool} {app : App} :
    Maintains UiRely (fun _ ↦ True) (fun reply _ ↦ ∀ response, reply = .ok response →
      response = assertionResponse request record userPresent uvVerified (record.signCount + 1)
        includeUserDetails includeCount matchCount includeUserSelected userSelected) (fun _ ↦ True)
      (atomically (prepareAssertionResponse request record userPresent uvVerified
        includeUserDetails includeCount matchCount userSelected includeUserSelected)) app := by
  rw [maintains_atomically]
  refine ⟨trivial, fun later _ ↦ ?_⟩
  simp only [prepareAssertionResponse, ensures_ite, ensures_pure, ensures_bind, nextStatus,
    ensures_modifyGet]
  refine ⟨by simp, fun _ ↦ ⟨by simp, fun _ ↦ ⟨by simp, fun _ response hreply ↦ ?_⟩⟩⟩
  exact (Except.ok.inj hreply).symm

theorem local_loadAssertionRecord (recordIndex : ℕ) (rpId : Bytes) :
    Local (loadAssertionRecord crypto recordIndex rpId) := by
  refine (local_read _).bind fun entry ↦ ?_
  cases entry with
  | none => exact local_pure none
  | some entry =>
    refine (local_onDevice _).bind fun record ↦ ?_
    cases record with
    | none => exact local_pure none
    | some record =>
      simp only
      split_ifs
      · exact local_pure _
      · exact local_pure _

theorem harmless_excludeCheck (request : MakeCredentialRequest) (uvVerified : Bool) :
    Harmless (excludeCheck crypto request uvVerified) := by
  refine harmless_gated (local_atomically fun app ↦ ?_)
  rw [ensures_bind, ensures_get, ensures_map, ensures_onDevice]
  unfold Ensures
  split
  · exact ⟨rfl, rfl, rfl, rfl, rfl, rfl, rfl, rfl, rfl⟩
  · exact ⟨rfl, rfl, rfl, rfl, rfl, rfl, rfl, rfl, rfl⟩

end Shared

end ZeroFido.Ctap
