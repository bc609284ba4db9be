import ZeroFido.Foundations.Invariant
import ZeroFido.Ctap.AccountReplacement
import ZeroFido.Ctap.Dispatch
import ZeroFido.Pin.Footprint
import ZeroFido.Store.SignCounts

/-!
# Sign counts under the commands

What the sections of a command do to the sign counts of one credential. `AtCount` says that the
files and the index are in order for counts above `least`, and `Orderly` that a process keeps this
wherever it is interrupted. The PIN check, the loads, the prompts and what the user deletes only let
the credential fade; the rules for such processes are here.
-/

set_option autoImplicit false
set_option relaxedAutoImplicit false

namespace ZeroFido.Ctap

open Foundations Storage Store Process

section Order

variable {crypto : Crypto} {credentialId : Bytes} {least : ℕ} {files files' : Path → Option Bytes}
  {store store' : CredentialStore}

/-- The credential's counts have come to `least`, on the card and in the index. -/
structure AtCount (crypto : Crypto) (credentialId : Bytes) (least : ℕ)
    (files : Path → Option Bytes) (store : CredentialStore) : Prop where
  counts : CountsFrom crypto files credentialId least
  indexed : ∀ entry ∈ store, Indexes crypto credentialId files entry

/-- The credential has no files and is not in the index. -/
structure Unissued (credentialId : Bytes) (files : Path → Option Bytes) (store : CredentialStore) :
    Prop where
  record : heldRecord files credentialId = none
  floor : heldFloor files credentialId = none
  index : ∀ entry ∈ store, entry.credentialId ≠ credentialId

theorem AtCount.lengths (h : AtCount crypto credentialId least files store) :
    ∀ entry ∈ store, entry.credentialId.length = credentialIdLen :=
  fun entry hentry ↦ (h.indexed entry hentry).1

/-- The counts have then come to any lower one. -/
theorem AtCount.lower {low : ℕ} (h : AtCount crypto credentialId least files store)
    (hle : low ≤ least) : AtCount crypto credentialId low files store := by
  refine ⟨fun data hdata ↦ ?_, h.indexed⟩
  obtain ⟨stored, hrecorded, hcounting⟩ := h.counts data hdata
  exact ⟨stored, hrecorded, hcounting.named, hcounting.windowEnd, hle.trans hcounting.least,
    hcounting.floor⟩

theorem AtCount.fades (h : AtCount crypto credentialId least files store)
    (hfades : Fades credentialId files files') (hsub : store'.Sublist store) :
    AtCount crypto credentialId least files' store' :=
  ⟨h.counts.fades hfades, fun entry hentry ↦ (h.indexed entry (hsub.subset hentry)).fades hfades⟩

theorem Unissued.fades (h : Unissued credentialId files store)
    (hfades : Fades credentialId files files') (hsub : store'.Sublist store) :
    Unissued credentialId files' store' := by
  refine ⟨?_, ?_, fun entry hentry ↦ h.index entry (hsub.subset hentry)⟩
  · rcases hfades.record with hsame | hgone
    · exact hsame.trans h.record
    · exact hgone
  · rcases hfades.floor with hsame | hgone
    · exact hsame.trans h.floor
    · exact hgone

/-- A credential without files is at no count yet. -/
theorem Unissued.atCount (h : Unissued credentialId files store)
    (hlengths : ∀ entry ∈ store, entry.credentialId.length = credentialIdLen) :
    AtCount crypto credentialId least files store := by
  refine ⟨fun data hdata ↦ ?_, fun entry hentry ↦ ⟨hlengths entry hentry, fun hid ↦ ?_⟩⟩
  · exact absurd (hdata.symm.trans h.record) (by simp)
  · exact absurd hid (h.index entry hentry)

end Order

section Interface

variable {crypto : Crypto} {credentialId : Bytes} {least : ℕ} {app app' : App}

/-- The credential's counts are in order in the shared state. -/
def App.AtCount (crypto : Crypto) (credentialId : Bytes) (least : ℕ) (app : App) : Prop :=
  Ctap.AtCount crypto credentialId least app.device.files app.store

/-- Two states that agree on the index, the files and who has the gate. -/
structure Alike (app app' : App) : Prop where
  store : app'.store = app.store
  files : app'.device.files = app.device.files
  maintenanceBusy : app'.maintenanceBusy = app.maintenanceBusy
  ui : app'.ui = app.ui

theorem App.AtCount.of_eq (h : app.AtCount crypto credentialId least)
    (hfiles : app'.device.files = app.device.files) (hstore : app'.store = app.store) :
    app'.AtCount crypto credentialId least := by
  unfold App.AtCount at h ⊢
  rwa [hfiles, hstore]

/-- What the user interface deletes fades. -/
theorem fades_deleteFiles (hlength : credentialId.length = credentialIdLen)
    (hlengths : ∀ entry ∈ app.store, entry.credentialId.length = credentialIdLen) :
    Fades credentialId app.device.files (deleteFiles app).device.files ∧
      (deleteFiles app).store.Sublist app.store := by
  unfold deleteFiles
  split
  · rename_i other hui
    have hrun := @ensures_deleteRecord_fades Pin.PinEvent credentialId app.store hlength app.device
      other hlengths
    unfold Ensures at hrun
    split
    · rename_i reason device hresult
      rw [hresult] at hrun
      exact ⟨hrun, List.Sublist.refl _⟩
    · rename_i result remaining device hresult
      rw [hresult] at hrun
      exact hrun
  · exact ⟨Fades.refl, List.Sublist.refl _⟩

/-- No step of the user interface does more to a credential than let it fade. -/
theorem fades_uiStep (hlength : credentialId.length = credentialIdLen)
    (hlengths : ∀ entry ∈ app.store, entry.credentialId.length = credentialIdLen)
    (event : UiEvent) : Fades credentialId app.device.files (uiStep app event).device.files ∧
      (uiStep app event).store.Sublist app.store := by
  have hsame : Fades credentialId app.device.files app.device.files ∧
      app.store.Sublist app.store := ⟨Fades.refl, List.Sublist.refl _⟩
  unfold uiStep
  split_ifs
  · exact hsame
  · cases event with
    | finishInteraction state =>
      simp only [finishInteractionLocked]
      split_ifs
      · exact hsame
      · exact hsame
    | selectAccount menuIndex =>
      simp only [finishAssertionSelectionLocked]
      split_ifs
      · split
        · exact hsame
        · split
          · exact hsame
          · split_ifs
            · exact hsame
            · exact hsame
      · exact hsame
    | beginDelete selectedIndex =>
      simp only [beginDelete]
      split
      · split_ifs
        · exact hsame
        · exact hsame
      · exact hsame
    | deleteFiles => exact fades_deleteFiles hlength hlengths
    | endDelete =>
      simp only [endDelete]
      split
      · split_ifs
        · exact hsame
        · exact hsame
      · exact hsame
    | timePasses milliseconds => exact hsame

theorem App.AtCount.uiStep (h : app.AtCount crypto credentialId least)
    (hlength : credentialId.length = credentialIdLen) (event : UiEvent) :
    (Ctap.uiStep app event).AtCount crypto credentialId least := by
  obtain ⟨hfades, hsub⟩ := fades_uiStep hlength (Ctap.AtCount.lengths h) event
  exact Ctap.AtCount.fades h hfades hsub

end Interface

section Judgment

variable {Value Next : Type} {crypto : Crypto} {credentialId : Bytes} {least : ℕ}
  {gate : App → Prop} {app app' : App}

/-- Where the random generator is about to give the credential's id, there are no files of that
credential and no counts of it. -/
def Ready (credentialId : Bytes) (least : ℕ) (app : App) : Prop :=
  (List.range credentialIdLen).map app.device.entropy = credentialId →
    Unissued credentialId app.device.files app.store ∧ least = 0

/-- What comes between two sections: the user interface acts, and the generator does not repeat the
credential's id. -/
def Between (credentialId : Bytes) (least : ℕ) (app later : App) : Prop :=
  UiRely app later ∧ Ready credentialId least later

/-- The counts are in order wherever a process stops. -/
def Kept (crypto : Crypto) (credentialId : Bytes) (least : ℕ) (app : App) : Prop :=
  app.AtCount crypto credentialId least ∧ app.GateKept

/-- A property of the shared state that says who has the gate, and that lasts while credentials do
no more than fade. -/
structure GateProperty (credentialId : Bytes) (gate : App → Prop) : Prop where
  ui : ∀ app event, (∀ entry ∈ app.store, entry.credentialId.length = credentialIdLen) →
    gate app → gate (uiStep app event)
  fades : ∀ app app', app'.ui = app.ui → app'.maintenanceBusy = app.maintenanceBusy →
    Fades credentialId app.device.files app'.device.files → app'.store.Sublist app.store →
      gate app → gate app'
  kept : ∀ app, gate app → app.GateKept

theorem App.Held.of_eq (h : app.Held) (hui : app'.ui = app.ui)
    (hbusy : app'.maintenanceBusy = app.maintenanceBusy) : app'.Held :=
  ⟨hbusy.trans h.1, hui.trans h.2⟩

theorem gateProperty_gateKept : GateProperty credentialId App.GateKept := by
  refine ⟨fun app event _ ↦ stable_gateKept.ui app _ (uiEffect_uiStep app event), ?_, fun _ h ↦ h⟩
  intro app app' hui hbusy _ _ hkept
  unfold App.GateKept
  rw [hui, hbusy]
  exact hkept

theorem gateProperty_held : GateProperty credentialId App.Held :=
  ⟨fun app event _ ↦ stable_held.ui app _ (uiEffect_uiStep app event),
    fun _ _ hui hbusy _ _ hheld ↦ hheld.of_eq hui hbusy, fun _ h ↦ h.gateKept⟩

/-- A credential that is not issued yet stays so while credentials fade. -/
theorem GateProperty.unissued (hlength : credentialId.length = credentialIdLen)
    (h : GateProperty credentialId gate) (condition : Prop) :
    GateProperty credentialId fun app ↦
      gate app ∧ (condition → Unissued credentialId app.device.files app.store) where
  ui := by
    rintro app event hlengths ⟨hgate, hunissued⟩
    obtain ⟨hfades, hsub⟩ := fades_uiStep hlength hlengths event
    exact ⟨h.ui app event hlengths hgate, fun hcondition ↦ (hunissued hcondition).fades hfades hsub⟩
  fades := by
    rintro app app' hui hbusy hfades hsub ⟨hgate, hunissued⟩
    exact ⟨h.fades app app' hui hbusy hfades hsub hgate,
      fun hcondition ↦ (hunissued hcondition).fades hfades hsub⟩
  kept := fun app hgate ↦ h.kept app hgate.1

theorem atCount_between (hlength : credentialId.length = credentialIdLen)
    (hgate : GateProperty credentialId gate) (hbetween : Between credentialId least app app')
    (h : app.AtCount crypto credentialId least ∧ gate app) :
    app'.AtCount crypto credentialId least ∧ gate app' := by
  refine @Disturbs.stable _ _ uiStep app app' (fun state ↦ state.AtCount crypto credentialId least ∧
    gate state) (fun state event hstate ↦ ?_) hbetween.1 h
  exact ⟨hstate.1.uiStep hlength event,
    hgate.ui state event (Ctap.AtCount.lengths hstate.1) hstate.2⟩

/-- The process keeps the counts in order, and who has the gate. -/
def Orderly (crypto : Crypto) (credentialId : Bytes) (least : ℕ) (gate : App → Prop)
    (process : Process App Value) : Prop :=
  ∀ app, app.AtCount crypto credentialId least → gate app →
    Maintains (Between credentialId least) (Kept crypto credentialId least)
      (fun _ app' ↦ app'.AtCount crypto credentialId least ∧ gate app')
      (Kept crypto credentialId least) process app

theorem orderly_pure (value : Value) :
    Orderly crypto credentialId least gate (pure value : Process App Value) :=
  fun _ h hgate ↦ ⟨h, hgate⟩

theorem Orderly.bind {process : Process App Value} {next : Value → Process App Next}
    (h : Orderly crypto credentialId least gate process)
    (hnext : ∀ value, Orderly crypto credentialId least gate (next value)) :
    Orderly crypto credentialId least gate (process >>= next) := by
  intro app happ hgate
  rw [maintains_bind]
  exact (h app happ hgate).weaken fun value app' hstate ↦ hnext value app' hstate.1 hstate.2

theorem orderly_ite {condition : Prop} [Decidable condition] {yes no : Process App Value}
    (hyes : Orderly crypto credentialId least gate yes)
    (hno : Orderly crypto credentialId least gate no) :
    Orderly crypto credentialId least gate (if condition then yes else no) := by
  split_ifs
  · exact hyes
  · exact hno

theorem Orderly.map {process : Process App Value} {f : Value → Next}
    (h : Orderly crypto credentialId least gate process) :
    Orderly crypto credentialId least gate (f <$> process) := by
  intro app happ hgate
  rw [maintains_map]
  exact h app happ hgate

variable (hlength : credentialId.length = credentialIdLen) (hgate : GateProperty credentialId gate)

include hlength hgate

/-- The rule for a section, whatever it returns. -/
theorem maintains_section {program : Program App Value} {post : Value → App → Prop}
    (happ : app.AtCount crypto credentialId least) (hheld : gate app)
    (h : ∀ later, later.AtCount crypto credentialId least → gate later →
      Ready credentialId least later →
        Ensures program post (Kept crypto credentialId least) later) :
    Maintains (Between credentialId least) (Kept crypto credentialId least) post
      (Kept crypto credentialId least) (atomically program) app := by
  rw [maintains_atomically]
  refine ⟨⟨happ, hgate.kept app hheld⟩, fun later hbetween ↦ ?_⟩
  obtain ⟨hlater, hlaterGate⟩ := atCount_between hlength hgate hbetween ⟨happ, hheld⟩
  exact h later hlater hlaterGate hbetween.2

/-- A section that leaves the index and the files alone. -/
theorem orderly_alike {program : Program App Value}
    (h : ∀ app, Ensures program (fun _ ↦ Alike app) (fun _ ↦ False) app) :
    Orderly crypto credentialId least gate (atomically program) := by
  intro app happ hheld
  refine maintains_section hlength hgate happ hheld fun later hlater hlaterGate _ ↦ ?_
  refine (h later).mono (fun _ final halike ↦ ?_) fun _ hcut ↦ hcut.elim
  refine ⟨hlater.of_eq halike.files halike.store,
    hgate.fades later final halike.ui halike.maintenanceBusy ?_ ?_ hlaterGate⟩
  · rw [halike.files]
    exact Fades.refl
  · rw [halike.store]

theorem orderly_read (value : App → Value) :
    Orderly crypto credentialId least gate (atomically (return value (← get))) :=
  orderly_alike hlength hgate fun _ ↦ ⟨rfl, rfl, rfl, rfl⟩

theorem orderly_nextStatus : Orderly crypto credentialId least gate (atomically nextStatus) :=
  orderly_alike hlength hgate fun _ ↦ ⟨rfl, rfl, rfl, rfl⟩

omit hlength in
theorem ensures_onDevice_fading {program : Program Pin.Device Value}
    (happ : app.AtCount crypto credentialId least) (hheld : gate app)
    (h : Fading crypto credentialId program) :
    Ensures (onDevice program)
      (fun _ app' ↦ app'.AtCount crypto credentialId least ∧ gate app')
      (Kept crypto credentialId least) app := by
  rw [ensures_onDevice]
  refine (h least app.device happ.counts).mono (fun _ device hfades ↦ ?_) fun device hfades ↦ ?_
  · exact ⟨Ctap.AtCount.fades happ hfades (List.Sublist.refl _),
      hgate.fades app _ rfl rfl hfades (List.Sublist.refl _) hheld⟩
  · exact ⟨Ctap.AtCount.fades happ hfades (List.Sublist.refl _), hgate.kept app hheld⟩

/-- A section on the device that lets the credential fade. -/
theorem orderly_onDevice {program : Program Pin.Device Value}
    (h : Fading crypto credentialId program) :
    Orderly crypto credentialId least gate (atomically (onDevice program)) :=
  fun _ happ hheld ↦ maintains_section hlength hgate happ hheld
    fun _ hlater hlaterGate _ ↦ ensures_onDevice_fading hgate hlater hlaterGate h

/-- A section on the device that works on the credentials of the index. -/
theorem orderly_withStore {program : CredentialStore → Program Pin.Device Value}
    (h : ∀ store : CredentialStore, (∀ entry ∈ store,
      entry.credentialId.length = credentialIdLen) →
        Fading crypto credentialId (program store)) :
    Orderly crypto credentialId least gate (atomically (do
      let store := (← get).store
      onDevice (program store))) := by
  intro app happ hheld
  refine maintains_section hlength hgate happ hheld fun later hlater hlaterGate _ ↦ ?_
  rw [ensures_bind, ensures_get]
  exact ensures_onDevice_fading hgate hlater hlaterGate (h _ (Ctap.AtCount.lengths hlater))

end Judgment

section Emissions

variable {Value Next : Type} {crypto : Crypto} {credentialId : Bytes} {least : ℕ}
  {gate : App → Prop} {app app' : App} {emitted : Value → Option ℕ}

/-- The counts are in order, and a count that was emitted is a new one that they have come to. -/
structure Emission (crypto : Crypto) (credentialId : Bytes) (least : ℕ) (gate : App → Prop)
    (count : Option ℕ) (app : App) : Prop where
  atCount : app.AtCount crypto credentialId least
  gate : gate app
  emitted : ∀ new, count = some new → least < new ∧ app.AtCount crypto credentialId new

/-- The process emits no count that is not new, by what `emitted` says of its result. -/
def Emits (crypto : Crypto) (credentialId : Bytes) (least : ℕ) (gate : App → Prop)
    (emitted : Value → Option ℕ) (process : Process App Value) : Prop :=
  ∀ app, app.AtCount crypto credentialId least → gate app →
    Maintains (Between credentialId least) (Kept crypto credentialId least)
      (fun value ↦ Emission crypto credentialId least gate (emitted value))
      (Kept crypto credentialId least) process app

theorem emits_pure {value : Value} (hnone : emitted value = none) :
    Emits crypto credentialId least gate emitted (pure value : Process App Value) := by
  intro app happ hgate
  refine ⟨happ, hgate, fun new hnew ↦ ?_⟩
  exact absurd (hnone.symm.trans hnew) (by simp)

/-- A process before the one that may emit a count. -/
theorem Orderly.bindEmits {process : Process App Next} {next : Next → Process App Value}
    (h : Orderly crypto credentialId least gate process)
    (hnext : ∀ value, Emits crypto credentialId least gate emitted (next value)) :
    Emits crypto credentialId least gate emitted (process >>= next) := by
  intro app happ hgate
  rw [maintains_bind]
  exact (h app happ hgate).weaken fun value app' hstate ↦ hnext value app' hstate.1 hstate.2

/-- A process that emits nothing. -/
theorem Orderly.emits {process : Process App Value}
    (h : Orderly crypto credentialId least gate process) (hnone : ∀ value, emitted value = none) :
    Emits crypto credentialId least gate emitted process := by
  intro app happ hgate
  refine (h app happ hgate).weaken fun value app' hstate ↦ ⟨hstate.1, hstate.2, fun new hnew ↦ ?_⟩
  exact absurd ((hnone value).symm.trans hnew) (by simp)

theorem Emits.orderly {process : Process App Value}
    (h : Emits crypto credentialId least gate emitted process) :
    Orderly crypto credentialId least gate process :=
  fun app happ hgate ↦ (h app happ hgate).weaken fun _ _ hanswered ↦
    ⟨hanswered.atCount, hanswered.gate⟩

theorem emits_ite {condition : Prop} [Decidable condition] {yes no : Process App Value}
    (hyes : Emits crypto credentialId least gate emitted yes)
    (hno : Emits crypto credentialId least gate emitted no) :
    Emits crypto credentialId least gate emitted (if condition then yes else no) := by
  split_ifs
  · exact hyes
  · exact hno

/-- What is made of the result emits what the result did. -/
theorem Emits.map {process : Process App Value} {f : Value → Next} {emitted' : Next → Option ℕ}
    (h : Emits crypto credentialId least gate emitted process)
    (hsame : ∀ value, emitted' (f value) = emitted value) :
    Emits crypto credentialId least gate emitted' (f <$> process) := by
  intro app happ hgate
  rw [maintains_map]
  refine (h app happ hgate).weaken fun value app' hanswered ↦ ?_
  rw [hsame]
  exact hanswered

theorem Emission.uiStep {count : Option ℕ} (hlength : credentialId.length = credentialIdLen)
    (hgate : GateProperty credentialId gate) (event : UiEvent)
    (h : Emission crypto credentialId least gate count app) :
    Emission crypto credentialId least gate count (Ctap.uiStep app event) :=
  ⟨h.atCount.uiStep hlength event, hgate.ui app event (Ctap.AtCount.lengths h.atCount) h.gate,
    fun new hnew ↦ ⟨(h.emitted new hnew).1, (h.emitted new hnew).2.uiStep hlength event⟩⟩

theorem Emission.between {count : Option ℕ} (hlength : credentialId.length = credentialIdLen)
    (hgate : GateProperty credentialId gate) (hbetween : Between credentialId least app app')
    (h : Emission crypto credentialId least gate count app) :
    Emission crypto credentialId least gate count app' :=
  Disturbs.stable (fun _ event hstate ↦ hstate.uiStep hlength hgate event) hbetween.1 h

/-- Work under the gate, which may know that the credential is not issued yet. -/
theorem maintains_gated_emission (hlength : credentialId.length = credentialIdLen)
    {condition : Prop} {refused : Value} {work : Process App Value}
    (hrefused : emitted refused = none)
    (hwork : ∀ app, app.AtCount crypto credentialId least →
      (app.Held ∧ (condition → Unissued credentialId app.device.files app.store)) →
        Maintains (Between credentialId least) (Kept crypto credentialId least)
          (fun value ↦ Emission crypto credentialId least App.Held (emitted value))
          (Kept crypto credentialId least) work app)
    (happ : app.AtCount crypto credentialId least)
    (hgate : app.GateKept ∧ (condition → Unissued credentialId app.device.files app.store)) :
    Maintains (Between credentialId least) (Kept crypto credentialId least)
      (fun value ↦ Emission crypto credentialId least App.GateKept (emitted value))
      (Kept crypto credentialId least) (do
        if !(← beginMaintenance) then
          return refused
        let value ← work
        endMaintenance
        return value) app := by
  rw [maintains_bind]
  refine maintains_section hlength (gateProperty_gateKept.unissued hlength condition) happ hgate
    fun later hlater hkept _ ↦ ?_
  simp only [ensures_bind, ensures_get, ensures_ite, ensures_pure, ensures_modify]
  refine ⟨fun _ ↦ emits_pure hrefused later hlater hkept.1, fun hfree ↦ ?_⟩
  have hidle : later.ui = .idle := by
    by_contra hne
    exact hfree (hkept.1 hne)
  simp only [Bool.not_true, Bool.false_eq_true, if_false, maintains_bind]
  refine (hwork { later with maintenanceBusy := true } (hlater.of_eq rfl rfl)
    ⟨⟨rfl, hidle⟩, hkept.2⟩).weaken fun value app' hanswered ↦ ?_
  rw [endMaintenance, maintains_bind, maintains_atomically]
  refine ⟨⟨hanswered.atCount, hanswered.gate.gateKept⟩, fun final hbetween ↦ ?_⟩
  have hfinal := hanswered.between hlength gateProperty_held hbetween
  exact ⟨hfinal.atCount.of_eq rfl rfl, fun hne ↦ absurd hfinal.gate.2 hne, fun new hnew ↦
    ⟨(hfinal.emitted new hnew).1, (hfinal.emitted new hnew).2.of_eq rfl rfl⟩⟩

/-- Work under the gate. -/
theorem emits_gated (hlength : credentialId.length = credentialIdLen) {refused : Value}
    {work : Process App Value} (hrefused : emitted refused = none)
    (hwork : Emits crypto credentialId least App.Held emitted work) :
    Emits crypto credentialId least App.GateKept emitted (do
      if !(← beginMaintenance) then
        return refused
      let value ← work
      endMaintenance
      return value) :=
  fun _ happ hgate ↦ maintains_gated_emission hlength hrefused
    (fun app hcount hheld ↦ hwork app hcount hheld.1) happ ⟨hgate, False.elim⟩

/-- Work under the gate that emits nothing. -/
theorem orderly_gated (hlength : credentialId.length = credentialIdLen) {refused : Value}
    {work : Process App Value} (hwork : Orderly crypto credentialId least App.Held work) :
    Orderly crypto credentialId least App.GateKept (do
      if !(← beginMaintenance) then
        return refused
      let value ← work
      endMaintenance
      return value) :=
  (emits_gated hlength (show (fun _ : Value ↦ (none : Option ℕ)) refused = none from rfl)
    (hwork.emits fun _ ↦ rfl)).orderly

end Emissions

section PinFiles

variable {Value : Type} {crypto : Crypto} {credentialId : Bytes}

/-- What leaves every file but those of the PIN alone does nothing to a credential. -/
theorem fading_of_besidesPin (hlength : credentialId.length = credentialIdLen)
    {program : Program Pin.Device Value}
    (h : ∀ files, Sustains (Pin.BesidesPin files) (fun _ ↦ True) program) :
    Fading crypto credentialId program := by
  intro least world _
  have hname : isRecordName (hexEncode credentialId) = true := isRecordName_hexEncode hlength
  have hkept : ∀ final, Pin.BesidesPin world.files final →
      Fades credentialId world.files final.files := by
    intro final hfinal
    have hsame : ∀ path, FileOf (hexEncode credentialId) path →
        final.files path = world.files path := by
      intro path hpath
      obtain ⟨hprimary, hbackup, htemp⟩ := ne_pin_of_fileOf hname hpath
      exact hfinal path hprimary hbackup htemp
    have hrecord := fileOf_recordPath (hexEncode credentialId)
    have hfloor := fileOf_counterFloorPath (hexEncode credentialId)
    refine Fades.of_eq ?_ ?_
    · rw [heldRecord, heldRecord, logical, logical, hsame _ hrecord, hsame _ hrecord.backup]
    · rw [heldFloor, heldFloor, logical, logical, hsame _ hfloor, hsame _ hfloor.backup]
  exact (h world.files world fun _ _ _ _ ↦ rfl).mono (fun _ final hfinal ↦ hkept final hfinal.2)
    hkept

end PinFiles

section Processes

variable {crypto : Crypto} {credentialId : Bytes} {least : ℕ} {gate : App → Prop}
  (hlength : credentialId.length = credentialIdLen)

include hlength

/-- Loading the record at a position, or at none. -/
theorem fading_loadRecord_entryAt (hlaws : SealLaws crypto) {store : CredentialStore} (index : ℕ)
    (hlengths : ∀ entry ∈ store, entry.credentialId.length = credentialIdLen) :
    Fading crypto credentialId
      (loadRecord crypto (entryAt store index) : Program Pin.Device _) := by
  cases hentry : store[index]? with
  | none =>
    have hdefault : (entryAt store index).inUse = false := by
      rw [entryAt, List.getD_eq_getElem?_getD, hentry]
      rfl
    simp only [loadRecord, hdefault, Bool.not_false, if_true]
    exact fading_pure none
  | some entry =>
    rw [entryAt_of_getElem? hentry]
    exact fading_loadRecord hlaws hlength (hlengths entry (List.mem_of_getElem? hentry))

/-- The exclude check. -/
theorem fading_excludeListHasVisibleMatch (hlaws : SealLaws crypto) {store : CredentialStore}
    {rpId : Bytes} {excludeList : List Bytes} {uvVerified : Bool}
    (hlengths : ∀ entry ∈ store, entry.credentialId.length = credentialIdLen) :
    Fading crypto credentialId
      (excludeListHasVisibleMatch crypto store rpId excludeList uvVerified :
        Program Pin.Device Bool) := by
  have hvisit : ∀ indices : List ℕ, Fading crypto credentialId
      (excludeListVisit crypto rpId uvVerified (indices.map (entryAt store)) :
        Program Pin.Device Bool) := by
    intro indices
    induction indices with
    | nil => exact fading_pure false
    | cons index rest ih =>
      rw [List.map_cons, excludeListVisit]
      refine fading_ite ih ((fading_loadRecord_entryAt hlength hlaws index hlengths).bind
        fun loaded ↦ ?_)
      cases loaded with
      | none => exact fading_pure true
      | some record => exact fading_ite (fading_pure true) ih
  exact fading_ite (fading_pure false) (hvisit _)

theorem orderly_excludeCheck (hlaws : SealLaws crypto) {request : MakeCredentialRequest}
    {uvVerified : Bool} :
    Orderly crypto credentialId least App.GateKept (excludeCheck crypto request uvVerified) := by
  refine orderly_gated hlength fun app happ hheld ↦ ?_
  refine maintains_section hlength gateProperty_held happ hheld fun later hlater hlaterHeld _ ↦ ?_
  rw [ensures_bind, ensures_get, ensures_map]
  exact ensures_onDevice_fading gateProperty_held hlater hlaterHeld
    (fading_excludeListHasVisibleMatch hlength hlaws (AtCount.lengths hlater))

/-- The PIN check of a command. -/
theorem orderly_requirePinAuthWithState {request : Pin.AuthRequest} :
    Orderly crypto credentialId least App.GateKept (requirePinAuthWithState crypto request) := by
  refine orderly_gated hlength ((orderly_read hlength gateProperty_held _).bind fun pinState ↦ ?_)
  refine Orderly.bind (orderly_onDevice hlength gateProperty_held
    (fading_of_besidesPin hlength fun _ ↦ Pin.besidesPin_pinRequireAuth pinState request)) ?_
  rintro ⟨result, pinState⟩
  refine Orderly.bind (orderly_alike hlength gateProperty_held fun app ↦ ?_) fun _ ↦
    orderly_pure result
  rw [ensures_modify]
  exact ⟨rfl, rfl, rfl, rfl⟩

theorem orderly_waitForInteractionResult (hgate : GateProperty credentialId gate) :
    Orderly crypto credentialId least gate waitForInteractionResult := by
  have hwait : Orderly crypto credentialId least gate (atomically nextWait) :=
    orderly_alike hlength hgate fun _ ↦ ⟨rfl, rfl, rfl, rfl⟩
  refine hwait.bind fun waited ↦ orderly_ite (orderly_pure _) ?_
  exact (orderly_read hlength hgate _).bind fun _ ↦ orderly_pure _

/-- Waiting for the user. -/
theorem orderly_requestApproval (hgate : GateProperty credentialId gate) :
    Orderly crypto credentialId least gate requestApproval := by
  have hprepare : Orderly crypto credentialId least gate (atomically prepareApproval) := by
    refine orderly_alike hlength hgate fun app ↦ ?_
    simp only [prepareApproval, ensures_bind, ensures_get, ensures_ite, ensures_pure, ensures_set]
    exact ⟨fun _ ↦ ⟨rfl, rfl, rfl, rfl⟩, fun _ ↦ ⟨fun _ ↦ ⟨rfl, rfl, rfl, rfl⟩,
      fun _ ↦ ⟨rfl, rfl, rfl, rfl⟩⟩⟩
  refine Orderly.bind (hprepare.bind fun outcome ↦ ?_) fun approved ↦ ?_
  · cases outcome with
    | refused => exact orderly_pure none
    | accepted => exact orderly_pure (some true)
    | shown => exact orderly_waitForInteractionResult hlength hgate
  · cases approved with
    | none => exact orderly_pure _
    | some approved =>
      cases approved with
      | true => exact orderly_pure _
      | false => exact (orderly_read hlength hgate _).bind fun _ ↦ orderly_pure _

theorem orderly_handleEmptyPinAuthProbe :
    Orderly crypto credentialId least App.GateKept handleEmptyPinAuthProbe := by
  refine (orderly_requestApproval hlength gateProperty_gateKept).bind fun status ↦
    orderly_ite (orderly_pure _) ?_
  exact (orderly_read hlength gateProperty_gateKept _).bind fun _ ↦ orderly_pure _

theorem orderly_requestAssertionSelection (matchIndices : List ℕ) :
    Orderly crypto credentialId least App.GateKept (requestAssertionSelection matchIndices) := by
  have hprepare : Orderly crypto credentialId least App.GateKept
      (atomically (prepareAssertionSelection matchIndices)) := by
    refine orderly_alike hlength gateProperty_gateKept fun app ↦ ?_
    simp only [prepareAssertionSelection, ensures_bind, ensures_get, ensures_ite, ensures_pure,
      ensures_set]
    exact ⟨fun _ ↦ ⟨rfl, rfl, rfl, rfl⟩, fun _ ↦ ⟨rfl, rfl, rfl, rfl⟩⟩
  have hread := fun value : App → ApprovalState ↦
    @orderly_read ApprovalState crypto credentialId least _ hlength gateProperty_gateKept value
  refine Orderly.bind (orderly_ite (orderly_pure none) ?_) fun selected ↦ ?_
  · refine hprepare.bind fun shown ↦ orderly_ite (orderly_pure none) ?_
    refine (orderly_waitForInteractionResult hlength gateProperty_gateKept).bind fun approved ↦
      orderly_ite (orderly_pure none) ?_
    exact orderly_read hlength gateProperty_gateKept _
  · cases selected with
    | some recordIndex => exact orderly_pure _
    | none => exact (hread _).bind fun _ ↦ orderly_pure _

end Processes

end ZeroFido.Ctap
