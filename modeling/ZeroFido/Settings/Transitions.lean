import ZeroFido.Settings.Persistence

/-!
# What the work of the application keeps

`InForce` says that the preferences, the capabilities and the running transport belong together, and
`Settled` that the settings file holds what is in force. Each operation of the lifecycle and of the
menus keeps both, and where the power goes the file still holds the settled preferences or those of
a change that was under way (`Stored`).
-/

set_option autoImplicit false
set_option relaxedAutoImplicit false

namespace ZeroFido.Settings

open Foundations Storage Store

section Invariants

variable {build : BuildOptions} {app app' app'' : App}

/-- The capabilities are those of the preferences, the build and the PIN. -/
def Exact (build : BuildOptions) (app : App) : Prop :=
  app.capabilities =
    some (runtimeConfigResolveAppCapabilities build app.runtimeConfig app.pinState.pinSet)

/-- The preferences, the capabilities and the transport belong together. Only where a startup failed
and no transport runs may the capabilities take no notice of a PIN. -/
structure InForce (build : BuildOptions) (app : App) : Prop where
  fits : FitsBuild build app.runtimeConfig
  resolved : Exact build app ∨ app.workerThread = none ∧ app.startupOk = false ∧
    app.capabilities = some (runtimeConfigResolveAppCapabilities build app.runtimeConfig false)
  adapter : workerTransport build app = app.runtimeConfig.transportMode
  worker : ∀ mode, app.workerThread = some mode → mode = app.runtimeConfig.transportMode
  startup : app.startupThread = true → app.workerThread = none ∧
    (app.startupComplete = false → app.pinState.pinSet = false)

/-- The settings file holds the settled preferences or those of a change since then. -/
def Stored (build : BuildOptions) (app : App) : Prop :=
  storedConfig build app.device.files ∈ app.settled :: app.unsettled

/-- The preferences in force are the settled ones. A startup that is to come finds them, in the
settings file itself. -/
structure Settled (build : BuildOptions) (app : App) : Prop where
  stored : Stored build app
  memory : app.runtimeConfig = app.settled
  launched : app.startupThread = true → app.startupComplete = false →
    Recovered app.device.files ∧ storedConfig build app.device.files = app.settled

/-- What a part of the application's work does to both. -/
def Keeps (build : BuildOptions) (app app' : App) : Prop :=
  InForce build app' ∧ (Settled build app → Settled build app')

/-- What is left when it is stopped. -/
def Leaves (build : BuildOptions) (app app' : App) : Prop := Settled build app → Stored build app'

theorem InForce.keeps (h : InForce build app) : Keeps build app app := ⟨h, id⟩

theorem Keeps.trans (h : Keeps build app app') (h' : Keeps build app' app'') :
    Keeps build app app'' := ⟨h'.1, h'.2 ∘ h.2⟩

theorem Keeps.leaves (h : Keeps build app app') (h' : Leaves build app' app'') :
    Leaves build app app'' := h' ∘ h.2

/-- The device, the threads to come and the observer matter to none of what is in memory. -/
theorem InForce.observed (h : InForce build app) (device : Pin.Device) (settled : RuntimeConfig)
    (unsettled : List RuntimeConfig) (threads : List Bool) :
    InForce build { app with device, settled, unsettled, threads } :=
  ⟨h.fits, h.resolved, h.adapter, h.worker, h.startup⟩

/-- A transport runs only with capabilities that know of the PIN. -/
theorem InForce.exact (h : InForce build app) (hworker : app.workerThread.isSome = true) :
    Exact build app := by
  rcases h.resolved with hexact | ⟨hnone, -⟩
  · exact hexact
  · rw [hnone] at hworker
    exact absurd hworker (by simp)

theorem InForce.startupThread_eq (h : InForce build app)
    (hworker : app.workerThread.isSome = true) : app.startupThread = false := by
  by_contra hthread
  rw [(h.startup (by simpa using hthread)).1] at hworker
  exact absurd hworker (by simp)

theorem Stored.of_sameSettings (h : Stored build app) {device : Pin.Device}
    (hsame : SameSettings app.device.files device.files) :
    Stored build { app with device } := by
  unfold Stored at h ⊢
  rwa [hsame.storedConfig_eq]

/-- Work on the device that leaves the settings alone leaves them settled. -/
theorem Settled.of_sameSettings (h : Settled build app) {device : Pin.Device}
    (hsame : SameSettings app.device.files device.files) :
    Settled build { app with device } :=
  ⟨h.stored.of_sameSettings hsame, h.memory, fun hthread hcomplete ↦
    ⟨hsame.recovered (h.launched hthread hcomplete).1,
      hsame.storedConfig_eq.trans (h.launched hthread hcomplete).2⟩⟩

theorem anyProtocolEnabled_of_capabilities {config : RuntimeConfig} {pinSet : Bool}
    (h : app.capabilities = some (runtimeConfigResolveAppCapabilities build config pinSet)) :
    anyProtocolEnabled app = true := by
  rw [anyProtocolEnabled, h]
  rfl

theorem workerTransport_withTransportAdapter (app : App) (hone : OneBuild build)
    (hvalid : app.runtimeConfig.Valid build) :
    workerTransport build (app.withTransportAdapter build) = app.runtimeConfig.transportMode := by
  have husb := resolvesUsbHid_iff hvalid hone
  have hnfc := resolvesNfc_iff hvalid hone
  unfold workerTransport App.withTransportAdapter
  unfold resolvesUsbHid at husb
  unfold resolvesNfc at hnfc
  cases hu : build.usbOnly <;> cases hn : build.nfcOnly <;> simp_all

/-- Taking over the adapter changes no other field. -/
theorem withTransportAdapter_eq (build : BuildOptions) (app : App) :
    ∃ transportAdapter, app.withTransportAdapter build = { app with transportAdapter } := by
  unfold App.withTransportAdapter
  split_ifs
  · exact ⟨app.transportAdapter, rfl⟩
  · exact ⟨app.runtimeConfig.transportMode, rfl⟩

end Invariants

section Workers

variable {build : BuildOptions} {app : App}

/-- Starting a worker, which runs the transport of the adapter. -/
theorem ensures_lifecycleStartWorker (hworker : app.workerThread = none) :
    Ensures (lifecycleStartWorker build)
      (fun ok app' ↦ ∃ threads, app' = { app with
        threads
        workerThread := if ok then some (workerTransport build app) else none })
      (fun _ ↦ False) app := by
  have hrunning : ¬app.workerThread.isSome = true := by simp [hworker]
  rw [lifecycleStartWorker, ensures_bind, ensures_get, if_neg hrunning, nextThread]
  simp only [ensures_bind, ensures_modifyGet, ensures_ite, ensures_pure, ensures_modify]
  constructor
  · intro _
    exact ⟨app.threads.tail, by simp [← hworker]⟩
  · intro _
    exact ⟨app.threads.tail, rfl⟩

/-- A worker is started in line with the preferences. -/
theorem InForce.started (happ : InForce build app) (hexact : Exact build app)
    (hidle : app.startupThread = false) (ok : Bool) (threads : List Bool) :
    InForce build { app with
      threads
      workerThread := if ok then some (workerTransport build app) else none } := by
  refine ⟨happ.fits, Or.inl hexact, happ.adapter, ?_, fun hthread ↦ ?_⟩
  · intro mode hmode
    cases ok with
    | false => exact absurd hmode (by simp)
    | true => exact (Option.some.inj hmode).symm.trans happ.adapter
  · exact absurd (hidle.symm.trans hthread) (by simp)

/-- With no startup thread there is nothing to wait for. -/
theorem ensures_lifecycleStartupPending_idle (hidle : app.startupThread = false) :
    Ensures (lifecycleStartupPending build) (fun pending app' ↦ pending = false ∧ app' = app)
      (fun _ ↦ False) app := by
  simp [lifecycleStartupPending, hidle]

/-- The end of the startup starts the transport of the preferences. -/
theorem ensures_lifecycleStartupPending (happ : InForce build app) :
    Ensures (lifecycleStartupPending build)
      (fun pending app' ↦ Keeps build app app' ∧ (pending = false → app'.startupThread = false))
      (fun _ ↦ False) app := by
  by_cases hended : (app.startupThread && app.startupComplete) = true
  · have hjoined : InForce build { app with startupThread := false } :=
      ⟨happ.fits, happ.resolved, happ.adapter, happ.worker, fun habsurd ↦ absurd habsurd (by simp)⟩
    have hsettled : ∀ app', app'.device = app.device → app'.settled = app.settled →
        app'.unsettled = app.unsettled → app'.runtimeConfig = app.runtimeConfig →
        app'.startupThread = false → Settled build app → Settled build app' := by
      intro app' hdevice hsettled hunsettled hconfig hthread h
      refine ⟨?_, ?_, fun habsurd ↦ absurd (hthread.symm.trans habsurd) (by simp)⟩
      · rw [Stored, hdevice, hsettled, hunsettled]
        exact h.stored
      · rw [hconfig, hsettled]
        exact h.memory
    rw [lifecycleStartupPending, ensures_bind, ensures_get, if_pos hended]
    simp only [ensures_bind, ensures_set, ensures_ite, ensures_pure]
    constructor
    · intro hstart
      simp only [Bool.and_eq_true, Option.isNone_iff_eq_none] at hstart
      obtain ⟨⟨⟨hok, -⟩, hworker⟩, -⟩ := hstart
      have hexact : Exact build { app with startupThread := false } :=
        happ.resolved.resolve_right fun hfailed ↦ absurd (hfailed.2.1.symm.trans hok) (by simp)
      have hnone : ({ app with startupThread := false } : App).workerThread = none := hworker
      refine (ensures_lifecycleStartWorker hnone).mono ?_ fun _ ↦ False.elim
      rintro started app' ⟨threads, rfl⟩
      have hstarted := hjoined.started hexact rfl started threads
      refine ⟨fun hfailed ↦ ?_, fun _ ↦ ⟨⟨hstarted, hsettled _ rfl rfl rfl rfl rfl⟩, fun _ ↦ rfl⟩⟩
      rw [ensures_modify]
      refine ⟨⟨⟨hstarted.fits, Or.inl ?_, hstarted.adapter, hstarted.worker, hstarted.startup⟩,
        hsettled _ rfl rfl rfl rfl rfl⟩, fun _ ↦ rfl⟩
      exact hexact
    · intro _
      exact ⟨⟨hjoined, hsettled _ rfl rfl rfl rfl rfl⟩, fun _ ↦ trivial⟩
  · rw [lifecycleStartupPending, ensures_bind, ensures_get, if_neg hended]
    exact ⟨happ.keeps, id⟩

/-- Restarting the transport brings it in line with the preferences. -/
theorem ensures_lifecycleRestartTransport (hone : OneBuild build)
    (hfits : FitsBuild build app.runtimeConfig) (hexact : Exact build app)
    (hidle : app.startupThread = false) :
    Ensures (lifecycleRestartTransport build)
      (fun _ app' ↦ InForce build app' ∧ ∃ transportAdapter workerThread threads,
        app' = { app with transportAdapter, workerThread, threads })
      (fun _ ↦ False) app := by
  rw [lifecycleRestartTransport, ensures_bind]
  refine (ensures_lifecycleStartupPending_idle hidle).mono ?_ fun _ ↦ False.elim
  rintro pending app' ⟨rfl, rfl⟩
  obtain ⟨transportAdapter, heq⟩ :=
    withTransportAdapter_eq build { app' with workerThread := none }
  have hadapter :=
    workerTransport_withTransportAdapter { app' with workerThread := none } hone hfits.transport
  rw [heq] at hadapter
  have hstopped : InForce build { app' with transportAdapter, workerThread := none } :=
    ⟨hfits, Or.inl hexact, hadapter, fun _ habsurd ↦ absurd habsurd (by simp),
      fun hthread ↦ absurd (hidle.symm.trans hthread) (by simp)⟩
  have hnone : ({ app' with transportAdapter, workerThread := none } : App).workerThread = none :=
    rfl
  have hany : anyProtocolEnabled { app' with transportAdapter, workerThread := none } = true :=
    anyProtocolEnabled_of_capabilities hexact
  rw [if_neg (by simp), lifecycleStopWorker, ensures_bind, ensures_modify, ensures_bind,
    ensures_modify, heq, ensures_bind, ensures_get, hany]
  refine (ensures_lifecycleStartWorker hnone).mono ?_ fun _ ↦ False.elim
  rintro started final ⟨threads, rfl⟩
  exact ⟨hstopped.started hexact hidle started threads, transportAdapter, _, threads, rfl⟩

end Workers

section Setters

variable {build : BuildOptions} {app : App} {config : RuntimeConfig} {padding : Fin 3 → UInt8}

/-- Storing preferences: until it is reported, the file holds them or what it held. -/
theorem ensures_persistObserved (hfits : FitsBuild build config) :
    Ensures (persistObserved build padding config)
      (fun ok app' ↦ (Stored build app → Stored build app') ∧
        ∃ device unsettled, app' = { app with
          device
          unsettled
          settled := if ok then config else app.settled })
      (fun app' ↦ Stored build app → Stored build app') app := by
  have hstored : ∀ device : Pin.Device,
      storedConfig build device.files = storedConfig build app.device.files ∨
        storedConfig build device.files = config →
      Stored build app →
        Stored build { app with device, unsettled := app.unsettled ++ [config] } := by
    intro device heither h
    unfold Stored at h ⊢
    rcases heither with hold | hnew
    · rw [hold]
      exact List.mem_append_left [config] h
    · rw [hnew]
      exact List.mem_cons_of_mem _ (List.mem_append_right _ (List.mem_singleton_self config))
  simp only [persistObserved, ensures_bind, ensures_modify, ensures_onDevice, ensures_ite,
    ensures_pure]
  refine (ensures_runtimeConfigPersist_stored hfits padding).mono ?_ hstored
  rintro ok device ⟨heither, hdone⟩
  constructor
  · intro hfailed
    rw [Bool.not_eq_true'] at hfailed
    subst hfailed
    exact ⟨hstored device heither, device, _, rfl⟩
  · intro hok
    have hok : ok = true := by simpa using hok
    subst hok
    refine ⟨fun _ ↦ ?_, device, [], rfl⟩
    rw [Stored, hdone rfl]
    exact List.mem_singleton_self config

/-- Preferences that fit the build are put in force as they are. -/
theorem ensures_runtimeConfigApply (hfits : FitsBuild build config) :
    Ensures (runtimeConfigApply build config)
      (fun _ app' ↦ Exact build app' ∧ ∃ capabilities,
        app' = { app with runtimeConfig := config, capabilities })
      (fun _ ↦ False) app := by
  rw [runtimeConfigApply, ensures_modify, hfits.forBuild]
  exact ⟨rfl, _, rfl⟩

/-- A setter that leaves the transport alone. -/
theorem ensures_persistThenApply (happ : InForce build app) (hidle : app.startupThread = false)
    (hfits : FitsBuild build config) (htransport : config.transportMode =
      app.runtimeConfig.transportMode) :
    Ensures (persistThenApply build padding config) (fun _ ↦ Keeps build app) (Leaves build app)
      app := by
  have hthread : ¬app.startupThread = true := by simp [hidle]
  rw [persistThenApply, ensures_bind]
  refine (ensures_persistObserved hfits).mono ?_ fun _ hcut h ↦ hcut h.stored
  rintro ok app' ⟨hstored, device, unsettled, rfl⟩
  cases ok with
  | false =>
    exact ⟨happ.observed device _ unsettled app.threads,
      fun h ↦ ⟨hstored h.stored, h.memory, fun habsurd ↦ absurd habsurd hthread⟩⟩
  | true =>
    rw [if_neg (by simp), ensures_bind]
    refine (ensures_runtimeConfigApply hfits).mono ?_ fun _ ↦ False.elim
    rintro _ applied ⟨hexact, capabilities, rfl⟩
    refine ⟨⟨hfits, Or.inl hexact, happ.adapter.trans htransport.symm, fun mode hmode ↦ ?_,
      fun habsurd ↦ absurd habsurd hthread⟩, fun h ↦ ⟨hstored h.stored, rfl, fun habsurd ↦
        absurd habsurd hthread⟩⟩
    exact (happ.worker mode hmode).trans htransport.symm

theorem ensures_runtimeConfigSetAutoAcceptRequests (happ : InForce build app)
    (hidle : app.startupThread = false) (enabled : Bool) :
    Ensures (runtimeConfigSetAutoAcceptRequests build padding enabled) (fun _ ↦ Keeps build app)
      (Leaves build app) app := by
  by_cases hbuild : build.autoAcceptRequests = true
  · have hfits : FitsBuild build { app.runtimeConfig with autoAcceptRequests := enabled } :=
      { happ.fits with autoAcceptRequests := fun _ ↦ hbuild }
    rw [runtimeConfigSetAutoAcceptRequests, if_neg (by simp [hbuild]), ensures_bind, ensures_get]
    exact ensures_persistThenApply happ hidle hfits rfl
  · rw [runtimeConfigSetAutoAcceptRequests, if_pos (by simp [hbuild])]
    exact happ.keeps

theorem ensures_runtimeConfigSetFido2Profile (happ : InForce build app)
    (hidle : app.startupThread = false) (profile : Fido2Profile) :
    Ensures (runtimeConfigSetFido2Profile build padding profile) (fun _ ↦ Keeps build app)
      (Leaves build app) app := by
  simp only [runtimeConfigSetFido2Profile, fido2ProfileIsValid_toByte, Bool.not_true,
    Bool.false_eq_true, if_false, ensures_ite, ensures_pure, ensures_bind, ensures_get]
  refine ⟨fun _ ↦ happ.keeps, fun hbuild ↦ ⟨fun _ ↦ happ.keeps, fun _ ↦ ?_⟩⟩
  have hprofile : fido2ProfileForBuild build profile = profile := by
    unfold fido2ProfileForBuild
    split_ifs with hdev
    · rfl
    · cases profile <;> simp_all
  exact ensures_persistThenApply happ hidle { happ.fits with fido2Profile := hprofile } rfl

theorem ensures_runtimeConfigSetAttestationMode (happ : InForce build app)
    (hidle : app.startupThread = false) (mode : AttestationMode) :
    Ensures (runtimeConfigSetAttestationMode build padding mode) (fun _ ↦ Keeps build app)
      (Leaves build app) app := by
  simp only [runtimeConfigSetAttestationMode, ensures_ite, ensures_pure, ensures_bind, ensures_get]
  refine ⟨fun _ ↦ happ.keeps, fun hsettable ↦ ?_⟩
  have hmode : attestationModeForBuild build mode = mode := by
    unfold attestationModeForBuild
    split_ifs with hpacked
    · rfl
    · simp only [attestationModeIsSettable, attestationModeIsValid_toByte, hpacked, Bool.not_true,
        Bool.false_eq_true, if_false, Bool.not_eq_true', Bool.not_eq_false, beq_iff_eq] at hsettable
      exact hsettable.symm
  exact ensures_persistThenApply happ hidle { happ.fits with attestationMode := hmode } rfl

/-- The transport is taken back, whether its worker starts again or not. -/
theorem ensures_restoreTransport (hone : OneBuild build) (hfits : FitsBuild build config)
    (hidle : app.startupThread = false) :
    Ensures (restoreTransport build config)
      (fun _ app' ↦ InForce build app' ∧ ∃ capabilities transportAdapter workerThread threads,
        app' = { app with
          runtimeConfig := config
          capabilities
          transportAdapter
          workerThread
          threads })
      (fun _ ↦ False) app := by
  rw [restoreTransport, ensures_bind]
  refine (ensures_runtimeConfigApply hfits).mono ?_ fun _ ↦ False.elim
  rintro _ applied ⟨hexact, capabilities, rfl⟩
  rw [ensures_bind]
  refine (ensures_lifecycleRestartTransport hone hfits hexact hidle).mono ?_ fun _ ↦ False.elim
  rintro started final ⟨hfinal, transportAdapter, workerThread, threads, rfl⟩
  exact ⟨hfinal, capabilities, transportAdapter, workerThread, threads, rfl⟩

/-- Changing the transport: it runs and is stored, or everything is as it was. -/
theorem ensures_lifecycleSetTransportMode (hone : OneBuild build) (happ : InForce build app)
    (hidle : app.startupThread = false) (mode : TransportMode) :
    Ensures (lifecycleSetTransportMode build padding mode) (fun _ ↦ Keeps build app)
      (Leaves build app) app := by
  have hthread : ¬app.startupThread = true := by simp [hidle]
  simp only [lifecycleSetTransportMode, ensures_ite, ensures_pure, ensures_bind, ensures_get]
  refine ⟨fun _ ↦ happ.keeps, fun husb ↦ ⟨fun _ ↦ happ.keeps, fun hnfc ↦
    ⟨fun _ ↦ happ.keeps, fun _ ↦ ?_⟩⟩⟩
  have hvalid : transportModeIsValid build mode.toByte = true := by
    cases mode <;> cases hu : build.usbOnly <;> cases hn : build.nfcOnly <;>
      simp_all [transportModeIsValid, TransportMode.toByte]
  have hnext : FitsBuild build { app.runtimeConfig with transportMode := mode } :=
    { happ.fits with transport := hvalid }
  refine (ensures_runtimeConfigApply hnext).mono ?_ fun _ ↦ False.elim
  rintro _ applied ⟨hexact, capabilities, rfl⟩
  refine (ensures_lifecycleRestartTransport hone hnext hexact hidle).mono ?_ fun _ ↦ False.elim
  rintro started middle ⟨hmiddle, transportAdapter, workerThread, threads, rfl⟩
  -- Whatever the file holds, the preferences of before are in force again.
  have hrestore : ∀ (device : Pin.Device) (unsettled : List RuntimeConfig),
      (Stored build app → Stored build { app with device, unsettled }) →
      Ensures (restoreTransport build app.runtimeConfig) (fun _ ↦ Keeps build app)
        (Leaves build app) { app with
          runtimeConfig := { app.runtimeConfig with transportMode := mode }
          capabilities
          transportAdapter
          workerThread
          threads
          device
          unsettled } := by
    intro device unsettled hstored
    refine (ensures_restoreTransport hone happ.fits ?_).mono ?_ fun _ ↦ False.elim
    · exact hidle
    · rintro _ final ⟨hfinal, capabilities', transportAdapter', workerThread', threads', rfl⟩
      exact ⟨hfinal, fun h ↦ ⟨hstored h.stored, h.memory, fun habsurd ↦ absurd habsurd hthread⟩⟩
  constructor
  · exact fun _ ↦ hrestore app.device app.unsettled id
  · intro _
    refine (ensures_persistObserved hnext).mono ?_ fun _ hcut h ↦ hcut h.stored
    rintro ok later ⟨hstored, device, unsettled, rfl⟩
    cases ok with
    | false => exact ⟨fun _ ↦ hrestore device unsettled hstored, by simp⟩
    | true =>
      exact ⟨by simp, fun _ ↦ ⟨hmiddle.observed device _ unsettled threads,
        fun h ↦ ⟨hstored h.stored, rfl, fun habsurd ↦ absurd habsurd hthread⟩⟩⟩

/-- The settings menu, whichever entry is chosen. -/
theorem ensures_settingsMenuCallback (hone : OneBuild build) (happ : InForce build app)
    (item : SettingsItem) :
    Ensures (settingsMenuCallback build padding item) (fun _ ↦ Keeps build app) (Leaves build app)
      app := by
  rw [settingsMenuCallback, ensures_bind]
  refine (ensures_lifecycleStartupPending happ).mono ?_ fun _ ↦ False.elim
  rintro pending middle ⟨hkeeps, hidle⟩
  cases pending with
  | true => exact hkeeps
  | false =>
    rw [if_neg (by simp), ensures_ite]
    refine ⟨fun _ ↦ hkeeps, fun _ ↦ ?_⟩
    rw [ensures_bind, ensures_get]
    have hafter : ∀ {program : Program App Bool},
        Ensures program (fun _ ↦ Keeps build middle) (Leaves build middle) middle →
          Ensures program (fun _ ↦ Keeps build app) (Leaves build app) middle :=
      fun h ↦ h.mono (fun _ _ ↦ hkeeps.trans) fun _ ↦ hkeeps.leaves
    cases item with
    | transport => exact hafter (ensures_lifecycleSetTransportMode hone hkeeps.1 (hidle rfl) _)
    | autoAcceptRequests =>
      exact hafter (ensures_runtimeConfigSetAutoAcceptRequests hkeeps.1 (hidle rfl) _)
    | fido2Profile => exact hafter (ensures_runtimeConfigSetFido2Profile hkeeps.1 (hidle rfl) _)
    | attestation => exact hafter (ensures_runtimeConfigSetAttestationMode hkeeps.1 (hidle rfl) _)

end Setters

section PinChanges

variable {build : BuildOptions} {crypto : Crypto} {app : App}

/-- Work on the files of the PIN, and what it does to the PIN in memory. -/
theorem ensures_onDevice_pin {Value : Type} {program : Program Pin.Device Value}
    {property : Value → Prop}
    (h : Sustains (Pin.BesidesPin app.device.files) property program) :
    Ensures (onDevice program)
      (fun value app' ↦ property value ∧ ∃ device, app' = { app with device } ∧
        SameSettings app.device.files device.files)
      (Leaves build app) app := by
  rw [ensures_onDevice]
  refine (h app.device fun _ _ _ _ ↦ rfl).mono ?_ ?_
  · rintro value device ⟨hvalue, hdevice⟩
    exact ⟨hvalue, device, rfl, sameSettings_of_besidesPin hdevice⟩
  · exact fun device hdevice hsettled ↦
      hsettled.stored.of_sameSettings (sameSettings_of_besidesPin hdevice)

/-- A PIN operation, and the capabilities again when it may have set or removed the PIN. -/
theorem InForce.pinChanged (happ : InForce build app) (hidle : app.startupThread = false)
    {device : Pin.Device} (hsame : SameSettings app.device.files device.files)
    {pinState : Pin.ClientPinState} (hset : pinState.pinSet = app.pinState.pinSet) :
    Keeps build app { app with device, pinState } := by
  refine ⟨⟨happ.fits, ?_, happ.adapter, happ.worker, fun habsurd ↦ ?_⟩, fun h ↦ ?_⟩
  · refine happ.resolved.imp_left fun hexact ↦ ?_
    rw [Exact, hset]
    exact hexact
  · exact absurd (hidle.symm.trans habsurd) (by simp)
  · have hlater := h.of_sameSettings hsame
    exact ⟨hlater.stored, hlater.memory, hlater.launched⟩

theorem InForce.pinRefreshed (happ : InForce build app) (hidle : app.startupThread = false)
    {device : Pin.Device} (hsame : SameSettings app.device.files device.files)
    (pinState : Pin.ClientPinState) :
    Keeps build app { app with
      device
      pinState
      capabilities := some (runtimeConfigResolveAppCapabilities build app.runtimeConfig
        pinState.pinSet) } := by
  refine ⟨⟨happ.fits, Or.inl rfl, happ.adapter, happ.worker, fun habsurd ↦ ?_⟩, fun h ↦ ?_⟩
  · exact absurd (hidle.symm.trans habsurd) (by simp)
  · have hlater := h.of_sameSettings hsame
    exact ⟨hlater.stored, hlater.memory, hlater.launched⟩

/-- clientPIN, whatever it is asked. -/
theorem ensures_pinHandleCommandWithSession (happ : InForce build app)
    (hidle : app.startupThread = false) (data : Bytes) (consent : Pin.ConsentOutcome)
    (delay outCapacity : ℕ) :
    Ensures (pinHandleCommandWithSession build crypto data consent delay outCapacity)
      (fun _ ↦ Keeps build app) (Leaves build app) app := by
  simp only [pinHandleCommandWithSession, ensures_bind, ensures_get]
  refine (ensures_onDevice_pin (Pin.besidesPin_pinHandleCommand _ _ _ _ _ _)).mono ?_ fun _ ↦ id
  rintro result app' ⟨hkept, device, rfl, hsame⟩
  rw [ensures_modify, ensures_ite]
  constructor
  · intro _
    exact happ.pinRefreshed hidle hsame result.state
  · intro hnone
    refine happ.pinChanged hidle hsame ?_
    by_cases hsuccess : result.status = .success
    · by_contra hchanged
      exact hnone ⟨hsuccess, fun hsame ↦ hchanged hsame.symm⟩
    · exact hkept hsuccess

/-- The PIN dialogs. -/
theorem ensures_updatePin (happ : InForce build app) (hidle : app.startupThread = false)
    {operation : Pin.ClientPinState → Program Pin.Device (CtapStatus × Pin.ClientPinState)}
    (hoperation : Sustains (Pin.BesidesPin app.device.files)
      (fun result ↦ result.1 ≠ .success → result.2.pinSet = app.pinState.pinSet)
      (operation app.pinState)) :
    Ensures (updatePin build operation) (fun _ ↦ Keeps build app) (Leaves build app) app := by
  simp only [updatePin, ensures_bind, ensures_get]
  refine (ensures_onDevice_pin hoperation).mono ?_ fun _ ↦ id
  rintro ⟨status, pinState⟩ app' ⟨hkept, device, rfl, hsame⟩
  rw [ensures_modify, ensures_ite]
  constructor
  · exact fun _ ↦ happ.pinRefreshed hidle hsame pinState
  · exact fun hfailed ↦ happ.pinChanged hidle hsame (hkept hfailed)

theorem ensures_setPin (happ : InForce build app) (hidle : app.startupThread = false)
    (newPin : Bytes) :
    Ensures (setPin build crypto newPin) (fun _ ↦ Keeps build app) (Leaves build app) app :=
  ensures_updatePin happ hidle (Pin.besidesPin_pinApplyPlaintext app.pinState newPin true)

theorem ensures_changePin (happ : InForce build app) (hidle : app.startupThread = false)
    (current newPin : Bytes) :
    Ensures (changePin build crypto current newPin) (fun _ ↦ Keeps build app) (Leaves build app)
      app := by
  refine ensures_updatePin happ hidle ?_
  refine (Pin.besidesPin_pinVerifyPlaintext app.pinState current).bind fun verified hverified ↦
    .ite (fun _ ↦ .pure fun _ ↦ hverified) fun _ ↦ ?_
  exact (Pin.besidesPin_pinApplyPlaintext verified.2 newPin false).mono
    fun _ hresult hfailed ↦ (hresult hfailed).trans hverified

theorem ensures_removePin (happ : InForce build app) (hidle : app.startupThread = false)
    (current : Bytes) :
    Ensures (removePin build crypto current) (fun _ ↦ Keeps build app) (Leaves build app) app := by
  refine ensures_updatePin happ hidle ?_
  refine (Pin.besidesPin_pinVerifyPlaintext app.pinState current).bind fun verified hverified ↦
    .ite (fun _ ↦ .pure fun _ ↦ hverified) fun _ ↦ ?_
  refine (Pin.besidesPin_pinClear verified.2).bind fun cleared hcleared ↦ .pure fun hfailed ↦ ?_
  refine (hcleared ?_).trans hverified
  by_contra hdone
  exact hfailed (if_pos (by simpa using hdone))

/-- The capabilities of an application without its PIN, or with another. -/
theorem InForce.refreshed (happ : InForce build app) (hidle : app.startupThread = false)
    (device : Pin.Device) (store : CredentialStore) (pinState : Pin.ClientPinState)
    (startupResetAvailable : Bool) :
    InForce build { app with
      device
      store
      pinState
      startupResetAvailable
      capabilities := some (runtimeConfigResolveAppCapabilities build app.runtimeConfig
        pinState.pinSet) } :=
  ⟨happ.fits, Or.inl rfl, happ.adapter, happ.worker,
    fun habsurd ↦ absurd (hidle.symm.trans habsurd) (by simp)⟩

/-- A reset, whatever becomes of the files. -/
theorem ensures_resetAppData (happ : InForce build app) (hidle : app.startupThread = false)
    (listing : Listing) :
    Ensures (resetAppData build crypto listing) (fun _ ↦ InForce build) (fun _ ↦ True) app := by
  rw [resetAppData, ensures_bind, ensures_onDevice]
  refine ensures_of_forall (fun wiped device ↦ ?_) fun _ ↦ trivial
  rw [ensures_ite]
  constructor
  · exact fun _ ↦ happ.observed device app.settled app.unsettled app.threads
  · intro _
    rw [ensures_bind, ensures_onDevice]
    refine ensures_of_forall (fun result device' ↦ ?_) fun _ ↦ trivial
    exact happ.refreshed hidle device' [] _ app.startupResetAvailable

theorem ensures_startupReset (happ : InForce build app) (hidle : app.startupThread = false)
    (listing : Listing) :
    Ensures (startupReset build listing) (fun _ ↦ InForce build) (fun _ ↦ True) app := by
  rw [startupReset, ensures_bind, ensures_onDevice]
  refine ensures_of_forall (fun wiped device ↦ ?_) fun _ ↦ trivial
  rw [ensures_ite]
  constructor
  · exact fun _ ↦ happ.observed device app.settled app.unsettled app.threads
  · exact fun _ ↦ happ.refreshed hidle device [] {} false

end PinChanges

section Startup

variable {build : BuildOptions} {crypto : Crypto} {app : App}

/-- What loading the settings comes to. -/
structure Loaded (build : BuildOptions) (app app' : App) : Prop where
  fits : FitsBuild build app'.runtimeConfig
  adapter : workerTransport build app' = app'.runtimeConfig.transportMode
  frame : ∃ transportAdapter device, app' = { app with
    runtimeConfig := app'.runtimeConfig
    capabilities := some (runtimeConfigResolveAppCapabilities build app'.runtimeConfig
      app.pinState.pinSet)
    transportAdapter
    device }
  stored : storedConfig build app'.device.files = storedConfig build app.device.files
  clean : app.device.reads = [] → app.device.writes = [] ∨ Recovered app.device.files →
    app'.runtimeConfig = storedConfig build app.device.files ∧ Recovered app'.device.files

theorem ensures_lifecycleLoadRuntimeConfig (hone : OneBuild build) :
    Ensures (lifecycleLoadRuntimeConfig build) (fun _ ↦ Loaded build app)
      (fun app' ↦ (Stored build app → Stored build app') ∧ app.device.writes ≠ []) app := by
  have hconfig : ∀ {files files' : Path → Option Bytes},
      logical files' runtimeConfigFilePath = logical files runtimeConfigFilePath →
      storedConfig build files' = storedConfig build files := by
    intro files files' hlogical
    rw [storedConfig, storedConfig, hlogical]
  rw [lifecycleLoadRuntimeConfig, ensures_bind, ensures_onDevice]
  refine (ensures_runtimeConfigLoad_stored hone).mono ?_ ?_
  · rintro config device ⟨hloadable, hlogical, hclean⟩
    rw [ensures_bind, runtimeConfigApply, ensures_modify, ensures_modify]
    have hadapter := workerTransport_withTransportAdapter { app with
      runtimeConfig := runtimeConfigForBuild build config
      capabilities := some (runtimeConfigResolveAppCapabilities build
        (runtimeConfigForBuild build config) app.pinState.pinSet)
      device } hone hloadable.fits.transport
    obtain ⟨transportAdapter, heq⟩ := withTransportAdapter_eq build { app with
      runtimeConfig := runtimeConfigForBuild build config
      capabilities := some (runtimeConfigResolveAppCapabilities build
        (runtimeConfigForBuild build config) app.pinState.pinSet)
      device }
    rw [heq] at hadapter ⊢
    exact ⟨hloadable.fits, hadapter, ⟨transportAdapter, device, rfl⟩, hconfig hlogical, hclean⟩
  · rintro device ⟨hlogical, hwrites⟩
    refine ⟨fun h ↦ ?_, hwrites⟩
    unfold Stored at h ⊢
    rwa [hconfig hlogical]

/-- The start of the application. When it can read the settings file and does not fail to bring it
back, the stored preferences are in force. -/
theorem ensures_lifecycleOpen (hone : OneBuild build) (hworker : app.workerThread = none)
    (hset : app.pinState.pinSet = false) :
    Ensures (lifecycleOpen build)
      (fun _ app' ↦ InForce build app' ∧ (app.device.reads = [] →
        app.device.writes = [] ∨ Recovered app.device.files →
        Settled build app' ∧ app'.runtimeConfig = storedConfig build app.device.files))
      (fun app' ↦ (Stored build app → Stored build app') ∧ app.device.writes ≠ []) app := by
  rw [lifecycleOpen, ensures_bind]
  refine (ensures_lifecycleLoadRuntimeConfig hone).mono ?_ fun _ ↦ id
  rintro _ loaded ⟨hfits, hadapter, ⟨transportAdapter, device, hframe⟩, hstored, hclean⟩
  have hnone : loaded.workerThread = none := by rw [hframe, hworker]
  have hpin : loaded.pinState = app.pinState := by rw [hframe]
  have hexact : Exact build loaded := by
    rw [Exact, hpin]
    exact congrArg App.capabilities hframe
  have hresult : ∀ (startupThread startupComplete : Bool) (threads : List Bool),
      InForce build { loaded with
          settled := loaded.runtimeConfig
          unsettled := []
          startupOk := false
          startupThread
          startupComplete
          threads } ∧ (app.device.reads = [] →
        app.device.writes = [] ∨ Recovered app.device.files → Settled build { loaded with
          settled := loaded.runtimeConfig
          unsettled := []
          startupOk := false
          startupThread
          startupComplete
          threads } ∧ loaded.runtimeConfig = storedConfig build app.device.files) := by
    intro startupThread startupComplete threads
    refine ⟨⟨hfits, Or.inl hexact, hadapter, fun mode hmode ↦ ?_, fun _ ↦ ⟨hnone, fun _ ↦ ?_⟩⟩,
      fun hreads hsafe ↦ ?_⟩
    · exact absurd (hnone.symm.trans hmode) (by simp)
    · exact (congrArg Pin.ClientPinState.pinSet hpin).trans hset
    · obtain ⟨hconfig, hrecovered⟩ := hclean hreads hsafe
      have hheld := hstored.trans hconfig.symm
      exact ⟨⟨List.mem_singleton.mpr hheld, rfl, fun _ _ ↦ ⟨hrecovered, hheld⟩⟩, hconfig⟩
  simp only [lifecycleStartupAsync, nextThread, ensures_bind, ensures_modify, ensures_modifyGet,
    ensures_ite, ensures_pure]
  exact ⟨fun _ ↦ hresult _ true _, fun _ ↦ hresult true false _⟩

/-- Only a startup of which everything is in order reports nothing. -/
theorem status_of_lifecycleBackendStatus {capabilities : ResolvedCapabilities}
    {storageStatus : Ctap.StorageInitStatus} {u2fReady : Bool}
    (h : lifecycleBackendStatus capabilities storageStatus u2fReady = none) :
    storageStatus = .ok := by
  unfold lifecycleBackendStatus at h
  dsimp only at h
  split_ifs at h with hok
  exact hok.1

/-- The startup leaves the settings as the launch found them. -/
theorem ensures_lifecycleStartupWorker (hone : OneBuild build) (happ : InForce build app)
    (hthread : app.startupThread = true) (hcomplete : app.startupComplete = false)
    (listings : StartupListings) (u2fAvailable : Bool) :
    Ensures (lifecycleStartupWorker build crypto listings u2fAvailable)
      (fun _ app' ↦ InForce build app' ∧ (SealLaws crypto → app.device.reads = [] →
        Settled build app → Settled build app'))
      (fun app' ↦ SealLaws crypto → Settled build app → Stored build app') app := by
  have hinit : ∀ device : Pin.Device, Ensures (Ctap.lifecycleInitStorage crypto listings)
      (fun _ device' ↦ SealLaws crypto → SameSettings device.files device'.files)
      (fun device' ↦ SealLaws crypto → SameSettings device.files device'.files) device := by
    intro device
    by_cases hlaws : SealLaws crypto
    · exact (ensures_lifecycleInitStorage_settings hlaws).mono (fun _ _ h _ ↦ h) fun _ h _ ↦ h
    · exact ensures_of_forall (fun _ _ habsurd ↦ absurd habsurd hlaws) fun _ habsurd ↦
        absurd habsurd hlaws
  obtain ⟨hworker, hset⟩ := happ.startup hthread
  rw [lifecycleStartupWorker, ensures_bind, lifecycleStartup, ensures_bind]
  refine (ensures_lifecycleLoadRuntimeConfig hone).mono ?_ fun _ hcut _ h ↦ hcut.1 h.stored
  rintro _ loaded ⟨hfits, hadapter, ⟨transportAdapter, device, hframe⟩, hstored, hclean⟩
  have hnone : loaded.workerThread = none := by rw [hframe, hworker]
  have hcapabilities : loaded.capabilities =
      some (runtimeConfigResolveAppCapabilities build loaded.runtimeConfig false) := by
    have hloaded := congrArg App.capabilities hframe
    dsimp only at hloaded
    rwa [hset hcomplete] at hloaded
  have hobserver : loaded.settled :: loaded.unsettled = app.settled :: app.unsettled := by
    rw [hframe]
  -- Nothing after the settings were loaded touches their file.
  have hsettled : ∀ final : App, SameSettings loaded.device.files final.device.files →
      final.runtimeConfig = loaded.runtimeConfig → final.settled = loaded.settled →
      final.unsettled = loaded.unsettled → final.startupComplete = true →
      app.device.reads = [] → Settled build app → Settled build final := by
    intro final hsame hconfig hfinal hunsettled hended hreads h
    obtain ⟨hrecovered, hheld⟩ := h.launched hthread hcomplete
    refine ⟨?_, ?_, fun _ habsurd ↦ absurd (hended.symm.trans habsurd) (by simp)⟩
    · rw [Stored, hsame.storedConfig_eq, hstored, hfinal, hunsettled, hobserver]
      exact h.stored
    · rw [hconfig, hfinal, (hclean hreads (Or.inr hrecovered)).1, hheld]
      rw [hframe]
  rw [ensures_bind, ensures_onDevice]
  refine (hinit loaded.device).mono ?_ fun device' hcut hlaws h ↦ ?_
  · rintro ⟨storageStatus, store, pinState⟩ device' hsame
    have hfinal : ∀ (capabilities : Option ResolvedCapabilities) (startupOk resetAvailable : Bool),
        capabilities = some (runtimeConfigResolveAppCapabilities build loaded.runtimeConfig
          pinState.pinSet) ∨ startupOk = false ∧ capabilities = loaded.capabilities →
        InForce build { loaded with
          device := device'
          store
          pinState
          capabilities
          startupComplete := true
          startupOk
          startupResetAvailable := resetAvailable } ∧
        (SealLaws crypto → app.device.reads = [] → Settled build app → Settled build { loaded with
          device := device'
          store
          pinState
          capabilities
          startupComplete := true
          startupOk
          startupResetAvailable := resetAvailable }) := by
      intro capabilities startupOk resetAvailable hresolved
      refine ⟨⟨hfits, ?_, hadapter, fun mode hmode ↦ ?_, fun _ ↦ ⟨hnone, fun habsurd ↦ ?_⟩⟩,
        fun hlaws ↦ hsettled _ (hsame hlaws) rfl rfl rfl rfl⟩
      · exact hresolved.imp_right fun hfailed ↦ ⟨hnone, hfailed.1, hfailed.2.trans hcapabilities⟩
      · exact absurd (hnone.symm.trans hmode) (by simp)
      · exact absurd habsurd (by simp)
    simp only [ensures_bind, ensures_modify, ensures_get, ensures_ite,
      runtimeConfigRefreshCapabilities]
    constructor
    · intro _
      split
      · exact hfinal _ true _ (Or.inl rfl)
      · exact hfinal _ false _ (Or.inl rfl)
    · intro hfailed
      split
      · rename_i hstatus
        exact absurd (status_of_lifecycleBackendStatus hstatus) hfailed
      · exact hfinal _ false _ (Or.inr ⟨rfl, rfl⟩)
  · rw [Stored, (hcut hlaws).storedConfig_eq, hstored, hobserver]
    exact h.stored

end Startup

end ZeroFido.Settings
