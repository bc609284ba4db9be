import ZeroFido.Ctap.InterruptedReset
import ZeroFido.Pin.TokenIssue
import ZeroFido.Settings.Capabilities

/-!
# Settings and the life of the application

`app/lifecycle.c`, the setters of `zerofido_runtime_config.c` and the entries of the settings menu
(`ui/views.c`). A setter stores the changed preferences first and puts them in force when that
succeeded. The transport is the exception: the new worker is started first, and everything is taken
back when it does not start or the preferences cannot be stored.

Allocating a thread may fail; its outcomes are a list, as those of the storage calls are. The fields
`settled` and `unsettled` are an observer's and not in the code: the preferences that the
application started from or that were last reported to be stored, and those of changes since then.
-/

set_option autoImplicit false
set_option relaxedAutoImplicit false

namespace ZeroFido.Settings

open Foundations Storage Store

section State

/-- The parts of `ZerofidoApp` that the settings and the lifecycle work on. -/
structure App where
  runtimeConfig : RuntimeConfig
  /-- `capabilities`, once they are resolved. -/
  capabilities : Option ResolvedCapabilities := none
  transportAdapter : TransportMode
  pinState : Pin.ClientPinState := {}
  store : CredentialStore := []
  running : Bool := true
  /-- Whether `startup_thread` is there. -/
  startupThread : Bool := false
  startupComplete : Bool := false
  startupOk : Bool := false
  startupResetAvailable : Bool := false
  /-- `worker_thread`, with the transport whose worker it runs. -/
  workerThread : Option TransportMode := none
  /-- Outcomes of the coming allocations of a thread. -/
  threads : List Bool := []
  device : Pin.Device
  /-- Observer: the preferences at the start, or those last reported to be stored. -/
  settled : RuntimeConfig
  /-- Observer: the preferences that were to be stored since then. -/
  unsettled : List RuntimeConfig := []

variable {Value : Type}

/-- A program of the device. -/
def onDevice (program : Program Pin.Device Value) : Program App Value := fun app ↦
  match program.run app.device with
  | .ok value device => .ok value { app with device }
  | .error reason device => .error reason { app with device }

theorem ensures_onDevice {program : Program Pin.Device Value} {post : Value → App → Prop}
    {crash : App → Prop} {app : App} :
    Ensures (onDevice program) post crash app ↔
      Ensures program (fun value device ↦ post value { app with device })
        (fun device ↦ crash { app with device }) app.device := by
  have hrun : (onDevice program).run app = match program.run app.device with
      | .ok value device => .ok value { app with device }
      | .error reason device => .error reason { app with device } := rfl
  unfold Ensures
  rw [hrun]
  cases program.run app.device <;> exact Iff.rfl

/-- Whether the next thread can be allocated. -/
def nextThread : Program App Bool :=
  modifyGet fun app ↦ (app.threads.headD true, { app with threads := app.threads.tail })

end State

section Configuration

variable (build : BuildOptions)

/-- `zf_runtime_config_apply`. -/
def runtimeConfigApply (config : RuntimeConfig) : Program App Unit :=
  modify fun app ↦
    let runtimeConfig := runtimeConfigForBuild build config
    { app with
      runtimeConfig
      capabilities :=
        some (runtimeConfigResolveAppCapabilities build runtimeConfig app.pinState.pinSet) }

/-- `zf_runtime_config_refresh_capabilities`. -/
def runtimeConfigRefreshCapabilities : Program App Unit :=
  modify fun app ↦ { app with
    capabilities :=
      some (runtimeConfigResolveAppCapabilities build app.runtimeConfig app.pinState.pinSet) }

/-- `zf_runtime_config_persist`, under the eyes of the observer. -/
def persistObserved (padding : Fin 3 → UInt8) (config : RuntimeConfig) : Program App Bool := do
  modify fun app ↦ { app with unsettled := app.unsettled ++ [config] }
  if !(← onDevice (runtimeConfigPersist build padding config)) then
    return false
  modify fun app ↦ { app with settled := config, unsettled := [] }
  return true

/-- The end of every setter: the changed preferences are stored and put in force. -/
def persistThenApply (padding : Fin 3 → UInt8) (config : RuntimeConfig) : Program App Bool := do
  if !(← persistObserved build padding config) then
    return false
  runtimeConfigApply build config
  return true

/-- `zf_runtime_config_set_auto_accept_requests`. -/
def runtimeConfigSetAutoAcceptRequests (padding : Fin 3 → UInt8) (enabled : Bool) :
    Program App Bool := do
  if !build.autoAcceptRequests then
    return false
  persistThenApply build padding
    { (← get).runtimeConfig with autoAcceptRequests := enabled }

/-- `zf_runtime_config_set_fido2_profile`. -/
def runtimeConfigSetFido2Profile (padding : Fin 3 → UInt8) (profile : Fido2Profile) :
    Program App Bool := do
  if !fido2ProfileIsValid profile.toByte then
    return false
  if !build.devFido21 && profile == .ctap21Experimental then
    return false
  if profile == .ctap21Experimental && !(← get).pinState.pinSet then
    return false
  persistThenApply build padding { (← get).runtimeConfig with fido2Profile := profile }

/-- `zf_attestation_mode_is_settable`. -/
def attestationModeIsSettable (mode : AttestationMode) : Bool :=
  if !attestationModeIsValid mode.toByte then false
  else if build.packedAttestation then true
  else mode == .none

/-- `zf_runtime_config_set_attestation_mode`. -/
def runtimeConfigSetAttestationMode (padding : Fin 3 → UInt8) (mode : AttestationMode) :
    Program App Bool := do
  if !attestationModeIsSettable build mode then
    return false
  persistThenApply build padding { (← get).runtimeConfig with attestationMode := mode }

end Configuration

section Lifecycle

variable (build : BuildOptions)

/-- `app->transport_adapter = zf_app_lifecycle_adapter_for_mode(…)`, which a build for one transport
does not have. -/
def App.withTransportAdapter (app : App) : App :=
  if build.usbOnly || build.nfcOnly then app
  else { app with transportAdapter := app.runtimeConfig.transportMode }

/-- `zf_app_lifecycle_load_runtime_config`. -/
def lifecycleLoadRuntimeConfig : Program App Unit := do
  let config ← onDevice (runtimeConfigLoad build)
  runtimeConfigApply build config
  modify (App.withTransportAdapter build)

/-- The transport whose worker the build starts. -/
def workerTransport (app : App) : TransportMode :=
  if build.usbOnly then .usbHid
  else if build.nfcOnly then .nfc
  else app.transportAdapter

/-- `fido2_enabled || u2f_enabled`. A record that is not resolved yet is zero. -/
def anyProtocolEnabled (app : App) : Bool :=
  (app.capabilities.map fun capabilities ↦
    capabilities.fido2Enabled || capabilities.u2fEnabled).getD false

/-- `zf_app_lifecycle_start_worker`. -/
def lifecycleStartWorker : Program App Bool := do
  if (← get).workerThread.isSome then
    return true
  if !(← nextThread) then
    return false
  modify fun app ↦ { app with workerThread := some (workerTransport build app) }
  return true

/-- `zf_app_lifecycle_stop_worker`. -/
def lifecycleStopWorker : Program App Unit := modify fun app ↦ { app with workerThread := none }

/-- `zf_app_lifecycle_startup_pending`. -/
def lifecycleStartupPending : Program App Bool := do
  let app ← get
  if app.startupThread && app.startupComplete then
    set { app with startupThread := false }
    if app.startupOk && app.running && app.workerThread.isNone && anyProtocolEnabled app then
      if !(← lifecycleStartWorker build) then
        modify fun app ↦ { app with startupOk := false }
    return false
  else
    return app.startupThread

/-- `zf_app_lifecycle_restart_transport`. -/
def lifecycleRestartTransport : Program App Bool := do
  if ← lifecycleStartupPending build then
    return false
  lifecycleStopWorker
  modify (App.withTransportAdapter build)
  if !anyProtocolEnabled (← get) then
    return true
  lifecycleStartWorker build

/-- Taking the transport back, in `zf_app_lifecycle_set_transport_mode`. -/
def restoreTransport (previousConfig : RuntimeConfig) : Program App Bool := do
  runtimeConfigApply build previousConfig
  let _ ← lifecycleRestartTransport build
  return false

/-- `zf_app_lifecycle_set_transport_mode`. -/
def lifecycleSetTransportMode (padding : Fin 3 → UInt8) (mode : TransportMode) :
    Program App Bool := do
  if build.usbOnly && mode != .usbHid then
    return false
  if !build.usbOnly && build.nfcOnly && mode != .nfc then
    return false
  let previousConfig := (← get).runtimeConfig
  if previousConfig.transportMode = mode then
    return true
  let nextConfig := { previousConfig with transportMode := mode }
  runtimeConfigApply build nextConfig
  if !(← lifecycleRestartTransport build) then
    restoreTransport build previousConfig
  else if !(← persistObserved build padding nextConfig) then
    restoreTransport build previousConfig
  else
    return true

/-- `zf_app_lifecycle_backend_status`: what is wrong after a startup. -/
def lifecycleBackendStatus (capabilities : ResolvedCapabilities)
    (storageStatus : Ctap.StorageInitStatus) (u2fReady : Bool) : Option String :=
  let transportUsable := capabilities.fido2Enabled || !capabilities.u2fEnabled || u2fReady
  if storageStatus = .ok ∧ transportUsable then none
  else if storageStatus = .invalidPinState then some "PIN state invalid"
  else if storageStatus ≠ .ok ∧ !u2fReady then some "Backend init failed"
  else some (if storageStatus = .ok then "U2F unavailable" else "Storage init failed")

/-- `zf_app_lifecycle_startup`, as far as settings, credentials and PIN are concerned. The
attestation and U2F keys, which are prepared last, have files of their own; `u2fAvailable` is what
that came to. -/
def lifecycleStartup (crypto : Crypto) (listings : StartupListings) (u2fAvailable : Bool) :
    Program App Bool := do
  lifecycleLoadRuntimeConfig build
  let (storageStatus, store, pinState) ← onDevice (Ctap.lifecycleInitStorage crypto listings)
  modify fun app ↦ { app with store, pinState }
  if storageStatus = .ok then
    runtimeConfigRefreshCapabilities build
  let capabilities := runtimeGetEffectiveCapabilities build (← get).capabilities
  let u2fReady := !capabilities.u2fEnabled || u2fAvailable
  match lifecycleBackendStatus capabilities storageStatus u2fReady with
  | none => return true
  | some _ =>
    modify fun app ↦ { app with startupResetAvailable := storageStatus = .invalidPinState }
    return false

/-- `zf_app_lifecycle_startup_worker`. -/
def lifecycleStartupWorker (crypto : Crypto) (listings : StartupListings) (u2fAvailable : Bool) :
    Program App Unit := do
  let ok ← lifecycleStartup build crypto listings u2fAvailable
  modify fun app ↦ { app with startupOk := ok, startupComplete := true }

/-- `zf_app_lifecycle_alloc`. -/
def lifecycleAlloc (device : Pin.Device) (threads : List Bool) (settled : RuntimeConfig)
    (unsettled : List RuntimeConfig) : App :=
  let runtimeConfig := runtimeConfigForBuild build (runtimeConfigLoadDefaults build)
  { runtimeConfig
    capabilities := some (runtimeConfigResolveAppCapabilities build runtimeConfig false)
    transportAdapter := runtimeConfig.transportMode
    threads, device, settled, unsettled }

/-- `zf_app_lifecycle_startup_async`. -/
def lifecycleStartupAsync : Program App Bool := do
  modify fun app ↦ { app with startupComplete := false, startupOk := false }
  if !(← nextThread) then
    modify fun app ↦ { app with startupOk := false, startupComplete := true }
    return false
  modify fun app ↦ { app with startupThread := true }
  return true

/-- `zf_app_lifecycle_open`, and the start of the startup thread by `zerofido_main`. The observer
takes down what the application starts from. -/
def lifecycleOpen : Program App Unit := do
  lifecycleLoadRuntimeConfig build
  modify fun app ↦ { app with settled := app.runtimeConfig, unsettled := [] }
  let _ ← lifecycleStartupAsync

end Lifecycle

section Menu

variable (build : BuildOptions)

/-- The entries of the settings menu that change a setting. -/
inductive SettingsItem where
  | transport
  | autoAcceptRequests
  | fido2Profile
  | attestation
  deriving DecidableEq, Repr

/-- Whether a build has the entry. -/
def hasSettingsItem : SettingsItem → Bool
  | .transport => !build.usbOnly && !build.nfcOnly
  | .autoAcceptRequests => build.autoAcceptRequests
  | .fido2Profile => build.devFido21
  | .attestation => build.packedAttestation

/-- `zerofido_settings_menu_callback` for these entries: each turns its setting over. The result
says whether the menu reports success. -/
def settingsMenuCallback (padding : Fin 3 → UInt8) (item : SettingsItem) : Program App Bool := do
  if ← lifecycleStartupPending build then
    return false
  if !hasSettingsItem build item then
    return false
  let runtimeConfig := (← get).runtimeConfig
  match item with
  | .transport =>
    lifecycleSetTransportMode build padding
      (if runtimeConfig.transportMode = .usbHid then .nfc else .usbHid)
  | .autoAcceptRequests =>
    runtimeConfigSetAutoAcceptRequests build padding (!runtimeConfig.autoAcceptRequests)
  | .fido2Profile =>
    runtimeConfigSetFido2Profile build padding
      (if runtimeConfig.fido2Profile = .ctap21Experimental then .ctap20 else .ctap21Experimental)
  | .attestation =>
    runtimeConfigSetAttestationMode build padding
      (if runtimeConfig.attestationMode = .packed then .none else .packed)

end Menu

section PinChanges

variable (build : BuildOptions) (crypto : Crypto)

/-- `zerofido_pin_handle_command_with_session`: the command on a copy of the PIN state, and the
capabilities again when it succeeded and set or removed the PIN. -/
def pinHandleCommandWithSession (data : Bytes) (consent : Pin.ConsentOutcome)
    (delay outCapacity : ℕ) : Program App CtapStatus := do
  let state := (← get).pinState
  let capabilities := runtimeGetEffectiveCapabilities build (← get).capabilities
  let result ← onDevice (Pin.pinHandleCommand crypto state capabilities.pin data consent
    (Pin.waitFor delay) outCapacity)
  modify fun app ↦ { app with pinState := result.state }
  if result.status = .success ∧ state.pinSet ≠ result.state.pinSet then
    runtimeConfigRefreshCapabilities build
  return result.status

/-- The PIN dialogs of the user interface (`zerofido_pin_input_result_callback`): an operation on
the PIN state, followed by `zerofido_finish_pin_update` when it succeeded. -/
def updatePin
    (operation : Pin.ClientPinState → Program Pin.Device (CtapStatus × Pin.ClientPinState)) :
    Program App CtapStatus := do
  let (status, pinState) ← onDevice (operation (← get).pinState)
  modify fun app ↦ { app with pinState }
  if status = .success then
    runtimeConfigRefreshCapabilities build
  return status

/-- `ZfPinInputSetConfirm`. -/
def setPin (newPin : Bytes) : Program App CtapStatus :=
  updatePin build fun state ↦ Pin.pinSetPlaintext crypto state newPin

/-- `ZfPinInputChangeConfirm`. -/
def changePin (current newPin : Bytes) : Program App CtapStatus :=
  updatePin build fun state ↦ do
    let (status, state) ← Pin.pinVerifyPlaintext crypto state current
    if status ≠ .success then
      return (status, state)
    Pin.pinReplacePlaintext crypto state newPin

/-- `ZfPinConfirmActionRemove`. -/
def removePin (current : Bytes) : Program App CtapStatus :=
  updatePin build fun state ↦ do
    let (status, state) ← Pin.pinVerifyPlaintext crypto state current
    if status ≠ .success then
      return (status, state)
    let (cleared, state) ← Pin.pinClear crypto state
    return (if cleared then .success else .other, state)

/-- The part of `zf_ctap_handle_reset` that concerns the settings. -/
def resetAppData (listing : Listing) : Program App CtapStatus := do
  if !(← onDevice (Ctap.wipeFiles listing)) then
    return .other
  let (pinInit, nextPinState) ← onDevice (Pin.pinInitWithResult crypto)
  modify fun app ↦ { app with
    store := []
    pinState := if pinInit = .ok then nextPinState else {} }
  runtimeConfigRefreshCapabilities build
  return if pinInit = .ok then .success else .other

/-- `ZfPinConfirmActionResetAppData`, offered when a startup met an invalid PIN state. -/
def startupReset (listing : Listing) : Program App Bool := do
  if !(← onDevice (bootstrapWipeAppData listing)) then
    return false
  modify fun app ↦ { app with store := [], pinState := {} }
  runtimeConfigRefreshCapabilities build
  modify fun app ↦ { app with startupResetAvailable := false }
  return true

end PinChanges

end ZeroFido.Settings
