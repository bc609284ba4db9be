import ZeroFido.RuntimeConfig
import ZeroFido.Ctap.Dispatch
import ZeroFido.Ctap.Response
import ZeroFido.Nfc.Dispatch
import ZeroFido.Pin.ClientPin

/-!
# The capabilities in force

`zerofido_runtime_config.c`, the part that turns the preferences into what the device does. The
preferences are one input; the build and the PIN are the others, so CTAP 2.1 is in force only in a
developer build, when the user chose it, and while a PIN exists (`UsesFido21`).

The other modules read parts of the resolved record; `ResolvedCapabilities.pin`, `.ctap`, `.info`
and `.nfc` are these parts.
-/

set_option autoImplicit false
set_option relaxedAutoImplicit false

namespace ZeroFido.Settings

section Resolution

/-- `ZfResolvedCapabilities`. -/
structure ResolvedCapabilities where
  usbHidEnabled : Bool
  nfcEnabled : Bool
  fido2Enabled : Bool
  u2fEnabled : Bool
  clientPinEnabled : Bool
  selectionEnabled : Bool
  transportKeepaliveEnabled : Bool
  transportCancelEnabled : Bool
  transportWinkEnabled : Bool
  fido2Profile : Fido2Profile
  advertiseFido21 : Bool
  advertiseFido20 : Bool
  advertiseU2fV2 : Bool
  pinUvAuthTokenEnabled : Bool
  pinUvAuthProtocol2Enabled : Bool
  clientPinTokenRequiresConsent : Bool
  makeCredUvNotRequired : Bool
  advertiseUsbTransport : Bool
  advertiseNfcTransport : Bool
  autoAcceptRequests : Bool
  attestationMode : AttestationMode
  deriving DecidableEq, Repr

variable (build : BuildOptions) (config : RuntimeConfig)

/-- `usb_hid_enabled`, as the build and the preferences decide it. -/
def resolvesUsbHid : Bool :=
  if build.usbOnly then true
  else if build.nfcOnly then false
  else config.transportMode == .usbHid

/-- `nfc_enabled`. -/
def resolvesNfc : Bool :=
  if build.usbOnly then false
  else if build.nfcOnly then true
  else config.transportMode == .nfc

/-- `advertise_fido_2_1`. A build without the profile clears it once more. -/
def resolvesFido21 : Bool :=
  if build.devFido21 then fido2ProfileForBuild build config.fido2Profile == .ctap21Experimental
  else false

/-- `zf_runtime_config_resolve_capabilities`. -/
def runtimeConfigResolveCapabilities : ResolvedCapabilities where
  usbHidEnabled := resolvesUsbHid build config
  nfcEnabled := resolvesNfc build config
  fido2Enabled := true
  u2fEnabled := config.u2fEnabled
  clientPinEnabled := true
  transportKeepaliveEnabled := resolvesUsbHid build config
  transportCancelEnabled := resolvesUsbHid build config
  transportWinkEnabled := resolvesUsbHid build config && config.u2fEnabled
  fido2Profile := fido2ProfileForBuild build config.fido2Profile
  advertiseFido21 := resolvesFido21 build config
  advertiseFido20 := true
  advertiseU2fV2 := config.u2fEnabled
  pinUvAuthTokenEnabled := resolvesFido21 build config
  pinUvAuthProtocol2Enabled := resolvesFido21 build config
  selectionEnabled := true && resolvesFido21 build config
  clientPinTokenRequiresConsent := resolvesFido21 build config
  makeCredUvNotRequired := resolvesFido21 build config
  advertiseUsbTransport := resolvesUsbHid build config
  advertiseNfcTransport := resolvesNfc build config
  autoAcceptRequests := build.autoAcceptRequests && config.autoAcceptRequests
  attestationMode := attestationModeForBuild build config.attestationMode

/-- What `zf_runtime_config_apply` stores: the preferences, with what the build does not have taken
out. -/
def runtimeConfigForBuild : RuntimeConfig :=
  { config with
    autoAcceptRequests := if build.autoAcceptRequests then config.autoAcceptRequests else false
    fido2Profile := fido2ProfileForBuild build config.fido2Profile
    attestationMode := attestationModeForBuild build config.attestationMode }

/-- `effective_config` of `zf_runtime_config_resolve_app_capabilities`. -/
def effectiveConfig (pinSet : Bool) : RuntimeConfig :=
  let config := { config with
    autoAcceptRequests := if build.autoAcceptRequests then config.autoAcceptRequests else false
    fido2Profile := fido2ProfileForBuild build config.fido2Profile }
  if config.fido2Profile = .ctap21Experimental ∧ !pinSet then
    { config with fido2Profile := .ctap20 }
  else
    config

/-- `zf_runtime_config_resolve_app_capabilities`, as a function of what it reads. -/
def runtimeConfigResolveAppCapabilities (pinSet : Bool) : ResolvedCapabilities :=
  runtimeConfigResolveCapabilities build (effectiveConfig build config pinSet)

/-- `zf_runtime_get_effective_capabilities`: the resolved record, or none so far. -/
def runtimeGetEffectiveCapabilities (resolved : Option ResolvedCapabilities) :
    ResolvedCapabilities :=
  resolved.getD (runtimeConfigResolveCapabilities build (runtimeConfigLoadDefaults build))

end Resolution

section Commands

/-- `zf_runtime_ctap_command_enabled`. -/
def ResolvedCapabilities.ctapCommandEnabled (capabilities : ResolvedCapabilities) (cmd : UInt8) :
    Bool :=
  if cmd = 0x04 ∨ cmd = 0x01 ∨ cmd = 0x02 ∨ cmd = 0x07 ∨ cmd = 0x08 then capabilities.fido2Enabled
  else if cmd = 0x06 then capabilities.clientPinEnabled
  else if cmd = 0x0B then capabilities.selectionEnabled
  else false

/-- What clientPIN reads. -/
def ResolvedCapabilities.pin (capabilities : ResolvedCapabilities) : Pin.Capabilities where
  pinUvAuthProtocol2Enabled := capabilities.pinUvAuthProtocol2Enabled
  clientPinTokenRequiresConsent := capabilities.clientPinTokenRequiresConsent
  pinUvAuthTokenEnabled := capabilities.pinUvAuthTokenEnabled

/-- What the commands on credentials read. -/
def ResolvedCapabilities.ctap (capabilities : ResolvedCapabilities) : Ctap.Capabilities where
  pinUvAuthProtocol2Enabled := capabilities.pinUvAuthProtocol2Enabled
  advertiseFido21 := capabilities.advertiseFido21
  autoAcceptRequests := capabilities.autoAcceptRequests

/-- What getInfo reads. -/
def ResolvedCapabilities.info (capabilities : ResolvedCapabilities) : Ctap.InfoCapabilities where
  advertiseFido21 := capabilities.advertiseFido21
  advertiseU2fV2 := capabilities.advertiseU2fV2
  pinUvAuthTokenEnabled := capabilities.pinUvAuthTokenEnabled
  pinUvAuthProtocol2Enabled := capabilities.pinUvAuthProtocol2Enabled
  makeCredUvNotRequired := capabilities.makeCredUvNotRequired
  advertiseUsbTransport := capabilities.advertiseUsbTransport
  advertiseNfcTransport := capabilities.advertiseNfcTransport

/-- What the NFC dispatcher reads. -/
def ResolvedCapabilities.nfc (capabilities : ResolvedCapabilities) : Nfc.NfcCapabilities where
  fido2Enabled := capabilities.fido2Enabled
  u2fEnabled := capabilities.u2fEnabled

end Commands

section Facts

variable {build : BuildOptions} {config : RuntimeConfig} {pinSet : Bool}

/-- CTAP 2.1 is in use: the build has it, the user chose it, and a PIN is set. -/
def UsesFido21 (build : BuildOptions) (config : RuntimeConfig) (pinSet : Bool) : Prop :=
  build.devFido21 = true ∧ config.fido2Profile = .ctap21Experimental ∧ pinSet = true

/-- The build is for both transports or for one of them. -/
def OneBuild (build : BuildOptions) : Prop := ¬(build.usbOnly = true ∧ build.nfcOnly = true)

/-- Preferences that say nothing the build would take out. -/
structure FitsBuild (build : BuildOptions) (config : RuntimeConfig) : Prop where
  transport : config.Valid build
  fido2Enabled : config.fido2Enabled = true
  u2fEnabled : config.u2fEnabled = true
  autoAcceptRequests : config.autoAcceptRequests = true → build.autoAcceptRequests = true
  fido2Profile : fido2ProfileForBuild build config.fido2Profile = config.fido2Profile
  attestationMode : attestationModeForBuild build config.attestationMode = config.attestationMode

theorem fido2ProfileForBuild_idem (profile : Fido2Profile) :
    fido2ProfileForBuild build (fido2ProfileForBuild build profile) =
      fido2ProfileForBuild build profile := by
  unfold fido2ProfileForBuild
  split_ifs <;> rfl

theorem attestationModeForBuild_idem (mode : AttestationMode) :
    attestationModeForBuild build (attestationModeForBuild build mode) =
      attestationModeForBuild build mode := by
  unfold attestationModeForBuild
  split_ifs <;> rfl

theorem fitsBuild_runtimeConfigForBuild (htransport : config.Valid build)
    (hfido2 : config.fido2Enabled = true) (hu2f : config.u2fEnabled = true) :
    FitsBuild build (runtimeConfigForBuild build config) where
  transport := htransport
  fido2Enabled := hfido2
  u2fEnabled := hu2f
  autoAcceptRequests := by
    simp only [runtimeConfigForBuild]
    split_ifs with hauto
    · exact fun _ ↦ hauto
    · simp
  fido2Profile := fido2ProfileForBuild_idem _
  attestationMode := attestationModeForBuild_idem _

theorem FitsBuild.forBuild (h : FitsBuild build config) :
    runtimeConfigForBuild build config = config := by
  have hauto : (if build.autoAcceptRequests then config.autoAcceptRequests else false) =
      config.autoAcceptRequests := by
    split_ifs with hbuild
    · rfl
    · exact (Bool.eq_false_iff.mpr fun htrue ↦ hbuild (h.autoAcceptRequests htrue)).symm
  rw [runtimeConfigForBuild, hauto, h.fido2Profile, h.attestationMode]

theorem resolvesFido21_effectiveConfig :
    resolvesFido21 build (effectiveConfig build config pinSet) = true ↔
      UsesFido21 build config pinSet := by
  obtain ⟨transport, fido2, profile, u2f, u2fProfile, auto, attestation⟩ := config
  cases hdev : build.devFido21 <;> cases profile <;> cases pinSet <;>
    simp [resolvesFido21, effectiveConfig, UsesFido21, fido2ProfileForBuild, hdev]

/-- The preferences that do not depend on the PIN. -/
theorem effectiveConfig_fields :
    (effectiveConfig build config pinSet).transportMode = config.transportMode ∧
      (effectiveConfig build config pinSet).u2fEnabled = config.u2fEnabled ∧
      (effectiveConfig build config pinSet).attestationMode = config.attestationMode ∧
      (effectiveConfig build config pinSet).autoAcceptRequests =
        if build.autoAcceptRequests then config.autoAcceptRequests else false := by
  unfold effectiveConfig
  dsimp only
  split_ifs <;> exact ⟨rfl, rfl, rfl, rfl⟩

/-- The transport of preferences that fit a build is the one that is enabled. -/
theorem resolvesUsbHid_iff (hvalid : config.Valid build) (hone : OneBuild build) :
    resolvesUsbHid build config = true ↔ config.transportMode = .usbHid := by
  obtain ⟨transport, fido2, profile, u2f, u2fProfile, auto, attestation⟩ := config
  cases husb : build.usbOnly <;> cases hnfc : build.nfcOnly <;> cases transport <;>
    simp_all [resolvesUsbHid, RuntimeConfig.Valid, transportModeIsValid, OneBuild,
      TransportMode.toByte]

theorem resolvesNfc_iff (hvalid : config.Valid build) (hone : OneBuild build) :
    resolvesNfc build config = true ↔ config.transportMode = .nfc := by
  obtain ⟨transport, fido2, profile, u2f, u2fProfile, auto, attestation⟩ := config
  cases husb : build.usbOnly <;> cases hnfc : build.nfcOnly <;> cases transport <;>
    simp_all [resolvesNfc, RuntimeConfig.Valid, transportModeIsValid, OneBuild,
      TransportMode.toByte]

end Facts

end ZeroFido.Settings
