import ZeroFido.Storage.AtomicFile

/-!
# The runtime configuration

`zerofido_runtime_config.c`: the persisted preferences, the versioned record they are stored in, and
the functions that load and persist them. A build fixes which transports it has and which features
it leaves to the preferences; its switches are the fields of `BuildOptions`.

The loader fills the result while it checks the record. `recordedConfig` is what a record that
passes all checks of its version says, `FailsLate` names the records of which a part is kept
although a later check fails, and `allOrNothing_runtimeConfigOf_iff` says that these are the only
ones.
-/

set_option autoImplicit false
set_option relaxedAutoImplicit false

namespace ZeroFido

open Foundations Storage

section Values

/-- The compile-time switches the configuration depends on. -/
structure BuildOptions where
  /-- `ZF_USB_ONLY` -/
  usbOnly : Bool := false
  /-- `ZF_NFC_ONLY` -/
  nfcOnly : Bool := false
  /-- `ZF_DEV_FIDO2_1` -/
  devFido21 : Bool := false
  /-- `ZF_PACKED_ATTESTATION` -/
  packedAttestation : Bool := false
  /-- `ZF_AUTO_ACCEPT_REQUESTS` -/
  autoAcceptRequests : Bool := false
  deriving DecidableEq, Repr

/-- `ZfTransportMode`. -/
inductive TransportMode where
  | usbHid
  | nfc
  deriving DecidableEq, Repr

/-- `ZfFido2Profile`. -/
inductive Fido2Profile where
  | ctap20
  | ctap21Experimental
  deriving DecidableEq, Repr

/-- `ZfU2fProfile`. -/
inductive U2fProfile where
  | current
  deriving DecidableEq, Repr

/-- `ZfAttestationMode`. -/
inductive AttestationMode where
  | packed
  | none
  deriving DecidableEq, Repr

def TransportMode.toByte : TransportMode → UInt8
  | .usbHid => 0
  | .nfc => 1

/-- The cast of a byte that passed `transportModeIsValid`. -/
def TransportMode.ofByte (mode : UInt8) : TransportMode := if mode = 0 then .usbHid else .nfc

def Fido2Profile.toByte : Fido2Profile → UInt8
  | .ctap20 => 0
  | .ctap21Experimental => 1

/-- The cast of a byte that passed `fido2ProfileIsValid`. -/
def Fido2Profile.ofByte (profile : UInt8) : Fido2Profile :=
  if profile = 0 then .ctap20 else .ctap21Experimental

def AttestationMode.toByte : AttestationMode → UInt8
  | .packed => 0
  | .none => 1

/-- The cast of a byte that passed `attestationModeIsValid`. -/
def AttestationMode.ofByte (mode : UInt8) : AttestationMode := if mode = 0 then .packed else .none

/-- `ZfRuntimeConfig`. -/
structure RuntimeConfig where
  transportMode : TransportMode
  fido2Enabled : Bool
  fido2Profile : Fido2Profile
  u2fEnabled : Bool
  u2fProfile : U2fProfile
  autoAcceptRequests : Bool
  attestationMode : AttestationMode
  deriving DecidableEq, Repr

variable (build : BuildOptions)

/-- `zf_transport_mode_is_valid`. -/
def transportModeIsValid (mode : UInt8) : Bool :=
  if build.usbOnly then
    mode == TransportMode.usbHid.toByte
  else if build.nfcOnly then
    mode == TransportMode.nfc.toByte
  else
    mode == TransportMode.usbHid.toByte || mode == TransportMode.nfc.toByte

/-- `zf_runtime_config_default_transport_mode`. -/
def runtimeConfigDefaultTransportMode : TransportMode :=
  if build.nfcOnly then .nfc else .usbHid

/-- `zf_fido2_profile_is_valid`. -/
def fido2ProfileIsValid (profile : UInt8) : Bool :=
  profile == Fido2Profile.ctap20.toByte || profile == Fido2Profile.ctap21Experimental.toByte

/-- `zf_fido2_profile_for_build`. -/
def fido2ProfileForBuild (profile : Fido2Profile) : Fido2Profile :=
  if build.devFido21 then profile else .ctap20

/-- `zf_attestation_mode_is_valid`. -/
def attestationModeIsValid (mode : UInt8) : Bool :=
  mode == AttestationMode.packed.toByte || mode == AttestationMode.none.toByte

/-- `zf_attestation_mode_for_build`. -/
def attestationModeForBuild (mode : AttestationMode) : AttestationMode :=
  if build.packedAttestation then mode else .none

/-- `zf_runtime_config_load_defaults`. -/
def runtimeConfigLoadDefaults : RuntimeConfig where
  transportMode := runtimeConfigDefaultTransportMode build
  fido2Enabled := true
  fido2Profile := .ctap20
  u2fEnabled := true
  u2fProfile := .current
  autoAcceptRequests := false
  attestationMode := .none

end Values

section Format

def runtimeConfigFilePath : Path := appDataDir ++ "/runtime_config.bin".toList
def runtimeConfigFileTempPath : Path := appDataDir ++ "/runtime_config.tmp".toList
def runtimeConfigFileMagic : ℕ := 0x5A465243
def runtimeConfigFileVersion : UInt8 := 4
def runtimeConfigFileVersion3Size : ℕ := 8
def runtimeConfigFlagAutoAcceptRequests : UInt8 := 0x01
def runtimeConfigFlagFido2Enabled : UInt8 := 0x02

/-- `ZfRuntimeConfigFileRecord`. -/
structure RuntimeConfigFileRecord where
  magic : ℕ
  version : UInt8
  flags : UInt8
  transportMode : UInt8
  fido2Profile : UInt8
  attestationMode : UInt8
  deriving DecidableEq, Repr

/-- `sizeof(ZfRuntimeConfigFileRecord)`: nine bytes, rounded up to the alignment of `magic`. -/
def runtimeConfigFileRecordSize : ℕ := 12

/-- The record as it lies in memory, with whatever the three bytes after its last member hold. -/
def RuntimeConfigFileRecord.encode (record : RuntimeConfigFileRecord) (padding : Fin 3 → UInt8) :
    Bytes :=
  toLittleEndian 4 record.magic ++ [record.version, record.flags, record.transportMode,
    record.fido2Profile, record.attestationMode] ++ List.ofFn padding

/-- A zeroed record of which the first bytes were read from a file. -/
def RuntimeConfigFileRecord.decode (raw : Bytes) : RuntimeConfigFileRecord where
  magic := ofLittleEndian (raw.take 4)
  version := raw.getD 4 0
  flags := raw.getD 5 0
  transportMode := raw.getD 6 0
  fido2Profile := raw.getD 7 0
  attestationMode := raw.getD 8 0

theorem RuntimeConfigFileRecord.decode_encode (record : RuntimeConfigFileRecord)
    (hmagic : record.magic < 2 ^ 32) (padding : Fin 3 → UInt8) :
    decode (record.encode padding) = record := by
  obtain ⟨magic, version, flags, transport, profile, attestation⟩ := record
  have hmagic' : ofLittleEndian ((encode ⟨magic, version, flags, transport, profile, attestation⟩
      padding).take 4) = magic := by
    rw [encode, List.append_assoc, List.take_left' (length_toLittleEndian 4 magic)]
    exact ofLittleEndian_toLittleEndian 4 magic hmagic
  rw [decode, hmagic']
  simp [encode, toLittleEndian]

@[simp]
theorem RuntimeConfigFileRecord.length_encode (record : RuntimeConfigFileRecord)
    (padding : Fin 3 → UInt8) :
    (record.encode padding).length = runtimeConfigFileRecordSize := by
  simp [encode, runtimeConfigFileRecordSize]

end Format

section Operations

variable (build : BuildOptions)

/-- The end of `zf_runtime_config_load`, for a record that no check has refused: the fields that
depend on the build are brought in line with it. -/
def runtimeConfigFinish (record : RuntimeConfigFileRecord) (config : RuntimeConfig) :
    RuntimeConfig :=
  { config with
    fido2Profile := fido2ProfileForBuild build config.fido2Profile
    attestationMode := attestationModeForBuild build config.attestationMode
    autoAcceptRequests := build.autoAcceptRequests &&
      (record.flags &&& runtimeConfigFlagAutoAcceptRequests) != 0
    fido2Enabled := true }

/-- What `zf_runtime_config_load` makes of a record of `size` bytes. `config` is the result so far;
every branch without `runtimeConfigFinish` is a `return`. -/
def runtimeConfigFill (size : ℕ) (record : RuntimeConfigFileRecord) (config : RuntimeConfig) :
    RuntimeConfig :=
  if size ≠ runtimeConfigFileVersion3Size ∧ size ≠ runtimeConfigFileRecordSize then
    config
  else if record.magic ≠ runtimeConfigFileMagic then
    config
  else if record.flags &&&
      ~~~(runtimeConfigFlagAutoAcceptRequests ||| runtimeConfigFlagFido2Enabled) ≠ 0 then
    config
  else if record.version = 1 then
    runtimeConfigFinish build record { config with
      transportMode := runtimeConfigDefaultTransportMode build
      fido2Profile := .ctap20
      attestationMode := .none }
  else if record.version = 2 then
    if !transportModeIsValid build record.transportMode then
      config
    else
      let config := { config with transportMode := .ofByte record.transportMode }
      if record.fido2Profile ≠ 0 then
        config
      else
        runtimeConfigFinish build record { config with
          fido2Profile := .ctap20
          attestationMode := .none }
  else if record.version = 3 ∨ record.version = runtimeConfigFileVersion then
    if !transportModeIsValid build record.transportMode ||
        !fido2ProfileIsValid record.fido2Profile then
      config
    else
      let config := { config with
        transportMode := .ofByte record.transportMode
        fido2Profile := .ofByte record.fido2Profile }
      if record.version = runtimeConfigFileVersion then
        if size ≠ runtimeConfigFileRecordSize ∨
            !attestationModeIsValid record.attestationMode then
          config
        else
          runtimeConfigFinish build record { config with
            attestationMode := .ofByte record.attestationMode }
      else
        runtimeConfigFinish build record { config with attestationMode := .none }
  else
    config

/-- What `zf_runtime_config_load` makes of the bytes it read. -/
def runtimeConfigOf (raw : Bytes) : RuntimeConfig :=
  runtimeConfigFill build raw.length (.decode raw) (runtimeConfigLoadDefaults build)

variable {Event : Type}

/-- `zf_runtime_config_load`. -/
def runtimeConfigLoad : Program (World Event) RuntimeConfig := do
  let _ ← recoverAtomicFile runtimeConfigFilePath runtimeConfigFileTempPath
  match ← readFile runtimeConfigFilePath runtimeConfigFileRecordSize with
  | none => return runtimeConfigLoadDefaults build
  | some raw => return runtimeConfigOf build raw

/-- The record `zf_runtime_config_persist` writes. -/
def runtimeConfigRecordOf (config : RuntimeConfig) : RuntimeConfigFileRecord where
  magic := runtimeConfigFileMagic
  version := runtimeConfigFileVersion
  flags := (if build.autoAcceptRequests && config.autoAcceptRequests then
    runtimeConfigFlagAutoAcceptRequests else 0) ||| runtimeConfigFlagFido2Enabled
  transportMode := config.transportMode.toByte
  fido2Profile := (fido2ProfileForBuild build config.fido2Profile).toByte
  attestationMode := (attestationModeForBuild build config.attestationMode).toByte

/-- `zf_runtime_config_persist`. -/
def runtimeConfigPersist (padding : Fin 3 → UInt8) (config : RuntimeConfig) :
    Program (World Event) Bool := do
  if !fido2ProfileIsValid config.fido2Profile.toByte ||
      !attestationModeIsValid config.attestationMode.toByte then
    return false
  if !(← ensureAppDataDir) then
    return false
  writeFileAtomic runtimeConfigFilePath runtimeConfigFileTempPath
    ((runtimeConfigRecordOf build config).encode padding)

end Operations

section AllOrNothing

variable (build : BuildOptions) {raw : Bytes}

/-- The checks that a record of any version has to pass. -/
structure HeaderAccepted (raw : Bytes) : Prop where
  size : raw.length = runtimeConfigFileVersion3Size ∨ raw.length = runtimeConfigFileRecordSize
  magic : (RuntimeConfigFileRecord.decode raw).magic = runtimeConfigFileMagic
  flags : (RuntimeConfigFileRecord.decode raw).flags &&&
    ~~~(runtimeConfigFlagAutoAcceptRequests ||| runtimeConfigFlagFido2Enabled) = 0

/-- The checks that a record of a given version has to pass. -/
def VersionAccepted (size : ℕ) (record : RuntimeConfigFileRecord) : Prop :=
  record.version = 1 ∨
    record.version = 2 ∧ transportModeIsValid build record.transportMode = true ∧
      record.fido2Profile = 0 ∨
    record.version = 3 ∧ transportModeIsValid build record.transportMode = true ∧
      fido2ProfileIsValid record.fido2Profile = true ∨
    record.version = 4 ∧ transportModeIsValid build record.transportMode = true ∧
      fido2ProfileIsValid record.fido2Profile = true ∧ size = runtimeConfigFileRecordSize ∧
      attestationModeIsValid record.attestationMode = true

/-- A record that passes all checks of its version. -/
def RecordAccepted (raw : Bytes) : Prop :=
  HeaderAccepted raw ∧ VersionAccepted build raw.length (.decode raw)

/-- What a record says. The fields its version does not have are filled in, and the build decides
about the fields it does not leave to the preferences. -/
def recordedConfig (record : RuntimeConfigFileRecord) : RuntimeConfig where
  transportMode := if record.version = 1 then runtimeConfigDefaultTransportMode build else
    .ofByte record.transportMode
  fido2Enabled := true
  fido2Profile := fido2ProfileForBuild build
    (if record.version = 1 then .ctap20 else .ofByte record.fido2Profile)
  u2fEnabled := true
  u2fProfile := .current
  autoAcceptRequests := build.autoAcceptRequests &&
    (record.flags &&& runtimeConfigFlagAutoAcceptRequests) != 0
  attestationMode := attestationModeForBuild build
    (if record.version = 4 then .ofByte record.attestationMode else .none)

/-- A configuration that is the record's if the record passes its checks, and the defaults
otherwise. -/
def AllOrNothing (raw : Bytes) (config : RuntimeConfig) : Prop :=
  (RecordAccepted build raw → config = recordedConfig build (.decode raw)) ∧
    (¬RecordAccepted build raw → config = runtimeConfigLoadDefaults build)

/-- A record whose transport mode, or transport mode and profile, were taken over before a later
member was refused, and differ from the defaults. -/
def FailsLate (size : ℕ) (record : RuntimeConfigFileRecord) : Prop :=
  transportModeIsValid build record.transportMode = true ∧
    (record.version = 2 ∧ record.fido2Profile ≠ 0 ∧
        .ofByte record.transportMode ≠ runtimeConfigDefaultTransportMode build ∨
      record.version = 4 ∧ fido2ProfileIsValid record.fido2Profile = true ∧
        (size ≠ runtimeConfigFileRecordSize ∨
          attestationModeIsValid record.attestationMode = false) ∧
        (.ofByte record.transportMode ≠ runtimeConfigDefaultTransportMode build ∨
          record.fido2Profile ≠ 0))

variable {build}

/-- A record that a check of the header refuses changes nothing. -/
theorem runtimeConfigFill_refused (hheader : ¬HeaderAccepted raw) (config : RuntimeConfig) :
    runtimeConfigFill build raw.length (.decode raw) config = config := by
  unfold runtimeConfigFill
  split_ifs with hsize hmagic hflags
  · rfl
  · rfl
  · rfl
  all_goals
    refine absurd ⟨?_, not_not.mp hmagic, not_not.mp hflags⟩ hheader
    by_contra hother
    exact hsize (not_or.mp hother)

/-- A record that passes all checks is taken over as it is. -/
theorem runtimeConfigOf_accepted (haccepted : RecordAccepted build raw) :
    runtimeConfigOf build raw = recordedConfig build (.decode raw) := by
  obtain ⟨⟨hsize, hmagic, hflags⟩, hversion⟩ := haccepted
  have hsize' : ¬(raw.length ≠ runtimeConfigFileVersion3Size ∧
      raw.length ≠ runtimeConfigFileRecordSize) := fun hother ↦ not_or.mpr hother hsize
  rw [runtimeConfigOf, runtimeConfigFill, if_neg hsize', if_neg (not_not.mpr hmagic),
    if_neg (not_not.mpr hflags)]
  rcases hversion with hversion | ⟨hversion, htransport, hprofile⟩ |
    ⟨hversion, htransport, hprofile⟩ | ⟨hversion, htransport, hprofile, hlength, hattestation⟩
  · simp [hversion, runtimeConfigFinish, recordedConfig, runtimeConfigLoadDefaults]
  · simp [hversion, htransport, hprofile, runtimeConfigFinish, recordedConfig,
      runtimeConfigLoadDefaults, Fido2Profile.ofByte]
  · simp [hversion, htransport, hprofile, runtimeConfigFinish, recordedConfig,
      runtimeConfigLoadDefaults, runtimeConfigFileVersion]
  · simp [hversion, htransport, hprofile, hlength, hattestation, runtimeConfigFinish,
      recordedConfig, runtimeConfigLoadDefaults, runtimeConfigFileVersion]

theorem not_failsLate_of_accepted (haccepted : RecordAccepted build raw) :
    ¬FailsLate build raw.length (.decode raw) := by
  rintro ⟨-, ⟨htwo, hprofile, -⟩ | ⟨hfour, -, hlate, -⟩⟩
  · rcases haccepted.2 with h | ⟨-, -, h⟩ | ⟨h, -⟩ | ⟨h, -⟩
    · rw [htwo] at h
      exact absurd h (by decide)
    · exact hprofile h
    · rw [htwo] at h
      exact absurd h (by decide)
    · rw [htwo] at h
      exact absurd h (by decide)
  · rcases haccepted.2 with h | ⟨h, -⟩ | ⟨h, -⟩ | ⟨-, -, -, hsize, hattestation⟩
    · rw [hfour] at h
      exact absurd h (by decide)
    · rw [hfour] at h
      exact absurd h (by decide)
    · rw [hfour] at h
      exact absurd h (by decide)
    · rcases hlate with hlate | hlate
      · exact hlate hsize
      · rw [hattestation] at hlate
        exact absurd hlate (by decide)

/-- What a refused record leaves behind. -/
theorem runtimeConfigOf_refused (hheader : HeaderAccepted raw)
    (hversion : ¬VersionAccepted build raw.length (.decode raw)) :
    runtimeConfigOf build raw = runtimeConfigLoadDefaults build ↔
      ¬FailsLate build raw.length (.decode raw) := by
  obtain ⟨hsize, hmagic, hflags⟩ := hheader
  have hsize' : ¬(raw.length ≠ runtimeConfigFileVersion3Size ∧
      raw.length ≠ runtimeConfigFileRecordSize) := fun hother ↦ not_or.mpr hother hsize
  rw [runtimeConfigOf, runtimeConfigFill, if_neg hsize', if_neg (not_not.mpr hmagic),
    if_neg (not_not.mpr hflags)]
  generalize RuntimeConfigFileRecord.decode raw = record at hversion ⊢
  by_cases hone : record.version = 1
  · exact absurd (Or.inl hone) hversion
  by_cases htransport : transportModeIsValid build record.transportMode = true
  · by_cases htwo : record.version = 2
    · have hprofile : record.fido2Profile ≠ 0 := fun hprofile ↦
        hversion (Or.inr (Or.inl ⟨htwo, htransport, hprofile⟩))
      simp [htwo, htransport, hprofile, FailsLate, runtimeConfigLoadDefaults]
    · by_cases hprofile : fido2ProfileIsValid record.fido2Profile = true
      · by_cases hfour : record.version = 4
        · have hlate : raw.length ≠ runtimeConfigFileRecordSize ∨
              attestationModeIsValid record.attestationMode = false := by
            by_contra hchecked
            rw [not_or, not_not, Bool.not_eq_false] at hchecked
            exact hversion (Or.inr (Or.inr (Or.inr ⟨hfour, htransport, hprofile, hchecked⟩)))
          simp [hfour, htransport, hprofile, hlate, FailsLate, runtimeConfigLoadDefaults,
            runtimeConfigFileVersion, Fido2Profile.ofByte, or_iff_not_imp_left]
        · have hthree : record.version ≠ 3 := fun hthree ↦
            hversion (Or.inr (Or.inr (Or.inl ⟨hthree, htransport, hprofile⟩)))
          simp [hone, htwo, hthree, hfour, FailsLate, runtimeConfigFileVersion]
      · simp [hone, htwo, htransport, hprofile, FailsLate]
  · simp [hone, htransport, FailsLate]

/-- A record is taken over as a whole or not at all unless it fails late. -/
theorem allOrNothing_runtimeConfigOf_iff :
    AllOrNothing build raw (runtimeConfigOf build raw) ↔
      ¬(HeaderAccepted raw ∧ FailsLate build raw.length (.decode raw)) := by
  by_cases haccepted : RecordAccepted build raw
  · exact iff_of_true ⟨fun _ ↦ runtimeConfigOf_accepted haccepted, fun h ↦ absurd haccepted h⟩
      fun hlate ↦ not_failsLate_of_accepted haccepted hlate.2
  · have hnothing : AllOrNothing build raw (runtimeConfigOf build raw) ↔
        runtimeConfigOf build raw = runtimeConfigLoadDefaults build :=
      ⟨fun h ↦ h.2 haccepted, fun h ↦ ⟨fun h' ↦ absurd h' haccepted, fun _ ↦ h⟩⟩
    by_cases hheader : HeaderAccepted raw
    · rw [hnothing, runtimeConfigOf_refused hheader fun hversion ↦ haccepted ⟨hheader, hversion⟩]
      simp only [hheader, true_and]
    · rw [hnothing]
      exact iff_of_true (runtimeConfigFill_refused hheader _) fun hlate ↦ hheader hlate.1

end AllOrNothing

section Specifications

variable {Event : Type} {world : World Event} {build : BuildOptions}

theorem runtimeConfigPaths : AtomicPaths runtimeConfigFilePath runtimeConfigFileTempPath :=
  ⟨by decide, by decide, by decide, by decide⟩

/-- The bytes of an empty file, or of one too long for the record, come to the defaults. -/
theorem runtimeConfigOf_of_size {raw : Bytes}
    (hsize : ¬(0 < raw.length ∧ raw.length ≤ runtimeConfigFileRecordSize)) :
    runtimeConfigOf build raw = runtimeConfigLoadDefaults build := by
  apply runtimeConfigFill_refused
  rintro ⟨hlength, -, -⟩
  have hthree : runtimeConfigFileVersion3Size = 8 := rfl
  have hfour : runtimeConfigFileRecordSize = 12 := rfl
  omega

/-- Loading gives the defaults or what the file's bytes come to. The bytes of a primary file count
unless reading it fails. -/
theorem ensures_runtimeConfigLoad :
    Ensures (runtimeConfigLoad build)
      (fun config _ ↦
        (config = runtimeConfigLoadDefaults build ∨ ∃ raw,
          logical world.files runtimeConfigFilePath = some raw ∧
            config = runtimeConfigOf build raw) ∧
        (∀ raw, world.files runtimeConfigFilePath = some raw → world.reads = [] →
          config = runtimeConfigOf build raw))
      (fun world' ↦ PowerLost world world') world := by
  simp only [runtimeConfigLoad, ensures_bind]
  apply (ensures_recoverAtomicFile runtimeConfigPaths).mono
  · rintro recovered middle ⟨hkeeps, hprimary, hfailed⟩
    have hreads : middle.reads = world.reads := by rw [hkeeps.only.eq]
    -- A primary file is what the loader reads; only a missing one has to be recovered first.
    have hfile : ∀ raw, world.files runtimeConfigFilePath = some raw →
        middle.files runtimeConfigFilePath = some raw := by
      intro raw hraw
      cases recovered with
      | true => rw [hprimary rfl, logical, hraw, Option.some_or]
      | false => exact absurd ((hfailed rfl).2.1.symm.trans hraw) (by simp)
    apply ensures_readFile
    intro result final hidle hread hclean
    cases result with
    | none =>
      refine ⟨Or.inl rfl, fun raw hraw hnil ↦ ?_⟩
      rw [runtimeConfigOf_of_size]
      rintro ⟨hpos, hcapacity⟩
      exact absurd (hclean raw (hfile raw hraw) hpos hcapacity (hreads.trans hnil)) (by simp)
    | some data =>
      have hdata := (hread data rfl).1
      refine ⟨Or.inr ⟨data, ?_, rfl⟩, fun raw hraw _ ↦ ?_⟩
      · rw [← hkeeps.logical_eq, logical, hdata, Option.some_or]
      · rw [Option.some.inj ((hfile raw hraw).symm.trans hdata)]
  · exact fun final hfinal ↦ ⟨hfinal.moves.only.quiet, hfinal.writes⟩

theorem fido2ProfileIsValid_toByte (profile : Fido2Profile) :
    fido2ProfileIsValid profile.toByte = true := by
  cases profile <;> rfl

theorem attestationModeIsValid_toByte (mode : AttestationMode) :
    attestationModeIsValid mode.toByte = true := by
  cases mode <;> rfl

@[simp]
theorem TransportMode.ofByte_toByte (mode : TransportMode) : ofByte mode.toByte = mode := by
  cases mode <;> rfl

@[simp]
theorem Fido2Profile.ofByte_toByte (profile : Fido2Profile) : ofByte profile.toByte = profile := by
  cases profile <;> rfl

@[simp]
theorem AttestationMode.ofByte_toByte (mode : AttestationMode) : ofByte mode.toByte = mode := by
  cases mode <;> rfl

/-- The record of a configuration passes its checks and says what the configuration says, as far as
the build leaves it to the preferences. -/
theorem runtimeConfigOf_recordOf (config : RuntimeConfig)
    (htransport : transportModeIsValid build config.transportMode.toByte = true)
    (padding : Fin 3 → UInt8) :
    runtimeConfigOf build ((runtimeConfigRecordOf build config).encode padding) =
      { runtimeConfigLoadDefaults build with
        transportMode := config.transportMode
        fido2Profile := fido2ProfileForBuild build config.fido2Profile
        autoAcceptRequests := build.autoAcceptRequests && config.autoAcceptRequests
        attestationMode := attestationModeForBuild build config.attestationMode } := by
  have hmagic : (runtimeConfigRecordOf build config).magic < 2 ^ 32 := by
    show runtimeConfigFileMagic < 2 ^ 32
    decide
  have hdecode := RuntimeConfigFileRecord.decode_encode _ hmagic padding
  have hflags : ∀ auto : Bool, ((if auto then runtimeConfigFlagAutoAcceptRequests else 0) |||
      runtimeConfigFlagFido2Enabled) &&& ~~~(runtimeConfigFlagAutoAcceptRequests |||
        runtimeConfigFlagFido2Enabled) = 0 := by decide
  have hauto : ∀ auto : Bool, ((((if auto then runtimeConfigFlagAutoAcceptRequests else 0) |||
      runtimeConfigFlagFido2Enabled) &&& runtimeConfigFlagAutoAcceptRequests) != 0) = auto := by
    decide
  have haccepted : RecordAccepted build ((runtimeConfigRecordOf build config).encode padding) := by
    rw [RecordAccepted, hdecode, RuntimeConfigFileRecord.length_encode]
    constructor
    · refine ⟨Or.inr (RuntimeConfigFileRecord.length_encode _ padding), ?_, ?_⟩
      · rw [hdecode]
        rfl
      · rw [hdecode]
        exact hflags _
    · exact Or.inr (Or.inr (Or.inr ⟨rfl, htransport, fido2ProfileIsValid_toByte _, rfl,
        attestationModeIsValid_toByte _⟩))
  rw [runtimeConfigOf_accepted haccepted, hdecode]
  have htwice (attestation : AttestationMode) : attestationModeForBuild build
      (attestationModeForBuild build attestation) = attestationModeForBuild build attestation := by
    cases hbuild : build.packedAttestation <;> simp [attestationModeForBuild, hbuild]
  have htwice' (profile : Fido2Profile) : fido2ProfileForBuild build
      (fido2ProfileForBuild build profile) = fido2ProfileForBuild build profile := by
    cases hbuild : build.devFido21 <;> simp [fido2ProfileForBuild, hbuild]
  simp only [recordedConfig, runtimeConfigRecordOf, runtimeConfigFileVersion, hauto,
    show ¬(4 : UInt8) = 1 by decide, if_false, if_true, TransportMode.ofByte_toByte,
    Fido2Profile.ofByte_toByte, AttestationMode.ofByte_toByte, htwice, htwice', Bool.and_self_left,
    runtimeConfigLoadDefaults]

/-- Persisting stores the record of the configuration. -/
theorem ensures_runtimeConfigPersist (padding : Fin 3 → UInt8) (config : RuntimeConfig) :
    Ensures (runtimeConfigPersist build padding config)
      (fun ok world' ↦ ok = true → world'.files runtimeConfigFilePath =
        some ((runtimeConfigRecordOf build config).encode padding))
      (fun world' ↦ PowerLost world world') world := by
  have hdata : (runtimeConfigRecordOf build config).encode padding ≠ [] := by
    intro hnil
    have := RuntimeConfigFileRecord.length_encode (runtimeConfigRecordOf build config) padding
    rw [hnil] at this
    exact absurd this (by decide)
  simp only [runtimeConfigPersist, fido2ProfileIsValid_toByte, attestationModeIsValid_toByte,
    Bool.not_true, Bool.or_self, Bool.false_eq_true, if_false, ensures_bind, ensures_ite,
    ensures_pure]
  apply ensures_ensureAppDataDir.mono
  · rintro ok middle ⟨hidle, -⟩
    refine ⟨fun _ h ↦ absurd h (by simp), fun _ ↦ ?_⟩
    apply (ensures_writeFileAtomic runtimeConfigPaths hdata).mono
    · exact fun done final hfinal ↦ hfinal.2.1
    · exact fun final hfinal ↦
        PowerLost.after ⟨hfinal.moves.only.quiet, hfinal.writes⟩ hidle.toQuiet
  · exact fun final hfinal ↦ ⟨hfinal.1.toQuiet, hfinal.2⟩

/-- The preferences that a build has a transport for. -/
def RuntimeConfig.Valid (build : BuildOptions) (config : RuntimeConfig) : Prop :=
  transportModeIsValid build config.transportMode.toByte = true

/-- Loading the configuration takes a record over as a whole or not at all, except for the records
that fail late; what it gives otherwise comes from the bytes of the file; and what was persisted
comes back. -/
theorem runtime_config_load_all_or_nothing_iff (build : BuildOptions) :
    (∀ (world : World Event) (raw : Bytes), world.files runtimeConfigFilePath = some raw →
      world.reads = [] →
      Ensures (runtimeConfigLoad build)
        (fun config _ ↦ AllOrNothing build raw config ↔
          ¬(HeaderAccepted raw ∧ FailsLate build raw.length (.decode raw)))
        (fun _ ↦ True) world) ∧
    (∀ world : World Event, Ensures (runtimeConfigLoad build)
      (fun config _ ↦ config = runtimeConfigLoadDefaults build ∨ ∃ raw,
        logical world.files runtimeConfigFilePath = some raw ∧
          (AllOrNothing build raw config ↔
            ¬(HeaderAccepted raw ∧ FailsLate build raw.length (.decode raw))))
      (fun _ ↦ True) world) ∧
    (∀ (world : World Event) (padding : Fin 3 → UInt8) (config : RuntimeConfig),
      config.Valid build →
      Ensures (runtimeConfigPersist build padding config)
        (fun ok world' ↦ ok = true → ∀ later : World Event, later.files = world'.files →
          later.reads = [] →
          Ensures (runtimeConfigLoad build)
            (fun loaded _ ↦ loaded.transportMode = config.transportMode ∧
              loaded.fido2Profile = fido2ProfileForBuild build config.fido2Profile ∧
              loaded.attestationMode = attestationModeForBuild build config.attestationMode ∧
              loaded.autoAcceptRequests =
                (build.autoAcceptRequests && config.autoAcceptRequests))
            (fun _ ↦ True) later)
        (fun _ ↦ True) world) := by
  refine ⟨fun world raw hraw hreads ↦ ?_, fun world ↦ ?_, fun world padding config hvalid ↦ ?_⟩
  · refine ensures_runtimeConfigLoad.mono (fun config final hfinal ↦ ?_) fun _ _ ↦ trivial
    rw [hfinal.2 raw hraw hreads]
    exact allOrNothing_runtimeConfigOf_iff
  · refine ensures_runtimeConfigLoad.mono (fun config final hfinal ↦ ?_) fun _ _ ↦ trivial
    rcases hfinal.1 with hdefaults | ⟨raw, hraw, rfl⟩
    · exact Or.inl hdefaults
    · exact Or.inr ⟨raw, hraw, allOrNothing_runtimeConfigOf_iff⟩
  · refine (ensures_runtimeConfigPersist padding config).mono (fun ok world' hpersisted hok later
      hfiles hreads ↦ ?_) fun _ _ ↦ trivial
    refine ensures_runtimeConfigLoad.mono (fun loaded final hfinal ↦ ?_) fun _ _ ↦ trivial
    rw [hfinal.2 _ (by rw [hfiles]; exact hpersisted hok) hreads,
      runtimeConfigOf_recordOf config hvalid padding]
    exact ⟨rfl, rfl, rfl, rfl⟩

/-- A card that holds one configuration file. -/
def deviceWithConfig (raw : Bytes) : World Empty :=
  { World.blank Empty with files := stored runtimeConfigFilePath raw fun _ ↦ none }

/-- The statement for a card whose record of version 3 names NFC, and for preferences that name it
and are persisted on that card. -/
theorem runtime_config_load_all_or_nothing_iff_nfc :
    Ensures (runtimeConfigLoad {})
      (fun config _ ↦ AllOrNothing {} [0x43, 0x52, 0x46, 0x5A, 3, 2, 1, 0] config ↔
        ¬(HeaderAccepted [0x43, 0x52, 0x46, 0x5A, 3, 2, 1, 0] ∧
          FailsLate {} 8 (.decode [0x43, 0x52, 0x46, 0x5A, 3, 2, 1, 0])))
      (fun _ ↦ True) (deviceWithConfig [0x43, 0x52, 0x46, 0x5A, 3, 2, 1, 0]) ∧
    Ensures (runtimeConfigPersist {} (fun _ ↦ 0)
        { runtimeConfigLoadDefaults {} with transportMode := .nfc })
      (fun ok world' ↦ ok = true → ∀ later : World Empty, later.files = world'.files →
        later.reads = [] →
        Ensures (runtimeConfigLoad {})
          (fun loaded _ ↦ loaded.transportMode = .nfc ∧ loaded.fido2Profile = .ctap20 ∧
            loaded.attestationMode = .none ∧ loaded.autoAcceptRequests = false)
          (fun _ ↦ True) later)
      (fun _ ↦ True) (deviceWithConfig [0x43, 0x52, 0x46, 0x5A, 3, 2, 1, 0]) :=
  ⟨(runtime_config_load_all_or_nothing_iff {}).1 _ _ rfl rfl,
    (runtime_config_load_all_or_nothing_iff {}).2.2 _ _
      { runtimeConfigLoadDefaults {} with transportMode := .nfc } rfl⟩

/-- An eight-byte record of version 2 that names NFC as its transport, and a profile which that
version does not have. -/
def lateProfileFile : Bytes := [0x43, 0x52, 0x46, 0x5A, 2, 0, 1, 1]

/-- The loader keeps the transport of a record that it refuses for its profile. -/
theorem runtime_config_keeps_refused_transport :
    ¬∀ raw : Bytes, ∃ config,
      resultOf (runtimeConfigLoad {}) (deviceWithConfig raw) = some config ∧
        AllOrNothing {} raw config := by
  intro h
  obtain ⟨config, hconfig, -, hrefused⟩ := h lateProfileFile
  have hkept : resultOf (runtimeConfigLoad {}) (deviceWithConfig lateProfileFile) =
      some { runtimeConfigLoadDefaults {} with transportMode := .nfc } := by decide +kernel
  have hversion : ¬VersionAccepted {} 8 (.decode lateProfileFile) := by
    rintro (h | ⟨-, -, h⟩ | ⟨h, -⟩ | ⟨h, -⟩) <;> exact absurd h (by decide)
  have hdefaults := hrefused fun haccepted ↦ hversion haccepted.2
  rw [hkept, hdefaults] at hconfig
  exact absurd (congrArg RuntimeConfig.transportMode (Option.some.inj hconfig)) (by decide)

end Specifications

end ZeroFido
