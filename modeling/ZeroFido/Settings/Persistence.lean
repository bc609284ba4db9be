import ZeroFido.Pin.Footprint
import ZeroFido.Settings.Lifecycle

/-!
# What the settings file holds

`storedConfig` is what a start in which nothing fails takes from the settings file, through its
backup when the file itself is missing. Storing preferences leaves the old ones or the new ones
there, and the new ones when it reports success; nothing else that runs between two changes of the
settings touches the file or its backup (`SameSettings`).
-/

set_option autoImplicit false
set_option relaxedAutoImplicit false

namespace ZeroFido.Settings

open Foundations Storage Store

section Definitions

/-- The preferences that a start in which nothing fails finds in the files. -/
def storedConfig (build : BuildOptions) (files : Path → Option Bytes) : RuntimeConfig :=
  runtimeConfigForBuild build
    (((logical files runtimeConfigFilePath).map (runtimeConfigOf build)).getD
      (runtimeConfigLoadDefaults build))

/-- The settings file and its backup are as they were. -/
structure SameSettings (files files' : Path → Option Bytes) : Prop where
  file : files' runtimeConfigFilePath = files runtimeConfigFilePath
  backup : files' (backupOf runtimeConfigFilePath) = files (backupOf runtimeConfigFilePath)

/-- The settings file does not have to be recovered from its backup. -/
def Recovered (files : Path → Option Bytes) : Prop :=
  files runtimeConfigFilePath = logical files runtimeConfigFilePath

end Definitions

section Files

variable {build : BuildOptions} {files files' files'' : Path → Option Bytes}

theorem SameSettings.refl (files : Path → Option Bytes) : SameSettings files files := ⟨rfl, rfl⟩

theorem SameSettings.trans (h : SameSettings files files') (h' : SameSettings files' files'') :
    SameSettings files files'' :=
  ⟨h'.file.trans h.file, h'.backup.trans h.backup⟩

theorem SameSettings.logical_eq (h : SameSettings files files') :
    logical files' runtimeConfigFilePath = logical files runtimeConfigFilePath := by
  rw [logical, logical, h.file, h.backup]

theorem SameSettings.storedConfig_eq (h : SameSettings files files') :
    storedConfig build files' = storedConfig build files := by
  rw [storedConfig, storedConfig, h.logical_eq]

theorem SameSettings.recovered (h : SameSettings files files') (hrecovered : Recovered files) :
    Recovered files' := by
  unfold Recovered
  rw [h.logical_eq, h.file]
  exact hrecovered

theorem runtimeConfigFilePath_eq :
    runtimeConfigFilePath = childPath "runtime_config.bin".toList := by decide

theorem foreign_runtimeConfigFilePath : Foreign runtimeConfigFilePath := by
  rw [runtimeConfigFilePath_eq]
  exact Ctap.foreign_of_short (by decide) rfl (by decide)

theorem foreign_backupOf_runtimeConfigFilePath : Foreign (backupOf runtimeConfigFilePath) := by
  rw [runtimeConfigFilePath_eq, backupOf_childPath]
  exact Ctap.foreign_of_short (by decide) rfl (by decide)

/-- What leaves every file but those of the PIN alone leaves the settings alone. -/
theorem sameSettings_of_besidesPin {device : Pin.Device} (h : Pin.BesidesPin files device) :
    SameSettings files device.files :=
  ⟨h _ (by decide) (by decide) (by decide), h _ (by decide) (by decide) (by decide)⟩

theorem sameSettings_of_foreignKept {device device' : Pin.Device} (h : ForeignKept device device') :
    SameSettings device.files device'.files :=
  ⟨h.frame _ foreign_runtimeConfigFilePath, h.frame _ foreign_backupOf_runtimeConfigFilePath⟩

/-- A startup leaves the settings alone, wherever it stops. -/
theorem ensures_lifecycleInitStorage_settings {crypto : Crypto} (hlaws : SealLaws crypto)
    {listings : StartupListings} {device : Pin.Device} :
    Ensures (Ctap.lifecycleInitStorage crypto listings)
      (fun _ device' ↦ SameSettings device.files device'.files)
      (fun device' ↦ SameSettings device.files device'.files) device := by
  rw [Ctap.lifecycleInitStorage, ensures_bind]
  refine (ensures_bootstrapInit_frame hlaws).mono ?_ fun _ hkept ↦ sameSettings_of_foreignKept hkept
  rintro ⟨ready, store⟩ first hfirst
  have hkept := sameSettings_of_foreignKept hfirst
  dsimp only
  rw [ensures_ite]
  refine ⟨fun _ ↦ hkept, fun _ ↦ ?_⟩
  rw [ensures_bind]
  refine (Pin.besidesPin_pinInitWithResult first (fun _ _ _ _ ↦ rfl)).mono ?_
    fun _ hfinal ↦ hkept.trans (sameSettings_of_besidesPin hfinal)
  rintro ⟨pinInit, pinState⟩ final ⟨-, hfinal⟩
  have hfinal := hkept.trans (sameSettings_of_besidesPin hfinal)
  cases pinInit <;> exact hfinal

end Files

section Loading

variable {build : BuildOptions} {device : Pin.Device}

theorem valid_runtimeConfigLoadDefaults (hone : OneBuild build) :
    (runtimeConfigLoadDefaults build).Valid build := by
  cases husb : build.usbOnly <;> cases hnfc : build.nfcOnly <;>
    simp_all [RuntimeConfig.Valid, transportModeIsValid, runtimeConfigLoadDefaults,
      runtimeConfigDefaultTransportMode, OneBuild, TransportMode.toByte]

/-- What every branch of the loader keeps. -/
structure Loadable (build : BuildOptions) (config : RuntimeConfig) : Prop where
  transport : config.Valid build
  fido2Enabled : config.fido2Enabled = true
  u2fEnabled : config.u2fEnabled = true

theorem Loadable.fits {config : RuntimeConfig} (h : Loadable build config) :
    FitsBuild build (runtimeConfigForBuild build config) :=
  fitsBuild_runtimeConfigForBuild h.transport h.fido2Enabled h.u2fEnabled

theorem loadable_defaults (hone : OneBuild build) :
    Loadable build (runtimeConfigLoadDefaults build) :=
  ⟨valid_runtimeConfigLoadDefaults hone, rfl, rfl⟩

theorem toByte_ofByte {mode : UInt8} (hvalid : transportModeIsValid build mode = true) :
    (TransportMode.ofByte mode).toByte = mode := by
  unfold TransportMode.ofByte
  split_ifs with hzero
  · exact hzero.symm
  · have hmode : mode = 0 ∨ mode = 1 := by
      unfold transportModeIsValid at hvalid
      split_ifs at hvalid <;> simp_all [TransportMode.toByte]
    exact (hmode.resolve_left hzero).symm

/-- Whatever the bytes, the loader makes preferences of them that the build has a transport for. -/
theorem loadable_runtimeConfigOf (hone : OneBuild build) (raw : Bytes) :
    Loadable build (runtimeConfigOf build raw) := by
  have hdefaults :
      transportModeIsValid build (runtimeConfigLoadDefaults build).transportMode.toByte = true :=
    valid_runtimeConfigLoadDefaults hone
  have hdefault :
      transportModeIsValid build (runtimeConfigDefaultTransportMode build).toByte = true :=
    hdefaults
  have hmode : ∀ mode, transportModeIsValid build mode = true →
      (TransportMode.ofByte mode).toByte = mode := fun mode ↦ toByte_ofByte
  unfold runtimeConfigOf runtimeConfigFill
  generalize RuntimeConfigFileRecord.decode raw = record
  dsimp only
  split_ifs <;> refine ⟨?_, rfl, rfl⟩ <;> simp_all [RuntimeConfig.Valid, runtimeConfigFinish]

/-- Loading the settings. When reads do not fail, and the file is there or can be recovered, it
gives the stored ones. -/
theorem ensures_runtimeConfigLoad_stored (hone : OneBuild build) :
    Ensures (runtimeConfigLoad build)
      (fun config device' ↦ Loadable build config ∧
        logical device'.files runtimeConfigFilePath = logical device.files runtimeConfigFilePath ∧
        (device.reads = [] → device.writes = [] ∨ Recovered device.files →
          runtimeConfigForBuild build config = storedConfig build device.files ∧
            Recovered device'.files))
      (fun device' ↦ logical device'.files runtimeConfigFilePath =
        logical device.files runtimeConfigFilePath ∧ device.writes ≠ []) device := by
  simp only [runtimeConfigLoad, ensures_bind]
  refine (ensures_recoverAtomicFile runtimeConfigPaths).mono ?_
    fun final hfinal ↦ ⟨Keeps.logical_eq hfinal.moves, hfinal.writes⟩
  rintro recovered middle ⟨hkeeps, hdone, hfailed⟩
  have hreads : middle.reads = device.reads := by rw [hkeeps.only.eq]
  -- A recovery that may not fail leaves everything in the file itself.
  have hrecovered : device.writes = [] ∨ Recovered device.files →
      middle.files runtimeConfigFilePath = logical device.files runtimeConfigFilePath := by
    intro hsafe
    cases recovered with
    | true => exact hdone rfl
    | false =>
      obtain ⟨hwrites, hnone, hbackup⟩ := hfailed rfl
      rcases hsafe with hnil | hheld
      · exact absurd hnil hwrites
      · rw [Recovered, hnone, logical, hnone, Option.none_or] at hheld
        rw [← hheld] at hbackup
        exact absurd hbackup (by simp)
  refine ensures_readFile fun result final hidle hread hclean ↦ ?_
  have hlogical : logical final.files runtimeConfigFilePath =
      logical device.files runtimeConfigFilePath := by
    rw [hidle.files_eq]
    exact hkeeps.logical_eq
  have hloadable : ∀ data, result = some data → Loadable build (runtimeConfigOf build data) :=
    fun data _ ↦ loadable_runtimeConfigOf hone data
  have hfinal : device.writes = [] ∨ Recovered device.files → Recovered final.files := by
    intro hsafe
    rw [Recovered, hlogical, hidle.files_eq, hrecovered hsafe]
  cases result with
  | none =>
    refine ⟨loadable_defaults hone, hlogical, fun hnil hsafe ↦ ⟨?_, hfinal hsafe⟩⟩
    rw [storedConfig, ← hrecovered hsafe]
    cases hfile : middle.files runtimeConfigFilePath with
    | none => rfl
    | some data =>
      rw [Option.map_some, Option.getD_some, runtimeConfigOf_of_size]
      rintro ⟨hpos, hcapacity⟩
      exact absurd (hclean data hfile hpos hcapacity (hreads.trans hnil)) (by simp)
  | some data =>
    refine ⟨hloadable data rfl, hlogical, fun _ hsafe ↦ ⟨?_, hfinal hsafe⟩⟩
    rw [storedConfig, ← hrecovered hsafe, (hread data rfl).1, Option.map_some, Option.getD_some]

/-- Preferences that fit the build are found again as they were stored. -/
theorem forBuild_recordOf {config : RuntimeConfig} (hfits : FitsBuild build config)
    (padding : Fin 3 → UInt8) :
    runtimeConfigForBuild build
      (runtimeConfigOf build ((runtimeConfigRecordOf build config).encode padding)) = config := by
  rw [runtimeConfigOf_recordOf config hfits.transport padding]
  refine Eq.trans ?_ hfits.forBuild
  obtain ⟨-, hfido2, hu2f, -, -, -⟩ := hfits
  obtain ⟨transport, fido2, profile, u2f, u2fProfile, auto, attestation⟩ := config
  dsimp only at hfido2 hu2f
  subst hfido2 hu2f
  cases u2fProfile
  simp only [runtimeConfigForBuild, runtimeConfigLoadDefaults, fido2ProfileForBuild_idem,
    attestationModeForBuild_idem]
  split_ifs with hauto <;> simp [hauto]

/-- Storing preferences leaves the old ones or the new ones, and the new ones when it succeeds. -/
theorem ensures_runtimeConfigPersist_stored {config : RuntimeConfig}
    (hfits : FitsBuild build config) (padding : Fin 3 → UInt8) :
    Ensures (runtimeConfigPersist build padding config)
      (fun ok device' ↦
        (storedConfig build device'.files = storedConfig build device.files ∨
          storedConfig build device'.files = config) ∧
        (ok = true → storedConfig build device'.files = config))
      (fun device' ↦ storedConfig build device'.files = storedConfig build device.files ∨
        storedConfig build device'.files = config) device := by
  have hdata : (runtimeConfigRecordOf build config).encode padding ≠ [] := by
    intro hnil
    have hlength := RuntimeConfigFileRecord.length_encode (runtimeConfigRecordOf build config)
      padding
    rw [hnil] at hlength
    exact absurd hlength (by decide)
  have hnew : ∀ {files : Path → Option Bytes}, logical files runtimeConfigFilePath =
      some ((runtimeConfigRecordOf build config).encode padding) →
        storedConfig build files = config := by
    intro files hlogical
    rw [storedConfig, hlogical, Option.map_some, Option.getD_some]
    exact forBuild_recordOf hfits padding
  have heither : ∀ {middle final : Pin.Device}, middle.files = device.files →
      Moves runtimeConfigFilePath runtimeConfigFileTempPath
        (some ((runtimeConfigRecordOf build config).encode padding)) middle final →
      storedConfig build final.files = storedConfig build device.files ∨
        storedConfig build final.files = config := by
    intro middle final hmiddle hmoves
    rcases hmoves.holds with hold | hold
    · refine Or.inl ?_
      rw [storedConfig, storedConfig, hold, hmiddle]
    · exact Or.inr (hnew hold)
  simp only [runtimeConfigPersist, fido2ProfileIsValid_toByte, attestationModeIsValid_toByte,
    Bool.not_true, Bool.or_self, Bool.false_eq_true, if_false, ensures_bind, ensures_ite,
    ensures_pure]
  refine ensures_ensureAppDataDir.mono ?_ fun final hfinal ↦ Or.inl (by rw [hfinal.1.files_eq])
  rintro ok middle ⟨hidle, -⟩
  refine ⟨fun _ ↦ ⟨Or.inl (by rw [hidle.files_eq]), fun habsurd ↦ absurd habsurd (by simp)⟩,
    fun _ ↦ ?_⟩
  refine (ensures_writeFileAtomic runtimeConfigPaths hdata).mono ?_
    fun final hcut ↦ heither hidle.files_eq hcut.moves
  rintro done final ⟨hmoves, hdone, -⟩
  refine ⟨heither hidle.files_eq hmoves, fun hok ↦ hnew ?_⟩
  rw [logical, hdone hok, Option.some_or]

end Loading

end ZeroFido.Settings
