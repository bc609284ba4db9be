import ZeroFido.Foundations.Run
import ZeroFido.Settings.Transitions

/-!
# Settings over the lives of a device

The application is launched, starts up, is worked on through its menus and by the commands that
come in, and ends or loses power, any number of times; pieces of its work do not overlap here.
`settings_in_force`: while a transport runs, the capabilities are those of the preferences, the
build and the PIN, in every state of every run. `settings_survive`: what a later launch takes up are
the preferences that were in force, or those of a change of which success was not reported.
-/

set_option autoImplicit false
set_option relaxedAutoImplicit false

namespace ZeroFido.Settings

open Foundations Storage Store

section Lives

/-- What the coming calls come to. -/
structure Outcomes where
  writes : List WriteOutcome := []
  reads : List Bool := []
  enclave : List Bool := []
  keyGenerations : List Bool := []
  threads : List Bool := []

/-- The device with these outcomes to come. -/
def Outcomes.device (outcomes : Outcomes) (device : Pin.Device) : Pin.Device :=
  { device with
    writes := outcomes.writes
    reads := outcomes.reads
    enclave := outcomes.enclave
    keyGenerations := outcomes.keyGenerations }

/-- The application, and whether it runs. -/
structure Life where
  app : App
  on : Bool := false

/-- A device on which the application is not running. -/
def Life.off (build : BuildOptions) (device : Pin.Device) : Life :=
  { app := lifecycleAlloc build device [] (storedConfig build device.files) [] }

/-- What the startup thread, the menus and the commands do. -/
inductive Work where
  | startup (listings : StartupListings) (u2fAvailable : Bool)
  /-- The home screen looks for the end of the startup. -/
  | tick
  | settings (item : SettingsItem) (padding : Fin 3 → UInt8)
  | setPin (newPin : Bytes)
  | changePin (current newPin : Bytes)
  | removePin (current : Bytes)
  | startupReset (listing : Listing)
  | clientPin (data : Bytes) (consent : Pin.ConsentOutcome) (delay outCapacity : ℕ)
  | reset (listing : Listing)

/-- The startup runs once, in its thread. The PIN menu opens when that has ended, and commands come
in through the worker of the transport. -/
def Work.possible (app : App) : Work → Bool
  | .startup _ _ => app.startupThread && !app.startupComplete
  | .tick | .settings _ _ => true
  | .setPin _ | .changePin _ _ | .removePin _ => !app.startupThread
  | .startupReset _ => !app.startupThread && app.startupResetAvailable
  | .clientPin _ _ _ _ | .reset _ => app.workerThread.isSome

variable (build : BuildOptions) (crypto : Crypto)

def Work.perform : Work → Program App Unit
  | .startup listings u2fAvailable => lifecycleStartupWorker build crypto listings u2fAvailable
  | .tick => do let _ ← lifecycleStartupPending build
  | .settings item padding => do let _ ← settingsMenuCallback build padding item
  | .setPin newPin => do let _ ← Settings.setPin build crypto newPin
  | .changePin current newPin => do let _ ← Settings.changePin build crypto current newPin
  | .removePin current => do let _ ← Settings.removePin build crypto current
  | .startupReset listing => do let _ ← Settings.startupReset build listing
  | .clientPin data consent delay outCapacity => do
    let _ ← pinHandleCommandWithSession build crypto data consent delay outCapacity
  | .reset listing => do let _ ← resetAppData build crypto listing

inductive LifeEvent where
  /-- What ran before has ended or lost power. -/
  | launch (outcomes : Outcomes)
  | work (work : Work)
  | exit
  /-- Other work on the device, and what is to come. -/
  | other (device : Pin.Device) (threads : List Bool)

/-- The application after a part of its work, which a loss of power may stop. -/
def performed (program : Program App Unit) (app : App) : Life :=
  match program.run app with
  | .ok _ app => { app, on := true }
  | .error _ app => { app }

def lifeStep (life : Life) : LifeEvent → Life
  | .launch outcomes =>
    performed (lifecycleOpen build) (lifecycleAlloc build (outcomes.device life.app.device)
      outcomes.threads life.app.settled life.app.unsettled)
  | .work work =>
    if life.on && work.possible life.app then performed (work.perform build crypto) life.app
    else life
  | .exit => { life with on := false }
  | .other device threads => { life with app := { life.app with device, threads } }

variable {build crypto}

/-- What a specification says of the state that the work leaves. -/
theorem performed_of_ensures {program : Program App Unit} {app : App} {post crash : App → Prop}
    (h : Ensures program (fun _ ↦ post) crash app) :
    (performed program app).on = true ∧ post (performed program app).app ∨
      (performed program app).on = false ∧ crash (performed program app).app := by
  unfold Ensures at h
  unfold performed
  cases hrun : program.run app with
  | ok value final =>
    rw [hrun] at h
    exact Or.inl ⟨rfl, h⟩
  | error reason final =>
    rw [hrun] at h
    exact Or.inr ⟨rfl, h⟩

end Lives

section Steps

variable {build : BuildOptions} {crypto : Crypto} {app : App} {life : Life}

/-- The work that leaves the stored settings to the application: no reset, and a startup that can
read the settings file. -/
def Work.Undisturbed (app : App) : Work → Prop
  | .startup _ _ => app.device.reads = []
  | .startupReset _ | .reset _ => False
  | _ => True

/-- Every piece of work keeps the preferences in force, and the settings file with them. -/
theorem ensures_perform (crypto : Crypto) (hone : OneBuild build) (happ : InForce build app)
    (work : Work) (hpossible : work.possible app = true) :
    Ensures (work.perform build crypto)
      (fun _ app' ↦ InForce build app' ∧ (SealLaws crypto → work.Undisturbed app →
        Settled build app → Settled build app'))
      (fun app' ↦ SealLaws crypto → work.Undisturbed app → Settled build app → Stored build app')
      app := by
  have hkeeps : ∀ {Value : Type} {program : Program App Value},
      Ensures program (fun _ ↦ Keeps build app) (Leaves build app) app →
      Ensures program
        (fun _ app' ↦ InForce build app' ∧ (SealLaws crypto → work.Undisturbed app →
          Settled build app → Settled build app'))
        (fun app' ↦ SealLaws crypto → work.Undisturbed app → Settled build app → Stored build app')
        app :=
    fun h ↦ h.mono (fun _ _ h ↦ ⟨h.1, fun _ _ ↦ h.2⟩) fun _ h _ _ ↦ h
  cases work with
  | startup listings u2fAvailable =>
    obtain ⟨hthread, hcomplete⟩ := Bool.and_eq_true_iff.mp hpossible
    refine (ensures_lifecycleStartupWorker hone happ hthread (by simpa using hcomplete) listings
      u2fAvailable).mono (fun _ _ h ↦ h) fun _ h hlaws _ ↦ h hlaws
  | tick =>
    rw [Work.perform, ensures_bind]
    exact hkeeps ((ensures_lifecycleStartupPending happ).mono (fun _ _ h ↦ h.1) fun _ ↦ False.elim)
  | settings item padding =>
    rw [Work.perform, ensures_bind]
    exact hkeeps (ensures_settingsMenuCallback hone happ item)
  | setPin newPin =>
    rw [Work.perform, ensures_bind]
    exact hkeeps (ensures_setPin happ (by simpa [Work.possible] using hpossible) newPin)
  | changePin current newPin =>
    rw [Work.perform, ensures_bind]
    exact hkeeps (ensures_changePin happ (by simpa [Work.possible] using hpossible) current newPin)
  | removePin current =>
    rw [Work.perform, ensures_bind]
    exact hkeeps (ensures_removePin happ (by simpa [Work.possible] using hpossible) current)
  | startupReset listing =>
    rw [Work.perform, ensures_bind]
    have hidle : app.startupThread = false := by simpa using (Bool.and_eq_true_iff.mp hpossible).1
    exact (ensures_startupReset happ hidle listing).mono (fun _ _ h ↦ ⟨h, fun _ ↦ False.elim⟩)
      fun _ _ _ ↦ False.elim
  | clientPin data consent delay outCapacity =>
    rw [Work.perform, ensures_bind]
    exact hkeeps (ensures_pinHandleCommandWithSession happ (happ.startupThread_eq hpossible) data
      consent delay outCapacity)
  | reset listing =>
    rw [Work.perform, ensures_bind]
    exact (ensures_resetAppData happ (happ.startupThread_eq hpossible) listing).mono
      (fun _ _ h ↦ ⟨h, fun _ ↦ False.elim⟩) fun _ _ _ ↦ False.elim

/-- While the application runs, its preferences are in force. -/
def Running (build : BuildOptions) (life : Life) : Prop :=
  life.on = true → InForce build life.app

theorem running_lifeStep (crypto : Crypto) (hone : OneBuild build) (hlife : Running build life)
    (event : LifeEvent) : Running build (lifeStep build crypto life event) := by
  have hdone : ∀ {program : Program App Unit} {app : App} {property : App → Prop}
      {crash : App → Prop}, Ensures program (fun _ app' ↦ InForce build app' ∧ property app') crash
        app → (performed program app).on = true → InForce build (performed program app).app := by
    intro program app property crash h hon
    rcases performed_of_ensures h with hok | hcut
    · exact hok.2.1
    · exact absurd (hcut.1.symm.trans hon) (by simp)
  cases event with
  | launch outcomes => exact hdone (ensures_lifecycleOpen hone rfl rfl)
  | work work =>
    by_cases hguard : (life.on && work.possible life.app) = true
    · obtain ⟨hon, hpossible⟩ := Bool.and_eq_true_iff.mp hguard
      rw [lifeStep, if_pos hguard]
      exact hdone (ensures_perform crypto hone (hlife hon) work hpossible)
    · rw [lifeStep, if_neg hguard]
      exact hlife
  | exit => exact fun habsurd ↦ absurd habsurd (by simp [lifeStep])
  | other device threads => exact fun hon ↦ (hlife hon).observed device _ _ threads

/-- The launch can read the settings file, and can bring it back where a launch finds it in its
backup only. -/
structure TakesUp (life : Life) (outcomes : Outcomes) : Prop where
  reads : outcomes.reads = []
  recovers : outcomes.writes = [] ∨ Recovered life.app.device.files

/-- The events that leave the stored settings to the application. Launches take up the settings or
lose power on the way. -/
def Undisturbed (build : BuildOptions) (crypto : Crypto) (life : Life) : LifeEvent → Prop
  | .launch outcomes => TakesUp life outcomes ∨
    (lifeStep build crypto life (.launch outcomes)).on = false
  | .work work => work.Undisturbed life.app
  | .exit => True
  | .other device _ => SameSettings life.app.device.files device.files

/-- The file holds the settled preferences or those of a change since then, and while the
application runs the settled ones are in force. -/
structure Kept (build : BuildOptions) (life : Life) : Prop where
  stored : Stored build life.app
  inForce : Running build life
  settled : life.on = true → Settled build life.app

/-- A launch that does not lose power and takes up the settings finds what is stored. One that loses
power leaves it, and one in which no write fails does not. -/
theorem launch_stored (crypto : Crypto) (hone : OneBuild build) (life : Life)
    (outcomes : Outcomes) :
    let launched := lifeStep build crypto life (.launch outcomes)
    launched.on = true ∧ (TakesUp life outcomes → Settled build launched.app ∧
        launched.app.runtimeConfig = storedConfig build life.app.device.files) ∨
      launched.on = false ∧ (Stored build life.app → Stored build launched.app) ∧
        outcomes.writes ≠ [] := by
  have hopen : Ensures (lifecycleOpen build) _ _ (lifecycleAlloc build
      (outcomes.device life.app.device) outcomes.threads life.app.settled life.app.unsettled) :=
    ensures_lifecycleOpen hone rfl rfl
  rcases performed_of_ensures hopen with hok | hcut
  · exact Or.inl ⟨hok.1, fun htakes ↦ hok.2.2 htakes.reads htakes.recovers⟩
  · exact Or.inr ⟨hcut.1, hcut.2.1, hcut.2.2⟩

theorem kept_lifeStep (hone : OneBuild build) (hlaws : SealLaws crypto) (hkept : Kept build life)
    (event : LifeEvent) (hevent : Undisturbed build crypto life event) :
    Kept build (lifeStep build crypto life event) := by
  have hinForce := running_lifeStep crypto hone hkept.inForce event
  cases event with
  | launch outcomes =>
    rcases launch_stored crypto hone life outcomes with ⟨hon, htaken⟩ | ⟨hoff, hleft, -⟩
    · rcases hevent with htakes | hcut
      · obtain ⟨hsettled, -⟩ := htaken htakes
        exact ⟨hsettled.stored, hinForce, fun _ ↦ hsettled⟩
      · exact absurd (hcut.symm.trans hon) (by simp)
    · exact ⟨hleft hkept.stored, hinForce, fun hon ↦ absurd (hoff.symm.trans hon) (by simp)⟩
  | work work =>
    by_cases hguard : (life.on && work.possible life.app) = true
    · obtain ⟨hon, hpossible⟩ := Bool.and_eq_true_iff.mp hguard
      rw [lifeStep, if_pos hguard] at hinForce ⊢
      have hbefore := hkept.settled hon
      rcases performed_of_ensures (ensures_perform crypto hone (hkept.inForce hon) work hpossible)
        with ⟨-, -, hok⟩ | ⟨hoff, hcut⟩
      · have hafter := hok hlaws hevent hbefore
        exact ⟨hafter.stored, hinForce, fun _ ↦ hafter⟩
      · exact ⟨hcut hlaws hevent hbefore, hinForce,
          fun habsurd ↦ absurd (hoff.symm.trans habsurd) (by simp)⟩
    · rw [lifeStep, if_neg hguard]
      exact hkept
  | exit => exact ⟨hkept.stored, hinForce, fun habsurd ↦ absurd habsurd (by simp [lifeStep])⟩
  | other device threads =>
    refine ⟨hkept.stored.of_sameSettings hevent, hinForce, fun hon ↦ ?_⟩
    have hafter := (hkept.settled hon).of_sameSettings hevent
    exact ⟨hafter.stored, hafter.memory, hafter.launched⟩

end Steps

section Results

variable {build : BuildOptions} {crypto : Crypto}

/-- What the capabilities are, while the worker of a transport runs. -/
structure InUse (build : BuildOptions) (config : RuntimeConfig) (pinSet : Bool)
    (transport : TransportMode) (capabilities : ResolvedCapabilities) : Prop where
  preferred : transport = config.transportMode
  usbHid : capabilities.usbHidEnabled = true ↔ transport = .usbHid
  nfc : capabilities.nfcEnabled = true ↔ transport = .nfc
  /-- Selection is the only command that depends on the profile. -/
  command : ∀ cmd, capabilities.ctapCommandEnabled cmd = true ↔
    cmd ∈ [0x01, 0x02, 0x04, 0x06, 0x07, 0x08] ∨ cmd = 0x0B ∧ UsesFido21 build config pinSet
  advertised : capabilities.info.advertiseFido21 = true ↔ UsesFido21 build config pinSet
  permissions : capabilities.pin.pinUvAuthTokenEnabled = true ↔ UsesFido21 build config pinSet
  protocol2 : capabilities.ctap.pinUvAuthProtocol2Enabled = true ↔ UsesFido21 build config pinSet
  consent : capabilities.pin.clientPinTokenRequiresConsent = true ↔ UsesFido21 build config pinSet
  u2f : capabilities.nfc.u2fEnabled = true
  autoAcceptRequests : capabilities.autoAcceptRequests = config.autoAcceptRequests
  attestationMode : capabilities.attestationMode = config.attestationMode

/-- What preferences that fit the build resolve to. -/
theorem inUse_resolved {config : RuntimeConfig} (hone : OneBuild build)
    (hfits : FitsBuild build config) (pinSet : Bool) :
    InUse build config pinSet config.transportMode
      (runtimeConfigResolveAppCapabilities build config pinSet) := by
  have hfido21 := @resolvesFido21_effectiveConfig build config pinSet
  obtain ⟨htransport, hu2f, hattestation, hauto⟩ := @effectiveConfig_fields build config pinSet
  have hselection : (true && resolvesFido21 build (effectiveConfig build config pinSet)) = true ↔
      UsesFido21 build config pinSet := by
    rw [Bool.true_and]
    exact hfido21
  refine ⟨rfl, ?_, ?_, fun cmd ↦ ?_, hfido21, hfido21, hfido21, hfido21, ?_, ?_, ?_⟩
  · rw [← resolvesUsbHid_iff hfits.transport hone, resolvesUsbHid, ← htransport]
    rfl
  · rw [← resolvesNfc_iff hfits.transport hone, resolvesNfc, ← htransport]
    rfl
  · unfold ResolvedCapabilities.ctapCommandEnabled
    simp only [List.mem_cons, List.not_mem_nil, or_false]
    split_ifs with hcommon hpin hselected
    · exact iff_of_true rfl (Or.inl (by tauto))
    · exact iff_of_true rfl (Or.inl (by tauto))
    · subst hselected
      exact hselection.trans (by simp)
    · refine iff_of_false (by simp) ?_
      tauto
  · exact hu2f.trans hfits.u2fEnabled
  · show (build.autoAcceptRequests && (effectiveConfig build config pinSet).autoAcceptRequests) = _
    rw [hauto]
    cases hbuild : build.autoAcceptRequests with
    | true => rfl
    | false =>
      exact (Bool.eq_false_iff.mpr fun htrue ↦
        absurd ((hfits.autoAcceptRequests htrue).symm.trans hbuild) (by simp)).symm
  · show attestationModeForBuild build (effectiveConfig build config pinSet).attestationMode = _
    rw [hattestation, hfits.attestationMode]

/-- In every state of every run, while a transport runs, it is the preferred one, and what the
device does is what the build, the preferences and the presence of a PIN say. -/
theorem settings_in_force (hone : OneBuild build) (device : Pin.Device) (events : List LifeEvent)
    (transport : TransportMode) :
    let life := run (lifeStep build crypto) (Life.off build device) events
    life.on = true → life.app.workerThread = some transport →
      InUse build life.app.runtimeConfig life.app.pinState.pinSet transport
        (runtimeGetEffectiveCapabilities build life.app.capabilities) := by
  intro life hon hworker
  have hstep : ∀ life event, Running build life →
      Running build (lifeStep build crypto life event) :=
    fun _ event hlife ↦ running_lifeStep crypto hone hlife event
  have hstart : Running build (Life.off build device) :=
    fun habsurd ↦ absurd habsurd (by simp [Life.off])
  have hinForce : InForce build life.app := run_invariant_always hstep events hstart hon
  have hexact := hinForce.exact (by rw [hworker]; rfl)
  rw [hinForce.worker transport hworker, hexact]
  exact inUse_resolved hone hinForce.fits _

/-- A developer build for both transports. -/
def developerBuild : BuildOptions := { devFido21 := true, autoAcceptRequests := true }

/-- A first start, a PIN, and CTAP 2.1. -/
def firstLife : List LifeEvent :=
  [.launch {}, .work (.startup ⟨some [], some [], some []⟩ true), .work .tick,
    .work (.setPin [0x32, 0x34, 0x36, 0x38]), .work (.settings .fido2Profile fun _ ↦ 0)]

theorem settings_in_force_firstLife :
    ∃ life, life = run (lifeStep developerBuild Crypto.standIn)
        (Life.off developerBuild (World.blank _)) firstLife ∧
      UsesFido21 developerBuild life.app.runtimeConfig life.app.pinState.pinSet ∧
      InUse developerBuild life.app.runtimeConfig life.app.pinState.pinSet .usbHid
        (runtimeGetEffectiveCapabilities developerBuild life.app.capabilities) :=
  ⟨_, rfl, ⟨rfl, by decide +kernel, by decide +kernel⟩,
    settings_in_force (by simp [OneBuild, developerBuild]) _ _ _ (by decide +kernel)
      (by decide +kernel)⟩

/-- Whatever becomes of the writes of a change, and wherever the power goes: what a later launch takes
up are the preferences that were in force, or those of a change of which success was not
reported. -/
theorem settings_survive (hone : OneBuild build) (hlaws : SealLaws crypto) (device : Pin.Device)
    (events : List LifeEvent) (hevents : EveryStep (lifeStep build crypto)
      (Undisturbed build crypto) (Life.off build device) events) :
    let life := run (lifeStep build crypto) (Life.off build device) events
    (life.on = true → life.app.runtimeConfig = life.app.settled) ∧
      ∀ outcomes, TakesUp life outcomes →
        (outcomes.writes = [] → (lifeStep build crypto life (.launch outcomes)).on = true) ∧
        ((lifeStep build crypto life (.launch outcomes)).on = true →
          (lifeStep build crypto life (.launch outcomes)).app.runtimeConfig ∈
            life.app.settled :: life.app.unsettled) := by
  intro life
  have hoff : ¬(Life.off build device).on = true := by simp [Life.off]
  have hstart : Kept build (Life.off build device) :=
    ⟨List.mem_singleton_self _, fun habsurd ↦ absurd habsurd hoff,
      fun habsurd ↦ absurd habsurd hoff⟩
  have hstep : ∀ life event, Undisturbed build crypto life event → Kept build life →
      Kept build (lifeStep build crypto life event) :=
    fun _ event hevent hlife ↦ kept_lifeStep hone hlaws hlife event hevent
  have hkept : Kept build life := run_invariant hstep hevents hstart
  refine ⟨fun hon ↦ (hkept.settled hon).memory, fun outcomes htakes ↦ ?_⟩
  rcases launch_stored crypto hone life outcomes with ⟨hon, htaken⟩ | ⟨hcut, -, hwrites⟩
  · obtain ⟨-, hconfig⟩ := htaken htakes
    refine ⟨fun _ ↦ hon, fun _ ↦ ?_⟩
    rw [hconfig]
    exact hkept.stored
  · exact ⟨fun hnil ↦ absurd hnil hwrites, fun hon ↦ absurd (hcut.symm.trans hon) (by simp)⟩

/-- The power goes while automatic approval is stored, when the old settings are in the backup only,
and again in the next launch. -/
def cutLife : List LifeEvent :=
  [.other { (run (lifeStep developerBuild Crypto.standIn)
      (Life.off developerBuild (World.blank _)) firstLife).app.device with
        writes := List.replicate 6 .done ++ [.interrupted 1] } [],
    .work (.settings .autoAcceptRequests fun _ ↦ 0), .launch { writes := [.interrupted 0] }]

theorem undisturbed_cutLife :
    EveryStep (lifeStep developerBuild Crypto.standIn) (Undisturbed developerBuild Crypto.standIn)
      (Life.off developerBuild (World.blank _)) (firstLife ++ cutLife) := by
  rw [everyStep_append]
  constructor
  · refine And.intro (Or.inl ⟨rfl, Or.inl rfl⟩) (And.intro ?_ ?_)
    · show (lifeStep developerBuild Crypto.standIn (Life.off developerBuild (World.blank _))
        (.launch {})).app.device.reads = []
      decide +kernel
    · exact And.intro trivial (And.intro trivial (And.intro trivial trivial))
  · refine And.intro ⟨rfl, rfl⟩ (And.intro trivial (And.intro (Or.inr ?_) trivial))
    decide +kernel

theorem settings_survive_cutLife :
    ∃ life, life = run (lifeStep developerBuild Crypto.standIn)
        (Life.off developerBuild (World.blank _)) (firstLife ++ cutLife) ∧
      life.app.device.files runtimeConfigFilePath = none ∧ life.app.unsettled.length = 1 ∧
      (lifeStep developerBuild Crypto.standIn life (.launch {})).on = true ∧
      (lifeStep developerBuild Crypto.standIn life (.launch {})).app.runtimeConfig ∈
        life.app.settled :: life.app.unsettled := by
  refine ⟨_, rfl, by decide +kernel, by decide +kernel, ?_⟩
  have hlaunch := (settings_survive (by simp [OneBuild, developerBuild]) sealLaws_standIn
    (World.blank _) (firstLife ++ cutLife) undisturbed_cutLife).2 {} ⟨rfl, Or.inl rfl⟩
  exact ⟨hlaunch.1 rfl, hlaunch.2 (hlaunch.1 rfl)⟩

end Results

end ZeroFido.Settings
