import ZeroFido.Foundations.Run
import ZeroFido.Pin.TokenIssue

/-!
# Runs of the clientPIN component

A run is any list of operations: clientPIN commands, authorisations for makeCredential and
getAssertion, the local PIN operations, restarts and the passing of time. The outcomes of the
storage calls are part of the device it starts on, so one theorem covers every failing write and
every power loss; a power loss leaves the component as a restart finds it.

Every operation is `Sound` (`ensures_execute`), hence every run keeps the token's history
(`run_tokenHistory`) and, with reliable writes and key generation, the retry budget
(`run_retryBound`). The results about runs follow from these two: PIN guessing is bounded
(`wrong_guesses_bounded`), a token issued with consent is used once (`consent_token_single_use`), a
token is refused after its lifetime unless the tick has wrapped (`token_lifetime`), and a token
asked for with an RP ID is used for it (`permission_token_bound`).
-/

set_option autoImplicit false
set_option relaxedAutoImplicit false

namespace ZeroFido.Pin

open Foundations Storage

section Runs

/-- The clientPIN state in memory, and the device. -/
structure System where
  pin : ClientPinState
  world : Device

/-- The commands that ask for an authorisation. -/
inductive Purpose where
  | makeCredential
  | getAssertion
  deriving DecidableEq, Repr

/-- The permission a command asks for. -/
def Purpose.permission : Purpose → UInt64
  | .makeCredential => permissionMc
  | .getAssertion => permissionGa

/-- What can happen to the component. -/
inductive Operation where
  | clientPin (capabilities : Capabilities) (data : Bytes) (consent : ConsentOutcome)
    (delay outCapacity : ℕ)
  | authorize (purpose : Purpose) (request : AuthRequest)
  | verifyPin (pin : Bytes)
  | setPin (pin : Bytes)
  | replacePin (newPin : Bytes)
  | resumeAttempts
  | clearPin
  | restart
  | wait (milliseconds : ℕ)
  deriving DecidableEq, Repr

/-- The operation asks for an authorisation in which the token's age is checked. -/
def Operation.ChecksExpiry (state : ClientPinState) : Operation → Prop
  | .authorize purpose request =>
    ReachesExpiryCheck state { request with requiredPermissions := purpose.permission }
  | _ => False

variable (crypto : Crypto)

/-- One operation, from the state in memory to the state it leaves there. -/
def Operation.execute (state : ClientPinState) : Operation → Program Device ClientPinState
  | .clientPin capabilities data consent delay outCapacity => do
    let result ← pinHandleCommand crypto state capabilities data consent (waitFor delay) outCapacity
    return result.state
  | .authorize purpose request => do
    let (_, state) ← pinRequireAuth crypto state
      { request with requiredPermissions := purpose.permission }
    return state
  | .verifyPin pin => do
    let (_, state) ← pinVerifyPlaintext crypto state pin
    return state
  | .setPin pin => do
    let (_, state) ← pinSetPlaintext crypto state pin
    return state
  | .replacePin newPin => do
    let (_, state) ← pinReplacePlaintext crypto state newPin
    return state
  | .resumeAttempts => do
    let (_, state) ← pinResumeAuthAttempts crypto state
    return state
  | .clearPin => do
    let (_, state) ← pinClear crypto state
    return state
  | .restart => do
    let (_, state) ← pinInitWithResult crypto
    return state
  | .wait milliseconds => waitFor milliseconds state

/-- One step of a run. A power loss empties the memory. -/
def step (system : System) (operation : Operation) : System :=
  match (operation.execute crypto system.pin).run system.world with
  | .ok pin world => ⟨pin, world⟩
  | .error _ world => ⟨{}, world⟩

/-- The system on a device before its first start-up. -/
def start (device : Device) : System := ⟨{}, device⟩

end Runs

section Steps

variable {crypto : Crypto} {admitted : List PinEvent → ℕ → Prop} {world : Device}

theorem purpose_upTested (purpose : Purpose) : UpTested purpose.permission := by
  cases purpose with
  | makeCredential => exact Or.inl rfl
  | getAssertion => exact Or.inr rfl

/-- An operation that returns a status with the state, when its state is accounted for. -/
theorem Accounted.ensures_state {Value : Type} {state : ClientPinState}
    {operation : Program Device (Value × ClientPinState)}
    (h : Ensures operation (fun result world' ↦ Accounted state world result.2 world')
      (fun world' ↦ LostDuring world world') world) :
    Ensures (do let (_, state) ← operation; return state)
      (fun state' world' ↦ Sound crypto admitted state world state' world')
      (fun world' ↦ LostDuring world world') world := by
  simp only [ensures_bind, ensures_pure]
  exact h.mono (fun _ _ haccounted ↦ haccounted.sound) fun _ hcrash ↦ hcrash

/-- Every operation keeps both invariants. Only a check of the token's age depends on when it is
made. -/
theorem ensures_execute (state : ClientPinState) (operation : Operation)
    (hadmitted : operation.ChecksExpiry state → admitted world.trace world.clock) :
    Ensures (operation.execute crypto state)
      (fun state' world' ↦ Sound crypto admitted state world state' world')
      (fun world' ↦ LostDuring world world') world := by
  cases operation with
  | clientPin capabilities data consent delay outCapacity =>
    simp only [Operation.execute, ensures_bind, ensures_pure]
    exact ensures_pinHandleCommand state capabilities data consent delay outCapacity
  | authorize purpose request =>
    simp only [Operation.execute, ensures_bind, ensures_pure]
    exact ensures_pinRequireAuth state _ (purpose_upTested purpose) hadmitted
  | verifyPin pin => exact Accounted.ensures_state (ensures_pinVerifyPlaintext state pin)
  | setPin pin => exact Accounted.ensures_state (ensures_pinApplyPlaintext state pin true)
  | replacePin newPin => exact Accounted.ensures_state (ensures_pinApplyPlaintext state newPin false)
  | resumeAttempts => exact Accounted.ensures_state (ensures_pinResumeAuthAttempts state)
  | clearPin => exact Accounted.ensures_state (ensures_pinClear state)
  | restart => exact Accounted.ensures_state (ensures_pinInit_accounted state)
  | wait milliseconds =>
    simp only [Operation.execute, waitFor, ensures_bind, ensures_modify, ensures_pure]
    exact sound_clock state milliseconds

/-- A step keeps the token's history, also when the power is lost in it. -/
theorem step_tokenHistory {system : System} {operation : Operation}
    (hadmitted : operation.ChecksExpiry system.pin →
      admitted system.world.trace system.world.clock)
    (h : TokenHistory crypto admitted system.pin system.world) :
    TokenHistory crypto admitted (step crypto system operation).pin
      (step crypto system operation).world := by
  have hspec : Ensures (operation.execute crypto system.pin)
      (fun pin world' ↦ Sound crypto admitted system.pin system.world pin world')
      (fun world' ↦ LostDuring system.world world') system.world :=
    ensures_execute system.pin operation hadmitted
  unfold Ensures at hspec
  unfold step
  cases hrun : (operation.execute crypto system.pin).run system.world with
  | ok pin world =>
    rw [hrun] at hspec
    exact hspec.token h
  | error interruption world =>
    rw [hrun] at hspec
    exact h.bookkeeping ⟨Or.inr rfl, hspec.records⟩

/-- The system has reliable writes and key generation, and is within the retry budget. -/
structure Reliable (system : System) : Prop where
  writes : system.world.writes = []
  keyGenerations : system.world.keyGenerations = []
  bound : RetryBound system.pin system.world

/-- A reliable system stays reliable. -/
theorem step_reliable {system : System} (operation : Operation) (h : Reliable system) :
    Reliable (step crypto system operation) := by
  have hspec : Ensures (operation.execute crypto system.pin)
      (fun pin world' ↦ Sound crypto (fun _ _ ↦ True) system.pin system.world pin world')
      (fun world' ↦ LostDuring system.world world') system.world :=
    ensures_execute system.pin operation fun _ ↦ trivial
  unfold Ensures at hspec
  unfold step
  cases hrun : (operation.execute crypto system.pin).run system.world with
  | ok pin world =>
    rw [hrun] at hspec
    exact ⟨hspec.writes_nil h.writes, hspec.keyGenerations_nil h.keyGenerations,
      hspec.retry h.writes h.keyGenerations h.bound⟩
  | error interruption world =>
    rw [hrun] at hspec
    exact absurd h.writes hspec.listed

end Steps

section Invariants

variable {crypto : Crypto} {admitted : List PinEvent → ℕ → Prop} {device : Device}

/-- Every check of a token's age in the run is made at an admitted moment. -/
def AdmittedRun (crypto : Crypto) (admitted : List PinEvent → ℕ → Prop) (device : Device)
    (operations : List Operation) : Prop :=
  EveryStep (step crypto)
    (fun system operation ↦ operation.ChecksExpiry system.pin →
      admitted system.world.trace system.world.clock) (start device) operations

/-- A run keeps the token's history. -/
theorem run_tokenHistory (hstart : device.trace = []) (operations : List Operation)
    (hadmitted : AdmittedRun crypto admitted device operations) :
    TokenHistory crypto admitted (run (step crypto) (start device) operations).pin
      (run (step crypto) (start device) operations).world := by
  have hfirst : TokenHistory crypto admitted (start device).pin (start device).world := by
    refine ⟨?_, fun hactive ↦ absurd hactive Bool.false_ne_true⟩
    change EveryEvent _ device.trace
    rw [hstart]
    exact everyEvent_nil
  have hstep (system : System) (operation : Operation)
      (hmoment : operation.ChecksExpiry system.pin → admitted system.world.trace system.world.clock)
      (htoken : TokenHistory crypto admitted system.pin system.world) :
      TokenHistory crypto admitted (step crypto system operation).pin
        (step crypto system operation).world := step_tokenHistory hmoment htoken
  exact run_invariant hstep hadmitted hfirst

/-- A run on a reliable device keeps the retry budget. -/
theorem run_retryBound (hwrites : device.writes = []) (hkeys : device.keyGenerations = [])
    (hstart : device.trace = []) (operations : List Operation) :
    Reliable (run (step crypto) (start device) operations) := by
  refine run_invariant_always (fun system operation ↦ step_reliable operation) operations ?_
  refine ⟨hwrites, hkeys, ?_, fun hset ↦ absurd hset Bool.false_ne_true, fun raw _ ↦ ?_⟩
  · change EveryEvent _ device.trace
    rw [hstart]
    exact everyEvent_nil
  · change AtMostRetries (pinRetriesMax - wrongSinceReset device.trace) raw
    rw [hstart]
    exact atMostRetries_max raw

end Invariants

section Results

/-- Between two resets of the retry counter no more wrong PIN hashes are compared with the stored
one than the counter has retries, whatever operations and restarts the run is made of. -/
theorem wrong_guesses_bounded (crypto : Crypto) (device : Device) (operations : List Operation)
    (hwrites : device.writes = []) (hkeys : device.keyGenerations = [])
    (hstart : device.trace = []) (before between after : List PinEvent)
    (htrace : (run (step crypto) (start device) operations).world.trace = before ++ between ++ after)
    (hreset : PinEvent.retriesReset ∉ between) :
    between.count (.hashCompared false) ≤ pinRetriesMax := by
  have hreliable : Reliable (run (step crypto) (start device) operations) :=
    run_retryBound hwrites hkeys hstart operations
  have hhistory := hreliable.bound.history
  rw [htrace] at hhistory
  calc between.count (.hashCompared false)
      ≤ wrongSinceReset (before ++ between) := count_le_wrongSinceReset before between hreset
    _ ≤ pinRetriesMax := wrongSinceReset_le hhistory.of_append

/-- The PIN "1234". -/
def examplePin : Bytes := [0x31, 0x32, 0x33, 0x34]

/-- A wrong PIN, tried over and over: after three wrong guesses only a restart or the local resumption
lets the next one be compared. -/
def guesses : List Operation :=
  let wrong := .verifyPin [0x35, 0x36, 0x37, 0x38]
  [.restart, .setPin examplePin, wrong, wrong, wrong, .resumeAttempts, wrong, wrong, wrong, .restart,
    .resumeAttempts, wrong, wrong, wrong, .restart, .resumeAttempts, wrong]

theorem wrong_guesses_bounded_guesses :
    (List.replicate 8 (PinEvent.hashCompared false)).count (.hashCompared false) ≤ pinRetriesMax :=
  wrong_guesses_bounded Crypto.standIn (World.blank PinEvent) guesses rfl rfl rfl
    [.retriesReset] (List.replicate 8 (.hashCompared false)) [] (by decide +kernel) (by decide)

/-- A token issued with consent is used at most once before a new token is issued, whatever is asked
of it and whichever storage calls fail. -/
theorem consent_token_single_use (crypto : Crypto) (device : Device)
    (operations : List Operation) (hstart : device.trace = [])
    (before between after : List PinEvent) (time : ℕ) (grant : TokenGrant)
    (htrace : (run (step crypto) (start device) operations).world.trace =
      before ++ .tokenIssued time grant :: between ++ after)
    (hmanaged : grant.managed = true) (hissue : ∀ event ∈ between, event.isIssue = false) :
    between.countP PinEvent.isAuthorized ≤ 1 := by
  have hhistory : TokenHistory crypto (fun _ _ ↦ True)
      (run (step crypto) (start device) operations).pin (run (step crypto) (start device) operations).world :=
    run_tokenHistory hstart operations (everyStep_of_forall (fun _ _ _ ↦ trivial) operations)
  have hallowed := hhistory.history
  rw [htrace] at hallowed
  exact authorized_le_one hmanaged hissue hallowed.of_append

/-- The profile of a device that asks for consent before it hands out any token. -/
def exampleCapabilities : Capabilities :=
  { pinUvAuthProtocol2Enabled := true
    clientPinTokenRequiresConsent := true
    pinUvAuthTokenEnabled := true }

/-- The platform's key and the hash of `examplePin`, as they lie in a request. -/
def exampleKeyAgreement : Bytes :=
  [0x03, 0xA5, 0x01, 0x02, 0x03, 0x38, 0x18, 0x20, 0x01, 0x21, 0x58, 0x20] ++ zeroBytes 32 ++
    [0x22, 0x58, 0x20] ++ zeroBytes 32

def examplePinHash : Bytes := [0x06, 0x50] ++ examplePin ++ zeroBytes 12

/-- A getPinToken request. -/
def getPinTokenExample : Bytes :=
  [0xA4, 0x01, 0x01, 0x02, 0x05] ++ exampleKeyAgreement ++ examplePinHash

/-- A getPinUvAuthTokenUsingPinWithPermissions request for an RP ID of fewer than 24 bytes. -/
def getPermissionTokenExample (rpId : Bytes) : Bytes :=
  [0xA6, 0x01, 0x01, 0x02, 0x09] ++ exampleKeyAgreement ++ examplePinHash ++
    [0x09, 0x03, 0x0A, 0x60 + UInt8.ofNat rpId.length] ++ rpId

/-- A request whose `pinUvAuthParam` is right for every token under `Crypto.standIn`. -/
def authorizeExample (rpId : Bytes) : Operation :=
  .authorize .getAssertion
    { uvRequested := false
      hasPinAuth := true
      clientDataHash := zeroBytes 32
      pinAuth := zeroBytes 16
      hasPinProtocol := true
      pinProtocol := 1
      rpId := some rpId
      requiredPermissions := 0 }

/-- The approval of a consent request. -/
def approved : ConsentOutcome := .answered true .approved

/-- A run that obtains a token with consent, uses it, and tries to use it again. -/
def tokenUsedTwice : List Operation :=
  [.restart, .setPin examplePin, .clientPin exampleCapabilities getPinTokenExample approved 0 1024,
    authorizeExample [0x61], authorizeExample [0x61]]

theorem consent_token_single_use_tokenUsedTwice :
    [PinEvent.authorized 0 permissionGa (some [0x61])].countP PinEvent.isAuthorized ≤ 1 := by
  have htrace : (run (step Crypto.standIn) (start (World.blank PinEvent)) tokenUsedTwice).world.trace =
      [.retriesReset, .hashCompared true, .retriesReset, .hashCompared true] ++
        .tokenIssued 0 { permissionsMode := false, rpId := none, managed := true } ::
          [.authorized 0 permissionGa (some [0x61])] ++ [] := by decide +kernel
  exact consent_token_single_use Crypto.standIn (World.blank PinEvent) tokenUsedTwice rfl _ _ _ _ _
    htrace rfl (by decide)

/-- The lifetime has passed, but the 32-bit difference of the ticks, read as a signed number, is
below it. -/
def TickMisleads (elapsed : ℕ) : Prop :=
  pinTokenTimeoutMs ≤ elapsed ∧
    (elapsed % 2 ^ 32 < pinTokenTimeoutMs ∨ 2 ^ 31 ≤ elapsed % 2 ^ 32)

/-- A token the tick reports fresh has not outlived its lifetime, unless the tick misleads. -/
theorem elapsed_lt_timeout {elapsed : ℕ} (htick : ¬TickMisleads elapsed)
    (hfresh : asInt32 (elapsed % 2 ^ 32) < pinTokenTimeoutMs) : elapsed < pinTokenTimeoutMs := by
  by_contra hexpired
  apply htick
  refine ⟨Nat.le_of_not_lt hexpired, ?_⟩
  by_cases hnegative : 2 ^ 31 ≤ elapsed % 2 ^ 32
  · exact Or.inr hnegative
  · unfold asInt32 at hfresh
    rw [if_pos (Nat.lt_of_not_le hnegative)] at hfresh
    exact Or.inl (by exact_mod_cast hfresh)

/-- In every run in which the tick does not mislead when a token's age is checked, each request that
is authorised is authorised by a token issued less than its lifetime before. -/
theorem token_lifetime (crypto : Crypto) (device : Device) (operations : List Operation)
    (hstart : device.trace = [])
    (htick : AdmittedRun crypto (fun trace clock ↦ ∀ issued grant,
      lastIssue trace = some (issued, grant) → ¬TickMisleads (clock - issued)) device operations)
    (before after : List PinEvent) (time : ℕ) (permissions : UInt64) (rpId : Option Bytes)
    (htrace : (run (step crypto) (start device) operations).world.trace =
      before ++ .authorized time permissions rpId :: after) :
    ∃ issued grant, lastIssue before = some (issued, grant) ∧ issued ≤ time ∧
      time < issued + pinTokenTimeoutMs := by
  have hhistory := (run_tokenHistory hstart operations htick).history
  obtain ⟨hadmitted, issued, grant, hlast, hpast, hfresh, -, -⟩ :=
    hhistory before (.authorized time permissions rpId) after htrace
  refine ⟨issued, grant, hlast, hpast, ?_⟩
  have hlt := elapsed_lt_timeout (hadmitted issued grant hlast) hfresh
  omega

/-- A run that obtains a token. -/
def tokenObtained : List Operation :=
  [.restart, .setPin examplePin, .clientPin exampleCapabilities getPinTokenExample approved 0 1024]

/-- The record of `tokenObtained`, after any further waiting. -/
def tokenObtainedTrace : List PinEvent :=
  [.retriesReset, .hashCompared true, .retriesReset, .hashCompared true,
    .tokenIssued 0 { permissionsMode := false, rpId := none, managed := true }]

/-- A getAssertion without a `pinUvAuthParam`. -/
def assertionWithoutPin : Operation :=
  .authorize .getAssertion
    { uvRequested := false
      hasPinAuth := false
      clientDataHash := zeroBytes 32
      pinAuth := []
      hasPinProtocol := false
      pinProtocol := 0
      rpId := some [0x61]
      requiredPermissions := 0 }

/-- The token is used shortly before it expires. No age is checked for the request without a
`pinUvAuthParam`, which comes when the tick misleads. -/
theorem token_lifetime_shortly_before_timeout :
    ∃ issued grant, lastIssue tokenObtainedTrace = some (issued, grant) ∧ issued ≤ 29999 ∧
      29999 < issued + pinTokenTimeoutMs := by
  let before := tokenObtained ++ [.wait 29999]
  let after := [authorizeExample [0x61], .wait (2 ^ 31 - 29999), assertionWithoutPin]
  have htrace : (run (step Crypto.standIn) (start (World.blank PinEvent))
      (before ++ after)).world.trace =
      tokenObtainedTrace ++ .authorized 29999 permissionGa (some [0x61]) :: [] := by
    decide +kernel
  have htick : AdmittedRun Crypto.standIn (fun trace clock ↦ ∀ issued grant,
      lastIssue trace = some (issued, grant) → ¬TickMisleads (clock - issued))
      (World.blank PinEvent) (before ++ after) := by
    have hclock : (run (step Crypto.standIn) (start (World.blank PinEvent)) before).world.clock =
        29999 := by decide +kernel
    refine (everyStep_append _ _).mpr ⟨⟨nofun, nofun, nofun, nofun, trivial⟩,
      fun _ issued grant _ hmisleads ↦ ?_, nofun, fun hchecks ↦ ?_, trivial⟩
    · rw [hclock] at hmisleads
      have htimeout : pinTokenTimeoutMs = 30000 := rfl
      have := hmisleads.1
      omega
    · exact absurd hchecks.hasPinAuth Bool.false_ne_true
  exact token_lifetime Crypto.standIn (World.blank PinEvent) _ rfl htick _ _ _ _ _ htrace

/-- A token that is accepted `2 ^ 31` milliseconds after its issue. -/
theorem token_accepted_after_lifetime :
    ¬∀ (crypto : Crypto) (device : Device) (operations : List Operation), device.trace = [] →
      ∀ (before after : List PinEvent) (time : ℕ) (permissions : UInt64) (rpId : Option Bytes),
      (run (step crypto) (start device) operations).world.trace =
        before ++ .authorized time permissions rpId :: after →
      ∃ issued grant, lastIssue before = some (issued, grant) ∧
        time < issued + pinTokenTimeoutMs := by
  intro hclaim
  have htrace : (run (step Crypto.standIn) (start (World.blank PinEvent))
      (tokenObtained ++ [.wait (2 ^ 31), authorizeExample [0x61]])).world.trace =
      tokenObtainedTrace ++ .authorized (2 ^ 31) permissionGa (some [0x61]) :: [] := by
    decide +kernel
  obtain ⟨issued, grant, hlast, hlt⟩ := hclaim _ _ _ rfl _ _ _ _ _ htrace
  have hissued : lastIssue tokenObtainedTrace =
      some (0, { permissionsMode := false, rpId := none, managed := true }) := rfl
  rw [hissued, Option.some.injEq, Prod.mk.injEq] at hlast
  rw [← hlast.1] at hlt
  exact absurd hlt (by decide)

/-- A token asked for with a non-empty RP ID is used for that RP ID only, as far as the digest tells
RP IDs apart. -/
theorem permission_token_bound (crypto : Crypto) (device : Device) (operations : List Operation)
    (hstart : device.trace = []) (before after : List PinEvent) (time issued : ℕ)
    (permissions : UInt64) (rpId : Option Bytes) (grant : TokenGrant) (bound : Bytes)
    (htrace : (run (step crypto) (start device) operations).world.trace =
      before ++ .authorized time permissions rpId :: after)
    (hlast : lastIssue before = some (issued, grant)) (hmode : grant.permissionsMode = true)
    (hbound : grant.rpId = some bound) (hne : bound ≠ [])
    (hsha256 : ∀ other, (crypto.sha256 other).take 32 = (crypto.sha256 bound).take 32 →
      other = bound) :
    rpId = some bound := by
  have hhistory : TokenHistory crypto (fun _ _ ↦ True)
      (run (step crypto) (start device) operations).pin (run (step crypto) (start device) operations).world :=
    run_tokenHistory hstart operations (everyStep_of_forall (fun _ _ _ ↦ trivial) operations)
  obtain ⟨-, issued', grant', hlast', -, -, -, hdigest⟩ :=
    hhistory.history before (.authorized time permissions rpId) after htrace
  obtain ⟨-, rfl⟩ := Prod.mk.inj (Option.some.inj (hlast.symm.trans hlast'))
  obtain ⟨used, hused, hsame⟩ := hdigest bound hmode hbound hne
  rw [hused, hsha256 used hsame]

/-- Primitives whose digest singles out one RP ID. -/
def exampleCrypto (bound : Bytes) : Crypto :=
  { Crypto.standIn with
    sha256 := fun data ↦ if data = bound then List.replicate 32 0xFF
      else (data ++ List.replicate 31 0).take 31 ++ [0] }

theorem exampleCrypto_sha256 (bound other : Bytes)
    (h : ((exampleCrypto bound).sha256 other).take 32 =
      ((exampleCrypto bound).sha256 bound).take 32) : other = bound := by
  by_contra hne
  have hother : ((exampleCrypto bound).sha256 other).take 32 =
      (other ++ List.replicate 31 0).take 31 ++ [0] := by
    simp only [exampleCrypto, hne, if_false]
    rw [List.take_of_length_le]
    rw [List.length_append, List.length_take]
    exact Nat.succ_le_succ (Nat.min_le_left _ _)
  have hbound : ((exampleCrypto bound).sha256 bound).take 32 = List.replicate 31 0xFF ++ [0xFF] := by
    simp only [exampleCrypto, if_true]
    rfl
  rw [hother, hbound, List.append_singleton_inj] at h
  exact absurd h.2 (by decide)

/-- A run that asks for a token for one RP ID and uses it for another. -/
def tokenBoundAndUsed (bound used : Bytes) : List Operation :=
  [.restart, .setPin examplePin,
    .clientPin exampleCapabilities (getPermissionTokenExample bound) approved 0 1024,
    authorizeExample used]

/-- The record of `tokenBoundAndUsed` up to the use of the token. -/
def tokenBoundTrace (bound : Bytes) : List PinEvent :=
  [.retriesReset, .hashCompared true, .retriesReset, .hashCompared true,
    .tokenIssued 0 { permissionsMode := true, rpId := some bound, managed := true }]

theorem permission_token_bound_example :
    (run (step (exampleCrypto [0x61])) (start (World.blank PinEvent))
      (tokenBoundAndUsed [0x61] [0x61])).world.trace =
      tokenBoundTrace [0x61] ++ .authorized 0 permissionGa (some [0x61]) :: [] ∧
    some [0x61] = some ([0x61] : Bytes) := by
  have htrace : (run (step (exampleCrypto [0x61])) (start (World.blank PinEvent))
      (tokenBoundAndUsed [0x61] [0x61])).world.trace =
      tokenBoundTrace [0x61] ++ .authorized 0 permissionGa (some [0x61]) :: [] := by
    decide +kernel
  exact ⟨htrace, permission_token_bound (exampleCrypto [0x61]) (World.blank PinEvent) _ rfl _ _ _ 0
    _ _ _ _ htrace rfl rfl rfl (by simp) (exampleCrypto_sha256 [0x61])⟩

/-- A token asked for with an empty RP ID is accepted for another RP ID. -/
theorem empty_rpId_token_unbound :
    ¬∀ (crypto : Crypto) (device : Device) (operations : List Operation), device.trace = [] →
      ∀ (before after : List PinEvent) (time issued : ℕ) (permissions : UInt64)
        (rpId : Option Bytes) (grant : TokenGrant) (bound : Bytes),
      (run (step crypto) (start device) operations).world.trace =
        before ++ .authorized time permissions rpId :: after →
      lastIssue before = some (issued, grant) → grant.permissionsMode = true →
      grant.rpId = some bound →
      (∀ other, (crypto.sha256 other).take 32 = (crypto.sha256 bound).take 32 → other = bound) →
      rpId = some bound := by
  intro hclaim
  have htrace : (run (step (exampleCrypto [])) (start (World.blank PinEvent))
      (tokenBoundAndUsed [] [0x61])).world.trace =
      tokenBoundTrace [] ++ .authorized 0 permissionGa (some [0x61]) :: [] := by
    decide +kernel
  have hbound := hclaim (exampleCrypto []) (World.blank PinEvent) _ rfl _ _ _ 0 _ _ _ _ htrace
    rfl rfl rfl (exampleCrypto_sha256 [])
  exact absurd hbound (by decide)

end Results

end ZeroFido.Pin
