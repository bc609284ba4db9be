import ZeroFido.Pin.NewPin
import ZeroFido.Storage.Working

/-!
# The clientPIN operations on a working device

When every call succeeds, each operation on the PIN has one outcome. The state that it leaves is
given as an equation, with the PIN file that goes with it.
-/

set_option autoImplicit false
set_option relaxedAutoImplicit false

namespace ZeroFido.Pin

open Foundations Storage Store

variable {crypto : Crypto} {ValidKey : Bytes → Prop} {state : ClientPinState} {world : Device}

section Stays

theorem sustains_working_persist (hset : state.pinSet = true) :
    Sustains (Working ValidKey) (fun _ ↦ True) (pinStateStorePersist crypto state) := by
  unfold pinStateStorePersist
  simp only [hset, Bool.not_true, Bool.false_eq_true, if_false]
  refine sustains_working_ensureAppDataDir.bind fun _ _ ↦ .ite (fun _ ↦ .pure trivial) fun _ ↦ ?_
  refine sustains_working_draw fun iv ↦ (sustains_working_enclaveSeal crypto iv _).bind
    fun encrypted _ ↦ ?_
  cases encrypted with
  | none => exact .pure trivial
  | some encryptedPinHash =>
    have hseal : Sustains (Working ValidKey) (fun _ ↦ True) (pinSealRetryState crypto state.pinHash
        (UInt8.ofNat state.pinRetries) (UInt8.ofNat state.pinConsecutiveMismatches)
        (if state.pinAuthBlocked then pinFileFlagAuthBlocked else 0)) := by
      refine sustains_working_draw fun iv ↦ (sustains_working_enclaveSeal crypto iv _).bind
        fun sealed _ ↦ ?_
      cases sealed <;> exact .pure trivial
    refine hseal.bind fun sealed _ ↦ ?_
    cases sealed with
    | none => exact .pure trivial
    | some sealed => exact sustains_working_writeFileAtomic pinPaths (encode_ne_nil _)

theorem sustains_working_load :
    Sustains (Working ValidKey) (fun _ ↦ True) (pinStateStoreLoad crypto state) := by
  refine (sustains_working_readFile _ _).bind fun raw _ ↦ ?_
  cases raw with
  | none =>
    exact (sustains_working_fileExists _).bind fun _ _ ↦ .ite (fun _ ↦ .pure trivial)
      fun _ ↦ .pure trivial
  | some raw =>
    refine .ite (fun _ ↦ .pure trivial) fun _ ↦ .ite (fun _ ↦ .pure trivial) fun _ ↦ ?_
    refine (sustains_working_enclaveOpen crypto _ _).bind fun opened _ ↦ ?_
    cases opened with
    | none => exact .pure trivial
    | some pinHash =>
      refine Sustains.bind (?_ : Sustains (Working ValidKey) (fun _ ↦ True) _) fun _ _ ↦
        .ite (fun _ ↦ .pure trivial) fun _ ↦ .pure trivial
      refine (sustains_working_enclaveOpen crypto _ _).bind fun opened _ ↦ ?_
      cases opened with
      | none => exact .pure trivial
      | some plain => exact .ite (fun _ ↦ .pure trivial) fun _ ↦ .pure trivial

theorem sustains_working_refreshRuntimeSecrets :
    Sustains (Working ValidKey) (fun result ↦ ∃ key, result.2 = some key ∧
      KeyPair crypto ValidKey key)
      (pinRefreshRuntimeSecrets crypto : Program Device (Bytes × Option KeyAgreementKey)) :=
  sustains_working_draw fun _ ↦ (sustains_working_generateKeyAgreementKey crypto).bind
    fun _ hkey ↦ .pure hkey

theorem sustains_working_pinProtocolEncrypt {pinProtocol outCapacity : ℕ} {keys : ProtocolKeys}
    {plaintext : Bytes} :
    Sustains (Working ValidKey) (fun _ ↦ True)
      (pinProtocolEncrypt crypto pinProtocol keys plaintext outCapacity) := by
  unfold pinProtocolEncrypt
  refine .ite (fun _ ↦ .pure trivial) fun _ ↦ .ite (fun _ ↦ ?_) fun _ ↦ ?_
  · exact .ite (fun _ ↦ .pure trivial) fun _ ↦ .pure trivial
  · exact .ite (fun _ ↦ .pure trivial) fun _ ↦ sustains_working_draw fun _ ↦ .pure trivial

end Stays

section Outcomes

/-- The device still works, no time has passed, and the PIN file is the state's. -/
structure Filed (crypto : Crypto) (ValidKey : Bytes → Prop) (state : ClientPinState)
    (world world' : Device) : Prop where
  working : Working ValidKey world'
  clock : world'.clock = world.clock
  file : ∃ raw, world'.files pinFilePath = some raw ∧ Saved crypto state raw

theorem Filed.noted {world' : Device} (h : Filed crypto ValidKey state world world')
    (event : PinEvent) :
    Filed crypto ValidKey state world { world' with trace := world'.trace ++ [event] } :=
  ⟨h.working.later _ _, h.clock, h.file⟩

theorem ensures_persist_working (h : Working ValidKey world) (hset : state.pinSet = true) :
    Ensures (pinStateStorePersist crypto state)
      (fun ok world' ↦ ok = true ∧ Filed crypto ValidKey state world world')
      (fun _ ↦ False) world := by
  refine ((ensures_pinStateStorePersist_saved hset).and
    (sustains_working_persist hset world h)).mono ?_ fun _ hcrash ↦ hcrash.1.listed h.writes
  rintro ok final ⟨⟨hquiet, hdone, -, hlisted⟩, -, hworking⟩
  have hok : ok = true := by
    by_contra hfailed
    obtain hwrites | henclave := hlisted (Bool.not_eq_true _ ▸ hfailed)
    · exact hwrites h.writes
    · exact henclave h.enclave
  exact ⟨hok, hworking, hquiet.clock_eq, hdone hok⟩

/-- A right PIN. -/
theorem ensures_pinAuthSuccess_working (h : Working ValidKey world) (hset : state.pinSet = true) :
    Ensures (pinAuthSuccess crypto state)
      (fun result world' ↦
        result = (.success, { state with pinRetries := pinRetriesMax }.clearAuthBlockState) ∧
          Filed crypto ValidKey result.2 world world')
      (fun _ ↦ False) world := by
  have hnext : ({ state with
      pinRetries := pinRetriesMax } : ClientPinState).clearAuthBlockState.pinSet = true := hset
  simp only [pinAuthSuccess, ensures_bind]
  refine (ensures_persist_working h hnext).mono ?_ fun _ hfalse ↦ hfalse
  rintro ok final ⟨rfl, hfiled⟩
  exact ⟨rfl, hfiled.noted _⟩

/-- A wrong PIN, or one that cannot be decrypted. -/
theorem ensures_pinAuthFailure_working (h : Working ValidKey world) (hset : state.pinSet = true)
    (hblocked : state.pinAuthBlocked = false) :
    Ensures (pinAuthFailure crypto state)
      (fun result world' ↦ ∃ key, KeyPair crypto ValidKey key ∧
        result = (if (penalised state key).pinRetries = 0 then .pinBlocked
          else if (penalised state key).pinAuthBlocked then .pinAuthBlocked else .pinInvalid,
            penalised state key) ∧
        Filed crypto ValidKey result.2 world world')
      (fun _ ↦ False) world := by
  simp only [pinAuthFailure, hblocked, Bool.false_eq_true, if_false, ensures_bind]
  have hquiet : Ensures crypto.generateKeyAgreementKey (fun _ world' ↦ Idle world world')
      (fun _ ↦ False) world := Crypto.ensures_generateKeyAgreementKey fun _ _ hidle _ ↦ hidle
  refine ((sustains_working_generateKeyAgreementKey crypto world h).and hquiet).mono ?_
    fun _ hcrash ↦ hcrash.2
  rintro generated middle ⟨⟨⟨key, rfl, hkey⟩, hworking⟩, hidle⟩
  have hset' : (penalised state key).pinSet = true := hset
  simp only [persistOrBlock, ensures_bind]
  refine (ensures_persist_working hworking hset').mono ?_ fun _ hfalse ↦ hfalse
  rintro ok final ⟨rfl, hfiled⟩
  simp only [if_true, ensures_pure, ensures_ite]
  have hhere : Filed crypto ValidKey (penalised state key) world final :=
    ⟨hfiled.working, hfiled.clock.trans hidle.clock_eq, hfiled.file⟩
  refine ⟨fun hnone ↦ ⟨key, hkey, ?_, hhere⟩, fun hsome ↦ ⟨key, hkey, ?_, hhere⟩⟩
  · rw [if_pos hnone]
  · rw [if_neg hsome]

/-- What is compared decides between the two. -/
theorem ensures_comparePinHash_working (h : Working ValidKey world) (hset : state.pinSet = true)
    (hblocked : state.pinAuthBlocked = false) (pinHash : Bytes) :
    Ensures (comparePinHash crypto state pinHash)
      (fun result world' ↦ Filed crypto ValidKey result.2 world world' ∧
        (constantTimeEqual pinHash state.pinHash pinHashLen = true → result =
          (.success, { state with pinRetries := pinRetriesMax }.clearAuthBlockState)) ∧
        (constantTimeEqual pinHash state.pinHash pinHashLen = false → ∃ key,
          KeyPair crypto ValidKey key ∧
            result = (if (penalised state key).pinRetries = 0 then .pinBlocked
              else if (penalised state key).pinAuthBlocked then .pinAuthBlocked else .pinInvalid,
                penalised state key)))
      (fun _ ↦ False) world := by
  simp only [comparePinHash, note, ensures_bind, ensures_modify]
  have hworking := h.later world.clock
    (world.trace ++ [PinEvent.hashCompared (constantTimeEqual pinHash state.pinHash pinHashLen)])
  cases hequal : constantTimeEqual pinHash state.pinHash pinHashLen with
  | false =>
    rw [hequal] at hworking
    refine (ensures_pinAuthFailure_working hworking hset hblocked).mono ?_ fun _ hfalse ↦ hfalse
    rintro result final ⟨key, hkey, hresult, hfiled⟩
    exact ⟨⟨hfiled.working, hfiled.clock, hfiled.file⟩, by simp, fun _ ↦ ⟨key, hkey, hresult⟩⟩
  | true =>
    rw [hequal] at hworking
    refine (ensures_pinAuthSuccess_working hworking hset).mono ?_ fun _ hfalse ↦ hfalse
    rintro result final ⟨hresult, hfiled⟩
    exact ⟨⟨hfiled.working, hfiled.clock, hfiled.file⟩, fun _ ↦ hresult, by simp⟩

/-- The state with a new PIN. -/
def installed (crypto : Crypto) (state : ClientPinState) (pin token : Bytes) : ClientPinState :=
  { { state with
      pinSet := true
      pinRetries := pinRetriesMax
      pinHash := (crypto.sha256 pin).take pinHashLen
    }.clearAuthBlockState.invalidateTokenState with pinToken := token }

/-- A PIN that the policy allows is installed. -/
theorem ensures_pinApplyPlaintext_working (h : Working ValidKey world) {pin : Bytes}
    (hpolicy : pinValidatePlaintextPolicy pin = .success) {requireUnset : Bool}
    (hunset : (requireUnset && state.pinSet) = false) :
    Ensures (pinApplyPlaintext crypto state pin requireUnset)
      (fun result world' ↦ ∃ token, result = (.success, installed crypto state pin token) ∧
        Filed crypto ValidKey result.2 world world')
      (fun _ ↦ False) world := by
  simp only [pinApplyPlaintext, hpolicy, hunset, ne_eq, not_true_eq_false, Bool.false_eq_true,
    if_false, ensures_bind]
  have hquiet : Ensures (randomFill pinTokenLen) (fun _ world' ↦ Idle world world')
      (fun _ ↦ False) world := ensures_randomFill fun _ _ hidle _ ↦ hidle
  refine ((sustains_working_randomFill pinTokenLen world h).and hquiet).mono ?_
    fun _ hcrash ↦ hcrash.2
  rintro token middle ⟨⟨-, hworking⟩, hidle⟩
  have hset : ({ state with
      pinSet := true
      pinRetries := pinRetriesMax
      pinHash := (crypto.sha256 pin).take pinHashLen
    } : ClientPinState).clearAuthBlockState.pinSet = true := rfl
  refine (ensures_persist_working hworking hset).mono ?_ fun _ hfalse ↦ hfalse
  rintro ok final ⟨rfl, hfiled⟩
  exact ⟨token, rfl, (⟨hfiled.working, hfiled.clock.trans hidle.clock_eq, hfiled.file⟩ :
    Filed crypto ValidKey (installed crypto state pin token) world final).noted _⟩

/-- The use of a token that allows it. -/
theorem ensures_pinCommitAuthorization_working (h : Working ValidKey world)
    (hset : state.pinSet = true) (request : AuthRequest) :
    Ensures (pinCommitAuthorization crypto state request)
      (fun result world' ↦ result = ((.success, true),
          if state.pinTokenPermissionsManaged then
            consumeUpTestedPermissions state.clearAuthBlockState request.requiredPermissions
          else state.clearAuthBlockState) ∧
        Filed crypto ValidKey state.clearAuthBlockState world world')
      (fun _ ↦ False) world := by
  simp only [pinCommitAuthorization, ensures_bind]
  have hset' : state.clearAuthBlockState.pinSet = true := hset
  refine (ensures_persist_working h hset').mono ?_ fun _ hfalse ↦ hfalse
  rintro ok final ⟨rfl, hfiled⟩
  exact ⟨rfl, hfiled.noted _⟩

end Outcomes

section Restarts

/-- The state that a start-up leaves for what the PIN file holds. -/
def restarted (found : Option SavedPin) (token : Bytes) (key : KeyAgreementKey) :
    ClientPinState where
  pinSet := found.isSome
  pinHash := found.elim (zeroBytes pinHashLen) SavedPin.pinHash
  pinRetries := found.elim pinRetriesMax SavedPin.pinRetries
  pinToken := token
  keyAgreement := key

/-- What a restart or a reset ends in. -/
structure Started (crypto : Crypto) (ValidKey : Bytes → Prop) (found : Option SavedPin)
    (state : ClientPinState) (world world' : Device) : Prop where
  working : Working ValidKey world'
  clock : world'.clock = world.clock
  state : ∃ token key, KeyPair crypto ValidKey key ∧ state = restarted found token key

/-- The end of a start-up: a token and a key are drawn. -/
theorem ensures_refreshRuntimeSecrets_working (h : Working ValidKey world)
    {post : Bytes × Option KeyAgreementKey → Device → Prop} {crash : Device → Prop}
    (hpost : ∀ token key world', Idle world world' → Working ValidKey world' →
      KeyPair crypto ValidKey key → post (token, some key) world') :
    Ensures (pinRefreshRuntimeSecrets crypto) post crash world := by
  have hdrawn : Ensures (pinRefreshRuntimeSecrets crypto) (fun _ world' ↦ Idle world world')
      (fun _ ↦ False) world :=
    ensures_pinRefreshRuntimeSecrets fun _ _ _ hidle _ ↦ hidle
  refine ((sustains_working_refreshRuntimeSecrets world h).and hdrawn).mono ?_
    fun _ hcrash ↦ hcrash.2.elim
  rintro ⟨token, generated⟩ final ⟨⟨⟨key, hgenerated, hkey⟩, hworking⟩, hidle⟩
  simp only at hgenerated
  rw [hgenerated]
  exact hpost token key final hidle hworking hkey

/-- A load without a file leaves the state as it was. -/
theorem ensures_pinStateStoreLoad_missing (hnone : world.files pinFilePath = none) :
    Ensures (pinStateStoreLoad crypto state)
      (fun result world' ↦ result = (.missing, state) ∧ world' = world) (fun _ ↦ False) world := by
  simp [pinStateStoreLoad, readFile, hnone]

/-- A restart finds the PIN that the file holds, or none. -/
theorem ensures_pinInitWithResult_working (h : Working ValidKey world) (found : Option SavedPin)
    (hfile : (found = none ∧ logical world.files pinFilePath = none) ∨ ∃ raw pin,
      found = some pin ∧ world.files pinFilePath = some raw ∧ loadedPin crypto raw = some pin) :
    Ensures (pinInitWithResult crypto)
      (fun result world' ↦ result.1 = .ok ∧
        Started crypto ValidKey found result.2 world world' ∧
        logical world'.files pinFilePath = logical world.files pinFilePath ∧
        (found.isSome → world'.files pinFilePath = world.files pinFilePath))
      (fun _ ↦ False) world := by
  simp only [pinInitWithResult, pinStateStoreCleanupTemp, ensures_bind]
  refine ((ensures_recoverAtomicFile pinPaths).and
    (sustains_working_recoverAtomicFile pinPaths world h)).mono ?_
    fun _ hcrash ↦ hcrash.1.writes h.writes
  rintro recovered first ⟨⟨hkeeps, hdone, hfailed⟩, -, hfirst⟩
  have hprimary : first.files pinFilePath = logical world.files pinFilePath := by
    cases recovered with
    | true => exact hdone rfl
    | false => exact absurd h.writes (hfailed rfl).1
  have hclock : first.clock = world.clock := hkeeps.only.quiet.clock_eq
  obtain ⟨rfl, hnone⟩ | ⟨raw, pin, rfl, hraw, hpin⟩ := hfile
  · refine (ensures_pinStateStoreLoad_missing (hprimary.trans hnone)).mono ?_ fun _ hfalse ↦ hfalse
    rintro ⟨loadStatus, state⟩ second ⟨hloaded, rfl⟩
    simp only [Prod.mk.injEq] at hloaded
    obtain ⟨rfl, rfl⟩ := hloaded
    simp only [reduceCtorEq, if_false, ensures_bind]
    refine ensures_refreshRuntimeSecrets_working hfirst fun token key third hthird hlast hkey ↦ ?_
    simp only [Option.isNone_some, Bool.false_eq_true, if_false, ensures_pure]
    refine ⟨trivial, ⟨hlast, hthird.clock_eq.trans hclock, token, key, hkey, rfl⟩, ?_, by simp⟩
    rw [hthird.files_eq, hkeeps.logical_eq]
  · have hheld : first.files pinFilePath = some raw := by
      rw [hprimary, logical, hraw, Option.some_or]
    refine ((ensures_pinStateStoreLoad_saved { pinRetries := pinRetriesMax }).and
      (sustains_working_load first hfirst)).mono ?_ fun _ hcrash ↦ hcrash.1
    rintro ⟨loadStatus, state⟩ second ⟨⟨hsecond, -, hclean⟩, -, hworking⟩
    have hloaded := hclean hfirst.reads hfirst.enclave raw hheld pin hpin
    simp only [Prod.mk.injEq] at hloaded
    obtain ⟨rfl, rfl⟩ := hloaded
    simp only [reduceCtorEq, if_false, if_true, ensures_bind]
    refine ensures_refreshRuntimeSecrets_working hworking fun token key third hthird hlast hkey ↦ ?_
    simp only [Option.isNone_some, Bool.false_eq_true, if_false, ensures_pure]
    have hclock' : third.clock = world.clock :=
      hthird.clock_eq.trans (hsecond.clock_eq.trans hclock)
    refine ⟨trivial, ⟨hlast, hclock', token, key, hkey, rfl⟩, ?_, fun _ ↦ ?_⟩
    · rw [hthird.files_eq, hsecond.files_eq, hkeeps.logical_eq]
    · rw [hthird.files_eq, hsecond.files_eq, hheld, hraw]

/-- A reset forgets the PIN. -/
theorem ensures_pinClear_working (h : Working ValidKey world) :
    Ensures (pinClear crypto state)
      (fun result world' ↦ result.1 = true ∧
        Started crypto ValidKey none result.2 world world' ∧
        logical world'.files pinFilePath = none)
      (fun _ ↦ False) world := by
  simp only [pinClear, ensures_bind]
  refine ensures_refreshRuntimeSecrets_working h fun token key first hfirst hworking hkey ↦ ?_
  simp only [pinStateStoreClear, ensures_bind]
  refine ((ensures_removeAtomicFile pinPaths).and
    (sustains_working_removeAtomicFile pinPaths first hworking)).mono ?_
    fun _ hcrash ↦ hcrash.1.writes hworking.writes
  rintro ok second ⟨⟨hmoves, hgone, hfailed⟩, -, hlast⟩
  have hok : ok = true := by
    by_contra hne
    exact hfailed (Bool.not_eq_true _ ▸ hne) hworking.writes
  subst hok
  obtain ⟨hprimary, hbackup⟩ := hgone rfl
  simp only [Bool.not_true, Bool.false_eq_true, if_false, note, ensures_bind, ensures_modify,
    ensures_pure]
  refine ⟨trivial, ⟨hlast.later _ _, ?_, token, key, hkey, rfl⟩, ?_⟩
  · exact hmoves.only.quiet.clock_eq.trans hfirst.clock_eq
  · rw [logical, hprimary, hbackup]
    rfl

end Restarts

end ZeroFido.Pin
