import ZeroFido.Pin.Lifecycle

/-!
# A wrong PIN guess

What is left in memory and on disk after a PIN hash that differs from the stored one, for every
combination of failing calls, followed through the next start-up.

The stricter state is persisted, or the file is overwritten with an invalid record, or it is
removed. Whenever one of the three succeeds the guess has cost a retry that no restart gives back,
provided the key-agreement key could be regenerated: `zf_pin_auth_failure` returns before it touches
the counter when that fails. `wrong_guess_fails_closed_iff` has both directions, and
`wrong_guess_without_new_key` is a guess that cost nothing.
-/

set_option autoImplicit false
set_option relaxedAutoImplicit false

namespace ZeroFido.Pin

open Foundations Storage

section Outcomes

variable (crypto : Crypto) (state : ClientPinState) (world : Device)

/-- The device once a comparison has been recorded. -/
def afterComparison (equal : Bool) (world : Device) : Device :=
  { world with trace := world.trace ++ [.hashCompared equal] }

/-- Persisting the state succeeds. -/
def PersistSucceeds : Prop :=
  ∃ final, (pinStateStorePersist crypto state).run world = .ok true final

/-- Persisting fails, and overwriting the file with the invalid record succeeds. -/
def OverwriteSucceeds : Prop :=
  ∃ middle final, (pinStateStorePersist crypto state).run world = .ok false middle ∧
    pinInvalidatePersistedState.run middle = .ok true final

/-- Persisting and overwriting fail, and removing the file succeeds. -/
def RemoveSucceeds : Prop :=
  ∃ middle last final, (pinStateStorePersist crypto state).run world = .ok false middle ∧
    pinInvalidatePersistedState.run middle = .ok false last ∧
    (removeAtomicFile pinFilePath pinFileTempPath).run last = .ok true final

/-- At least one of the three ways to keep the stricter state succeeds. -/
def StorageStepSucceeds : Prop :=
  ∀ key middle, crypto.generateKeyAgreementKey.run (afterComparison false world) =
    .ok (some key) middle →
      PersistSucceeds crypto (penalised state key) middle ∨
      OverwriteSucceeds crypto (penalised state key) middle ∨
      RemoveSucceeds crypto (penalised state key) middle

/-- A wrong guess failed closed: `after` has fewer retries than `state`, and a restart on the files
left in `world'` reports an invalid file, or sets the PIN with no more retries than `after`, or
finds no file. The last happens only when persisting and overwriting both failed. -/
structure FailsClosed (after : ClientPinState) (world' : Device) : Prop where
  retries_lt : after.pinRetries < state.pinRetries
  restart : ∀ device result restarted final, device.files = world'.files →
    (pinInitWithResult crypto).run device = .ok (result, restarted) final →
      result = .invalidPersistedState ∨
      restarted.pinSet = true ∧ restarted.pinRetries ≤ after.pinRetries ∨
      restarted.pinSet = false ∧ device.files pinFilePath = none ∧
        ∀ key middle, crypto.generateKeyAgreementKey.run (afterComparison false world) =
          .ok (some key) middle →
            ¬PersistSucceeds crypto (penalised state key) middle ∧
            ¬OverwriteSucceeds crypto (penalised state key) middle

end Outcomes

section Restart

variable {crypto : Crypto} {world device final : Device} {result : PinInitResult}
  {restarted : ClientPinState} {bound : ℕ} {raw : Bytes}

/-- A restart that finds a primary file with at most `bound` retries. -/
theorem restart_of_primary (hfile : device.files pinFilePath = some raw)
    (hbound : AtMostRetries bound raw)
    (hrun : (pinInitWithResult crypto).run device = .ok (result, restarted) final) :
    result = .invalidPersistedState ∨ restarted.pinSet = true ∧ restarted.pinRetries ≤ bound := by
  obtain ⟨-, -, -, hset, hpresent, -⟩ := ensures_pinInitWithResult.of_run hrun
  obtain hinvalid | hpin := hpresent (by simp [hfile])
  · exact Or.inl hinvalid
  · obtain ⟨found, hfound, hretries⟩ := hset hpin
    rw [logical, hfile, Option.some_or] at hfound
    obtain rfl := Option.some.inj hfound
    exact Or.inr ⟨hpin, hbound _ hretries⟩

/-- A restart that finds neither a primary file nor a backup. -/
theorem restart_of_missing (hfile : device.files pinFilePath = none)
    (hbackup : device.files (backupOf pinFilePath) = none)
    (hrun : (pinInitWithResult crypto).run device = .ok (result, restarted) final) :
    restarted.pinSet = false := by
  obtain ⟨-, -, -, hset, -, -⟩ := ensures_pinInitWithResult.of_run hrun
  by_contra hpin
  obtain ⟨found, hfound, -⟩ := hset (by simpa using hpin)
  rw [logical, hfile, hbackup] at hfound
  exact absurd hfound (by simp)

end Restart

section Guess

variable {crypto : Crypto} {state after : ClientPinState} {world world' : Device}
  {status : CtapStatus} {pinHash : Bytes}

/-- Whatever `zf_pin_auth_failure` keeps, it keeps in one of four ways. -/
theorem persistOrBlock_run
    (hrun : (persistOrBlock crypto state).run world = .ok after world') :
    (after = state ∧ (pinStateStorePersist crypto state).run world = .ok true world') ∨
    (∃ middle, (pinStateStorePersist crypto state).run world = .ok false middle ∧
      (after = state ∧ (pinStateStoreFailClosed state).run middle = .ok true world' ∨
      after = state.forceRuntimeBlock ∧
        (pinStateStoreFailClosed state).run middle = .ok false world')) := by
  rw [persistOrBlock, run_bind_eq_ok] at hrun
  obtain ⟨persisted, middle, hpersist, hrest⟩ := hrun
  cases persisted with
  | true =>
    obtain ⟨rfl, rfl⟩ := hrest
    exact Or.inl ⟨rfl, hpersist⟩
  | false =>
    refine Or.inr ⟨middle, hpersist, ?_⟩
    simp only [Bool.false_eq_true, if_false] at hrest
    rw [run_bind_eq_ok] at hrest
    obtain ⟨closed, last, hclosed, hrest⟩ := hrest
    cases closed with
    | true =>
      obtain ⟨rfl, rfl⟩ := hrest
      exact Or.inl ⟨rfl, hclosed⟩
    | false =>
      obtain ⟨rfl, rfl⟩ := hrest
      exact Or.inr ⟨rfl, hclosed⟩

theorem pinStateStoreFailClosed_run {closed : Bool} (hset : state.pinSet = true)
    (hrun : (pinStateStoreFailClosed state).run world = .ok closed world') :
    (closed = true ∧ pinInvalidatePersistedState.run world = .ok true world') ∨
    (∃ middle, pinInvalidatePersistedState.run world = .ok false middle ∧
      (removeAtomicFile pinFilePath pinFileTempPath).run middle = .ok closed world') := by
  simp only [pinStateStoreFailClosed, hset, Bool.not_true, Bool.false_eq_true, if_false] at hrun
  rw [run_bind_eq_ok] at hrun
  obtain ⟨overwritten, middle, hoverwrite, hrest⟩ := hrun
  cases overwritten with
  | true =>
    obtain ⟨rfl, rfl⟩ := hrest
    exact Or.inl ⟨rfl, hoverwrite⟩
  | false => exact Or.inr ⟨middle, hoverwrite, hrest⟩

/-- A comparison that fails is the failure handling from the device that recorded it. -/
theorem comparePinHash_run_wrong
    (hwrong : constantTimeEqual pinHash state.pinHash pinHashLen = false) :
    (comparePinHash crypto state pinHash).run world =
      (pinAuthFailure crypto state).run (afterComparison false world) := by
  simp only [comparePinHash, hwrong]
  rfl

theorem pinVerifyHash_run (hset : state.pinSet = true) (hblocked : state.pinAuthBlocked = false)
    (hretries : 0 < state.pinRetries) :
    (pinVerifyHash crypto state pinHash).run world =
      (comparePinHash crypto state pinHash).run world := by
  have hne : state.pinRetries ≠ 0 := by omega
  simp only [pinVerifyHash, hset, hblocked, hne, Bool.not_true, Bool.false_eq_true, if_false]

/-- The failure handling of an unblocked state: nothing changes when no key could be generated, and
otherwise the penalised state is kept. -/
theorem pinAuthFailure_run (hblocked : state.pinAuthBlocked = false)
    (hrun : (pinAuthFailure crypto state).run world = .ok (status, after) world') :
    (crypto.generateKeyAgreementKey.run world = .ok none world' ∧ after = state) ∨
    (∃ key middle, crypto.generateKeyAgreementKey.run world = .ok (some key) middle ∧
      (persistOrBlock crypto (penalised state key)).run middle = .ok after world') := by
  simp only [pinAuthFailure, hblocked, Bool.false_eq_true, if_false] at hrun
  rw [run_bind_eq_ok] at hrun
  obtain ⟨generated, middle, hgenerated, hrest⟩ := hrun
  cases generated with
  | none =>
    obtain ⟨⟨rfl, rfl⟩, rfl⟩ := hrest
    exact Or.inl ⟨hgenerated, rfl⟩
  | some key =>
    simp only at hrest
    rw [run_bind_eq_ok] at hrest
    obtain ⟨kept, last, hkept, hrest⟩ := hrest
    refine Or.inr ⟨key, middle, hgenerated, ?_⟩
    split_ifs at hrest
    all_goals
      obtain ⟨⟨rfl, rfl⟩, rfl⟩ := hrest
      exact hkept

theorem generateKeyAgreementKey_isSome {generated : Option KeyAgreementKey}
    (hrun : crypto.generateKeyAgreementKey.run world = .ok generated world') :
    generated.isSome = world.keyGenerations.headD true := by
  have hspec : Ensures crypto.generateKeyAgreementKey
      (fun result _ ↦ result.isSome = world.keyGenerations.headD true) (fun _ ↦ False) world :=
    Crypto.ensures_generateKeyAgreementKey fun _ _ _ hsome ↦ hsome
  exact hspec.of_run hrun

theorem penalised_pinRetries_lt (key : KeyAgreementKey) (hretries : 0 < state.pinRetries) :
    (penalised state key).pinRetries < state.pinRetries := by
  simp only [penalised, ClientPinState.noteMismatch, hretries, if_true]
  omega

/-- With the penalised state kept in one of the three ways, the files left behind restart no better
than `after`. -/
theorem failsClosed_of_kept {key : KeyAgreementKey} {middle : Device}
    (hset : state.pinSet = true) (hretries : 0 < state.pinRetries)
    (hkey : crypto.generateKeyAgreementKey.run (afterComparison false world) =
      .ok (some key) middle)
    (hrun : (persistOrBlock crypto (penalised state key)).run middle = .ok after world')
    (hstorage : PersistSucceeds crypto (penalised state key) middle ∨
      OverwriteSucceeds crypto (penalised state key) middle ∨
      RemoveSucceeds crypto (penalised state key) middle) :
    FailsClosed crypto state world after world' := by
  have hlt := penalised_pinRetries_lt key hretries
  have hpenalised : (penalised state key).pinSet = true := hset
  obtain ⟨rfl, hpersist⟩ | ⟨first, hpersist, hclosed⟩ := persistOrBlock_run hrun
  · obtain ⟨-, -, hdone, -⟩ := (ensures_pinStateStorePersist _).of_run hpersist
    obtain ⟨raw, hraw, hbound⟩ := hdone rfl hpenalised
    refine ⟨hlt, fun device result restarted final hfiles hinit ↦ ?_⟩
    rw [← hfiles] at hraw
    obtain hinvalid | hpin := restart_of_primary hraw hbound hinit
    · exact Or.inl hinvalid
    · exact Or.inr (Or.inl hpin)
  -- The runs are functions of the device, so a step that failed here cannot also have succeeded.
  have hnotPersist : ¬PersistSucceeds crypto (penalised state key) middle := by
    rintro ⟨final, hfinal⟩
    rw [hpersist] at hfinal
    exact absurd hfinal (by simp)
  have hnotOverwrite : ∀ last, pinInvalidatePersistedState.run first = .ok false last →
      ¬OverwriteSucceeds crypto (penalised state key) middle := by
    rintro last hlast ⟨first', final, hfirst', hfinal⟩
    obtain ⟨-, rfl⟩ := EStateM.Result.ok.inj (hpersist.symm.trans hfirst')
    rw [hlast] at hfinal
    exact absurd hfinal (by simp)
  obtain ⟨rfl, hclosed⟩ | ⟨-, hopen⟩ := hclosed
  · refine ⟨hlt, fun device result restarted final hfiles hinit ↦ ?_⟩
    obtain ⟨-, hoverwrite⟩ | ⟨last, hoverwrite, hremove⟩ :=
      pinStateStoreFailClosed_run hpenalised hclosed
    · obtain ⟨-, hdone, -⟩ := ensures_pinInvalidatePersistedState.of_run hoverwrite
      have hraw := hdone rfl
      rw [← hfiles] at hraw
      obtain hinvalid | hpin := restart_of_primary hraw (atMostRetries_invalidRecord _) hinit
      · exact Or.inl hinvalid
      · exact Or.inr (Or.inl hpin)
    · obtain ⟨-, hgone, -⟩ := (ensures_removeAtomicFile pinPaths).of_run hremove
      obtain ⟨hprimary, hbackup⟩ := hgone rfl
      rw [← hfiles] at hprimary hbackup
      refine Or.inr (Or.inr ⟨restart_of_missing hprimary hbackup hinit, hprimary, ?_⟩)
      intro key' middle' hkey'
      obtain ⟨hsame, rfl⟩ := EStateM.Result.ok.inj (hkey.symm.trans hkey')
      obtain rfl := Option.some.inj hsame
      exact ⟨hnotPersist, hnotOverwrite last hoverwrite⟩
  · exfalso
    obtain ⟨hfalse, -⟩ | ⟨last, hoverwrite, hremove⟩ :=
      pinStateStoreFailClosed_run hpenalised hopen
    · exact absurd hfalse (by simp)
    · obtain hpersisted | hoverwritten | ⟨first', last', final, hfirst', hlast', hremoved⟩ :=
        hstorage
      · exact hnotPersist hpersisted
      · exact hnotOverwrite last hoverwrite hoverwritten
      · obtain ⟨-, rfl⟩ := EStateM.Result.ok.inj (hpersist.symm.trans hfirst')
        obtain ⟨-, rfl⟩ := EStateM.Result.ok.inj (hoverwrite.symm.trans hlast')
        rw [hremove] at hremoved
        exact absurd hremoved (by simp)

/-- A PIN hash that differs from the stored one, compared by `zf_pin_verify_hash` or by getPinToken
with an unblocked PIN that has retries left, and with at least one storage step succeeding, fails
closed exactly when a new key-agreement key could be generated. -/
theorem wrong_guess_fails_closed_iff (crypto : Crypto) (state after : ClientPinState)
    (world world' : Device) (status : CtapStatus) (pinHash : Bytes)
    (compare : Program Device (CtapStatus × ClientPinState))
    (hcompare : compare = pinVerifyHash crypto state pinHash ∨
      compare = comparePinHash crypto state pinHash)
    (hset : state.pinSet = true) (hblocked : state.pinAuthBlocked = false)
    (hretries : 0 < state.pinRetries)
    (hwrong : constantTimeEqual pinHash state.pinHash pinHashLen = false)
    (hstorage : StorageStepSucceeds crypto state world)
    (hrun : compare.run world = .ok (status, after) world') :
    FailsClosed crypto state world after world' ↔ world.keyGenerations.headD true = true := by
  have hfailure : (pinAuthFailure crypto state).run (afterComparison false world) =
      .ok (status, after) world' := by
    rw [← comparePinHash_run_wrong hwrong]
    obtain rfl | rfl := hcompare
    · rwa [← pinVerifyHash_run hset hblocked hretries]
    · exact hrun
  obtain ⟨hnone, rfl⟩ | ⟨key, middle, hkey, hkept⟩ := pinAuthFailure_run hblocked hfailure
  · have hfailed := generateKeyAgreementKey_isSome hnone
    change false = world.keyGenerations.headD true at hfailed
    rw [← hfailed]
    constructor
    · intro hclosed
      exact absurd hclosed.retries_lt (lt_irrefl _)
    · intro hfalse
      exact absurd hfalse (by simp)
  · have hgenerated := generateKeyAgreementKey_isSome hkey
    change true = world.keyGenerations.headD true at hgenerated
    rw [← hgenerated]
    exact ⟨fun _ ↦ rfl, fun _ ↦
      failsClosed_of_kept hset hretries hkey hkept (hstorage key middle hkey)⟩

/-- A PIN that has all its retries. -/
def freshPin : ClientPinState := { pinSet := true, pinRetries := pinRetriesMax }

theorem wrong_guess_fails_closed_freshPin :
    ∃ status after world',
      (pinVerifyHash Crypto.standIn freshPin [1]).run (World.blank PinEvent) =
        .ok (status, after) world' ∧
      FailsClosed Crypto.standIn freshPin (World.blank PinEvent) after world' := by
  have hstorage : StorageStepSucceeds Crypto.standIn freshPin (World.blank PinEvent) := by
    intro key middle hkey
    have hrun : Crypto.standIn.generateKeyAgreementKey.run
        (afterComparison false (World.blank PinEvent)) = .ok (some _) _ := rfl
    obtain ⟨hsame, rfl⟩ := EStateM.Result.ok.inj (hrun.symm.trans hkey)
    obtain rfl := Option.some.inj hsame
    exact Or.inl ⟨_, rfl⟩
  refine ⟨_, _, _, rfl, ?_⟩
  exact (wrong_guess_fails_closed_iff Crypto.standIn freshPin _ (World.blank PinEvent) _ _ [1] _
    (Or.inl rfl) rfl rfl (by decide) (by decide) hstorage rfl).mpr rfl

/-- A device on which the next key generation fails and every storage call succeeds. -/
def keylessDevice : Device := { World.blank PinEvent with keyGenerations := [false] }

/-- A guess that cost nothing: the retry count in memory is the old one. -/
theorem wrong_guess_without_new_key :
    ¬∀ (crypto : Crypto) (state after : ClientPinState) (world world' : Device)
      (status : CtapStatus) (pinHash : Bytes), state.pinSet = true →
      state.pinAuthBlocked = false → 0 < state.pinRetries →
      constantTimeEqual pinHash state.pinHash pinHashLen = false →
      StorageStepSucceeds crypto state world →
      (pinVerifyHash crypto state pinHash).run world = .ok (status, after) world' →
      FailsClosed crypto state world after world' := by
  intro hclaim
  have hstorage : StorageStepSucceeds Crypto.standIn freshPin keylessDevice := by
    intro key middle hkey
    have hrun : Crypto.standIn.generateKeyAgreementKey.run
        (afterComparison false keylessDevice) = .ok none _ := rfl
    exact absurd (EStateM.Result.ok.inj (hrun.symm.trans hkey)).1 (by simp)
  have hclosed := hclaim Crypto.standIn freshPin _ keylessDevice _ _ [1] rfl rfl (by decide)
    (by decide) hstorage rfl
  exact absurd hclosed.retries_lt (by decide)

end Guess

end ZeroFido.Pin
