import ZeroFido.Pin.History
import ZeroFido.Pin.Lifecycle

/-!
# The operations keep the invariants

Every operation of `pin/core` outside token handling is `Accounted`: whatever calls fail, it issues
and uses no token; and while every storage write and key generation succeeds, it keeps the retry
budget. The step that matters is `ensures_comparePinHash`: a wrong guess is recorded against a
counter that is lowered, in memory and in the file, before the operation returns.
-/

set_option autoImplicit false
set_option relaxedAutoImplicit false

namespace ZeroFido.Pin

open Foundations Storage

section Accounted

/-- A step that leaves the token alone and, with reliable writes and key generation, keeps the retry
budget. -/
structure Accounted (state : ClientPinState) (world : Device) (state' : ClientPinState)
    (world' : Device) : Prop where
  book : Bookkeeping state world state' world'
  retry : world.writes = [] → world.keyGenerations = [] → RetryBound state world →
    RetryBound state' world'

/-- A power loss during a step, which only a listed outcome can cause. -/
structure LostDuring (world world' : Device) : Prop where
  records : RecordsRetries world world'
  listed : world.writes ≠ []

variable {state state' state'' : ClientPinState} {world world' world'' : Device}

theorem Accounted.refl (state : ClientPinState) (world : Device) :
    Accounted state world state world :=
  ⟨Bookkeeping.refl state world, fun _ _ h ↦ h⟩

theorem RecordsRetries.writes_nil (h : RecordsRetries world world') (hnil : world.writes = []) :
    world'.writes = [] := by
  have := h.writes
  rwa [hnil, List.suffix_nil] at this

theorem RecordsRetries.keyGenerations_nil (h : RecordsRetries world world')
    (hnil : world.keyGenerations = []) : world'.keyGenerations = [] := by
  have := h.keyGenerations
  rwa [hnil, List.suffix_nil] at this

theorem Accounted.trans (h : Accounted state world state' world')
    (h' : Accounted state' world' state'' world'') : Accounted state world state'' world'' :=
  ⟨h.book.trans h'.book, fun hwrites hkeys hbound ↦
    h'.retry (h.book.records.writes_nil hwrites) (h.book.records.keyGenerations_nil hkeys)
      (h.retry hwrites hkeys hbound)⟩

theorem LostDuring.of_powerLost (h : PowerLost world world') : LostDuring world world' :=
  ⟨.of_quiet h.toQuiet, h.listed⟩

theorem LostDuring.after (h' : LostDuring world' world'') (h : RecordsRetries world world') :
    LostDuring world world'' :=
  ⟨h.trans h'.records, fun hnil ↦ h'.listed (h.writes_nil hnil)⟩

/-- A call that told the observer nothing and left the files alone keeps the budget. -/
theorem RetryBound.idle (h : RetryBound state world) (hidle : Idle world world') :
    RetryBound state world' := by
  refine ⟨?_, ?_, ?_⟩
  · rw [hidle.trace_eq]
    exact h.history
  · rw [hidle.trace_eq]
    exact h.memory
  · rw [hidle.trace_eq, hidle.files_eq]
    exact h.file

/-- The budget after a state within it has been persisted, or its file has been spoilt. -/
theorem RetryBound.kept {raw : Bytes} (h : RetryBound state world)
    (htrace : world'.trace = world.trace)
    (hraw : world'.files pinFilePath = some raw) (hbound : AtMostRetries state'.pinRetries raw)
    (hretries : state'.pinRetries + wrongSinceReset world.trace ≤ pinRetriesMax) :
    RetryBound state' world' := by
  refine ⟨by rw [htrace]; exact h.history, fun _ ↦ by rw [htrace]; exact hretries, ?_⟩
  intro found hfound
  rw [logical, hraw, Option.some_or] at hfound
  obtain rfl := Option.some.inj hfound
  rw [htrace]
  exact hbound.mono (by omega)

/-- The budget of a state that was reset to the maximum and persisted. -/
theorem RetryBound.reset {raw : Bytes} (h : RetryBound state world)
    (htrace : world'.trace = world.trace ++ [.retriesReset])
    (hraw : world'.files pinFilePath = some raw) (hbound : AtMostRetries state'.pinRetries raw)
    (hretries : state'.pinRetries ≤ pinRetriesMax) :
    RetryBound state' world' := by
  have hwrong : wrongSinceReset world'.trace = 0 := by
    rw [htrace, wrongSinceReset_concat]
    rfl
  refine ⟨?_, fun _ ↦ by rw [hwrong]; exact hretries, ?_⟩
  · rw [htrace, everyEvent_concat]
    exact ⟨h.history, fun hevent ↦ absurd hevent (by simp)⟩
  · intro found hfound
    rw [logical, hraw, Option.some_or] at hfound
    obtain rfl := Option.some.inj hfound
    rw [hwrong]
    exact hbound.mono hretries

end Accounted

section Retry

variable {crypto : Crypto} {world : Device}

/-- Keeping a stricter state. With reliable writes the state is kept as it is, and the file holds
its retry count or does not load. -/
theorem ensures_persistOrBlock (state : ClientPinState) :
    Ensures (persistOrBlock crypto state)
      (fun after world' ↦ Quiet world world' ∧
        (after = state ∨ after = state.forceRuntimeBlock) ∧
        (world.writes = [] → after = state ∧
          (state.pinSet = false → world'.files = world.files) ∧
          (state.pinSet = true → ∃ raw, world'.files pinFilePath = some raw ∧
            AtMostRetries state.pinRetries raw)))
      (fun world' ↦ PowerLost world world') world := by
  simp only [persistOrBlock, ensures_bind]
  refine (ensures_pinStateStorePersist state).mono ?_ fun _ hcrash ↦ hcrash
  rintro persisted middle ⟨hquiet, hunset, hdone, hfailed⟩
  cases persisted with
  | true => exact ⟨hquiet, Or.inl rfl, fun _ ↦ ⟨rfl, fun hset ↦ (hunset hset).2, hdone rfl⟩⟩
  | false =>
    have hset : state.pinSet = true := by
      by_contra hset
      exact absurd (hunset (by simpa using hset)).1 (by simp)
    simp only [Bool.false_eq_true, if_false, ensures_bind]
    refine (ensures_pinStateStoreFailClosed state).mono ?_ fun _ hcrash ↦ hcrash.after hquiet
    rintro closed final ⟨hquiet', -, hspoilt, hopen⟩
    cases closed with
    | true =>
      refine ⟨hquiet.trans hquiet', Or.inl rfl, fun hnil ↦ ⟨rfl, by simp [hset], fun _ ↦ ?_⟩⟩
      obtain hinvalid | ⟨hlisted, -⟩ := hspoilt rfl hset
      · exact ⟨_, hinvalid, atMostRetries_invalidRecord _⟩
      · exact absurd (hquiet.writes_nil hnil) hlisted
    | false =>
      exact ⟨hquiet.trans hquiet', Or.inr rfl, fun hnil ↦
        absurd (hquiet.writes_nil hnil) (hopen rfl)⟩

theorem sameToken_noteMismatch (state : ClientPinState) : SameToken state state.noteMismatch := rfl

theorem sameToken_penalised (state : ClientPinState) (key : KeyAgreementKey) :
    SameToken state (penalised state key) := rfl

/-- A mismatching `pinUvAuthParam` costs no retry. -/
theorem ensures_pinNotePinAuthMismatch (state : ClientPinState) :
    Ensures (pinNotePinAuthMismatch crypto state)
      (fun result world' ↦ Accounted state world result.2 world')
      (fun world' ↦ LostDuring world world') world := by
  simp only [pinNotePinAuthMismatch, ensures_bind, ensures_pure]
  refine (ensures_persistOrBlock _).mono ?_ fun _ hcrash ↦ .of_powerLost hcrash
  rintro after final ⟨hquiet, hafter, hreliable⟩
  refine ⟨⟨?_, .of_quiet hquiet⟩, fun hwrites _ hbound ↦ ?_⟩
  · obtain rfl | rfl := hafter
    · exact Or.inl (sameToken_noteMismatch state)
    · exact Or.inr rfl
  · obtain ⟨rfl, hunset, hset⟩ := hreliable hwrites
    cases hpin : state.pinSet with
    | false =>
      have hfiles := hunset hpin
      refine ⟨by rw [hquiet.trace_eq]; exact hbound.history, fun hset ↦ ?_, ?_⟩
      · exact absurd (hset.symm.trans hpin) (by simp)
      · rw [hquiet.trace_eq, hfiles]
        exact hbound.file
    | true =>
      obtain ⟨raw, hraw, hretries⟩ := hset hpin
      exact hbound.kept hquiet.trace_eq hraw hretries (hbound.memory hpin)

/-- A successful comparison resets the counter, if the reset can be persisted. -/
theorem ensures_pinAuthSuccess (state : ClientPinState) (hset : state.pinSet = true) :
    Ensures (pinAuthSuccess crypto state)
      (fun result world' ↦ Accounted state world result.2 world')
      (fun world' ↦ LostDuring world world') world := by
  simp only [pinAuthSuccess, ensures_bind]
  refine (ensures_pinStateStorePersist _).mono ?_ fun _ hcrash ↦ .of_powerLost hcrash
  rintro persisted middle ⟨hquiet, -, hdone, hfailed⟩
  cases persisted with
  | true =>
    obtain ⟨raw, hraw, hretries⟩ := hdone rfl hset
    refine ⟨⟨Or.inl rfl, (RecordsRetries.of_quiet hquiet).trans (.noted _ rfl)⟩,
      fun hwrites _ hbound ↦ ?_⟩
    exact hbound.reset (by rw [← hquiet.trace_eq]) hraw hretries le_rfl
  | false =>
    refine ⟨⟨Or.inl rfl, .of_quiet hquiet⟩, fun hwrites _ hbound ↦ ?_⟩
    have hfiles := (hfailed rfl).2 hwrites
    refine ⟨by rw [hquiet.trace_eq]; exact hbound.history, fun hset' ↦ ?_, ?_⟩
    · rw [hquiet.trace_eq]
      exact hbound.memory hset
    · rw [hquiet.trace_eq, hfiles]
      exact hbound.file

/-- The failure handling after a wrong guess. The budget it restores is the one before the guess was
recorded, with the guess counted. -/
theorem ensures_pinAuthFailure (state : ClientPinState) :
    Ensures (pinAuthFailure crypto state)
      (fun result world' ↦ Bookkeeping state world result.2 world' ∧
        (world.writes = [] → world.keyGenerations = [] → state.pinAuthBlocked = false →
          0 < state.pinRetries → state.pinSet = true → world'.trace = world.trace ∧
            result.2.pinRetries + 1 = state.pinRetries ∧
            ∃ raw, world'.files pinFilePath = some raw ∧ AtMostRetries result.2.pinRetries raw))
      (fun world' ↦ LostDuring world world') world := by
  simp only [pinAuthFailure, ensures_ite, ensures_pure]
  refine ⟨fun hblocked ↦ ⟨Bookkeeping.refl _ _, fun _ _ hnot ↦ ?_⟩, fun _ ↦ ?_⟩
  · exact absurd (hnot.symm.trans hblocked) (by simp)
  simp only [ensures_bind]
  refine Crypto.ensures_generateKeyAgreementKey fun generated middle hmiddle hgenerated ↦ ?_
  cases generated with
  | none =>
    refine ⟨⟨Or.inl rfl, .of_quiet hmiddle.toQuiet⟩, fun _ hkeys ↦ ?_⟩
    rw [hkeys] at hgenerated
    exact absurd hgenerated (by simp)
  | some key =>
    simp only [ensures_bind]
    refine (ensures_persistOrBlock _).mono ?_ fun _ hcrash ↦
      .of_powerLost (hcrash.after hmiddle.toQuiet)
    rintro after final ⟨hquiet, hafter, hreliable⟩
    have hbook : Bookkeeping state world after final := by
      refine ⟨?_, .of_quiet (hmiddle.toQuiet.trans hquiet)⟩
      obtain rfl | rfl := hafter
      · exact Or.inl (sameToken_penalised state key)
      · exact Or.inr rfl
    have hretry : world.writes = [] → 0 < state.pinRetries → state.pinSet = true →
        final.trace = world.trace ∧ after.pinRetries + 1 = state.pinRetries ∧
          ∃ raw, final.files pinFilePath = some raw ∧ AtMostRetries after.pinRetries raw := by
      intro hwrites hpositive hset
      obtain ⟨rfl, -, hkept⟩ := hreliable (hmiddle.writes_nil hwrites)
      refine ⟨hquiet.trace_eq.trans hmiddle.trace_eq, ?_, hkept hset⟩
      simp only [penalised, ClientPinState.noteMismatch, hpositive, if_true]
      omega
    split_ifs
    all_goals exact ⟨hbook, fun hwrites _ _ hpositive hset ↦ hretry hwrites hpositive hset⟩

/-- Comparing a PIN hash with the stored one, in a state that may be asked. -/
theorem ensures_comparePinHash (state : ClientPinState) (pinHash : Bytes)
    (hset : state.pinSet = true) (hblocked : state.pinAuthBlocked = false)
    (hretries : 0 < state.pinRetries) :
    Ensures (comparePinHash crypto state pinHash)
      (fun result world' ↦ Accounted state world result.2 world')
      (fun world' ↦ LostDuring world world') world := by
  simp only [comparePinHash, note, ensures_bind, ensures_modify]
  have hnoted : RecordsRetries world { world with trace := world.trace ++
      [.hashCompared (constantTimeEqual pinHash state.pinHash pinHashLen)] } := .noted _ rfl
  cases hequal : constantTimeEqual pinHash state.pinHash pinHashLen with
  | true =>
    rw [hequal] at hnoted
    simp only [Bool.not_true, Bool.false_eq_true, if_false]
    refine (ensures_pinAuthSuccess state hset).mono (fun result final hfinal ↦ ?_)
      fun _ hcrash ↦ hcrash.after hnoted
    refine Accounted.trans ⟨⟨Or.inl (SameToken.refl state), hnoted⟩, fun _ _ hbound ↦ ?_⟩ hfinal
    refine ⟨everyEvent_concat.mpr ⟨hbound.history, fun hevent ↦ ?_⟩, ?_, ?_⟩
    · exact absurd hevent (by simp)
    · simpa [countWrong] using hbound.memory
    · simpa [countWrong] using hbound.file
  | false =>
    rw [hequal] at hnoted
    simp only [Bool.not_false, if_true]
    refine (ensures_pinAuthFailure state).mono ?_ fun _ hcrash ↦ hcrash.after hnoted
    rintro result final ⟨hbook, hretry⟩
    refine ⟨⟨hbook.token, hnoted.trans hbook.records⟩, fun hwrites hkeys hbound ↦ ?_⟩
    obtain ⟨htrace, hcount, raw, hraw, hstored⟩ := hretry hwrites hkeys hblocked hretries hset
    have hmemory := hbound.memory hset
    have hwrong : wrongSinceReset final.trace = wrongSinceReset world.trace + 1 := by
      rw [htrace, wrongSinceReset_concat]
      rfl
    refine ⟨?_, fun _ ↦ by omega, fun found hfound ↦ ?_⟩
    · rw [htrace, everyEvent_concat]
      exact ⟨hbound.history, fun _ ↦ by omega⟩
    · rw [logical, hraw, Option.some_or] at hfound
      obtain rfl := Option.some.inj hfound
      exact hstored.mono (by omega)

theorem ensures_pinVerifyHash (state : ClientPinState) (pinHash : Bytes) :
    Ensures (pinVerifyHash crypto state pinHash)
      (fun result world' ↦ Accounted state world result.2 world')
      (fun world' ↦ LostDuring world world') world := by
  simp only [pinVerifyHash, ensures_ite, ensures_pure]
  refine ⟨fun _ ↦ Accounted.refl _ _, fun hset ↦ ⟨fun _ ↦ Accounted.refl _ _, fun hblocked ↦
    ⟨fun _ ↦ Accounted.refl _ _, fun hretries ↦ ?_⟩⟩⟩
  exact ensures_comparePinHash state pinHash (by simpa using hset) (by simpa using hblocked)
    (by omega)

/-- A state persisted with the retry count it already had. -/
theorem RetryBound.persistedSame {state next : ClientPinState} {middle : Device} {persisted : Bool}
    (h : RetryBound state world) (hwrites : world.writes = []) (hquiet : Quiet world middle)
    (hset : state.pinSet = true) (hsame : next.pinRetries = state.pinRetries)
    (hdone : persisted = true →
      ∃ raw, middle.files pinFilePath = some raw ∧ AtMostRetries next.pinRetries raw)
    (hfailed : persisted = false → world.writes = [] → middle.files = world.files)
    {after : ClientPinState} (hafter : after.pinRetries = state.pinRetries) :
    RetryBound after middle := by
  cases persisted with
  | true =>
    obtain ⟨raw, hraw, hretries⟩ := hdone rfl
    refine h.kept hquiet.trace_eq hraw ?_ ?_
    · rw [hafter, ← hsame]
      exact hretries
    · rw [hafter]
      exact h.memory hset
  | false =>
    refine ⟨by rw [hquiet.trace_eq]; exact h.history, fun _ ↦ ?_, ?_⟩
    · rw [hquiet.trace_eq, hafter]
      exact h.memory hset
    · rw [hquiet.trace_eq, hfailed rfl hwrites]
      exact h.file

theorem ensures_pinResumeAuthAttempts (state : ClientPinState) :
    Ensures (pinResumeAuthAttempts crypto state)
      (fun result world' ↦ Accounted state world result.2 world')
      (fun world' ↦ LostDuring world world') world := by
  simp only [pinResumeAuthAttempts, ensures_ite, ensures_pure]
  refine ⟨fun _ ↦ Accounted.refl _ _, fun hset ↦ ⟨fun _ ↦ Accounted.refl _ _, fun _ ↦ ?_⟩⟩
  replace hset : state.pinSet = true := by simpa using hset
  simp only [ensures_bind]
  refine (ensures_pinStateStorePersist _).mono ?_ fun _ hcrash ↦ .of_powerLost hcrash
  rintro persisted middle ⟨hquiet, -, hdone, hfailed⟩
  have hbook (after : ClientPinState) (hafter : SameToken state after) :
      Bookkeeping state world after middle := ⟨Or.inl hafter, .of_quiet hquiet⟩
  have hretry (after : ClientPinState) (hafter : after.pinRetries = state.pinRetries) :
      world.writes = [] → world.keyGenerations = [] → RetryBound state world →
        RetryBound after middle := fun hwrites _ hbound ↦
    hbound.persistedSame hwrites hquiet hset rfl (fun hok ↦ hdone hok hset)
      (fun hok ↦ (hfailed hok).2) hafter
  cases persisted with
  | true => exact ⟨hbook _ rfl, hretry _ rfl⟩
  | false => exact ⟨hbook _ rfl, hretry _ rfl⟩

end Retry

section Lifecycle

variable {crypto : Crypto} {world : Device}

/-- Setting or replacing the PIN. -/
theorem ensures_pinApplyPlaintext (state : ClientPinState) (pin : Bytes) (requireUnset : Bool) :
    Ensures (pinApplyPlaintext crypto state pin requireUnset)
      (fun result world' ↦ Accounted state world result.2 world')
      (fun world' ↦ LostDuring world world') world := by
  simp only [pinApplyPlaintext, ensures_ite, ensures_pure]
  refine ⟨fun _ ↦ Accounted.refl _ _, fun _ ↦ ⟨fun _ ↦ Accounted.refl _ _, fun _ ↦ ?_⟩⟩
  simp only [ensures_bind]
  refine ensures_randomFill fun token first hfirst _ ↦ ?_
  refine (ensures_pinStateStorePersist _).mono ?_ fun _ hcrash ↦
    .of_powerLost (hcrash.after hfirst.toQuiet)
  rintro persisted middle ⟨hquiet, -, hdone, hfailed⟩
  have hall : Quiet world middle := hfirst.toQuiet.trans hquiet
  cases persisted with
  | false =>
    refine ⟨⟨Or.inl rfl, .of_quiet hall⟩, fun hwrites _ hbound ↦ ?_⟩
    have hfiles := (hfailed rfl).2 (hfirst.writes_nil hwrites)
    refine ⟨by rw [hall.trace_eq]; exact hbound.history, fun hset ↦ ?_, ?_⟩
    · rw [hall.trace_eq]
      exact hbound.memory hset
    · rw [hall.trace_eq, hfiles, hfirst.files_eq]
      exact hbound.file
  | true =>
    obtain ⟨raw, hraw, hretries⟩ := hdone rfl rfl
    simp only [Bool.not_true, Bool.false_eq_true, if_false, note, ensures_bind, ensures_modify,
      ensures_pure]
    refine ⟨⟨Or.inr rfl, (RecordsRetries.of_quiet hall).trans (.noted _ rfl)⟩,
      fun hwrites _ hbound ↦ ?_⟩
    exact hbound.reset (by rw [← hall.trace_eq]) hraw hretries le_rfl

theorem ensures_pinVerifyPlaintext (state : ClientPinState) (pin : Bytes) :
    Ensures (pinVerifyPlaintext crypto state pin)
      (fun result world' ↦ Accounted state world result.2 world')
      (fun world' ↦ LostDuring world world') world := by
  simp only [pinVerifyPlaintext, ensures_ite, ensures_pure]
  exact ⟨fun _ ↦ Accounted.refl _ _, fun _ ↦ ensures_pinVerifyHash state _⟩

/-- Clearing the PIN. -/
theorem ensures_pinClear (state : ClientPinState) :
    Ensures (pinClear crypto state)
      (fun result world' ↦ Accounted state world result.2 world')
      (fun world' ↦ LostDuring world world') world := by
  simp only [pinClear, ensures_bind]
  refine ensures_pinRefreshRuntimeSecrets fun token key first hfirst hkey ↦ ?_
  have hidle : Accounted state world state first :=
    ⟨⟨Or.inl rfl, .of_quiet hfirst.toQuiet⟩, fun _ _ hbound ↦ hbound.idle hfirst⟩
  cases key with
  | none => exact hidle
  | some key =>
    simp only [pinStateStoreClear, ensures_bind]
    refine (ensures_removeAtomicFile pinPaths).mono ?_ fun final hfinal ↦
      .of_powerLost (PowerLost.after ⟨hfinal.moves.only.quiet, hfinal.writes⟩ hfirst.toQuiet)
    rintro removed middle ⟨hmoves, hgone, hlisted⟩
    have hall : Quiet world middle := hfirst.toQuiet.trans hmoves.only.quiet
    cases removed with
    | false =>
      refine ⟨⟨Or.inl rfl, .of_quiet hall⟩, fun hwrites ↦ ?_⟩
      exact absurd (hfirst.writes_nil hwrites) (hlisted rfl)
    | true =>
      obtain ⟨hprimary, hbackup⟩ := hgone rfl
      simp only [Bool.not_true, Bool.false_eq_true, if_false, note, ensures_bind, ensures_modify,
        ensures_pure]
      refine ⟨⟨Or.inr rfl, (RecordsRetries.of_quiet hall).trans (.noted _ rfl)⟩,
        fun hwrites _ hbound ↦ ?_⟩
      refine ⟨?_, fun hset ↦ absurd hset Bool.false_ne_true, fun raw hraw ↦ ?_⟩
      · rw [hall.trace_eq, everyEvent_concat]
        exact ⟨hbound.history, fun hevent ↦ absurd hevent (by simp)⟩
      · rw [logical, hprimary, hbackup] at hraw
        exact absurd hraw (by simp)

/-- A restart starts without a token and within the budget the file still has. -/
theorem ensures_pinInit_accounted (state : ClientPinState) :
    Ensures (pinInitWithResult crypto)
      (fun outcome world' ↦ Accounted state world outcome.2 world')
      (fun world' ↦ LostDuring world world') world := by
  refine ensures_pinInitWithResult.mono ?_ fun _ hcrash ↦ .of_powerLost hcrash.1
  rintro outcome final ⟨hquiet, hlogical, hinactive, hset, -, -⟩
  refine ⟨⟨Or.inr hinactive, .of_quiet hquiet⟩, fun _ _ hbound ↦ ?_⟩
  refine ⟨by rw [hquiet.trace_eq]; exact hbound.history, fun hpin ↦ ?_, ?_⟩
  · obtain ⟨raw, hraw, hretries⟩ := hset hpin
    have hle := hbound.file raw hraw _ hretries
    have hwrong := wrongSinceReset_le hbound.history
    rw [hquiet.trace_eq]
    omega
  · rw [hquiet.trace_eq, hlogical]
    exact hbound.file

end Lifecycle

end ZeroFido.Pin
