import ZeroFido.Ctap.ApprovedCredential
import ZeroFido.Store.Undisturbed
import Mathlib.Data.List.Chain

/-!
# The window of reserved sign counts

The files of a credential hold the high-water mark that was reserved for it, and its index entry
the count that was emitted last. Both commands that sign take the count to go on from out of the
files, so every commit starts at the end of the window before it
(`maintains_answerAssertion_advanced`), and reserves another one.

`commits_windowed_iff`: the counts of a run of commits are consecutive just when it has at most one.
-/

set_option autoImplicit false
set_option relaxedAutoImplicit false

namespace ZeroFido.Ctap

open Foundations Storage Store Process

section State

variable (crypto : Crypto)

/-- The index has the entry at the position, and the files of the credential lead to the record. -/
structure Filed (app : App) (position : ℕ) (entry : CredentialIndexEntry)
    (record : CredentialRecord) : Prop where
  clean : Clean app.device
  listed : app.store[position]? = some entry
  distinct : (app.store.map (·.credentialId)).Nodup
  named : record.credentialId = entry.credentialId
  wellFormed : record.WellFormed
  found : loadFound crypto app.device.files (indexEntryFileName entry) = some record

/-- A credential as every start-up, registration and commit leaves it: the files hold the high-water
mark, which the count emitted last does not exceed. -/
structure Counted (app : App) (position : ℕ) (entry : CredentialIndexEntry)
    (record : CredentialRecord) : Prop extends Filed crypto app position entry record where
  highWater : entry.counterHighWater = record.signCount
  live : entry.signCount ≤ record.signCount

/-- The record with the high-water mark that a commit reserves. -/
def reservedRecord (record : CredentialRecord) : CredentialRecord :=
  { record with signCount := counterReservedHighWater (record.signCount + 1) }

/-- The entry that a commit publishes. -/
def advancedEntry (entry : CredentialIndexEntry) (record : CredentialRecord) :
    CredentialIndexEntry :=
  entry.advance { record with signCount := record.signCount + 1 }
    (counterReservedHighWater (record.signCount + 1))

/-- What a commit comes to. -/
structure Advances (app : App) (position : ℕ) (entry : CredentialIndexEntry)
    (record : CredentialRecord) (response : AssertionResponse) : Prop where
  signCount : response.signCount = record.signCount + 1
  room : record.signCount < uint32Max
  counted : Counted crypto app position (advancedEntry entry record) (reservedRecord record)

end State

section Sections

variable {crypto : Crypto} {app app' : App} {position : ℕ} {entry : CredentialIndexEntry}
  {record : CredentialRecord} {keep crash : App → Prop}

theorem Filed.of_eq (h : Filed crypto app position entry record) (hstore : app'.store = app.store)
    (hclean : Clean app'.device)
    (hfound : loadFound crypto app'.device.files (indexEntryFileName entry) = some record) :
    Filed crypto app' position entry record := by
  refine ⟨hclean, ?_, ?_, h.named, h.wellFormed, hfound⟩
  · rw [hstore]
    exact h.listed
  · rw [hstore]
    exact h.distinct

theorem Filed.name_eq (h : Filed crypto app position entry record) :
    record.fileName = indexEntryFileName entry := by
  rw [h.wellFormed.fileName, h.named]
  rfl

theorem Filed.isRecordName (h : Filed crypto app position entry record) :
    isRecordName (indexEntryFileName entry) = true := by
  rw [← h.name_eq, h.wellFormed.fileName]
  exact isRecordName_hexEncode h.wellFormed.credentialId

/-- Under the gate the user interface does not touch the credential or the queue. -/
theorem filed_rely {queue : AssertionQueue}
    (h : Filed crypto app position entry record ∧ app.assertionQueue = queue ∧ app.Held)
    (hrely : UiRely app app') :
    Filed crypto app' position entry record ∧ app'.assertionQueue = queue ∧ app'.Held := by
  refine @Disturbs.stable _ _ uiStep app app' (fun state ↦ Filed crypto state position entry record ∧
    state.assertionQueue = queue ∧ state.Held) ?_ hrely h
  rintro state event ⟨hfiled, hqueue, hheld⟩
  have heffect := uiEffect_uiStep state event
  obtain ⟨hstore, hsame, -, milliseconds, hdevice⟩ := hheld.ui_eq heffect
  refine ⟨hfiled.of_eq hstore ?_ ?_, hsame.trans hqueue, stable_held.ui _ _ heffect hheld⟩
  · rw [hdevice]
    exact ⟨hfiled.clean.writes, hfiled.clean.reads, hfiled.clean.enclave⟩
  · rw [hdevice]
    exact hfiled.found

/-- A section under the gate. -/
theorem maintains_filed {Value : Type} {program : Program App Value} {post : Value → App → Prop}
    (hfiled : Filed crypto app position entry record) (hheld : app.Held)
    (h : ∀ later, Filed crypto later position entry record →
      later.assertionQueue = app.assertionQueue → later.Held → Ensures program post crash later) :
    Maintains UiRely (fun _ ↦ True) post crash (atomically program) app := by
  refine maintains_of_stable (fun _ _ hrely hstate ↦ filed_rely hstate hrely) trivial
    ⟨hfiled, rfl, hheld⟩ ?_
  rintro later ⟨hlater, hqueue, hlaterHeld⟩
  exact h later hlater hqueue hlaterHeld

theorem Filed.snapshot (h : Filed crypto app position entry record) :
    snapshotIndexEntryLocked app position = if entry.inUse then some entry else none := by
  unfold snapshotIndexEntryLocked
  rw [h.listed]
  rfl

/-- Loading the credential's record. -/
theorem ensures_loadRecord_filed (hlaws : SealLaws crypto)
    (h : Filed crypto app position entry record) :
    Ensures (onDevice (loadRecord crypto entry))
      (fun loaded app' ↦ (loaded = none ∨ loaded = some record) ∧
        Filed crypto app' position entry record ∧ ∃ device, app' = { app with device })
      (fun _ ↦ False) app := by
  rw [ensures_onDevice]
  simp only [loadRecord, ensures_ite, ensures_pure]
  refine ⟨fun _ ↦ ⟨Or.inl trivial, h, app.device, rfl⟩, fun _ ↦ ?_⟩
  refine (ensures_recordFormatLoadRecord_clean hlaws h.isRecordName h.clean h.found).mono ?_
    fun _ hcut ↦ hcut
  rintro loaded device ⟨rfl, hsucceeds, -, hfound⟩
  exact ⟨Or.inr rfl, h.of_eq rfl hsucceeds.clean hfound, device, rfl⟩

/-- Building a response changes nothing that is asked for here. -/
theorem ensures_prepareAssertionResponse_filed (h : Filed crypto app position entry record)
    {request : AssertionRequestData}
    {userPresent uvVerified includeUserDetails includeCount : Bool} {matchCount : ℕ}
    {userSelected includeUserSelected : Bool} :
    Ensures (prepareAssertionResponse request record userPresent uvVerified includeUserDetails
        includeCount matchCount userSelected includeUserSelected)
      (fun reply app' ↦ (∀ response, reply = .ok response →
          response.signCount = record.signCount + 1 ∧ record.signCount < uint32Max) ∧
        Filed crypto app' position entry record ∧ ∃ statuses, app' = { app with statuses })
      crash app := by
  have hkept : ∀ statuses, Filed crypto { app with statuses } position entry record :=
    fun _ ↦ h.of_eq rfl h.clean h.found
  simp only [prepareAssertionResponse, ensures_ite, ensures_pure, ensures_bind, nextStatus,
    ensures_modifyGet]
  refine ⟨fun _ ↦ ⟨by simp, h, app.statuses, rfl⟩, fun hroom ↦ ⟨fun _ ↦ ⟨by simp, hkept _, _, rfl⟩,
    fun _ ↦ ⟨fun _ ↦ ⟨by simp, hkept _, _, rfl⟩, fun _ ↦ ⟨fun response hreply ↦ ?_, hkept _, _, rfl⟩⟩⟩⟩
  refine ⟨?_, Nat.lt_of_le_of_ne h.wellFormed.signCount hroom⟩
  rw [← Except.ok.inj hreply]
  rfl

theorem ensures_nextStatus_filed (h : Filed crypto app position entry record) :
    Ensures nextStatus (fun _ app' ↦ Filed crypto app' position entry record ∧
      ∃ statuses, app' = { app with statuses }) crash app := by
  simp only [nextStatus, ensures_modifyGet]
  exact ⟨h.of_eq rfl h.clean h.found, _, rfl⟩

/-- The files come to the end of the next window. -/
theorem ensures_prepareCounterAdvance_filed (hlaws : SealLaws crypto)
    (h : Filed crypto app position entry record) (hhigh : entry.counterHighWater = record.signCount)
    (hroom : record.signCount < uint32Max) :
    Ensures (onDevice (prepareCounterAdvance crypto entry
        { record with signCount := record.signCount + 1 }))
      (fun result app' ↦
        (∀ highWater, result = some highWater →
          highWater = counterReservedHighWater (record.signCount + 1) ∧
          Filed crypto app' position entry (reservedRecord record)) ∧
        ∃ device, app' = { app with device })
      (fun _ ↦ False) app := by
  have hnext : CredentialRecord.WellFormed { record with signCount := record.signCount + 1 } :=
    { h.wellFormed with signCount := hroom }
  have hbound : counterReservedHighWater (record.signCount + 1) ≤ uint32Max := by
    unfold counterReservedHighWater
    split_ifs <;> omega
  have hcross : entry.counterHighWater < record.signCount + 1 := by omega
  rw [ensures_onDevice]
  simp only [prepareCounterAdvance, ensures_ite, ensures_pure]
  refine ⟨fun _ ↦ ⟨by simp, app.device, rfl⟩, fun _ ↦ ⟨fun _ ↦ ?_, fun hnot ↦ absurd hcross hnot⟩⟩
  refine (ensures_recordFormatReserveCounter_clean hlaws hnext h.clean).mono ?_ fun _ hcut ↦ hcut
  rintro result device ⟨rfl, hsucceeds, hfound⟩
  refine ⟨fun highWater hhighWater ↦ ⟨(Option.some.inj hhighWater).symm, ?_⟩, device, rfl⟩
  refine ⟨hsucceeds.clean, h.listed, h.distinct, h.named, ?_, ?_⟩
  · exact { h.wellFormed with signCount := hbound }
  · rw [← h.name_eq]
    exact hfound

/-- An entry of the credential is the entry at its position. -/
theorem Filed.position_eq (h : Filed crypto app position entry record) {other : ℕ}
    {found : CredentialIndexEntry} (hlisted : app.store[other]? = some found)
    (hid : found.credentialId = entry.credentialId) : other = position ∧ found = entry := by
  obtain ⟨hlength, -⟩ := List.getElem?_eq_some_iff.mp hlisted
  have hposition : other = position := by
    refine (List.getElem?_inj ?_ h.distinct).mp ?_
    · rwa [List.length_map]
    · rw [List.getElem?_map, List.getElem?_map, hlisted, h.listed, Option.map_some,
        Option.map_some, hid]
  subst hposition
  exact ⟨rfl, Option.some.inj (hlisted.symm.trans h.listed)⟩

/-- Publishing the count makes the entry that of the next window. -/
theorem Filed.published (h : Filed crypto app position entry (reservedRecord record))
    (hhigh : entry.counterHighWater = record.signCount) {store : CredentialStore}
    (hpublish : publishCounterAdvance app.store { record with signCount := record.signCount + 1 }
      (counterReservedHighWater (record.signCount + 1)) = some store) :
    Counted crypto { app with store } position (advancedEntry entry record)
      (reservedRecord record) := by
  obtain ⟨index, other, hindex, hother, -, hle, rfl⟩ := publishCounterAdvance_eq_some hpublish
  have hid : record.credentialId = entry.credentialId := h.named
  -- The credential is found at its position, since no other one has its id.
  have hsame : other.credentialId = entry.credentialId := by
    obtain ⟨hlength, hmatches, -⟩ := List.findIdx?_eq_some_iff_getElem.mp hindex
    obtain ⟨_, hget⟩ := List.getElem?_eq_some_iff.mp hother
    rw [hget, Bool.and_eq_true, beq_iff_eq] at hmatches
    exact hmatches.2.trans hid
  obtain ⟨hlength, -⟩ := List.getElem?_eq_some_iff.mp hother
  obtain ⟨rfl, rfl⟩ := h.position_eq hother hsame
  refine ⟨⟨h.clean, List.getElem?_set_self hlength, ?_, h.named, h.wellFormed, h.found⟩, ?_, hle⟩
  · rw [List.map_set]
    have hkept : (app.store.map (·.credentialId)).set index
        (advancedEntry other record).credentialId = app.store.map (·.credentialId) := by
      refine List.ext_getElem? fun other ↦ ?_
      by_cases hsame : index = other
      · subst hsame
        rw [List.getElem?_set_self (by rwa [List.length_map]), List.getElem?_map, h.listed]
        rfl
      · rw [List.getElem?_set_ne hsame]
    exact hkept.symm ▸ h.distinct
  · have hcross : other.counterHighWater < record.signCount + 1 := by omega
    exact if_pos hcross

theorem Counted.of_eq (h : Counted crypto app position entry record)
    (hstore : app'.store = app.store) (hdevice : app'.device = app.device) :
    Counted crypto app' position entry record := by
  refine ⟨h.toFiled.of_eq hstore ?_ ?_, h.highWater, h.live⟩
  · rw [hdevice]
    exact h.clean
  · rw [hdevice]
    exact h.found

end Sections

section Answers

variable {crypto : Crypto} {app : App} {position : ℕ} {entry : CredentialIndexEntry}
  {record : CredentialRecord}

/-- An answer of success is an advance, and the gate is still taken. -/
def Advanced (crypto : Crypto) (position : ℕ) (entry : CredentialIndexEntry)
    (record : CredentialRecord) (reply : Reply AssertionResponse) (app : App) : Prop :=
  ∀ response, reply = .ok response → Advances crypto app position entry record response ∧ app.Held

theorem advanced_error (status : CtapStatus) :
    Advanced crypto position entry record (.error status) app := by
  intro response hreply
  exact absurd hreply (by simp)

/-- A state that a publication leaves. -/
theorem advanced_ok {response : AssertionResponse}
    (hsign : response.signCount = record.signCount + 1) (hroom : record.signCount < uint32Max)
    (hcounted : Counted crypto app position (advancedEntry entry record) (reservedRecord record))
    (hheld : app.Held) : Advanced crypto position entry record (.ok response) app := by
  intro answer hreply
  rw [← Except.ok.inj hreply]
  exact ⟨⟨hsign, hroom, hcounted⟩, hheld⟩

/-- The publication of getAssertion. -/
theorem ensures_publishAssertion_advanced
    (h : Filed crypto app position entry (reservedRecord record))
    (hhigh : entry.counterHighWater = record.signCount) (hroom : record.signCount < uint32Max)
    (hheld : app.Held) {call : AssertionCall} {matchIndices : List ℕ} {seedAssertionQueue : Bool}
    {response : AssertionResponse} (hsign : response.signCount = record.signCount + 1) :
    Ensures (publishAssertion call position { record with signCount := record.signCount + 1 }
        (counterReservedHighWater (record.signCount + 1)) matchIndices seedAssertionQueue response)
      (Advanced crypto position entry record) (fun _ ↦ False) app := by
  unfold publishAssertion
  rw [ensures_bind, ensures_get, ensures_ite]
  refine ⟨fun _ ↦ advanced_error _, fun _ ↦ ?_⟩
  cases hpublish : publishCounterAdvance app.store
      { record with signCount := record.signCount + 1 }
      (counterReservedHighWater (record.signCount + 1)) with
  | none => exact advanced_error _
  | some store =>
    have hcounted := h.published hhigh hpublish
    simp only [announce, assertionQueueClear, assertionQueueSeed, ensures_bind, ensures_modify,
      ensures_ite, ensures_pure, ensures_onDevice, getTick, ensures_get]
    exact ⟨fun _ ↦ ⟨fun _ ↦ advanced_ok hsign hroom (hcounted.of_eq rfl rfl) hheld,
      fun _ ↦ advanced_ok hsign hroom (hcounted.of_eq rfl rfl) hheld⟩,
      fun _ ↦ advanced_ok hsign hroom (hcounted.of_eq rfl rfl) hheld⟩

/-- The publication of getNextAssertion. -/
theorem ensures_publishNextAssertion_advanced
    (h : Filed crypto app position entry (reservedRecord record))
    (hhigh : entry.counterHighWater = record.signCount) (hroom : record.signCount < uint32Max)
    (hheld : app.Held) {sessionId queueIndex matchCount : ℕ} {rpId : Bytes}
    {response : AssertionResponse} (hsign : response.signCount = record.signCount + 1) :
    Ensures (publishNextAssertion sessionId queueIndex position matchCount rpId
        { record with signCount := record.signCount + 1 }
        (counterReservedHighWater (record.signCount + 1)) response)
      (Advanced crypto position entry record) (fun _ ↦ False) app := by
  unfold publishNextAssertion
  rw [ensures_bind, ensures_get]
  dsimp only
  rw [ensures_ite]
  refine ⟨fun _ ↦ ?_, fun _ ↦ ?_⟩
  · simp only [assertionQueueClear, ensures_ite, ensures_bind, ensures_modify, ensures_pure]
    exact ⟨fun _ ↦ advanced_error _, fun _ ↦ advanced_error _⟩
  · cases hpublish : publishCounterAdvance app.store
        { record with signCount := record.signCount + 1 }
        (counterReservedHighWater (record.signCount + 1)) with
    | none =>
      simp only [assertionQueueClear, ensures_bind, ensures_modify, ensures_pure]
      exact advanced_error _
    | some store =>
      have hcounted := h.published hhigh hpublish
      simp only [announce, ensures_bind, ensures_modify, ensures_pure, ensures_onDevice, getTick,
        ensures_get]
      exact advanced_ok hsign hroom (hcounted.of_eq rfl rfl) hheld

/-- Giving up. -/
theorem maintains_clearIfCurrent_error {sessionId queueIndex recordIndex count : ℕ} {rpId : Bytes}
    {status : CtapStatus} :
    Maintains UiRely (fun _ ↦ True) (Advanced crypto position entry record) (fun _ ↦ False)
      (do
        assertionQueueClearIfCurrent sessionId queueIndex recordIndex count rpId
        return .error status) app := by
  simp only [assertionQueueClearIfCurrent, assertionQueueClear, maintains_bind,
    maintains_atomically, ensures_bind, ensures_get, ensures_ite, ensures_modify, ensures_pure,
    maintains_pure]
  exact ⟨trivial, fun _ _ ↦ ⟨fun _ ↦ advanced_error _, fun _ ↦ advanced_error _⟩⟩

/-- The two sections of `zf_ctap_publish_assertion_counter`. -/
theorem maintains_publishAssertionCounter_advanced (hlaws : SealLaws crypto)
    (h : Filed crypto app position entry record)
    (hhigh : entry.counterHighWater = record.signCount) (hroom : record.signCount < uint32Max)
    (hheld : app.Held) {call : AssertionCall} {matchIndices : List ℕ} {seedAssertionQueue : Bool}
    {response : AssertionResponse} (hsign : response.signCount = record.signCount + 1) :
    Maintains UiRely (fun _ ↦ True) (Advanced crypto position entry record) (fun _ ↦ False)
      (publishAssertionCounter crypto call position entry record matchIndices seedAssertionQueue
        response) app := by
  unfold publishAssertionCounter
  rw [maintains_bind]
  refine maintains_filed h hheld fun later hlater _ hlaterHeld ↦ ?_
  refine (ensures_prepareCounterAdvance_filed hlaws hlater hhigh hroom).mono ?_ fun _ hcut ↦ hcut
  rintro result app' ⟨hresult, device, rfl⟩
  cases result with
  | none => exact advanced_error _
  | some highWater =>
    obtain ⟨rfl, hfiled⟩ := hresult highWater rfl
    exact maintains_filed hfiled hlaterHeld fun final hfinal _ hfinalHeld ↦
      ensures_publishAssertion_advanced hfinal hhigh hroom hfinalHeld hsign

/-- getAssertion on the credential. -/
theorem maintains_answerAssertion_advanced (hlaws : SealLaws crypto)
    (h : Filed crypto app position entry record)
    (hhigh : entry.counterHighWater = record.signCount) (hheld : app.Held)
    (call : AssertionCall) (matchIndices : List ℕ) (matchCount : ℕ) :
    Maintains UiRely (fun _ ↦ True) (Advanced crypto position entry record) (fun _ ↦ False)
      (answerAssertion crypto call position matchIndices matchCount) app := by
  unfold answerAssertion loadAssertionRecord
  simp only [maintains_bind]
  refine maintains_filed h hheld fun app₁ h₁ _ hheld₁ ↦ ?_
  rw [ensures_bind, ensures_get, ensures_pure, h₁.snapshot]
  by_cases hinUse : entry.inUse = true
  · rw [if_pos hinUse]
    refine (maintains_bind _ _).mpr ?_
    refine maintains_filed h₁ hheld₁ fun app₂ h₂ _ hheld₂ ↦ ?_
    refine (ensures_loadRecord_filed hlaws h₂).mono ?_ fun _ hcut ↦ hcut
    rintro loaded app' ⟨hloaded, h₃, device, rfl⟩
    rcases hloaded with rfl | rfl
    · exact advanced_error _
    · dsimp only
      rw [maintains_ite]
      refine ⟨fun _ ↦ advanced_error _, fun _ ↦ ?_⟩
      refine (maintains_bind _ _).mpr ?_
      refine maintains_filed h₃ hheld₂ fun app₄ h₄ _ hheld₄ ↦ ?_
      refine (ensures_prepareAssertionResponse_filed h₄).mono ?_ fun _ hcut ↦ hcut
      rintro reply app' ⟨hreply, h₅, statuses, rfl⟩
      cases reply with
      | error status => exact advanced_error _
      | ok response =>
        obtain ⟨hsign, hroom⟩ := hreply response rfl
        dsimp only
        rw [maintains_ite]
        refine ⟨fun _ ↦ ?_, fun _ ↦ ?_⟩
        · refine (maintains_bind _ _).mpr ?_
          refine maintains_filed h₅ hheld₄ fun app₆ h₆ _ hheld₆ ↦ ?_
          refine (ensures_nextStatus_filed h₆).mono ?_ fun _ hcut ↦ hcut
          rintro status app' ⟨h₇, statuses, rfl⟩
          rw [maintains_ite]
          refine ⟨fun _ ↦ advanced_error _, fun _ ↦ ?_⟩
          exact maintains_publishAssertionCounter_advanced hlaws h₇ hhigh hroom hheld₆ hsign
        · exact maintains_publishAssertionCounter_advanced hlaws h₅ hhigh hroom hheld₄ hsign
  · rw [if_neg hinUse]
    exact advanced_error _

/-- The last step of `readAssertionQueue`. -/
def queueEntryAt (app : App) (position : ℕ) :
    Program App (Reply (AssertionQueue × CredentialIndexEntry)) :=
  match snapshotIndexEntryLocked app position with
  | none => do
    assertionQueueClear
    return .error .notAllowed
  | some entry => return .ok (app.assertionQueue, entry)

/-- Reading the queue finds the credential that the queue points at. -/
theorem ensures_readAssertionQueue_filed (h : Filed crypto app position entry record)
    (hposition : app.assertionQueue.recordIndices.getD app.assertionQueue.index 0 = position)
    {sessionId : ℕ} :
    Ensures (readAssertionQueue sessionId)
      (fun reply app' ↦ ∀ found, reply = .ok found → found = (app.assertionQueue, entry) ∧
        Filed crypto app' position entry record ∧ ∃ expiry, app' = { app with expiry })
      (fun _ ↦ False) app := by
  have hentry : ∀ expiry, snapshotIndexEntryLocked app position = some expiry → expiry = entry := by
    intro found hfound
    rw [h.snapshot] at hfound
    split_ifs at hfound
    exact (Option.some.inj hfound).symm
  have hfound : ∀ expiry, Ensures (queueEntryAt app position)
      (fun reply app' ↦ ∀ found, reply = .ok found → found = (app.assertionQueue, entry) ∧
        Filed crypto app' position entry record ∧ ∃ expiry, app' = { app with expiry })
      (fun _ ↦ False) { app with expiry } := by
    intro expiry
    unfold queueEntryAt
    cases hsnapshot : snapshotIndexEntryLocked app position with
    | none =>
      simp only [assertionQueueClear, ensures_bind, ensures_modify, ensures_pure]
      simp
    | some found =>
      rw [hentry found hsnapshot]
      intro answer hreply
      exact ⟨(Except.ok.inj hreply).symm, h.of_eq rfl h.clean h.found, expiry, rfl⟩
  unfold readAssertionQueue
  simp only [ensures_bind, ensures_get, ensures_onDevice, getTick, ensures_pure, ensures_ite,
    ensures_modify, hposition]
  refine ⟨fun _ ↦ ⟨fun _ ↦ ?_, fun _ ↦ ⟨fun _ ↦ by simp, fun _ ↦ hfound _⟩⟩,
    fun _ ↦ ⟨fun _ ↦ ?_, fun _ ↦ ⟨fun _ ↦ by simp, fun _ ↦ hfound app.expiry⟩⟩⟩
  · simp [assertionQueueClear, ensures_modify]
  · simp [assertionQueueClear, ensures_modify]

/-- getNextAssertion on the credential. -/
theorem maintains_answerNextAssertion_advanced (hlaws : SealLaws crypto)
    (h : Filed crypto app position entry record)
    (hhigh : entry.counterHighWater = record.signCount) (hheld : app.Held)
    (hposition : app.assertionQueue.recordIndices.getD app.assertionQueue.index 0 = position)
    (sessionId : ℕ) :
    Maintains UiRely (fun _ ↦ True) (Advanced crypto position entry record) (fun _ ↦ False)
      (answerNextAssertion crypto sessionId) app := by
  unfold answerNextAssertion
  rw [maintains_bind]
  refine maintains_filed h hheld fun app₁ h₁ hqueue₁ hheld₁ ↦ ?_
  rw [← hqueue₁] at hposition
  refine (ensures_readAssertionQueue_filed h₁ hposition).mono ?_ fun _ hcut ↦ hcut
  intro reply app' hreply
  cases reply with
  | error status => exact advanced_error _
  | ok found =>
    obtain ⟨rfl, h₂, expiry, rfl⟩ := hreply found rfl
    dsimp only
    rw [hposition, maintains_bind]
    refine maintains_filed h₂ hheld₁ fun app₃ h₃ _ hheld₃ ↦ ?_
    refine (ensures_loadRecord_filed hlaws h₃).mono ?_ fun _ hcut ↦ hcut
    rintro loaded app' ⟨hloaded, h₄, device, rfl⟩
    rcases hloaded with rfl | rfl
    · exact maintains_clearIfCurrent_error
    · dsimp only
      rw [maintains_ite, maintains_ite]
      refine ⟨fun _ ↦ maintains_clearIfCurrent_error,
        fun _ ↦ ⟨fun _ ↦ maintains_clearIfCurrent_error, fun _ ↦ ?_⟩⟩
      rw [maintains_bind]
      refine maintains_filed h₄ hheld₃ fun app₅ h₅ _ hheld₅ ↦ ?_
      refine (ensures_prepareAssertionResponse_filed h₅).mono ?_ fun _ hcut ↦ hcut
      rintro reply app' ⟨hreply, h₆, statuses, rfl⟩
      cases reply with
      | error status => exact advanced_error _
      | ok response =>
        obtain ⟨hsign, hroom⟩ := hreply response rfl
        dsimp only
        rw [maintains_bind]
        refine maintains_filed h₆ hheld₅ fun app₇ h₇ _ hheld₇ ↦ ?_
        refine (ensures_nextStatus_filed h₇).mono ?_ fun _ hcut ↦ hcut
        rintro status app' ⟨h₈, statuses, rfl⟩
        rw [maintains_ite]
        refine ⟨fun _ ↦ maintains_clearIfCurrent_error, fun _ ↦ ?_⟩
        rw [maintains_bind]
        refine maintains_filed h₈ hheld₇ fun app₉ h₉ _ hheld₉ ↦ ?_
        refine (ensures_prepareCounterAdvance_filed hlaws h₉ hhigh hroom).mono ?_
          fun _ hcut ↦ hcut
        rintro result app' ⟨hresult, device, rfl⟩
        cases result with
        | none => exact maintains_clearIfCurrent_error
        | some highWater =>
          obtain ⟨rfl, hfiled⟩ := hresult highWater rfl
          exact maintains_filed hfiled hheld₉ fun final hfinal _ hfinalHeld ↦
            ensures_publishNextAssertion_advanced hfinal hhigh hroom hfinalHeld hsign

end Answers

section Runs

/-- A successful getAssertion or getNextAssertion on the credential at the position, between taking
the gate and giving it back. -/
inductive Commits (crypto : Crypto) (position : ℕ) (app : App) (response : AssertionResponse)
    (app' : App) : Prop
  | assertion (call : AssertionCall) (matchIndices : List ℕ) (matchCount : ℕ)
      (schedule : List (Option UiEvent))
      (hdone : interleave uiStep (answerAssertion crypto call position matchIndices matchCount) app
        schedule = (.done (.ok response), app'))
  | nextAssertion (sessionId : ℕ) (schedule : List (Option UiEvent))
      (hposition : app.assertionQueue.recordIndices.getD app.assertionQueue.index 0 = position)
      (hdone : interleave uiStep (answerNextAssertion crypto sessionId) app schedule =
        (.done (.ok response), app'))

/-- What one commit emitted, the high-water mark the index had before it, and the files before and
after it. -/
structure CounterCommit where
  signCount : ℕ
  highWater : ℕ
  before : Path → Option Bytes
  after : Path → Option Bytes

/-- The commit changed a file of the credential. -/
def CounterCommit.Rewrites (name : Path) (commit : CounterCommit) : Prop :=
  ∃ path, FileOf name path ∧ commit.after path ≠ commit.before path

/-- What happens between two commits on a credential: no failure of the storage is prepared, and the
entry and what its files lead to stay as they are. -/
structure LeavesCounter (crypto : Crypto) (credentialId : Bytes) (app app' : App) : Prop where
  clean : Clean app.device → Clean app'.device
  distinct : (app.store.map (·.credentialId)).Nodup → (app'.store.map (·.credentialId)).Nodup
  listed : ∀ (position : ℕ) (entry : CredentialIndexEntry), app.store[position]? = some entry →
    entry.credentialId = credentialId → (∃ position' : ℕ, app'.store[position']? = some entry) ∧
      loadFound crypto app'.device.files (indexEntryFileName entry) =
        loadFound crypto app.device.files (indexEntryFileName entry)

/-- A run without restart, with its commits on one credential. -/
inductive CommitRun (crypto : Crypto) (credentialId : Bytes) : App → List CounterCommit → App → Prop
  | done (app : App) : CommitRun crypto credentialId app [] app
  | others {app app' final : App} {commits : List CounterCommit}
      (hothers : LeavesCounter crypto credentialId app app')
      (hrest : CommitRun crypto credentialId app' commits final) :
      CommitRun crypto credentialId app commits final
  | commit {app app' final : App} {commits : List CounterCommit} {position : ℕ}
      {entry : CredentialIndexEntry} {response : AssertionResponse} (hheld : app.Held)
      (hlisted : app.store[position]? = some entry) (hid : entry.credentialId = credentialId)
      (hcommits : Commits crypto position app response app')
      (hrest : CommitRun crypto credentialId app' commits final) :
      CommitRun crypto credentialId app
        ({ signCount := response.signCount, highWater := entry.counterHighWater,
           before := app.device.files, after := app'.device.files } :: commits) final

/-- The counts are consecutive, and only a commit past the reserved high-water mark rewrites the
files. -/
def Windowed (name : Path) (commits : List CounterCommit) : Prop :=
  commits.IsChain (fun earlier later ↦ later.signCount = earlier.signCount + 1) ∧
    ∀ commit ∈ commits, commit.Rewrites name → commit.highWater < commit.signCount

/-- The count of a commit follows the end of the window of the commit before. -/
def Skips (earlier later : CounterCommit) : Prop :=
  counterReservedHighWater earlier.signCount < uint32Max ∧
    later.signCount = counterReservedHighWater earlier.signCount + 1

variable {crypto : Crypto} {app app' final : App} {position : ℕ} {entry : CredentialIndexEntry}
  {record : CredentialRecord} {commits : List CounterCommit} {response : AssertionResponse}

/-- An entry that was made from its record, as by a start-up or a registration. -/
theorem Filed.counted (h : Filed crypto app position (indexEntryFromRecord crypto record) record) :
    Counted crypto app position (indexEntryFromRecord crypto record) record :=
  ⟨h, rfl, le_rfl⟩

/-- What a commit comes to, whatever the user interface does in the meantime. -/
theorem Commits.advances (hlaws : SealLaws crypto)
    (h : Counted crypto app position entry record) (hheld : app.Held)
    (hcommits : Commits crypto position app response app') :
    Advances crypto app' position entry record response := by
  have hstable : ∀ reply state event, Advanced crypto position entry record reply state →
      Advanced crypto position entry record reply (uiStep state event) := by
    intro reply state event hadvanced answer hreply
    obtain ⟨hadvances, hstate⟩ := hadvanced answer hreply
    obtain ⟨hfiled, -, hlater⟩ := filed_rely ⟨hadvances.counted.toFiled, rfl, hstate⟩
      ⟨[event], rfl⟩
    exact ⟨⟨hadvances.signCount, hadvances.room, hfiled, hadvances.counted.highWater,
      hadvances.counted.live⟩, hlater⟩
  have hdone : ∀ {process : Process App (Reply AssertionResponse)}
      {schedule : List (Option UiEvent)},
      Maintains UiRely (fun _ ↦ True) (Advanced crypto position entry record) (fun _ ↦ False)
        process app →
      interleave uiStep process app schedule = (.done (.ok response), app') →
      Advances crypto app' position entry record response := by
    intro process schedule hmaintains hrun
    have hfinal := hmaintains.interleave (fun _ _ _ ↦ trivial) hstable (fun _ _ hcut ↦ hcut) schedule
    rw [hrun] at hfinal
    exact (hfinal response rfl).1
  cases hcommits with
  | assertion call matchIndices matchCount schedule hrun =>
    exact hdone (maintains_answerAssertion_advanced hlaws h.toFiled h.highWater hheld call
      matchIndices matchCount) hrun
  | nextAssertion sessionId schedule hposition hrun =>
    exact hdone (maintains_answerNextAssertion_advanced hlaws h.toFiled h.highWater hheld hposition
      sessionId) hrun

/-- The other steps leave the credential as it is. -/
theorem LeavesCounter.counted (hothers : LeavesCounter crypto entry.credentialId app app')
    (h : Counted crypto app position entry record) :
    ∃ position', Counted crypto app' position' entry record := by
  obtain ⟨⟨position', hlisted⟩, hfound⟩ := hothers.listed position entry h.listed rfl
  exact ⟨position', ⟨hothers.clean h.clean, hlisted, hothers.distinct h.distinct, h.named,
    h.wellFormed, hfound.trans h.found⟩, h.highWater, h.live⟩

/-- In a run each commit starts at the end of the window before it. -/
theorem CommitRun.skips (hlaws : SealLaws crypto) {credentialId : Bytes}
    (hrun : CommitRun crypto credentialId app commits final) :
    ∀ {position entry record}, Counted crypto app position entry record →
      entry.credentialId = credentialId →
      (∀ first ∈ commits.head?, record.signCount < uint32Max ∧
        first.signCount = record.signCount + 1) ∧
      commits.IsChain Skips ∧ ∀ commit ∈ commits, commit.highWater < commit.signCount := by
  induction hrun with
  | done app => exact fun _ _ ↦ ⟨by simp, List.IsChain.nil, by simp⟩
  | others hothers hrest ih =>
    intro position entry record h hid
    subst hid
    obtain ⟨position', hlater⟩ := hothers.counted h
    exact ih hlater rfl
  | @commit app app' final commits position entry response hheld hlisted hid hcommits hrest ih =>
    intro position entry record h hid'
    obtain ⟨rfl, rfl⟩ := h.toFiled.position_eq hlisted (hid.trans hid'.symm)
    have hadvances := hcommits.advances hlaws h hheld
    obtain ⟨hfirst, hchain, hpast⟩ := ih hadvances.counted hid'
    refine ⟨?_, ?_, ?_⟩
    · rintro _ ⟨⟩
      exact ⟨hadvances.room, hadvances.signCount⟩
    · cases commits with
      | nil => exact List.IsChain.singleton _
      | cons later rest =>
        obtain ⟨hroom, hnext⟩ := hfirst later rfl
        refine List.IsChain.cons_cons ?_ hchain
        unfold Skips
        rw [hadvances.signCount]
        exact ⟨hroom, hnext⟩
    · refine List.forall_mem_cons.mpr ⟨?_, hpast⟩
      rw [h.highWater, hadvances.signCount]
      exact Nat.lt_succ_self _

/-- The counts of a run of commits are consecutive just when there is at most one, since each is
past the mark that was reserved before it. -/
theorem commits_windowed_iff (hlaws : SealLaws crypto)
    (h : Counted crypto app position entry record)
    (hrun : CommitRun crypto entry.credentialId app commits final) :
    Windowed (indexEntryFileName entry) commits ↔ commits.length ≤ 1 := by
  obtain ⟨-, hskips, hpast⟩ := hrun.skips hlaws h rfl
  constructor
  · rintro ⟨hconsecutive, -⟩
    match commits, hskips, hconsecutive with
    | [], _, _ => exact Nat.zero_le 1
    | [_], _, _ => exact le_rfl
    | first :: second :: _, hskips, hconsecutive =>
      obtain ⟨⟨hroom, hskip⟩, -⟩ := List.isChain_cons_cons.mp hskips
      obtain ⟨hnext, -⟩ := List.isChain_cons_cons.mp hconsecutive
      -- The window is not at the top, so the mark is a whole window past the first count.
      unfold counterReservedHighWater counterReservationWindow at hroom hskip
      split_ifs at hroom hskip <;> omega
  · intro hlength
    refine ⟨?_, fun commit hmem _ ↦ hpast commit hmem⟩
    match commits, hlength with
    | [], _ => exact List.IsChain.nil
    | [commit], _ => exact List.IsChain.singleton commit

end Runs

section Samples

/-- A credential that has not signed yet, under the gate. -/
def unusedCredential : App := { sampleApp [sampleRecord 1 1] with maintenanceBusy := true }

/-- getAssertion on it. -/
def sampleCall : AssertionCall :=
  { sessionId := 0, request := sampleRequest, uvVerified := false, resolveMatch := true,
    userPresent := true, includeUserDetails := false, includeUserSelected := false,
    pollBeforePublish := true }

/-- What getAssertion comes to when no one else acts. -/
def assertedFrom (app : App) : Process App (Reply AssertionResponse) × App :=
  interleave uiStep (answerAssertion Crypto.standIn sampleCall 0 [0] 1) app (List.replicate 8 none)

/-- The count it emits. -/
def emitted (final : Process App (Reply AssertionResponse) × App) : Option ℕ :=
  match final.1.result? with
  | some (.ok response) => some response.signCount
  | _ => none

theorem commits_of_emitted {app : App} {signCount : ℕ}
    (h : emitted (assertedFrom app) = some signCount) :
    ∃ response : AssertionResponse, response.signCount = signCount ∧
      Commits Crypto.standIn 0 app response (assertedFrom app).2 := by
  unfold emitted at h
  split at h
  · rename_i response hresult
    refine ⟨response, Option.some.inj h, .assertion sampleCall [0] 1 (List.replicate 8 none) ?_⟩
    exact Prod.ext (eq_done_of_result? hresult) rfl
  · exact absurd h (by simp)

theorem counted_unusedCredential :
    Counted Crypto.standIn unusedCredential 0
      (indexEntryFromRecord Crypto.standIn (sampleRecord 1 1)) (sampleRecord 1 1) := by
  refine Filed.counted ⟨⟨?_, ?_, ?_⟩, rfl, ?_, rfl, wellFormed_sampleRecord 1 (by decide), ?_⟩
  · decide +kernel
  · decide +kernel
  · decide +kernel
  · exact List.pairwise_singleton _ _
  · decide +kernel

/-- One getAssertion on it emits 1. -/
theorem commitRun_one : ∃ commits final,
    CommitRun Crypto.standIn (sampleRecord 1 1).credentialId unusedCredential commits final ∧
      commits.map (·.signCount) = [1] := by
  have hemitted : emitted (assertedFrom unusedCredential) = some 1 := by decide +kernel
  obtain ⟨response, hcount, hcommits⟩ := commits_of_emitted hemitted
  refine ⟨_, _, .commit ⟨rfl, rfl⟩ counted_unusedCredential.listed rfl hcommits (.done _), ?_⟩
  rw [List.map_singleton, hcount]

/-- Two of them emit 1 and 34. -/
theorem commitRun_two : ∃ commits final,
    CommitRun Crypto.standIn (sampleRecord 1 1).credentialId unusedCredential commits final ∧
      commits.map (·.signCount) = [1, 34] := by
  have hfirst : emitted (assertedFrom unusedCredential) = some 1 := by decide +kernel
  have hsecond : emitted (assertedFrom (assertedFrom unusedCredential).2) = some 34 := by
    decide +kernel
  obtain ⟨response, hcount, hcommits⟩ := commits_of_emitted hfirst
  obtain ⟨response', hcount', hcommits'⟩ := commits_of_emitted hsecond
  have hadvances := hcommits.advances sealLaws_standIn counted_unusedCredential ⟨rfl, rfl⟩
  have hheld : (assertedFrom unusedCredential).2.Held := by
    unfold App.Held
    decide +kernel
  refine ⟨_, _, .commit ⟨rfl, rfl⟩ counted_unusedCredential.listed rfl hcommits
    (.commit hheld hadvances.counted.listed rfl hcommits' (.done _)), ?_⟩
  rw [List.map_cons, List.map_singleton, hcount, hcount']

theorem commits_windowed_iff_unusedCredential :
    (∃ commits final,
      CommitRun Crypto.standIn (sampleRecord 1 1).credentialId unusedCredential commits final ∧
        commits.map (·.signCount) = [1] ∧
        Windowed (indexEntryFileName (indexEntryFromRecord Crypto.standIn (sampleRecord 1 1)))
          commits) ∧
    ∃ commits final,
      CommitRun Crypto.standIn (sampleRecord 1 1).credentialId unusedCredential commits final ∧
        commits.map (·.signCount) = [1, 34] ∧
        ¬Windowed (indexEntryFileName (indexEntryFromRecord Crypto.standIn (sampleRecord 1 1)))
          commits := by
  constructor
  · obtain ⟨commits, final, hrun, hcounts⟩ := commitRun_one
    refine ⟨commits, final, hrun, hcounts, ?_⟩
    have hlength : commits.length = 1 := by
      have hmap := congrArg List.length hcounts
      rwa [List.length_map] at hmap
    exact (commits_windowed_iff sealLaws_standIn counted_unusedCredential hrun).mpr hlength.le
  · obtain ⟨commits, final, hrun, hcounts⟩ := commitRun_two
    refine ⟨commits, final, hrun, hcounts, fun hwindowed ↦ ?_⟩
    have hlength : commits.length = 2 := by
      have hmap := congrArg List.length hcounts
      rwa [List.length_map] at hmap
    have hone := (commits_windowed_iff sealLaws_standIn counted_unusedCredential hrun).mp hwindowed
    rw [hlength] at hone
    exact absurd hone (by decide)

/-- The second count of two getAssertions on it does not follow the first. -/
theorem second_commit_skips_window :
    Counted Crypto.standIn unusedCredential 0
        (indexEntryFromRecord Crypto.standIn (sampleRecord 1 1)) (sampleRecord 1 1) ∧
      ∃ commits final,
        CommitRun Crypto.standIn (sampleRecord 1 1).credentialId unusedCredential commits final ∧
          commits.map (·.signCount) = [1, 34] ∧
          ¬Windowed (indexEntryFileName (indexEntryFromRecord Crypto.standIn (sampleRecord 1 1)))
            commits := by
  refine ⟨counted_unusedCredential, ?_⟩
  obtain ⟨commits, final, hrun, hcounts⟩ := commitRun_two
  refine ⟨commits, final, hrun, hcounts, ?_⟩
  rintro ⟨hconsecutive, -⟩
  have hchain : (commits.map (·.signCount)).IsChain fun before after ↦ after = before + 1 := by
    rw [List.isChain_map]
    exact hconsecutive
  rw [hcounts] at hchain
  exact absurd (List.isChain_cons_cons.mp hchain).1 (by decide)

end Samples

end ZeroFido.Ctap
