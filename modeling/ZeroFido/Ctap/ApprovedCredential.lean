import ZeroFido.Ctap.Interference

/-!
# The credential that signs is the one that was approved

getAssertion resolves the matches before it asks the user, and holds the gate only afterwards. The
user selects one of the resolved positions, and the position is all that is carried into the gated
part, where the record it points at is checked for its RP ID and for being the record of its own
entry, but not for being visible to the request or for being the one the user saw.

A credential that the user interface deletes between the two shifts every later position. When it
stands at or before the selected position, another credential of the same RP signs, which may be
one that requires user verification (`selected_position_shifted`). Without such a deletion the
credential that signs is the one the user selected, and on the other two paths, which resolve the
matches under the gate, it always is a match of the request (`get_assertion_signs_approved`).
-/

set_option autoImplicit false
set_option relaxedAutoImplicit false

namespace ZeroFido.Ctap

open Foundations Storage Store Process

section Statement

variable (crypto : Crypto)

/-- No deletion after the matches were resolved was at or before the selected position. -/
def Assertion.Undisturbed (assertion : Assertion) : Prop :=
  assertion.prompted = true → ∀ position ∈ assertion.deleted, assertion.recordIndex < position

instance (assertion : Assertion) : Decidable assertion.Undisturbed :=
  inferInstanceAs (Decidable (_ → ∀ position ∈ assertion.deleted, _))

/-- The credential that signed belongs to the RP of the request, is one of its matches, and is the
one the user selected. -/
structure Assertion.SignsApproved (assertion : Assertion) : Prop where
  rpId : assertion.record.rpId = assertion.request.assertion.rpId
  signed : assertion.response.credentialId = assertion.record.credentialId
  verified : assertion.response.userVerified = assertion.uvVerified
  entry : (entryAt assertion.store assertion.recordIndex).credentialId =
    assertion.record.credentialId
  visible : assertion.recordIndex ∈
    resolveAssertionMatches crypto assertion.store assertion.request assertion.uvVerified
  unrestricted : assertion.uvVerified = false →
    (entryAt assertion.store assertion.recordIndex).credProtect ≠ credProtectUvRequired
  selected : assertion.prompted = true → assertion.selected = some assertion.record.credentialId

/-- The tests that `zf_ctap_resolve_assertion_matches` makes of an entry. -/
def entryIsMatch (request : GetAssertionRequest) (uvVerified : Bool)
    (entry : CredentialIndexEntry) : Bool :=
  (entry.inUse && indexEntryMatchesRp crypto entry request.assertion.rpId &&
    if requestUsesAllowList request then
      storeEntryMatchesDescriptorList crypto request.allowList entry
    else entry.residentKey) && credentialIsAllowedByCredProtect request uvVerified entry

end Statement

section Matches

variable {crypto : Crypto} {store : CredentialStore} {request : GetAssertionRequest}
  {uvVerified : Bool} {index : ℕ} {entry : CredentialIndexEntry}

theorem entryIsMatch_of_mem (h : index ∈ resolveAssertionMatches crypto store request uvVerified) :
    ∃ entry, store[index]? = some entry ∧ entryIsMatch crypto request uvVerified entry = true := by
  obtain ⟨hcandidate, hallowed⟩ := List.mem_filter.mp h
  unfold assertionCandidates at hcandidate
  unfold entryIsMatch
  split_ifs at hcandidate ⊢ with hlist
  · obtain ⟨entry, hentry, hkeep⟩ := mem_findBy hcandidate
    rw [entryAt_of_getElem? hentry] at hallowed
    exact ⟨entry, hentry, by rw [hkeep, hallowed]; rfl⟩
  · obtain ⟨entry, hentry, hkeep⟩ := mem_findBy hcandidate
    rw [entryAt_of_getElem? hentry] at hallowed
    refine ⟨entry, hentry, ?_⟩
    rw [hallowed, Bool.and_true, Bool.and_right_comm]
    exact hkeep

theorem mem_of_entryIsMatch (hsize : store.length ≤ maxCredentials)
    (hentry : store[index]? = some entry)
    (h : entryIsMatch crypto request uvVerified entry = true) :
    index ∈ resolveAssertionMatches crypto store request uvVerified := by
  unfold entryIsMatch at h
  rw [Bool.and_eq_true] at h
  refine List.mem_filter.mpr ⟨?_, ?_⟩
  · unfold assertionCandidates
    split_ifs with hlist
    · rw [if_pos hlist] at h
      exact mem_findBy_of_getElem? hsize hentry h.1
    · rw [if_neg hlist, Bool.and_right_comm] at h
      exact mem_findBy_of_getElem? hsize hentry h.1
  · rw [entryAt_of_getElem? hentry]
    exact h.2

/-- A match of a request without user verification does not require it. -/
theorem credProtect_of_entryIsMatch (h : entryIsMatch crypto request false entry = true) :
    entry.credProtect ≠ credProtectUvRequired := by
  intro hrequired
  unfold entryIsMatch at h
  rw [Bool.and_eq_true] at h
  have hhidden : hiddenFromAssertion false (requestUsesAllowList request) entry = true := by
    simp [hiddenFromAssertion, hrequired]
  exact absurd (h.2.symm.trans (not_allowed_of_hidden hhidden)) (by simp)

end Matches

section Tracking

variable {crypto : Crypto} {app app' : App}

/-- The record that the gated part is called for: when no deletion disturbed it, it is a match of
the request, and the one the user selected. -/
structure Aim (crypto : Crypto) (call : AssertionCall) (recordIndex : ℕ) (app : App) : Prop where
  size : app.store.length ≤ maxCredentials
  target : (call.resolveMatch = false → ∀ position ∈ app.deletedPositions, recordIndex < position) →
    ∃ entry, app.store[recordIndex]? = some entry ∧
      entryIsMatch crypto call.request call.uvVerified entry = true ∧
      (call.resolveMatch = false → app.selectedCredential = some entry.credentialId)
  settled : call.resolveMatch = false → app.approval.state ≠ .pending

/-- Resolved positions still point at matches as long as no deletion was at or before them. -/
structure Tracked (crypto : Crypto) (request : GetAssertionRequest) (uvVerified : Bool)
    (matchIndices : List ℕ) (app : App) : Prop where
  size : app.store.length ≤ maxCredentials
  target : ∀ index ∈ matchIndices, (∀ position ∈ app.deletedPositions, index < position) →
    ∃ entry, app.store[index]? = some entry ∧ entryIsMatch crypto request uvVerified entry = true

/-- A prompt shows resolved positions, and the observer knows what was selected. -/
structure Prompted (crypto : Crypto) (request : GetAssertionRequest) (uvVerified : Bool)
    (matchIndices : List ℕ) (app : App) : Prop
    extends Tracked crypto request uvVerified matchIndices app where
  shown : app.approval.credentialIndices = matchIndices
  chosen : ∀ index, app.approval.selectedRecordIndex = some index → index ∈ matchIndices ∧
    ((∀ position ∈ app.deletedPositions, index < position) →
      ∃ entry, app.store[index]? = some entry ∧
        app.selectedCredential = some entry.credentialId)

/-- Positions before a deletion keep their entries. -/
theorem getElem?_eraseIdx_of_compacted {store : CredentialStore} {index removed : ℕ}
    {positions : List ℕ} (h : ∀ position ∈ positions ++ [removed], index < position) :
    (store.eraseIdx removed)[index]? = store[index]? ∧
      ∀ position ∈ positions, index < position := by
  refine ⟨List.getElem?_eraseIdx_of_lt (h removed (by simp)), fun position hposition ↦ ?_⟩
  exact h position (List.mem_append_left _ hposition)

theorem indifferent_size : Indifferent fun app ↦ app.store.length ≤ maxCredentials := by
  refine ⟨⟨⟨?_, ?_⟩, fun _ _ hsize ↦ hsize⟩, fun _ _ _ hsize ↦ hsize⟩
  · intro app app' heffect hsize
    cases heffect with
    | compacted credentialId hui device index hindex =>
      exact (List.length_eraseIdx_le _ _).trans hsize
    | _ => exact hsize
  · intro app app' hsame hsize
    rw [hsame.store]
    exact hsize

variable {request : GetAssertionRequest} {uvVerified : Bool} {matchIndices : List ℕ}
  {call : AssertionCall} {recordIndex : ℕ}

theorem indifferent_tracked : Indifferent (Tracked crypto request uvVerified matchIndices) := by
  refine ⟨⟨⟨?_, ?_⟩, fun _ _ h ↦ ⟨h.size, h.target⟩⟩, fun _ _ _ h ↦ ⟨h.size, h.target⟩⟩
  · intro app app' heffect h
    cases heffect with
    | compacted credentialId hui device removed hremoved =>
      refine ⟨(List.length_eraseIdx_le _ _).trans h.size, fun index hindex hbefore ↦ ?_⟩
      obtain ⟨hsame, hearlier⟩ := getElem?_eraseIdx_of_compacted hbefore
      rw [hsame]
      exact h.target index hindex hearlier
    | _ => exact ⟨h.size, h.target⟩
  · intro app app' hsame h
    constructor
    · rw [hsame.store]
      exact h.size
    · rw [hsame.store, hsame.deletedPositions]
      exact h.target

theorem stable_prompted : Stable (Prompted crypto request uvVerified matchIndices) := by
  constructor
  · intro app app' heffect h
    have htracked := indifferent_tracked.ui app app' heffect h.toTracked
    refine ⟨htracked, ?_, ?_⟩
    · cases heffect with
      | _ => exact h.shown
    · intro index hchosen
      cases heffect with
      | selected recordIndex entry hpending hlisted hentry =>
        obtain rfl : recordIndex = index := Option.some.inj hchosen
        exact ⟨h.shown ▸ hlisted, fun _ ↦ ⟨entry, hentry, rfl⟩⟩
      | compacted credentialId hui device removed hremoved =>
        obtain ⟨hmem, hentry⟩ := h.chosen index hchosen
        refine ⟨hmem, fun hbefore ↦ ?_⟩
        obtain ⟨hsame, hearlier⟩ := getElem?_eraseIdx_of_compacted hbefore
        show ∃ entry, (app.store.eraseIdx removed)[index]? = some entry ∧
          app.selectedCredential = some entry.credentialId
        rw [hsame]
        exact hentry hearlier
      | _ => exact h.chosen index hchosen
  · intro app app' hsame h
    refine ⟨indifferent_tracked.shared app app' hsame h.toTracked, ?_, ?_⟩
    · rw [hsame.approval]
      exact h.shown
    · rw [hsame.approval, hsame.store, hsame.deletedPositions, hsame.selectedCredential]
      exact h.chosen

/-- A prompt that has ended stays ended. -/
theorem stable_settled : Stable fun app ↦ app.approval.state ≠ .pending := by
  constructor
  · intro app app' heffect hsettled
    cases heffect with
    | finished state hpending => exact absurd hpending hsettled
    | selected recordIndex entry hpending hlisted hentry => exact absurd hpending hsettled
    | _ => exact hsettled
  · intro app app' hsame hsettled
    rw [hsame.approval]
    exact hsettled

theorem Aim.of_shared (hsame : SameShared app app') (h : Aim crypto call recordIndex app) :
    Aim crypto call recordIndex app' := by
  constructor
  · rw [hsame.store]
    exact h.size
  · rw [hsame.store, hsame.deletedPositions, hsame.selectedCredential]
    exact h.target
  · rw [hsame.approval]
    exact h.settled

/-- Before the gate is taken, the record the user selected stays the aim. -/
theorem ungated_aim (hcall : call.resolveMatch = false) :
    Ungated (Aim crypto call recordIndex) := by
  refine ⟨⟨?_, fun _ _ hsame h ↦ h.of_shared hsame⟩, fun _ _ h ↦ ⟨h.size, h.target, h.settled⟩⟩
  intro app app' heffect h
  cases heffect with
  | finished state hpending => exact absurd hpending (h.settled hcall)
  | selected recordIndex entry hpending hlisted hentry =>
    exact absurd hpending (h.settled hcall)
  | compacted credentialId hui device removed hremoved =>
    refine ⟨(List.length_eraseIdx_le _ _).trans h.size, fun hbefore ↦ ?_, h.settled⟩
    obtain ⟨hsame, hearlier⟩ := getElem?_eraseIdx_of_compacted (hbefore hcall)
    rw [hsame]
    exact h.target fun _ ↦ hearlier
  | _ => exact ⟨h.size, h.target, h.settled⟩

/-- Under the gate the aim stays whatever it was chosen by. -/
theorem stable_aim_held : Stable fun app ↦ Aim crypto call recordIndex app ∧ app.Held := by
  constructor
  · rintro app app' heffect ⟨h, hheld⟩
    refine ⟨?_, stable_held.ui app app' heffect hheld⟩
    cases heffect with
    | finished state hpending =>
      exact ⟨h.size, h.target, fun hcall ↦ absurd hpending (h.settled hcall)⟩
    | selected recordIndex entry hpending hlisted hentry =>
      refine ⟨h.size, fun hbefore ↦ ?_, fun hcall ↦ absurd hpending (h.settled hcall)⟩
      obtain ⟨entry, hentry, hmatch, -⟩ := h.target hbefore
      exact ⟨entry, hentry, hmatch, fun hcall ↦ absurd hpending (h.settled hcall)⟩
    | compacted credentialId hui device removed hremoved =>
      exact absurd (hheld.2.symm.trans hui) (by simp)
    | _ => exact ⟨h.size, h.target, h.settled⟩
  · rintro app app' hsame ⟨h, hheld⟩
    exact ⟨h.of_shared hsame, stable_held.shared app app' hsame hheld⟩

end Tracking

section Gated

variable {crypto : Crypto} {app : App} {call : AssertionCall} {recordIndex : ℕ}
  {keep crash : App → Prop}

/-- The state when an observer begins to watch. -/
def App.watched (app : App) : App :=
  { app with record := [], deletedPositions := [], selectedCredential := none }

/-- The observer has seen the answer, and what it was signed with. -/
def Answered (crypto : Crypto) (sessionId : ℕ) (request : GetAssertionRequest)
    (response : AssertionResponse) (app : App) : Prop :=
  ∃ assertion, CtapEvent.asserted assertion ∈ app.record ∧ assertion.response = response ∧
    assertion.sessionId = sessionId ∧ assertion.request = request ∧
    (assertion.Undisturbed → assertion.SignsApproved crypto)

/-- The observer's record only grows. -/
theorem UiEffect.mem_record {app app' : App} (h : UiEffect app app') {event : CtapEvent}
    (hevent : event ∈ app.record) : event ∈ app'.record := by
  cases h with
  | ended credentialId hui => exact List.mem_append_left _ hevent
  | _ => exact hevent

theorem indifferent_answered {sessionId : ℕ} {request : GetAssertionRequest}
    (response : AssertionResponse) : Indifferent (Answered crypto sessionId request response) := by
  refine ⟨⟨⟨?_, ?_⟩, fun _ _ h ↦ h⟩, fun _ _ _ h ↦ h⟩
  · rintro app app' heffect ⟨assertion, hmem, hrest⟩
    exact ⟨assertion, heffect.mem_record hmem, hrest⟩
  · rintro app app' hsame ⟨assertion, hmem, hrest⟩
    exact ⟨assertion, hsame.record ▸ hmem, hrest⟩

/-- When the command answers with a response, the observer has seen it. -/
def ReplyAnswered (crypto : Crypto) (sessionId : ℕ) (request : GetAssertionRequest)
    (reply : Reply AssertionResponse) (app : App) : Prop :=
  ∀ response, reply = .ok response → Answered crypto sessionId request response app

/-- The same for a call of the gated part. -/
abbrev AssertionCall.ReplyAnswered (call : AssertionCall) (crypto : Crypto)
    (reply : Reply AssertionResponse) (app : App) : Prop :=
  Ctap.ReplyAnswered crypto call.sessionId call.request reply app

theorem ungated_replyAnswered {sessionId : ℕ} {request : GetAssertionRequest}
    (reply : Reply AssertionResponse) :
    Ungated (ReplyAnswered crypto sessionId request reply) := by
  refine ⟨⟨?_, ?_⟩, ?_⟩
  · intro app app' heffect h response hreply
    exact (indifferent_answered response).ui app app' heffect (h response hreply)
  · intro app app' hsame h response hreply
    exact (indifferent_answered response).shared app app' hsame (h response hreply)
  · intro app busy h response hreply
    exact (indifferent_answered response).gate app busy (h response hreply)

/-- Seeding the queue adds to the observer's record. -/
theorem ensures_assertionQueueSeed {sessionId : ℕ} {request : GetAssertionRequest}
    {uvVerified : Bool} {matchIndices : List ℕ} {post : Unit → App → Prop}
    (hshort : matchIndices.length ≤ 1 → post () { app with assertionQueue := {} })
    (hseeded : 1 < matchIndices.length → post () { app with
      assertionQueue :=
        { active := true
          sessionId
          uvVerified
          userPresent := !(request.hasUp && !request.up)
          count := matchIndices.length
          index := 1
          expiresAt := (app.device.clock % 2 ^ 32 + assertionQueueTimeoutMs) % 2 ^ 32
          request := request.assertion
          recordIndices := matchIndices }
      expiry := { app.expiry with openedAt := app.device.clock }
      record := app.record ++ [.seeded
        { sessionId
          request := request.assertion
          uvVerified
          userPresent := !(request.hasUp && !request.up)
          credentialIds := matchIndices.map fun index ↦ (entryAt app.store index).credentialId }] }) :
    Ensures (assertionQueueSeed sessionId request uvVerified matchIndices) post crash app := by
  unfold assertionQueueSeed
  by_cases hlength : matchIndices.length ≤ 1
  · rw [ensures_bind, if_pos hlength]
    exact hshort hlength
  · rw [ensures_bind, if_neg hlength]
    exact hseeded (not_le.mp hlength)

/-- Undisturbed, a record that is still the one at the aimed position was approved. -/
theorem Aim.signsApproved {record : CredentialRecord} {response : AssertionResponse}
    (haim : Aim crypto call recordIndex app)
    (hrpId : record.rpId = call.request.assertion.rpId)
    (hresponse : response.credentialId = record.credentialId)
    (hverified : response.userVerified = call.uvVerified)
    (hcurrent : selectedRecordStillCurrentLocked app recordIndex record = true)
    (hundisturbed : (call.observed app recordIndex record response).Undisturbed) :
    (call.observed app recordIndex record response).SignsApproved crypto := by
  obtain ⟨entry, hentry, hmatch, hselected⟩ :=
    haim.target fun hcall ↦ hundisturbed (by simp [AssertionCall.observed, hcall])
  have hid : entry.credentialId = record.credentialId := by
    simp only [selectedRecordStillCurrentLocked, hentry, indexEntryMatchesRecord,
      Bool.and_eq_true, beq_iff_eq] at hcurrent
    exact hcurrent.2
  refine ⟨hrpId, hresponse, hverified, ?_, mem_of_entryIsMatch haim.size hentry hmatch, ?_, ?_⟩
  · show (entryAt app.store recordIndex).credentialId = record.credentialId
    rw [entryAt_of_getElem? hentry, hid]
  · intro hverified
    have hverified : call.uvVerified = false := hverified
    rw [hverified] at hmatch
    show (entryAt app.store recordIndex).credProtect ≠ credProtectUvRequired
    rw [entryAt_of_getElem? hentry]
    exact credProtect_of_entryIsMatch hmatch
  · intro hprompted
    have hcall : call.resolveMatch = false := by
      simpa [AssertionCall.observed] using hprompted
    simp only [AssertionCall.observed, hcall, Bool.false_eq_true, if_false]
    rw [hselected hcall, hid]

/-- The section that publishes the counter. -/
theorem ensures_publishAssertion {record : CredentialRecord} {counterHighWater : ℕ}
    {matchIndices : List ℕ} {seedAssertionQueue : Bool} {response : AssertionResponse}
    (haim : Aim crypto call recordIndex app) (hheld : app.Held)
    (hrpId : record.rpId = call.request.assertion.rpId)
    (hresponse : response.credentialId = record.credentialId)
    (hverified : response.userVerified = call.uvVerified) :
    Ensures (publishAssertion call recordIndex record counterHighWater matchIndices
      seedAssertionQueue response)
      (fun reply app' ↦ call.ReplyAnswered crypto reply app' ∧ app'.Held) crash app := by
  have hfailed (status : CtapStatus) : call.ReplyAnswered crypto (.error status) app :=
    fun response hreply ↦ by simp at hreply
  simp only [publishAssertion, ensures_bind, ensures_get, ensures_ite, ensures_pure]
  refine ⟨fun _ ↦ ⟨hfailed _, hheld⟩, fun hcurrent ↦ ?_⟩
  cases hpublish : publishCounterAdvance app.store record counterHighWater with
  | none => exact ⟨hfailed _, hheld⟩
  | some store =>
    have hanswered : ∀ app' : App, (∃ more, app'.record = app.record ++
        [.asserted (call.observed app recordIndex record response)] ++ more) →
        call.ReplyAnswered crypto (.ok response) app' := by
      rintro app' ⟨more, hrecord⟩ response' hreply
      obtain rfl : response = response' := Except.ok.inj hreply
      refine ⟨call.observed app recordIndex record response, ?_, rfl, rfl, rfl, fun h ↦ ?_⟩
      · rw [hrecord]
        simp
      · exact haim.signsApproved hrpId hresponse hverified (by simpa using hcurrent) h
    simp only [ensures_bind, ensures_announce, ensures_modify, assertionQueueClear]
    cases seedAssertionQueue with
    | false => exact ⟨hanswered _ ⟨[], by simp⟩, hheld⟩
    | true =>
      simp only [if_true, ensures_bind]
      refine ensures_assertionQueueSeed (fun _ ↦ ?_) fun _ ↦ ?_
      · exact ⟨hanswered _ ⟨[], by simp⟩, hheld⟩
      · exact ⟨hanswered _ ⟨_, rfl⟩, hheld⟩

/-- A loaded record is of the RP. -/
theorem maintains_loadAssertionRecord_rpId {rpId : Bytes} :
    Maintains UiRely (fun _ ↦ True) (fun result _ ↦ ∀ record entry,
      result = some (record, entry) → record.rpId = rpId) (fun _ ↦ True)
      (loadAssertionRecord crypto recordIndex rpId) app := by
  unfold loadAssertionRecord
  rw [maintains_bind, maintains_atomically]
  refine ⟨trivial, fun later _ ↦ ?_⟩
  rw [ensures_bind, ensures_get, ensures_pure]
  cases snapshotIndexEntryLocked later recordIndex with
  | none => simp
  | some entry =>
    simp only [maintains_bind, maintains_atomically]
    refine ⟨trivial, fun last _ ↦ ?_⟩
    unfold Ensures
    split
    · rename_i result final hrun
      cases result with
      | none => simp
      | some record =>
        simp only [maintains_ite, maintains_pure]
        refine ⟨by simp, fun haccepted record' entry' hresult ↦ ?_⟩
        obtain ⟨rfl, rfl⟩ := Prod.mk.inj (Option.some.inj hresult)
        simp only [Bool.or_eq_true, decide_eq_true_eq, Bool.not_eq_true', not_or,
          Decidable.not_not] at haccepted
        exact haccepted.1
    · trivial

/-- The end of the gated part. -/
theorem maintains_publishAssertionCounter {entry : CredentialIndexEntry} {record : CredentialRecord}
    {matchIndices : List ℕ} {seedAssertionQueue : Bool} {response : AssertionResponse}
    (haim : Aim crypto call recordIndex app) (hheld : app.Held)
    (hrpId : record.rpId = call.request.assertion.rpId)
    (hresponse : response.credentialId = record.credentialId)
    (hverified : response.userVerified = call.uvVerified) :
    Maintains UiRely (fun _ ↦ True)
      (fun reply app' ↦ call.ReplyAnswered crypto reply app' ∧ app'.Held) (fun _ ↦ True)
      (publishAssertionCounter crypto call recordIndex entry record matchIndices
        seedAssertionQueue response) app := by
  unfold publishAssertionCounter
  rw [maintains_bind]
  refine ((local_onDevice _).maintains stable_aim_held (fun _ _ ↦ trivial) (fun _ _ ↦ trivial)
    ⟨haim, hheld⟩).weaken ?_
  rintro result app' ⟨haim, hheld⟩
  cases result with
  | none => exact ⟨fun _ hreply ↦ by simp at hreply, hheld⟩
  | some counterHighWater =>
    refine maintains_of_stable (fun _ _ ↦ stable_aim_held.rely) trivial ⟨haim, hheld⟩ ?_
    rintro later ⟨haim, hheld⟩
    exact ensures_publishAssertion haim hheld hrpId hresponse hverified

/-- The gated part, once the record is known. -/
theorem maintains_answerAssertion {matchIndices : List ℕ} {matchCount : ℕ}
    (haim : Aim crypto call recordIndex app) (hheld : app.Held) :
    Maintains UiRely (fun _ ↦ True)
      (fun reply app' ↦ call.ReplyAnswered crypto reply app' ∧ app'.Held) (fun _ ↦ True)
      (answerAssertion crypto call recordIndex matchIndices matchCount) app := by
  have hfailed (status : CtapStatus) (app' : App) : call.ReplyAnswered crypto (.error status) app' :=
    fun response hreply ↦ by simp at hreply
  unfold answerAssertion
  simp only [maintains_bind]
  refine (((local_loadAssertionRecord _ _).maintains stable_aim_held (fun _ _ ↦ trivial)
    (fun _ _ ↦ trivial) ⟨haim, hheld⟩).and maintains_loadAssertionRecord_rpId).weaken ?_
  rintro loaded app₁ ⟨⟨haim, hheld⟩, hrpId⟩
  cases loaded with
  | none => exact ⟨hfailed _ _, hheld⟩
  | some loaded =>
    obtain ⟨record, entry⟩ := loaded
    have hrpId : record.rpId = call.request.assertion.rpId := hrpId record entry rfl
    simp only [maintains_bind]
    refine (((local_prepareAssertionResponse _ _ _ _ _ _ _ _ _).maintains stable_aim_held
      (fun _ _ ↦ trivial) (fun _ _ ↦ trivial) ⟨haim, hheld⟩).and
      maintains_prepareAssertionResponse).weaken ?_
    rintro prepared app₂ ⟨⟨haim, hheld⟩, hresponse⟩
    cases prepared with
    | error status => exact ⟨hfailed _ _, hheld⟩
    | ok response =>
      have hid : response.credentialId = record.credentialId := by rw [hresponse response rfl]; rfl
      have hverified : response.userVerified = call.uvVerified := by
        rw [hresponse response rfl]
        rfl
      have hpublish {app' : App} (haim : Aim crypto call recordIndex app') (hheld : app'.Held) :=
        @maintains_publishAssertionCounter crypto app' call recordIndex entry record matchIndices
          (call.request.hasUp && !call.request.up && !requestUsesAllowList call.request &&
            decide (1 < matchCount)) response haim hheld hrpId hid hverified
      simp only [maintains_ite, maintains_bind]
      refine ⟨fun _ ↦ ?_, fun _ ↦ hpublish haim hheld⟩
      refine (local_pollCborControl.maintains stable_aim_held (fun _ _ ↦ trivial)
        (fun _ _ ↦ trivial) ⟨haim, hheld⟩).weaken ?_
      rintro status app₃ ⟨haim, hheld⟩
      simp only [maintains_ite, maintains_pure]
      exact ⟨fun _ ↦ ⟨hfailed _ _, hheld⟩,
        fun _ ↦ hpublish haim hheld⟩

/-- Giving the gate back keeps what the answer told. -/
theorem maintains_end_replyAnswered {reply : Reply AssertionResponse}
    (h : call.ReplyAnswered crypto reply app) (hheld : app.Held) :
    Maintains UiRely (fun _ ↦ True) (fun _ ↦ call.ReplyAnswered crypto reply) (fun _ ↦ True)
      endMaintenance app :=
  (maintains_endMaintenance (ungated_replyAnswered reply) (fun _ _ _ ↦ trivial) h hheld).weaken
    fun _ _ happ ↦ happ.1

/-- The paths that resolve the matches under the gate. -/
theorem maintains_finishAssertion_resolving (hcall : call.resolveMatch = true)
    (hsize : app.store.length ≤ maxCredentials) (hgate : app.GateKept) :
    Maintains UiRely (fun _ ↦ True) (fun reply ↦ call.ReplyAnswered crypto reply) (fun _ ↦ True)
      (finishAssertion crypto call recordIndex) app := by
  refine maintains_gated indifferent_size.toUngated (fun _ _ _ ↦ trivial) hsize hgate
    (fun _ _ _ response hreply ↦ by simp at hreply) fun app hsize hheld ↦ ?_
  suffices h : Maintains UiRely (fun _ ↦ True)
      (fun reply app' ↦ call.ReplyAnswered crypto reply app' ∧ app'.Held) (fun _ ↦ True)
      (finishLocked crypto call recordIndex) app from
    h.weaken fun reply app' h' ↦ maintains_end_replyAnswered h'.1 h'.2
  unfold finishLocked
  rw [if_pos hcall, maintains_bind]
  have hstable := indifferent_size.toStable.and stable_held
  refine maintains_of_stable (fun _ _ ↦ hstable.rely) trivial ⟨hsize, hheld⟩ ?_
  rintro later ⟨hsize, hheld⟩
  rw [ensures_bind, ensures_modify, ensures_bind, ensures_get, ensures_pure]
  cases hmatches : resolveAssertionMatches crypto later.store call.request call.uvVerified with
  | nil => exact ⟨fun response hreply ↦ by simp at hreply, hheld⟩
  | cons first others =>
    refine maintains_answerAssertion ⟨hsize, fun _ ↦ ?_, fun hcall' ↦ ?_⟩ hheld
    · obtain ⟨entry, hentry, hmatch⟩ := entryIsMatch_of_mem
        (hmatches ▸ List.mem_cons_self : first ∈
          resolveAssertionMatches crypto later.store call.request call.uvVerified)
      exact ⟨entry, hentry, hmatch, fun hcall' ↦ absurd (hcall.symm.trans hcall') (by simp)⟩
    · exact absurd (hcall.symm.trans hcall') (by simp)

/-- The path that was given the selected position. -/
theorem maintains_finishAssertion_selected (hcall : call.resolveMatch = false)
    (haim : Aim crypto call recordIndex app) (hgate : app.GateKept) :
    Maintains UiRely (fun _ ↦ True) (fun reply ↦ call.ReplyAnswered crypto reply) (fun _ ↦ True)
      (finishAssertion crypto call recordIndex) app := by
  refine maintains_gated (ungated_aim hcall) (fun _ _ _ ↦ trivial) haim hgate
    (fun _ _ _ response hreply ↦ by simp at hreply) fun app haim hheld ↦ ?_
  suffices h : Maintains UiRely (fun _ ↦ True)
      (fun reply app' ↦ call.ReplyAnswered crypto reply app' ∧ app'.Held) (fun _ ↦ True)
      (finishLocked crypto call recordIndex) app from
    h.weaken fun reply app' h' ↦ maintains_end_replyAnswered h'.1 h'.2
  unfold finishLocked
  rw [hcall, if_neg (by simp)]
  exact maintains_answerAssertion haim hheld

end Gated

section Command

variable {crypto : Crypto} {app : App} {call : AssertionCall}

/-- A wait that ends in approval ends after the prompt. -/
theorem maintains_waitForInteractionResult {property : App → Prop} (hproperty : Stable property)
    (happ : property app) :
    Maintains UiRely (fun _ ↦ True) (fun result app' ↦ property app' ∧
      (result = some true → app'.approval.state ≠ .pending)) (fun _ ↦ True)
      waitForInteractionResult app := by
  unfold waitForInteractionResult
  rw [maintains_bind]
  refine (local_nextWait.maintains hproperty (fun _ _ ↦ trivial) (fun _ _ ↦ trivial) happ).weaken ?_
  intro ended app₁ happ
  cases ended with
  | false => exact ⟨happ, by simp⟩
  | true =>
    simp only [Bool.not_true, Bool.false_eq_true, if_false, maintains_bind]
    refine maintains_of_stable (fun _ _ ↦ hproperty.rely) trivial happ fun later hlater ↦ ?_
    rw [ensures_bind, ensures_get, ensures_pure]
    refine ⟨hlater, fun hresult hpending ↦ ?_⟩
    rw [hpending] at hresult
    exact absurd hresult (by decide)

/-- What the user selects is a resolved position, and the credential the observer saw there. -/
theorem maintains_uiRequestAssertionSelection {matchIndices : List ℕ}
    (hcall : call.resolveMatch = false)
    (htracked : Tracked crypto call.request call.uvVerified matchIndices app)
    (hgate : app.GateKept) :
    Maintains UiRely (fun _ ↦ True) (fun selected app' ↦ app'.GateKept ∧
      ∀ index, selected = some index → Aim crypto call index app') (fun _ ↦ True)
      (uiRequestAssertionSelection matchIndices) app := by
  have hnone {app' : App} (hgate' : app'.GateKept) :
      app'.GateKept ∧ ∀ index, none = some index → Aim crypto call index app' :=
    ⟨hgate', by simp⟩
  unfold uiRequestAssertionSelection
  simp only [maintains_ite, maintains_pure, maintains_bind]
  refine ⟨fun _ ↦ hnone hgate, fun _ ↦ ?_⟩
  have hstable : Stable fun app ↦ Tracked crypto call.request call.uvVerified matchIndices app ∧
      app.GateKept := indifferent_tracked.toStable.and stable_gateKept
  refine maintains_of_stable (fun _ _ ↦ hstable.rely) trivial ⟨htracked, hgate⟩ ?_
  rintro later ⟨htracked, hgate⟩
  simp only [prepareAssertionSelection, ensures_bind, ensures_get, ensures_ite, ensures_pure,
    ensures_set]
  refine ⟨fun _ ↦ ?_, fun _ ↦ ?_⟩
  · simp only [Bool.not_false, if_true, maintains_pure]
    exact hnone hgate
  · simp only [Bool.not_true, Bool.false_eq_true, if_false, maintains_bind]
    have hprompted : Stable fun app ↦ Prompted crypto call.request call.uvVerified matchIndices app ∧
        app.GateKept := stable_prompted.and stable_gateKept
    refine (maintains_waitForInteractionResult hprompted ?_).weaken ?_
    · exact ⟨⟨⟨htracked.size, htracked.target⟩, rfl, by simp⟩, hgate⟩
    rintro result app₁ ⟨⟨happ, hgate⟩, hsettled⟩
    simp only [maintains_ite, maintains_pure]
    refine ⟨fun _ ↦ hnone hgate, fun hresult ↦ ?_⟩
    have hsettled := hsettled (not_not.mp hresult)
    have hall := hprompted.and stable_settled
    refine maintains_of_stable (fun _ _ ↦ hall.rely) trivial ⟨⟨happ, hgate⟩, hsettled⟩ ?_
    rintro last ⟨⟨happ, hgate⟩, hsettled⟩
    rw [ensures_bind, ensures_get, ensures_pure]
    refine ⟨hgate, fun index hselected ↦ ⟨happ.size, fun hbefore ↦ ?_, fun _ ↦ hsettled⟩⟩
    obtain ⟨hmem, hchosen⟩ := happ.chosen index hselected
    obtain ⟨entry, hentry, hid⟩ := hchosen (hbefore hcall)
    obtain ⟨found, hfound, hmatch⟩ := happ.target index hmem (hbefore hcall)
    obtain rfl : entry = found := Option.some.inj (hentry.symm.trans hfound)
    exact ⟨entry, hentry, hmatch, fun _ ↦ hid⟩

theorem maintains_requestAssertionSelection {matchIndices : List ℕ}
    (hcall : call.resolveMatch = false)
    (htracked : Tracked crypto call.request call.uvVerified matchIndices app)
    (hgate : app.GateKept) :
    Maintains UiRely (fun _ ↦ True) (fun reply app' ↦
      ∀ index, reply = .ok index → app'.GateKept ∧ Aim crypto call index app') (fun _ ↦ True)
      (requestAssertionSelection matchIndices) app := by
  unfold requestAssertionSelection
  rw [maintains_bind]
  refine (maintains_uiRequestAssertionSelection hcall htracked hgate).weaken ?_
  rintro selected app₁ ⟨hgate, haim⟩
  cases selected with
  | none =>
    simp only [maintains_bind, maintains_atomically]
    refine ⟨trivial, fun later _ ↦ ?_⟩
    rw [ensures_bind, ensures_get, ensures_pure]
    simp
  | some recordIndex =>
    intro index hreply
    obtain rfl : recordIndex = index := Except.ok.inj hreply
    exact ⟨hgate, haim recordIndex rfl⟩

variable {capabilities : Capabilities} {sessionId : ℕ} {request : GetAssertionRequest}
  {uvVerified : Bool}

/-- Resolving the matches before the user is asked. -/
theorem maintains_resolveAssertionMatchesSnapshot (hsize : app.store.length ≤ maxCredentials)
    (hgate : app.GateKept) :
    Maintains UiRely (fun _ ↦ True) (fun matchIndices app' ↦
      Tracked crypto request uvVerified matchIndices app' ∧ app'.GateKept) (fun _ ↦ True)
      (resolveAssertionMatchesSnapshot crypto request uvVerified) app := by
  have hstable := indifferent_size.toStable.and stable_gateKept
  refine maintains_of_stable (fun _ _ ↦ hstable.rely) trivial ⟨hsize, hgate⟩ ?_
  rintro later ⟨hsize, hgate⟩
  rw [ensures_bind, ensures_modify, ensures_bind, ensures_get, ensures_pure]
  exact ⟨⟨hsize, fun index hindex _ ↦ entryIsMatch_of_mem hindex⟩, hgate⟩

theorem maintains_selectAssertion (hsize : app.store.length ≤ maxCredentials)
    (hgate : app.GateKept) :
    Maintains UiRely (fun _ ↦ True) (ReplyAnswered crypto sessionId request) (fun _ ↦ True)
      (selectAssertion crypto capabilities sessionId request uvVerified) app := by
  have hfailed (status : CtapStatus) (app' : App) :
      ReplyAnswered crypto sessionId request (.error status) app' :=
    fun response hreply ↦ by simp at hreply
  unfold selectAssertion
  simp only [maintains_ite]
  refine ⟨fun _ ↦
    (maintains_finishAssertion_resolving (by rfl) hsize hgate).weaken fun _ _ h ↦ h, fun _ ↦ ?_⟩
  rw [maintains_bind]
  refine (maintains_resolveAssertionMatchesSnapshot hsize hgate).weaken ?_
  rintro matchIndices app₀ ⟨htracked, hgate⟩
  simp only [maintains_ite]
  constructor
  · -- The user selects one of several matches.
    intro _
    rw [maintains_bind]
    let call : AssertionCall :=
      { sessionId, request, uvVerified, resolveMatch := false, userPresent := true,
        includeUserDetails := uvVerified, includeUserSelected := capabilities.advertiseFido21,
        pollBeforePublish := true }
    refine (@maintains_requestAssertionSelection crypto _ call _ rfl htracked hgate).weaken ?_
    intro reply app₁ hreply
    cases reply with
    | error status => exact hfailed status app₁
    | ok selectedRecordIndex =>
      obtain ⟨hgate, haim⟩ := hreply selectedRecordIndex rfl
      simp only [maintains_bind]
      have hstable : Stable fun app ↦ Aim crypto call selectedRecordIndex app ∧ app.GateKept :=
        (ungated_aim rfl).toStable.and stable_gateKept
      refine (local_pollCborControl.maintains hstable (fun _ _ ↦ trivial) (fun _ _ ↦ trivial)
        ⟨haim, hgate⟩).weaken ?_
      rintro status app₂ ⟨haim, hgate⟩
      simp only [maintains_ite, maintains_pure]
      exact ⟨fun _ ↦ hfailed _ _, fun _ ↦
        (maintains_finishAssertion_selected (by rfl) haim hgate).weaken fun _ _ h ↦ h⟩
  · -- The user approves, and the matches are resolved again under the gate.
    intro _
    simp only [maintains_bind]
    refine (harmless_requestApproval.maintains indifferent_size (fun _ _ _ ↦ trivial)
      (fun _ _ _ ↦ trivial) htracked.size hgate).weaken ?_
    rintro status app₁ ⟨hsize, hgate⟩
    simp only [maintains_ite, maintains_pure, maintains_bind]
    refine ⟨fun _ ↦ hfailed _ _, fun _ ↦ ?_⟩
    have hstable := indifferent_size.toStable.and stable_gateKept
    refine (local_pollCborControl.maintains hstable (fun _ _ ↦ trivial) (fun _ _ ↦ trivial)
      ⟨hsize, hgate⟩).weaken ?_
    rintro status app₂ ⟨hsize, hgate⟩
    simp only [maintains_ite, maintains_pure]
    exact ⟨fun _ ↦ hfailed _ _, fun _ ↦
    (maintains_finishAssertion_resolving (by rfl) hsize hgate).weaken fun _ _ h ↦ h⟩

theorem maintains_authorizeAssertion (hsize : app.store.length ≤ maxCredentials)
    (hgate : app.GateKept) :
    Maintains UiRely (fun _ ↦ True) (ReplyAnswered crypto sessionId request) (fun _ ↦ True)
      (authorizeAssertion crypto capabilities sessionId request) app := by
  have hfailed (status : CtapStatus) (app' : App) :
      ReplyAnswered crypto sessionId request (.error status) app' :=
    fun response hreply ↦ by simp at hreply
  unfold authorizeAssertion
  simp only [maintains_ite, maintains_pure, maintains_bind]
  refine ⟨fun _ ↦ ?_, fun _ ↦ ⟨fun _ ↦ hfailed _ _, fun _ ↦ ?_⟩⟩
  · exact (harmless_handleEmptyPinAuthProbe.maintains indifferent_size (fun _ _ _ ↦ trivial)
      (fun _ _ _ ↦ trivial) hsize hgate).weaken fun _ _ _ ↦ hfailed _ _
  · refine ((harmless_requirePinAuthWithState _).maintains indifferent_size (fun _ _ _ ↦ trivial)
      (fun _ _ _ ↦ trivial) hsize hgate).weaken ?_
    rintro ⟨status, uvVerified⟩ app₁ ⟨hsize, hgate⟩
    simp only [maintains_ite, maintains_pure, maintains_bind]
    refine ⟨fun _ ↦ hfailed _ _, fun _ ↦ ?_⟩
    refine (local_pollCborControl.maintains (indifferent_size.toStable.and stable_gateKept)
      (fun _ _ ↦ trivial) (fun _ _ ↦ trivial) ⟨hsize, hgate⟩).weaken ?_
    rintro status app₂ ⟨hsize, hgate⟩
    simp only [maintains_ite, maintains_pure]
    exact ⟨fun _ ↦ hfailed _ _, fun _ ↦ maintains_selectAssertion hsize hgate⟩

/-- The whole command. -/
theorem maintains_handleGetAssertion (hsize : app.store.length ≤ maxCredentials)
    (hgate : app.GateKept) :
    Maintains UiRely (fun _ ↦ True) (ReplyAnswered crypto sessionId request) (fun _ ↦ True)
      (handleGetAssertion crypto capabilities sessionId (.ok request)) app := by
  unfold handleGetAssertion
  simp only [maintains_ite, maintains_pure, maintains_bind]
  refine ⟨fun _ response hreply ↦ by simp at hreply, fun _ ↦ ?_⟩
  have hstable := indifferent_size.toStable.and stable_gateKept
  refine maintains_of_stable (fun _ _ ↦ hstable.rely) trivial ⟨hsize, hgate⟩ ?_
  rintro later ⟨hsize, hgate⟩
  rw [acceptAssertion, ensures_bind, assertionQueueClear, ensures_modify, ensures_announce]
  refine maintains_authorizeAssertion ?_ ?_
  · exact hsize
  · exact hgate

/-- In every interleaving of a getAssertion with the user interface, a response is for a credential
of the RP that is visible to the request and, when the user was asked to select, is the selected
one, unless a credential at or before the selected position was deleted between the resolution of
the matches and the signature. -/
theorem get_assertion_signs_approved (hsize : app.store.length ≤ maxCredentials)
    (hgate : app.GateKept) (schedule : List (Option UiEvent)) {response : AssertionResponse}
    (hdone : (interleave uiStep (handleGetAssertion crypto capabilities sessionId (.ok request))
      app.watched schedule).1 = .done (.ok response)) :
    ∃ assertion, .asserted assertion ∈ (interleave uiStep
        (handleGetAssertion crypto capabilities sessionId (.ok request)) app.watched
        schedule).2.record ∧
      assertion.response = response ∧ assertion.sessionId = sessionId ∧
      assertion.request = request ∧ (assertion.Undisturbed → assertion.SignsApproved crypto) := by
  have hstart : Maintains UiRely (fun _ ↦ True) (ReplyAnswered crypto sessionId request)
      (fun _ ↦ True) (handleGetAssertion crypto capabilities sessionId (.ok request))
      app.watched := maintains_handleGetAssertion hsize hgate
  have h := hstart.interleave (fun _ _ _ ↦ trivial)
    (fun reply state event hreply ↦ (ungated_replyAnswered reply).ui state _
      (uiEffect_uiStep state event) hreply) (fun _ _ _ ↦ trivial) schedule
  rw [hdone] at h
  exact h response rfl

end Command

section Samples

/-- An authenticator with the given credentials. -/
def sampleApp (records : List CredentialRecord) : App :=
  { store := records.map (indexEntryFromRecord Crypto.standIn)
    device := leaves (writeRecords records) (World.blank _) }

/-- A request for the RP `a` without user verification. -/
def sampleRequest : GetAssertionRequest :=
  { assertion := { clientDataHash := zeroBytes clientDataHashLen, rpId := [97] } }

/-- Three credentials, of which the last requires user verification. -/
def threeCredentials : App := sampleApp [sampleRecord 1 1, sampleRecord 2 1, sampleRecord 3 3]

/-- The user selects the first account shown, and after the prompt deletes a credential. -/
def selectThenDelete (deletedIndex : ℕ) : List (Option UiEvent) :=
  List.replicate 9 none ++ [some (.selectAccount 0)] ++ List.replicate 4 none ++
    [some (.beginDelete deletedIndex), some .deleteFiles, some .endDelete] ++ List.replicate 8 none

/-- What a getAssertion on three credentials comes to when one of them is deleted. -/
def afterDeletion (deletedIndex : ℕ) : Process App (Reply AssertionResponse) × App :=
  interleave uiStep (handleGetAssertion Crypto.standIn {} 0 (.ok sampleRequest))
    threeCredentials.watched (selectThenDelete deletedIndex)

/-- The answer and the observer's last event of a run, when there is an answer. -/
def answerAndEvent (final : Process App (Reply AssertionResponse) × App) :
    Option (AssertionResponse × Assertion) :=
  match final.1.result?, final.2.record.getLast? with
  | some (.ok response), some (.asserted assertion) => some (response, assertion)
  | _, _ => none

theorem of_answerAndEvent {final : Process App (Reply AssertionResponse) × App}
    {response : AssertionResponse} {assertion : Assertion}
    (h : answerAndEvent final = some (response, assertion)) :
    final.1 = .done (.ok response) ∧ .asserted assertion ∈ final.2.record := by
  unfold answerAndEvent at h
  split at h
  · rename_i hresult hlast
    obtain ⟨rfl, rfl⟩ := Prod.mk.inj (Option.some.inj h)
    exact ⟨eq_done_of_result? hresult, List.mem_of_getLast? hlast⟩
  · exact absurd h (by simp)

/-- An assertion that nothing disturbed while the credentials at the positions were deleted. -/
def undisturbedBy (deleted : List ℕ) : CtapEvent → Bool
  | .asserted assertion => decide (assertion.Undisturbed ∧ assertion.deleted = deleted)
  | _ => true

/-- Deleting a credential behind the selected one does no harm. -/
theorem get_assertion_signs_approved_laterDeleted :
    ∃ assertion, .asserted assertion ∈ (afterDeletion 2).2.record ∧
      assertion.deleted = [2] ∧ assertion.SignsApproved Crypto.standIn := by
  have hanswer : ((answerAndEvent (afterDeletion 2)).map fun answer ↦
      decide (answer.2.deleted = [2])) = some true := by decide +kernel
  obtain ⟨⟨response, assertion⟩, hsome, hdeleted⟩ := Option.map_eq_some_iff.mp hanswer
  obtain ⟨hdone, -⟩ := of_answerAndEvent hsome
  have hsize : threeCredentials.store.length ≤ maxCredentials := by decide +kernel
  have hgate : threeCredentials.GateKept := fun hui ↦ absurd rfl hui
  unfold afterDeletion at hdone
  obtain ⟨assertion, hmem, -, -, -, happroved⟩ :=
    get_assertion_signs_approved hsize hgate (selectThenDelete 2) hdone
  rw [← afterDeletion] at hmem
  have hall : (afterDeletion 2).2.record.all (undisturbedBy [2]) = true := by decide +kernel
  have hassertion := of_decide_eq_true (List.all_eq_true.mp hall (.asserted assertion) hmem)
  exact ⟨assertion, hmem, hassertion.2, happroved hassertion.1⟩

/-- The first credential is deleted after the user selected the second. The position then points at
the third, which requires user verification, and a request without it gets its signature. -/
theorem selected_position_shifted :
    ∃ response assertion, (afterDeletion 0).1 = .done (.ok response) ∧
      .asserted assertion ∈ (afterDeletion 0).2.record ∧ assertion.response = response ∧
      response.userVerified = false ∧
      (entryAt assertion.store assertion.recordIndex).credProtect = credProtectUvRequired ∧
      assertion.selected ≠ some response.credentialId ∧
      ¬assertion.SignsApproved Crypto.standIn := by
  have hanswer : ((answerAndEvent (afterDeletion 0)).map fun answer ↦
      decide (answer.2.response = answer.1 ∧ answer.1.userVerified = false ∧
        answer.2.uvVerified = false ∧
        (entryAt answer.2.store answer.2.recordIndex).credProtect = credProtectUvRequired ∧
        answer.2.selected ≠ some answer.1.credentialId)) = some true := by decide +kernel
  obtain ⟨⟨response, assertion⟩, hsome, hfacts⟩ := Option.map_eq_some_iff.mp hanswer
  obtain ⟨hdone, hmem⟩ := of_answerAndEvent hsome
  obtain ⟨hresponse, hverified, huv, hprotect, hselected⟩ := of_decide_eq_true hfacts
  exact ⟨response, assertion, hdone, hmem, hresponse, hverified, hprotect, hselected,
    fun happroved ↦ happroved.unrestricted huv hprotect⟩

end Samples

end ZeroFido.Ctap
