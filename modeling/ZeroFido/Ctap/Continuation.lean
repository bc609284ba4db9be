import ZeroFido.Foundations.Trace
import ZeroFido.Ctap.ApprovedCredential
import ZeroFido.Ctap.Dispatch

/-!
# getNextAssertion continues one getAssertion

The queue holds positions in the index, and the other commands and the user interface move
credentials to other positions. `Continuing` is the invariant that relates the two: an active queue
follows the last seeding that the observer saw, with nothing but answered continuations since, and
its positions still hold the credentials that were matches at the seeding. Only while the user
interface is between its deletion and the end of it do the positions disagree, and then it holds
the gate.

`next_assertions_continue` is the result for every run of the system. A getAssertion that the parser
accepts may still be refused before it clears the queue, so it does not end the continuation
(`rejected_get_assertion_keeps_queue`).
-/

set_option autoImplicit false
set_option relaxedAutoImplicit false

namespace ZeroFido.Ctap

open Foundations Storage Store Process

section Statement

variable (crypto : Crypto)

/-- The answers of getNextAssertion that the observer was told of. -/
def continuations (record : List CtapEvent) : List (ℕ × AssertionResponse) :=
  record.filterMap fun event ↦ match event with
    | .continued sessionId response => some (sessionId, response)
    | _ => none

/-- Since the queue was seeded nothing has happened but `answered` continuations of the session. -/
def FollowsSeeding (record : List CtapEvent) (seeding : Seeding) (answered : ℕ) : Prop :=
  ∃ earlier later, record = earlier ++ .seeded seeding :: later ∧ later.length = answered ∧
    ∀ event ∈ later, ∃ response, event = .continued seeding.sessionId response

/-- The response is for the match at the position, to the request that seeded the queue. -/
structure Seeding.Answers (seeding : Seeding) (position sessionId : ℕ)
    (response : AssertionResponse) : Prop where
  sessionId : sessionId = seeding.sessionId
  credentialId : seeding.credentialIds[position]? = some response.credentialId
  rpId : response.rpId = seeding.request.rpId
  clientDataHash : response.clientDataHash = seeding.request.clientDataHash
  userVerified : response.userVerified = seeding.uvVerified
  userPresent : response.userPresent = seeding.userPresent

/-- The queue is seeded by a getAssertion that succeeded, with the matches of its request. -/
structure Seeding.Of (seeding : Seeding) (assertion : Assertion) : Prop where
  sessionId : seeding.sessionId = assertion.sessionId
  request : seeding.request = assertion.request.assertion
  uvVerified : seeding.uvVerified = assertion.uvVerified
  userPresent : seeding.userPresent = !(assertion.request.hasUp && !assertion.request.up)
  credentialIds : seeding.credentialIds = (resolveAssertionMatches crypto assertion.store
    assertion.request assertion.uvVerified).map fun index ↦
      (entryAt assertion.store index).credentialId

/-- What an event has to do with the events before it. -/
def Continues (before : List CtapEvent) : CtapEvent → Prop
  | .continued sessionId response => ∃ seeding answered, FollowsSeeding before seeding answered ∧
      seeding.Answers (answered + 1) sessionId response
  | .seeded seeding => ∃ earlier assertion, before = earlier ++ [.asserted assertion] ∧
      seeding.Of crypto assertion
  | _ => True

/-- An active queue is what is left of a seeding. -/
structure Queued (app : App) (seeding : Seeding) (answered : ℕ) : Prop where
  follows : FollowsSeeding app.record seeding answered
  sessionId : app.assertionQueue.sessionId = seeding.sessionId
  request : app.assertionQueue.request = seeding.request
  uvVerified : app.assertionQueue.uvVerified = seeding.uvVerified
  userPresent : app.assertionQueue.userPresent = seeding.userPresent
  index : app.assertionQueue.index = answered + 1
  count : app.assertionQueue.count = seeding.credentialIds.length
  entries : (∀ credentialId, app.ui ≠ .deleted credentialId .ok) →
    (app.assertionQueue.recordIndices.map fun index ↦ (entryAt app.store index).credentialId) =
      seeding.credentialIds

/-- A check that did not find the window expired. -/
def CheckPassed (check : ℕ × ℕ) : Prop :=
  isExpired (check.2 % 2 ^ 32) ((check.1 % 2 ^ 32 + assertionQueueTimeoutMs) % 2 ^ 32) = false

/-- The deadline of an active queue is that of its window, and every answer followed a check. -/
structure Timely (app : App) : Prop where
  deadline : app.assertionQueue.active = true → app.assertionQueue.expiresAt =
    (app.expiry.openedAt % 2 ^ 32 + assertionQueueTimeoutMs) % 2 ^ 32
  answered : ∀ check ∈ app.expiry.answered, check ∈ app.expiry.checks ∧ CheckPassed check

/-- The invariant, when the given continuations have been answered. -/
structure Continuing (answers : List (ℕ × AssertionResponse)) (app : App) : Prop where
  record : EveryEvent (Continues crypto) app.record
  answers : continuations app.record = answers
  queued : app.assertionQueue.active = true → ∃ seeding answered, Queued app seeding answered
  timely : Timely app
  counted : app.expiry.answered.length = (continuations app.record).length

/-- What the observer can check at any time. -/
def Observed (answers : List (ℕ × AssertionResponse)) (app : App) : Prop :=
  EveryEvent (Continues crypto) app.record ∧ answers <+: continuations app.record ∧
    (∀ check ∈ app.expiry.answered, check ∈ app.expiry.checks ∧ CheckPassed check) ∧
      app.expiry.answered.length = (continuations app.record).length

end Statement

section Invariant

variable {crypto : Crypto} {answers : List (ℕ × AssertionResponse)} {app app' : App}

theorem Continuing.observed (h : Continuing crypto answers app) : Observed crypto answers app :=
  ⟨h.record, h.answers ▸ List.prefix_refl _, h.timely.answered, h.counted⟩

theorem Timely.of_eq (h : Timely app) (hqueue : app'.assertionQueue = app.assertionQueue)
    (hexpiry : app'.expiry = app.expiry) : Timely app' := by
  constructor
  · rw [hqueue, hexpiry]
    exact h.deadline
  · rw [hexpiry]
    exact h.answered

theorem Timely.inactive (h : Timely app) (hqueue : app'.assertionQueue.active = false)
    (hexpiry : app'.expiry = app.expiry) : Timely app' := by
  constructor
  · intro hactive
    exact absurd (hactive.symm.trans hqueue) (by simp)
  · rw [hexpiry]
    exact h.answered

/-- An event that is no continuation. -/
theorem Continuing.announced {event : CtapEvent} (h : Continuing crypto answers app)
    (hallowed : Continues crypto app.record event)
    (hother : ∀ sessionId response, event ≠ .continued sessionId response)
    (hrecord : app'.record = app.record ++ [event]) (htimely : Timely app')
    (hanswered : app'.expiry.answered = app.expiry.answered)
    (hqueue : app'.assertionQueue.active = true → ∃ seeding answered, Queued app' seeding answered) :
    Continuing crypto answers app' := by
  have hsame : continuations app'.record = continuations app.record := by
    have hnone : continuations [event] = [] := by
      cases event with
      | continued sessionId response => exact absurd rfl (hother sessionId response)
      | _ => rfl
    have happend : continuations (app.record ++ [event]) =
        continuations app.record ++ continuations [event] := List.filterMap_append
    rw [hrecord, happend, hnone, List.append_nil]
  refine ⟨?_, hsame.trans h.answers, hqueue, htimely, ?_⟩
  · rw [hrecord]
    exact everyEvent_concat.mpr ⟨h.record, hallowed⟩
  · rw [hanswered, hsame]
    exact h.counted

/-- Clearing the queue. -/
theorem Continuing.cleared (h : Continuing crypto answers app) (hrecord : app'.record = app.record)
    (hqueue : app'.assertionQueue = {}) (hexpiry : app'.expiry = app.expiry) :
    Continuing crypto answers app' := by
  refine ⟨?_, ?_, fun hactive ↦ ?_, h.timely.inactive (by rw [hqueue]) hexpiry, ?_⟩
  · rw [hrecord]
    exact h.record
  · rw [hrecord]
    exact h.answers
  · rw [hqueue] at hactive
    exact absurd hactive (by simp)
  · rw [hrecord, hexpiry]
    exact h.counted

/-- The invariant reads the record, the queue, the credentials of the positions and whether a
deletion is to be ended. -/
theorem Continuing.of_eq (h : Continuing crypto answers app) (hrecord : app'.record = app.record)
    (hqueue : app'.assertionQueue = app.assertionQueue) (hexpiry : app'.expiry = app.expiry)
    (hstore : (∀ credentialId, app'.ui ≠ .deleted credentialId .ok) →
      (∀ credentialId, app.ui ≠ .deleted credentialId .ok) ∧ ∀ index,
        (entryAt app'.store index).credentialId = (entryAt app.store index).credentialId) :
    Continuing crypto answers app' := by
  refine ⟨?_, ?_, fun hactive ↦ ?_, h.timely.of_eq hqueue hexpiry, ?_⟩
  · rw [hrecord]
    exact h.record
  · rw [hrecord]
    exact h.answers
  · rw [hqueue] at hactive
    obtain ⟨seeding, answered, hqueued⟩ := h.queued hactive
    refine ⟨seeding, answered, ?_, ?_, ?_, ?_, ?_, ?_, ?_, fun hui ↦ ?_⟩
    · rw [hrecord]
      exact hqueued.follows
    · rw [hqueue]
      exact hqueued.sessionId
    · rw [hqueue]
      exact hqueued.request
    · rw [hqueue]
      exact hqueued.uvVerified
    · rw [hqueue]
      exact hqueued.userPresent
    · rw [hqueue]
      exact hqueued.index
    · rw [hqueue]
      exact hqueued.count
    · obtain ⟨hbefore, hsame⟩ := hstore hui
      rw [hqueue, ← hqueued.entries hbefore]
      exact List.map_congr_left fun index _ ↦ hsame index
  · rw [hrecord, hexpiry]
    exact h.counted

theorem indifferent_continuing : Indifferent (Continuing crypto answers) := by
  refine ⟨⟨⟨?_, ?_⟩, ?_⟩, ?_⟩
  · intro app app' heffect h
    cases heffect with
    | nothing => exact h
    | waited milliseconds => exact h.of_eq rfl rfl rfl fun hui ↦ ⟨hui, fun _ ↦ rfl⟩
    | finished state hpending => exact h.of_eq rfl rfl rfl fun hui ↦ ⟨hui, fun _ ↦ rfl⟩
    | selected recordIndex entry hpending hlisted hentry =>
      exact h.of_eq rfl rfl rfl fun hui ↦ ⟨hui, fun _ ↦ rfl⟩
    | begun credentialId hidle hfree =>
      exact h.of_eq rfl rfl rfl fun _ ↦ ⟨fun _ ↦ by simp [hidle], fun _ ↦ rfl⟩
    | cut credentialId hui device => exact h.of_eq rfl rfl rfl fun hui ↦ ⟨hui, fun _ ↦ rfl⟩
    | kept credentialId hui device result hresult =>
      exact h.of_eq rfl rfl rfl fun _ ↦ ⟨fun _ ↦ by simp [hui], fun _ ↦ rfl⟩
    | compacted credentialId hui device index hindex =>
      exact h.of_eq rfl rfl rfl fun hnot ↦ absurd rfl (hnot credentialId)
    | released credentialId result hui hresult =>
      exact h.of_eq rfl rfl rfl fun _ ↦ ⟨fun _ ↦ by simp [hui, hresult], fun _ ↦ rfl⟩
    | ended credentialId hui =>
      have hallowed : Continues crypto app.record (.deleted credentialId) := trivial
      exact h.announced hallowed (by simp) rfl (h.timely.inactive rfl rfl) rfl fun hactive ↦
        absurd hactive (by simp)
  · intro app app' hsame h
    refine h.of_eq hsame.record hsame.assertionQueue hsame.expiry fun hui ↦ ⟨?_, fun index ↦ ?_⟩
    · rw [← hsame.ui]
      exact hui
    · rw [hsame.store]
  · exact fun app busy h ↦ h.of_eq rfl rfl rfl fun hui ↦ ⟨hui, fun _ ↦ rfl⟩
  · exact fun app approval selected h ↦ h.of_eq rfl rfl rfl fun hui ↦ ⟨hui, fun _ ↦ rfl⟩

/-- While somebody else holds the gate the user interface leaves the index and the queue alone. -/
theorem stable_shared (store : CredentialStore) (queue : AssertionQueue) (expiry : ExpiryTimes) :
    Stable fun app ↦ (app.store = store ∧ app.assertionQueue = queue ∧ app.expiry = expiry) ∧
      app.Held := by
  constructor
  · rintro app app' heffect ⟨hsame, hheld⟩
    refine ⟨?_, stable_held.ui app app' heffect hheld⟩
    cases heffect with
    | compacted credentialId hui device index hindex =>
      exact absurd (hheld.2.symm.trans hui) (by simp)
    | ended credentialId hui => exact absurd (hheld.2.symm.trans hui) (by simp)
    | _ => exact hsame
  · rintro app app' hsame ⟨⟨hstore, hqueue, hexpiry⟩, hheld⟩
    exact ⟨⟨hsame.store.trans hstore, hsame.assertionQueue.trans hqueue,
      hsame.expiry.trans hexpiry⟩, stable_held.shared app app' hsame hheld⟩

end Invariant

section Rules

variable {Value Next : Type} (crypto : Crypto)

/-- The process answers no continuation and keeps the invariant. -/
def Preserves (process : Process App Value) : Prop :=
  ∀ answers app, Continuing crypto answers app → app.GateKept →
    Maintains UiRely (Observed crypto answers)
      (fun _ app' ↦ Continuing crypto answers app' ∧ app'.GateKept) (Observed crypto answers)
      process app

/-- The same for a process that holds the gate. -/
def PreservesHeld (process : Process App Value) : Prop :=
  ∀ answers app, Continuing crypto answers app → app.Held →
    Maintains UiRely (Observed crypto answers)
      (fun _ app' ↦ Continuing crypto answers app' ∧ app'.Held) (Observed crypto answers)
      process app

variable {crypto} {process : Process App Value} {next : Value → Process App Next}
  {program : Program App Value}

theorem Preserves.bind (h : Preserves crypto process) (hnext : ∀ value, Preserves crypto (next value)) :
    Preserves crypto (process >>= next) := by
  intro answers app happ hgate
  rw [maintains_bind]
  exact (h answers app happ hgate).weaken fun value app' hmiddle ↦
    hnext value answers app' hmiddle.1 hmiddle.2

theorem PreservesHeld.bind (h : PreservesHeld crypto process)
    (hnext : ∀ value, PreservesHeld crypto (next value)) : PreservesHeld crypto (process >>= next) := by
  intro answers app happ hheld
  rw [maintains_bind]
  exact (h answers app happ hheld).weaken fun value app' hmiddle ↦
    hnext value answers app' hmiddle.1 hmiddle.2

theorem Preserves.map {f : Value → Next} (h : Preserves crypto process) :
    Preserves crypto (f <$> process) := by
  intro answers app happ hgate
  rw [maintains_map]
  exact h answers app happ hgate

theorem Harmless.preserves (h : Harmless process) : Preserves crypto process :=
  fun _ _ happ hgate ↦ h.maintains indifferent_continuing (fun _ happ _ ↦ happ.observed)
    (fun _ happ _ ↦ happ.observed) happ hgate

theorem Local.preservesHeld (h : Local process) : PreservesHeld crypto process :=
  fun _ _ happ hheld ↦ h.maintains (indifferent_continuing.toStable.and stable_held)
    (fun _ happ ↦ happ.1.observed) (fun _ happ ↦ happ.1.observed) ⟨happ, hheld⟩

theorem preserves_ite {condition : Prop} [Decidable condition] {yes no : Process App Value}
    (hyes : Preserves crypto yes) (hno : Preserves crypto no) :
    Preserves crypto (if condition then yes else no) := by
  split_ifs
  · exact hyes
  · exact hno

theorem preserves_pure (value : Value) : Preserves crypto (pure value : Process App Value) :=
  (harmless_pure value).preserves

/-- A section that keeps the invariant. -/
theorem preserves_atomically (h : ∀ answers app, Continuing crypto answers app → app.GateKept →
    Ensures program (fun _ app' ↦ Continuing crypto answers app' ∧ app'.GateKept)
      (Observed crypto answers) app) : Preserves crypto (atomically program) := by
  intro answers app happ hgate
  have hstable := (@indifferent_continuing crypto answers).toStable.and stable_gateKept
  exact maintains_of_stable (fun _ _ ↦ hstable.rely) happ.observed ⟨happ, hgate⟩
    fun later hlater ↦ h answers later hlater.1 hlater.2

/-- A section under the gate that keeps the invariant. -/
theorem preservesHeld_atomically (h : ∀ answers app, Continuing crypto answers app → app.Held →
    Ensures program (fun _ app' ↦ Continuing crypto answers app' ∧ app'.Held)
      (Observed crypto answers) app) : PreservesHeld crypto (atomically program) := by
  intro answers app happ hheld
  have hstable := (@indifferent_continuing crypto answers).toStable.and stable_held
  exact maintains_of_stable (fun _ _ ↦ hstable.rely) happ.observed ⟨happ, hheld⟩
    fun later hlater ↦ h answers later hlater.1 hlater.2

/-- Work under the gate. -/
theorem preserves_gated {refused : Value} {work : Process App Value}
    (hwork : PreservesHeld crypto work) :
    Preserves crypto (do
      if !(← beginMaintenance) then
        return refused
      let value ← work
      endMaintenance
      return value) := by
  intro answers app happ hgate
  have hkept : ∀ app, Continuing crypto answers app → app.GateKept → Observed crypto answers app :=
    fun _ happ _ ↦ happ.observed
  refine maintains_gated indifferent_continuing.toUngated hkept happ hgate
    (fun app happ hgate ↦ ⟨happ, hgate⟩) fun app happ hheld ↦ ?_
  refine (hwork answers app happ hheld).weaken fun value app' hdone ↦ ?_
  exact maintains_endMaintenance indifferent_continuing.toUngated hkept hdone.1 hdone.2

/-- Since the gate was taken in `start` nothing has been published. -/
structure Unpublished (crypto : Crypto) (answers : List (ℕ × AssertionResponse)) (start app : App) :
    Prop where
  continuing : Continuing crypto answers app
  shared : (app.store = start.store ∧ app.assertionQueue = start.assertionQueue ∧
    app.expiry = start.expiry) ∧ app.Held

theorem stable_unpublished {answers : List (ℕ × AssertionResponse)} (start : App) :
    Stable (Unpublished crypto answers start) := by
  have h := (@indifferent_continuing crypto answers).toStable.and
    (stable_shared start.store start.assertionQueue start.expiry)
  constructor
  · intro app app' heffect happ
    obtain ⟨hcontinuing, hshared⟩ := h.ui app app' heffect ⟨happ.continuing, happ.shared⟩
    exact ⟨hcontinuing, hshared⟩
  · intro app app' hsame happ
    obtain ⟨hcontinuing, hshared⟩ := h.shared app app' hsame ⟨happ.continuing, happ.shared⟩
    exact ⟨hcontinuing, hshared⟩

theorem unpublished_refl {answers : List (ℕ × AssertionResponse)} {app : App}
    (happ : Continuing crypto answers app) (hheld : app.Held) :
    Unpublished crypto answers app app := ⟨happ, ⟨rfl, rfl, rfl⟩, hheld⟩

/-- Polls, loads and preparations under the gate publish nothing. -/
theorem Local.unpublished {answers : List (ℕ × AssertionResponse)} {start app : App}
    (h : Local process) (happ : Unpublished crypto answers start app) :
    Maintains UiRely (Observed crypto answers) (fun _ ↦ Unpublished crypto answers start)
      (Observed crypto answers) process app :=
  h.maintains (stable_unpublished start) (fun _ happ ↦ happ.continuing.observed)
    (fun _ happ ↦ happ.continuing.observed) happ

/-- A section that publishes. -/
theorem maintains_publishing {answers : List (ℕ × AssertionResponse)} {start app : App}
    {post : Value → App → Prop} (happ : Unpublished crypto answers start app)
    (h : ∀ later, Unpublished crypto answers start later →
      Ensures program post (Observed crypto answers) later) :
    Maintains UiRely (Observed crypto answers) post (Observed crypto answers) (atomically program)
      app :=
  maintains_of_stable (fun _ _ ↦ (stable_unpublished start).rely) happ.continuing.observed happ h

end Rules

section Sections

variable {crypto : Crypto}

theorem preserves_acceptAssertion : Preserves crypto (atomically acceptAssertion) := by
  refine preserves_atomically fun answers app happ hgate ↦ ?_
  rw [acceptAssertion, ensures_bind, assertionQueueClear, ensures_modify, ensures_announce]
  have hallowed : Continues crypto app.record .accepted := trivial
  exact ⟨happ.announced hallowed (by simp) rfl (happ.timely.inactive rfl rfl) rfl fun hactive ↦
    absurd hactive (by simp), hgate⟩

/-- The section that publishes an assertion and seeds the queue. -/
theorem ensures_publishAssertion_continuing {answers : List (ℕ × AssertionResponse)} {app : App}
    {call : AssertionCall} {recordIndex counterHighWater : ℕ} {record : CredentialRecord}
    {matchIndices : List ℕ} {seedAssertionQueue : Bool} {response : AssertionResponse}
    (happ : Continuing crypto answers app) (hheld : app.Held)
    (hmatches : seedAssertionQueue = true →
      matchIndices = resolveAssertionMatches crypto app.store call.request call.uvVerified) :
    Ensures (publishAssertion call recordIndex record counterHighWater matchIndices
      seedAssertionQueue response)
      (fun _ app' ↦ Continuing crypto answers app' ∧ app'.Held) (Observed crypto answers) app := by
  simp only [publishAssertion, ensures_bind, ensures_get, ensures_ite, ensures_pure]
  refine ⟨fun _ ↦ ⟨happ, hheld⟩, fun _ ↦ ?_⟩
  cases hpublish : publishCounterAdvance app.store record counterHighWater with
  | none => exact ⟨happ, hheld⟩
  | some store =>
    let assertion := call.observed app recordIndex record response
    have hallowed : Continues crypto app.record (.asserted assertion) := trivial
    have hanswered : ∀ app' : App, app'.record = app.record ++ [.asserted assertion] →
        app'.assertionQueue = {} → app'.expiry = app.expiry → Continuing crypto answers app' := by
      intro app' hrecord hqueue hexpiry
      refine happ.announced hallowed (by simp) hrecord
        (happ.timely.inactive (by rw [hqueue]) hexpiry) (by rw [hexpiry]) fun hactive ↦ ?_
      rw [hqueue] at hactive
      exact absurd hactive (by simp)
    simp only [ensures_bind, ensures_announce, ensures_modify, assertionQueueClear]
    cases hseed : seedAssertionQueue with
    | false => exact ⟨hanswered _ rfl rfl rfl, hheld⟩
    | true =>
      simp only [if_true, ensures_bind]
      refine ensures_assertionQueueSeed (fun _ ↦ ⟨hanswered _ rfl rfl rfl, hheld⟩) fun _ ↦ ⟨?_, hheld⟩
      let seeding : Seeding :=
        { sessionId := call.sessionId
          request := call.request.assertion
          uvVerified := call.uvVerified
          userPresent := !(call.request.hasUp && !call.request.up)
          credentialIds := matchIndices.map fun index ↦ (entryAt store index).credentialId }
      have hof : seeding.Of crypto assertion := by
        refine ⟨rfl, rfl, rfl, rfl, ?_⟩
        show matchIndices.map (fun index ↦ (entryAt store index).credentialId) =
          (resolveAssertionMatches crypto app.store call.request call.uvVerified).map fun index ↦
            (entryAt app.store index).credentialId
        rw [hmatches hseed]
        exact List.map_congr_left fun index _ ↦ credentialId_publishCounterAdvance hpublish index
      have hseeded : Continues crypto (app.record ++ [.asserted assertion]) (.seeded seeding) :=
        ⟨app.record, assertion, rfl, hof⟩
      have hbefore := hanswered { app with
        record := app.record ++ [.asserted assertion], assertionQueue := {} } rfl rfl rfl
      refine hbefore.announced hseeded (by simp) rfl ⟨fun _ ↦ rfl, happ.timely.answered⟩ rfl
        fun _ ↦ ⟨seeding, 0, ?_⟩
      exact ⟨⟨_, [], rfl, rfl, by simp⟩, rfl, rfl, rfl, rfl, rfl, by simp [seeding], fun _ ↦ rfl⟩

end Sections

section GetAssertion

variable {crypto : Crypto} {answers : List (ℕ × AssertionResponse)} {start app : App}
  {call : AssertionCall}

/-- The end of the gated part of getAssertion. -/
theorem maintains_publishAssertionCounter_continuing {recordIndex : ℕ}
    {entry : CredentialIndexEntry} {record : CredentialRecord} {matchIndices : List ℕ}
    {seedAssertionQueue : Bool} {response : AssertionResponse}
    (happ : Unpublished crypto answers start app)
    (hmatches : seedAssertionQueue = true →
      matchIndices = resolveAssertionMatches crypto start.store call.request call.uvVerified) :
    Maintains UiRely (Observed crypto answers)
      (fun _ app' ↦ Continuing crypto answers app' ∧ app'.Held) (Observed crypto answers)
      (publishAssertionCounter crypto call recordIndex entry record matchIndices
        seedAssertionQueue response) app := by
  unfold publishAssertionCounter
  rw [maintains_bind]
  refine ((local_onDevice _).unpublished happ).weaken fun prepared app₁ happ ↦ ?_
  cases prepared with
  | none => exact ⟨happ.continuing, happ.shared.2⟩
  | some counterHighWater =>
    refine maintains_publishing happ fun later hlater ↦ ?_
    refine ensures_publishAssertion_continuing hlater.continuing hlater.shared.2 fun hseed ↦ ?_
    rw [hlater.shared.1.1]
    exact hmatches hseed

theorem maintains_answerAssertion_continuing {recordIndex matchCount : ℕ} {matchIndices : List ℕ}
    (happ : Unpublished crypto answers start app)
    (hmatches : 1 < matchCount →
      matchIndices = resolveAssertionMatches crypto start.store call.request call.uvVerified) :
    Maintains UiRely (Observed crypto answers)
      (fun _ app' ↦ Continuing crypto answers app' ∧ app'.Held) (Observed crypto answers)
      (answerAssertion crypto call recordIndex matchIndices matchCount) app := by
  have hseeded : (call.request.hasUp && !call.request.up && !requestUsesAllowList call.request &&
      decide (1 < matchCount)) = true →
      matchIndices = resolveAssertionMatches crypto start.store call.request call.uvVerified := by
    intro hseed
    rw [Bool.and_eq_true, decide_eq_true_eq] at hseed
    exact hmatches hseed.2
  unfold answerAssertion
  rw [maintains_bind]
  refine ((local_loadAssertionRecord _ _).unpublished happ).weaken fun loaded app₁ happ ↦ ?_
  cases loaded with
  | none => exact ⟨happ.continuing, happ.shared.2⟩
  | some loaded =>
    obtain ⟨record, entry⟩ := loaded
    simp only [maintains_bind]
    refine ((local_prepareAssertionResponse _ _ _ _ _ _ _ _ _).unpublished happ).weaken
      fun reply app₂ happ ↦ ?_
    cases reply with
    | error status => exact ⟨happ.continuing, happ.shared.2⟩
    | ok response =>
      simp only [maintains_ite, maintains_bind]
      constructor
      · intro _
        refine (local_pollCborControl.unpublished happ).weaken fun status app₃ happ ↦ ?_
        simp only [maintains_ite, maintains_pure]
        exact ⟨fun _ ↦ ⟨happ.continuing, happ.shared.2⟩, fun _ ↦
          maintains_publishAssertionCounter_continuing happ hseeded⟩
      · intro _
        exact maintains_publishAssertionCounter_continuing happ hseeded

theorem preservesHeld_finishLocked {recordIndex : ℕ} :
    PreservesHeld crypto (finishLocked crypto call recordIndex) := by
  intro answers app happ hheld
  unfold finishLocked
  simp only [maintains_ite, maintains_bind]
  constructor
  · -- The matches are resolved in the state in which the answer is published.
    intro _
    have hstart := unpublished_refl happ hheld
    refine maintains_publishing hstart fun later hlater ↦ ?_
    rw [ensures_bind, ensures_modify, ensures_bind, ensures_get, ensures_pure]
    have hsame : Unpublished crypto answers { later with deletedPositions := [] }
        { later with deletedPositions := [] } := by
      refine unpublished_refl ?_ hlater.shared.2
      exact hlater.continuing.of_eq rfl rfl rfl fun hui ↦ ⟨hui, fun _ ↦ rfl⟩
    cases hmatches : resolveAssertionMatches crypto later.store call.request call.uvVerified with
    | nil =>
      simp only [maintains_pure]
      exact ⟨hsame.continuing, hsame.shared.2⟩
    | cons first others =>
      exact maintains_answerAssertion_continuing hsame fun _ ↦ hmatches.symm
  · intro _
    exact maintains_answerAssertion_continuing (unpublished_refl happ hheld) fun hcount ↦
      absurd hcount (by simp)

theorem preserves_finishAssertion {recordIndex : ℕ} :
    Preserves crypto (finishAssertion crypto call recordIndex) :=
  preserves_gated preservesHeld_finishLocked

theorem preserves_resolveAssertionMatchesSnapshot {request : GetAssertionRequest}
    {uvVerified : Bool} :
    Preserves crypto (resolveAssertionMatchesSnapshot crypto request uvVerified) := by
  refine preserves_atomically fun answers app happ hgate ↦ ?_
  rw [ensures_bind, ensures_modify, ensures_bind, ensures_get, ensures_pure]
  exact ⟨happ.of_eq rfl rfl rfl fun hui ↦ ⟨hui, fun _ ↦ rfl⟩, hgate⟩

theorem harmless_requestAssertionSelection (matchIndices : List ℕ) :
    Harmless (requestAssertionSelection matchIndices) := by
  have hprepare : Harmless (atomically (prepareAssertionSelection matchIndices)) := by
    refine harmless_atomically fun app ↦ ?_
    simp only [prepareAssertionSelection, ensures_bind, ensures_get, ensures_ite, ensures_pure,
      ensures_set]
    exact ⟨fun _ ↦ ⟨app.approval, app.selectedCredential, SameShared.refl app⟩,
      fun _ ↦ ⟨_, _, SameShared.refl _⟩⟩
  have hui : Harmless (uiRequestAssertionSelection matchIndices) := by
    unfold uiRequestAssertionSelection
    split_ifs
    · exact harmless_pure none
    · refine hprepare.bind fun shown ↦ ?_
      split_ifs
      · exact harmless_pure none
      · refine local_waitForInteractionResult.harmless.bind fun result ↦ ?_
        split_ifs
        · exact harmless_pure none
        · exact (local_read _).harmless
  refine hui.bind fun selected ↦ ?_
  cases selected with
  | none => exact ((local_read _).bind fun state ↦ local_pure _).harmless
  | some recordIndex => exact harmless_pure _

variable {capabilities : Capabilities} {sessionId : ℕ}

theorem preserves_selectAssertion {request : GetAssertionRequest} {uvVerified : Bool} :
    Preserves crypto (selectAssertion crypto capabilities sessionId request uvVerified) := by
  have hpoll : Preserves crypto pollCborControl := local_pollCborControl.harmless.preserves
  unfold selectAssertion
  split_ifs
  · exact preserves_finishAssertion
  · refine preserves_resolveAssertionMatchesSnapshot.bind fun matchIndices ↦ ?_
    split_ifs
    · refine (harmless_requestAssertionSelection _).preserves.bind fun reply ↦ ?_
      cases reply with
      | error status => exact preserves_pure _
      | ok selectedRecordIndex =>
        refine hpoll.bind fun status ↦ ?_
        split_ifs
        · exact preserves_pure _
        · exact preserves_finishAssertion
    · refine harmless_requestApproval.preserves.bind fun status ↦ ?_
      split_ifs
      · exact preserves_pure _
      · refine hpoll.bind fun status ↦ ?_
        split_ifs
        · exact preserves_pure _
        · exact preserves_finishAssertion

theorem preserves_authorizeAssertion {request : GetAssertionRequest} :
    Preserves crypto (authorizeAssertion crypto capabilities sessionId request) := by
  unfold authorizeAssertion
  split_ifs
  · exact harmless_handleEmptyPinAuthProbe.preserves.bind fun status ↦ preserves_pure _
  · exact preserves_pure _
  · refine (harmless_requirePinAuthWithState _).preserves.bind fun checked ↦ ?_
    obtain ⟨status, uvVerified⟩ := checked
    dsimp only
    split_ifs
    · exact preserves_pure _
    · refine local_pollCborControl.harmless.preserves.bind fun status ↦ ?_
      split_ifs
      · exact preserves_pure _
      · exact preserves_selectAssertion

theorem preserves_handleGetAssertion {parsed : Reply GetAssertionRequest} :
    Preserves crypto (handleGetAssertion crypto capabilities sessionId parsed) := by
  cases parsed with
  | error status => exact preserves_pure _
  | ok request =>
    unfold handleGetAssertion
    dsimp only
    split_ifs
    · exact preserves_pure _
    · exact preserves_acceptAssertion.bind fun _ ↦ preserves_authorizeAssertion

end GetAssertion

section GetNextAssertion

variable {crypto : Crypto} {answers : List (ℕ × AssertionResponse)} {start app : App}
  {sessionId : ℕ}

/-- What the observer notes of an answer to getNextAssertion. -/
def answered (sessionId : ℕ) (reply : Reply AssertionResponse) : List (ℕ × AssertionResponse) :=
  match reply with
  | .ok response => [(sessionId, response)]
  | .error _ => []

/-- A command that refuses answers nothing. -/
theorem Continuing.refused (h : Continuing crypto answers app) (hheld : app.Held)
    (status : CtapStatus) :
    Continuing crypto (answers ++ answered sessionId (.error status)) app ∧ app.Held := by
  refine ⟨?_, hheld⟩
  show Continuing crypto (answers ++ []) app
  rwa [List.append_nil]

/-- The response was built from the queue for a record. -/
structure BuiltFor (queue : AssertionQueue) (record : CredentialRecord)
    (response : AssertionResponse) : Prop where
  credentialId : response.credentialId = record.credentialId
  rpId : response.rpId = queue.request.rpId
  clientDataHash : response.clientDataHash = queue.request.clientDataHash
  userVerified : response.userVerified = queue.uvVerified
  userPresent : response.userPresent = queue.userPresent

theorem builtFor_of_prepared {queue : AssertionQueue} {record : CredentialRecord}
    {response : AssertionResponse} {signCount : ℕ}
    (h : response = assertionResponse queue.request record queue.userPresent queue.uvVerified
      (record.signCount + 1) queue.uvVerified false queue.count false false) :
    BuiltFor queue { record with signCount } response := by
  rw [h]
  exact ⟨rfl, rfl, rfl, rfl, rfl⟩

/-- A queue that is still current points at the next match of its seeding. -/
theorem Queued.pointsAtNext {seeding : Seeding} {answered : ℕ} {record : CredentialRecord}
    {response : AssertionResponse} (h : Queued app seeding answered) (hheld : app.Held)
    (hsession : sessionId = app.assertionQueue.sessionId)
    (hindex : app.assertionQueue.index < app.assertionQueue.count)
    (hcurrent : selectedRecordStillCurrentLocked app
      (app.assertionQueue.recordIndices.getD app.assertionQueue.index 0) record = true)
    (hbuilt : BuiltFor app.assertionQueue record response) :
    seeding.Answers (answered + 1) sessionId response := by
  have hentries := h.entries fun _ ↦ by simp [hheld.2]
  refine ⟨hsession.trans h.sessionId, ?_, ?_, ?_, ?_, ?_⟩
  · rw [h.count, ← hentries, List.length_map] at hindex
    have hposition : app.assertionQueue.recordIndices[app.assertionQueue.index]? =
        some (app.assertionQueue.recordIndices.getD app.assertionQueue.index 0) := by
      rw [List.getD_eq_getElem?_getD, List.getElem?_eq_getElem hindex, Option.getD_some]
    rw [← h.index, ← hentries, List.getElem?_map, hposition, Option.map_some]
    unfold selectedRecordStillCurrentLocked at hcurrent
    split at hcurrent
    · exact absurd hcurrent (by simp)
    · rename_i entry hentry
      simp only [indexEntryMatchesRecord, Bool.and_eq_true, beq_iff_eq] at hcurrent
      rw [entryAt_of_getElem? hentry, hcurrent.2, hbuilt.credentialId]
  · rw [hbuilt.rpId, h.request]
  · rw [hbuilt.clientDataHash, h.request]
  · rw [hbuilt.userVerified, h.uvVerified]
  · rw [hbuilt.userPresent, h.userPresent]

/-- What the queue is after an answer. -/
theorem Continuing.continued {seeding : Seeding} {answeredCount : ℕ} {store : CredentialStore}
    {response : AssertionResponse} (h : Continuing crypto answers app)
    (hqueued : Queued app seeding answeredCount)
    (hanswers : seeding.Answers (answeredCount + 1) sessionId response)
    (hids : ∀ index, (entryAt store index).credentialId = (entryAt app.store index).credentialId)
    (hheld : app.Held) (hcheck : CheckPassed (app.expiry.checks.getLastD (0, 0)))
    (hchecked : app.expiry.checks.getLastD (0, 0) ∈ app.expiry.checks) {queue : AssertionQueue}
    (hqueue : queue = { app.assertionQueue with
      index := app.assertionQueue.index + 1
      expiresAt := (app.device.clock % 2 ^ 32 + assertionQueueTimeoutMs) % 2 ^ 32 }) :
    Continuing crypto (answers ++ [(sessionId, response)])
      { app with
        store
        assertionQueue := if queue.count ≤ queue.index then {} else queue
        expiry := { app.expiry with
          openedAt := app.device.clock
          answered := app.expiry.answered ++ [app.expiry.checks.getLastD (0, 0)] }
        record := app.record ++ [.continued sessionId response] } := by
  have hallowed : Continues crypto app.record (.continued sessionId response) :=
    ⟨seeding, answeredCount, hqueued.follows, hanswers⟩
  have happend : continuations (app.record ++ [.continued sessionId response]) =
      continuations app.record ++ [(sessionId, response)] := List.filterMap_append
  refine ⟨everyEvent_concat.mpr ⟨h.record, hallowed⟩, ?_, ?_,
    ⟨fun hactive ↦ ?_, fun check hmem ↦ ?_⟩, ?_⟩
  · show continuations (app.record ++ [.continued sessionId response]) = _
    rw [happend, h.answers]
  · by_cases hlast : queue.count ≤ queue.index
    · simp only [if_pos hlast]
      exact fun hactive ↦ absurd hactive (by simp)
    · rw [if_neg hlast, hqueue]
      intro _
      obtain ⟨earlier, later, hrecord, hlength, hlater⟩ := hqueued.follows
      refine ⟨seeding, answeredCount + 1, ?_, hqueued.sessionId, hqueued.request,
        hqueued.uvVerified, hqueued.userPresent, congrArg (· + 1) hqueued.index, hqueued.count,
        fun _ ↦ ?_⟩
      · refine ⟨earlier, later ++ [.continued sessionId response], ?_, ?_, ?_⟩
        · simp [hrecord]
        · simp [hlength]
        · intro event hevent
          rcases List.mem_append.mp hevent with hevent | hevent
          · exact hlater event hevent
          · exact ⟨response, by rw [List.mem_singleton.mp hevent, hanswers.sessionId]⟩
      · rw [← hqueued.entries fun _ ↦ by simp [hheld.2]]
        exact List.map_congr_left fun index _ ↦ hids index
  · by_cases hlast : queue.count ≤ queue.index
    · simp only [if_pos hlast] at hactive
      exact absurd hactive (by simp)
    · show (if queue.count ≤ queue.index then ({} : AssertionQueue) else queue).expiresAt = _
      rw [if_neg hlast, hqueue]
  · rcases List.mem_append.mp hmem with hmem | hmem
    · exact h.timely.answered check hmem
    · rw [List.mem_singleton.mp hmem]
      exact ⟨hchecked, hcheck⟩
  · show (app.expiry.answered ++ [_]).length =
      (continuations (app.record ++ [.continued sessionId response])).length
    rw [happend, List.length_append, List.length_append, h.counted]
    rfl

/-- The section that publishes a continuation. -/
theorem ensures_publishNextAssertion {queue : AssertionQueue} {record : CredentialRecord}
    {counterHighWater : ℕ} {response : AssertionResponse} (happ : Continuing crypto answers app)
    (hheld : app.Held) (hqueue : app.assertionQueue = queue)
    (hcheck : CheckPassed (app.expiry.checks.getLastD (0, 0)))
    (hchecked : app.expiry.checks.getLastD (0, 0) ∈ app.expiry.checks)
    (hbuilt : BuiltFor queue record response) :
    Ensures (publishNextAssertion sessionId queue.index (queue.recordIndices.getD queue.index 0)
      queue.count queue.request.rpId record counterHighWater response)
      (fun reply app' ↦ Continuing crypto (answers ++ answered sessionId reply) app' ∧ app'.Held)
      (Observed crypto answers) app := by
  subst hqueue
  have hcleared : Continuing crypto answers { app with assertionQueue := {} } :=
    happ.cleared rfl rfl rfl
  unfold publishNextAssertion
  simp only [ensures_bind, ensures_get, ensures_ite, ensures_pure, assertionQueueClear,
    ensures_modify]
  refine ⟨fun _ ↦ ⟨fun _ ↦ hcleared.refused hheld _, fun _ ↦ happ.refused hheld _⟩,
    fun hcurrent ↦ ?_⟩
  rw [Bool.not_eq_true', Bool.not_eq_false, Bool.and_eq_true] at hcurrent
  obtain ⟨hqueueCurrent, hrecordCurrent⟩ := hcurrent
  unfold assertionQueueStillCurrentLocked at hqueueCurrent
  simp only [Bool.and_eq_true, beq_iff_eq, decide_eq_true_eq] at hqueueCurrent
  obtain ⟨⟨⟨⟨⟨⟨hactive, hsession⟩, -⟩, -⟩, hindex⟩, -⟩, -⟩ := hqueueCurrent
  cases hpublish : publishCounterAdvance app.store record counterHighWater with
  | none => exact hcleared.refused hheld _
  | some store =>
    obtain ⟨seeding, answeredCount, hqueued⟩ := happ.queued hactive
    have hanswers := hqueued.pointsAtNext hheld hsession hindex hrecordCurrent hbuilt
    exact ⟨happ.continued hqueued hanswers
      (fun index ↦ credentialId_publishCounterAdvance hpublish index) hheld hcheck hchecked rfl,
      hheld⟩

/-- Noting a check. -/
theorem Continuing.checked (h : Continuing crypto answers app) (check : ℕ × ℕ) :
    Continuing crypto answers
      { app with expiry := { app.expiry with checks := app.expiry.checks ++ [check] } } := by
  refine ⟨h.record, h.answers, fun hactive ↦ ?_,
    ⟨h.timely.deadline, fun answered hmem ↦ ?_⟩, h.counted⟩
  · obtain ⟨seeding, count, hqueued⟩ := h.queued hactive
    exact ⟨seeding, count, hqueued.follows, hqueued.sessionId, hqueued.request, hqueued.uvVerified,
      hqueued.userPresent, hqueued.index, hqueued.count, hqueued.entries⟩
  · obtain ⟨hchecked, hpassed⟩ := h.timely.answered answered hmem
    exact ⟨List.mem_append_left _ hchecked, hpassed⟩

/-- Reading the queue publishes nothing, unless it clears the queue. What it has found was not
expired when the last check was made. -/
theorem ensures_readAssertionQueue (happ : Unpublished crypto answers start app) :
    Ensures (readAssertionQueue sessionId) (fun reply app' ↦
      (∀ status, reply = .error status → Continuing crypto answers app' ∧ app'.Held) ∧
        ∀ found, reply = .ok found → Unpublished crypto answers app' app' ∧
          found.1 = app'.assertionQueue ∧ CheckPassed (app'.expiry.checks.getLastD (0, 0)) ∧
            app'.expiry.checks.getLastD (0, 0) ∈ app'.expiry.checks) (Observed crypto answers)
      app := by
  have hchecked := happ.continuing.checked (app.expiry.openedAt, app.device.clock)
  have hheld := happ.shared.2
  unfold readAssertionQueue
  simp only [ensures_bind, ensures_get, ensures_onDevice, getTick, ensures_pure, ensures_ite,
    assertionQueueClear, ensures_modify]
  refine ⟨fun hdecided ↦ ⟨fun _ ↦ ?_, fun hready ↦ ⟨fun _ ↦ ?_, fun _ ↦ ?_⟩⟩, fun hother ↦
    ⟨fun _ ↦ ?_, fun hready ↦ ⟨fun _ ↦ ?_, fun hsession ↦ ?_⟩⟩⟩
  · exact ⟨fun _ _ ↦ ⟨hchecked.cleared rfl rfl rfl, hheld⟩, by simp⟩
  · exact ⟨fun _ _ ↦ ⟨hchecked, hheld⟩, by simp⟩
  · split
    · exact ⟨fun _ _ ↦ ⟨hchecked.cleared rfl rfl rfl, hheld⟩, by simp⟩
    · refine ⟨by simp, fun found hfound ↦ ⟨unpublished_refl hchecked hheld, ?_, ?_, by simp⟩⟩
      · rw [← Except.ok.inj hfound]
      · simp only [Bool.or_eq_true, Bool.not_eq_true', decide_eq_true_eq, not_or,
          Bool.not_eq_false, Bool.not_eq_true] at hready
        obtain ⟨⟨hactive, hexpired⟩, -⟩ := hready
        rw [happ.continuing.timely.deadline hactive] at hexpired
        simpa [CheckPassed] using hexpired
  · exact ⟨fun _ _ ↦ ⟨happ.continuing.cleared rfl rfl rfl, hheld⟩, by simp⟩
  · exact ⟨fun _ _ ↦ ⟨happ.continuing, hheld⟩, by simp⟩
  · -- An active queue of this session is one whose check was noted.
    refine absurd ?_ hother
    simp only [Bool.or_eq_true, Bool.not_eq_true', not_or, Bool.not_eq_false] at hready
    rw [Bool.and_eq_true, beq_iff_eq]
    exact ⟨hready.1.1, not_not.mp hsession⟩

theorem preservesHeld_assertionQueueClearIfCurrent (queueIndex recordIndex count : ℕ)
    (rpId : Bytes) :
    PreservesHeld crypto (assertionQueueClearIfCurrent sessionId queueIndex recordIndex count
      rpId) := by
  refine preservesHeld_atomically fun answers app happ hheld ↦ ?_
  simp only [ensures_bind, ensures_get, ensures_ite, assertionQueueClear, ensures_modify,
    ensures_pure]
  exact ⟨fun _ ↦ ⟨happ.cleared rfl rfl rfl, hheld⟩, fun _ ↦ ⟨happ, hheld⟩⟩

theorem maintains_answerNextAssertion (happ : Continuing crypto answers app) (hheld : app.Held) :
    Maintains UiRely (Observed crypto answers)
      (fun reply app' ↦ Continuing crypto (answers ++ answered sessionId reply) app' ∧ app'.Held)
      (Observed crypto answers) (answerNextAssertion crypto sessionId) app := by
  unfold answerNextAssertion
  rw [maintains_bind]
  refine maintains_publishing (unpublished_refl happ hheld) fun later hlater ↦ ?_
  refine (ensures_readAssertionQueue hlater).mono ?_ fun _ hcut ↦ hcut
  rintro reply app₀ ⟨hrefused, hfound⟩
  cases reply with
  | error status =>
    obtain ⟨happ, hheld⟩ := hrefused status rfl
    exact happ.refused hheld status
  | ok found =>
    obtain ⟨happ, hqueue, hcheck, hchecked⟩ := hfound found rfl
    obtain ⟨queue, entry⟩ := found
    -- Every early exit clears the queue, if it is still the one that was read.
    have hgiveUp : ∀ (status : CtapStatus) (app' : App), Unpublished crypto answers app₀ app' →
        Maintains UiRely (Observed crypto answers) (fun _ app' ↦
          Continuing crypto (answers ++ answered sessionId (.error status)) app' ∧ app'.Held)
          (Observed crypto answers) (assertionQueueClearIfCurrent sessionId queue.index
            (queue.recordIndices.getD queue.index 0) queue.count queue.request.rpId) app' := by
      intro status app' happ'
      refine (preservesHeld_assertionQueueClearIfCurrent _ _ _ _ answers app' happ'.continuing
        happ'.shared.2).weaken ?_
      exact fun _ final hfinal ↦ hfinal.1.refused hfinal.2 status
    simp only [maintains_bind]
    refine ((local_onDevice _).unpublished happ).weaken fun loaded app₁ happ ↦ ?_
    cases loaded with
    | none =>
      simp only [maintains_bind]
      exact hgiveUp _ app₁ happ
    | some record =>
      simp only [maintains_ite, maintains_bind]
      refine ⟨fun _ ↦ hgiveUp _ app₁ happ, fun _ ↦ ⟨fun _ ↦ hgiveUp _ app₁ happ, fun _ ↦ ?_⟩⟩
      refine (((local_prepareAssertionResponse _ _ _ _ _ _ _ _ _).unpublished happ).and
        maintains_prepareAssertionResponse).weaken ?_
      rintro reply app₂ ⟨happ, hresponse⟩
      cases reply with
      | error status => exact happ.continuing.refused happ.shared.2 status
      | ok response =>
        simp only [maintains_bind]
        refine (local_pollCborControl.unpublished happ).weaken fun status app₃ happ ↦ ?_
        simp only [maintains_ite, maintains_bind]
        refine ⟨fun _ ↦ hgiveUp _ app₃ happ, fun _ ↦ ?_⟩
        refine ((local_onDevice _).unpublished happ).weaken fun prepared app₄ happ ↦ ?_
        cases prepared with
        | none =>
          simp only [maintains_bind]
          exact hgiveUp _ app₄ happ
        | some counterHighWater =>
          refine maintains_publishing happ fun last hlast ↦ ?_
          refine ensures_publishNextAssertion hlast.continuing hlast.shared.2 ?_ ?_ ?_
            (builtFor_of_prepared (hresponse response rfl))
          · rw [hlast.shared.1.2.1]
            exact hqueue.symm
          · exact hlast.shared.1.2.2 ▸ hcheck
          · exact hlast.shared.1.2.2 ▸ hchecked

/-- The whole command. -/
theorem maintains_assertionQueueHandleNext (happ : Continuing crypto answers app)
    (hgate : app.GateKept) :
    Maintains UiRely (Observed crypto answers) (fun reply app' ↦
      Continuing crypto (answers ++ answered sessionId reply) app' ∧ app'.GateKept)
      (Observed crypto answers) (assertionQueueHandleNext crypto sessionId) app := by
  have hrefused : ∀ (status : CtapStatus) (app' : App), Continuing crypto answers app' →
      app'.GateKept →
      Continuing crypto (answers ++ answered sessionId (.error status)) app' ∧ app'.GateKept := by
    intro status app' happ' hgate'
    refine ⟨?_, hgate'⟩
    show Continuing crypto (answers ++ []) app'
    rwa [List.append_nil]
  have hobserved : ∀ (reply : Reply AssertionResponse) (app' : App),
      Continuing crypto (answers ++ answered sessionId reply) app' → app'.GateKept →
      Observed crypto answers app' := by
    intro reply app' happ' _
    exact ⟨happ'.record, (List.prefix_append _ _).trans happ'.observed.2.1, happ'.timely.answered,
      happ'.counted⟩
  have hclear : Preserves crypto (atomically assertionQueueClear) := by
    refine preserves_atomically fun answers app happ hgate ↦ ?_
    rw [assertionQueueClear, ensures_modify]
    exact ⟨happ.cleared rfl rfl rfl, hgate⟩
  unfold assertionQueueHandleNext
  rw [maintains_bind]
  refine (local_pollCborControl.harmless.preserves answers app happ hgate).weaken ?_
  rintro status app₁ ⟨happ, hgate⟩
  simp only [maintains_ite]
  refine ⟨fun _ ↦ ?_, fun _ ↦ ?_⟩
  · rw [maintains_bind]
    exact (hclear answers app₁ happ hgate).weaken fun _ app₂ hdone ↦
      hrefused status app₂ hdone.1 hdone.2
  · refine maintains_gated indifferent_continuing.toUngated (fun _ happ _ ↦ happ.observed) happ
      hgate (fun app₂ happ hgate ↦ hrefused _ app₂ happ hgate) fun app₂ happ hheld ↦ ?_
    refine (maintains_answerNextAssertion happ hheld).weaken fun reply app₃ hdone ↦ ?_
    exact maintains_endMaintenance indifferent_continuing.toUngated (hobserved reply) hdone.1
      hdone.2

end GetNextAssertion

section MakeCredential

variable {crypto : Crypto} {answers : List (ℕ × AssertionResponse)} {start app : App}

theorem Unpublished.onDevice (h : Unpublished crypto answers start app) (device : Pin.Device) :
    Unpublished crypto answers start { app with device } :=
  ⟨h.continuing.of_eq rfl rfl rfl fun hui ↦ ⟨hui, fun _ ↦ rfl⟩, h.shared⟩

/-- The section that publishes a registration, which has room for it. -/
theorem ensures_publishCredential {deletedIndices : List ℕ} {record : CredentialRecord}
    (happ : Continuing crypto answers app) (hheld : app.Held)
    (hroom : (publishDeletedIndices app.store deletedIndices).length < maxCredentials) :
    Ensures (publishCredential crypto deletedIndices record)
      (fun _ app' ↦ Continuing crypto answers app' ∧ app'.Held) (Observed crypto answers) app := by
  have hadded : publishAddedRecord crypto (publishDeletedIndices app.store deletedIndices) record =
      some (publishDeletedIndices app.store deletedIndices ++
        [indexEntryFromRecord crypto record]) := if_neg (not_le.mpr hroom)
  have hallowed : Continues crypto app.record (.registered record.credentialId) := trivial
  unfold publishCredential
  simp only [ensures_bind, ensures_modify, ensures_get, hadded, assertionQueueClear,
    ensures_announce, ensures_pure]
  exact ⟨happ.announced hallowed (by simp) rfl (happ.timely.inactive rfl rfl) rfl fun hactive ↦
    absurd hactive (by simp), hheld⟩

theorem maintains_addCredential {deletedIndices : List ℕ} {record : CredentialRecord}
    (happ : Unpublished crypto answers start app)
    (hroom : (publishDeletedIndices start.store deletedIndices).length < maxCredentials) :
    Maintains UiRely (Observed crypto answers)
      (fun _ app' ↦ Continuing crypto answers app' ∧ app'.Held) (Observed crypto answers)
      (addCredential crypto deletedIndices record) app := by
  unfold addCredential
  rw [maintains_bind]
  refine maintains_publishing happ fun later hlater ↦ ?_
  rw [← hlater.shared.1.1] at hroom
  refine (ensures_publishCredential hlater.continuing hlater.shared.2 hroom).mono ?_
    fun _ hcut ↦ hcut
  rintro published app₁ ⟨happ, hheld⟩
  simp only [maintains_ite, maintains_bind, maintains_pure]
  exact ⟨fun _ ↦ (local_onDevice _).preservesHeld answers app₁ happ hheld, fun _ ↦ ⟨happ, hheld⟩⟩

theorem preservesHeld_publishPartialRemoval (deletedIndices : List ℕ) (removedCount : ℕ) :
    PreservesHeld crypto (atomically (publishPartialRemoval deletedIndices removedCount)) := by
  refine preservesHeld_atomically fun answers app happ hheld ↦ ?_
  rw [publishPartialRemoval, ensures_bind, ensures_modify, assertionQueueClear, ensures_modify]
  exact ⟨happ.cleared rfl rfl rfl, hheld⟩

/-- Looking for the records to replace. -/
theorem maintains_findReplacedIndices {request : MakeCredentialRequest} {residentKey : Bool}
    (happ : Unpublished crypto answers start app) :
    Maintains UiRely (Observed crypto answers) (fun found app' ↦
      Unpublished crypto answers start app' ∧
        ∀ indices, found = some indices → Ascending start.store indices) (Observed crypto answers)
      (findReplacedIndices crypto request residentKey) app := by
  rw [findReplacedIndices, maintains_ite]
  constructor
  · intro _
    refine maintains_publishing happ fun later hlater ↦ ?_
    rw [ensures_bind, ensures_get, ensures_onDevice]
    refine ensures_findResidentCredentialIndicesForUser.mono (fun found device hfound ↦ ?_)
      fun device _ ↦ (hlater.onDevice device).continuing.observed
    rw [hlater.shared.1.1] at hfound
    exact ⟨hlater.onDevice device, hfound⟩
  · intro _
    refine ⟨happ, fun indices hindices ↦ ?_⟩
    rw [← Option.some.inj hindices]
    exact ⟨List.Pairwise.nil, by simp⟩

theorem maintains_replaceCredentials {deletedIndices : List ℕ} {record : CredentialRecord}
    (happ : Unpublished crypto answers start app)
    (hroom : (publishDeletedIndices start.store deletedIndices).length < maxCredentials) :
    Maintains UiRely (Observed crypto answers)
      (fun _ app' ↦ Continuing crypto answers app' ∧ app'.Held) (Observed crypto answers)
      (replaceCredentials crypto deletedIndices record) app := by
  have hgiveUp : PreservesHeld crypto (do
      let _ ← atomically (onDevice (removeRecordFile record))
      return CtapStatus.other) := ((local_onDevice _).bind fun _ ↦ local_pure _).preservesHeld
  unfold replaceCredentials
  rw [maintains_bind]
  refine ((local_withStore fun store ↦
    removeCredentialFilesByIndices store deletedIndices 0).unpublished happ).weaken
      fun removal app₁ happ ↦ ?_
  obtain ⟨removed, removedCount⟩ := removal
  simp only [maintains_ite]
  refine ⟨fun _ ↦ ⟨fun _ ↦ ?_, fun _ ↦ ?_⟩, fun _ ↦ maintains_addCredential happ hroom⟩
  · rw [maintains_bind]
    refine (preservesHeld_publishPartialRemoval _ _ answers app₁ happ.continuing
      happ.shared.2).weaken fun _ app₂ hdone ↦ ?_
    exact hgiveUp answers app₂ hdone.1 hdone.2
  · exact hgiveUp answers app₁ happ.continuing happ.shared.2

theorem preservesHeld_commitCredential (request : MakeCredentialRequest) (record : CredentialRecord)
    (residentKey : Bool) :
    PreservesHeld crypto (commitCredential crypto request record residentKey) := by
  intro answers app happ hheld
  unfold commitCredential
  rw [maintains_bind]
  refine (maintains_findReplacedIndices (unpublished_refl happ hheld)).weaken ?_
  rintro found app₁ ⟨happ, hfound⟩
  cases found with
  | none => exact ⟨happ.continuing, happ.shared.2⟩
  | some deletedIndices =>
    have hlength := length_publishDeletedIndices (hfound deletedIndices rfl)
    simp only [storeCredential, maintains_bind]
    refine maintains_publishing happ fun later hlater ↦ ?_
    rw [ensures_bind, ensures_get, ensures_pure, hlater.shared.1.1]
    simp only [maintains_ite, maintains_bind, maintains_pure]
    refine ⟨fun _ ↦ ⟨hlater.continuing, hlater.shared.2⟩, fun hcount ↦ ?_⟩
    have hroom : (publishDeletedIndices app.store deletedIndices).length < maxCredentials := by
      rw [if_pos (by omega)] at hcount
      omega
    refine ((local_onDevice _).unpublished hlater).weaken fun written app₂ happ ↦ ?_
    simp only [maintains_ite, maintains_pure]
    exact ⟨fun _ ↦ ⟨happ.continuing, happ.shared.2⟩, fun _ ↦
      ⟨fun _ ↦ maintains_replaceCredentials happ hroom, fun _ ↦ maintains_addCredential happ hroom⟩⟩

theorem preserves_createCredential (request : MakeCredentialRequest) (record : CredentialRecord)
    (residentKey : Bool) :
    Preserves crypto (createCredential crypto request record residentKey) := by
  refine (local_onDevice _).harmless.preserves.bind fun generated ↦ ?_
  cases generated with
  | none => exact preserves_pure _
  | some record =>
    refine local_nextStatus.harmless.preserves.bind fun status ↦ ?_
    split_ifs
    · exact preserves_pure _
    · refine local_pollCborControl.harmless.preserves.bind fun status ↦ ?_
      split_ifs
      · exact preserves_pure _
      · exact preserves_gated (preservesHeld_commitCredential request record residentKey)

theorem preserves_registerCredential (createdAt : ℕ) (request : MakeCredentialRequest)
    (residentKey uvVerified : Bool) :
    Preserves crypto (registerCredential crypto createdAt request residentKey uvVerified) := by
  refine (harmless_excludeCheck request uvVerified).preserves.bind fun excluded ↦ ?_
  match excluded with
  | none => exact preserves_pure _
  | some true => exact harmless_requestApproval.preserves.bind fun status ↦ preserves_pure _
  | some false =>
    refine (local_onDevice _).harmless.preserves.bind fun prepared ↦ ?_
    cases prepared with
    | none => exact preserves_pure _
    | some record =>
      refine harmless_requestApproval.preserves.bind fun status ↦ ?_
      refine preserves_ite (preserves_pure _) ?_
      refine local_pollCborControl.harmless.preserves.bind fun status ↦ ?_
      exact preserves_ite (preserves_pure _) (preserves_createCredential _ _ _)

theorem preserves_handleMakeCredential (capabilities : Capabilities) (createdAt : ℕ)
    (parsed : Reply MakeCredentialRequest) :
    Preserves crypto (handleMakeCredential crypto capabilities createdAt parsed) := by
  cases parsed with
  | error status => exact preserves_pure _
  | ok request =>
    unfold handleMakeCredential
    dsimp only
    split_ifs
    · exact preserves_pure _
    · exact harmless_handleEmptyPinAuthProbe.preserves
    · exact preserves_pure _
    · refine (local_read _).harmless.preserves.bind fun pinIsSet ↦ ?_
      split_ifs
      · exact preserves_pure _
      · refine (harmless_requirePinAuthWithState _).preserves.bind fun checked ↦ ?_
        obtain ⟨status, uvVerified⟩ := checked
        dsimp only
        split_ifs
        · exact preserves_pure _
        · refine local_pollCborControl.harmless.preserves.bind fun status ↦ ?_
          split_ifs
          · exact preserves_pure _
          · exact preserves_registerCredential _ _ _ _

end MakeCredential

section Reset

variable {crypto : Crypto} {answers : List (ℕ × AssertionResponse)} {app : App}

/-- No queue is active, and the gate is held. -/
structure Emptied (crypto : Crypto) (answers : List (ℕ × AssertionResponse)) (app : App) : Prop where
  continuing : Continuing crypto answers app
  inactive : app.assertionQueue.active = false
  held : app.Held

theorem stable_emptied : Stable (Emptied crypto answers) := by
  constructor
  · intro app app' heffect h
    refine ⟨indifferent_continuing.ui app app' heffect h.continuing, ?_,
      stable_held.ui app app' heffect h.held⟩
    cases heffect with
    | ended credentialId hui => rfl
    | _ => exact h.inactive
  · intro app app' hsame h
    refine ⟨indifferent_continuing.shared app app' hsame h.continuing, ?_,
      stable_held.shared app app' hsame h.held⟩
    rw [hsame.assertionQueue]
    exact h.inactive

theorem preservesHeld_resetLocked (listing : Listing) :
    PreservesHeld crypto (resetLocked crypto listing) := by
  intro answers app happ hheld
  have hobserved : ∀ app, Emptied crypto answers app → Observed crypto answers app :=
    fun _ h ↦ h.continuing.observed
  unfold resetLocked
  rw [maintains_bind]
  refine maintains_publishing (unpublished_refl happ hheld) fun later hlater ↦ ?_
  rw [ensures_bind, assertionQueueClear, ensures_modify, ensures_announce]
  have hallowed : Continues crypto later.record .reset := trivial
  have hemptied : Emptied crypto answers
      { later with assertionQueue := {}, record := later.record ++ [.reset] } := by
    refine ⟨?_, rfl, hlater.shared.2⟩
    exact hlater.continuing.announced hallowed (by simp) rfl
      (hlater.continuing.timely.inactive rfl rfl) rfl fun hactive ↦ absurd hactive (by simp)
  simp only [maintains_bind]
  refine ((local_onDevice _).maintains stable_emptied hobserved hobserved hemptied).weaken
    fun wiped app₁ happ ↦ ?_
  simp only [maintains_ite, maintains_bind, maintains_pure]
  refine ⟨fun _ ↦ ⟨happ.continuing, happ.held⟩, fun _ ↦ ?_⟩
  refine ((local_onDevice _).maintains stable_emptied hobserved hobserved happ).weaken
    fun pinInit app₂ happ ↦ ?_
  rw [maintains_bind]
  refine maintains_of_stable (fun _ _ ↦ stable_emptied.rely) (hobserved app₂ happ) happ
    fun last hlast ↦ ?_
  rw [ensures_modify]
  refine ⟨⟨hlast.continuing.record, hlast.continuing.answers, fun hactive ↦ ?_,
    hlast.continuing.timely.inactive hlast.inactive rfl, hlast.continuing.counted⟩, hlast.held⟩
  exact absurd (hactive.symm.trans hlast.inactive) (by simp)

theorem preserves_handleReset (requestLen : ℕ) (listing : Listing) :
    Preserves crypto (handleReset crypto requestLen listing) := by
  unfold handleReset
  refine preserves_ite (preserves_pure _) ?_
  refine harmless_requestApproval.preserves.bind fun status ↦ ?_
  exact preserves_ite (preserves_pure _) (preserves_gated (preservesHeld_resetLocked listing))

end Reset

section System

variable {crypto : Crypto} {answers : List (ℕ × AssertionResponse)}

/-- What a command keeps, with what it answered. -/
def CommandSafe (crypto : Crypto) (answers : List (ℕ × AssertionResponse)) (sessionId : ℕ)
    (command : Command) (process : Process App CommandReply) (app : App) : Prop :=
  Maintains UiRely (Observed crypto answers) (fun reply app' ↦
    Continuing crypto (answers ++ answersOf sessionId command reply) app' ∧ app'.GateKept)
    (Observed crypto answers) process app

/-- A command that is no getNextAssertion. -/
theorem Preserves.commandSafe {sessionId : ℕ} {command : Command}
    {process : Process App CommandReply} {app : App} (h : Preserves crypto process)
    (hnone : ∀ reply, answersOf sessionId command reply = []) (happ : Continuing crypto answers app)
    (hgate : app.GateKept) : CommandSafe crypto answers sessionId command process app := by
  unfold CommandSafe
  simp only [hnone, List.append_nil]
  exact h answers app happ hgate

theorem commandSafe_handleCommand {capabilities : Capabilities} {sessionId : ℕ}
    {command : Command} {app : App} (happ : Continuing crypto answers app) (hgate : app.GateKept) :
    CommandSafe crypto answers sessionId command
      (handleCommand crypto capabilities sessionId command) app := by
  cases command with
  | getAssertion parsed =>
    exact preserves_handleGetAssertion.map.commandSafe (fun _ ↦ rfl) happ hgate
  | getNextAssertion requestBodyLen =>
    have hrefused : ∀ status, CommandSafe crypto answers sessionId
        (.getNextAssertion requestBodyLen) (.done (.error status)) app := by
      intro status
      show Continuing crypto (answers ++ []) app ∧ app.GateKept
      rw [List.append_nil]
      exact ⟨happ, hgate⟩
    unfold handleCommand
    dsimp only
    split_ifs
    · exact hrefused _
    · unfold CommandSafe
      rw [maintains_map]
      refine (maintains_assertionQueueHandleNext happ hgate).weaken fun reply app' hdone ↦ ?_
      cases reply with
      | error status => exact hdone
      | ok response => exact hdone
  | makeCredential createdAt parsed =>
    exact (preserves_handleMakeCredential _ _ _).map.commandSafe (fun _ ↦ rfl) happ hgate
  | reset requestBodyLen listing =>
    exact (preserves_handleReset _ _).map.commandSafe (fun _ ↦ rfl) happ hgate
  | selection requestBodyLen =>
    have hselection : Preserves crypto (handleSelection (requestBodyLen + 1)) :=
      preserves_ite (preserves_pure _) harmless_requestApproval.preserves
    exact hselection.map.commandSafe (fun _ ↦ rfl) happ hgate

theorem commandSafe_dispatchCommand {sessionId : ℕ} {command : Command} {app : App}
    (happ : Continuing crypto answers app) (hgate : app.GateKept) :
    CommandSafe crypto answers sessionId command (dispatchCommand crypto sessionId command) app := by
  have hrefused : ∀ (status : CtapStatus) (app' : App), Continuing crypto answers app' →
      app'.GateKept → Continuing crypto (answers ++ answersOf sessionId command (.error status))
        app' ∧ app'.GateKept := by
    intro status app' happ' hgate'
    have hnone : answersOf sessionId command (.error status) = [] := by cases command <;> rfl
    rw [hnone, List.append_nil]
    exact ⟨happ', hgate'⟩
  unfold CommandSafe dispatchCommand
  rw [maintains_bind]
  refine ((local_read _).harmless.preserves answers app happ hgate).weaken ?_
  rintro status app₁ ⟨happ, hgate⟩
  simp only [maintains_ite, maintains_bind, maintains_pure]
  refine ⟨fun _ ↦ hrefused status app₁ happ hgate, fun _ ↦ ?_⟩
  refine ((local_read _).harmless.preserves answers app₁ happ hgate).weaken ?_
  rintro capabilities app₂ ⟨happ, hgate⟩
  exact commandSafe_handleCommand happ hgate

/-- The invariant of the system. -/
def System.Safe (crypto : Crypto) (system : System) : Prop :=
  match system.running with
  | none => Continuing crypto system.answers system.app ∧ system.app.GateKept
  | some running => CommandSafe crypto system.answers running.sessionId running.command
      running.process system.app

theorem indifferent_observed : Indifferent (Observed crypto answers) := by
  refine ⟨⟨⟨?_, ?_⟩, fun _ _ h ↦ h⟩, fun _ _ _ h ↦ h⟩
  · rintro app app' heffect ⟨hrecord, hanswers, htimes, hcounted⟩
    cases heffect with
    | ended credentialId hui =>
      have happend : continuations (app.record ++ [.deleted credentialId]) =
          continuations app.record ++ continuations [.deleted credentialId] :=
        List.filterMap_append
      have hnone : continuations [.deleted credentialId] = [] := rfl
      rw [hnone, List.append_nil] at happend
      unfold Observed
      simp only [happend]
      exact ⟨everyEvent_concat.mpr ⟨hrecord, trivial⟩, hanswers, htimes, hcounted⟩
    | _ => exact ⟨hrecord, hanswers, htimes, hcounted⟩
  · rintro app app' hsame ⟨hrecord, hanswers, htimes, hcounted⟩
    unfold Observed
    rw [hsame.record, hsame.expiry]
    exact ⟨hrecord, hanswers, htimes, hcounted⟩

/-- A command stays safe whoever acts next. -/
theorem CommandSafe.interleave {sessionId : ℕ} {command : Command}
    {process : Process App CommandReply} {app : App}
    (h : CommandSafe crypto answers sessionId command process app)
    (schedule : List (Option UiEvent)) :
    CommandSafe crypto answers sessionId command (interleave uiStep process app schedule).1
      (interleave uiStep process app schedule).2 := by
  have hui : ∀ app event, UiEffect app (uiStep app event) := uiEffect_uiStep
  refine Maintains.interleave h (fun app event hobserved ↦ ?_) (fun reply app event hdone ↦ ?_)
    (fun app event hobserved ↦ ?_) schedule
  · exact indifferent_observed.ui app _ (hui app event) hobserved
  · exact ⟨indifferent_continuing.ui app _ (hui app event) hdone.1,
      stable_gateKept.ui app _ (hui app event) hdone.2⟩
  · exact indifferent_observed.ui app _ (hui app event) hobserved

theorem System.Safe.proceed {system : System} {running : Running}
    (h : CommandSafe crypto system.answers running.sessionId running.command running.process
      system.app) : (system.proceed running).Safe crypto := by
  have hstep : CommandSafe crypto system.answers running.sessionId running.command
      (running.process.step system.app).1 (running.process.step system.app).2 :=
    h.interleave [none]
  unfold System.proceed
  dsimp only
  split
  · rename_i reply hreply
    rw [eq_done_of_result? hreply] at hstep
    exact hstep
  · exact hstep

theorem System.Safe.step {system : System} (h : system.Safe crypto) (event : SystemEvent) :
    (systemStep crypto system event).Safe crypto := by
  unfold System.Safe at h
  cases hrunning : system.running with
  | none =>
    simp only [hrunning] at h
    obtain ⟨happ, hgate⟩ := h
    cases event with
    | receive sessionId command =>
      simp only [systemStep, hrunning]
      exact commandSafe_dispatchCommand happ hgate
    | proceed =>
      simp only [systemStep, hrunning, System.Safe]
      exact ⟨happ, hgate⟩
    | ui event =>
      simp only [systemStep, System.Safe, hrunning]
      exact ⟨indifferent_continuing.ui _ _ (uiEffect_uiStep _ event) happ,
        stable_gateKept.ui _ _ (uiEffect_uiStep _ event) hgate⟩
  | some running =>
    simp only [hrunning] at h
    cases event with
    | receive sessionId command =>
      simp only [systemStep, hrunning, System.Safe]
      exact h
    | proceed =>
      simp only [systemStep, hrunning]
      exact System.Safe.proceed h
    | ui event =>
      simp only [systemStep, System.Safe, hrunning]
      exact h.interleave [some event]

theorem System.Safe.observed {system : System} (h : system.Safe crypto) :
    Observed crypto system.answers system.app := by
  unfold System.Safe at h
  split at h
  · exact h.1.observed
  · rename_i running hrunning
    unfold CommandSafe at h
    cases hprocess : running.process with
    | done reply =>
      rw [hprocess] at h
      exact ⟨h.1.record, (List.prefix_append _ _).trans h.1.observed.2.1, h.1.timely.answered,
        h.1.counted⟩
    | stopped =>
      rw [hprocess] at h
      exact h
    | more advance rest =>
      rw [hprocess] at h
      exact h.1

/-- An authenticator that has just started, before the observer has seen anything. -/
structure System.Fresh (system : System) : Prop where
  running : system.running = none
  answers : system.answers = []
  record : system.app.record = []
  expiry : system.app.expiry = {}
  queue : system.app.assertionQueue.active = false
  gate : system.app.GateKept

theorem System.Fresh.safe {system : System} (h : system.Fresh) : system.Safe crypto := by
  unfold System.Safe
  rw [h.running]
  refine ⟨⟨?_, ?_, fun hactive ↦ ?_, ⟨fun hactive ↦ ?_, ?_⟩, ?_⟩, h.gate⟩
  · rw [h.record]
    exact everyEvent_nil
  · rw [h.record, h.answers]
    rfl
  · exact absurd (hactive.symm.trans h.queue) (by simp)
  · exact absurd (hactive.symm.trans h.queue) (by simp)
  · rw [h.expiry]
    simp
  · rw [h.record, h.expiry]
    rfl

/-- The last seeding of a record, and what came after it. -/
theorem FollowsSeeding.unique {record : List CtapEvent} {seeding seeding' : Seeding}
    {count count' : ℕ} (h : FollowsSeeding record seeding count)
    (h' : FollowsSeeding record seeding' count') : seeding = seeding' ∧ count = count' := by
  obtain ⟨earlier, later, hrecord, rfl, hlater⟩ := h
  obtain ⟨earlier', later', hrecord', rfl, hlater'⟩ := h'
  -- A seeding among the continuations that follow the other one is no continuation.
  have hnone : ∀ {seeding seeding' : Seeding} {later middle later' : List CtapEvent},
      (∀ event ∈ later, ∃ response, event = .continued seeding.sessionId response) →
      later ≠ middle ++ .seeded seeding' :: later' := by
    rintro seeding seeding' later middle later' hlater rfl
    obtain ⟨response, hresponse⟩ := hlater (.seeded seeding') (by simp)
    exact absurd hresponse (by simp)
  rcases List.append_eq_append_iff.mp (hrecord.symm.trans hrecord') with
    ⟨middle, -, hmiddle⟩ | ⟨middle, -, hmiddle⟩
  · cases middle with
    | nil =>
      obtain ⟨hseeding, rfl⟩ := List.cons.inj hmiddle
      exact ⟨CtapEvent.seeded.inj hseeding, rfl⟩
    | cons event middle => exact absurd (List.cons.inj hmiddle).2 (hnone hlater)
  · cases middle with
    | nil =>
      obtain ⟨hseeding, rfl⟩ := List.cons.inj hmiddle
      exact ⟨(CtapEvent.seeded.inj hseeding).symm, rfl⟩
    | cons event middle => exact absurd (List.cons.inj hmiddle).2 (hnone hlater')

/-- There are fewer continuations than matches. -/
theorem count_continuations {record before after : List CtapEvent} {seeding : Seeding} {count : ℕ}
    (h : EveryEvent (Continues crypto) record) (hbefore : record = before ++ after)
    (hfollows : FollowsSeeding before seeding count) :
    count ≤ seeding.credentialIds.length - 1 := by
  obtain ⟨earlier, later, hrecord, rfl, hlater⟩ := hfollows
  rcases List.eq_nil_or_concat later with rfl | ⟨rest, last, rfl⟩
  · exact Nat.zero_le _
  · obtain ⟨response, rfl⟩ := hlater last (by simp)
    have hsplit : record = (earlier ++ .seeded seeding :: rest) ++
        .continued seeding.sessionId response :: after := by
      rw [hbefore, hrecord]
      simp
    obtain ⟨seeding', count', hfollows, hanswers⟩ := h _ _ _ hsplit
    have hrest : FollowsSeeding (earlier ++ .seeded seeding :: rest) seeding rest.length :=
      ⟨earlier, rest, rfl, rfl, fun event hevent ↦ hlater event (by simp [hevent])⟩
    obtain ⟨rfl, rfl⟩ := hfollows.unique hrest
    have hbound := (List.getElem?_eq_some_iff.mp hanswers.credentialId).1
    rw [List.length_concat]
    omega

/-- In every run of the commands and the user interface, from any sessions and with any failures: a
getNextAssertion that has returned success is one of the continuations that the observer saw, in
their order, and each of these follows a getAssertion of its session that seeded the queue with the
matches of its request, with nothing in between but earlier continuations; the k-th of them is for
the match k, with the request, the RP and the flags of the seeding, and there are fewer of them than
matches. -/
theorem next_assertions_continue {system : System} (hfresh : system.Fresh)
    (events : List SystemEvent) :
    (run (systemStep crypto) system events).answers <+:
        continuations (run (systemStep crypto) system events).app.record ∧
      (∀ before event after,
        (run (systemStep crypto) system events).app.record = before ++ event :: after →
        Continues crypto before event) ∧
      ∀ before after seeding count,
        (run (systemStep crypto) system events).app.record = before ++ after →
        FollowsSeeding before seeding count → count ≤ seeding.credentialIds.length - 1 := by
  have hsafe : (run (systemStep crypto) system events).Safe crypto :=
    run_invariant_always (fun system event h ↦ h.step event) events hfresh.safe
  obtain ⟨hrecord, hanswers, -⟩ := hsafe.observed
  exact ⟨hanswers, hrecord, fun before after seeding count hsplit hfollows ↦
    count_continuations hrecord hsplit hfollows⟩

end System

section Samples

/-- Two credentials of the RP `a`. -/
def twoCredentials : System := { app := sampleApp [sampleRecord 1 1, sampleRecord 2 1] }

/-- A request without user presence, whose matches are queued. -/
def silentRequest : GetAssertionRequest := { sampleRequest with hasUp := true, up := false }

/-- A session sends a command, which runs to its end. -/
def completes (sessionId : ℕ) (command : Command) : List SystemEvent :=
  .receive sessionId command :: List.replicate 24 .proceed

/-- A getAssertion that seeds the queue. -/
def afterSeeding : System :=
  run (systemStep Crypto.standIn) twoCredentials (completes 0 (.getAssertion (.ok silentRequest)))

/-- The queue was seeded once, and answered once. -/
def isOneContinuation : List CtapEvent → Bool
  | [.accepted, .asserted _, .seeded _, .continued 0 _] => true
  | _ => false

/-- The queued match is answered. -/
theorem next_assertions_continue_twoCredentials :
    ∃ before seeding response,
      (run (systemStep Crypto.standIn) twoCredentials
        (completes 0 (.getAssertion (.ok silentRequest)) ++
          completes 0 (.getNextAssertion 0))).app.record = before ++ [.continued 0 response] ∧
      FollowsSeeding before seeding 0 ∧ seeding.Answers 1 0 response := by
  have hfresh : twoCredentials.Fresh := ⟨rfl, rfl, rfl, rfl, rfl, fun hui ↦ absurd rfl hui⟩
  have hshape : isOneContinuation (run (systemStep Crypto.standIn) twoCredentials
      (completes 0 (.getAssertion (.ok silentRequest)) ++
        completes 0 (.getNextAssertion 0))).app.record = true := by decide +kernel
  obtain ⟨-, hcontinues, -⟩ := @next_assertions_continue Crypto.standIn _ hfresh
    (completes 0 (.getAssertion (.ok silentRequest)) ++ completes 0 (.getNextAssertion 0))
  unfold isOneContinuation at hshape
  split at hshape
  · rename_i assertion seeding response hrecord
    rw [hrecord] at hcontinues ⊢
    have hseeded : FollowsSeeding [.accepted, .asserted assertion, .seeded seeding] seeding 0 :=
      ⟨[.accepted, .asserted assertion], [], rfl, rfl, by simp⟩
    obtain ⟨seeding', count, hfollows, hanswers⟩ :=
      hcontinues [.accepted, .asserted assertion, .seeded seeding] (.continued 0 response) [] rfl
    obtain ⟨rfl, rfl⟩ := hfollows.unique hseeded
    exact ⟨[.accepted, .asserted assertion, .seeded seeding'], seeding', response, rfl, hseeded,
      hanswers⟩
  · exact absurd hshape (by simp)

/-- Then a getAssertion with a PIN authentication and no PIN protocol, which the parser accepts. -/
def afterRejection : System :=
  run (systemStep Crypto.standIn) afterSeeding
    (completes 0 (.getAssertion (.ok { silentRequest with hasPinAuth := true })))

/-- A getAssertion that passes the parser and is refused for its parameters leaves the queue, and
the next getNextAssertion of the session continues the getAssertion before it. -/
theorem rejected_get_assertion_keeps_queue :
    (afterSeeding.app.record.getLast?.any fun event ↦ match event with
      | .seeded seeding => seeding.sessionId == 0
      | _ => false) = true ∧
    afterRejection.running.isNone = true ∧ afterRejection.answers = [] ∧
    (run (systemStep Crypto.standIn) afterRejection
      (completes 0 (.getNextAssertion 0))).answers.length = 1 := by
  decide +kernel

end Samples

end ZeroFido.Ctap
