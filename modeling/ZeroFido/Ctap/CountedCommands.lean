import ZeroFido.Ctap.SignCounts

/-!
# The commands that use and make sign counts

getAssertion and getNextAssertion take a count out of the files of a credential, reserve the window
behind it and publish it. Nobody else touches the index and the files meanwhile, since the command
has the gate (`Resting`). `emits_dispatchCommand`: whatever the command, wherever it is interrupted
and whatever fails, the counts stay in order, and one that is emitted is new.
-/

set_option autoImplicit false
set_option relaxedAutoImplicit false

namespace ZeroFido.Ctap

open Foundations Storage Store Process

section Rest

variable {Value : Type} {crypto : Crypto} {credentialId : Bytes} {least : ℕ}
  {files files' : Path → Option Bytes} {store store' : CredentialStore} {app app' : App}
  {entry : CredentialIndexEntry} {record : CredentialRecord}

/-- A command has the gate, over this index and these files. -/
structure Resting (files : Path → Option Bytes) (store : CredentialStore) (app : App) : Prop where
  held : app.Held
  files : app.device.files = files
  store : app.store = store

theorem Resting.atCount (h : Resting files store app)
    (hcount : AtCount crypto credentialId least files store) :
    app.AtCount crypto credentialId least := by
  unfold App.AtCount
  rw [h.files, h.store]
  exact hcount

theorem resting_between (hbetween : Between credentialId least app app')
    (h : Resting files store app) : Resting files store app' := by
  refine @Disturbs.stable _ _ uiStep app app' (Resting files store) (fun state event hstate ↦ ?_)
    hbetween.1 h
  have heffect := uiEffect_uiStep state event
  obtain ⟨hstore, -, -, milliseconds, hdevice⟩ := hstate.held.ui_eq heffect
  refine ⟨stable_held.ui _ _ heffect hstate.held, ?_, hstore.trans hstate.store⟩
  rw [hdevice]
  exact hstate.files

/-- The rule for a section under the gate. -/
theorem maintains_resting {program : Program App Value} {post : Value → App → Prop}
    (h : Resting files store app) (hcount : AtCount crypto credentialId least files store)
    (hprogram : ∀ later, Resting files store later →
      Ensures program post (Kept crypto credentialId least) later) :
    Maintains (Between credentialId least) (Kept crypto credentialId least) post
      (Kept crypto credentialId least) (atomically program) app := by
  rw [maintains_atomically]
  refine ⟨⟨h.atCount hcount, h.held.gateKept⟩, fun later hbetween ↦ ?_⟩
  exact hprogram later (resting_between hbetween h)

/-- The rule for a section under the gate that leaves the index and the files alone. -/
theorem maintains_resting_alike {program : Program App Value} {post : Value → Prop}
    (h : Resting files store app) (hcount : AtCount crypto credentialId least files store)
    (hprogram : ∀ later, Ensures program (fun value later' ↦ Alike later later' ∧ post value)
      (fun _ ↦ False) later) :
    Maintains (Between credentialId least) (Kept crypto credentialId least)
      (fun value app' ↦ Resting files store app' ∧ post value) (Kept crypto credentialId least)
      (atomically program) app := by
  refine maintains_resting h hcount fun later hlater ↦ ?_
  refine (hprogram later).mono ?_ fun _ hcut ↦ hcut.elim
  rintro value final ⟨halike, hpost⟩
  exact ⟨⟨hlater.held.of_eq halike.ui halike.maintenanceBusy,
    halike.files.trans hlater.files, halike.store.trans hlater.store⟩, hpost⟩

/-- A record that was loaded for an entry. -/
structure Taken (crypto : Crypto) (credentialId : Bytes) (least : ℕ)
    (files : Path → Option Bytes) (entry : CredentialIndexEntry) (record : CredentialRecord) :
    Prop where
  wellFormed : record.WellFormed
  named : record.credentialId = entry.credentialId
  drawn : entry.credentialId = credentialId → Drawn crypto files credentialId least record

/-- Loading the record of an entry under the gate. -/
theorem maintains_loadRecord_taken (hlaws : SealLaws crypto) (hopen : OpenKeepsLength crypto)
    (hlength : credentialId.length = credentialIdLen) (h : Resting files store app)
    (hcount : AtCount crypto credentialId least files store) (hentry : entry ∈ store) :
    Maintains (Between credentialId least) (Kept crypto credentialId least)
      (fun loaded app' ↦ ∃ files', Resting files' store app' ∧
        AtCount crypto credentialId least files' store ∧
        ∀ record, loaded = some record → Taken crypto credentialId least files' entry record)
      (Kept crypto credentialId least) (atomically (onDevice (loadRecord crypto entry))) app := by
  refine maintains_resting h hcount fun later hlater ↦ ?_
  rw [ensures_onDevice]
  have hcounts : CountsFrom crypto later.device.files credentialId least := by
    rw [hlater.files]
    exact hcount.counts
  refine (ensures_loadRecord_fades hlaws (hcount.lengths entry hentry) hlength hcounts).mono ?_ ?_
  · rintro loaded device ⟨hfades, hsame, hfound⟩
    rw [hlater.files] at hfades hsame hfound
    refine ⟨device.files, ⟨hlater.held, rfl, hlater.store⟩,
      hcount.fades hfades (List.Sublist.refl _), fun record hrecord ↦ ?_⟩
    have hfound := hfound record hrecord
    obtain ⟨hwellFormed, hname⟩ := wellFormed_of_loadFound hopen hfound
    refine ⟨hwellFormed, hexEncode_injective (hwellFormed.fileName.symm.trans hname), fun hid ↦ ?_⟩
    rw [hsame hid]
    rw [hid] at hfound
    exact hcount.counts.loaded hfound
  · intro device hfades
    rw [hlater.files] at hfades
    refine ⟨?_, hlater.held.gateKept⟩
    unfold App.AtCount
    rw [hlater.store]
    exact hcount.fades hfades (List.Sublist.refl _)

end Rest

section Publication

variable {crypto : Crypto} {credentialId : Bytes} {least highWater : ℕ}
  {files files' : Path → Option Bytes} {store store' : CredentialStore} {app app' : App}
  {entry : CredentialIndexEntry} {record : CredentialRecord} {response : AssertionResponse}

/-- The record with the count that is published for it. -/
def counted (record : CredentialRecord) : CredentialRecord :=
  { record with signCount := record.signCount + 1 }

/-- A publication for another credential. -/
theorem AtCount.published (h : AtCount crypto credentialId least files store)
    (hother : record.credentialId ≠ credentialId)
    (hpublish : publishCounterAdvance store record highWater = some store') :
    AtCount crypto credentialId least files store' := by
  obtain ⟨index, found, hindex, hfound, -, -, rfl⟩ := publishCounterAdvance_eq_some hpublish
  refine ⟨h.counts, fun entry hentry ↦ ?_⟩
  rcases List.mem_or_eq_of_mem_set hentry with hentry | rfl
  · exact h.indexed entry hentry
  · obtain ⟨hlength, hmatches, -⟩ := List.findIdx?_eq_some_iff_getElem.mp hindex
    obtain ⟨_, hget⟩ := List.getElem?_eq_some_iff.mp hfound
    rw [hget, Bool.and_eq_true, beq_iff_eq] at hmatches
    refine ⟨(h.indexed found (List.mem_of_getElem? hfound)).1, fun hid ↦ absurd ?_ hother⟩
    exact hmatches.2.symm.trans hid

/-- The publication of a count that the files have reserved. -/
theorem AtCount.advanced (h : AtCount crypto credentialId least files store)
    (hdrawn : Drawn crypto files credentialId least record)
    (hcounts : CountsFrom crypto files' credentialId highWater)
    (hkept : ∀ other, other.credentialId = credentialId → Settled crypto files other →
      Settled crypto files' other)
    (hmarked : ∀ other, other.credentialId = credentialId → other.counterHighWater ≤ highWater →
      Settled crypto files' other) (hpast : record.signCount < highWater)
    (hpublish : publishCounterAdvance store (counted record) highWater = some store') :
    AtCount crypto credentialId highWater files' store' := by
  obtain ⟨index, found, -, hfound, hallowed, -, rfl⟩ := publishCounterAdvance_eq_some hpublish
  refine ⟨hcounts, fun entry hentry ↦ ?_⟩
  rcases List.mem_or_eq_of_mem_set hentry with hentry | rfl
  · exact ⟨(h.indexed entry hentry).1, fun hid ↦ hkept entry hid ((h.indexed entry hentry).2 hid)⟩
  · have hindexed := h.indexed found (List.mem_of_getElem? hfound)
    refine ⟨hindexed.1, fun hid ↦ hmarked _ hid ?_⟩
    have hfoundId : found.credentialId = credentialId := hid
    rw [← hfoundId] at hdrawn
    have hmark := (hindexed.2 hfoundId).mark_le hdrawn (Nat.le_of_lt hpast)
    have hallowed' : found.signCount ≤ record.signCount + 1 := hallowed
    -- The mark that is kept is that of a fresh entry, and so at most the new count.
    show (if found.counterHighWater < record.signCount + 1 then highWater
      else found.counterHighWater) ≤ highWater
    split_ifs with hcross
    · exact le_rfl
    · rcases hmark with ⟨hfresh, -⟩ | hmark
      · omega
      · exact hmark

/-- What a reservation allows to be published. -/
structure Publishable (crypto : Crypto) (credentialId : Bytes) (least : ℕ)
    (files : Path → Option Bytes) (store : CredentialStore) (record : CredentialRecord)
    (highWater : ℕ) : Prop where
  kept : ∀ store', publishCounterAdvance store (counted record) highWater = some store' →
    AtCount crypto credentialId least files store'
  advanced : record.credentialId = credentialId → least ≤ record.signCount ∧
    record.signCount < highWater ∧
    ∀ store', publishCounterAdvance store (counted record) highWater = some store' →
      AtCount crypto credentialId highWater files store'

/-- Reserving counts under the gate. -/
theorem maintains_prepareCounterAdvance (hlaws : SealLaws crypto)
    (hlength : credentialId.length = credentialIdLen) (h : Resting files store app)
    (hcount : AtCount crypto credentialId least files store) (hentry : entry ∈ store)
    (htaken : Taken crypto credentialId least files entry record)
    (hroom : record.signCount < uint32Max) :
    Maintains (Between credentialId least) (Kept crypto credentialId least)
      (fun result app' ↦ ∃ files', Resting files' store app' ∧
        AtCount crypto credentialId least files' store ∧ ∀ highWater, result = some highWater →
          Publishable crypto credentialId least files' store record highWater)
      (Kept crypto credentialId least)
      (atomically (onDevice (prepareCounterAdvance crypto entry (counted record)))) app := by
  refine maintains_resting h hcount fun later hlater ↦ ?_
  have hcrash : ∀ device : Pin.Device, AtCount crypto credentialId least device.files store →
      Kept crypto credentialId least { later with device } := by
    intro device hdevice
    refine ⟨?_, hlater.held.gateKept⟩
    unfold App.AtCount
    rw [hlater.store]
    exact hdevice
  have hresting : ∀ device : Pin.Device, Resting device.files store { later with device } :=
    fun device ↦ ⟨hlater.held, rfl, hlater.store⟩
  rw [ensures_onDevice]
  by_cases hid : entry.credentialId = credentialId
  · -- The credential's own reservation.
    have hdrawn := htaken.drawn hid
    have hsettled := (hcount.indexed entry hentry).2 hid
    have hindexes : ∀ final : Path → Option Bytes, (∀ other, other.credentialId = credentialId →
        Settled crypto files other → Settled crypto final other) → ∀ other ∈ store,
          Indexes crypto credentialId final other := fun final hkept other hother ↦
      ⟨(hcount.indexed other hother).1, fun hotherId ↦
        hkept other hotherId ((hcount.indexed other hother).2 hotherId)⟩
    have hcounts := hcount.counts
    rw [← hlater.files] at hcounts hdrawn hsettled
    have hrun := ensures_prepareCounterAdvance_counts hlaws htaken.wellFormed hroom hcounts hdrawn
      hid hsettled
    rw [hlater.files] at hdrawn hrun
    refine hrun.mono ?_ fun device hcut ↦ hcrash device ⟨hcut.1, hindexes _ hcut.2⟩
    rintro result device ⟨hcounts', hkept, hdone⟩
    refine ⟨device.files, hresting device, ⟨hcounts', hindexes _ hkept⟩, fun highWater hresult ↦ ?_⟩
    obtain ⟨hpast, hcountsHigh, hmarked⟩ := hdone highWater hresult
    have hadvanced : ∀ store', publishCounterAdvance store (counted record) highWater =
        some store' → AtCount crypto credentialId highWater device.files store' :=
      fun store' hpublish ↦ hcount.advanced hdrawn hcountsHigh hkept hmarked hpast hpublish
    exact ⟨fun store' hpublish ↦ (hadvanced store' hpublish).lower
      (hdrawn.least_le.trans (Nat.le_of_lt hpast)), fun _ ↦ ⟨hdrawn.least_le, hpast, hadvanced⟩⟩
  · -- That of another one.
    have hother : record.credentialId ≠ credentialId := fun hsame ↦ hid (htaken.named ▸ hsame)
    have hwellFormed : (counted record).WellFormed := { htaken.wellFormed with signCount := hroom }
    have hname : record.fileName ≠ hexEncode credentialId := by
      rw [htaken.wellFormed.fileName]
      exact fun hsame ↦ hother (hexEncode_injective hsame)
    have hfades : ∀ device, Within record.fileName later.device device →
        AtCount crypto credentialId least device.files store := by
      intro device hwithin
      have hfades := hwithin.fades htaken.wellFormed.isRecord hlength hname
      rw [hlater.files] at hfades
      exact hcount.fades hfades (List.Sublist.refl _)
    refine (ensures_prepareCounterAdvance_within hlaws hwellFormed).mono ?_
      fun device hcut ↦ hcrash device (hfades device hcut)
    intro result device hwithin
    have hatCount := hfades device hwithin
    have hotherCounted : (counted record).credentialId ≠ credentialId := hother
    exact ⟨device.files, hresting device, hatCount, fun highWater _ ↦
      ⟨fun store' hpublish ↦ hatCount.published hotherCounted hpublish,
        fun hsame ↦ absurd hsame hother⟩⟩

/-- The count of an answer, if it is about the credential. -/
def countOf (credentialId : Bytes) : Reply AssertionResponse → Option ℕ
  | .ok response =>
    if response.credentialId = credentialId then some response.signCount else none
  | .error _ => none

/-- What both publications come to: the answer with the new count in the index, or a refusal. -/
structure Publishes (record : CredentialRecord) (highWater : ℕ) (response : AssertionResponse)
    (app : App) (reply : Reply AssertionResponse) (app' : App) : Prop where
  files : app'.device.files = app.device.files
  maintenanceBusy : app'.maintenanceBusy = app.maintenanceBusy
  ui : app'.ui = app.ui
  outcome : (∃ status, reply = .error status) ∧ app'.store = app.store ∨
    reply = .ok response ∧
      publishCounterAdvance app.store (counted record) highWater = some app'.store

/-- Publishing under the gate what was reserved. -/
theorem maintains_publishes {program : Program App (Reply AssertionResponse)}
    (h : Resting files store app) (hcount : AtCount crypto credentialId least files store)
    (hpublishable : Publishable crypto credentialId least files store record highWater)
    (hid : response.credentialId = record.credentialId)
    (hsign : response.signCount = record.signCount + 1)
    (hprogram : ∀ later, Ensures program (Publishes record highWater response later)
      (fun _ ↦ False) later) :
    Maintains (Between credentialId least) (Kept crypto credentialId least)
      (fun reply ↦ Emission crypto credentialId least App.Held (countOf credentialId reply))
      (Kept crypto credentialId least) (atomically program) app := by
  refine maintains_resting h hcount fun later hlater ↦ ?_
  refine (hprogram later).mono ?_ fun _ hcut ↦ hcut.elim
  rintro reply final ⟨hfiles, hbusy, hui, houtcome⟩
  have hheld : final.Held := hlater.held.of_eq hui hbusy
  have hatCount : ∀ count, AtCount crypto credentialId count files final.store →
      final.AtCount crypto credentialId count := by
    intro count hcount'
    unfold App.AtCount
    rw [hfiles, hlater.files]
    exact hcount'
  rcases houtcome with ⟨⟨status, rfl⟩, hstore⟩ | ⟨rfl, hpublish⟩
  · refine ⟨hatCount least ?_, hheld, fun new hnew ↦ absurd hnew (by simp [countOf])⟩
    rw [hstore, hlater.store]
    exact hcount
  · rw [hlater.store] at hpublish
    refine ⟨hatCount least (hpublishable.kept _ hpublish), hheld, fun new hnew ↦ ?_⟩
    simp only [countOf] at hnew
    split_ifs at hnew with hsame
    obtain rfl := Option.some.inj hnew
    obtain ⟨hleast, hpast, hadvanced⟩ := hpublishable.advanced (hid.symm.trans hsame)
    rw [hsign]
    exact ⟨Nat.lt_succ_of_le hleast, hatCount _ ((hadvanced _ hpublish).lower hpast)⟩

theorem ensures_publishAssertion_publishes {call : AssertionCall} {recordIndex : ℕ}
    {matchIndices : List ℕ} {seedAssertionQueue : Bool} :
    Ensures (publishAssertion call recordIndex (counted record) highWater matchIndices
        seedAssertionQueue response)
      (Publishes record highWater response app) (fun _ ↦ False) app := by
  unfold publishAssertion
  rw [ensures_bind, ensures_get, ensures_ite]
  refine ⟨fun _ ↦ ⟨rfl, rfl, rfl, Or.inl ⟨⟨_, rfl⟩, rfl⟩⟩, fun _ ↦ ?_⟩
  cases hpublish : publishCounterAdvance app.store (counted record) highWater with
  | none => exact ⟨rfl, rfl, rfl, Or.inl ⟨⟨_, rfl⟩, rfl⟩⟩
  | some store =>
    simp only [announce, assertionQueueClear, assertionQueueSeed, ensures_bind, ensures_modify,
      ensures_ite, ensures_pure, ensures_onDevice, getTick, ensures_get]
    exact ⟨fun _ ↦ ⟨fun _ ↦ ⟨rfl, rfl, rfl, Or.inr ⟨rfl, hpublish⟩⟩,
      fun _ ↦ ⟨rfl, rfl, rfl, Or.inr ⟨rfl, hpublish⟩⟩⟩,
      fun _ ↦ ⟨rfl, rfl, rfl, Or.inr ⟨rfl, hpublish⟩⟩⟩

theorem ensures_publishNextAssertion_publishes {sessionId queueIndex recordIndex matchCount : ℕ}
    {rpId : Bytes} :
    Ensures (publishNextAssertion sessionId queueIndex recordIndex matchCount rpId (counted record)
        highWater response)
      (Publishes record highWater response app) (fun _ ↦ False) app := by
  unfold publishNextAssertion
  simp only [ensures_bind, ensures_get, ensures_ite, assertionQueueClear, ensures_modify,
    ensures_pure]
  refine ⟨fun _ ↦ ⟨fun _ ↦ ⟨rfl, rfl, rfl, Or.inl ⟨⟨_, rfl⟩, rfl⟩⟩,
    fun _ ↦ ⟨rfl, rfl, rfl, Or.inl ⟨⟨_, rfl⟩, rfl⟩⟩⟩, fun _ ↦ ?_⟩
  cases hpublish : publishCounterAdvance app.store (counted record) highWater with
  | none => exact ⟨rfl, rfl, rfl, Or.inl ⟨⟨_, rfl⟩, rfl⟩⟩
  | some store =>
    simp only [announce, ensures_bind, ensures_modify, ensures_pure, ensures_onDevice, getTick,
      ensures_get]
    exact ⟨rfl, rfl, rfl, Or.inr ⟨rfl, hpublish⟩⟩

end Publication

section Answers

variable {crypto : Crypto} {credentialId : Bytes} {least : ℕ} {files : Path → Option Bytes}
  {store : CredentialStore} {app : App} {entry : CredentialIndexEntry} {record : CredentialRecord}

/-- A refusal emits nothing. -/
theorem Resting.refused (h : Resting files store app)
    (hcount : AtCount crypto credentialId least files store) (status : CtapStatus) :
    Emission crypto credentialId least App.Held (countOf credentialId (.error status)) app :=
  ⟨h.atCount hcount, h.held, fun new hnew ↦ absurd hnew (by simp [countOf])⟩

theorem mem_of_snapshotIndexEntryLocked {recordIndex : ℕ}
    (h : snapshotIndexEntryLocked app recordIndex = some entry) : entry ∈ app.store := by
  obtain ⟨found, hfound, h⟩ := Option.bind_eq_some_iff.mp h
  split_ifs at h
  obtain rfl := Option.some.inj h
  exact List.mem_of_getElem? hfound

theorem maintains_snapshot_resting (h : Resting files store app)
    (hcount : AtCount crypto credentialId least files store) (recordIndex : ℕ) :
    Maintains (Between credentialId least) (Kept crypto credentialId least)
      (fun found app' ↦ Resting files store app' ∧ ∀ entry, found = some entry → entry ∈ store)
      (Kept crypto credentialId least)
      (atomically (return snapshotIndexEntryLocked (← get) recordIndex)) app := by
  refine maintains_resting h hcount fun later hlater ↦ ?_
  rw [ensures_bind, ensures_get, ensures_pure]
  refine ⟨hlater, fun entry hentry ↦ ?_⟩
  rw [← hlater.store]
  exact mem_of_snapshotIndexEntryLocked hentry

/-- Building the response for a record. -/
theorem maintains_prepareAssertionResponse_resting (h : Resting files store app)
    (hcount : AtCount crypto credentialId least files store) {request : AssertionRequestData}
    {userPresent uvVerified includeUserDetails includeCount : Bool} {matchCount : ℕ}
    {userSelected includeUserSelected : Bool} :
    Maintains (Between credentialId least) (Kept crypto credentialId least)
      (fun reply app' ↦ Resting files store app' ∧ ∀ response, reply = .ok response →
        record.signCount ≠ uint32Max ∧ response.credentialId = record.credentialId ∧
          response.signCount = record.signCount + 1)
      (Kept crypto credentialId least)
      (atomically (prepareAssertionResponse request record userPresent uvVerified
        includeUserDetails includeCount matchCount userSelected includeUserSelected)) app := by
  refine maintains_resting_alike h hcount fun later ↦ ?_
  have hsame : ∀ statuses, Alike later { later with statuses } := fun _ ↦ ⟨rfl, rfl, rfl, rfl⟩
  simp only [prepareAssertionResponse, ensures_ite, ensures_pure, ensures_bind, nextStatus,
    ensures_modifyGet]
  refine ⟨fun _ ↦ ⟨⟨rfl, rfl, rfl, rfl⟩, by simp⟩, fun hroom ↦ ⟨fun _ ↦ ⟨hsame _, by simp⟩,
    fun _ ↦ ⟨fun _ ↦ ⟨hsame _, by simp⟩, fun _ ↦ ⟨hsame _, fun response hreply ↦ ?_⟩⟩⟩⟩
  rw [← Except.ok.inj hreply]
  exact ⟨hroom, rfl, rfl⟩

theorem maintains_pollCborControl_resting (h : Resting files store app)
    (hcount : AtCount crypto credentialId least files store) :
    Maintains (Between credentialId least) (Kept crypto credentialId least)
      (fun _ app' ↦ Resting files store app') (Kept crypto credentialId least) pollCborControl
      app := by
  refine (maintains_resting_alike h hcount (show ∀ later, Ensures nextStatus
    (fun _ later' ↦ Alike later later' ∧ True) (fun _ ↦ False) later from fun _ ↦
      ⟨⟨rfl, rfl, rfl, rfl⟩, trivial⟩)).weaken fun _ _ hresting ↦ hresting.1

variable (hlaws : SealLaws crypto) (hopen : OpenKeepsLength crypto)
  (hlength : credentialId.length = credentialIdLen)

include hlaws hopen hlength

theorem maintains_loadAssertionRecord_taken (h : Resting files store app)
    (hcount : AtCount crypto credentialId least files store) (recordIndex : ℕ) (rpId : Bytes) :
    Maintains (Between credentialId least) (Kept crypto credentialId least)
      (fun found app' ↦ ∃ files', Resting files' store app' ∧
        AtCount crypto credentialId least files' store ∧
        ∀ record entry, found = some (record, entry) →
          entry ∈ store ∧ Taken crypto credentialId least files' entry record)
      (Kept crypto credentialId least) (loadAssertionRecord crypto recordIndex rpId) app := by
  have hnone : ∀ {files' : Path → Option Bytes} {app' : App}, Resting files' store app' →
      AtCount crypto credentialId least files' store →
      ∃ files', Resting files' store app' ∧ AtCount crypto credentialId least files' store ∧
        ∀ record entry, (none : Option (CredentialRecord × CredentialIndexEntry)) =
          some (record, entry) →
            entry ∈ store ∧ Taken crypto credentialId least files' entry record :=
    fun hresting hcount' ↦ ⟨_, hresting, hcount', by simp⟩
  unfold loadAssertionRecord
  rw [maintains_bind]
  refine (maintains_snapshot_resting h hcount recordIndex).weaken ?_
  rintro found app' ⟨hresting, hentry⟩
  cases found with
  | none => exact hnone hresting hcount
  | some entry =>
    dsimp only
    rw [maintains_bind]
    refine (maintains_loadRecord_taken hlaws hopen hlength hresting hcount
      (hentry entry rfl)).weaken ?_
    rintro loaded app'' ⟨files', hresting', hcount', htaken⟩
    cases loaded with
    | none => exact hnone hresting' hcount'
    | some record =>
      dsimp only
      rw [maintains_ite]
      refine ⟨fun _ ↦ hnone hresting' hcount', fun _ ↦ ⟨files', hresting', hcount', ?_⟩⟩
      rintro _ _ ⟨⟩
      exact ⟨hentry entry rfl, htaken record rfl⟩

omit hopen in
/-- The end of getAssertion, from the record and its response on. -/
theorem maintains_publishAssertionCounter_emission (h : Resting files store app)
    (hcount : AtCount crypto credentialId least files store) (hentry : entry ∈ store)
    (htaken : Taken crypto credentialId least files entry record)
    (hroom : record.signCount ≠ uint32Max) {response : AssertionResponse}
    (hid : response.credentialId = record.credentialId)
    (hsign : response.signCount = record.signCount + 1) {call : AssertionCall} {recordIndex : ℕ}
    {matchIndices : List ℕ} {seedAssertionQueue : Bool} :
    Maintains (Between credentialId least) (Kept crypto credentialId least)
      (fun reply ↦ Emission crypto credentialId least App.Held (countOf credentialId reply))
      (Kept crypto credentialId least)
      (publishAssertionCounter crypto call recordIndex entry record matchIndices seedAssertionQueue
        response) app := by
  unfold publishAssertionCounter
  rw [maintains_bind]
  refine (maintains_prepareCounterAdvance hlaws hlength h hcount hentry htaken
    (Nat.lt_of_le_of_ne htaken.wellFormed.signCount hroom)).weaken ?_
  rintro result app' ⟨files', hresting, hcount', hpublishable⟩
  cases result with
  | none => exact hresting.refused hcount' _
  | some highWater =>
    exact maintains_publishes hresting hcount' (hpublishable highWater rfl) hid hsign
      fun _ ↦ ensures_publishAssertion_publishes

theorem emits_answerAssertion (call : AssertionCall) (recordIndex : ℕ) (matchIndices : List ℕ)
    (matchCount : ℕ) :
    Emits crypto credentialId least App.Held (countOf credentialId)
      (answerAssertion crypto call recordIndex matchIndices matchCount) := by
  intro app happ hheld
  have hresting : Resting app.device.files app.store app := ⟨hheld, rfl, rfl⟩
  unfold answerAssertion
  dsimp only
  rw [maintains_bind]
  refine (maintains_loadAssertionRecord_taken hlaws hopen hlength hresting happ _ _).weaken ?_
  rintro found first ⟨files, hfirst, hcount, htaken⟩
  cases found with
  | none => exact hfirst.refused hcount _
  | some found =>
    obtain ⟨record, entry⟩ := found
    obtain ⟨hentry, htaken⟩ := htaken record entry rfl
    dsimp only
    rw [maintains_bind]
    refine (maintains_prepareAssertionResponse_resting hfirst hcount).weaken ?_
    rintro reply second ⟨hsecond, hresponse⟩
    cases reply with
    | error status => exact hsecond.refused hcount _
    | ok response =>
      obtain ⟨hroom, hid, hsign⟩ := hresponse response rfl
      dsimp only
      rw [maintains_ite]
      refine ⟨fun _ ↦ ?_, fun _ ↦ ?_⟩
      · rw [maintains_bind]
        refine (maintains_pollCborControl_resting hsecond hcount).weaken ?_
        intro status third hthird
        rw [maintains_ite]
        refine ⟨fun _ ↦ hthird.refused hcount _, fun _ ↦ ?_⟩
        exact maintains_publishAssertionCounter_emission hlaws hlength hthird hcount hentry htaken
          hroom hid hsign
      · exact maintains_publishAssertionCounter_emission hlaws hlength hsecond hcount hentry htaken
          hroom hid hsign

omit hlaws hopen hlength in
/-- The section of getNextAssertion that reads the queue. -/
theorem maintains_readAssertionQueue_resting (h : Resting files store app)
    (hcount : AtCount crypto credentialId least files store) (sessionId : ℕ) :
    Maintains (Between credentialId least) (Kept crypto credentialId least)
      (fun reply app' ↦ Resting files store app' ∧
        ∀ queue entry, reply = .ok (queue, entry) → entry ∈ store)
      (Kept crypto credentialId least) (atomically (readAssertionQueue sessionId)) app := by
  refine maintains_resting h hcount fun later hlater ↦ ?_
  have hsame : ∀ app' : App, Alike later app' → Resting files store app' := fun app' halike ↦
    ⟨hlater.held.of_eq halike.ui halike.maintenanceBusy,
      halike.files.trans hlater.files, halike.store.trans hlater.store⟩
  have hrefused : ∀ (app' : App) (status : CtapStatus), Alike later app' →
      Resting files store app' ∧ ∀ queue entry,
        (.error status : Reply (AssertionQueue × CredentialIndexEntry)) = .ok (queue, entry) →
          entry ∈ store := fun app' status halike ↦ ⟨hsame app' halike, by simp⟩
  simp only [readAssertionQueue, getTick, ensures_bind, ensures_get, ensures_onDevice,
    ensures_pure, ensures_ite, ensures_modify, assertionQueueClear]
  refine ⟨fun _ ↦ ?_, fun _ ↦ ?_⟩
  all_goals
    refine ⟨fun _ ↦ hrefused _ _ ⟨rfl, rfl, rfl, rfl⟩, fun _ ↦
      ⟨fun _ ↦ hrefused _ _ ⟨rfl, rfl, rfl, rfl⟩, fun _ ↦ ?_⟩⟩
    cases hentry : snapshotIndexEntryLocked later
        (later.assertionQueue.recordIndices.getD later.assertionQueue.index 0) with
    | none =>
      simp only [ensures_bind, ensures_modify, ensures_pure]
      exact hrefused _ _ ⟨rfl, rfl, rfl, rfl⟩
    | some found =>
      rw [ensures_pure]
      refine ⟨hsame _ ⟨rfl, rfl, rfl, rfl⟩, ?_⟩
      rintro queue entry ⟨⟩
      rw [← hlater.store]
      exact mem_of_snapshotIndexEntryLocked hentry

omit hlaws hopen hlength in
/-- A refusal that clears the queue first. -/
theorem maintains_clearIfCurrent_refused (h : Resting files store app)
    (hcount : AtCount crypto credentialId least files store)
    {sessionId queueIndex recordIndex count : ℕ} {rpId : Bytes} {status : CtapStatus} :
    Maintains (Between credentialId least) (Kept crypto credentialId least)
      (fun reply ↦ Emission crypto credentialId least App.Held (countOf credentialId reply))
      (Kept crypto credentialId least) (do
        assertionQueueClearIfCurrent sessionId queueIndex recordIndex count rpId
        return .error status) app := by
  have hclear : ∀ later, Ensures (do
      if assertionQueueStillCurrentLocked (← get).assertionQueue sessionId queueIndex recordIndex
          count rpId then
        assertionQueueClear)
      (fun _ later' ↦ Alike later later' ∧ True) (fun _ ↦ False) later := by
    intro later
    simp only [assertionQueueClear, ensures_bind, ensures_get, ensures_ite, ensures_modify,
      ensures_pure]
    exact ⟨fun _ ↦ ⟨⟨rfl, rfl, rfl, rfl⟩, trivial⟩, fun _ ↦ ⟨⟨rfl, rfl, rfl, rfl⟩, trivial⟩⟩
  rw [maintains_bind]
  exact (maintains_resting_alike h hcount hclear).weaken
    fun _ app' hresting ↦ hresting.1.refused hcount status

theorem emits_answerNextAssertion (sessionId : ℕ) :
    Emits crypto credentialId least App.Held (countOf credentialId)
      (answerNextAssertion crypto sessionId) := by
  intro app happ hheld
  have hresting : Resting app.device.files app.store app := ⟨hheld, rfl, rfl⟩
  unfold answerNextAssertion
  rw [maintains_bind]
  refine (maintains_readAssertionQueue_resting hresting happ sessionId).weaken ?_
  rintro reply first ⟨hfirst, hentry⟩
  cases reply with
  | error status => exact hfirst.refused happ _
  | ok read =>
    obtain ⟨queue, entry⟩ := read
    replace hentry := hentry queue entry rfl
    dsimp only
    rw [maintains_bind]
    refine (maintains_loadRecord_taken hlaws hopen hlength hfirst happ hentry).weaken ?_
    rintro loaded second ⟨files, hsecond, hcount, htaken⟩
    cases loaded with
    | none => exact maintains_clearIfCurrent_refused hsecond hcount
    | some record =>
      replace htaken := htaken record rfl
      dsimp only
      rw [maintains_ite]
      refine ⟨fun _ ↦ maintains_clearIfCurrent_refused hsecond hcount, fun _ ↦ ?_⟩
      rw [maintains_ite]
      refine ⟨fun _ ↦ maintains_clearIfCurrent_refused hsecond hcount, fun _ ↦ ?_⟩
      rw [maintains_bind]
      refine (maintains_prepareAssertionResponse_resting hsecond hcount).weaken ?_
      rintro reply third ⟨hthird, hresponse⟩
      cases reply with
      | error status => exact hthird.refused hcount _
      | ok response =>
        obtain ⟨hroom, hid, hsign⟩ := hresponse response rfl
        dsimp only
        rw [maintains_bind]
        refine (maintains_pollCborControl_resting hthird hcount).weaken ?_
        intro status fourth hfourth
        rw [maintains_ite]
        refine ⟨fun _ ↦ maintains_clearIfCurrent_refused hfourth hcount, fun _ ↦ ?_⟩
        rw [maintains_bind]
        refine (maintains_prepareCounterAdvance hlaws hlength hfourth hcount hentry htaken
          (Nat.lt_of_le_of_ne htaken.wellFormed.signCount hroom)).weaken ?_
        rintro result fifth ⟨files', hfifth, hcount', hpublishable⟩
        cases result with
        | none => exact maintains_clearIfCurrent_refused hfifth hcount'
        | some highWater =>
          exact maintains_publishes hfifth hcount' (hpublishable highWater rfl) hid hsign
            fun _ ↦ ensures_publishNextAssertion_publishes

end Answers

section Assertions

variable {crypto : Crypto} {credentialId : Bytes} {least : ℕ} {gate : App → Prop}

theorem orderly_pollCborControl (hlength : credentialId.length = credentialIdLen)
    (hgate : GateProperty credentialId gate) :
    Orderly crypto credentialId least gate pollCborControl :=
  orderly_nextStatus hlength hgate

theorem orderly_resolveAssertionMatchesSnapshot (hlength : credentialId.length = credentialIdLen)
    (hgate : GateProperty credentialId gate) {request : GetAssertionRequest} {uvVerified : Bool} :
    Orderly crypto credentialId least gate
      (resolveAssertionMatchesSnapshot crypto request uvVerified) := by
  refine orderly_alike hlength hgate fun app ↦ ?_
  simp only [ensures_bind, ensures_modify, ensures_get, ensures_pure]
  exact ⟨rfl, rfl, rfl, rfl⟩

theorem emits_refusal {status : CtapStatus} :
    Emits crypto credentialId least gate (countOf credentialId)
      (pure (.error status) : Process App (Reply AssertionResponse)) :=
  emits_pure rfl

variable (hlaws : SealLaws crypto) (hopen : OpenKeepsLength crypto)
  (hlength : credentialId.length = credentialIdLen)

include hlaws hopen hlength

theorem emits_finishAssertion (call : AssertionCall) (recordIndex : ℕ) :
    Emits crypto credentialId least App.GateKept (countOf credentialId)
      (finishAssertion crypto call recordIndex) := by
  refine emits_gated hlength rfl (emits_ite ?_ (emits_answerAssertion hlaws hopen hlength _ _ _ _))
  refine (orderly_resolveAssertionMatchesSnapshot hlength gateProperty_held).bindEmits
    fun matchIndices ↦ ?_
  cases matchIndices with
  | nil => exact emits_refusal
  | cons first others => exact emits_answerAssertion hlaws hopen hlength _ _ _ _

theorem emits_assertionQueueHandleNext (sessionId : ℕ) :
    Emits crypto credentialId least App.GateKept (countOf credentialId)
      (assertionQueueHandleNext crypto sessionId) := by
  refine (orderly_pollCborControl hlength gateProperty_gateKept).bindEmits fun status ↦
    emits_ite ?_ (emits_gated hlength rfl (emits_answerNextAssertion hlaws hopen hlength sessionId))
  refine (orderly_alike hlength gateProperty_gateKept fun app ↦ ?_).bindEmits fun _ ↦ emits_refusal
  rw [assertionQueueClear, ensures_modify]
  exact ⟨rfl, rfl, rfl, rfl⟩

theorem emits_selectAssertion (capabilities : Capabilities) (sessionId : ℕ)
    (request : GetAssertionRequest) (uvVerified : Bool) :
    Emits crypto credentialId least App.GateKept (countOf credentialId)
      (selectAssertion crypto capabilities sessionId request uvVerified) := by
  have hfinish := fun call recordIndex ↦
    @emits_finishAssertion crypto credentialId least hlaws hopen hlength call recordIndex
  have hpoll := @orderly_pollCborControl crypto credentialId least _ hlength gateProperty_gateKept
  refine emits_ite (hfinish _ _) ?_
  refine (orderly_resolveAssertionMatchesSnapshot hlength gateProperty_gateKept).bindEmits
    fun matchIndices ↦ emits_ite ?_ ?_
  · refine (orderly_requestAssertionSelection hlength matchIndices).bindEmits fun selected ↦ ?_
    cases selected with
    | error status => exact emits_refusal
    | ok selectedRecordIndex =>
      exact hpoll.bindEmits fun status ↦ emits_ite emits_refusal (hfinish _ _)
  · refine (orderly_requestApproval hlength gateProperty_gateKept).bindEmits fun status ↦
      emits_ite emits_refusal ?_
    exact hpoll.bindEmits fun status ↦ emits_ite emits_refusal (hfinish _ _)

/-- getAssertion, whatever the parser made of the request. -/
theorem emits_handleGetAssertion (capabilities : Capabilities) (sessionId : ℕ)
    (parsed : Reply GetAssertionRequest) :
    Emits crypto credentialId least App.GateKept (countOf credentialId)
      (handleGetAssertion crypto capabilities sessionId parsed) := by
  cases parsed with
  | error status => exact emits_refusal
  | ok request =>
    refine emits_ite emits_refusal (Orderly.bindEmits ?_ fun _ ↦ ?_)
    · refine orderly_alike hlength gateProperty_gateKept fun app ↦ ?_
      simp only [acceptAssertion, assertionQueueClear, announce, ensures_bind, ensures_modify]
      exact ⟨rfl, rfl, rfl, rfl⟩
    · refine emits_ite ((orderly_handleEmptyPinAuthProbe hlength).bindEmits fun _ ↦ emits_refusal)
        (emits_ite emits_refusal ?_)
      refine (orderly_requirePinAuthWithState hlength).bindEmits ?_
      rintro ⟨status, uvVerified⟩
      refine emits_ite emits_refusal ?_
      refine (orderly_pollCborControl hlength gateProperty_gateKept).bindEmits fun status ↦ ?_
      exact emits_ite emits_refusal (emits_selectAssertion hlaws hopen hlength _ _ _ _)

end Assertions

end ZeroFido.Ctap
