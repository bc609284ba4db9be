import ZeroFido.Ctap.SignCounts

/-!
# The sign counts of a new credential

makeCredential draws a credential id and, once the user has approved, writes the record of the new
credential at count zero. The generator may give the id that is looked at, as long as nothing of
that credential is there (`Ready`); the files then have to stay without it until the record is
written (`Novel`). `orderly_handleMakeCredential`: whatever the request, wherever it is interrupted
and whatever fails, the counts stay in order.
-/

set_option autoImplicit false
set_option relaxedAutoImplicit false

namespace ZeroFido.Ctap

open Foundations Storage Store Process

section Drafts

variable {crypto : Crypto} {request : MakeCredentialRequest} {record : CredentialRecord}
  {world : Pin.Device}

/-- A new record that needs a key pair only. -/
structure NewDraft (record : CredentialRecord) : Prop where
  signCount : record.signCount = 0
  wellFormed : ∀ publicX publicY privateWrapped privateIv : Bytes,
    publicX.length = publicKeyLen → publicY.length = publicKeyLen →
    privateWrapped.length = privateKeyLen → privateIv.length = wrapIvLen →
    CredentialRecord.WellFormed { record with publicX, publicY, privateWrapped, privateIv }

/-- A new record with its key pair. -/
structure NewRecord (record : CredentialRecord) : Prop where
  signCount : record.signCount = 0
  wellFormed : record.WellFormed

theorem NewDraft.protected (h : NewDraft record) (hrequest : request.WithinLimits) :
    NewDraft (if request.hasCredProtect then { record with credProtect := request.credProtect }
      else record) := by
  split_ifs with hprotect
  · refine ⟨h.signCount, fun _ _ _ _ hx hy hwrapped hiv ↦ ?_⟩
    exact { h.wellFormed _ _ _ _ hx hy hwrapped hiv with
      credProtect := hrequest.credProtect hprotect }
  · exact h

theorem protected_credentialId :
    (if request.hasCredProtect then { record with credProtect := request.credProtect }
      else record : CredentialRecord).credentialId = record.credentialId := by
  split_ifs <;> rfl

/-- Whether a credential is resident is all that the flag changes in its record. -/
theorem prepareCredential_residentKey {rpId userId userName userDisplayName : Bytes}
    {createdAt : ℕ} (residentKey : Bool) :
    (prepareCredential rpId userId userName userDisplayName createdAt residentKey :
        Program Pin.Device (Option CredentialRecord)) =
      Option.map (fun record ↦ { record with residentKey }) <$>
        prepareCredential rpId userId userName userDisplayName createdAt true := by
  unfold prepareCredential
  split_ifs
  · rfl
  · rfl

/-- The id of a new credential is what the generator gives next. -/
theorem ensures_prepareCredential_drawn {rpId userId userName userDisplayName : Bytes}
    {createdAt : ℕ} {residentKey : Bool} :
    Ensures (prepareCredential rpId userId userName userDisplayName createdAt residentKey)
      (fun result _ ↦ ∀ record, result = some record → record.signCount = 0 ∧
        record.credentialId = (List.range credentialIdLen).map world.entropy)
      (fun _ ↦ False) world := by
  simp only [prepareCredential, randomFill, ensures_ite, ensures_pure, ensures_bind,
    ensures_modifyGet]
  refine ⟨by simp, fun _ ↦ ?_⟩
  rintro _ ⟨⟩
  exact ⟨rfl, rfl⟩

theorem ensures_prepareCredential_newDraft {createdAt : ℕ} {residentKey : Bool}
    (hrequest : request.WithinLimits) (hcreatedAt : createdAt ≤ uint32Max) :
    Ensures (prepareCredential request.rpId request.userId request.userName
        request.userDisplayName createdAt residentKey)
      (fun result world' ↦ world'.files = world.files ∧ ∀ record, result = some record →
        NewDraft record ∧ record.credentialId = (List.range credentialIdLen).map world.entropy)
      (fun _ ↦ False) world := by
  have hdrafted := @ensures_prepareCredential_drafted request world createdAt hrequest hcreatedAt
  have hkept : Ensures (prepareCredential request.rpId request.userId request.userName
      request.userDisplayName createdAt residentKey)
      (fun result world' ↦ world'.files = world.files ∧ ∀ record, result = some record →
        ∀ publicX publicY privateWrapped privateIv : Bytes,
          publicX.length = publicKeyLen → publicY.length = publicKeyLen →
          privateWrapped.length = privateKeyLen → privateIv.length = wrapIvLen →
          CredentialRecord.WellFormed { record with publicX, publicY, privateWrapped, privateIv })
      (fun _ ↦ False) world := by
    rw [prepareCredential_residentKey, ensures_map]
    refine hdrafted.mono ?_ fun _ hcut ↦ hcut
    rintro result world' ⟨hidle, hresult⟩
    refine ⟨hidle.files_eq, fun record hrecord _ _ _ _ hx hy hwrapped hiv ↦ ?_⟩
    obtain ⟨drafted, rfl, rfl⟩ := Option.map_eq_some_iff.mp hrecord
    exact { (hresult drafted rfl).wellFormed _ _ _ _ hx hy hwrapped hiv with }
  refine (hkept.and ensures_prepareCredential_drawn).mono ?_ fun _ hcut ↦ hcut.1
  rintro result world' ⟨⟨hfiles, hwellFormed⟩, hdrawn⟩
  exact ⟨hfiles, fun record hrecord ↦
    ⟨⟨(hdrawn record hrecord).1, hwellFormed record hrecord⟩, (hdrawn record hrecord).2⟩⟩

/-- Generating the key pair of a new record. -/
theorem ensures_generateCredentialKeypair_newRecord (hlaws : SealLaws crypto)
    (hkeys : KeyLaws crypto) (h : NewDraft record) :
    Ensures (generateCredentialKeypair crypto record)
      (fun result world' ↦ world'.files = world.files ∧ ∀ record', result = some record' →
        NewRecord record' ∧ record'.credentialId = record.credentialId)
      (fun _ ↦ False) world := by
  simp only [generateCredentialKeypair, Crypto.generateKeyAgreementKey, ensures_bind]
  refine ensures_nextKeyGeneration fun first hfirst ↦ ?_
  rw [ensures_ite]
  refine ⟨fun _ ↦ ?_, fun _ ↦ ⟨hfirst.files_eq, by simp⟩⟩
  rw [ensures_bind]
  refine ensures_randomFill fun privateKey second hsecond hprivate ↦ ?_
  simp only [ensures_pure, ensures_bind]
  refine ensures_randomFill fun iv third hthird hiv ↦ ?_
  refine Crypto.ensures_enclaveSeal fun result fourth hfourth _ hsealed ↦ ?_
  have hidle := ((hfirst.trans hsecond).trans hthird).trans hfourth
  cases result with
  | none => exact ⟨hidle.files_eq, by simp⟩
  | some privateWrapped =>
    refine ⟨hidle.files_eq, ?_⟩
    rintro _ ⟨⟩
    obtain ⟨hx, hy⟩ := hkeys privateKey hprivate
    refine ⟨⟨h.signCount, h.wellFormed _ _ _ _ hx hy ?_ hiv⟩, rfl⟩
    rw [hsealed privateWrapped rfl, hlaws.length_seal, hprivate]

end Drafts

section Storing

variable {crypto : Crypto} {credentialId : Bytes} {least : ℕ} {files files' : Path → Option Bytes}
  {store store' : CredentialStore} {app : App} {record : CredentialRecord} {condition : Prop}

/-- The entry of a new record is in order, whatever the files are. -/
theorem NewRecord.indexes (h : NewRecord record) :
    Indexes crypto credentialId files (indexEntryFromRecord crypto record) := by
  refine ⟨h.wellFormed.credentialId, fun _ ↦ Or.inl ⟨rfl, ?_⟩⟩
  show WindowEnd record.signCount
  rw [h.signCount]
  exact windowEnd_zero

theorem AtCount.added (h : AtCount crypto credentialId least files store)
    (hrecord : NewRecord record) (hadded : publishAddedRecord crypto store record = some store') :
    AtCount crypto credentialId least files store' := by
  unfold publishAddedRecord at hadded
  split_ifs at hadded
  obtain rfl := Option.some.inj hadded
  refine ⟨h.counts, fun entry hentry ↦ ?_⟩
  rcases List.mem_append.mp hentry with hentry | hentry
  · exact h.indexed entry hentry
  · rw [List.mem_singleton.mp hentry]
    exact hrecord.indexes

variable (hlength : credentialId.length = credentialIdLen)

include hlength

/-- Publishing the new credential. -/
theorem orderly_publishCredential (hrecord : NewRecord record) (deletedIndices : List ℕ) :
    Orderly crypto credentialId least App.Held
      (atomically (publishCredential crypto deletedIndices record)) := by
  intro app happ hheld
  refine maintains_section hlength gateProperty_held happ hheld fun later hlater hlaterHeld _ ↦ ?_
  have hremaining := Ctap.AtCount.fades hlater Fades.refl
    (@sublist_publishDeletedIndices later.store deletedIndices)
  simp only [publishCredential, ensures_bind, ensures_modify, ensures_get]
  cases hadded : publishAddedRecord crypto (publishDeletedIndices later.store deletedIndices)
      record with
  | none => exact ⟨hremaining, hlaterHeld⟩
  | some store =>
    simp only [assertionQueueClear, announce, ensures_bind, ensures_modify, ensures_pure]
    exact ⟨hremaining.added hrecord hadded, hlaterHeld⟩

theorem orderly_removeRecordFile (hrecord : NewRecord record) :
    Orderly crypto credentialId least App.Held (atomically (onDevice (removeRecordFile record))) :=
  orderly_onDevice hlength gateProperty_held (fading_removeRecordFile hlength hrecord.wellFormed)

theorem orderly_addCredential (hrecord : NewRecord record) (deletedIndices : List ℕ) :
    Orderly crypto credentialId least App.Held (addCredential crypto deletedIndices record) := by
  refine (orderly_publishCredential hlength hrecord deletedIndices).bind fun added ↦
    orderly_ite ?_ (orderly_pure _)
  exact (orderly_removeRecordFile hlength hrecord).bind fun _ ↦ orderly_pure _

/-- Removing what the new credential replaces. -/
theorem orderly_replaceCredentials (hrecord : NewRecord record) (deletedIndices : List ℕ) :
    Orderly crypto credentialId least App.Held
      (replaceCredentials crypto deletedIndices record) := by
  have hrest : ∀ removedCount, Orderly crypto credentialId least App.Held
      (atomically (publishPartialRemoval deletedIndices removedCount)) := by
    intro removedCount app happ hheld
    refine maintains_section hlength gateProperty_held happ hheld fun later hlater hlaterHeld _ ↦ ?_
    simp only [publishPartialRemoval, assertionQueueClear, ensures_bind, ensures_modify]
    exact ⟨Ctap.AtCount.fades hlater Fades.refl sublist_publishDeletedIndices, hlaterHeld⟩
  have hremove : ∀ status : CtapStatus, Orderly crypto credentialId least App.Held (do
      let _ ← atomically (onDevice (removeRecordFile record))
      return status) :=
    fun _ ↦ (orderly_removeRecordFile hlength hrecord).bind fun _ ↦ orderly_pure _
  refine Orderly.bind (orderly_withStore hlength gateProperty_held fun store hstore ↦
    fading_removeCredentialFilesByIndices hlength hstore deletedIndices 0) ?_
  rintro ⟨removed, removedCount⟩
  refine orderly_ite ?_ (orderly_addCredential hlength hrecord deletedIndices)
  exact orderly_ite ((hrest _).bind fun _ ↦ hremove _) (hremove _)

variable (hlaws : SealLaws crypto)

include hlaws

/-- Writing the record of the new credential, which may be the one that is looked at. -/
theorem maintains_recordFormatWriteRecord_novel (hrecord : NewRecord record)
    (hnovel : record.credentialId = credentialId → least = 0)
    (happ : app.AtCount crypto credentialId least)
    (hheld : app.Held ∧ (record.credentialId = credentialId →
      Unissued credentialId app.device.files app.store)) :
    Maintains (Between credentialId least) (Kept crypto credentialId least)
      (fun _ app' ↦ app'.AtCount crypto credentialId least ∧ app'.Held)
      (Kept crypto credentialId least)
      (atomically (onDevice (recordFormatWriteRecord crypto record))) app := by
  refine maintains_section hlength (gateProperty_held.unissued hlength _) happ hheld
    fun later hlater hlaterHeld _ ↦ ?_
  rw [ensures_onDevice]
  -- Both exits of the write are the same to the files.
  have hrun : ∀ {reached : Pin.Device → Prop},
      Ensures (recordFormatWriteRecord crypto record) (fun _ ↦ reached) reached later.device →
      (∀ device, reached device →
        Ctap.AtCount crypto credentialId least device.files later.store) →
      Ensures (recordFormatWriteRecord crypto record)
        (fun _ device ↦ ({ later with device } : App).AtCount crypto credentialId least ∧
          ({ later with device } : App).Held)
        (fun device ↦ Kept crypto credentialId least { later with device }) later.device :=
    fun hwrite hreached ↦ hwrite.mono
      (fun _ device hdevice ↦ ⟨hreached device hdevice, hlaterHeld.1⟩)
      fun device hdevice ↦ ⟨hreached device hdevice, hlaterHeld.1.gateKept⟩
  by_cases hid : record.credentialId = credentialId
  · -- Only entries of other credentials are in the index.
    obtain ⟨hnone, hunfloored, hindex⟩ := hlaterHeld.2 hid
    rw [← hid] at hnone hunfloored
    have hwrite := ensures_recordFormatWriteRecord_counts hlaws hrecord.wellFormed hrecord.signCount
      hnone hunfloored
    rw [hid] at hwrite
    refine hrun hwrite fun device hdevice ↦ ⟨?_, fun entry hentry ↦
      ⟨(hlater.indexed entry hentry).1, fun hsame ↦ absurd hsame (hindex entry hentry)⟩⟩
    rw [hnovel hid]
    exact hdevice.2
  · have hname : record.fileName ≠ hexEncode credentialId := by
      rw [hrecord.wellFormed.fileName]
      exact fun hsame ↦ hid (hexEncode_injective hsame)
    have hwithin : ∀ {device : Pin.Device}, Rewrites (recordPath record.fileName)
        (tempPath record.fileName) (fun data ↦ Store.Recorded crypto data record) later.device
          device → Within record.fileName later.device device :=
      fun hrewrites ↦ hrewrites.within (fileOf_recordPath _) (fileOf_tempPath _)
    refine hrun ((ensures_recordFormatWriteRecord hlaws hrecord.wellFormed).mono
      (fun _ _ hdone ↦ hwithin hdone.1) fun _ hcut ↦ hwithin hcut.1) fun device hdevice ↦ ?_
    exact Ctap.AtCount.fades hlater (hdevice.fades hrecord.wellFormed.isRecord hlength hname)
      (List.Sublist.refl _)

/-- The commands under the gate, from the record with its key pair on. -/
theorem maintains_commitCredential_novel {request : MakeCredentialRequest} {residentKey : Bool}
    (hrecord : NewRecord record) (hnovel : record.credentialId = credentialId → least = 0)
    (happ : app.AtCount crypto credentialId least)
    (hheld : app.Held ∧ (record.credentialId = credentialId →
      Unissued credentialId app.device.files app.store)) :
    Maintains (Between credentialId least) (Kept crypto credentialId least)
      (fun _ app' ↦ app'.AtCount crypto credentialId least ∧ app'.Held)
      (Kept crypto credentialId least) (commitCredential crypto request record residentKey)
      app := by
  have hgate := gateProperty_held.unissued hlength (record.credentialId = credentialId)
  have hfind : Orderly crypto credentialId least (fun app ↦ app.Held ∧
      (record.credentialId = credentialId → Unissued credentialId app.device.files app.store))
      (findReplacedIndices crypto request residentKey) :=
    orderly_ite (orderly_withStore hlength hgate fun store hstore ↦
      fading_findResidentCredentialIndicesForUser hlaws hlength hstore) (orderly_pure _)
  unfold commitCredential
  rw [maintains_bind]
  refine (hfind app happ hheld).weaken fun found first hfirst ↦ ?_
  cases found with
  | none => exact ⟨hfirst.1, hfirst.2.1⟩
  | some deletedIndices =>
    dsimp only
    unfold storeCredential
    rw [maintains_bind]
    refine (orderly_read hlength hgate _ first hfirst.1 hfirst.2).weaken ?_
    intro count second hsecond
    simp only [maintains_ite]
    refine ⟨fun _ ↦ ⟨hsecond.1, hsecond.2.1⟩, fun _ ↦ ?_⟩
    rw [maintains_bind]
    refine (maintains_recordFormatWriteRecord_novel hlength hlaws hrecord hnovel hsecond.1
      hsecond.2).weaken fun written third hthird ↦ ?_
    have hrest : Orderly crypto credentialId least App.Held
        (if residentKey && decide (0 < deletedIndices.length) then
          replaceCredentials crypto deletedIndices record
        else addCredential crypto deletedIndices record) :=
      orderly_ite (orderly_replaceCredentials hlength hrecord deletedIndices)
        (orderly_addCredential hlength hrecord deletedIndices)
    rw [maintains_ite]
    exact ⟨fun _ ↦ hthird, fun _ ↦ hrest third hthird.1 hthird.2⟩

end Storing

section Registration

variable {crypto : Crypto} {credentialId : Bytes} {least : ℕ} {app : App}
  {request : MakeCredentialRequest} {record : CredentialRecord} {residentKey : Bool}

/-- Drawing the id of a new credential: if it is the one that is looked at, nothing of that
credential is there. -/
theorem maintains_prepareCredential_novel (hlength : credentialId.length = credentialIdLen)
    {createdAt : ℕ} (hrequest : request.WithinLimits) (hcreatedAt : createdAt ≤ uint32Max)
    (happ : app.AtCount crypto credentialId least) (hgate : app.GateKept) :
    Maintains (Between credentialId least) (Kept crypto credentialId least)
      (fun result app' ↦ app'.AtCount crypto credentialId least ∧ app'.GateKept ∧
        ∀ record, result = some record → NewDraft record ∧
          (record.credentialId = credentialId →
            Unissued credentialId app'.device.files app'.store ∧ least = 0))
      (Kept crypto credentialId least)
      (atomically (onDevice (prepareCredential request.rpId request.userId request.userName
        request.userDisplayName createdAt residentKey))) app := by
  refine maintains_section hlength gateProperty_gateKept happ hgate
    fun later hlater hlaterGate hready ↦ ?_
  rw [ensures_onDevice]
  refine (ensures_prepareCredential_newDraft hrequest hcreatedAt).mono ?_ fun _ hcut ↦ hcut.elim
  rintro result device ⟨hfiles, hresult⟩
  refine ⟨hlater.of_eq hfiles rfl, hlaterGate, fun record hrecord ↦ ?_⟩
  obtain ⟨hdraft, hdrawn⟩ := hresult record hrecord
  refine ⟨hdraft, fun hid ↦ ?_⟩
  show Unissued credentialId device.files later.store ∧ least = 0
  rw [hfiles]
  exact hready (hdrawn.symm.trans hid)

variable (hlength : credentialId.length = credentialIdLen) (hlaws : SealLaws crypto)
  (hkeys : KeyLaws crypto)

include hlength hlaws hkeys

/-- makeCredential from the end of the user's approval on. -/
theorem maintains_createCredential_novel (hdraft : NewDraft record)
    (hnovel : record.credentialId = credentialId → least = 0)
    (happ : app.AtCount crypto credentialId least)
    (hgate : app.GateKept ∧ (record.credentialId = credentialId →
      Unissued credentialId app.device.files app.store)) :
    Maintains (Between credentialId least) (Kept crypto credentialId least)
      (fun _ app' ↦ app'.AtCount crypto credentialId least ∧ app'.GateKept)
      (Kept crypto credentialId least) (createCredential crypto request record residentKey)
      app := by
  have hproperty := gateProperty_gateKept.unissued hlength (record.credentialId = credentialId)
  unfold createCredential
  rw [maintains_bind]
  have hkeypair : Maintains (Between credentialId least) (Kept crypto credentialId least)
      (fun result app' ↦ app'.AtCount crypto credentialId least ∧
        (app'.GateKept ∧ (record.credentialId = credentialId →
          Unissued credentialId app'.device.files app'.store)) ∧
        ∀ record', result = some record' →
          NewRecord record' ∧ record'.credentialId = record.credentialId)
      (Kept crypto credentialId least)
      (atomically (onDevice (generateCredentialKeypair crypto record))) app := by
    refine maintains_section hlength hproperty happ hgate fun later hlater hlaterGate _ ↦ ?_
    rw [ensures_onDevice]
    refine (ensures_generateCredentialKeypair_newRecord hlaws hkeys hdraft).mono ?_
      fun _ hcut ↦ hcut.elim
    rintro result device ⟨hfiles, hresult⟩
    refine ⟨hlater.of_eq hfiles rfl, ⟨hlaterGate.1, fun hid ↦ ?_⟩, hresult⟩
    show Unissued credentialId device.files later.store
    rw [hfiles]
    exact hlaterGate.2 hid
  refine hkeypair.weaken ?_
  rintro result first ⟨hfirst, hfirstGate, hresult⟩
  cases result with
  | none => exact ⟨hfirst, hfirstGate.1⟩
  | some record' =>
    obtain ⟨hrecord, hid⟩ := hresult record' rfl
    rw [← hid] at hproperty hnovel hfirstGate
    dsimp only
    rw [maintains_bind]
    refine (orderly_nextStatus hlength hproperty first hfirst hfirstGate).weaken ?_
    intro status second hsecond
    rw [maintains_ite]
    refine ⟨fun _ ↦ ⟨hsecond.1, hsecond.2.1⟩, fun _ ↦ ?_⟩
    rw [maintains_bind]
    refine (orderly_nextStatus hlength hproperty second hsecond.1 hsecond.2).weaken ?_
    intro status third hthird
    rw [maintains_ite]
    refine ⟨fun _ ↦ ⟨hthird.1, hthird.2.1⟩, fun _ ↦ ?_⟩
    refine (@maintains_gated_emission CtapStatus crypto credentialId least third (fun _ ↦ none)
      hlength _ _ _ rfl (fun later hlater hheld ↦ ?_) hthird.1 hthird.2).weaken
        fun _ _ hemission ↦ ⟨hemission.atCount, hemission.gate⟩
    exact (maintains_commitCredential_novel hlength hlaws hrecord hnovel hlater hheld).weaken
      fun _ _ hdone ↦ ⟨hdone.1, hdone.2, by simp⟩

/-- makeCredential from the end of the PIN check on. -/
theorem orderly_registerCredential {createdAt : ℕ} {uvVerified : Bool}
    (hrequest : request.WithinLimits) (hcreatedAt : createdAt ≤ uint32Max) :
    Orderly crypto credentialId least App.GateKept
      (registerCredential crypto createdAt request residentKey uvVerified) := by
  refine Orderly.bind (orderly_excludeCheck hlength hlaws) fun excluded ↦ ?_
  cases excluded with
  | none => exact orderly_pure _
  | some excluded =>
    cases excluded with
    | true =>
      exact (orderly_requestApproval hlength gateProperty_gateKept).bind fun _ ↦ orderly_pure _
    | false =>
      intro app happ hgate
      dsimp only
      rw [maintains_bind]
      refine (maintains_prepareCredential_novel hlength hrequest hcreatedAt happ hgate).weaken ?_
      rintro drafted first ⟨hfirst, hfirstGate, hresult⟩
      cases drafted with
      | none => exact ⟨hfirst, hfirstGate⟩
      | some record =>
        obtain ⟨hdraft, hnovel⟩ := hresult record rfl
        replace hdraft := hdraft.protected hrequest
        rw [← @protected_credentialId request] at hnovel
        have hproperty := gateProperty_gateKept.unissued hlength
          ((if request.hasCredProtect then { record with credProtect := request.credProtect }
            else record : CredentialRecord).credentialId = credentialId)
        dsimp only
        rw [maintains_bind]
        refine (orderly_requestApproval hlength hproperty first hfirst
          ⟨hfirstGate, fun hid ↦ (hnovel hid).1⟩).weaken fun status second hsecond ↦ ?_
        rw [maintains_ite]
        refine ⟨fun _ ↦ ⟨hsecond.1, hsecond.2.1⟩, fun _ ↦ ?_⟩
        rw [maintains_bind]
        refine (orderly_nextStatus hlength hproperty second hsecond.1 hsecond.2).weaken ?_
        intro status third hthird
        rw [maintains_ite]
        refine ⟨fun _ ↦ ⟨hthird.1, hthird.2.1⟩, fun _ ↦ ?_⟩
        exact maintains_createCredential_novel hlength hlaws hkeys hdraft
          (fun hid ↦ (hnovel hid).2) hthird.1 hthird.2

/-- makeCredential, for what its parser may make of a request. -/
theorem orderly_handleMakeCredential {capabilities : Capabilities} {createdAt : ℕ}
    {parsed : Reply MakeCredentialRequest}
    (hparsed : ∀ request, parsed = .ok request → request.WithinLimits)
    (hcreatedAt : createdAt ≤ uint32Max) :
    Orderly crypto credentialId least App.GateKept
      (handleMakeCredential crypto capabilities createdAt parsed) := by
  cases parsed with
  | error status => exact orderly_pure _
  | ok request =>
    refine orderly_ite (orderly_pure _) (orderly_ite (orderly_handleEmptyPinAuthProbe hlength)
      (orderly_ite (orderly_pure _) ?_))
    refine (orderly_read hlength gateProperty_gateKept _).bind fun pinIsSet ↦
      orderly_ite (orderly_pure _) ?_
    refine (orderly_requirePinAuthWithState hlength).bind ?_
    rintro ⟨status, uvVerified⟩
    refine orderly_ite (orderly_pure _) ?_
    refine (orderly_nextStatus hlength gateProperty_gateKept).bind fun status ↦
      orderly_ite (orderly_pure _) ?_
    exact orderly_registerCredential hlength hlaws hkeys (hparsed request rfl) hcreatedAt

end Registration

end ZeroFido.Ctap
