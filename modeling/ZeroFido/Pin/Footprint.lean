import ZeroFido.Foundations.Invariant
import ZeroFido.Pin.TokenIssue

/-!
# What the PIN operations leave alone

No operation on the PIN touches a file other than the three of the PIN (`BesidesPin`), and one that
reports no success leaves it as it was whether a PIN is set. Both are judgments about every point
where the power may go, and the second is what the rest of the authenticator relies on when it asks
for the capabilities again only after a command that succeeded.
-/

set_option autoImplicit false
set_option relaxedAutoImplicit false

namespace ZeroFido.Pin

open Foundations Storage

section Files

variable {crypto : Crypto} {files : Path → Option Bytes} {world world' : Device}

/-- Every file but those of the PIN is as it was. -/
def BesidesPin (files : Path → Option Bytes) (world : Device) : Prop :=
  ∀ path, path ≠ pinFilePath → path ≠ backupOf pinFilePath → path ≠ pinFileTempPath →
    world.files path = files path

theorem BesidesPin.of_moves {next : Option Bytes} (h : BesidesPin files world)
    (hmoves : Moves pinFilePath pinFileTempPath next world world') : BesidesPin files world' :=
  fun path hpath hbackup htemp ↦
    (hmoves.frame path hpath hbackup htemp).trans (h path hpath hbackup htemp)

theorem BesidesPin.of_idle (h : BesidesPin files world) (hidle : Idle world world') :
    BesidesPin files world' := by
  unfold BesidesPin
  rwa [hidle.files_eq]

theorem besidesPin_note (event : PinEvent) :
    Sustains (BesidesPin files) (fun _ ↦ True) (note event) := .modifying fun _ h ↦ h

theorem besidesPin_randomFill (length : ℕ) :
    Sustains (BesidesPin files) (fun _ ↦ True) (randomFill length : Program Device Bytes) :=
  fun _ h ↦ ensures_randomFill fun _ _ hidle _ ↦ ⟨trivial, h.of_idle hidle⟩

theorem besidesPin_generateKeyAgreementKey :
    Sustains (BesidesPin files) (fun _ ↦ True)
      (crypto.generateKeyAgreementKey : Program Device (Option KeyAgreementKey)) :=
  fun _ h ↦ Crypto.ensures_generateKeyAgreementKey fun _ _ hidle _ ↦ ⟨trivial, h.of_idle hidle⟩

theorem besidesPin_pinStateStorePersist (state : ClientPinState) :
    Sustains (BesidesPin files) (fun _ ↦ True) (pinStateStorePersist crypto state) := by
  intro world h
  cases hset : state.pinSet with
  | false => simp [pinStateStorePersist, hset, h]
  | true =>
    refine ensures_pinStateStorePersist_writes hset
      (fun world' hidle _ ↦ ⟨trivial, h.of_idle hidle⟩) (fun world' hidle _ ↦ h.of_idle hidle)
      fun middle iv sealIv hidle _ _ ↦ ?_
    have hmiddle := h.of_idle hidle
    refine (ensures_writeFileAtomic pinPaths (encode_ne_nil _)).mono ?_
      fun _ hcut ↦ hmiddle.of_moves hcut.moves
    rintro ok final ⟨hmoves, -⟩
    exact ⟨trivial, hmiddle.of_moves hmoves⟩

theorem besidesPin_pinInvalidatePersistedState :
    Sustains (BesidesPin files) (fun _ ↦ True) pinInvalidatePersistedState := by
  intro world h
  have hstored : ∀ {world' : Device} {data : Bytes},
      world'.files = stored pinFilePath data world.files → BesidesPin files world' := by
    intro world' data hfiles path hpath hbackup htemp
    rw [hfiles, stored, Function.update_of_ne hpath, h path hpath hbackup htemp]
  refine ensures_createFile (fun world' _ hfiles ↦ ⟨trivial, hstored hfiles⟩) ?_
  rintro world' - - (hfiles | ⟨written, hfiles⟩)
  · have hkept : BesidesPin files world' := by
      unfold BesidesPin
      rwa [hfiles]
    exact ⟨⟨trivial, hkept⟩, hkept⟩
  · exact ⟨⟨trivial, hstored hfiles⟩, hstored hfiles⟩

theorem besidesPin_pinStateStoreClear :
    Sustains (BesidesPin files) (fun _ ↦ True) pinStateStoreClear := by
  intro world h
  refine (ensures_removeAtomicFile pinPaths).mono ?_ fun _ hcut ↦ h.of_moves hcut.moves
  rintro ok final ⟨hmoves, -⟩
  exact ⟨trivial, h.of_moves hmoves⟩

theorem besidesPin_pinStateStoreFailClosed (state : ClientPinState) :
    Sustains (BesidesPin files) (fun _ ↦ True) (pinStateStoreFailClosed state) := by
  refine .ite (fun _ ↦ .pure trivial) fun _ ↦ besidesPin_pinInvalidatePersistedState.bind
    fun ok _ ↦ .ite (fun _ ↦ .pure trivial) fun _ ↦ ?_
  exact besidesPin_pinStateStoreClear

/-- A restart of the PIN touches the files of the PIN only. -/
theorem besidesPin_pinInitWithResult :
    Sustains (BesidesPin files) (fun _ ↦ True) (pinInitWithResult crypto) := by
  intro world h
  have hkept : ∀ world' : Device, (∀ other, other ≠ pinFilePath → other ≠ backupOf pinFilePath →
      other ≠ pinFileTempPath → world'.files other = world.files other) →
        BesidesPin files world' :=
    fun world' hframe path hpath hbackup htemp ↦
      (hframe path hpath hbackup htemp).trans (h path hpath hbackup htemp)
  exact ensures_pinInitWithResult_frame.mono
    (fun _ world' hframe ↦ ⟨trivial, hkept world' hframe⟩) hkept

end Files

section Operations

variable {crypto : Crypto} {files : Path → Option Bytes}

theorem besidesPin_persistOrBlock (state : ClientPinState) :
    Sustains (BesidesPin files) (fun after ↦ after.pinSet = state.pinSet)
      (persistOrBlock crypto state) := by
  refine (besidesPin_pinStateStorePersist state).bind fun ok _ ↦ .ite (fun _ ↦ .pure rfl) fun _ ↦ ?_
  exact (besidesPin_pinStateStoreFailClosed state).bind fun ok _ ↦
    .ite (fun _ ↦ .pure rfl) fun _ ↦ .pure rfl

theorem besidesPin_pinCommitAuthorization (state : ClientPinState) (request : AuthRequest) :
    Sustains (BesidesPin files) (fun _ ↦ True) (pinCommitAuthorization crypto state request) := by
  refine (besidesPin_pinStateStorePersist _).bind fun ok _ ↦ .ite (fun _ ↦ .pure trivial) fun _ ↦ ?_
  exact Sustains.get.bind fun world _ ↦ (besidesPin_note _).bind fun _ _ ↦ .pure trivial

/-- The PIN check of a command touches no other file than those of the PIN. -/
theorem besidesPin_pinRequireAuth (state : ClientPinState) (request : AuthRequest) :
    Sustains (BesidesPin files) (fun _ ↦ True) (pinRequireAuth crypto state request) := by
  have hdone : ∀ result : (CtapStatus × Bool) × ClientPinState,
      Sustains (BesidesPin files) (fun _ ↦ True) (pure result : Program Device _) :=
    fun _ ↦ .pure trivial
  have hexpired : Sustains (BesidesPin files) (fun _ ↦ True) (pinTokenIsExpired state) :=
    Sustains.get.bind fun _ _ ↦ .pure trivial
  have hmismatch : Sustains (BesidesPin files) (fun _ ↦ True)
      (pinNotePinAuthMismatch crypto state) :=
    (besidesPin_persistOrBlock _).bind fun _ _ ↦ .pure trivial
  have hauthorize : Sustains (BesidesPin files) (fun _ ↦ True)
      (pinAuthorize crypto state request) := by
    have hcommit := fun next ↦ @besidesPin_pinCommitAuthorization crypto files next request
    refine .ite (fun _ ↦ hdone _) fun _ ↦ .ite (fun _ ↦ ?_) fun _ ↦ hcommit _
    refine .ite (fun _ ↦ hdone _) fun _ ↦ .ite (fun _ ↦ hdone _) fun _ ↦ ?_
    exact .ite (fun _ ↦ hcommit _) fun _ ↦ hcommit _
  refine .ite (fun _ ↦ ?_) fun _ ↦ .ite (fun _ ↦ hdone _) fun _ ↦
    .ite (fun _ ↦ hdone _) fun _ ↦ hdone _
  iterate 6 refine .ite (fun _ ↦ hdone _) fun _ ↦ ?_
  refine hexpired.bind fun expired _ ↦ .ite (fun _ ↦ hdone _) fun _ ↦ ?_
  cases crypto.hmacSha256 state.pinToken request.clientDataHash with
  | none => exact hdone _
  | some expected => exact .ite (fun _ ↦ hmismatch.bind fun _ _ ↦ hdone _) fun _ ↦ hauthorize

theorem besidesPin_pinAuthFailure (state : ClientPinState) :
    Sustains (BesidesPin files) (fun result ↦ result.2.pinSet = state.pinSet)
      (pinAuthFailure crypto state) := by
  refine .ite (fun _ ↦ .pure rfl) fun _ ↦ besidesPin_generateKeyAgreementKey.bind fun key _ ↦ ?_
  cases key with
  | none => exact .pure rfl
  | some key =>
    exact (besidesPin_persistOrBlock _).bind fun after hafter ↦
      .ite (fun _ ↦ .pure hafter) fun _ ↦ .pure hafter

theorem besidesPin_comparePinHash (state : ClientPinState) (pinHash : Bytes) :
    Sustains (BesidesPin files) (fun result ↦ result.2.pinSet = state.pinSet)
      (comparePinHash crypto state pinHash) := by
  have hsuccess : Sustains (BesidesPin files) (fun result ↦ result.2.pinSet = state.pinSet)
      (pinAuthSuccess crypto state) := by
    refine (besidesPin_pinStateStorePersist _).bind fun ok _ ↦ .ite (fun _ ↦ ?_) fun _ ↦ .pure rfl
    exact (besidesPin_note _).bind fun _ _ ↦ .pure rfl
  exact (besidesPin_note _).bind fun _ _ ↦
    .ite (fun _ ↦ besidesPin_pinAuthFailure state) fun _ ↦ hsuccess

theorem besidesPin_pinVerifyHash (state : ClientPinState) (pinHash : Bytes) :
    Sustains (BesidesPin files) (fun result ↦ result.2.pinSet = state.pinSet)
      (pinVerifyHash crypto state pinHash) :=
  .ite (fun _ ↦ .pure rfl) fun _ ↦ .ite (fun _ ↦ .pure rfl) fun _ ↦
    .ite (fun _ ↦ .pure rfl) fun _ ↦ besidesPin_comparePinHash state pinHash

theorem besidesPin_pinVerifyPlaintext (state : ClientPinState) (pin : Bytes) :
    Sustains (BesidesPin files) (fun result ↦ result.2.pinSet = state.pinSet)
      (pinVerifyPlaintext crypto state pin) :=
  .ite (fun _ ↦ .pure rfl) fun _ ↦ besidesPin_pinVerifyHash state _

/-- A new PIN that is not set leaves the PIN as it was, set or not. -/
theorem besidesPin_pinApplyPlaintext (state : ClientPinState) (pin : Bytes) (requireUnset : Bool) :
    Sustains (BesidesPin files)
      (fun result ↦ result.1 ≠ .success → result.2.pinSet = state.pinSet)
      (pinApplyPlaintext crypto state pin requireUnset) := by
  refine .ite (fun _ ↦ .pure fun _ ↦ rfl) fun _ ↦ .ite (fun _ ↦ .pure fun _ ↦ rfl) fun _ ↦ ?_
  refine (besidesPin_randomFill _).bind fun token _ ↦
    (besidesPin_pinStateStorePersist _).bind fun ok _ ↦ .ite (fun _ ↦ .pure fun _ ↦ rfl) fun _ ↦ ?_
  exact (besidesPin_note _).bind fun _ _ ↦ .pure fun hfailed ↦ absurd rfl hfailed

theorem besidesPin_pinClear (state : ClientPinState) :
    Sustains (BesidesPin files) (fun result ↦ result.1 = false → result.2.pinSet = state.pinSet)
      (pinClear crypto state) := by
  have hsecrets : Sustains (BesidesPin files) (fun _ ↦ True) (pinRefreshRuntimeSecrets crypto) :=
    (besidesPin_randomFill _).bind fun _ _ ↦ besidesPin_generateKeyAgreementKey.bind
      fun _ _ ↦ .pure trivial
  refine hsecrets.bind fun secrets _ ↦ ?_
  obtain ⟨nextPinToken, nextKeyAgreement⟩ := secrets
  cases nextKeyAgreement with
  | none => exact .pure fun _ ↦ rfl
  | some key =>
    refine besidesPin_pinStateStoreClear.bind fun ok _ ↦ .ite (fun _ ↦ .pure fun _ ↦ rfl) fun _ ↦ ?_
    exact (besidesPin_note _).bind fun _ _ ↦ .pure fun hfailed ↦ absurd hfailed (by simp)

end Operations

section Commands

variable {crypto : Crypto} {files : Path → Option Bytes}

/-- A command that reports no success has neither set nor removed the PIN. -/
def PinSetKept (state : ClientPinState) (result : CommandResult) : Prop :=
  result.status ≠ .success → result.state.pinSet = state.pinSet

theorem besidesPin_clientPinHandleSetPin (state : ClientPinState) (request : ClientPinRequest) :
    Sustains (BesidesPin files) (PinSetKept state)
      (clientPinHandleSetPin crypto state request) := by
  have hrefused : ∀ status, Sustains (BesidesPin files) (PinSetKept state)
      (pure { status, state } : Program Device CommandResult) := fun _ ↦ .pure fun _ ↦ rfl
  unfold clientPinHandleSetPin
  refine .ite (fun _ ↦ hrefused _) fun _ ↦ .ite (fun _ ↦ hrefused _) fun _ ↦
    .ite (fun _ ↦ hrefused _) fun _ ↦ ?_
  cases newPinCiphertextLen request.pinProtocol request.newPinEnc.length with
  | none => exact hrefused _
  | some newPinPlainLen =>
    dsimp only
    cases pinProtocolDeriveKeys crypto state request.pinProtocol request.platformX
        request.platformY with
    | none => exact hrefused _
    | some keys =>
      refine .ite (fun _ ↦ hrefused _) fun _ ↦ ?_
      cases decryptNewPin crypto request keys newPinPlainLen with
      | error status => exact hrefused _
      | ok pin =>
        exact (besidesPin_pinApplyPlaintext state pin true).bind fun _ hresult ↦ .pure hresult

theorem besidesPin_clientPinHandleChangePin (state : ClientPinState) (request : ClientPinRequest) :
    Sustains (BesidesPin files) (PinSetKept state)
      (clientPinHandleChangePin crypto state request) := by
  have hrefused : ∀ status, Sustains (BesidesPin files) (PinSetKept state)
      (pure { status, state } : Program Device CommandResult) := fun _ ↦ .pure fun _ ↦ rfl
  unfold clientPinHandleChangePin
  refine .ite (fun _ ↦ hrefused _) fun _ ↦ .ite (fun _ ↦ hrefused _) fun _ ↦
    .ite (fun _ ↦ hrefused _) fun _ ↦ ?_
  cases newPinCiphertextLen request.pinProtocol request.newPinEnc.length with
  | none => exact hrefused _
  | some newPinPlainLen =>
    dsimp only
    refine .ite (fun _ ↦ hrefused _) fun _ ↦ ?_
    cases pinProtocolDeriveKeys crypto state request.pinProtocol request.platformX
        request.platformY with
    | none => exact hrefused _
    | some keys =>
      dsimp only
      refine .ite (fun _ ↦ hrefused _) fun _ ↦ ?_
      cases (pinProtocolDecrypt crypto request.pinProtocol keys request.pinHashEnc).filter
          fun plain ↦ plain.length == pinHashLen with
      | none =>
        exact (besidesPin_pinAuthFailure state).bind fun _ hfailed ↦ .pure fun _ ↦ hfailed
      | some currentPinHash =>
        refine (besidesPin_pinVerifyHash state currentPinHash).bind fun verified hverified ↦
          .ite (fun _ ↦ .pure fun _ ↦ hverified) fun _ ↦ ?_
        cases decryptNewPin crypto request keys newPinPlainLen with
        | error status => exact .pure fun _ ↦ hverified
        | ok pin =>
          exact (besidesPin_pinApplyPlaintext verified.2 pin false).bind fun _ hresult ↦
            .pure fun hfailed ↦ (hresult hfailed).trans hverified

theorem besidesPin_issuePinToken (state : ClientPinState) (request : ClientPinRequest)
    (keys : ProtocolKeys) (permissionsMode requireLocalConsent : Bool) (outCapacity : ℕ) :
    Sustains (BesidesPin files) (fun result ↦ result.state.pinSet = state.pinSet)
      (issuePinToken crypto state request keys permissionsMode requireLocalConsent
        outCapacity) := by
  have hencrypt : ∀ token, Sustains (BesidesPin files) (fun _ ↦ True)
      (pinProtocolEncrypt crypto request.pinProtocol keys token pinEncryptedTokenMaxLen) := by
    intro token
    refine .ite (fun _ ↦ .pure trivial) fun _ ↦ .ite (fun _ ↦ ?_) fun _ ↦
      .ite (fun _ ↦ .pure trivial) fun _ ↦ ?_
    · exact .ite (fun _ ↦ .pure trivial) fun _ ↦ .pure trivial
    · exact (besidesPin_randomFill _).bind fun _ _ ↦ .pure trivial
  refine (besidesPin_randomFill _).bind fun token _ ↦ (hencrypt token).bind fun encrypted _ ↦ ?_
  cases encrypted with
  | none => exact .pure rfl
  | some encryptedToken =>
    dsimp only
    cases responseToken encryptedToken outCapacity with
    | none => exact .pure rfl
    | some response =>
      have hissued : ∀ next : ClientPinState,
          Sustains (BesidesPin files) (fun issued ↦ issued.pinSet = next.pinSet)
            (notePinTokenIssued next) :=
        fun next ↦ Sustains.get.bind fun _ _ ↦ .pure rfl
      dsimp only
      refine (hissued _).bind fun issued hset ↦ Sustains.get.bind fun world _ ↦ ?_
      exact (besidesPin_note _).bind fun _ _ ↦ .pure hset

theorem besidesPin_clientPinHandleGetPinToken (state : ClientPinState) (request : ClientPinRequest)
    (permissionsMode requireLocalConsent : Bool) (consent : ConsentOutcome)
    (delay outCapacity : ℕ) :
    Sustains (BesidesPin files) (fun result ↦ result.state.pinSet = state.pinSet)
      (clientPinHandleGetPinToken crypto state request permissionsMode requireLocalConsent consent
        (waitFor delay) outCapacity) := by
  have hconsent : ∀ next pinHashPlain, next.pinSet = state.pinSet → Sustains (BesidesPin files)
      (fun result ↦ result.2.pinSet = state.pinSet)
      (requestPermissionTokenConsent next pinHashPlain consent (waitFor delay)) := by
    intro next pinHashPlain hnext
    have hwait : Sustains (BesidesPin files) (fun waited ↦ waited = next) (waitFor delay next) :=
      (Sustains.modifying fun _ h ↦ h).bind fun _ _ ↦ .pure rfl
    refine hwait.bind fun waited hwaited ↦ ?_
    subst hwaited
    refine .ite (fun _ ↦ .pure hnext) fun _ ↦ .ite (fun _ ↦ .pure hnext) fun _ ↦ ?_
    exact (besidesPin_note _).bind fun _ _ ↦
      .ite (fun _ ↦ .pure hnext) fun _ ↦ .pure hnext
  unfold clientPinHandleGetPinToken
  refine .ite (fun _ ↦ .pure rfl) fun _ ↦ ?_
  cases pinProtocolDeriveKeys crypto state request.pinProtocol request.platformX
      request.platformY with
  | none => exact .pure rfl
  | some keys =>
    dsimp only
    cases (pinProtocolDecrypt crypto request.pinProtocol keys request.pinHashEnc).filter
        fun plain ↦ plain.length == pinHashLen with
    | none => exact (besidesPin_pinAuthFailure state).bind fun _ hfailed ↦ .pure hfailed
    | some pinHashPlain =>
      have hissue : ∀ next, next.pinSet = state.pinSet → Sustains (BesidesPin files)
          (fun result ↦ result.state.pinSet = state.pinSet)
          (issuePinToken crypto next request keys permissionsMode requireLocalConsent
            outCapacity) :=
        fun next hnext ↦ (besidesPin_issuePinToken next request keys permissionsMode
          requireLocalConsent outCapacity).mono fun _ hresult ↦ hresult.trans hnext
      refine (besidesPin_comparePinHash state pinHashPlain).bind fun compared hcompared ↦
        .ite (fun _ ↦ .pure hcompared) fun _ ↦ .ite (fun _ ↦ ?_) fun _ ↦ hissue _ hcompared
      exact (hconsent compared.2 pinHashPlain hcompared).bind fun consented hconsented ↦
        .ite (fun _ ↦ .pure hconsented) fun _ ↦ hissue _ hconsented

/-- The clientPIN command, whatever it is asked. -/
theorem besidesPin_pinHandleCommand (state : ClientPinState) (capabilities : Capabilities)
    (data : Bytes) (consent : ConsentOutcome) (delay outCapacity : ℕ) :
    Sustains (BesidesPin files) (PinSetKept state)
      (pinHandleCommand crypto state capabilities data consent (waitFor delay) outCapacity) := by
  have hkept : ∀ result : CommandResult, result.state = state →
      Sustains (BesidesPin files) (PinSetKept state) (pure result : Program Device _) :=
    fun result hresult ↦ .pure fun _ ↦ by rw [hresult]
  have htoken := fun permissionsMode requireLocalConsent request ↦
    (@besidesPin_clientPinHandleGetPinToken crypto files state request permissionsMode
      requireLocalConsent consent delay outCapacity).mono
        fun result hresult (_ : result.status ≠ .success) ↦ hresult
  unfold pinHandleCommand
  cases clientPinParseRequest data with
  | error status => exact hkept _ rfl
  | ok request =>
    refine .ite (fun _ ↦ hkept _ rfl) fun _ ↦ .ite (fun _ ↦ ?_) fun _ ↦ .ite (fun _ ↦ ?_) fun _ ↦
      .ite (fun _ ↦ besidesPin_clientPinHandleSetPin state request) fun _ ↦
      .ite (fun _ ↦ htoken _ _ request) fun _ ↦ .ite (fun _ ↦ ?_) fun _ ↦
      .ite (fun _ ↦ besidesPin_clientPinHandleChangePin state request) fun _ ↦ hkept _ rfl
    · cases responseRetries state outCapacity <;> exact hkept _ rfl
    · cases responseKeyAgreement state outCapacity <;> exact hkept _ rfl
    · exact .ite (fun _ ↦ hkept _ rfl) fun _ ↦ htoken _ _ request

end Commands

end ZeroFido.Pin
