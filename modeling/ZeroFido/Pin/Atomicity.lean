import ZeroFido.Pin.NewPin
import ZeroFido.Pin.Run

/-!
# Changing the PIN is atomic

What setPIN and changePIN leave behind when they report an error and when they report success, in
memory and for the next restart, whatever storage calls fail. A command that replaces the PIN file
takes a failure at its word (`HonestNext`): it is reported only when the file holds what it held.

A wrong current PIN is the only error that touches the stored PIN on purpose, and it lowers the
retries or spoils the file (`ensures_pinAuthFailure_kept`). A right one stores the state in memory
again, so that an error behind it leaves the file with the PIN in memory also where a restart would
have found nothing before (`change_pin_restores_file`).
-/

set_option autoImplicit false
set_option relaxedAutoImplicit false

namespace ZeroFido.Pin

open Foundations Storage Store

section Restart

variable {crypto : Crypto} {world : Device}

/-- The PIN hash and the retries that a restart in which no call fails finds in the files. -/
def restartFinds (crypto : Crypto) (files : Path → Option Bytes) : Option (Bytes × ℕ) :=
  match (pinInitWithResult crypto).run { World.blank PinEvent with files } with
  | .ok (_, state) _ => if state.pinSet then some (state.pinHash, state.pinRetries) else none
  | .error _ _ => none

/-- A restart in which no call fails takes what `loadedPin` takes from what the file holds. -/
theorem ensures_pinInitWithResult_finds (hwrites : world.writes = []) (hreads : world.reads = [])
    (henclave : world.enclave = []) :
    Ensures (pinInitWithResult crypto)
      (fun outcome _ ↦ (if outcome.2.pinSet then
          some (outcome.2.pinHash, outcome.2.pinRetries) else none) =
        ((logical world.files pinFilePath).bind (loadedPin crypto)).map
          fun found ↦ (found.pinHash, found.pinRetries))
      (fun _ ↦ False) world := by
  simp only [pinInitWithResult, pinStateStoreCleanupTemp, ensures_bind]
  refine (ensures_recoverAtomicFile pinPaths).mono ?_ fun final hfinal ↦ hfinal.writes hwrites
  rintro recovered first ⟨hkeeps, hdone, hfailed⟩
  have hprimary : first.files pinFilePath = logical world.files pinFilePath := by
    cases recovered with
    | true => exact hdone rfl
    | false => exact absurd hwrites (hfailed rfl).1
  have hquiet : Quiet world first := hkeeps.only.quiet
  have hreads' : first.reads = [] := List.suffix_nil.mp (hreads ▸ hquiet.reads)
  have henclave' : first.enclave = [] := List.suffix_nil.mp (henclave ▸ hquiet.enclave)
  refine ((ensures_pinStateStoreLoad _).and (ensures_pinStateStoreLoad_saved _)).mono ?_
    fun _ hfalse ↦ hfalse.1.elim
  rintro ⟨loadStatus, state⟩ second ⟨⟨-, -, hmissing, hstate⟩, -, hok, hcomplete⟩
  dsimp only at hstate hmissing hok
  have hunset : state.pinSet = false := by rw [hstate]
  rw [hprimary] at hmissing
  cases hload : loadStatus with
  | invalid =>
    have hnone : (logical world.files pinFilePath).bind (loadedPin crypto) = none := by
      cases hraw : logical world.files pinFilePath with
      | none => rfl
      | some raw =>
        cases hfound : loadedPin crypto raw with
        | none => exact hfound
        | some found =>
          have hresult := hcomplete hreads' henclave' raw (hprimary.trans hraw) found hfound
          rw [hload] at hresult
          exact absurd (Prod.mk.inj hresult).1 (by simp)
    simp only [if_true, ensures_pure, hunset, hnone]
    rfl
  | missing =>
    rw [hmissing.mp hload]
    simp only [reduceCtorEq, if_false, ensures_bind]
    refine ensures_pinRefreshRuntimeSecrets fun token key third _ _ ↦ ?_
    simp only [ensures_ite, ensures_pure, hunset]
    exact ⟨fun _ ↦ rfl, fun _ ↦ by simp [ClientPinState.resetTokenMetadata]⟩
  | ok =>
    obtain ⟨raw, found, hraw, hfound, rfl⟩ := hok hload
    have hlogical : logical world.files pinFilePath = some raw := hprimary.symm.trans hraw
    simp only [reduceCtorEq, if_false, if_true, ensures_bind]
    refine ensures_pinRefreshRuntimeSecrets fun token key third _ _ ↦ ?_
    simp only [ensures_ite, ensures_pure, hlogical, Option.bind_some, hfound, Option.map_some]
    exact ⟨fun _ ↦ rfl, fun _ ↦ rfl⟩

theorem restartFinds_eq (crypto : Crypto) (files : Path → Option Bytes) :
    restartFinds crypto files = ((logical files pinFilePath).bind (loadedPin crypto)).map
      fun found ↦ (found.pinHash, found.pinRetries) := by
  have hspec : Ensures (pinInitWithResult crypto) _ _ { World.blank PinEvent with files } :=
    ensures_pinInitWithResult_finds rfl rfl rfl
  unfold Ensures at hspec
  unfold restartFinds
  cases hrun : (pinInitWithResult crypto).run { World.blank PinEvent with files } with
  | ok outcome final =>
    rw [hrun] at hspec
    exact hspec
  | error reason final =>
    rw [hrun] at hspec
    exact hspec.elim

end Restart

section Failure

variable {crypto : Crypto} {state : ClientPinState} {world world' : Device}
  {files files' : Path → Option Bytes}

/-- No part of the record that marks the file invalid loads. -/
theorem loadedPin_invalidRecord (written : ℕ) :
    loadedPin crypto (invalidRecord.encode.take written) = none := by
  unfold loadedPin
  dsimp only
  refine if_neg ?_
  rintro ⟨hlength, hvalid, -⟩
  have hwhole : invalidRecord.encode.length = pinFileRecordSize := by decide
  have htake : invalidRecord.encode.take written = invalidRecord.encode := by
    rw [List.length_take, hwhole] at hlength
    refine List.take_of_length_le ?_
    omega
  rw [htake] at hvalid
  simp [PinFileRecord.headerValid, decode_encode_version, invalidRecord, pinFileVersion] at hvalid

/-- The file after a wrong current PIN: what it was, or a record with the PIN in memory, or nothing
that loads. -/
def KeptOrSpoilt (crypto : Crypto) (pinHash : Bytes) (files files' : Path → Option Bytes) : Prop :=
  logical files' pinFilePath = logical files pinFilePath ∨
    (∃ raw stored, logical files' pinFilePath = some raw ∧ stored.pinHash = pinHash ∧
      Saved crypto stored raw) ∨
    (logical files' pinFilePath).bind (loadedPin crypto) = none

/-- Failing closed leaves the file as it was or spoils it. -/
theorem ensures_pinStateStoreFailClosed_kept (crypto : Crypto) (hset : state.pinSet = true) :
    Ensures (pinStateStoreFailClosed state)
      (fun _ world' ↦ Consumes world world' ∧
        (logical world'.files pinFilePath = logical world.files pinFilePath ∨
          (logical world'.files pinFilePath).bind (loadedPin crypto) = none))
      (fun _ ↦ world.writes ≠ []) world := by
  have hspoilt : ∀ middle : Device, OnlyFiles world middle → ∀ written,
      middle.files = stored pinFilePath (invalidRecord.encode.take written) world.files →
      (logical middle.files pinFilePath).bind (loadedPin crypto) = none := by
    intro middle _ written hfiles
    rw [logical, hfiles, stored, Function.update_self, Option.some_or, Option.bind_some,
      loadedPin_invalidRecord]
  simp only [pinStateStoreFailClosed, hset, Bool.not_true, Bool.false_eq_true, if_false,
    pinInvalidatePersistedState, ensures_bind]
  refine ensures_createFile (fun middle honly hfiles ↦ ?_) fun middle honly hlisted hfiles ↦
    ⟨?_, hlisted⟩
  · refine ⟨.of_quiet honly.quiet, Or.inr (hspoilt middle honly invalidRecord.encode.length ?_)⟩
    rw [hfiles, List.take_length]
  · have hmiddle : logical middle.files pinFilePath = logical world.files pinFilePath ∨
        (logical middle.files pinFilePath).bind (loadedPin crypto) = none := by
      obtain hfiles | ⟨written, hfiles⟩ := hfiles
      · exact Or.inl (by rw [hfiles])
      · exact Or.inr (hspoilt middle honly written hfiles)
    simp only [Bool.false_eq_true, if_false]
    refine (ensures_removeAtomicFile pinPaths).mono ?_ fun _ _ ↦ hlisted
    rintro ok final ⟨hmoves, -⟩
    refine ⟨(Consumes.of_quiet honly.quiet).trans (.of_quiet hmoves.only.quiet), ?_⟩
    obtain hholds | hholds := hmoves.holds
    · rw [hholds]
      exact hmiddle
    · rw [hholds]
      exact Or.inr rfl

/-- Keeping a stricter state. -/
theorem ensures_persistOrBlock_kept (hset : state.pinSet = true) :
    Ensures (persistOrBlock crypto state)
      (fun after world' ↦ Consumes world world' ∧ after.pinSet = state.pinSet ∧
        after.pinHash = state.pinHash ∧
        (HonestNext crypto world → KeptOrSpoilt crypto state.pinHash world.files world'.files))
      (fun _ ↦ world.writes ≠ []) world := by
  simp only [persistOrBlock, ensures_bind]
  refine (ensures_pinStateStorePersist_saved hset).mono ?_ fun _ hcrash ↦ hcrash.listed
  rintro persisted middle ⟨hquiet, hdone, hkept, -⟩
  cases persisted with
  | true =>
    obtain ⟨raw, hraw, hsaved⟩ := hdone rfl
    refine ⟨.of_quiet hquiet, rfl, rfl, fun _ ↦ Or.inr (Or.inl ⟨raw, state, ?_, rfl, hsaved⟩)⟩
    rw [logical, hraw, Option.some_or]
  | false =>
    simp only [Bool.false_eq_true, if_false, ensures_bind]
    refine (ensures_pinStateStoreFailClosed_kept crypto hset).mono ?_ fun _ hlisted hnil ↦
      hlisted ((Consumes.of_quiet hquiet).writes_nil hnil)
    rintro closed final ⟨hconsumes, hfinal⟩
    have hall : Consumes world final := (Consumes.of_quiet hquiet).trans hconsumes
    have hfile : HonestNext crypto world →
        KeptOrSpoilt crypto state.pinHash world.files final.files := by
      intro honest
      obtain hsame | hspoilt := hfinal
      · exact Or.inl (hsame.trans (hkept rfl honest))
      · exact Or.inr (Or.inr hspoilt)
    cases closed with
    | true => exact ⟨hall, rfl, rfl, hfile⟩
    | false => exact ⟨hall, rfl, rfl, hfile⟩

/-- What follows a wrong current PIN. -/
theorem ensures_pinAuthFailure_kept (hset : state.pinSet = true) :
    Ensures (pinAuthFailure crypto state)
      (fun result world' ↦ Consumes world world' ∧ result.1 ≠ .success ∧
        result.2.pinSet = state.pinSet ∧ result.2.pinHash = state.pinHash ∧
        (HonestNext crypto world → KeptOrSpoilt crypto state.pinHash world.files world'.files))
      (fun _ ↦ world.writes ≠ []) world := by
  have hkept : KeptOrSpoilt crypto state.pinHash world.files world.files := Or.inl rfl
  simp only [pinAuthFailure, ensures_ite, ensures_pure]
  refine ⟨fun _ ↦ ⟨Consumes.refl _, by simp, trivial, trivial, fun _ ↦ hkept⟩, fun _ ↦ ?_⟩
  simp only [ensures_bind]
  refine ensures_generateKeyAgreementKey_sameStorage.mono ?_ fun _ hfalse ↦ hfalse.elim
  rintro generated middle ⟨hmiddle, hsame⟩
  have hfirst : Consumes world middle := .of_quiet hmiddle.toQuiet
  cases generated with
  | none =>
    refine ⟨hfirst, by simp, rfl, rfl, fun _ ↦ ?_⟩
    rw [hmiddle.files_eq]
    exact hkept
  | some key =>
    simp only [ensures_bind]
    have hpenalised : (penalised state key).pinSet = true := hset
    refine (ensures_persistOrBlock_kept hpenalised).mono ?_ fun _ hlisted hnil ↦
      hlisted (hmiddle.writes_nil hnil)
    rintro after final ⟨hconsumes, hpin, hhash, hfile⟩
    have hall : Consumes world final := hfirst.trans hconsumes
    have hfinal : HonestNext crypto world →
        KeptOrSpoilt crypto state.pinHash world.files final.files := by
      intro honest
      rw [← hmiddle.files_eq]
      exact hfile (honest.of_sameStorage hsame)
    simp only [ensures_ite, ensures_pure]
    refine ⟨fun _ ↦ ⟨hall, by simp, hpin, hhash, hfinal⟩, fun _ ↦ ⟨hall, ?_, hpin, hhash, hfinal⟩⟩
    split_ifs <;> simp

end Failure

section Tokens

variable {crypto : Crypto} {state : ClientPinState}

theorem exists_isIssue {trace : List PinEvent} {issue : ℕ × TokenGrant}
    (h : lastIssue trace = some issue) : ∃ event ∈ trace, event.isIssue = true := by
  induction trace using List.reverseRecOn with
  | nil => exact absurd h (by simp [lastIssue])
  | append_singleton trace event ih =>
    by_cases hissue : event.isIssue = true
    · exact ⟨event, by simp, hissue⟩
    · have hearlier : lastIssue trace = some issue := by
        rw [← h]
        cases event <;> simp_all [lastIssue, PinEvent.isIssue]
      obtain ⟨other, hother, hissued⟩ := ih hearlier
      exact ⟨other, List.mem_append_left _ hother, hissued⟩

/-- No token is good for anything: every request with a `pinUvAuthParam` is refused, and in what
follows nothing is authorised before a new token has been issued. -/
structure RefusesTokens (crypto : Crypto) (state : ClientPinState) (world : Device) : Prop where
  now : ∀ (request : AuthRequest) (device : Device), request.hasPinAuth = true →
    Ensures (pinRequireAuth crypto state request)
      (fun reply _ ↦ reply.1.1 ≠ .success ∧ reply.1.2 = false) (fun _ ↦ False) device
  later : ∀ operations before time permissions rpId after,
    (run (step crypto) ⟨state, { world with trace := [] }⟩ operations).world.trace =
      before ++ .authorized time permissions rpId :: after →
    ∃ event ∈ before, event.isIssue = true

theorem refusesTokens_of_inactive (hinactive : state.pinTokenActive = false) (world : Device) :
    RefusesTokens crypto state world where
  now := by
    intro request device hauth
    simp only [pinRequireAuth, hauth, hinactive, if_true, Bool.not_false, ensures_ite, ensures_pure]
    simp
  later := by
    intro operations before time permissions rpId after htrace
    have hstart : TokenHistory crypto (fun _ _ ↦ True) state { world with trace := [] } :=
      ⟨everyEvent_nil, fun hactive ↦ absurd (hactive.symm.trans hinactive) (by simp)⟩
    have hstep (system : System) (operation : Operation)
        (htoken : TokenHistory crypto (fun _ _ ↦ True) system.pin system.world) :
        TokenHistory crypto (fun _ _ ↦ True) (step crypto system operation).pin
          (step crypto system operation).world := step_tokenHistory (fun _ ↦ trivial) htoken
    have hrun : TokenHistory crypto (fun _ _ ↦ True)
        (run (step crypto) ⟨state, { world with trace := [] }⟩ operations).pin
        (run (step crypto) ⟨state, { world with trace := [] }⟩ operations).world :=
      run_invariant (fun system operation (_ : True) ↦ hstep system operation)
        (everyStep_of_forall (fun _ _ ↦ trivial) operations) hstart
    obtain ⟨-, issued, grant, hlast, -⟩ := hrun.history before _ after htrace
    exact exists_isIssue hlast

end Tokens

section Handlers

variable {crypto : Crypto} {state : ClientPinState} {request : ClientPinRequest}
  {world : Device}

/-- The request asks for the PIN. -/
def ProposesPin (crypto : Crypto) (state : ClientPinState) (request : ClientPinRequest)
    (pin : Bytes) : Prop :=
  ∃ keys block, pinProtocolDeriveKeys crypto state request.pinProtocol request.platformX
      request.platformY = some keys ∧
    pinProtocolDecrypt crypto request.pinProtocol keys request.newPinEnc = some block ∧
    NewPinBlock block pin

/-- The request does not carry the hash of the current PIN. -/
def WrongCurrentPin (crypto : Crypto) (state : ClientPinState)
    (request : ClientPinRequest) : Prop :=
  ∃ keys, pinProtocolDeriveKeys crypto state request.pinProtocol request.platformX
      request.platformY = some keys ∧
    ∀ current, pinProtocolDecrypt crypto request.pinProtocol keys request.pinHashEnc =
      some current → current.length = pinHashLen →
        constantTimeEqual current state.pinHash pinHashLen = false

/-- What success leaves: the proposed PIN with all the retries, in memory and for a restart, and no
token that is good for anything. -/
structure PinChanged (crypto : Crypto) (state : ClientPinState) (request : ClientPinRequest)
    (after : ClientPinState) (world : Device) : Prop where
  pinSet : after.pinSet = true
  pinHash : ∃ pin, ProposesPin crypto state request pin ∧
    after.pinHash = (crypto.sha256 pin).take pinHashLen
  pinRetries : after.pinRetries = 8
  restart : restartFinds crypto world.files = some (after.pinHash, 8)
  tokens : RefusesTokens crypto after world

/-- The PIN hash that a restart in which no call fails finds in the files. -/
def restartHash (crypto : Crypto) (files : Path → Option Bytes) : Option Bytes :=
  (restartFinds crypto files).map Prod.fst

/-- What an error of setPIN leaves: the PIN in memory, and what a restart finds. -/
structure PinUntouched (crypto : Crypto) (state : ClientPinState) (world : Device)
    (after : ClientPinState) (world' : Device) : Prop where
  pinSet : after.pinSet = state.pinSet
  pinHash : after.pinHash = state.pinHash
  restart : restartFinds crypto world'.files = restartFinds crypto world.files

/-- What an error of changePIN leaves: the PIN in memory, and for a restart the PIN it would have
found before, or the one in memory, or none when the current PIN was wrong. -/
structure PinKept (crypto : Crypto) (state : ClientPinState) (request : ClientPinRequest)
    (world : Device) (after : ClientPinState) (world' : Device) : Prop where
  pinSet : after.pinSet = state.pinSet
  pinHash : after.pinHash = state.pinHash
  restart : restartHash crypto world'.files = restartHash crypto world.files ∨
    restartHash crypto world'.files = some state.pinHash ∨
    WrongCurrentPin crypto state request ∧ restartHash crypto world'.files = none

theorem PinKept.refl (crypto : Crypto) (state : ClientPinState) (request : ClientPinRequest)
    (world : Device) : PinKept crypto state request world state world :=
  ⟨rfl, rfl, Or.inl rfl⟩

/-- What a restart finds depends on what the PIN file holds. -/
theorem restartFinds_congr {files files' : Path → Option Bytes}
    (h : logical files' pinFilePath = logical files pinFilePath) :
    restartFinds crypto files' = restartFinds crypto files := by
  rw [restartFinds_eq, restartFinds_eq, h]

/-- A restart finds the PIN of a state that was persisted. -/
theorem restartFinds_of_saved (hlaws : SealLaws crypto) (hfits : state.FitsFile) {raw : Bytes}
    (hraw : world.files pinFilePath = some raw) (hsaved : Saved crypto state raw) :
    restartFinds crypto world.files = some (state.pinHash, state.pinRetries) := by
  rw [restartFinds_eq, logical, hraw, Option.some_or, Option.bind_some,
    loadedPin_of_saved hlaws hfits hsaved]
  rfl

/-- A successful end of either command. -/
theorem Applied.pinChanged (hlaws : SealLaws crypto) {after : ClientPinState} {pin : Bytes}
    (h : Applied crypto pin after world) (hpin : ProposesPin crypto state request pin) :
    PinChanged crypto state request after world where
  pinSet := h.pinSet
  pinHash := ⟨pin, hpin, h.pinHash⟩
  pinRetries := h.pinRetries
  restart := by
    obtain ⟨raw, hraw, hsaved⟩ := h.file
    rw [restartFinds_of_saved hlaws (h.fitsFile hlaws) hraw hsaved, h.pinRetries]
    rfl
  tokens := refusesTokens_of_inactive h.tokenDropped world

/-- The decrypted PIN is the one the request proposes, once the policy has allowed it. -/
theorem proposesPin_of_decryptNewPin {keys : ProtocolKeys} {length : ℕ} {pin : Bytes}
    (hkeys : pinProtocolDeriveKeys crypto state request.pinProtocol request.platformX
      request.platformY = some keys)
    (hdecrypt : decryptNewPin crypto request keys length = .ok pin)
    (hpolicy : pinValidatePlaintextPolicy pin = .success) :
    ProposesPin crypto state request pin := by
  unfold decryptNewPin at hdecrypt
  cases hplain : pinProtocolDecrypt crypto request.pinProtocol keys request.newPinEnc with
  | none => simp [hplain] at hdecrypt
  | some block =>
    rw [hplain] at hdecrypt
    dsimp only at hdecrypt
    split_ifs at hdecrypt
    cases hblock : pinValidatePlaintextBlock block with
    | none => simp [hblock] at hdecrypt
    | some found =>
      rw [hblock] at hdecrypt
      obtain rfl := Except.ok.inj hdecrypt
      exact ⟨keys, block, hkeys, hplain, newPinBlock_iff.mpr ⟨hblock, hpolicy⟩⟩

theorem decryptNewPin_error {keys : ProtocolKeys} {length : ℕ} {status : CtapStatus}
    (h : decryptNewPin crypto request keys length = .error status) : status ≠ .success := by
  unfold decryptNewPin at h
  cases hplain : pinProtocolDecrypt crypto request.pinProtocol keys request.newPinEnc with
  | none =>
    rw [hplain] at h
    rw [← Except.error.inj h]
    decide
  | some block =>
    rw [hplain] at h
    dsimp only at h
    split_ifs at h
    · rw [← Except.error.inj h]
      decide
    · cases hblock : pinValidatePlaintextBlock block with
      | none =>
        rw [hblock] at h
        rw [← Except.error.inj h]
        decide
      | some pin => simp [hblock] at h

theorem ensures_clientPinHandleSetPin_atomic (hlaws : SealLaws crypto)
    (honest : HonestNext crypto world) :
    Ensures (clientPinHandleSetPin crypto state request)
      (fun result world' ↦
        (result.status ≠ .success → PinUntouched crypto state world result.state world') ∧
        (result.status = .success → PinChanged crypto state request result.state world'))
      (fun _ ↦ world.writes ≠ []) world := by
  have hkept : ∀ status : CtapStatus, status ≠ .success →
      (status ≠ .success → PinUntouched crypto state world state world) ∧
      (status = .success → PinChanged crypto state request state world) :=
    fun status hstatus ↦ ⟨fun _ ↦ ⟨rfl, rfl, rfl⟩, fun h ↦ absurd h hstatus⟩
  unfold clientPinHandleSetPin
  simp only [ensures_ite, ensures_pure]
  refine ⟨fun _ ↦ hkept .pinAuthInvalid (by decide), fun _ ↦
    ⟨fun _ ↦ hkept .missingParameter (by decide), fun _ ↦
      ⟨fun _ ↦ hkept .invalidParameter (by decide), fun _ ↦ ?_⟩⟩⟩
  cases newPinCiphertextLen request.pinProtocol request.newPinEnc.length with
  | none => exact hkept .invalidParameter (by decide)
  | some newPinPlainLen =>
    cases hkeys : pinProtocolDeriveKeys crypto state request.pinProtocol request.platformX
        request.platformY with
    | none => exact hkept .invalidParameter (by decide)
    | some keys =>
      simp only [ensures_ite, ensures_pure]
      refine ⟨fun _ ↦ hkept .pinAuthInvalid (by decide), fun _ ↦ ?_⟩
      cases hdecrypt : decryptNewPin crypto request keys newPinPlainLen with
      | error status => exact hkept status (decryptNewPin_error hdecrypt)
      | ok pin =>
        simp only [ensures_bind, ensures_pure]
        refine (ensures_pinApplyPlaintext_applied state pin true).mono ?_ fun _ hcrash ↦ hcrash
        rintro ⟨status, after⟩ final ⟨-, happlied, hunchanged, -⟩
        refine ⟨fun hstatus ↦ ?_, fun hstatus ↦ ?_⟩
        · have hsame := hunchanged hstatus
          exact ⟨hsame.pinSet, hsame.pinHash, restartFinds_congr (hsame.file honest)⟩
        · obtain ⟨hpolicy, hafter⟩ := happlied hstatus
          exact hafter.pinChanged hlaws (proposesPin_of_decryptNewPin hkeys hdecrypt hpolicy)

/-- The replacements of the PIN file that a changePIN makes report a failure only when the file holds
what it held: the first one, and after a right current PIN, which is stored with all the retries,
the one that stores the new PIN. -/
structure HonestChange (crypto : Crypto) (state : ClientPinState) (world : Device) : Prop where
  first : HonestNext crypto world
  second : Ensures (pinAuthSuccess crypto state)
    (fun result middle ↦ result.1 = .success → HonestNext crypto middle) (fun _ ↦ True)
    { world with trace := world.trace ++ [.hashCompared true] }

/-- After a wrong current PIN. -/
theorem PinKept.of_wrong (hlaws : SealLaws crypto) (hhash : state.pinHash.length = pinHashLen)
    {after : ClientPinState} {world' : Device} (hwrong : WrongCurrentPin crypto state request)
    (hpin : after.pinSet = state.pinSet) (hafter : after.pinHash = state.pinHash)
    (hfile : KeptOrSpoilt crypto state.pinHash world.files world'.files) :
    PinKept crypto state request world after world' := by
  refine ⟨hpin, hafter, ?_⟩
  have hnone : (logical world'.files pinFilePath).bind (loadedPin crypto) = none →
      restartHash crypto world'.files = none := by
    intro hnothing
    rw [restartHash, restartFinds_eq, hnothing]
    rfl
  obtain hsame | ⟨raw, stored, hraw, hstored, hsaved⟩ | hspoilt := hfile
  · exact Or.inl (congrArg (Option.map Prod.fst) (restartFinds_congr hsame))
  · cases hfound : loadedPin crypto raw with
    | none => exact Or.inr (Or.inr ⟨hwrong, hnone (by rw [hraw]; exact hfound)⟩)
    | some found =>
      refine Or.inr (Or.inl ?_)
      have hpinHash := pinHash_of_saved hlaws (by rw [hstored]; exact hhash) hsaved hfound
      rw [restartHash, restartFinds_eq, hraw, Option.bind_some, hfound, ← hstored, ← hpinHash]
      rfl
  · exact Or.inr (Or.inr ⟨hwrong, hnone hspoilt⟩)

theorem ensures_clientPinHandleChangePin_atomic (hlaws : SealLaws crypto)
    (hhash : state.pinHash.length = pinHashLen) (honest : HonestChange crypto state world) :
    Ensures (clientPinHandleChangePin crypto state request)
      (fun result world' ↦
        (result.status ≠ .success → PinKept crypto state request world result.state world') ∧
        (result.status = .success → PinChanged crypto state request result.state world'))
      (fun _ ↦ world.writes ≠ []) world := by
  have hkept : ∀ status : CtapStatus, status ≠ .success →
      (status ≠ .success → PinKept crypto state request world state world) ∧
      (status = .success → PinChanged crypto state request state world) :=
    fun status hstatus ↦ ⟨fun _ ↦ PinKept.refl _ _ _ _, fun h ↦ absurd h hstatus⟩
  unfold clientPinHandleChangePin
  simp only [ensures_ite, ensures_pure]
  refine ⟨fun hexisting ↦ hkept _ hexisting, fun hexisting ↦
    ⟨fun _ ↦ hkept .missingParameter (by decide), fun _ ↦
      ⟨fun _ ↦ hkept .invalidParameter (by decide), fun _ ↦ ?_⟩⟩⟩
  obtain ⟨hset, hblocked, hretries⟩ := requireExistingPin_success (not_not.mp hexisting)
  cases newPinCiphertextLen request.pinProtocol request.newPinEnc.length with
  | none => exact hkept .invalidParameter (by decide)
  | some newPinPlainLen =>
    simp only [ensures_ite, ensures_pure]
    refine ⟨fun _ ↦ hkept .invalidParameter (by decide), fun _ ↦ ?_⟩
    cases hkeys : pinProtocolDeriveKeys crypto state request.pinProtocol request.platformX
        request.platformY with
    | none => exact hkept .invalidParameter (by decide)
    | some keys =>
      simp only [ensures_ite, ensures_pure]
      refine ⟨fun _ ↦ hkept .pinAuthInvalid (by decide), fun _ ↦ ?_⟩
      have hfailure : ∀ trace : List PinEvent, WrongCurrentPin crypto state request →
          Ensures (pinAuthFailure crypto state)
            (fun result world' ↦ result.1 ≠ .success ∧
              PinKept crypto state request world result.2 world')
            (fun _ ↦ world.writes ≠ []) { world with trace } := by
        intro trace hwrong
        refine (ensures_pinAuthFailure_kept hset).mono ?_ fun _ hlisted ↦ hlisted
        rintro ⟨status, after⟩ final ⟨-, hstatus, hpin, hafter, hfile⟩
        have hsame : SameStorage world { world with trace } := rfl
        exact ⟨hstatus, .of_wrong hlaws hhash hwrong hpin hafter
          (hfile (honest.first.of_sameStorage hsame))⟩
      cases hcurrent : (pinProtocolDecrypt crypto request.pinProtocol keys
          request.pinHashEnc).filter fun plain ↦ plain.length == pinHashLen with
      | none =>
        simp only [ensures_bind, ensures_pure]
        have hwrong : WrongCurrentPin crypto state request := by
          refine ⟨keys, hkeys, fun current hdecrypted hlength ↦ ?_⟩
          rw [hdecrypted] at hcurrent
          simp [Option.filter, hlength] at hcurrent
        refine (hfailure world.trace hwrong).mono ?_ fun _ hcrash ↦ hcrash
        rintro ⟨status, after⟩ final ⟨hstatus, hafter⟩
        exact ⟨fun _ ↦ hafter, fun h ↦ absurd h hstatus⟩
      | some current =>
        have hpositive : ¬state.pinRetries = 0 := by omega
        simp only [pinVerifyHash, comparePinHash, note, hset, hblocked, hpositive, Bool.not_true,
          Bool.false_eq_true, if_false, ensures_bind, ensures_modify]
        cases hequal : constantTimeEqual current state.pinHash pinHashLen with
        | false =>
          have hwrong : WrongCurrentPin crypto state request := by
            refine ⟨keys, hkeys, fun other hdecrypted hlength ↦ ?_⟩
            rw [hdecrypted] at hcurrent
            obtain rfl : other = current := by simpa [Option.filter, hlength] using hcurrent
            exact hequal
          simp only [Bool.not_false, if_true]
          refine (hfailure (world.trace ++ [.hashCompared false]) hwrong).mono ?_
            fun _ hcrash ↦ hcrash
          rintro ⟨status, after⟩ final ⟨hstatus, hafter⟩
          simp only [ensures_ite, ensures_pure]
          exact ⟨fun _ ↦ ⟨fun _ ↦ hafter, fun h ↦ absurd h hstatus⟩, fun h ↦
            absurd (not_not.mp h) hstatus⟩
        | true =>
          simp only [Bool.not_true, Bool.false_eq_true, if_false]
          refine ((ensures_pinAuthSuccess_saved hset).and honest.second).mono ?_
            fun _ hcrash ↦ hcrash.1
          rintro ⟨status, verified⟩ middle
            ⟨⟨hmiddle, hpin, hpinHash, hsuccess, hunchanged, -⟩, hnext⟩
          simp only [ensures_ite, ensures_pure]
          refine ⟨fun hstatus ↦ ⟨fun _ ↦ ?_, fun h ↦ absurd h hstatus⟩, fun hstatus ↦ ?_⟩
          · have hsame := hunchanged hstatus
            have hcompared : SameStorage world
              { world with trace := world.trace ++ [.hashCompared true] } := rfl
            exact ⟨hsame.pinSet, hsame.pinHash, Or.inl (congrArg (Option.map Prod.fst)
              (restartFinds_congr (hsame.file (honest.first.of_sameStorage hcompared))))⟩
          -- The current PIN was right, and the file holds the state in memory.
          obtain ⟨hfull, hnone, raw, hraw, hsaved⟩ := hsuccess (not_not.mp hstatus)
          have hfits : verified.FitsFile :=
            ⟨(congrArg List.length hpinHash).trans hhash, Nat.le_of_eq hfull,
              by rw [hnone]; exact Nat.zero_le 3⟩
          have hrestart : restartHash crypto middle.files = some state.pinHash := by
            rw [restartHash, restartFinds_of_saved hlaws hfits hraw hsaved, hpinHash]
            rfl
          cases hdecrypt : decryptNewPin crypto request keys newPinPlainLen with
          | error error =>
            exact ⟨fun _ ↦ ⟨hpin, hpinHash, Or.inr (Or.inl hrestart)⟩, fun h ↦
              absurd h (decryptNewPin_error hdecrypt)⟩
          | ok pin =>
            simp only [ensures_bind, ensures_pure]
            refine (ensures_pinApplyPlaintext_applied verified pin false).mono ?_
              fun _ hlisted hnil ↦ hlisted (hmiddle.writes_nil hnil)
            rintro ⟨applied, after⟩ final ⟨-, happlied, hkeeps, -⟩
            refine ⟨fun hfailed ↦ ?_, fun hdone ↦ ?_⟩
            · have hsame := hkeeps hfailed
              refine ⟨hsame.pinSet.trans hpin, hsame.pinHash.trans hpinHash,
                Or.inr (Or.inl ?_)⟩
              rw [← hrestart]
              exact congrArg (Option.map Prod.fst)
                (restartFinds_congr (hsame.file (hnext (not_not.mp hstatus))))
            · obtain ⟨hpolicy, hafter⟩ := happlied hdone
              exact hafter.pinChanged hlaws (proposesPin_of_decryptNewPin hkeys hdecrypt hpolicy)

end Handlers

section Honesty

variable {crypto : Crypto} {state : ClientPinState} {world world' : Device}

/-- On storage where nothing fails the next replacement is honest. -/
theorem honestNext_of_nil (hwrites : world.writes = []) : HonestNext crypto world := by
  intro state middle hmiddle
  have hnil : middle.writes = [] := by
    rw [hmiddle]
    exact hwrites
  by_cases hset : state.pinSet = true
  · apply ensures_pinStateStorePersist_writes hset
    · intro final hidle _ _
      rw [hidle.files_eq]
    · intro final _ _
      trivial
    · intro before iv sealIv hidle _ _
      refine (ensures_writeFileAtomic pinPaths (encode_ne_nil _)).mono ?_ fun _ _ ↦ trivial
      rintro ok final ⟨-, -, hlisted⟩ hok
      exact absurd (hidle.writes_nil hnil) (hlisted hok)
  · simp [pinStateStorePersist, hset]

/-- On storage where nothing fails both replacements are honest. -/
theorem honestChange_of_nil (hset : state.pinSet = true) (hwrites : world.writes = []) :
    HonestChange crypto state world where
  first := honestNext_of_nil hwrites
  second := by
    refine (ensures_pinAuthSuccess_saved hset).mono ?_ fun _ _ ↦ trivial
    rintro result middle ⟨hconsumes, -⟩ _
    exact honestNext_of_nil (hconsumes.writes_nil hwrites)

/-- The directories and a PIN file exist, and the next replacement of it is cut short in its
temporary file. -/
structure CutsTemp (world : Device) : Prop where
  primary : (world.files pinFilePath).isSome = true
  root : world.directories appDataRoot = true
  directory : world.directories appDataDir = true
  writes : ∃ progress rest, world.writes = .done :: .done :: .done :: .failed progress :: rest

theorem CutsTemp.of_sameStorage (h : CutsTemp world) (hsame : SameStorage world world') :
    CutsTemp world' := by
  rw [hsame]
  exact ⟨h.primary, h.root, h.directory, h.writes⟩

/-- Sealing neither writes nor takes an outcome of a write. -/
theorem ensures_enclaveSeal_writes {iv plaintext : Bytes} :
    Ensures (crypto.enclaveSeal iv plaintext)
      (fun _ world' ↦ world'.files = world.files ∧ world'.writes = world.writes)
      (fun _ ↦ False) world := by
  simp only [Crypto.enclaveSeal, nextEnclave, ensures_bind, ensures_modifyGet]
  by_cases hopened : world.enclave.headD true = true
  · simp only [hopened, if_true, ensures_pure]
    trivial
  · simp only [hopened]
    exact ⟨rfl, rfl⟩

/-- Such a replacement fails and leaves the file what it was. -/
theorem CutsTemp.ensures_pinStateStorePersist (h : CutsTemp world) (hset : state.pinSet = true) :
    Ensures (pinStateStorePersist crypto state)
      (fun ok final ↦ ok = false ∧
        logical final.files pinFilePath = logical world.files pinFilePath) (fun _ ↦ True) world := by
  obtain ⟨progress, rest, hwrites⟩ := h.writes
  simp only [Pin.pinStateStorePersist, hset, ensureAppDataDir, ensureDir, h.root, h.directory,
    ensures_andM, ensures_bind, ensures_get, if_true, ensures_pure, randomFill, ensures_modifyGet,
    Bool.not_true, Bool.false_eq_true, if_false, reduceCtorEq, IsEmpty.forall_iff, and_true,
    forall_const]
  refine ensures_enclaveSeal_writes.mono ?_ fun _ hfalse ↦ hfalse.elim
  rintro encrypted second ⟨hsecond, hsecond'⟩
  cases encrypted with
  | none => exact ⟨rfl, by rw [hsecond]⟩
  | some encryptedPinHash =>
    simp only [pinSealRetryState, randomFill, ensures_bind, ensures_modifyGet]
    refine ensures_enclaveSeal_writes.mono ?_ fun _ hfalse ↦ hfalse.elim
    rintro sealed third ⟨hthird, hthird'⟩
    have hfiles : third.files = world.files := hthird.trans hsecond
    cases sealed with
    | none => exact ⟨rfl, by rw [hfiles]⟩
    | some encryptedRetrySeal =>
      simp only [ensures_pure]
      rw [← hfiles]
      apply ensures_writeFileAtomic_cutTemp pinPaths
      · rw [hfiles]
        exact h.primary
      · exact (hthird'.trans hsecond').trans hwrites

theorem CutsTemp.honestNext (h : CutsTemp world) : HonestNext crypto world := by
  intro state middle hmiddle
  by_cases hset : state.pinSet = true
  · refine ((h.of_sameStorage hmiddle).ensures_pinStateStorePersist hset).mono ?_
      fun _ htrivial ↦ htrivial
    rintro ok final ⟨-, hsame⟩ _
    exact hsame
  · simp [pinStateStorePersist, hset]

/-- The right current PIN is not stored with all the retries, and there is no second replacement. -/
theorem CutsTemp.honestChange (h : CutsTemp world) (hset : state.pinSet = true) :
    HonestChange crypto state world where
  first := h.honestNext
  second := by
    have hsame : SameStorage world
      { world with trace := world.trace ++ [.hashCompared true] } := rfl
    simp only [pinAuthSuccess, ensures_bind]
    refine ((h.of_sameStorage hsame).ensures_pinStateStorePersist ?_).mono ?_
      fun _ htrivial ↦ htrivial
    · exact hset
    · rintro ok middle ⟨rfl, -⟩
      simp

end Honesty

section Results

/-- An error of setPIN changes neither the PIN in memory nor what a restart finds. After an error of
changePIN the PIN in memory is the same, and a restart finds the PIN it would have found before, or
the one in memory, or none when the current PIN was wrong. Success leaves the proposed PIN with all
the retries in memory and for a restart, and no token issued before is accepted. Only the
replacements that the command itself makes have to be honest. -/
theorem set_change_pin_atomic (crypto : Crypto) (hlaws : SealLaws crypto) (state : ClientPinState)
    (hhash : state.pinHash.length = pinHashLen) (request : ClientPinRequest) (world : Device) :
    (HonestNext crypto world →
      Ensures (clientPinHandleSetPin crypto state request)
        (fun result world' ↦
          (result.status ≠ .success → PinUntouched crypto state world result.state world') ∧
          (result.status = .success → PinChanged crypto state request result.state world'))
        (fun _ ↦ world.writes ≠ []) world) ∧
    (HonestChange crypto state world →
      Ensures (clientPinHandleChangePin crypto state request)
        (fun result world' ↦
          (result.status ≠ .success → PinKept crypto state request world result.state world') ∧
          (result.status = .success → PinChanged crypto state request result.state world'))
        (fun _ ↦ world.writes ≠ []) world) :=
  ⟨fun honest ↦ ensures_clientPinHandleSetPin_atomic hlaws honest,
    fun honest ↦ ensures_clientPinHandleChangePin_atomic hlaws hhash honest⟩

/-- The PIN "1234" set on a new authenticator, and then a device whose next replacement of the PIN
file is cut short after four bytes. -/
def cutDevice : System :=
  let system := run (step Crypto.standIn) (start (World.blank PinEvent))
    [.restart, .setPin examplePin]
  { system with world := { system.world with writes := [.done, .done, .done, .failed 5] } }

/-- The current PIN is right, and so is the new one. -/
def newPin1234 : ClientPinRequest :=
  { request1234 with pinHashEnc := examplePin ++ zeroBytes 12 }

/-- The status of a changePIN, and the PIN hash that a restart finds afterwards. -/
def afterChangePin (system : System) (request : ClientPinRequest) :
    Option (CtapStatus × Option Bytes) :=
  match (clientPinHandleChangePin Crypto.standIn system.pin request).run system.world with
  | .ok result final => some (result.status, restartHash Crypto.standIn final.files)
  | .error _ _ => none

/-- The right current PIN cannot be stored with all the retries: the command fails, and a restart
finds the old PIN. -/
theorem set_change_pin_atomic_cutWrite :
    afterChangePin cutDevice newPin1234 = some (.other, some (examplePin ++ zeroBytes 12)) ∧
      Ensures (clientPinHandleChangePin Crypto.standIn cutDevice.pin newPin1234)
        (fun result world' ↦
          (result.status ≠ .success → PinKept Crypto.standIn cutDevice.pin newPin1234
            cutDevice.world result.state world') ∧
          (result.status = .success → PinChanged Crypto.standIn cutDevice.pin newPin1234
            result.state world'))
        (fun _ ↦ cutDevice.world.writes ≠ []) cutDevice.world := by
  have hcut : CutsTemp cutDevice.world := by
    constructor
    · decide +kernel
    · decide +kernel
    · decide +kernel
    · exact ⟨5, [], by decide +kernel⟩
  constructor
  · decide +kernel
  · apply (set_change_pin_atomic Crypto.standIn sealLaws_standIn cutDevice.pin (by decide +kernel)
      newPin1234 cutDevice.world).2
    apply hcut.honestChange
    decide +kernel

/-- A run in which the stricter state after a wrong guess could not be persisted, so that the file
was marked invalid. -/
def spoiltFile : System :=
  run (step Crypto.standIn)
    (start { World.blank PinEvent with writes := List.replicate 10 .done ++ [.failed 0] })
    [.restart, .setPin examplePin, .verifyPin [0x35, 0x36, 0x37, 0x38]]

/-- The current PIN is right, and the new one is too short. -/
def shortNewPin : ClientPinRequest :=
  { request1234 with
    newPinEnc := [0x31, 0x32] ++ List.replicate 62 0
    pinHashEnc := examplePin ++ zeroBytes 12
    pinAuth := [0x31, 0x32] ++ List.replicate 14 0 }

/-- The error changes what a restart finds, although the current PIN was right: a restart would have
found no valid file before. -/
theorem change_pin_restores_file :
    HonestChange Crypto.standIn spoiltFile.pin spoiltFile.world ∧
      ¬WrongCurrentPin Crypto.standIn spoiltFile.pin shortNewPin ∧
      ∃ result final, (clientPinHandleChangePin Crypto.standIn spoiltFile.pin shortNewPin).run
          spoiltFile.world = .ok result final ∧
        result.status ≠ .success ∧
        restartHash Crypto.standIn final.files ≠
          restartHash Crypto.standIn spoiltFile.world.files := by
  have hbefore : restartHash Crypto.standIn spoiltFile.world.files = none := by decide +kernel
  have hafter : afterChangePin spoiltFile shortNewPin =
      some (.pinPolicyViolation, some (examplePin ++ zeroBytes 12)) := by decide +kernel
  have hwrites : spoiltFile.world.writes = [] := by decide +kernel
  have hset : spoiltFile.pin.pinSet = true := by decide +kernel
  refine ⟨honestChange_of_nil hset hwrites, ?_, ?_⟩
  · rintro ⟨keys, hkeys, hwrong⟩
    have hequal : constantTimeEqual shortNewPin.pinHashEnc spoiltFile.pin.pinHash pinHashLen =
        true := by decide +kernel
    exact absurd ((hwrong shortNewPin.pinHashEnc rfl rfl).symm.trans hequal) (by simp)
  · unfold afterChangePin at hafter
    split at hafter
    · rename_i result final hrun
      obtain ⟨hstatus, hfinal⟩ := Prod.mk.inj (Option.some.inj hafter)
      refine ⟨result, final, hrun, ?_, ?_⟩
      · rw [hstatus]
        decide
      · rw [hbefore, hfinal]
        simp
    · exact absurd hafter (by simp)

end Results

end ZeroFido.Pin
