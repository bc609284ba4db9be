import ZeroFido.Cbor.Utf8
import ZeroFido.Pin.Sealed
import ZeroFido.Pin.TokenIssue

/-!
# The policy for a new PIN

What setPIN and changePIN accept as a new PIN, and what is then stored. The padding of the block,
the length in bytes, the encoding and the number of code points are checked in four functions;
together they accept the blocks of `NewPinBlock` (`newPinBlock_iff`).
-/

set_option autoImplicit false
set_option relaxedAutoImplicit false

namespace ZeroFido.Pin

open Foundations Storage Store

section Validators

/-- The two validators accept the encodings of the sequences of Unicode scalar values, and the one
for PINs counts the scalar values. -/
theorem utf8_validators (text : Bytes) :
    (Cbor.utf8IsValid text = true ↔ ∃ scalars, text = Cbor.utf8Encoding scalars) ∧
      (∀ count, pinValidateUtf8 text = some count ↔
        ∃ scalars, text = Cbor.utf8Encoding scalars ∧ scalars.length = count) ∧
      (pinValidateUtf8 text).isSome = Cbor.utf8IsValid text :=
  ⟨Cbor.utf8IsValid_iff, fun _ ↦ Cbor.utf8Count_eq_some, rfl⟩

end Validators

section Policy

variable {pin block : Bytes}

/-- A PIN that the policy allows. -/
structure AcceptablePin (pin : Bytes) : Prop where
  noZero : 0 ∉ pin
  encoded : ∃ scalars, pin = Cbor.utf8Encoding scalars ∧ minPinLength ≤ scalars.length
  short : pin.length ≤ pinNewPinBlockMaxLen - 1

/-- The block is the PIN with one or more zero bytes behind it. -/
structure NewPinBlock (block pin : Bytes) : Prop where
  padded : ∃ padding, 0 < padding ∧ block = pin ++ List.replicate padding 0
  acceptable : AcceptablePin pin

/-- The bytes before the first zero byte, in a block that ends in zero bytes. -/
theorem takeWhile_padded (hzero : 0 ∉ pin) (padding : ℕ) :
    (pin ++ List.replicate (padding + 1) 0).takeWhile (· != 0) = pin := by
  rw [List.takeWhile_append_of_pos]
  · rw [List.replicate_succ, List.takeWhile_cons_of_neg (by simp), List.append_nil]
  · intro byte hbyte
    simp only [bne_iff_ne]
    rintro rfl
    exact hzero hbyte

/-- The block check finds the PIN in front of the padding. -/
theorem pinValidatePlaintextBlock_eq_some : pinValidatePlaintextBlock block = some pin ↔
    0 ∉ pin ∧ pin.length ≤ maxPinUtf8Bytes ∧
      ∃ padding, 0 < padding ∧ block = pin ++ List.replicate padding 0 := by
  unfold pinValidatePlaintextBlock
  dsimp only
  constructor
  · intro h
    split_ifs at h with hfull hlong hpadding
    obtain rfl := Option.some.inj h
    have hnonzero : ∀ byte ∈ block.takeWhile (· != 0), (byte != 0) = true :=
      List.all_eq_true.mp List.all_takeWhile
    obtain ⟨rest, hrest⟩ : block.takeWhile (· != 0) <+: block := List.takeWhile_prefix _
    generalize block.takeWhile (· != 0) = pin at hfull hlong hpadding hnonzero hrest ⊢
    obtain rfl := hrest
    rw [List.drop_left, List.all_eq_true] at hpadding
    rw [List.length_append] at hfull
    refine ⟨fun hzero ↦ absurd (hnonzero 0 hzero) (by simp), Nat.le_of_not_lt hlong, rest.length,
      by omega, congrArg (pin ++ ·) ?_⟩
    exact List.eq_replicate_iff.mpr ⟨rfl, fun byte hbyte ↦ by simpa using hpadding byte hbyte⟩
  · rintro ⟨hzero, hshort, padding, hpadding, rfl⟩
    obtain ⟨padding, rfl⟩ : ∃ count, padding = count + 1 := ⟨padding - 1, by omega⟩
    rw [takeWhile_padded hzero, if_neg (by simp), if_neg (Nat.not_lt.mpr hshort), List.drop_left,
      if_pos (by simp)]

/-- A scalar value has at least one byte. -/
theorem length_le_length_utf8Encoding (scalars : List Char) :
    scalars.length ≤ (Cbor.utf8Encoding scalars).length := by
  induction scalars with
  | nil => exact Nat.le_refl 0
  | cons scalar scalars ih =>
    obtain ⟨lead, tail, hencode, -⟩ := Cbor.codePoint_utf8EncodeChar scalar
    rw [Cbor.utf8Encoding] at ih ⊢
    rw [List.flatMap_cons, hencode, List.length_append, List.length_cons, List.length_cons]
    omega

/-- The policy on a PIN without its padding. -/
theorem pinValidatePlaintextPolicy_eq_success : pinValidatePlaintextPolicy pin = .success ↔
    pin.length ≤ maxPinUtf8Bytes ∧
      ∃ scalars, pin = Cbor.utf8Encoding scalars ∧ minPinLength ≤ scalars.length := by
  unfold pinValidatePlaintextPolicy
  by_cases hlong : maxPinUtf8Bytes < pin.length
  · rw [if_pos hlong]
    simp [Nat.not_le.mpr hlong]
  rw [if_neg hlong]
  cases hcount : pinValidateUtf8 pin with
  | none =>
    refine ⟨fun h ↦ absurd h (by simp), ?_⟩
    rintro ⟨-, scalars, rfl, -⟩
    rw [pinValidateUtf8, Cbor.utf8Count_utf8Encoding] at hcount
    exact absurd hcount (by simp)
  | some codepoints =>
    obtain ⟨scalars, rfl, rfl⟩ := Cbor.utf8Count_eq_some.mp hcount
    have hbytes := length_le_length_utf8Encoding scalars
    simp only [pinValidatePlaintextLength]
    constructor
    · intro h
      split_ifs at h with hbounds
      exact ⟨Nat.le_of_not_lt hlong, scalars, rfl,
        Nat.le_of_not_lt fun hlow ↦ hbounds (Or.inl hlow)⟩
    · rintro ⟨-, others, hsame, hlow⟩
      have hlength : scalars.length = others.length := by
        have hcounts := Cbor.utf8Count_utf8Encoding scalars
        rw [hsame, Cbor.utf8Count_utf8Encoding] at hcounts
        exact (Option.some.inj hcounts).symm
      exact if_neg (by omega)

/-- The checks on a new PIN come to one condition on the decrypted block. -/
theorem newPinBlock_iff : NewPinBlock block pin ↔
    pinValidatePlaintextBlock block = some pin ∧ pinValidatePlaintextPolicy pin = .success := by
  rw [pinValidatePlaintextBlock_eq_some, pinValidatePlaintextPolicy_eq_success]
  constructor
  · rintro ⟨hpadded, hzero, hencoded, hshort⟩
    exact ⟨⟨hzero, hshort, hpadded⟩, hshort, hencoded⟩
  · rintro ⟨⟨hzero, hshort, hpadded⟩, -, hencoded⟩
    exact ⟨hpadded, hzero, hencoded, hshort⟩

/-- A block is the padding of one PIN. -/
theorem NewPinBlock.unique {other : Bytes} (h : NewPinBlock block pin)
    (hother : NewPinBlock block other) : pin = other :=
  Option.some.inj ((newPinBlock_iff.mp h).1.symm.trans (newPinBlock_iff.mp hother).1)

end Policy

section Storage

variable {crypto : Crypto} {world : Device}

/-- What a successful setPIN or changePIN leaves: the PIN in memory and in the file, with all the
retries, and no token. -/
structure Applied (crypto : Crypto) (pin : Bytes) (state : ClientPinState) (world : Device) :
    Prop where
  pinSet : state.pinSet = true
  pinHash : state.pinHash = (crypto.sha256 pin).take pinHashLen
  pinRetries : state.pinRetries = pinRetriesMax
  pinConsecutiveMismatches : state.pinConsecutiveMismatches = 0
  tokenDropped : state.pinTokenActive = false
  file : ∃ raw, world.files pinFilePath = some raw ∧ Saved crypto state raw

theorem Applied.fitsFile {pin : Bytes} {state : ClientPinState} (h : Applied crypto pin state world)
    (hlaws : SealLaws crypto) : state.FitsFile where
  pinHash := by
    rw [h.pinHash, List.length_take, hlaws.length_sha256]
    rfl
  pinRetries := Nat.le_of_eq h.pinRetries
  pinConsecutiveMismatches := by
    rw [h.pinConsecutiveMismatches]
    exact Nat.zero_le 3

/-- The PIN in memory is the one before, and so is the file, if the storage is honest. -/
structure Unchanged (crypto : Crypto) (state : ClientPinState) (world : Device)
    (state' : ClientPinState) (world' : Device) : Prop where
  pinSet : state'.pinSet = state.pinSet
  pinHash : state'.pinHash = state.pinHash
  file : HonestNext crypto world →
    logical world'.files pinFilePath = logical world.files pinFilePath

theorem Unchanged.refl (crypto : Crypto) (state : ClientPinState) (world : Device) :
    Unchanged crypto state world state world :=
  ⟨rfl, rfl, fun _ ↦ rfl⟩

/-- Setting or replacing the PIN does all of it or nothing. -/
theorem ensures_pinApplyPlaintext_applied (state : ClientPinState) (pin : Bytes)
    (requireUnset : Bool) :
    Ensures (pinApplyPlaintext crypto state pin requireUnset)
      (fun result world' ↦ Consumes world world' ∧
        (result.1 = .success → pinValidatePlaintextPolicy pin = .success ∧
          Applied crypto pin result.2 world') ∧
        (result.1 ≠ .success → Unchanged crypto state world result.2 world') ∧
        (pinValidatePlaintextPolicy pin = .success → (requireUnset && state.pinSet) = false →
          world.writes = [] → world.enclave = [] → result.1 = .success))
      (fun _ ↦ world.writes ≠ []) world := by
  simp only [pinApplyPlaintext, ensures_ite, ensures_pure]
  refine ⟨fun hpolicy ↦ ⟨Consumes.refl _, fun h ↦ absurd h hpolicy, fun _ ↦ Unchanged.refl _ _ _,
      fun h ↦ absurd h hpolicy⟩,
    fun hpolicy ↦ ⟨fun hset ↦ ⟨Consumes.refl _, by simp, fun _ ↦ Unchanged.refl _ _ _,
      fun _ h ↦ absurd (hset.symm.trans h) (by simp)⟩, fun _ ↦ ?_⟩⟩
  rw [not_not] at hpolicy
  simp only [ensures_bind]
  refine ensures_randomFill_sameStorage.mono ?_ fun _ hfalse ↦ hfalse.elim
  rintro token first ⟨hfirst, hsame⟩
  refine (ensures_pinStateStorePersist_saved rfl).mono ?_ fun _ hcrash ↦
    fun hnil ↦ hcrash.listed (hfirst.writes_nil hnil)
  rintro persisted middle ⟨hquiet, hdone, hkept, hlisted⟩
  have hall : Consumes world middle := .of_quiet (hfirst.toQuiet.trans hquiet)
  cases persisted with
  | false =>
    refine ⟨hall, by simp, fun _ ↦ ⟨rfl, rfl, fun honest ↦ ?_⟩, fun _ _ hwrites henclave ↦ ?_⟩
    · rw [hkept rfl (honest.of_sameStorage hsame), hfirst.files_eq]
    · obtain h | h := hlisted rfl
      · exact absurd (hfirst.writes_nil hwrites) h
      · exact absurd henclave (hfirst.enclave_ne_nil h)
  | true =>
    simp only [Bool.not_true, Bool.false_eq_true, if_false, note, ensures_bind, ensures_modify,
      ensures_pure]
    obtain ⟨raw, hraw, hsaved⟩ := hdone rfl
    exact ⟨⟨hall.writes, hall.enclave⟩,
      fun _ ↦ ⟨hpolicy, rfl, rfl, rfl, rfl, rfl, raw, hraw, hsaved⟩, by simp, by simp⟩

/-- The current PIN was right: the state is persisted with all the retries, or nothing changes. -/
theorem ensures_pinAuthSuccess_saved {state : ClientPinState} (hset : state.pinSet = true) :
    Ensures (pinAuthSuccess crypto state)
      (fun result world' ↦ Consumes world world' ∧
        result.2.pinSet = state.pinSet ∧ result.2.pinHash = state.pinHash ∧
        (result.1 = .success → result.2.pinRetries = pinRetriesMax ∧
          result.2.pinConsecutiveMismatches = 0 ∧
          ∃ raw, world'.files pinFilePath = some raw ∧ Saved crypto result.2 raw) ∧
        (result.1 ≠ .success → Unchanged crypto state world result.2 world') ∧
        (world.writes = [] → world.enclave = [] → result.1 = .success))
      (fun _ ↦ world.writes ≠ []) world := by
  simp only [pinAuthSuccess, ensures_bind]
  have hnext : ({ state with
      pinRetries := pinRetriesMax } : ClientPinState).clearAuthBlockState.pinSet = true := hset
  refine (ensures_pinStateStorePersist_saved hnext).mono ?_ fun _ hcrash ↦ hcrash.listed
  rintro persisted middle ⟨hquiet, hdone, hkept, hlisted⟩
  cases persisted with
  | false =>
    refine ⟨.of_quiet hquiet, rfl, rfl, by simp, fun _ ↦ ⟨rfl, rfl, hkept rfl⟩,
      fun hwrites henclave ↦ ?_⟩
    obtain h | h := hlisted rfl
    · exact absurd hwrites h
    · exact absurd henclave h
  | true =>
    simp only [if_true, note, ensures_bind, ensures_modify, ensures_pure]
    have hall : Consumes world middle := .of_quiet hquiet
    exact ⟨⟨hall.writes, hall.enclave⟩, rfl, rfl, fun _ ↦ ⟨rfl, rfl, hdone rfl⟩, by simp, by simp⟩

end Storage

section Acceptance

variable {crypto : Crypto} {state : ClientPinState} {request : ClientPinRequest} {block : Bytes}
  {world : Device}

/-- The request carries the block, encrypted and authenticated under the shared secret; `covered` is
what the authentication covers behind the encrypted PIN. -/
structure CarriesBlock (crypto : Crypto) (state : ClientPinState) (request : ClientPinRequest)
    (keys : ProtocolKeys) (covered block : Bytes) : Prop where
  hasKeyAgreement : request.hasKeyAgreement = true
  hasNewPinEnc : request.hasNewPinEnc = true
  hasPinAuth : request.hasPinAuth = true
  supported : pinProtocolSupported request.pinProtocol = true
  length : newPinCiphertextLen request.pinProtocol request.newPinEnc.length = some block.length
  derived : pinProtocolDeriveKeys crypto state request.pinProtocol request.platformX
    request.platformY = some keys
  pinAuth : pinProtocolHmacMatches crypto request.pinProtocol keys.hmacKey request.newPinEnc covered
    request.pinAuth = true
  decrypted : pinProtocolDecrypt crypto request.pinProtocol keys request.newPinEnc = some block

/-- A setPIN request with a correct `pinUvAuthParam`, on an authenticator without a PIN. -/
structure SetPinCarries (crypto : Crypto) (state : ClientPinState) (request : ClientPinRequest)
    (block : Bytes) : Prop where
  unset : state.pinSet = false
  carries : ∃ keys, CarriesBlock crypto state request keys [] block

/-- A changePIN request with a correct `pinUvAuthParam` and the correct current PIN. -/
structure ChangePinCarries (crypto : Crypto) (state : ClientPinState) (request : ClientPinRequest)
    (block : Bytes) : Prop where
  existing : requireExistingPin state = .success
  hasPinHashEnc : request.hasPinHashEnc = true
  hashLength : request.pinHashEnc.length = encryptedPinHashLen request.pinProtocol
  carries : ∃ keys, CarriesBlock crypto state request keys request.pinHashEnc block ∧
    ∃ current, pinProtocolDecrypt crypto request.pinProtocol keys request.pinHashEnc =
      some current ∧ current.length = pinHashLen ∧
      constantTimeEqual current state.pinHash pinHashLen = true

/-- The command accepts the block exactly when it is a padded PIN that the policy allows, and then
the first 16 bytes of the PIN's digest are what memory and the file hold. -/
def AcceptsNewPin (crypto : Crypto) (block : Bytes) (result : CommandResult) (world : Device) :
    Prop :=
  (result.status = .success ↔ ∃ pin, NewPinBlock block pin) ∧
    ∀ pin, NewPinBlock block pin →
      result.state.pinSet = true ∧ result.state.pinHash = (crypto.sha256 pin).take 16 ∧
        ∃ raw found, world.files pinFilePath = some raw ∧ loadedPin crypto raw = some found ∧
          found.pinHash = (crypto.sha256 pin).take 16

/-- The decryption of the new PIN ends in the block check. -/
theorem CarriesBlock.decryptNewPin_eq {keys : ProtocolKeys} {covered : Bytes}
    (h : CarriesBlock crypto state request keys covered block) :
    decryptNewPin crypto request keys block.length =
      (pinValidatePlaintextBlock block).elim (.error .pinPolicyViolation) .ok := by
  rw [decryptNewPin, h.decrypted]
  dsimp only
  rw [if_neg (by simp)]
  cases pinValidatePlaintextBlock block <;> rfl

/-- The end of both commands: the block check, and what is made of its PIN. -/
theorem ensures_applyBlock (hlaws : SealLaws crypto) (hwrites : world.writes = [])
    (henclave : world.enclave = []) {requireUnset : Bool}
    (hunset : (requireUnset && state.pinSet) = false) (pin : Bytes)
    (hpin : pinValidatePlaintextBlock block = some pin) :
    Ensures (pinApplyPlaintext crypto state pin requireUnset)
      (fun result world' ↦ AcceptsNewPin crypto block
        { status := result.1, state := result.2 } world')
      (fun _ ↦ False) world := by
  refine (ensures_pinApplyPlaintext_applied state pin requireUnset).mono ?_
    fun _ hcrash ↦ hcrash hwrites
  rintro ⟨status, after⟩ final ⟨-, happlied, -, hworks⟩
  have haccepts : status = .success ↔ NewPinBlock block pin :=
    ⟨fun hstatus ↦ newPinBlock_iff.mpr ⟨hpin, (happlied hstatus).1⟩,
      fun hblock ↦ hworks (newPinBlock_iff.mp hblock).2 hunset hwrites henclave⟩
  refine ⟨haccepts.trans ⟨fun hblock ↦ ⟨pin, hblock⟩, ?_⟩, fun other hother ↦ ?_⟩
  · rintro ⟨other, hother⟩
    obtain rfl := Option.some.inj (hpin.symm.trans (newPinBlock_iff.mp hother).1)
    exact hother
  · obtain rfl := Option.some.inj (hpin.symm.trans (newPinBlock_iff.mp hother).1)
    obtain ⟨-, hresult⟩ := happlied (haccepts.mpr hother)
    obtain ⟨raw, hraw, hsaved⟩ := hresult.file
    exact ⟨hresult.pinSet, hresult.pinHash, raw, _, hraw,
      loadedPin_of_saved hlaws (hresult.fitsFile hlaws) hsaved, hresult.pinHash⟩

/-- A block that fails the block check is accepted by neither. -/
theorem acceptsNewPin_refused (hblock : pinValidatePlaintextBlock block = none)
    {status : CtapStatus} (hstatus : status ≠ .success) (after : ClientPinState)
    (final : Device) : AcceptsNewPin crypto block { status, state := after } final := by
  have hnone : ∀ pin, ¬NewPinBlock block pin := fun pin hpin ↦
    absurd (hblock.symm.trans (newPinBlock_iff.mp hpin).1) (by simp)
  exact ⟨⟨fun h ↦ absurd h hstatus, fun ⟨pin, hpin⟩ ↦ absurd hpin (hnone pin)⟩,
    fun pin hpin ↦ absurd hpin (hnone pin)⟩

theorem ensures_clientPinHandleSetPin_accepts (hlaws : SealLaws crypto)
    (hwrites : world.writes = []) (henclave : world.enclave = [])
    (h : SetPinCarries crypto state request block) :
    Ensures (clientPinHandleSetPin crypto state request) (AcceptsNewPin crypto block)
      (fun _ ↦ False) world := by
  obtain ⟨keys, hcarries⟩ := h.carries
  simp only [clientPinHandleSetPin, h.unset, hcarries.hasKeyAgreement, hcarries.hasNewPinEnc,
    hcarries.hasPinAuth, hcarries.supported, hcarries.length, hcarries.derived, hcarries.pinAuth,
    hcarries.decryptNewPin_eq, Bool.not_true, Bool.or_self, Bool.false_eq_true, if_false]
  cases hblock : pinValidatePlaintextBlock block with
  | none => exact acceptsNewPin_refused hblock (by decide) state world
  | some pin =>
    have hunset : (true && state.pinSet) = false := by
      rw [h.unset]
      rfl
    simp only [Option.elim, ensures_bind, ensures_pure]
    exact ensures_applyBlock hlaws hwrites henclave hunset pin hblock

theorem ensures_clientPinHandleChangePin_accepts (hlaws : SealLaws crypto)
    (hwrites : world.writes = []) (henclave : world.enclave = [])
    (h : ChangePinCarries crypto state request block) :
    Ensures (clientPinHandleChangePin crypto state request) (AcceptsNewPin crypto block)
      (fun _ ↦ False) world := by
  obtain ⟨keys, hcarries, current, hdecrypted, hlength, hequal⟩ := h.carries
  obtain ⟨hset, hblocked, hretries⟩ := requireExistingPin_success h.existing
  have hcurrent : (pinProtocolDecrypt crypto request.pinProtocol keys request.pinHashEnc).filter
      (fun plain ↦ plain.length == pinHashLen) = some current := by
    rw [hdecrypted]
    simp [Option.filter, hlength]
  have hpositive : ¬state.pinRetries = 0 := by omega
  simp only [clientPinHandleChangePin, h.existing, h.hasPinHashEnc, h.hashLength,
    hcarries.hasKeyAgreement, hcarries.hasNewPinEnc, hcarries.hasPinAuth, hcarries.supported,
    hcarries.length, hcarries.derived, hcarries.pinAuth, hcurrent, hcarries.decryptNewPin_eq,
    pinVerifyHash, hset, hblocked, hpositive, comparePinHash, hequal, note, Bool.not_true,
    Bool.or_self, Bool.false_eq_true, if_false, ne_eq, not_true_eq_false, ensures_bind,
    ensures_modify]
  refine (ensures_pinAuthSuccess_saved hset).mono ?_ fun _ hcrash ↦ hcrash hwrites
  rintro ⟨status, verified⟩ middle ⟨hconsumes, -, -, -, -, hworks⟩
  have hstatus : status = .success := hworks hwrites henclave
  simp only [hstatus, not_true_eq_false, if_false]
  cases hblock : pinValidatePlaintextBlock block with
  | none => exact acceptsNewPin_refused hblock (by decide) verified middle
  | some pin =>
    simp only [Option.elim, ensures_bind, ensures_pure]
    exact ensures_applyBlock hlaws (hconsumes.writes_nil hwrites) (hconsumes.enclave_nil henclave)
      rfl pin hblock

/-- With a correct `pinUvAuthParam`, the correct current PIN and storage that works, the two
commands accept the blocks that are a PIN the policy allows and its padding, and no others. The
digest of the PIN is what they store. -/
theorem new_pin_accepted_iff (crypto : Crypto) (hlaws : SealLaws crypto) (state : ClientPinState)
    (request : ClientPinRequest) (block : Bytes) (world : Device) (hwrites : world.writes = [])
    (henclave : world.enclave = []) :
    (SetPinCarries crypto state request block →
        Ensures (clientPinHandleSetPin crypto state request) (AcceptsNewPin crypto block)
          (fun _ ↦ False) world) ∧
      (ChangePinCarries crypto state request block →
        Ensures (clientPinHandleChangePin crypto state request) (AcceptsNewPin crypto block)
          (fun _ ↦ False) world) :=
  ⟨ensures_clientPinHandleSetPin_accepts hlaws hwrites henclave,
    ensures_clientPinHandleChangePin_accepts hlaws hwrites henclave⟩

/-- The PIN "1234" in a block of 64 bytes. -/
def block1234 : Bytes := [0x31, 0x32, 0x33, 0x34] ++ List.replicate 60 0

/-- A request with this block under `Crypto.standIn`, which authenticates a message by its first
bytes; the current PIN's hash is all zeros. -/
def request1234 : ClientPinRequest :=
  { hasPinProtocol := true
    pinProtocol := pinProtocolV1
    hasKeyAgreement := true
    hasNewPinEnc := true
    newPinEnc := block1234
    hasPinHashEnc := true
    pinHashEnc := zeroBytes pinHashLen
    hasPinAuth := true
    pinAuth := block1234.take 16 }

theorem new_pin_accepted_iff_1234 :
    Ensures (clientPinHandleSetPin Crypto.standIn {} request1234)
        (AcceptsNewPin Crypto.standIn block1234) (fun _ ↦ False) (World.blank PinEvent) ∧
      Ensures (clientPinHandleChangePin Crypto.standIn { pinSet := true, pinRetries := 8 }
          request1234)
        (AcceptsNewPin Crypto.standIn block1234) (fun _ ↦ False) (World.blank PinEvent) := by
  have hcarries : ∀ (state : ClientPinState) (covered : Bytes), state.keyAgreement = {} →
      pinProtocolHmacMatches Crypto.standIn pinProtocolV1 (zeroBytes 32) block1234 covered
        (block1234.take 16) = true →
      CarriesBlock Crypto.standIn state request1234 ⟨zeroBytes 32, zeroBytes 32⟩ covered
        block1234 := by
    intro state covered hstate hauth
    refine ⟨rfl, rfl, rfl, rfl, by decide, ?_, hauth, rfl⟩
    rw [pinProtocolDeriveKeys, hstate]
    decide
  constructor
  · exact (new_pin_accepted_iff Crypto.standIn sealLaws_standIn {} request1234 block1234
      (World.blank PinEvent) rfl rfl).1 ⟨rfl, _, hcarries _ _ rfl (by decide)⟩
  · exact (new_pin_accepted_iff Crypto.standIn sealLaws_standIn _ request1234 block1234
      (World.blank PinEvent) rfl rfl).2
        ⟨rfl, rfl, rfl, _, hcarries _ _ rfl (by decide), zeroBytes 16, rfl, rfl, by decide⟩

end Acceptance

end ZeroFido.Pin
