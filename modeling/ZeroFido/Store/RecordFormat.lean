import Mathlib.Algebra.GroupWithZero.Nat
import ZeroFido.Cbor
import ZeroFido.Store.CounterFloor

/-!
# The record format

Credential records are CBOR maps with numeric keys, encoded and decoded by `store/record_format.c`.
Keys may come in any order, unknown ones are skipped, and a record whose credential id does not
match its file name is refused. The hmac-secret of a credential is sealed by the enclave, and so is
the counter floor that every record carries.

Decoding is split at the call of the enclave: `recordDecodeFields` is everything before it and
`DecodedRecord.finish` what an opened secret adds. `Recorded` says that the bytes of a file decode
to a record whose embedded floor is the record's own sign count, and `ensures_recordFormatEncode`
that encoding a well-formed record gives such bytes.
-/

set_option autoImplicit false
set_option relaxedAutoImplicit false

namespace ZeroFido.Store

open Foundations Storage Cbor

section Keys

@[match_pattern] abbrev keyVersion : ℕ := 1
@[match_pattern] abbrev keyCredentialId : ℕ := 2
@[match_pattern] abbrev keyRpId : ℕ := 3
@[match_pattern] abbrev keyUserId : ℕ := 4
@[match_pattern] abbrev keyUserName : ℕ := 5
@[match_pattern] abbrev keyDisplayName : ℕ := 6
@[match_pattern] abbrev keyPublicX : ℕ := 7
@[match_pattern] abbrev keyPublicY : ℕ := 8
@[match_pattern] abbrev keyPrivateWrapped : ℕ := 9
@[match_pattern] abbrev keyPrivateIv : ℕ := 10
@[match_pattern] abbrev keySignCount : ℕ := 11
@[match_pattern] abbrev keyCreatedAt : ℕ := 12
@[match_pattern] abbrev keyResidentKey : ℕ := 13
@[match_pattern] abbrev keyCredProtect : ℕ := 14
@[match_pattern] abbrev keyHmacSecretWrapped : ℕ := 15
@[match_pattern] abbrev keyHmacSecretIv : ℕ := 16
@[match_pattern] abbrev keyCounterFloor : ℕ := 17

def recordHmacSecretStorageLen : ℕ := hmacSecretLen * 2

/-- The keys without which a record is refused. -/
def requiredKeys : List ℕ :=
  [keyVersion, keyCredentialId, keyRpId, keyUserId, keyPublicX, keyPublicY, keyPrivateWrapped,
    keyPrivateIv, keySignCount, keyCreatedAt, keyResidentKey, keyCredProtect]

end Keys

section Encode

variable {Event : Type} (crypto : Crypto)

/-- `zf_record_wrap_hmac_secret`: the sealed secrets and their initialisation vector. -/
def recordWrapHmacSecret (record : CredentialRecord) :
    Program (World Event) (Option (Bytes × Bytes)) := do
  let plain := record.hmacSecretWithoutUv ++ record.hmacSecretWithUv
  let iv ← randomFill wrapIvLen
  match ← crypto.enclaveSeal iv plain with
  | none => return none
  | some wrapped => return some (wrapped, iv)

/-- The pairs every record has, in the order in which they are written. -/
def recordPairs (record : CredentialRecord) (counterFloor : Bytes) : List (ℕ × Item) :=
  [(keyVersion, .uint storeFormatVersion),
    (keyCredentialId, .bytes record.credentialId),
    (keyRpId, .text record.rpId),
    (keyUserId, .bytes record.userId),
    (keyUserName, .text record.userName),
    (keyDisplayName, .text record.userDisplayName),
    (keyPublicX, .bytes record.publicX),
    (keyPublicY, .bytes record.publicY),
    (keyPrivateWrapped, .bytes record.privateWrapped),
    (keyPrivateIv, .bytes record.privateIv),
    (keySignCount, .uint record.signCount),
    (keyCreatedAt, .uint record.createdAt),
    (keyResidentKey, .bool record.residentKey),
    (keyCredProtect, .uint (credProtectEffective record.credProtect)),
    (keyCounterFloor, .bytes counterFloor)]

/-- The pairs of a record with an hmac-secret. -/
def hmacSecretPairs (wrapped iv : Bytes) : List (ℕ × Item) :=
  [(keyHmacSecretWrapped, .bytes wrapped), (keyHmacSecretIv, .bytes iv)]

/-- A map of the pairs in a buffer of the record size. -/
def encodeMap (pairs : List (ℕ × Item)) : Option Bytes := do
  let enc ← encoderInit storeRecordMaxSize
  let enc ← enc.map pairs.length
  let enc ← enc.pairs pairs
  return enc.written

/-- `zf_store_record_format_encode`. -/
def recordFormatEncode (record : CredentialRecord) : Program (World Event) (Option Bytes) := do
  match ← counterFloorEncodeFields crypto record.credentialId record.createdAt
      record.signCount with
  | none => return none
  | some counterFloor =>
    if record.hmacSecret then
      match ← recordWrapHmacSecret crypto record with
      | none => return none
      | some (wrapped, iv) =>
        return encodeMap (recordPairs record counterFloor ++ hmacSecretPairs wrapped iv)
    else
      return encodeMap (recordPairs record counterFloor)

end Encode

section Decode

/-- The record as far as it has been decoded. `seen` has the keys read so far. -/
structure DecodedRecord where
  record : CredentialRecord
  version : ℕ := 0
  seen : List ℕ := []
  hmacSecretWrapped : Bytes := []
  hmacSecretIv : Bytes := []
  counterFloor : Option Bytes := none
  deriving DecidableEq, Repr

/-- The flag of `zf_record_decode` that a key was seen. -/
def DecodedRecord.saw (state : DecodedRecord) (key : ℕ) : Bool := state.seen.contains key

/-- `zf_record_decode_text` with `zf_copy_text_field`: the text must fit its buffer with a
terminating zero and contain none. -/
def recordDecodeText (outSize : ℕ) (cursor : Bytes) : Option (Bytes × Bytes) := do
  let (text, rest) ← readText cursor
  if outSize ≤ text.length ∨ 0 ∈ text then none else some (text, rest)

/-- `zf_record_decode_bytes`. -/
def recordDecodeBytes (expectedSize : ℕ) (cursor : Bytes) : Option (Bytes × Bytes) := do
  let (data, rest) ← readBytes cursor
  if data.length ≠ expectedSize then none else some (data, rest)

/-- `zf_record_decode_version` and `zf_record_decode_counter`. -/
def recordDecodeCounter (cursor : Bytes) : Option (ℕ × Bytes) := do
  let (raw, rest) ← readUint cursor
  if uint32Max < raw then none else some (raw, rest)

/-- `zf_record_decode_user_id`. -/
def recordDecodeUserId (cursor : Bytes) : Option (Bytes × Bytes) := do
  let (data, rest) ← readBytes cursor
  if maxUserIdLen < data.length then none else some (data, rest)

/-- The value of `ZfRecordKeyCredProtect`. -/
def recordDecodeCredProtect (cursor : Bytes) : Option (ℕ × Bytes) := do
  let (raw, rest) ← readUint cursor
  if credProtectValueIsValid raw then some (raw, rest) else none

/-- `zf_record_decode_field`. -/
def recordDecodeField (state : DecodedRecord) (key : ℕ) (cursor : Bytes) :
    Option (DecodedRecord × Bytes) :=
  let record := state.record
  match key with
  | keyVersion => do
    let (version, rest) ← recordDecodeCounter cursor
    return ({ state with version }, rest)
  | keyCredentialId => do
    let (credentialId, rest) ← recordDecodeBytes credentialIdLen cursor
    return ({ state with record := { record with credentialId } }, rest)
  | keyRpId => do
    let (rpId, rest) ← recordDecodeText maxRpIdLen cursor
    return ({ state with record := { record with rpId } }, rest)
  | keyUserId => do
    let (userId, rest) ← recordDecodeUserId cursor
    return ({ state with record := { record with userId } }, rest)
  | keyUserName => do
    let (userName, rest) ← recordDecodeText maxUserNameLen cursor
    return ({ state with record := { record with userName } }, rest)
  | keyDisplayName => do
    let (userDisplayName, rest) ← recordDecodeText maxDisplayNameLen cursor
    return ({ state with record := { record with userDisplayName } }, rest)
  | keyPublicX => do
    let (publicX, rest) ← recordDecodeBytes publicKeyLen cursor
    return ({ state with record := { record with publicX } }, rest)
  | keyPublicY => do
    let (publicY, rest) ← recordDecodeBytes publicKeyLen cursor
    return ({ state with record := { record with publicY } }, rest)
  | keyPrivateWrapped => do
    let (privateWrapped, rest) ← recordDecodeBytes privateKeyLen cursor
    return ({ state with record := { record with privateWrapped } }, rest)
  | keyPrivateIv => do
    let (privateIv, rest) ← recordDecodeBytes wrapIvLen cursor
    return ({ state with record := { record with privateIv } }, rest)
  | keySignCount => do
    let (signCount, rest) ← recordDecodeCounter cursor
    return ({ state with record := { record with signCount } }, rest)
  | keyCreatedAt => do
    let (createdAt, rest) ← recordDecodeCounter cursor
    return ({ state with record := { record with createdAt } }, rest)
  | keyResidentKey => do
    let (residentKey, rest) ← readBool cursor
    return ({ state with record := { record with residentKey } }, rest)
  | keyCredProtect => do
    let (credProtect, rest) ← recordDecodeCredProtect cursor
    return ({ state with record := { record with credProtect } }, rest)
  | _ => do
    let rest ← skip cursor
    return (state, rest)

/-- The value after a key, in the loop of `zf_record_decode`. The sealed parts may occur once. -/
def recordDecodeValue (state : DecodedRecord) (key : ℕ) (cursor : Bytes) :
    Option (DecodedRecord × Bytes) :=
  match key with
  | keyHmacSecretWrapped => do
    if state.saw keyHmacSecretWrapped then none
    let (hmacSecretWrapped, rest) ← recordDecodeBytes recordHmacSecretStorageLen cursor
    return ({ state with hmacSecretWrapped }, rest)
  | keyHmacSecretIv => do
    if state.saw keyHmacSecretIv then none
    let (hmacSecretIv, rest) ← recordDecodeBytes wrapIvLen cursor
    return ({ state with hmacSecretIv }, rest)
  | keyCounterFloor => do
    if state.saw keyCounterFloor then none
    let (counterFloor, rest) ← recordDecodeBytes counterFloorFileSize cursor
    return ({ state with counterFloor := some counterFloor }, rest)
  | _ => recordDecodeField state key cursor

/-- The loop of `zf_record_decode` over the pairs of the map. -/
def recordDecodePairs : ℕ → DecodedRecord → Bytes → Option (DecodedRecord × Bytes)
  | 0, state, cursor => some (state, cursor)
  | pairs + 1, state, cursor => do
    let (key, cursor) ← readUint cursor
    let (state, cursor) ← recordDecodeValue state key cursor
    recordDecodePairs pairs { state with seen := key :: state.seen } cursor

/-- `zf_record_id_matches_file_name`. -/
def recordIdMatchesFileName (credentialId : Bytes) (fileName : Path) : Bool :=
  hexEncode credentialId == fileName

/-- `zf_record_decode` up to the point where it opens the hmac-secret. -/
def recordDecodeFields (data : Bytes) (fileName : Path) : Option DecodedRecord := do
  let (pairs, cursor) ← readMapStart data
  let (state, cursor) ← recordDecodePairs pairs { record := { fileName } } cursor
  if cursor ≠ [] then none
  else if !requiredKeys.all state.saw then none
  else if state.saw keyHmacSecretWrapped != state.saw keyHmacSecretIv then none
  else if state.version ≠ storeFormatVersion ∨ state.record.rpId = [] ∨
      recordIdMatchesFileName state.record.credentialId fileName = false then none
  else some state

/-- The end of `zf_record_decode`, with the opened hmac-secret if there is one. -/
def DecodedRecord.finish (state : DecodedRecord) (plain : Option Bytes) : CredentialRecord :=
  let record :=
    { state.record with
      hmacSecret := plain.isSome
      storageVersion := state.version
      inUse := true }
  match plain with
  | none => record
  | some plain =>
    { record with
      hmacSecretWithoutUv := plain.take hmacSecretLen
      hmacSecretWithUv := (plain.drop hmacSecretLen).take hmacSecretLen }

variable {Event : Type} (crypto : Crypto)

/-- `zf_record_decode`: the record and its embedded counter floor. -/
def recordDecode (data : Bytes) (fileName : Path) :
    Program (World Event) (Option (CredentialRecord × Option Bytes)) := do
  match recordDecodeFields data fileName with
  | none => return none
  | some state =>
    if state.saw keyHmacSecretWrapped then
      match ← crypto.enclaveOpen state.hmacSecretIv state.hmacSecretWrapped with
      | none => return none
      | some plain => return some (state.finish (some plain), state.counterFloor)
    else
      return some (state.finish none, state.counterFloor)

/-- What decoding gives when the enclave works. -/
def recordValue (data : Bytes) (fileName : Path) : Option (CredentialRecord × Option Bytes) :=
  (recordDecodeFields data fileName).map fun state ↦
    (state.finish (if state.saw keyHmacSecretWrapped then
      some (crypto.enclaveDecrypt state.hmacSecretIv state.hmacSecretWrapped) else none),
      state.counterFloor)

end Decode

section Limits

/-- A text that fits a C string buffer of the size and that CBOR accepts. -/
structure TextField (text : Bytes) (bufferSize : ℕ) : Prop where
  fits : text.length < bufferSize
  zeroFree : 0 ∉ text
  utf8 : utf8IsValid text = true

theorem recordDecodeText_textField {outSize : ℕ} {cursor text rest : Bytes}
    (h : recordDecodeText outSize cursor = some (text, rest)) : TextField text outSize := by
  obtain ⟨⟨found, after⟩, hread, h⟩ := Option.bind_eq_some_iff.mp h
  dsimp only at h
  split_ifs at h with hrefused
  obtain ⟨rfl, rfl⟩ := Prod.mk.inj (Option.some.inj h)
  rw [not_or, not_le] at hrefused
  exact ⟨hrefused.1, hrefused.2, utf8IsValid_of_readText hread⟩

theorem length_of_recordDecodeBytes {expectedSize : ℕ} {cursor data rest : Bytes}
    (h : recordDecodeBytes expectedSize cursor = some (data, rest)) :
    data.length = expectedSize := by
  obtain ⟨⟨found, after⟩, -, h⟩ := Option.bind_eq_some_iff.mp h
  dsimp only at h
  split_ifs at h with hlength
  obtain ⟨rfl, rfl⟩ := Prod.mk.inj (Option.some.inj h)
  exact not_not.mp hlength

theorem recordDecodeUserId_le {cursor data rest : Bytes}
    (h : recordDecodeUserId cursor = some (data, rest)) : data.length ≤ maxUserIdLen := by
  obtain ⟨⟨found, after⟩, -, h⟩ := Option.bind_eq_some_iff.mp h
  dsimp only at h
  split_ifs at h with hlarge
  obtain ⟨rfl, rfl⟩ := Prod.mk.inj (Option.some.inj h)
  exact not_lt.mp hlarge

theorem recordDecodeCounter_le {cursor rest : Bytes} {value : ℕ}
    (h : recordDecodeCounter cursor = some (value, rest)) : value ≤ uint32Max := by
  obtain ⟨⟨raw, after⟩, -, h⟩ := Option.bind_eq_some_iff.mp h
  dsimp only at h
  split_ifs at h with hlarge
  rw [← (Prod.mk.inj (Option.some.inj h)).1]
  exact not_lt.mp hlarge

theorem recordDecodeCredProtect_valid {cursor rest : Bytes} {value : ℕ}
    (h : recordDecodeCredProtect cursor = some (value, rest)) :
    credProtectValueIsValid value = true := by
  obtain ⟨⟨raw, after⟩, -, h⟩ := Option.bind_eq_some_iff.mp h
  dsimp only at h
  split_ifs at h with hvalid
  obtain ⟨rfl, rfl⟩ := Prod.mk.inj (Option.some.inj h)
  exact hvalid

/-- What has been decoded so far is within the limits of its fields. -/
structure DecodedRecord.WithinLimits (fileName : Path) (state : DecodedRecord) : Prop where
  fileName : state.record.fileName = fileName
  credentialId : state.record.credentialId.length = credentialIdLen
  rpId : TextField state.record.rpId maxRpIdLen
  userId : state.record.userId.length ≤ maxUserIdLen
  userName : TextField state.record.userName maxUserNameLen
  userDisplayName : TextField state.record.userDisplayName maxDisplayNameLen
  publicX : state.record.publicX.length = publicKeyLen
  publicY : state.record.publicY.length = publicKeyLen
  privateWrapped : state.record.privateWrapped.length = privateKeyLen
  privateIv : state.record.privateIv.length = wrapIvLen
  signCount : state.record.signCount ≤ uint32Max
  createdAt : state.record.createdAt ≤ uint32Max
  credProtect : state.saw keyCredProtect = true →
    credProtectValueIsValid state.record.credProtect = true
  hmacSecretWrapped : state.saw keyHmacSecretWrapped = true →
    state.hmacSecretWrapped.length = recordHmacSecretStorageLen
  noSecret : state.record.hmacSecretWithoutUv = zeroBytes hmacSecretLen ∧
    state.record.hmacSecretWithUv = zeroBytes hmacSecretLen

theorem DecodedRecord.withinLimits_start (fileName : Path) :
    DecodedRecord.WithinLimits fileName { record := { fileName } } where
  fileName := rfl
  credentialId := List.length_replicate
  rpId := show TextField [] maxRpIdLen from ⟨by decide, by decide, by decide⟩
  userId := Nat.zero_le _
  userName := show TextField [] maxUserNameLen from ⟨by decide, by decide, by decide⟩
  userDisplayName := show TextField [] maxDisplayNameLen from ⟨by decide, by decide, by decide⟩
  publicX := List.length_replicate
  publicY := List.length_replicate
  privateWrapped := List.length_replicate
  privateIv := List.length_replicate
  signCount := Nat.zero_le _
  createdAt := Nat.zero_le _
  credProtect := fun hsaw ↦ absurd hsaw Bool.false_ne_true
  hmacSecretWrapped := fun hsaw ↦ absurd hsaw Bool.false_ne_true
  noSecret := ⟨rfl, rfl⟩

/-- A key that was seen does not make another one seen. -/
theorem DecodedRecord.saw_congr {state state' : DecodedRecord} {key other : ℕ}
    (hseen : state'.seen = key :: state.seen) (hother : key ≠ other) :
    state'.saw other = state.saw other := by
  simp [DecodedRecord.saw, hseen, Ne.symm hother]

theorem DecodedRecord.WithinLimits.seeing {fileName : Path} {state : DecodedRecord} {key : ℕ}
    (h : state.WithinLimits fileName) (hprotect : key ≠ keyCredProtect)
    (hwrapped : key ≠ keyHmacSecretWrapped) :
    DecodedRecord.WithinLimits fileName { state with seen := key :: state.seen } :=
  { h with
    credProtect := fun hseen ↦ h.credProtect ((saw_congr rfl hprotect).symm.trans hseen)
    hmacSecretWrapped := fun hseen ↦
      h.hmacSecretWrapped ((saw_congr rfl hwrapped).symm.trans hseen) }

/-- A decoded value is within the limits of its field. -/
theorem recordDecodeValue_withinLimits {fileName : Path} {state state' : DecodedRecord} {key : ℕ}
    {cursor rest : Bytes} (h : recordDecodeValue state key cursor = some (state', rest))
    (hstate : state.WithinLimits fileName) :
    DecodedRecord.WithinLimits fileName { state' with seen := key :: state'.seen } := by
  unfold recordDecodeValue at h
  split at h
  case h_4 hwrapped hiv hfloor =>
    unfold recordDecodeField at h
    split at h
    case h_14 =>
      obtain ⟨⟨value, after⟩, hread, h⟩ := Option.bind_eq_some_iff.mp h
      obtain ⟨rfl, -⟩ := Prod.mk.inj (Option.some.inj h)
      exact { hstate with
        credProtect := fun _ ↦ recordDecodeCredProtect_valid hread
        hmacSecretWrapped := fun hseen ↦ hstate.hmacSecretWrapped
          ((DecodedRecord.saw_congr rfl (by decide)).symm.trans hseen) }
    case h_15 =>
      obtain ⟨after, hread, h⟩ := Option.bind_eq_some_iff.mp h
      obtain ⟨rfl, -⟩ := Prod.mk.inj (Option.some.inj h)
      exact hstate.seeing (by assumption) (fun hkey ↦ hwrapped hkey)
    all_goals
      obtain ⟨⟨value, after⟩, hread, h⟩ := Option.bind_eq_some_iff.mp h
      obtain ⟨rfl, -⟩ := Prod.mk.inj (Option.some.inj h)
    case h_1 | h_13 => exact { hstate.seeing (by decide) (by decide) with }
    case h_2 =>
      exact { hstate.seeing (by decide) (by decide) with
        credentialId := length_of_recordDecodeBytes hread }
    case h_3 =>
      exact { hstate.seeing (by decide) (by decide) with rpId := recordDecodeText_textField hread }
    case h_4 =>
      exact { hstate.seeing (by decide) (by decide) with userId := recordDecodeUserId_le hread }
    case h_5 =>
      exact { hstate.seeing (by decide) (by decide) with
        userName := recordDecodeText_textField hread }
    case h_6 =>
      exact { hstate.seeing (by decide) (by decide) with
        userDisplayName := recordDecodeText_textField hread }
    case h_7 =>
      exact { hstate.seeing (by decide) (by decide) with
        publicX := length_of_recordDecodeBytes hread }
    case h_8 =>
      exact { hstate.seeing (by decide) (by decide) with
        publicY := length_of_recordDecodeBytes hread }
    case h_9 =>
      exact { hstate.seeing (by decide) (by decide) with
        privateWrapped := length_of_recordDecodeBytes hread }
    case h_10 =>
      exact { hstate.seeing (by decide) (by decide) with
        privateIv := length_of_recordDecodeBytes hread }
    case h_11 =>
      exact { hstate.seeing (by decide) (by decide) with signCount := recordDecodeCounter_le hread }
    case h_12 =>
      exact { hstate.seeing (by decide) (by decide) with createdAt := recordDecodeCounter_le hread }
  all_goals
    dsimp only at h
    split_ifs at h
    · exact absurd h (by simp)
    obtain ⟨⟨value, after⟩, hread, h⟩ := Option.bind_eq_some_iff.mp h
    obtain ⟨rfl, -⟩ := Prod.mk.inj (Option.some.inj h)
  · exact { hstate with
      credProtect := fun hseen ↦ hstate.credProtect
        ((DecodedRecord.saw_congr rfl (by decide)).symm.trans hseen)
      hmacSecretWrapped := fun _ ↦ length_of_recordDecodeBytes hread }
  · exact { hstate.seeing (by decide) (by decide) with }
  · exact { hstate.seeing (by decide) (by decide) with }

theorem recordDecodePairs_withinLimits {fileName : Path} {pairs : ℕ} {state state' : DecodedRecord}
    {cursor rest : Bytes} (h : recordDecodePairs pairs state cursor = some (state', rest))
    (hstate : state.WithinLimits fileName) : state'.WithinLimits fileName := by
  induction pairs generalizing state cursor with
  | zero =>
    rw [← (Prod.mk.inj (Option.some.inj h)).1]
    exact hstate
  | succ pairs ih =>
    obtain ⟨⟨key, cursor⟩, -, h⟩ := Option.bind_eq_some_iff.mp h
    obtain ⟨⟨middle, cursor⟩, hvalue, h⟩ := Option.bind_eq_some_iff.mp h
    exact ih h (recordDecodeValue_withinLimits hvalue hstate)

/-- The checks on the whole record. -/
structure DecodedRecord.Complete (fileName : Path) (state : DecodedRecord) : Prop
    extends DecodedRecord.WithinLimits fileName state where
  required : requiredKeys.all state.saw = true
  version : state.version = storeFormatVersion
  rpId_ne : state.record.rpId ≠ []
  matchesId : state.record.fileName = hexEncode state.record.credentialId

theorem recordDecodeFields_complete {data : Bytes} {fileName : Path} {state : DecodedRecord}
    (h : recordDecodeFields data fileName = some state) : state.Complete fileName := by
  obtain ⟨⟨pairs, cursor⟩, -, h⟩ := Option.bind_eq_some_iff.mp h
  obtain ⟨⟨decoded, cursor⟩, hpairs, h⟩ := Option.bind_eq_some_iff.mp h
  have hlimits := recordDecodePairs_withinLimits hpairs (DecodedRecord.withinLimits_start fileName)
  dsimp only at h
  split_ifs at h with _ hrequired _ hchecks
  obtain rfl := Option.some.inj h
  rw [not_or, not_or] at hchecks
  refine ⟨hlimits, by simpa using hrequired, not_not.mp hchecks.1, hchecks.2.1, ?_⟩
  have hname := hchecks.2.2
  rw [Bool.not_eq_false, recordIdMatchesFileName, beq_iff_eq] at hname
  rw [hlimits.fileName, hname]

theorem signCount_recordValue {crypto : Crypto} {data : Bytes} {fileName : Path}
    {record : CredentialRecord} {embedded : Option Bytes}
    (h : recordValue crypto data fileName = some (record, embedded)) :
    record.signCount ≤ uint32Max := by
  obtain ⟨state, hfields, h⟩ := Option.map_eq_some_iff.mp h
  have hkept : ∀ plain, (state.finish plain).signCount = state.record.signCount := by
    intro plain
    cases plain <;> rfl
  rw [← (Prod.mk.inj h).1, hkept]
  exact (recordDecodeFields_complete hfields).signCount

end Limits

section RoundTrip

/-- A record within the field limits, as `zf_store_prepare_credential` and the key generation make
it. -/
structure CredentialRecord.WellFormed (record : CredentialRecord) : Prop where
  inUse : record.inUse = true
  fileName : record.fileName = hexEncode record.credentialId
  storageVersion : record.storageVersion = storeFormatVersion
  credentialId : record.credentialId.length = credentialIdLen
  rpId : TextField record.rpId maxRpIdLen
  rpId_ne : record.rpId ≠ []
  userId : record.userId.length ≤ maxUserIdLen
  userName : TextField record.userName maxUserNameLen
  userDisplayName : TextField record.userDisplayName maxDisplayNameLen
  publicX : record.publicX.length = publicKeyLen
  publicY : record.publicY.length = publicKeyLen
  privateWrapped : record.privateWrapped.length = privateKeyLen
  privateIv : record.privateIv.length = wrapIvLen
  signCount : record.signCount ≤ uint32Max
  createdAt : record.createdAt ≤ uint32Max
  credProtect : credProtectValueIsValid record.credProtect = true
  hmacSecretWithoutUv : record.hmacSecretWithoutUv.length = hmacSecretLen
  hmacSecretWithUv : record.hmacSecretWithUv.length = hmacSecretLen
  noSecret : record.hmacSecret = false → record.hmacSecretWithoutUv = zeroBytes hmacSecretLen ∧
    record.hmacSecretWithUv = zeroBytes hmacSecretLen

/-- `furi_hal_crypto_decrypt` writes as many bytes as it reads. -/
def OpenKeepsLength (crypto : Crypto) : Prop :=
  ∀ iv ciphertext, (crypto.enclaveDecrypt iv ciphertext).length = ciphertext.length

theorem DecodedRecord.Complete.finish_none {fileName : Path} {state : DecodedRecord}
    (h : state.Complete fileName) : (state.finish none).WellFormed where
  inUse := rfl
  fileName := h.matchesId
  storageVersion := h.version
  credentialId := h.credentialId
  rpId := h.rpId
  rpId_ne := h.rpId_ne
  userId := h.userId
  userName := h.userName
  userDisplayName := h.userDisplayName
  publicX := h.publicX
  publicY := h.publicY
  privateWrapped := h.privateWrapped
  privateIv := h.privateIv
  signCount := h.signCount
  createdAt := h.createdAt
  credProtect := h.credProtect (List.all_eq_true.mp h.required _ (by decide))
  hmacSecretWithoutUv := by
    rw [DecodedRecord.finish, h.noSecret.1]
    exact List.length_replicate
  hmacSecretWithUv := by
    rw [DecodedRecord.finish, h.noSecret.2]
    exact List.length_replicate
  noSecret := fun _ ↦ h.noSecret

theorem DecodedRecord.Complete.finish_some {fileName : Path} {state : DecodedRecord} {plain : Bytes}
    (h : state.Complete fileName) (hplain : plain.length = recordHmacSecretStorageLen) :
    (state.finish (some plain)).WellFormed := by
  have hlength : plain.length = hmacSecretLen * 2 := hplain
  refine { h.finish_none with
    hmacSecretWithoutUv := ?_, hmacSecretWithUv := ?_, noSecret := fun hnone ↦ ?_ }
  · rw [DecodedRecord.finish, List.length_take]
    omega
  · rw [DecodedRecord.finish, List.length_take, List.length_drop]
    omega
  · exact absurd hnone (by simp [DecodedRecord.finish])

/-- What a record file decodes to is well formed, and has the name of the file. -/
theorem wellFormed_of_recordValue {crypto : Crypto} (hopen : OpenKeepsLength crypto)
    {data : Bytes} {fileName : Path} {record : CredentialRecord} {embedded : Option Bytes}
    (h : recordValue crypto data fileName = some (record, embedded)) :
    record.WellFormed ∧ record.fileName = fileName := by
  obtain ⟨state, hfields, h⟩ := Option.map_eq_some_iff.mp h
  have hcomplete := recordDecodeFields_complete hfields
  rw [← (Prod.mk.inj h).1]
  split_ifs with hsaw
  · refine ⟨hcomplete.finish_some ?_, hcomplete.fileName⟩
    rw [hopen, hcomplete.hmacSecretWrapped hsaw]
  · exact ⟨hcomplete.finish_none, hcomplete.fileName⟩

/-- Where the value of a pair goes. -/
def DecodedRecord.store (state : DecodedRecord) : ℕ × Item → DecodedRecord
  | (keyVersion, .uint version) => { state with version }
  | (keyCredentialId, .bytes credentialId) =>
    { state with record := { state.record with credentialId } }
  | (keyRpId, .text rpId) => { state with record := { state.record with rpId } }
  | (keyUserId, .bytes userId) => { state with record := { state.record with userId } }
  | (keyUserName, .text userName) => { state with record := { state.record with userName } }
  | (keyDisplayName, .text userDisplayName) =>
    { state with record := { state.record with userDisplayName } }
  | (keyPublicX, .bytes publicX) => { state with record := { state.record with publicX } }
  | (keyPublicY, .bytes publicY) => { state with record := { state.record with publicY } }
  | (keyPrivateWrapped, .bytes privateWrapped) =>
    { state with record := { state.record with privateWrapped } }
  | (keyPrivateIv, .bytes privateIv) => { state with record := { state.record with privateIv } }
  | (keySignCount, .uint signCount) => { state with record := { state.record with signCount } }
  | (keyCreatedAt, .uint createdAt) => { state with record := { state.record with createdAt } }
  | (keyResidentKey, .bool residentKey) =>
    { state with record := { state.record with residentKey } }
  | (keyCredProtect, .uint credProtect) =>
    { state with record := { state.record with credProtect } }
  | (keyHmacSecretWrapped, .bytes hmacSecretWrapped) => { state with hmacSecretWrapped }
  | (keyHmacSecretIv, .bytes hmacSecretIv) => { state with hmacSecretIv }
  | (keyCounterFloor, .bytes counterFloor) => { state with counterFloor := some counterFloor }
  | _ => state

/-- A pair whose value has the type and the size its key asks for. -/
def ValidPair : ℕ × Item → Prop
  | (keyVersion, .uint version) => version ≤ uint32Max
  | (keyCredentialId, .bytes credentialId) => credentialId.length = credentialIdLen
  | (keyRpId, .text rpId) => TextField rpId maxRpIdLen
  | (keyUserId, .bytes userId) => userId.length ≤ maxUserIdLen
  | (keyUserName, .text userName) => TextField userName maxUserNameLen
  | (keyDisplayName, .text userDisplayName) => TextField userDisplayName maxDisplayNameLen
  | (keyPublicX, .bytes publicX) => publicX.length = publicKeyLen
  | (keyPublicY, .bytes publicY) => publicY.length = publicKeyLen
  | (keyPrivateWrapped, .bytes privateWrapped) => privateWrapped.length = privateKeyLen
  | (keyPrivateIv, .bytes privateIv) => privateIv.length = wrapIvLen
  | (keySignCount, .uint signCount) => signCount ≤ uint32Max
  | (keyCreatedAt, .uint createdAt) => createdAt ≤ uint32Max
  | (keyResidentKey, .bool _) => True
  | (keyCredProtect, .uint credProtect) => credProtectValueIsValid credProtect = true
  | (keyHmacSecretWrapped, .bytes wrapped) => wrapped.length = recordHmacSecretStorageLen
  | (keyHmacSecretIv, .bytes iv) => iv.length = wrapIvLen
  | (keyCounterFloor, .bytes counterFloor) => counterFloor.length = counterFloorFileSize
  | _ => False

theorem recordDecodeText_encoding {text : Bytes} {bufferSize : ℕ} (rest : Bytes)
    (h : TextField text bufferSize) (hsize : bufferSize ≤ 2 ^ 64) :
    recordDecodeText bufferSize ((Item.text text).encoding ++ rest) = some (text, rest) := by
  have hread := readText_stringBytes rest (Nat.lt_of_lt_of_le h.fits hsize) h.utf8
  have hfits := h.fits
  simp [recordDecodeText, Item.encoding, hread, h.zeroFree, hfits]

theorem recordDecodeBytes_encoding {data : Bytes} {size : ℕ} (rest : Bytes)
    (h : data.length = size) (hsize : size < 2 ^ 64) :
    recordDecodeBytes size ((Item.bytes data).encoding ++ rest) = some (data, rest) := by
  have hread := readBytes_stringBytes rest (show data.length < 2 ^ 64 by omega)
  simp [recordDecodeBytes, Item.encoding, hread, h]

theorem recordDecodeUserId_encoding {data : Bytes} (rest : Bytes) (h : data.length ≤ maxUserIdLen) :
    recordDecodeUserId ((Item.bytes data).encoding ++ rest) = some (data, rest) := by
  have hread := readBytes_stringBytes rest (show data.length < 2 ^ 64 by
    unfold maxUserIdLen at h
    omega)
  simp [recordDecodeUserId, Item.encoding, hread, h]

theorem recordDecodeCounter_encoding {value : ℕ} (rest : Bytes) (h : value ≤ uint32Max) :
    recordDecodeCounter ((Item.uint value).encoding ++ rest) = some (value, rest) := by
  have hread := readUint_headBytes rest (show value < 2 ^ 64 by
    unfold uint32Max at h
    omega)
  simp [recordDecodeCounter, Item.encoding, hread, h]

theorem recordDecodeCredProtect_encoding {value : ℕ} (rest : Bytes)
    (h : credProtectValueIsValid value = true) :
    recordDecodeCredProtect ((Item.uint value).encoding ++ rest) = some (value, rest) := by
  have hbound : value ≤ 3 := by
    simp only [credProtectValueIsValid, Bool.and_eq_true, decide_eq_true_eq] at h
    exact h.2
  have hread := readUint_headBytes rest (show value < 2 ^ 64 by omega)
  simp [recordDecodeCredProtect, Item.encoding, hread, h]

/-- A valid value is decoded to its place. -/
theorem recordDecodeValue_encoding {state : DecodedRecord} {pair : ℕ × Item} (rest : Bytes)
    (hvalid : ValidPair pair) (hseen : pair.1 ∉ state.seen) :
    recordDecodeValue state pair.1 (pair.2.encoding ++ rest) = some (state.store pair, rest) := by
  have hsaw : state.saw pair.1 = false := by simpa [DecodedRecord.saw] using hseen
  unfold ValidPair at hvalid
  split at hvalid
  all_goals simp only [recordDecodeValue, recordDecodeField, DecodedRecord.store] at hsaw ⊢
  · simp [recordDecodeCounter_encoding rest hvalid]
  · simp [recordDecodeBytes_encoding rest hvalid (by decide)]
  · simp [recordDecodeText_encoding rest hvalid (by decide)]
  · simp [recordDecodeUserId_encoding rest hvalid]
  · simp [recordDecodeText_encoding rest hvalid (by decide)]
  · simp [recordDecodeText_encoding rest hvalid (by decide)]
  · simp [recordDecodeBytes_encoding rest hvalid (by decide)]
  · simp [recordDecodeBytes_encoding rest hvalid (by decide)]
  · simp [recordDecodeBytes_encoding rest hvalid (by decide)]
  · simp [recordDecodeBytes_encoding rest hvalid (by decide)]
  · simp [recordDecodeCounter_encoding rest hvalid]
  · simp [recordDecodeCounter_encoding rest hvalid]
  · simp only [Item.encoding, readBool_bool]
    rfl
  · simp [recordDecodeCredProtect_encoding rest hvalid]
  · simp [hsaw, recordDecodeBytes_encoding rest hvalid (by decide)]
  · simp [hsaw, recordDecodeBytes_encoding rest hvalid (by decide)]
  · simp [hsaw, recordDecodeBytes_encoding rest hvalid (by decide)]
  · exact hvalid.elim

/-- One pair of the loop. -/
def DecodedRecord.apply (state : DecodedRecord) (pair : ℕ × Item) : DecodedRecord :=
  { state.store pair with seen := pair.1 :: (state.store pair).seen }

theorem DecodedRecord.store_seen (state : DecodedRecord) (pair : ℕ × Item) :
    (state.store pair).seen = state.seen := by
  unfold DecodedRecord.store
  split <;> rfl

theorem ValidPair.key_lt {pair : ℕ × Item} (h : ValidPair pair) : pair.1 < 2 ^ 64 := by
  unfold ValidPair at h
  split at h <;> first | exact h.elim | simp

/-- A map of valid pairs with different keys is decoded pair by pair. -/
theorem recordDecodePairs_encoding {state : DecodedRecord} {pairs : List (ℕ × Item)} (rest : Bytes)
    (hvalid : ∀ pair ∈ pairs, ValidPair pair) (hkeys : (pairs.map Prod.fst).Nodup)
    (hseen : ∀ pair ∈ pairs, pair.1 ∉ state.seen) :
    recordDecodePairs pairs.length state (pairs.flatMap pairBytes ++ rest) =
      some (pairs.foldl DecodedRecord.apply state, rest) := by
  induction pairs generalizing state with
  | nil => rfl
  | cons pair pairs ih =>
    have hpair := hvalid pair List.mem_cons_self
    rw [List.map_cons, List.nodup_cons] at hkeys
    have hcursor : (pair :: pairs).flatMap pairBytes ++ rest = headBytes majorUint pair.1 ++
        (pair.2.encoding ++ (pairs.flatMap pairBytes ++ rest)) := by
      simp [pairBytes]
    rw [List.length_cons, recordDecodePairs, hcursor, readUint_headBytes _ hpair.key_lt]
    change (recordDecodeValue state pair.1 _ >>= _) = _
    rw [recordDecodeValue_encoding _ hpair (hseen pair List.mem_cons_self)]
    refine ih (fun other hother ↦ hvalid other (List.mem_cons_of_mem _ hother)) hkeys.2 ?_
    intro other hother hmem
    rw [DecodedRecord.store_seen, List.mem_cons] at hmem
    obtain heq | hmem := hmem
    · exact hkeys.1 (List.mem_map.mpr ⟨other, hother, heq⟩)
    · exact hseen other (List.mem_cons_of_mem _ hother) hmem

variable (crypto : Crypto)

/-- The bytes of a record file: they decode to the record, and the embedded counter floor is the
record's own sign count. -/
structure Recorded (data : Bytes) (record : CredentialRecord) : Prop where
  value : ∃ counterFloor, recordValue crypto data record.fileName = some (record, some counterFloor) ∧
    CounterFloor crypto record.credentialId record.createdAt counterFloor record.signCount
  wellFormed : record.WellFormed
  nonempty : data ≠ []
  fits : data.length ≤ storeRecordMaxSize

variable {crypto} {record : CredentialRecord}

/-- What a map of pairs in the record buffer looks like. -/
theorem encodeMap_eq {pairs : List (ℕ × Item)} {data : Bytes} (h : encodeMap pairs = some data) :
    data = headBytes majorMap pairs.length ++ pairs.flatMap pairBytes ∧
      data.length ≤ storeRecordMaxSize := by
  obtain ⟨first, hmap, h⟩ := Option.bind_eq_some_iff.mp h
  obtain ⟨second, hpairs, h⟩ := Option.bind_eq_some_iff.mp h
  obtain ⟨rfl, hfits⟩ := Encoder.written_append hmap
  obtain ⟨rfl, hfits'⟩ := Encoder.written_pairs hfits hpairs
  rw [← Option.some.inj h]
  exact ⟨by simp, hfits'⟩

/-- A map of pairs that fits the record buffer is written. -/
theorem encodeMap_eq_some {pairs : List (ℕ × Item)}
    (h : (headBytes majorMap pairs.length ++ pairs.flatMap pairBytes).length ≤
      storeRecordMaxSize) :
    encodeMap pairs = some (headBytes majorMap pairs.length ++ pairs.flatMap pairBytes) := by
  have hhead : (headBytes majorMap pairs.length).length ≤ storeRecordMaxSize := by
    rw [List.length_append] at h
    omega
  have hmap : (⟨storeRecordMaxSize, []⟩ : Encoder).map pairs.length =
      some ⟨storeRecordMaxSize, headBytes majorMap pairs.length⟩ :=
    @Encoder.append_eq_some ⟨storeRecordMaxSize, []⟩ _ hhead
  have hpairs : (⟨storeRecordMaxSize, headBytes majorMap pairs.length⟩ : Encoder).pairs pairs =
      some ⟨storeRecordMaxSize, headBytes majorMap pairs.length ++ pairs.flatMap pairBytes⟩ :=
    @Encoder.pairs_eq_some ⟨storeRecordMaxSize, headBytes majorMap pairs.length⟩ _ h
  have hinit : encoderInit storeRecordMaxSize = some ⟨storeRecordMaxSize, []⟩ := rfl
  rw [encodeMap, hinit]
  dsimp only [Option.bind_eq_bind, Option.bind_some]
  rw [hmap]
  dsimp only [Option.bind_some]
  rw [hpairs]
  rfl

/-- The most bytes a valid pair takes. -/
def pairRoom : ℕ → ℕ
  | keyCredentialId => 1 + (headRoom credentialIdLen + credentialIdLen)
  | keyRpId => 1 + (headRoom (maxRpIdLen - 1) + (maxRpIdLen - 1))
  | keyUserId => 1 + (headRoom maxUserIdLen + maxUserIdLen)
  | keyUserName => 1 + (headRoom (maxUserNameLen - 1) + (maxUserNameLen - 1))
  | keyDisplayName => 1 + (headRoom (maxDisplayNameLen - 1) + (maxDisplayNameLen - 1))
  | keyPublicX | keyPublicY => 1 + (headRoom publicKeyLen + publicKeyLen)
  | keyPrivateWrapped => 1 + (headRoom privateKeyLen + privateKeyLen)
  | keyPrivateIv | keyHmacSecretIv => 1 + (headRoom wrapIvLen + wrapIvLen)
  | keyResidentKey => 1 + 1
  | keyCredProtect => 1 + headRoom credProtectUvRequired
  | keyHmacSecretWrapped => 1 + (headRoom recordHmacSecretStorageLen + recordHmacSecretStorageLen)
  | keyCounterFloor => 1 + (headRoom counterFloorFileSize + counterFloorFileSize)
  | _ => 1 + headRoom uint32Max

theorem ValidPair.length_pairBytes {pair : ℕ × Item} (h : ValidPair pair) :
    (pairBytes pair).length ≤ pairRoom pair.1 := by
  have hstring : ∀ {major bound : ℕ} {data : Bytes}, data.length ≤ bound →
      (stringBytes major data).length ≤ headRoom bound + bound := length_stringBytes_le
  have htext : ∀ {text : Bytes} {bufferSize : ℕ}, TextField text bufferSize →
      text.length ≤ bufferSize - 1 := fun htext ↦ Nat.le_sub_one_of_lt htext.fits
  rw [pairBytes, List.length_append, length_headBytes]
  unfold ValidPair at h
  split at h
  rotate_right
  · exact h.elim
  all_goals simp only [Item.encoding, pairRoom]
  all_goals refine Nat.add_le_add (Nat.le_of_eq (by rfl)) ?_
  · rw [length_headBytes]
    exact headRoom_mono h
  · exact hstring (Nat.le_of_eq h)
  · exact hstring (htext h)
  · exact hstring h
  · exact hstring (htext h)
  · exact hstring (htext h)
  · exact hstring (Nat.le_of_eq h)
  · exact hstring (Nat.le_of_eq h)
  · exact hstring (Nat.le_of_eq h)
  · exact hstring (Nat.le_of_eq h)
  · rw [length_headBytes]
    exact headRoom_mono h
  · rw [length_headBytes]
    exact headRoom_mono h
  · exact Nat.le_refl 1
  · rw [length_headBytes]
    simp only [credProtectValueIsValid, Bool.and_eq_true, decide_eq_true_eq] at h
    exact headRoom_mono h.2
  · exact hstring (Nat.le_of_eq h)
  · exact hstring (Nat.le_of_eq h)
  · exact hstring (Nat.le_of_eq h)

theorem length_flatMap_pairBytes {pairs : List (ℕ × Item)} (h : ∀ pair ∈ pairs, ValidPair pair) :
    (pairs.flatMap pairBytes).length ≤ ((pairs.map Prod.fst).map pairRoom).sum := by
  induction pairs with
  | nil => exact Nat.le_refl 0
  | cons pair pairs ih =>
    rw [List.flatMap_cons, List.length_append, List.map_cons, List.map_cons, List.sum_cons]
    exact Nat.add_le_add (h pair List.mem_cons_self).length_pairBytes
      (ih fun other hother ↦ h other (List.mem_cons_of_mem _ hother))

/-- The protection level of a well-formed record is an explicit one. -/
theorem CredentialRecord.WellFormed.credProtectEffective_eq (hrecord : record.WellFormed) :
    credProtectEffective record.credProtect = record.credProtect := by
  have hvalid := hrecord.credProtect
  unfold credProtectEffective
  split_ifs with hzero
  · rw [hzero] at hvalid
    exact absurd hvalid (by decide)
  · rfl

theorem validPair_recordPairs (hrecord : record.WellFormed) {counterFloor : Bytes}
    (hfloor : counterFloor.length = counterFloorFileSize) :
    ∀ pair ∈ recordPairs record counterFloor, ValidPair pair := by
  simp only [recordPairs, List.forall_mem_cons, List.not_mem_nil, false_implies, implies_true,
    and_true, ValidPair, hrecord.credProtectEffective_eq]
  exact ⟨by decide, hrecord.credentialId, hrecord.rpId, hrecord.userId, hrecord.userName,
    hrecord.userDisplayName, hrecord.publicX, hrecord.publicY, hrecord.privateWrapped,
    hrecord.privateIv, hrecord.signCount, hrecord.createdAt, trivial, hrecord.credProtect, hfloor⟩

/-- What is left of decoding a map of valid pairs are the checks on the whole record. -/
theorem recordDecodeFields_encoding {pairs : List (ℕ × Item)} {fileName : Path}
    {state : DecodedRecord} (hvalid : ∀ pair ∈ pairs, ValidPair pair)
    (hkeys : (pairs.map Prod.fst).Nodup) (hlength : pairs.length ≤ sizeMax)
    (hstate : pairs.foldl DecodedRecord.apply { record := { fileName } } = state)
    (hrequired : requiredKeys.all state.saw = true)
    (hsecret : state.saw keyHmacSecretWrapped = state.saw keyHmacSecretIv)
    (hversion : state.version = storeFormatVersion) (hrpId : state.record.rpId ≠ [])
    (hname : fileName = hexEncode state.record.credentialId) :
    recordDecodeFields (headBytes majorMap pairs.length ++ pairs.flatMap pairBytes) fileName =
      some state := by
  have hpairs : recordDecodePairs pairs.length { record := { fileName } }
      (pairs.flatMap pairBytes ++ []) = some (_, []) :=
    recordDecodePairs_encoding [] hvalid hkeys (by simp)
  rw [List.append_nil, hstate] at hpairs
  rw [recordDecodeFields, readMapStart_headBytes _ hlength]
  change (recordDecodePairs pairs.length _ _ >>= _) = _
  rw [hpairs]
  change (if ([] : Bytes) ≠ [] then none else _) = _
  have hall : ∀ key ∈ requiredKeys, state.saw key = true := by simpa using hrequired
  simpa [hsecret, hversion, hrpId, recordIdMatchesFileName, hname] using hall

/-- The state in which decoding the pairs of a record ends. -/
def decodedRecord (record : CredentialRecord) (counterFloor : Bytes) : DecodedRecord where
  record :=
    { fileName := record.fileName
      residentKey := record.residentKey
      credentialId := record.credentialId
      rpId := record.rpId
      userId := record.userId
      userName := record.userName
      userDisplayName := record.userDisplayName
      publicX := record.publicX
      publicY := record.publicY
      privateWrapped := record.privateWrapped
      privateIv := record.privateIv
      signCount := record.signCount
      createdAt := record.createdAt
      credProtect := credProtectEffective record.credProtect }
  version := storeFormatVersion
  seen := [keyCounterFloor, keyCredProtect, keyResidentKey, keyCreatedAt, keySignCount,
    keyPrivateIv, keyPrivateWrapped, keyPublicY, keyPublicX, keyDisplayName, keyUserName,
    keyUserId, keyRpId, keyCredentialId, keyVersion]
  counterFloor := some counterFloor

theorem foldl_recordPairs (record : CredentialRecord) (counterFloor : Bytes) :
    (recordPairs record counterFloor).foldl DecodedRecord.apply
      { record := { fileName := record.fileName } } = decodedRecord record counterFloor := by
  simp only [recordPairs, List.foldl_cons, List.foldl_nil, DecodedRecord.apply,
    DecodedRecord.store, decodedRecord]

theorem recordKeys_nodup {counterFloor : Bytes} :
    ((recordPairs record counterFloor).map Prod.fst).Nodup := by
  change ([1, 2, 3, 4, 5, 6, 7, 8, 9, 10, 11, 12, 13, 14, 17] : List ℕ).Nodup
  decide

theorem secretKeys_nodup {counterFloor wrapped iv : Bytes} :
    ((recordPairs record counterFloor ++ hmacSecretPairs wrapped iv).map Prod.fst).Nodup := by
  change ([1, 2, 3, 4, 5, 6, 7, 8, 9, 10, 11, 12, 13, 14, 17, 15, 16] : List ℕ).Nodup
  decide

/-- The state in which decoding the pairs of a record with an hmac-secret ends. -/
def decodedSecretRecord (record : CredentialRecord) (counterFloor wrapped iv : Bytes) :
    DecodedRecord :=
  { decodedRecord record counterFloor with
    seen := keyHmacSecretIv :: keyHmacSecretWrapped :: (decodedRecord record counterFloor).seen
    hmacSecretWrapped := wrapped
    hmacSecretIv := iv }

theorem foldl_secretPairs (record : CredentialRecord) (counterFloor wrapped iv : Bytes) :
    (recordPairs record counterFloor ++ hmacSecretPairs wrapped iv).foldl DecodedRecord.apply
      { record := { fileName := record.fileName } } =
        decodedSecretRecord record counterFloor wrapped iv := by
  rw [List.foldl_append, foldl_recordPairs]
  rfl

theorem finish_decodedRecord (hrecord : record.WellFormed) (hsecret : record.hmacSecret = false)
    (counterFloor : Bytes) : (decodedRecord record counterFloor).finish none = record := by
  obtain ⟨hwithout, hwith⟩ := hrecord.noSecret hsecret
  have hprotect := hrecord.credProtectEffective_eq
  have hinUse := hrecord.inUse
  have hversion := hrecord.storageVersion
  cases record
  simp_all [DecodedRecord.finish, decodedRecord]

theorem finish_decodedSecretRecord (hrecord : record.WellFormed)
    (hsecret : record.hmacSecret = true) (counterFloor wrapped iv : Bytes) :
    (decodedSecretRecord record counterFloor wrapped iv).finish
      (some (record.hmacSecretWithoutUv ++ record.hmacSecretWithUv)) = record := by
  have hprotect := hrecord.credProtectEffective_eq
  have hinUse := hrecord.inUse
  have hversion := hrecord.storageVersion
  have hwithout : (record.hmacSecretWithoutUv ++ record.hmacSecretWithUv).take hmacSecretLen =
      record.hmacSecretWithoutUv := List.take_left' hrecord.hmacSecretWithoutUv
  have hdrop : (record.hmacSecretWithoutUv ++ record.hmacSecretWithUv).drop hmacSecretLen =
      record.hmacSecretWithUv := List.drop_left' hrecord.hmacSecretWithoutUv
  have hwith := List.take_of_length_le (Nat.le_of_eq hrecord.hmacSecretWithUv)
  cases record
  simp_all [DecodedRecord.finish, decodedSecretRecord, decodedRecord]

/-- Encoding a well-formed record without an hmac-secret. -/
theorem recorded_plain (hrecord : record.WellFormed) (hsecret : record.hmacSecret = false)
    {counterFloor data : Bytes}
    (hfloor : CounterFloor crypto record.credentialId record.createdAt counterFloor record.signCount)
    (hdata : encodeMap (recordPairs record counterFloor) = some data) :
    Recorded crypto data record := by
  obtain ⟨hbytes, hfits⟩ := encodeMap_eq hdata
  have hfields := recordDecodeFields_encoding
    (validPair_recordPairs hrecord hfloor.length) recordKeys_nodup (Nat.le_of_ble_eq_true rfl)
    (foldl_recordPairs record counterFloor) (by rfl) (by rfl) (by rfl) hrecord.rpId_ne
    hrecord.fileName
  rw [← hbytes] at hfields
  refine ⟨⟨counterFloor, ?_, hfloor⟩, hrecord, ?_, hfits⟩
  · have hsaw : (decodedRecord record counterFloor).saw keyHmacSecretWrapped = false := rfl
    rw [recordValue, hfields, Option.map_some, hsaw]
    simp only [Bool.false_eq_true, if_false, finish_decodedRecord hrecord hsecret]
    rfl
  · rw [hbytes]
    exact List.append_ne_nil_of_left_ne_nil (headBytes_ne_nil _ _) _

theorem validPair_secretPairs (hlaws : SealLaws crypto) (hrecord : record.WellFormed)
    {counterFloor iv : Bytes} (hfloor : counterFloor.length = counterFloorFileSize)
    (hiv : iv.length = wrapIvLen) :
    ∀ pair ∈ recordPairs record counterFloor ++ hmacSecretPairs
      (crypto.enclaveEncrypt iv (record.hmacSecretWithoutUv ++ record.hmacSecretWithUv)) iv,
      ValidPair pair := by
  have hwrapped : (crypto.enclaveEncrypt iv
      (record.hmacSecretWithoutUv ++ record.hmacSecretWithUv)).length =
        recordHmacSecretStorageLen := by
    rw [hlaws.length_seal, List.length_append, hrecord.hmacSecretWithoutUv,
      hrecord.hmacSecretWithUv]
    rfl
  intro pair hpair
  obtain hpair | hpair := List.mem_append.mp hpair
  · exact validPair_recordPairs hrecord hfloor pair hpair
  · simp only [hmacSecretPairs, List.mem_cons, List.not_mem_nil, or_false] at hpair
    obtain rfl | rfl := hpair
    · exact hwrapped
    · exact hiv

/-- Encoding a well-formed record with its sealed hmac-secret. -/
theorem recorded_secret (hlaws : SealLaws crypto) (hrecord : record.WellFormed)
    (hsecret : record.hmacSecret = true) {counterFloor iv data : Bytes}
    (hfloor : CounterFloor crypto record.credentialId record.createdAt counterFloor record.signCount)
    (hiv : iv.length = wrapIvLen)
    (hdata : encodeMap (recordPairs record counterFloor ++ hmacSecretPairs (crypto.enclaveEncrypt iv
      (record.hmacSecretWithoutUv ++ record.hmacSecretWithUv)) iv) = some data) :
    Recorded crypto data record := by
  obtain ⟨hbytes, hfits⟩ := encodeMap_eq hdata
  have hvalid := validPair_secretPairs hlaws hrecord hfloor.length hiv
  have hfields := recordDecodeFields_encoding hvalid secretKeys_nodup (Nat.le_of_ble_eq_true rfl)
    (foldl_secretPairs record counterFloor _ iv) (by rfl) (by rfl) (by rfl) hrecord.rpId_ne
    hrecord.fileName
  rw [← hbytes] at hfields
  refine ⟨⟨counterFloor, ?_, hfloor⟩, hrecord, ?_, hfits⟩
  · have hsaw (wrapped : Bytes) :
        (decodedSecretRecord record counterFloor wrapped iv).saw keyHmacSecretWrapped = true := rfl
    have hopened : crypto.enclaveDecrypt
        (decodedSecretRecord record counterFloor (crypto.enclaveEncrypt iv
          (record.hmacSecretWithoutUv ++ record.hmacSecretWithUv)) iv).hmacSecretIv
        (decodedSecretRecord record counterFloor (crypto.enclaveEncrypt iv
          (record.hmacSecretWithoutUv ++ record.hmacSecretWithUv)) iv).hmacSecretWrapped =
        record.hmacSecretWithoutUv ++ record.hmacSecretWithUv := hlaws.open_seal iv _
    rw [recordValue, hfields, Option.map_some, hsaw, hopened]
    simp only [if_true, finish_decodedSecretRecord hrecord hsecret]
    rfl
  · rw [hbytes]
    exact List.append_ne_nil_of_left_ne_nil (headBytes_ne_nil _ _) _

/-- The pairs of a record with all its fields as long as they may be fit the record buffer. -/
theorem encodeMap_recordPairs (hlaws : SealLaws crypto) (hrecord : record.WellFormed)
    {counterFloor iv : Bytes} (hfloor : counterFloor.length = counterFloorFileSize)
    (hiv : iv.length = wrapIvLen) :
    (∃ data, encodeMap (recordPairs record counterFloor) = some data) ∧
      ∃ data, encodeMap (recordPairs record counterFloor ++ hmacSecretPairs
        (crypto.enclaveEncrypt iv (record.hmacSecretWithoutUv ++ record.hmacSecretWithUv)) iv) =
          some data := by
  have hfits : ∀ pairs : List (ℕ × Item), (∀ pair ∈ pairs, ValidPair pair) →
      headRoom pairs.length + ((pairs.map Prod.fst).map pairRoom).sum ≤ storeRecordMaxSize →
      ∃ data, encodeMap pairs = some data := by
    intro pairs hvalid hroom
    refine ⟨_, encodeMap_eq_some ?_⟩
    have hpairs := length_flatMap_pairBytes hvalid
    rw [List.length_append, length_headBytes]
    omega
  refine ⟨hfits _ (validPair_recordPairs hrecord hfloor) ?_,
    hfits _ (validPair_secretPairs hlaws hrecord hfloor hiv) ?_⟩
  · change headRoom 15 + (([1, 2, 3, 4, 5, 6, 7, 8, 9, 10, 11, 12, 13, 14, 17] :
      List ℕ).map pairRoom).sum ≤ storeRecordMaxSize
    decide
  · change headRoom 17 + (([1, 2, 3, 4, 5, 6, 7, 8, 9, 10, 11, 12, 13, 14, 17, 15, 16] :
      List ℕ).map pairRoom).sum ≤ storeRecordMaxSize
    decide

variable {Event : Type} {world : World Event}

/-- Encoding a well-formed record gives bytes that decode to it, unless the enclave fails, and
leaves the files alone. -/
theorem ensures_recordFormatEncode (hlaws : SealLaws crypto) (hrecord : record.WellFormed)
    {post : Option Bytes → World Event → Prop} {crash : World Event → Prop}
    (h : ∀ result world', Idle world world' → (result = none → world.enclave ≠ []) →
      (∀ data, result = some data → Recorded crypto data record) → post result world') :
    Ensures (recordFormatEncode crypto record) post crash world := by
  simp only [recordFormatEncode, ensures_bind]
  refine ensures_counterFloorEncodeFields hlaws fun floor first hfirst hnone hfloor ↦ ?_
  cases floor with
  | none => exact h none first hfirst (fun _ ↦ hnone rfl) (by simp)
  | some counterFloor =>
    replace hfloor := (hfloor counterFloor rfl).2 hrecord.signCount
    simp only [ensures_ite]
    refine ⟨fun hsecret ↦ ?_, fun hsecret ↦ ?_⟩
    · simp only [recordWrapHmacSecret, ensures_bind]
      refine ensures_randomFill fun iv second hsecond hiv ↦ ?_
      refine Crypto.ensures_enclaveSeal fun sealed third hthird hunsealed hsealed ↦ ?_
      have hidle := (hfirst.trans hsecond).trans hthird
      cases sealed with
      | none =>
        exact h none third hidle
          (fun _ ↦ (hfirst.trans hsecond).enclave_ne_nil (hunsealed rfl)) (by simp)
      | some wrapped =>
        obtain rfl := hsealed wrapped rfl
        obtain ⟨data, hdata⟩ := (encodeMap_recordPairs hlaws hrecord hfloor.length hiv).2
        refine h _ third hidle (fun hnone ↦ ?_) fun data hdata ↦ ?_
        · exact absurd (hdata.symm.trans hnone) (by simp)
        · exact recorded_secret hlaws hrecord hsecret hfloor hiv hdata
    · obtain ⟨data, hdata⟩ := (encodeMap_recordPairs hlaws hrecord hfloor.length
        (show (zeroBytes wrapIvLen).length = wrapIvLen from List.length_replicate)).1
      refine h _ first hfirst (fun hnone ↦ ?_) fun data hdata ↦ ?_
      · exact absurd (hdata.symm.trans hnone) (by simp)
      · exact recorded_plain hrecord (by simpa using hsecret) hfloor hdata

/-- Decoding gives what the bytes say, unless the enclave fails. -/
theorem ensures_recordDecode {data : Bytes} {fileName : Path}
    {post : Option (CredentialRecord × Option Bytes) → World Event → Prop}
    {crash : World Event → Prop}
    (h : ∀ result world', Idle world world' →
      (result = recordValue crypto data fileName ∨ result = none ∧ world.enclave ≠ []) →
      post result world') :
    Ensures (recordDecode crypto data fileName) post crash world := by
  unfold recordDecode
  cases hfields : recordDecodeFields data fileName with
  | none =>
    refine h none world (Idle.refl world) (Or.inl ?_)
    rw [recordValue, hfields, Option.map_none]
  | some state =>
    have hvalue : recordValue crypto data fileName = some (state.finish
        (if state.saw keyHmacSecretWrapped then
          some (crypto.enclaveDecrypt state.hmacSecretIv state.hmacSecretWrapped) else none),
        state.counterFloor) := by
      rw [recordValue, hfields, Option.map_some]
    simp only [ensures_ite, ensures_bind]
    refine ⟨fun hsaw ↦ ?_, fun hsaw ↦ ?_⟩
    · rw [if_pos hsaw] at hvalue
      refine Crypto.ensures_enclaveOpen fun result world' hidle hnone hopened ↦ ?_
      cases result with
      | none => exact h none world' hidle (Or.inr ⟨rfl, hnone rfl⟩)
      | some plain =>
        refine h _ world' hidle (Or.inl ?_)
        rw [hvalue, hopened plain rfl]
    · rw [if_neg hsaw] at hvalue
      exact h _ world (Idle.refl world) (Or.inl hvalue.symm)

end RoundTrip

end ZeroFido.Store
