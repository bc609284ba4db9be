import ZeroFido.Store.RecordFile

/-!
# Encoding a record and decoding it again

`record_roundtrip` for every record within the limits of its fields. A record file does not hold the
name of the file, the state of the array slot or the secrets of a credential that has none, so what
decoding gives is the record as stored (`CredentialRecord.stored`).
-/

set_option autoImplicit false
set_option relaxedAutoImplicit false

namespace ZeroFido.Store

open Foundations Storage

section Limits

/-- The limits of the fields that are written. -/
structure CredentialRecord.WithinLimits (record : CredentialRecord) : Prop where
  credentialId : record.credentialId.length = credentialIdLen
  rpId : TextField record.rpId maxRpIdLen
  rpId_ne : record.rpId ≠ []
  userId : record.userId.length ≤ maxUserIdLen
  userName : TextField record.userName maxUserNameLen
  userDisplayName : TextField record.userDisplayName maxDisplayNameLen
  publicX : record.publicX.length = publicKeyLen
  publicY : record.publicY.length = publicKeyLen
  privateWrapped : record.privateWrapped.length = privateKeyLen
  privateIv : record.privateIv.length = wrapIvLen
  signCount : record.signCount ≤ uint32Max
  createdAt : record.createdAt ≤ uint32Max
  credProtect : credProtectValueIsValid record.credProtect = true
  hmacSecretWithoutUv : record.hmacSecretWithoutUv.length = hmacSecretLen
  hmacSecretWithUv : record.hmacSecretWithUv.length = hmacSecretLen

/-- The record as its file holds it. -/
def CredentialRecord.stored (record : CredentialRecord) : CredentialRecord :=
  { record with
    inUse := true
    fileName := hexEncode record.credentialId
    storageVersion := storeFormatVersion
    hmacSecretWithoutUv :=
      if record.hmacSecret then record.hmacSecretWithoutUv else zeroBytes hmacSecretLen
    hmacSecretWithUv :=
      if record.hmacSecret then record.hmacSecretWithUv else zeroBytes hmacSecretLen }

end Limits

section RoundTrip

variable {Event : Type} {crypto : Crypto} {record : CredentialRecord} {world : World Event}

theorem CredentialRecord.WithinLimits.wellFormed_stored (h : record.WithinLimits) :
    record.stored.WellFormed where
  inUse := rfl
  fileName := rfl
  storageVersion := rfl
  credentialId := h.credentialId
  rpId := h.rpId
  rpId_ne := h.rpId_ne
  userId := h.userId
  userName := h.userName
  userDisplayName := h.userDisplayName
  publicX := h.publicX
  publicY := h.publicY
  privateWrapped := h.privateWrapped
  privateIv := h.privateIv
  signCount := h.signCount
  createdAt := h.createdAt
  credProtect := h.credProtect
  hmacSecretWithoutUv := by
    unfold CredentialRecord.stored
    split_ifs
    · exact h.hmacSecretWithoutUv
    · exact List.length_replicate
  hmacSecretWithUv := by
    unfold CredentialRecord.stored
    split_ifs
    · exact h.hmacSecretWithUv
    · exact List.length_replicate
  noSecret := by
    intro hsecret
    have hnone : record.hmacSecret = false := hsecret
    simp [CredentialRecord.stored, hnone]

/-- What is not stored is not read by the encoder. -/
theorem recordFormatEncode_stored :
    (recordFormatEncode crypto record.stored : Program (World Event) (Option Bytes)) =
      recordFormatEncode crypto record := by
  have hpairs : ∀ counterFloor,
      recordPairs record.stored counterFloor = recordPairs record counterFloor := fun _ ↦ rfl
  have hflag : record.stored.hmacSecret = record.hmacSecret := rfl
  unfold recordFormatEncode recordWrapHmacSecret
  by_cases hsecret : record.hmacSecret = true
  · have hwithout : record.stored.hmacSecretWithoutUv = record.hmacSecretWithoutUv := if_pos hsecret
    have hwith : record.stored.hmacSecretWithUv = record.hmacSecretWithUv := if_pos hsecret
    rw [hwithout, hwith]
    rfl
  · simp only [hflag, hsecret, hpairs]
    rfl

/-- An embedded floor of a count validates for it where no file overrides it. -/
theorem counterFloorValidateFields_embedded (hlaws : SealLaws crypto) {name : Path}
    (hname : isRecordName name = true) {credentialId raw : Bytes} {createdAt signCount : ℕ}
    (hfloor : CounterFloor crypto credentialId createdAt raw signCount)
    (henclave : world.enclave = []) (hreads : world.reads = [])
    (hfile : world.files (counterFloorPath name) = none) :
    resultOf (counterFloorValidateFields crypto name credentialId createdAt signCount (some raw))
      world = some (some (signCount, signCount)) := by
  have hnone : ¬writesFloor crypto world.files name credentialId createdAt signCount (some raw) := by
    simp [writesFloor, hfile]
  have hspec : Ensures
      (counterFloorValidateFields crypto name credentialId createdAt signCount (some raw))
      (fun result _ ↦ result = some (signCount, signCount)) (fun _ ↦ False) world := by
    refine (ensures_counterFloorValidateFields hlaws hname).mono ?_ fun _ hcut ↦ hnone hcut.2.1
    intro result final hvalidated
    obtain heq | ⟨-, hfailed⟩ := hvalidated.result_eq
    · simpa [countFound, hfile, hfloor.value] using heq
    · obtain hlisted | hlisted | ⟨-, hwritten⟩ := hfailed
      · exact absurd hreads hlisted
      · exact absurd henclave hlisted
      · exact absurd hwritten hnone
  obtain ⟨result, final, hresult, rfl⟩ := hspec.exists_resultOf
  exact hresult

/-- A record within the limits is encoded in a record file's size, and decoding the bytes under the
name derived from the credential id gives the record as stored, with an embedded counter floor that
validates for its sign count. -/
theorem record_roundtrip (hlaws : SealLaws crypto) (hrecord : record.WithinLimits)
    (henclave : world.enclave = []) :
    ∃ data counterFloor,
      resultOf (recordFormatEncode crypto record) world = some (some data) ∧
      data.length ≤ storeRecordMaxSize ∧
      (∀ reader : World Event, reader.enclave = [] →
        resultOf (recordDecode crypto data (hexEncode record.credentialId)) reader =
          some (some (record.stored, some counterFloor))) ∧
      ∀ reader : World Event, reader.enclave = [] → reader.reads = [] →
        reader.files (counterFloorPath (hexEncode record.credentialId)) = none →
        resultOf (counterFloorValidateFields crypto (hexEncode record.credentialId)
          record.credentialId record.createdAt record.signCount (some counterFloor)) reader =
            some (some (record.signCount, record.signCount)) := by
  have hwellFormed := hrecord.wellFormed_stored
  have hencode : Ensures (recordFormatEncode crypto record)
      (fun result _ ↦ ∃ data, result = some data ∧ Recorded crypto data record.stored)
      (fun _ ↦ False) world := by
    rw [← recordFormatEncode_stored]
    refine ensures_recordFormatEncode hlaws hwellFormed fun result world' _ hnone hdata ↦ ?_
    cases result with
    | none => exact absurd henclave (hnone rfl)
    | some data => exact ⟨data, rfl, hdata data rfl⟩
  obtain ⟨_, _, hresult, data, rfl, hrecorded⟩ := hencode.exists_resultOf
  obtain ⟨counterFloor, hvalue, hfloor⟩ := hrecorded.value
  refine ⟨data, counterFloor, hresult, hrecorded.fits, fun reader hreader ↦ ?_, ?_⟩
  · have hdecode : Ensures (recordDecode crypto data (hexEncode record.credentialId))
        (fun found _ ↦ found = some (record.stored, some counterFloor)) (fun _ ↦ False) reader := by
      refine ensures_recordDecode fun found reader' _ hfound ↦ ?_
      obtain heq | ⟨-, hfailed⟩ := hfound
      · exact heq.trans hvalue
      · exact absurd hreader hfailed
    obtain ⟨found, _, hfound, rfl⟩ := hdecode.exists_resultOf
    exact hfound
  · intro reader hreader hreads hfile
    exact counterFloorValidateFields_embedded hlaws (isRecordName_hexEncode hrecord.credentialId)
      hfloor hreader hreads hfile

/-- A record with an hmac-secret, whose texts and user id are as long as they may be. -/
def fullRecord : CredentialRecord :=
  { sampleRecord 1 2 with
    rpId := List.replicate (maxRpIdLen - 1) 97
    userId := List.replicate maxUserIdLen 1
    userName := List.replicate (maxUserNameLen - 1) 97
    userDisplayName := List.replicate (maxDisplayNameLen - 1) 97
    signCount := uint32Max
    hmacSecret := true }

theorem record_roundtrip_fullRecord :
    ∃ data counterFloor,
      resultOf (recordFormatEncode Crypto.standIn fullRecord) (World.blank Unit) =
        some (some data) ∧
      data.length ≤ storeRecordMaxSize ∧
      resultOf (recordDecode Crypto.standIn data (hexEncode fullRecord.credentialId))
        (World.blank Unit) = some (some (fullRecord.stored, some counterFloor)) := by
  have hsample := wellFormed_sampleRecord 1 (show credProtectValueIsValid 2 = true by decide)
  have hlimits : fullRecord.WithinLimits :=
    { credentialId := hsample.credentialId
      rpId := ⟨by decide +kernel, by decide +kernel, by decide +kernel⟩
      rpId_ne := by decide +kernel
      userId := by decide +kernel
      userName := ⟨by decide +kernel, by decide +kernel, by decide +kernel⟩
      userDisplayName := ⟨by decide +kernel, by decide +kernel, by decide +kernel⟩
      publicX := hsample.publicX
      publicY := hsample.publicY
      privateWrapped := hsample.privateWrapped
      privateIv := hsample.privateIv
      signCount := Nat.le_refl _
      createdAt := hsample.createdAt
      credProtect := by decide
      hmacSecretWithoutUv := hsample.hmacSecretWithoutUv
      hmacSecretWithUv := hsample.hmacSecretWithUv }
  obtain ⟨data, counterFloor, hencode, hfits, hdecode, -⟩ :=
    @record_roundtrip Unit Crypto.standIn fullRecord (World.blank Unit) sealLaws_standIn hlimits rfl
  exact ⟨data, counterFloor, hencode, hfits, hdecode (World.blank Unit) rfl⟩

end RoundTrip

end ZeroFido.Store
