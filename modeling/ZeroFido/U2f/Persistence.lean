import ZeroFido.Types
import ZeroFido.Foundations.CrashProgram

/-!
# The U2F files

`u2f/persistence.c`: the device secret and the counter, each in a file that is replaced or removed
as a whole. A call that replaces or removes one succeeds, reports a failure, or the power is lost
during it; after the last two the file has its old contents or the new ones. A call that reads one
may report a failure, whatever the file holds.

Two secrets that were generated at different times are different secrets, also when the random
generator repeats itself. The serial number of a secret says when it was generated.
-/

set_option autoImplicit false
set_option relaxedAutoImplicit false

namespace ZeroFido.U2f

open Foundations

section Device

/-- The device secret. -/
structure DeviceKey where
  serial : ℕ
  bytes : Bytes
  deriving DecidableEq, Repr

/-- What a file holds. A damaged file is there and cannot be read. -/
inductive Stored (Value : Type) where
  | missing
  | damaged
  | holds (value : Value)
  deriving DecidableEq, Repr

/-- Whether the file is there. -/
def Stored.exists {Value : Type} : Stored Value → Bool
  | .missing => false
  | .damaged => true
  | .holds _ => true

/-- The outcome of a call that replaces or removes a file. -/
inductive ChangeOutcome where
  | done
  | failed (took : Bool)
  | lost (took : Bool)
  deriving DecidableEq, Repr

/-- The two files, the outcomes of the coming calls, and the random bytes of the coming secrets. -/
structure Device where
  key : Stored DeviceKey
  counter : Stored UInt32
  changes : List ChangeOutcome
  reads : List Bool
  entropy : List Bytes
  generated : ℕ
  deriving DecidableEq, Repr

/-- A device with the given files, on which every call succeeds. -/
def Device.start (key : Stored Bytes) (counter : Stored UInt32) : Device where
  key :=
    match key with
    | .missing => .missing
    | .damaged => .damaged
    | .holds bytes => .holds ⟨0, bytes⟩
  counter := counter
  changes := []
  reads := []
  entropy := []
  generated := 1

end Device

section Primitives

/-- Takes the outcome of the next call that changes a file. -/
def nextChange : Program Device ChangeOutcome :=
  modifyGet fun device ↦
    (device.changes.headD .done, { device with changes := device.changes.tail })

/-- Takes the outcome of the next read. -/
def nextRead : Program Device Bool :=
  modifyGet fun device ↦ (device.reads.headD true, { device with reads := device.reads.tail })

/-- The effect takes place when the outcome says so. -/
def whenTaken (took : Bool) (effect : Device → Device) (device : Device) : Device :=
  if took then effect device else device

/-- Replaces or removes a file. -/
def change (effect : Device → Device) : Program Device Bool := do
  match ← nextChange with
  | .done =>
    modify effect
    return true
  | .failed took =>
    modify (whenTaken took effect)
    return false
  | .lost took =>
    modify (whenTaken took effect)
    throw .stopped

/-- Reads a file that is there and not damaged. -/
def readStored {Value : Type} (file : Device → Stored Value) : Program Device (Option Value) := do
  match file (← get) with
  | .holds value =>
    if ← nextRead then return some value
    return none
  | _ => return none

end Primitives

section Files

/-- `u2f_data_counter_high_water`. -/
def counterHighWater (counter : UInt32) : UInt32 :=
  if (0xffffffff - counter).toNat < counterReservationWindow then 0xffffffff
  else counter + UInt32.ofNat counterReservationWindow

/-- `u2f_data_key_load`. -/
def dataKeyLoad : Program Device (Option DeviceKey) := readStored Device.key

/-- `u2f_data_key_exists`, with `storage_file_exists` assumed to be exact. -/
def dataKeyExists : Program Device Bool := do
  return (← get).key.exists

/-- `u2f_data_key_generate`. -/
def dataKeyGenerate : Program Device (Option DeviceKey) := do
  let key ← modifyGet fun device ↦
    (⟨device.generated, device.entropy.headD []⟩,
      { device with entropy := device.entropy.tail, generated := device.generated + 1 })
  if ← change fun device ↦ { device with key := .holds key } then return some key
  return none

/-- `u2f_data_cnt_read`. -/
def dataCntRead : Program Device (Option UInt32) := readStored Device.counter

/-- `u2f_data_cnt_exists`, with `storage_file_exists` assumed to be exact. -/
def dataCntExists : Program Device Bool := do
  return (← get).counter.exists

/-- `u2f_data_cnt_write`. -/
def dataCntWrite (counter : UInt32) : Program Device Bool :=
  change fun device ↦ { device with counter := .holds counter }

/-- `u2f_data_cnt_reserve`: the count that was reserved. -/
def dataCntReserve (counter : UInt32) : Program Device (Option UInt32) := do
  let highWater := counterHighWater counter
  if ← dataCntWrite highWater then return some highWater
  return none

/-- `u2f_data_wipe`. -/
def dataWipe : Program Device Bool :=
  change (fun device ↦ { device with key := .missing }) <&&>
    change fun device ↦ { device with counter := .missing }

end Files

section Specifications

variable {device : Device}

/-- The two files and the number of secrets are the same. -/
structure SameFiles (device device' : Device) : Prop where
  key : device'.key = device.key
  counter : device'.counter = device.counter
  generated : device'.generated = device.generated

theorem SameFiles.refl (device : Device) : SameFiles device device := ⟨rfl, rfl, rfl⟩

theorem SameFiles.trans {device' device'' : Device} (h : SameFiles device device')
    (h' : SameFiles device' device'') : SameFiles device device'' :=
  ⟨h'.key.trans h.key, h'.counter.trans h.counter, h'.generated.trans h.generated⟩

/-- A call that changes a file does so on success, and may have done so otherwise. -/
theorem ensures_change {effect : Device → Device} {post : Bool → Device → Prop}
    {crash : Device → Prop}
    (hdone : ∀ middle, SameFiles device middle → post true (effect middle))
    (hfailed : ∀ middle, SameFiles device middle → post false middle ∧ post false (effect middle))
    (hlost : ∀ middle, SameFiles device middle → crash middle ∧ crash (effect middle)) :
    Ensures (change effect) post crash device := by
  simp only [change, nextChange, ensures_bind, ensures_modifyGet]
  have hsame : SameFiles device { device with changes := device.changes.tail } := ⟨rfl, rfl, rfl⟩
  cases device.changes.headD .done with
  | done =>
    simp only [ensures_bind, ensures_modify, ensures_pure]
    exact hdone _ hsame
  | failed took =>
    simp only [ensures_bind, ensures_modify, ensures_pure]
    cases took
    · exact (hfailed _ hsame).1
    · exact (hfailed _ hsame).2
  | lost took =>
    simp only [ensures_bind, ensures_modify, ensures_throw]
    cases took
    · exact (hlost _ hsame).1
    · exact (hlost _ hsame).2

/-- A read gives what the file holds, or nothing. -/
theorem ensures_readStored {Value : Type} {file : Device → Stored Value}
    {post : Option Value → Device → Prop} {crash : Device → Prop}
    (h : ∀ result middle, SameFiles device middle →
      (∀ value, result = some value → file device = .holds value) → post result middle) :
    Ensures (readStored file) post crash device := by
  simp only [readStored, ensures_bind, ensures_get]
  split
  · rename_i value hvalue
    simp only [nextRead, ensures_bind, ensures_modifyGet, ensures_ite, ensures_pure]
    have hsame : SameFiles device { device with reads := device.reads.tail } := ⟨rfl, rfl, rfl⟩
    constructor
    · intro _
      exact h (some value) _ hsame (by rintro _ ⟨rfl⟩; exact hvalue)
    · intro _
      exact h none _ hsame (by simp)
  · rw [ensures_pure]
    exact h none device (.refl device) (by simp)

theorem ensures_dataKeyLoad {post : Option DeviceKey → Device → Prop} {crash : Device → Prop}
    (h : ∀ result middle, SameFiles device middle →
      (∀ key, result = some key → device.key = .holds key) → post result middle) :
    Ensures dataKeyLoad post crash device :=
  ensures_readStored h

theorem ensures_dataCntRead {post : Option UInt32 → Device → Prop} {crash : Device → Prop}
    (h : ∀ result middle, SameFiles device middle →
      (∀ count, result = some count → device.counter = .holds count) → post result middle) :
    Ensures dataCntRead post crash device :=
  ensures_readStored h

theorem ensures_dataKeyExists {post : Bool → Device → Prop} {crash : Device → Prop}
    (h : post device.key.exists device) : Ensures dataKeyExists post crash device := by
  simpa only [dataKeyExists, ensures_bind, ensures_get, ensures_pure] using h

theorem ensures_dataCntExists {post : Bool → Device → Prop} {crash : Device → Prop}
    (h : post device.counter.exists device) : Ensures dataCntExists post crash device := by
  simpa only [dataCntExists, ensures_bind, ensures_get, ensures_pure] using h

/-- The key file holds what it held, or a secret that is newer than all before. -/
structure KeyReplaced (device device' : Device) : Prop where
  key : device'.key = device.key ∨ ∃ bytes, device'.key = .holds ⟨device.generated, bytes⟩
  counter : device'.counter = device.counter
  generated : device'.generated = device.generated + 1

theorem ensures_dataKeyGenerate {post : Option DeviceKey → Device → Prop} {crash : Device → Prop}
    (hdone : ∀ bytes device', KeyReplaced device device' →
      device'.key = .holds ⟨device.generated, bytes⟩ →
        post (some ⟨device.generated, bytes⟩) device')
    (hfailed : ∀ device', KeyReplaced device device' → post none device')
    (hlost : ∀ device', KeyReplaced device device' → crash device') :
    Ensures dataKeyGenerate post crash device := by
  simp only [dataKeyGenerate, ensures_bind, ensures_modifyGet]
  have hreplaced : ∀ middle, SameFiles
      { device with entropy := device.entropy.tail, generated := device.generated + 1 } middle →
      KeyReplaced device middle ∧ KeyReplaced device { middle with
        key := .holds ⟨device.generated, device.entropy.headD []⟩ } := by
    intro middle hsame
    exact ⟨⟨Or.inl hsame.key, hsame.counter, hsame.generated⟩,
      ⟨Or.inr ⟨_, rfl⟩, hsame.counter, hsame.generated⟩⟩
  refine ensures_change (fun middle hsame ↦ ?_) (fun middle hsame ↦ ?_) fun middle hsame ↦ ?_
  · simp only [if_true, ensures_pure]
    exact hdone _ _ (hreplaced middle hsame).2 rfl
  · simp only [Bool.false_eq_true, if_false, ensures_pure]
    exact ⟨hfailed _ (hreplaced middle hsame).1, hfailed _ (hreplaced middle hsame).2⟩
  · exact ⟨hlost _ (hreplaced middle hsame).1, hlost _ (hreplaced middle hsame).2⟩

/-- The counter file holds what it held, or the given count. -/
structure CounterReplaced (count : UInt32) (device device' : Device) : Prop where
  key : device'.key = device.key
  counter : device'.counter = device.counter ∨ device'.counter = .holds count
  generated : device'.generated = device.generated

theorem ensures_dataCntWrite {count : UInt32} {post : Bool → Device → Prop}
    {crash : Device → Prop}
    (hdone : ∀ device', CounterReplaced count device device' → device'.counter = .holds count →
      post true device')
    (hfailed : ∀ device', CounterReplaced count device device' → post false device')
    (hlost : ∀ device', CounterReplaced count device device' → crash device') :
    Ensures (dataCntWrite count) post crash device := by
  have hreplaced : ∀ middle, SameFiles device middle → CounterReplaced count device middle ∧
      CounterReplaced count device { middle with counter := .holds count } := by
    intro middle hsame
    exact ⟨⟨hsame.key, Or.inl hsame.counter, hsame.generated⟩,
      ⟨hsame.key, Or.inr rfl, hsame.generated⟩⟩
  refine ensures_change (fun middle hsame ↦ ?_) (fun middle hsame ↦ ?_) fun middle hsame ↦ ?_
  · exact hdone _ (hreplaced middle hsame).2 rfl
  · exact ⟨hfailed _ (hreplaced middle hsame).1, hfailed _ (hreplaced middle hsame).2⟩
  · exact ⟨hlost _ (hreplaced middle hsame).1, hlost _ (hreplaced middle hsame).2⟩

/-- The counter file is only removed once the key file is gone. -/
structure Wiped (device device' : Device) : Prop where
  key : device'.key = device.key ∨ device'.key = .missing
  counter : device'.counter = device.counter ∨ device'.key = .missing
  generated : device'.generated = device.generated

theorem ensures_dataWipe :
    Ensures dataWipe (fun _ device' ↦ Wiped device device') (Wiped device) device := by
  simp only [dataWipe, ensures_andM]
  refine ensures_change (fun middle hsame ↦ ⟨fun _ ↦ ?_, by simp⟩) (fun middle hsame ↦ ?_)
    fun middle hsame ↦ ?_
  · refine ensures_change (fun last hlast ↦ ?_) (fun last hlast ↦ ?_) fun last hlast ↦ ?_
    · exact ⟨Or.inr hlast.key, Or.inr hlast.key, hlast.generated.trans hsame.generated⟩
    · exact ⟨⟨Or.inr hlast.key, Or.inr hlast.key, hlast.generated.trans hsame.generated⟩,
        ⟨Or.inr hlast.key, Or.inr hlast.key, hlast.generated.trans hsame.generated⟩⟩
    · exact ⟨⟨Or.inr hlast.key, Or.inr hlast.key, hlast.generated.trans hsame.generated⟩,
        ⟨Or.inr hlast.key, Or.inr hlast.key, hlast.generated.trans hsame.generated⟩⟩
  · exact ⟨⟨by simp, fun _ ↦ ⟨Or.inl hsame.key, Or.inl hsame.counter, hsame.generated⟩⟩,
      ⟨by simp, fun _ ↦ ⟨Or.inr rfl, Or.inl hsame.counter, hsame.generated⟩⟩⟩
  · exact ⟨⟨Or.inl hsame.key, Or.inl hsame.counter, hsame.generated⟩,
      ⟨Or.inr rfl, Or.inl hsame.counter, hsame.generated⟩⟩

/-- The reserved count is no smaller than the one it is reserved for. -/
theorem le_counterHighWater (counter : UInt32) : counter ≤ counterHighWater counter := by
  have hlt := counter.toNat_lt
  have hmax : (0xffffffff : UInt32).toNat = 4294967295 := rfl
  have hle : counter ≤ 0xffffffff := UInt32.le_iff_toNat_le.mpr (by omega)
  unfold counterHighWater
  split_ifs with hnear
  · exact hle
  · rw [UInt32.toNat_sub_of_le _ _ hle] at hnear
    have hwindow : (UInt32.ofNat counterReservationWindow).toNat = counterReservationWindow := rfl
    rw [UInt32.le_iff_toNat_le, UInt32.toNat_add, hwindow]
    unfold counterReservationWindow at hnear ⊢
    omega

end Specifications

end ZeroFido.U2f
