import ZeroFido.Types
import ZeroFido.Foundations.CrashProgram
import Mathlib.Logic.Function.Basic

/-!
# The device below the authenticator

The files, the outcomes of the device calls still to come, the random generator and the clock,
followed by the storage primitives of the firmware that `zerofido_storage.c` calls.

A primitive that changes a file takes its outcome from the head of `writes`: it succeeds, it reports
an error, or the power is lost during it. The last two carry how far the primitive got, so a failed
or interrupted rename may already have removed its target, and a copy or a write may have left a
truncated file. A finished list stands for calls that all succeed. Reading, the key enclave and key
generation have outcome lists of their own, and cannot lose power: an interruption there would leave
the same files as one at the write that follows. The firmware's `storage_file_exists` cannot report a
failure; it is assumed to be exact (`fileExists`), as is the check for a directory.

`trace` is not part of the device. The components above append to it what an observer of the run is
told, and no program reads it.
-/

set_option autoImplicit false
set_option relaxedAutoImplicit false

namespace ZeroFido.Storage

open Foundations

/-- The outcome of one call that changes a file. `progress` counts the elementary effects that took
place before the call failed or the power was lost. -/
inductive WriteOutcome where
  | done
  | failed (progress : ℕ)
  | interrupted (progress : ℕ)
  deriving DecidableEq, Repr

/-- Whether a call changes something, although it may report a failure. -/
def WriteOutcome.takesEffect : WriteOutcome → Bool
  | .done => true
  | .failed progress => progress != 0
  | .interrupted progress => progress != 0

/-- The device as the authenticator sees it. -/
structure World (Event : Type) where
  /-- Contents of every file; `none` where there is no file. -/
  files : Path → Option Bytes
  /-- Which directories exist. -/
  directories : Path → Bool
  /-- Outcomes of the coming calls that change a file. -/
  writes : List WriteOutcome
  /-- Outcomes of the coming file reads. -/
  reads : List Bool
  /-- Outcomes of the coming calls to the key enclave. -/
  enclave : List Bool
  /-- Outcomes of the coming key generations. -/
  keyGenerations : List Bool
  /-- The coming bytes of the random generator. -/
  entropy : ℕ → UInt8
  /-- Milliseconds since the device was first switched on. -/
  clock : ℕ
  /-- What an observer has been told, newest last. -/
  trace : List Event

/-- A device with an empty card on which every call succeeds. -/
def World.blank (Event : Type) : World Event where
  files := fun _ ↦ none
  directories := fun _ ↦ true
  writes := []
  reads := []
  enclave := []
  keyGenerations := []
  entropy := fun _ ↦ 0
  clock := 0
  trace := []

section Primitives

variable {Event : Type}

/-- Adds an event to the observer's record. -/
def note (event : Event) : Program (World Event) Unit :=
  modify fun world ↦ { world with trace := world.trace ++ [event] }

/-- Takes the outcome of the next call that changes a file. -/
def nextWrite : Program (World Event) WriteOutcome :=
  modifyGet fun world ↦ (world.writes.headD .done, { world with writes := world.writes.tail })

/-- Runs a primitive whose effect after `progress` elementary steps is `effect progress`, and whose
whole effect is `effect steps`. Reports whether it succeeded. -/
def attempt (steps : ℕ) (effect : ℕ → (Path → Option Bytes) → Path → Option Bytes) :
    Program (World Event) Bool := do
  match ← nextWrite with
  | .done =>
    modify fun world ↦ { world with files := effect steps world.files }
    return true
  | .failed progress =>
    modify fun world ↦ { world with files := effect (min progress steps) world.files }
    return false
  | .interrupted progress =>
    modify fun world ↦ { world with files := effect (min progress steps) world.files }
    throw .stopped

/-- The files with `path` removed. -/
def removed (path : Path) (files : Path → Option Bytes) : Path → Option Bytes :=
  Function.update files path none

/-- The files with `data` stored under `path`. -/
def stored (path : Path) (data : Bytes) (files : Path → Option Bytes) : Path → Option Bytes :=
  Function.update files path (some data)

/-- `storage_file_exists`, assumed to be exact: it says that a file exists exactly when it does. -/
def fileExists (path : Path) : Program (World Event) Bool := do
  return ((← get).files path).isSome

/-- Removes a file. The result is true when the file was removed or was not there, the two codes
`zf_storage_remove_optional` accepts. -/
def removeOptional (path : Path) : Program (World Event) Bool :=
  attempt 1 fun progress files ↦ if progress = 0 then files else removed path files

/-- The effect of a rename: the target goes first, then the source takes its name. -/
def renameEffect (source target : Path) (data : Bytes) (progress : ℕ)
    (files : Path → Option Bytes) : Path → Option Bytes :=
  match progress with
  | 0 => files
  | 1 => removed target files
  | _ => stored target data (removed source files)

/-- Renames a file over another. A missing source is an error that changes nothing. -/
def rename (source target : Path) : Program (World Event) Bool := do
  match (← get).files source with
  | none => return false
  | some data => attempt 2 (renameEffect source target data)

/-- The effect of creating a file and writing data to it: first it is empty, then it grows. -/
def writeEffect (path : Path) (data : Bytes) (progress : ℕ) (files : Path → Option Bytes) :
    Path → Option Bytes :=
  match progress with
  | 0 => files
  | written + 1 => stored path (data.take written) files

/-- Opens a file with `FSOM_CREATE_ALWAYS`, writes the data and closes it. The result is true when
the file was opened and every byte was written. -/
def createFile (path : Path) (data : Bytes) : Program (World Event) Bool :=
  attempt (data.length + 1) (writeEffect path data)

/-- Copies a file. A missing source is an error that changes nothing. -/
def copyFile (source target : Path) : Program (World Event) Bool := do
  match (← get).files source with
  | none => return false
  | some data => createFile target data

/-- Takes the outcome of the next file read. -/
def nextRead : Program (World Event) Bool :=
  modifyGet fun world ↦ (world.reads.headD true, { world with reads := world.reads.tail })

/-- Takes the outcome of the next call to the key enclave. -/
def nextEnclave : Program (World Event) Bool :=
  modifyGet fun world ↦ (world.enclave.headD true, { world with enclave := world.enclave.tail })

/-- Takes the outcome of the next key generation. -/
def nextKeyGeneration : Program (World Event) Bool :=
  modifyGet fun world ↦
    (world.keyGenerations.headD true, { world with keyGenerations := world.keyGenerations.tail })

/-- `furi_hal_random_fill_buf`. -/
def randomFill (length : ℕ) : Program (World Event) Bytes :=
  modifyGet fun world ↦
    ((List.range length).map world.entropy,
      { world with entropy := fun position ↦ world.entropy (position + length) })

/-- `furi_get_tick`: the clock as an unsigned 32-bit number. -/
def getTick : Program (World Event) ℕ := do
  return (← get).clock % 2 ^ 32

end Primitives

section Specifications

variable {Event : Type} {world world' world'' : World Event}

/-- Of the device, only files changed, and only by taking outcomes from the front of `writes`. -/
structure OnlyFiles (world world' : World Event) : Prop where
  eq : world' = { world with files := world'.files, writes := world'.writes }
  writes : world'.writes <:+ world.writes

theorem OnlyFiles.refl (world : World Event) : OnlyFiles world world :=
  ⟨rfl, List.suffix_refl _⟩

theorem OnlyFiles.trans (h : OnlyFiles world world') (h' : OnlyFiles world' world'') :
    OnlyFiles world world'' := by
  refine ⟨?_, h'.writes.trans h.writes⟩
  rw [h'.eq, h.eq]

theorem OnlyFiles.writes_nil (h : OnlyFiles world world') (hnil : world.writes = []) :
    world'.writes = [] := by
  have := h.writes
  rwa [hnil, List.suffix_nil] at this

theorem OnlyFiles.writes_ne_nil (h : OnlyFiles world world') (hne : world'.writes ≠ []) :
    world.writes ≠ [] :=
  fun hnil ↦ hne (h.writes_nil hnil)

/-- The observer was told nothing, no time passed, and outcomes were only taken from the front of
the lists. -/
structure Quiet (world world' : World Event) : Prop where
  trace_eq : world'.trace = world.trace
  clock_eq : world'.clock = world.clock
  keyGenerations : world'.keyGenerations <:+ world.keyGenerations
  writes : world'.writes <:+ world.writes
  reads : world'.reads <:+ world.reads
  enclave : world'.enclave <:+ world.enclave

theorem Quiet.refl (world : World Event) : Quiet world world :=
  ⟨rfl, rfl, List.suffix_refl _, List.suffix_refl _, List.suffix_refl _, List.suffix_refl _⟩

theorem Quiet.trans (h : Quiet world world') (h' : Quiet world' world'') : Quiet world world'' :=
  ⟨h'.trace_eq.trans h.trace_eq, h'.clock_eq.trans h.clock_eq,
    h'.keyGenerations.trans h.keyGenerations, h'.writes.trans h.writes,
    h'.reads.trans h.reads, h'.enclave.trans h.enclave⟩

theorem Quiet.writes_nil (h : Quiet world world') (hnil : world.writes = []) :
    world'.writes = [] := by
  have := h.writes
  rwa [hnil, List.suffix_nil] at this

theorem Quiet.enclave_ne_nil (h : Quiet world world') (hne : world'.enclave ≠ []) :
    world.enclave ≠ [] := by
  rintro hnil
  have := h.enclave
  rw [hnil, List.suffix_nil] at this
  exact hne this

theorem Quiet.reads_ne_nil (h : Quiet world world') (hne : world'.reads ≠ []) :
    world.reads ≠ [] := by
  rintro hnil
  have := h.reads
  rw [hnil, List.suffix_nil] at this
  exact hne this

/-- A call that lost power, which only a listed outcome can cause. -/
structure PowerLost (world world' : World Event) : Prop extends Quiet world world' where
  listed : world.writes ≠ []

theorem PowerLost.after (h' : PowerLost world' world'') (h : Quiet world world') :
    PowerLost world world'' :=
  ⟨h.trans h'.toQuiet, fun hnil ↦ h'.listed (h.writes_nil hnil)⟩

theorem Quiet.keyGenerations_nil (h : Quiet world world') (hnil : world.keyGenerations = []) :
    world'.keyGenerations = [] := by
  have := h.keyGenerations
  rwa [hnil, List.suffix_nil] at this

theorem OnlyFiles.quiet (h : OnlyFiles world world') : Quiet world world' := by
  have hsame := h.eq
  have hkeys : world'.keyGenerations = world.keyGenerations := by rw [hsame]
  have hreads : world'.reads = world.reads := by rw [hsame]
  have henclave : world'.enclave = world.enclave := by rw [hsame]
  refine ⟨?_, ?_, hkeys ▸ List.suffix_refl _, h.writes, hreads ▸ List.suffix_refl _,
    henclave ▸ List.suffix_refl _⟩
  · rw [hsame]
  · rw [hsame]

/-- A call that took outcomes or random bytes and left every file alone. -/
structure Idle (world world' : World Event) : Prop extends Quiet world world' where
  files_eq : world'.files = world.files

theorem Idle.refl (world : World Event) : Idle world world := ⟨Quiet.refl world, rfl⟩

theorem Idle.trans (h : Idle world world') (h' : Idle world' world'') : Idle world world'' :=
  ⟨h.toQuiet.trans h'.toQuiet, h'.files_eq.trans h.files_eq⟩

/-- The rule for a primitive: it succeeds with its whole effect, or it fails or is interrupted with
part of it, and only a listed outcome makes it do so. -/
theorem ensures_attempt {steps : ℕ}
    {effect : ℕ → (Path → Option Bytes) → Path → Option Bytes}
    {post : Bool → World Event → Prop} {crash : World Event → Prop}
    (hdone : ∀ world', OnlyFiles world world' → world'.files = effect steps world.files →
      post true world')
    (hshort : ∀ world' progress, OnlyFiles world world' → world.writes ≠ [] →
      progress ≤ steps → world'.files = effect progress world.files →
        post false world' ∧ crash world') :
    Ensures (attempt steps effect) post crash world := by
  have hsame (files : Path → Option Bytes) :
      OnlyFiles world { world with files := files, writes := world.writes.tail } :=
    ⟨rfl, List.tail_suffix _⟩
  simp only [attempt, nextWrite, ensures_bind, ensures_modifyGet]
  cases houtcome : world.writes.headD .done with
  | done => exact hdone _ (hsame _) rfl
  | failed progress =>
    refine (hshort _ (min progress steps) (hsame _) ?_ (Nat.min_le_right _ _) rfl).1
    rintro hnil
    simp [hnil] at houtcome
  | interrupted progress =>
    refine (hshort _ (min progress steps) (hsame _) ?_ (Nat.min_le_right _ _) rfl).2
    rintro hnil
    simp [hnil] at houtcome

@[simp]
theorem ensures_fileExists {path : Path} {post : Bool → World Event → Prop}
    {crash : World Event → Prop} :
    Ensures (fileExists path) post crash world ↔ post (world.files path).isSome world := Iff.rfl

/-- Removing a file. -/
theorem ensures_removeOptional {path : Path} {post : Bool → World Event → Prop}
    {crash : World Event → Prop}
    (hdone : ∀ world', OnlyFiles world world' → world'.files = removed path world.files →
      post true world')
    (hshort : ∀ world', OnlyFiles world world' → world.writes ≠ [] →
      world'.files = world.files ∨ world'.files = removed path world.files →
        post false world' ∧ crash world') :
    Ensures (removeOptional path) post crash world := by
  refine ensures_attempt (fun world' hsame hfiles ↦ hdone world' hsame hfiles)
    fun world' progress hsame hwrites hbound hfiles ↦ hshort world' hsame hwrites ?_
  obtain rfl | rfl : progress = 0 ∨ progress = 1 := by omega
  · exact Or.inl hfiles
  · exact Or.inr hfiles

/-- Removing a file, by whether the removal takes effect. -/
theorem ensures_removeOptional_effect {path : Path} {post : Bool → World Event → Prop}
    {crash : World Event → Prop}
    (heffect : (world.writes.headD .done).takesEffect = true → ∀ ok world',
      OnlyFiles world world' → world'.files = removed path world.files →
        post ok world' ∧ crash world')
    (hnone : (world.writes.headD .done).takesEffect = false → ∀ world', OnlyFiles world world' →
      world'.files = world.files → post false world' ∧ crash world') :
    Ensures (removeOptional path) post crash world := by
  have hsame (files : Path → Option Bytes) :
      OnlyFiles world { world with files := files, writes := world.writes.tail } :=
    ⟨rfl, List.tail_suffix _⟩
  have heither : ∀ progress : ℕ, (progress != 0) = (world.writes.headD .done).takesEffect →
      ∀ files, files = (if min progress 1 = 0 then world.files else removed path world.files) →
        post false { world with files := files, writes := world.writes.tail } ∧
          crash { world with files := files, writes := world.writes.tail } := by
    rintro progress heq files rfl
    by_cases hzero : progress = 0
    · rw [if_pos (by omega)]
      exact hnone (by rw [← heq, hzero]; rfl) _ (hsame _) rfl
    · rw [if_neg (by omega)]
      exact heffect (by rw [← heq]; simpa using hzero) false _ (hsame _) rfl
  simp only [removeOptional, attempt, nextWrite, ensures_bind, ensures_modifyGet]
  cases houtcome : world.writes.headD .done with
  | done =>
    rw [houtcome] at heffect
    exact (heffect rfl true _ (hsame _) rfl).1
  | failed progress =>
    rw [houtcome] at heither
    exact (heither progress rfl _ rfl).1
  | interrupted progress =>
    rw [houtcome] at heither
    exact (heither progress rfl _ rfl).2

/-- Renaming a file that exists. -/
theorem ensures_rename {source target : Path} {data : Bytes} {post : Bool → World Event → Prop}
    {crash : World Event → Prop} (hsource : world.files source = some data)
    (hdone : ∀ world', OnlyFiles world world' →
      world'.files = stored target data (removed source world.files) → post true world')
    (hshort : ∀ world', OnlyFiles world world' → world.writes ≠ [] →
      world'.files = world.files ∨ world'.files = removed target world.files ∨
        world'.files = stored target data (removed source world.files) →
      post false world' ∧ crash world') :
    Ensures (rename source target) post crash world := by
  simp only [rename, ensures_bind, ensures_get, hsource]
  refine ensures_attempt (fun world' hsame hfiles ↦ hdone world' hsame hfiles)
    fun world' progress hsame hwrites hbound hfiles ↦ hshort world' hsame hwrites ?_
  obtain rfl | rfl | rfl : progress = 0 ∨ progress = 1 ∨ progress = 2 := by omega
  · exact Or.inl hfiles
  · exact Or.inr (Or.inl hfiles)
  · exact Or.inr (Or.inr hfiles)

/-- Creating a file with given contents. -/
theorem ensures_createFile {path : Path} {data : Bytes} {post : Bool → World Event → Prop}
    {crash : World Event → Prop}
    (hdone : ∀ world', OnlyFiles world world' → world'.files = stored path data world.files →
      post true world')
    (hshort : ∀ world', OnlyFiles world world' → world.writes ≠ [] →
      (world'.files = world.files ∨ ∃ written, world'.files =
        stored path (data.take written) world.files) → post false world' ∧ crash world') :
    Ensures (createFile path data) post crash world := by
  refine ensures_attempt (fun world' hsame hfiles ↦ hdone world' hsame ?_)
    fun world' progress hsame hwrites hbound hfiles ↦ hshort world' hsame hwrites ?_
  · rw [hfiles, writeEffect, List.take_length]
  · cases progress with
    | zero => exact Or.inl hfiles
    | succ written => exact Or.inr ⟨written, hfiles⟩

/-- Copying a file that exists. -/
theorem ensures_copyFile {source target : Path} {data : Bytes} {post : Bool → World Event → Prop}
    {crash : World Event → Prop} (hsource : world.files source = some data)
    (hdone : ∀ world', OnlyFiles world world' → world'.files = stored target data world.files →
      post true world')
    (hshort : ∀ world', OnlyFiles world world' → world.writes ≠ [] →
      (world'.files = world.files ∨ ∃ written, world'.files =
        stored target (data.take written) world.files) → post false world' ∧ crash world') :
    Ensures (copyFile source target) post crash world := by
  simp only [copyFile, ensures_bind, ensures_get, hsource]
  exact ensures_createFile hdone hshort

theorem ensures_nextRead {post : Bool → World Event → Prop} {crash : World Event → Prop}
    (h : ∀ ok world', Idle world world' → (ok = false → world.reads ≠ []) → post ok world') :
    Ensures nextRead post crash world := by
  refine h _ _ ⟨⟨rfl, rfl, List.suffix_refl _, List.suffix_refl _, List.tail_suffix _,
    List.suffix_refl _⟩, rfl⟩ ?_
  rintro hfailed hnil
  simp [hnil] at hfailed

theorem ensures_nextEnclave {post : Bool → World Event → Prop} {crash : World Event → Prop}
    (h : ∀ ok world', Idle world world' → (ok = false → world.enclave ≠ []) → post ok world') :
    Ensures nextEnclave post crash world := by
  refine h _ _ ⟨⟨rfl, rfl, List.suffix_refl _, List.suffix_refl _, List.suffix_refl _,
    List.tail_suffix _⟩, rfl⟩ ?_
  rintro hfailed hnil
  simp [hnil] at hfailed

theorem ensures_nextKeyGeneration {post : Bool → World Event → Prop} {crash : World Event → Prop}
    (h : ∀ world', Idle world world' → post (world.keyGenerations.headD true) world') :
    Ensures nextKeyGeneration post crash world :=
  h _ ⟨⟨rfl, rfl, List.tail_suffix _, List.suffix_refl _, List.suffix_refl _,
    List.suffix_refl _⟩, rfl⟩

theorem ensures_randomFill {length : ℕ} {post : Bytes → World Event → Prop}
    {crash : World Event → Prop}
    (h : ∀ bytes world', Idle world world' → bytes.length = length → post bytes world') :
    Ensures (randomFill length) post crash world := by
  refine h _ _ ⟨⟨rfl, rfl, List.suffix_refl _, List.suffix_refl _, List.suffix_refl _,
    List.suffix_refl _⟩, rfl⟩ ?_
  simp

end Specifications

end ZeroFido.Storage
