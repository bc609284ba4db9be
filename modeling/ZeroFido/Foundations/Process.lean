import ZeroFido.Foundations.CrashProgram
import ZeroFido.Foundations.Run

/-!
# Processes made of sections

A process is a sequence of sections, each a program on the shared state that nobody can look into,
and other parties act between two sections. What the other parties can do is a relation, the `rely`
of the process. `Maintains` is the judgment for such a process: before every section the state
satisfies `keep`, a return satisfies `post` and an interruption `crash`, whatever the others did
between the sections. `maintains_bind` and `maintains_atomically` follow the constructors of a `do`
block, and hand each section to the judgment `Ensures` of the program it is.

A schedule says when the process takes a section and when the others act (`interleave`).
`Maintains.interleave` is what the judgment says of every schedule: it still holds of what is left
of the process, when the three predicates are stable under what the others do.
-/

set_option autoImplicit false
set_option relaxedAutoImplicit false

namespace ZeroFido.Foundations

/-- A process over `State`: it has returned, it was interrupted, or a section is to come. The rest
is given the state that the section was started in. -/
inductive Process (State Value : Type) where
  | done (value : Value)
  | stopped
  | more (advance : State → State) (rest : State → Process State Value)

namespace Process

variable {State Value Next : Type}

/-- One process after the other. -/
def bind : Process State Value → (Value → Process State Next) → Process State Next
  | .done value, next => next value
  | .stopped, _ => .stopped
  | .more advance rest, next => .more advance fun state ↦ (rest state).bind next

instance : Monad (Process State) where
  pure := .done
  bind := Process.bind

/-- The state a program leaves. -/
def leaves (program : Program State Value) (start : State) : State :=
  match program.run start with
  | .ok _ final => final
  | .error _ final => final

/-- What holds on both exits holds of the state a program leaves. -/
theorem leaves_of_ensures {program : Program State Value} {invariant : State → Prop} {start : State}
    (h : Ensures program (fun _ ↦ invariant) invariant start) : invariant (leaves program start) := by
  unfold Ensures at h
  unfold leaves
  cases hrun : program.run start with
  | ok value final =>
    rw [hrun] at h
    exact h
  | error reason final =>
    rw [hrun] at h
    exact h

/-- What is left to do after a program that was a section of its own. -/
def outcome (program : Program State Value) (start : State) : Process State Value :=
  match program.run start with
  | .ok value _ => .done value
  | .error _ _ => .stopped

/-- A program as one section. -/
def atomically (program : Program State Value) : Process State Value :=
  .more (leaves program) (outcome program)

/-- What a process has returned. -/
def result? : Process State Value → Option Value
  | .done value => some value
  | _ => none

theorem eq_done_of_result? {process : Process State Value} {value : Value}
    (h : process.result? = some value) : process = .done value := by
  cases process with
  | done result => exact congrArg Process.done (Option.some.inj h)
  | stopped => exact absurd h (by simp [result?])
  | more advance rest => exact absurd h (by simp [result?])

/-- Runs the next section. -/
def step : Process State Value → State → Process State Value × State
  | .more advance rest, state => (rest state, advance state)
  | process, state => (process, state)

/-- Runs the sections one after the other, with nobody else acting: what the process returns, when
it is not interrupted, and the state it leaves. -/
def finish : Process State Value → State → Option Value × State
  | .done value, state => (some value, state)
  | .stopped, state => (none, state)
  | .more advance rest, state => (rest state).finish (advance state)

section Maintains

variable (rely : State → State → Prop) (keep : State → Prop)

/-- The process keeps `keep` and comes to `post`, or is interrupted in `crash`, when the others act
between its sections as `rely` says. -/
def Maintains (post : Value → State → Prop) (crash : State → Prop) :
    Process State Value → State → Prop
  | .done value, state => post value state
  | .stopped, state => crash state
  | .more advance rest, state =>
    keep state ∧ ∀ later, rely state later → Maintains post crash (rest later) (advance later)

variable {rely keep} {post : Value → State → Prop} {crash : State → Prop} {start : State}

@[simp]
theorem maintains_pure (value : Value) :
    Maintains rely keep post crash (pure value) start ↔ post value start := Iff.rfl

@[simp]
theorem maintains_bind (process : Process State Value) (next : Value → Process State Next)
    {post : Next → State → Prop} :
    Maintains rely keep post crash (process >>= next) start ↔
      Maintains rely keep (fun value ↦ Maintains rely keep post crash (next value)) crash process
        start := by
  show Maintains rely keep post crash (process.bind next) start ↔ _
  induction process generalizing start with
  | done value => exact Iff.rfl
  | stopped => exact Iff.rfl
  | more advance rest ih =>
    simp only [bind, Maintains]
    exact and_congr_right fun _ ↦ forall₂_congr fun later _ ↦ ih later

@[simp]
theorem maintains_map (f : Value → Next) (process : Process State Value)
    {post : Next → State → Prop} :
    Maintains rely keep post crash (f <$> process) start ↔
      Maintains rely keep (fun value ↦ post (f value)) crash process start :=
  maintains_bind process fun value ↦ pure (f value)

@[simp]
theorem maintains_atomically (program : Program State Value) :
    Maintains rely keep post crash (atomically program) start ↔
      keep start ∧ ∀ later, rely start later → Ensures program post crash later := by
  simp only [atomically, Maintains]
  refine and_congr_right fun _ ↦ forall₂_congr fun later _ ↦ ?_
  unfold outcome leaves Ensures
  cases program.run later <;> exact Iff.rfl

@[simp]
theorem maintains_ite (condition : Prop) [Decidable condition] (yes no : Process State Value) :
    Maintains rely keep post crash (if condition then yes else no) start ↔
      (condition → Maintains rely keep post crash yes start) ∧
        (¬condition → Maintains rely keep post crash no start) := by
  split_ifs with h <;> simp [h]

/-- The consequence rule. -/
theorem Maintains.mono {process : Process State Value} {post' : Value → State → Prop}
    {crash' : State → Prop} (h : Maintains rely keep post crash process start)
    (hpost : ∀ value final, post value final → post' value final)
    (hcrash : ∀ final, crash final → crash' final) :
    Maintains rely keep post' crash' process start := by
  induction process generalizing start with
  | done value => exact hpost value start h
  | stopped => exact hcrash start h
  | more advance rest ih => exact ⟨h.1, fun later hlater ↦ ih later (h.2 later hlater)⟩

/-- The consequence rule for returns. -/
theorem Maintains.weaken {process : Process State Value} {post' : Value → State → Prop}
    (h : Maintains rely keep post crash process start)
    (hpost : ∀ value final, post value final → post' value final) :
    Maintains rely keep post' crash process start :=
  h.mono hpost fun _ hcrash ↦ hcrash

/-- What a second judgment says of the result may be added to a first one. -/
theorem Maintains.and {process : Process State Value} {keep' : State → Prop}
    {post' : Value → State → Prop} {crash' : State → Prop}
    (h : Maintains rely keep post crash process start)
    (h' : Maintains rely keep' post' crash' process start) :
    Maintains rely keep (fun value state ↦ post value state ∧ post' value state) crash process
      start := by
  induction process generalizing start with
  | done value => exact ⟨h, h'⟩
  | stopped => exact h
  | more advance rest ih =>
    exact ⟨h.1, fun later hlater ↦ ih later (h.2 later hlater) (h'.2 later hlater)⟩

/-- The rule for a section that is started in a state with a stable property. -/
theorem maintains_of_stable {program : Program State Value} {stable : State → Prop}
    (hstable : ∀ state later, rely state later → stable state → stable later)
    (hkeep : keep start) (hstart : stable start)
    (h : ∀ later, stable later → Ensures program post crash later) :
    Maintains rely keep post crash (atomically program) start :=
  (maintains_atomically program).mpr
    ⟨hkeep, fun later hlater ↦ h later (hstable start later hlater hstart)⟩

/-- The judgment holds after an act of the others, when it leaves them no more to do. -/
theorem Maintains.later {process : Process State Value} {later : State}
    (h : Maintains rely keep post crash process start)
    (hrely : ∀ state, rely later state → rely start state) (hkeep : keep start → keep later)
    (hpost : ∀ value, post value start → post value later) (hcrash : crash start → crash later) :
    Maintains rely keep post crash process later := by
  cases process with
  | done value => exact hpost value h
  | stopped => exact hcrash h
  | more advance rest => exact ⟨hkeep h.1, fun state hstate ↦ h.2 state (hrely state hstate)⟩

/-- The judgment holds of what the next section leaves of the process. -/
theorem Maintains.step {process : Process State Value}
    (h : Maintains rely keep post crash process start) (hrely : rely start start) :
    Maintains rely keep post crash (process.step start).1 (process.step start).2 := by
  cases process with
  | done value => exact h
  | stopped => exact h
  | more advance rest => exact h.2 start hrely

/-- The judgment with others that do not act is about the process run alone. -/
theorem Maintains.finish {process : Process State Value}
    (h : Maintains Eq keep post crash process start) :
    (∀ value, (process.finish start).1 = some value → post value (process.finish start).2) ∧
      ((process.finish start).1 = none → crash (process.finish start).2) := by
  induction process generalizing start with
  | done value =>
    refine ⟨?_, fun habsurd ↦ absurd habsurd (by simp [Process.finish])⟩
    rintro _ ⟨⟩
    exact h
  | stopped => exact ⟨fun _ habsurd ↦ absurd habsurd (by simp [Process.finish]), fun _ ↦ h⟩
  | more advance rest ih => exact ih start (h.2 start rfl)

/-- A section of a process that is run alone. -/
theorem maintains_alone {program : Program State Value} (h : Ensures program post crash start)
    (hkeep : keep start) : Maintains Eq keep post crash (atomically program) start := by
  rw [maintains_atomically]
  refine ⟨hkeep, ?_⟩
  rintro _ rfl
  exact h

end Maintains

section Interleaving

variable {Event : Type} (disturb : State → Event → State)

/-- The others may act any number of times. -/
def Disturbs (start later : State) : Prop := ∃ events, later = run disturb start events

/-- One step of a schedule: the next section of the process, or an act of the others. -/
def interleaveStep (configuration : Process State Value × State) :
    Option Event → Process State Value × State
  | none => configuration.1.step configuration.2
  | some event => (configuration.1, disturb configuration.2 event)

/-- A process and its state after a schedule. -/
def interleave (process : Process State Value) (start : State) (schedule : List (Option Event)) :
    Process State Value × State :=
  run (interleaveStep disturb) (process, start) schedule

variable {disturb} {keep : State → Prop} {post : Value → State → Prop} {crash : State → Prop}
  {start later : State} {process : Process State Value}

/-- What every act of the others keeps is stable. -/
theorem Disturbs.stable {stable : State → Prop}
    (hstable : ∀ state event, stable state → stable (disturb state event))
    (h : Disturbs disturb start later) (hstart : stable start) : stable later := by
  obtain ⟨events, rfl⟩ := h
  exact run_invariant_always hstable events hstart

theorem Disturbs.after {event : Event} (h : Disturbs disturb (disturb start event) later) :
    Disturbs disturb start later := by
  obtain ⟨events, rfl⟩ := h
  exact ⟨event :: events, rfl⟩

/-- The judgment holds of what a schedule leaves of the process. -/
theorem Maintains.interleave (h : Maintains (Disturbs disturb) keep post crash process start)
    (hkeep : ∀ state event, keep state → keep (disturb state event))
    (hpost : ∀ value state event, post value state → post value (disturb state event))
    (hcrash : ∀ state event, crash state → crash (disturb state event))
    (schedule : List (Option Event)) :
    Maintains (Disturbs disturb) keep post crash (interleave disturb process start schedule).1
      (interleave disturb process start schedule).2 := by
  refine @run_invariant_always _ _ (interleaveStep disturb) _ (fun configuration ↦
    Maintains (Disturbs disturb) keep post crash configuration.1 configuration.2) ?_ schedule h
  rintro ⟨process, state⟩ event hmaintains
  cases event with
  | none =>
    cases process with
    | done value => exact hmaintains
    | stopped => exact hmaintains
    | more advance rest => exact hmaintains.2 state ⟨[], rfl⟩
  | some event =>
    cases process with
    | done value => exact hpost value state event hmaintains
    | stopped => exact hcrash state event hmaintains
    | more advance rest =>
      exact ⟨hkeep state event hmaintains.1, fun later hlater ↦ hmaintains.2 later hlater.after⟩

/-- A process that is never interrupted returns once its sections are run. -/
theorem Maintains.finishes
    (h : Maintains (Disturbs disturb) keep post (fun _ ↦ False) process start) :
    ∃ count value final, Process.interleave disturb process start (List.replicate count none) =
      (.done value, final) ∧ post value final := by
  induction process generalizing start with
  | done value => exact ⟨0, value, start, rfl, h⟩
  | stopped => exact h.elim
  | more advance rest ih =>
    obtain ⟨count, value, final, hfinal, hpost⟩ := ih start (h.2 start ⟨[], rfl⟩)
    exact ⟨count + 1, value, final, hfinal, hpost⟩

/-- One schedule after the other. -/
theorem interleave_append (schedule later : List (Option Event)) :
    interleave disturb process start (schedule ++ later) =
      interleave disturb (interleave disturb process start schedule).1
        (interleave disturb process start schedule).2 later := by
  simp only [interleave, run_append]

end Interleaving

end Process

end ZeroFido.Foundations
