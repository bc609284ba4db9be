import ZeroFido.Foundations.Process

/-!
# Processes in sequence under a schedule

Where a schedule has a process followed by another one, it is first a schedule of the first process,
up to where this returns (`comesTo`), and then one of the second (`interleave_bind`). So a condition
on a run may be one on the state in which a part of it begins. `Maintains.comesTo` is what the
judgment about the first part says there, when the others act as `rely` allows in this run.

A property that a process keeps and may rely on is `Upholds`, with one rule for each construct of
a `do` block.
-/

set_option autoImplicit false
set_option relaxedAutoImplicit false

namespace ZeroFido.Foundations.Process

variable {State Value Next Event : Type}

section Laws

theorem bind_done (process : Process State Value) : process.bind .done = process := by
  induction process with
  | done value => rfl
  | stopped => rfl
  | more advance rest ih => exact congrArg (Process.more advance) (funext ih)

theorem bind_bind {Last : Type} (process : Process State Value)
    (next : Value → Process State Next) (last : Next → Process State Last) :
    (process.bind next).bind last = process.bind fun value ↦ (next value).bind last := by
  induction process with
  | done value => rfl
  | stopped => rfl
  | more advance rest ih => exact congrArg (Process.more advance) (funext ih)

instance : LawfulMonad (Process State) :=
  LawfulMonad.mk' (Process State) bind_done (fun _ _ ↦ rfl) bind_bind

variable {Last : Type} {last : Next → Process State Last}

/-- A process splits where what comes after its first part does. -/
theorem bind_splits {process : Process State Value} {whole : Value → Process State Last}
    {part : Value → Process State Next} (h : ∀ value, whole value = part value >>= last) :
    process >>= whole = (process >>= part) >>= last := by
  rw [bind_assoc]
  exact bind_congr h

theorem ite_splits {condition : Prop} [Decidable condition] {whole whole' : Process State Last}
    {part part' : Process State Next} (h : whole = part >>= last) (h' : whole' = part' >>= last) :
    (if condition then whole else whole') = (if condition then part else part') >>= last := by
  split_ifs
  · exact h
  · exact h'

theorem map_splits {process : Process State Value} {f : Value → Next}
    {last : Next → Process State Value} (h : ∀ value, last (f value) = pure value) :
    process = (f <$> process) >>= last := by
  rw [bind_map_left, funext h, bind_pure]

end Laws

section Sequences

variable (disturb : State → Event → State)

/-- Follows a schedule until the process has returned: what it returned, the state it left, and what
is left of the schedule. -/
def comesTo : List (Option Event) → Process State Value × State →
    Option (Value × State × List (Option Event))
  | [], configuration => configuration.1.result?.map fun value ↦ (value, configuration.2, [])
  | event :: rest, configuration =>
    match configuration.1.result? with
    | some value => some (value, configuration.2, event :: rest)
    | none => comesTo rest (interleaveStep disturb configuration event)

variable {disturb} {schedule rest : List (Option Event)} {process : Process State Value}
  {next : Value → Process State Next} {start state final : State} {value : Value}

@[simp]
theorem comesTo_done : comesTo disturb schedule (.done value, start) =
    some (value, start, schedule) := by
  cases schedule <;> rfl

/-- A process that has not returned comes to what its next step comes to. -/
theorem comesTo_cons {event : Option Event} (h : process.result? = none) :
    comesTo disturb (event :: rest) (process, start) =
      comesTo disturb rest (interleaveStep disturb (process, start) event) := by
  simp only [comesTo, h]

/-- At the end of a schedule the process has returned already. -/
theorem eq_done_of_comesTo_nil
    (h : comesTo disturb [] (process, start) = some (value, state, rest)) :
    process = .done value ∧ start = state ∧ rest = [] := by
  obtain ⟨result, hresult, h⟩ := Option.map_eq_some_iff.mp h
  obtain ⟨rfl, rfl, rfl⟩ := h
  exact ⟨eq_done_of_result? hresult, rfl, rfl⟩

theorem comesTo_stopped :
    comesTo disturb schedule ((.stopped : Process State Value), start) = none := by
  induction schedule generalizing start with
  | nil => rfl
  | cons event schedule ih => cases event <;> exact ih

/-- A step of a process that has another one behind it. -/
theorem interleaveStep_bind {event : Option Event} (h : process.result? = none) :
    interleaveStep disturb (process >>= next, start) event =
      ((interleaveStep disturb (process, start) event).1 >>= next,
        (interleaveStep disturb (process, start) event).2) := by
  cases process with
  | done value => exact absurd h (by simp [result?])
  | stopped => cases event <;> rfl
  | more advance rest => cases event <;> rfl

/-- Behind the first process the schedule is one of the second. -/
theorem interleave_bind
    (h : comesTo disturb schedule (process, start) = some (value, state, rest)) :
    interleave disturb (process >>= next) start schedule =
      interleave disturb (next value) state rest := by
  induction schedule generalizing process start with
  | nil =>
    obtain ⟨rfl, rfl, rfl⟩ := eq_done_of_comesTo_nil h
    rfl
  | cons event schedule ih =>
    cases hresult : process.result? with
    | some result =>
      rw [eq_done_of_result? hresult, comesTo_done] at h
      obtain ⟨rfl, rfl, rfl⟩ := Option.some.inj h
      rw [eq_done_of_result? hresult]
      rfl
    | none =>
      rw [comesTo_cons hresult] at h
      rw [interleave, run_cons, interleaveStep_bind hresult]
      exact ih h

/-- A sequence that has returned has come to its second process. -/
theorem exists_comesTo {result : Next}
    (h : interleave disturb (process >>= next) start schedule = (.done result, final)) :
    ∃ value state rest, comesTo disturb schedule (process, start) = some (value, state, rest) ∧
      interleave disturb (next value) state rest = (.done result, final) := by
  have hcomes : ∃ value state rest,
      comesTo disturb schedule (process, start) = some (value, state, rest) := by
    induction schedule generalizing process start with
    | nil =>
      cases process with
      | done value => exact ⟨value, start, [], rfl⟩
      | stopped => exact absurd (congrArg Prod.fst h) (by simp [interleave, Bind.bind, bind])
      | more advance continuation =>
        exact absurd (congrArg Prod.fst h) (by simp [interleave, Bind.bind, bind])
    | cons event schedule ih =>
      cases hresult : process.result? with
      | some value =>
        rw [eq_done_of_result? hresult]
        exact ⟨value, start, _, comesTo_done⟩
      | none =>
        rw [comesTo_cons hresult]
        rw [interleave, run_cons, interleaveStep_bind hresult] at h
        exact ih h
  obtain ⟨value, state, rest, hcomes⟩ := hcomes
  exact ⟨value, state, rest, hcomes, (interleave_bind hcomes).symm.trans h⟩

variable {rely : State → State → Prop} {keep : State → Prop} {post : Value → State → Prop}
  {crash : State → Prop} {allowed : State → Option Event → Prop}

/-- What holds of every step of a sequence holds of the steps of its second process. -/
theorem everyStep_of_comesTo
    (hallowed : EveryStep (interleaveStep disturb) (fun configuration ↦ allowed configuration.2)
      (process >>= next, start) schedule)
    (h : comesTo disturb schedule (process, start) = some (value, state, rest)) :
    EveryStep (interleaveStep disturb) (fun configuration ↦ allowed configuration.2)
      (next value, state) rest := by
  induction schedule generalizing process start with
  | nil =>
    obtain ⟨-, -, rfl⟩ := eq_done_of_comesTo_nil h
    trivial
  | cons event schedule ih =>
    cases hresult : process.result? with
    | some result =>
      rw [eq_done_of_result? hresult, comesTo_done] at h
      obtain ⟨rfl, rfl, rfl⟩ := Option.some.inj h
      rw [eq_done_of_result? hresult] at hallowed
      exact hallowed
    | none =>
      rw [comesTo_cons hresult] at h
      have hlater := hallowed.2
      rw [interleaveStep_bind hresult] at hlater
      exact ih hlater h

/-- The judgment about the first of two processes, in a run in which every section and every act of
the others is one that the process may rely on. -/
theorem Maintains.comesTo (h : Maintains rely keep post crash process start)
    (hsection : ∀ state, allowed state none → rely state state)
    (hothers : ∀ state event, allowed state (some event) → ∀ later,
      rely (disturb state event) later → rely state later)
    (hkeep : ∀ state event, keep state → keep (disturb state event))
    (hallowed : EveryStep (interleaveStep disturb) (fun configuration ↦ allowed configuration.2)
      (process >>= next, start) schedule)
    (hcomes : comesTo disturb schedule (process, start) = some (value, state, rest)) :
    post value state := by
  induction schedule generalizing process start with
  | nil =>
    obtain ⟨rfl, rfl, -⟩ := eq_done_of_comesTo_nil hcomes
    exact h
  | cons event schedule ih =>
    cases process with
    | done result =>
      rw [comesTo_done] at hcomes
      obtain ⟨rfl, rfl, -⟩ := Option.some.inj hcomes
      exact h
    | stopped => exact absurd (comesTo_stopped.symm.trans hcomes) (by simp)
    | more advance continuation =>
      obtain ⟨hevent, hlater⟩ := hallowed
      rw [interleaveStep_bind rfl] at hlater
      rw [comesTo_cons rfl] at hcomes
      refine ih ?_ hlater hcomes
      cases event with
      | none => exact h.2 start (hsection start hevent)
      | some event =>
        exact ⟨hkeep start event h.1, fun later hlater ↦
          h.2 later (hothers start event hevent later hlater)⟩

/-- The judgment holds of what a schedule leaves of the process, when every section and every act of
the others in this run is one that the process may rely on. -/
theorem Maintains.runs (h : Maintains rely keep post crash process start)
    (hsection : ∀ state, allowed state none → rely state state)
    (hothers : ∀ state event, allowed state (some event) → ∀ later,
      rely (disturb state event) later → rely state later)
    (hkeep : ∀ state event, keep state → keep (disturb state event))
    (hpost : ∀ value state event, allowed state (some event) → post value state →
      post value (disturb state event))
    (hcrash : ∀ state event, crash state → crash (disturb state event))
    (hallowed : EveryStep (interleaveStep disturb) (fun configuration ↦ allowed configuration.2)
      (process, start) schedule) :
    Maintains rely keep post crash (Process.interleave disturb process start schedule).1
      (Process.interleave disturb process start schedule).2 := by
  refine @run_invariant _ _ (interleaveStep disturb) (fun configuration ↦ allowed configuration.2) _
    (fun configuration ↦ Maintains rely keep post crash configuration.1 configuration.2) ?_ _
    hallowed h
  rintro ⟨process, state⟩ event hevent hmaintains
  cases event with
  | none =>
    cases process with
    | done value => exact hmaintains
    | stopped => exact hmaintains
    | more advance rest => exact hmaintains.2 state (hsection state hevent)
  | some event =>
    cases process with
    | done value => exact hpost value state event hevent hmaintains
    | stopped => exact hcrash state event hmaintains
    | more advance rest =>
      exact ⟨hkeep state event hmaintains.1, fun later hlater ↦
        hmaintains.2 later (hothers state event hevent later hlater)⟩

end Sequences

section Preservation

variable {rely : State → State → Prop} {property : State → Prop}

/-- The process keeps the property, and may rely on it before each of its sections. -/
def Upholds (rely : State → State → Prop) (property : State → Prop)
    (process : Process State Value) : Prop :=
  ∀ start, property start →
    Maintains rely (fun _ ↦ True) (fun _ ↦ property) (fun _ ↦ True) process start

theorem upholds_pure (value : Value) :
    Upholds rely property (pure value : Process State Value) :=
  fun _ h ↦ h

theorem Upholds.bind {process : Process State Value} {next : Value → Process State Next}
    (h : Upholds rely property process) (hnext : ∀ value, Upholds rely property (next value)) :
    Upholds rely property (process >>= next) := by
  intro start hstart
  rw [maintains_bind]
  exact (h start hstart).weaken fun value final hfinal ↦ hnext value final hfinal

theorem upholds_ite {condition : Prop} [Decidable condition] {yes no : Process State Value}
    (hyes : Upholds rely property yes) (hno : Upholds rely property no) :
    Upholds rely property (if condition then yes else no) := by
  split_ifs
  · exact hyes
  · exact hno

theorem upholds_atomically {program : Program State Value}
    (hstable : ∀ state later, rely state later → property state → property later)
    (h : ∀ state, property state → Ensures program (fun _ ↦ property) (fun _ ↦ True) state) :
    Upholds rely property (atomically program) :=
  fun _ hstart ↦ maintains_of_stable hstable trivial hstart h

end Preservation

end ZeroFido.Foundations.Process
