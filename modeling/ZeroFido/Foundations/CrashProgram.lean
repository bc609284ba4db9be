import Mathlib.Tactic.SplitIfs

/-!
# Programs that may be interrupted

A program over a state type runs to a result, or is interrupted part of the way through and leaves
the state as the interruption found it. `EStateM` is that type with the interruption as its only
exception, so `do` blocks, early returns and the monad laws come from the library.

`Ensures` is the weakest precondition with one postcondition for a normal return and one for an
interruption. Its rules follow the constructors a `do` block elaborates to: `ensures_pure`,
`ensures_bind` and `ensures_ite` are rewriting rules, and `Ensures.mono` is the consequence rule by
which a caller cites the specification of what it calls. `Agrees` is the judgment about two runs:
from related states two programs come to the same result in related states.
-/

set_option autoImplicit false
set_option relaxedAutoImplicit false

namespace ZeroFido.Foundations

/-- The single reason a program stops without returning. -/
inductive Interruption where
  | stopped
  deriving DecidableEq, Repr

/-- A computation over `State` that returns a value or is interrupted; either way it leaves a
state behind. -/
abbrev Program (State Value : Type) := EStateM Interruption State Value

section Ensures

variable {State Value Next : Type}

/-- Started in `start`, the program either returns a value and a state that satisfy `post`, or is
interrupted in a state that satisfies `crash`. -/
def Ensures (program : Program State Value) (post : Value → State → Prop) (crash : State → Prop)
    (start : State) : Prop :=
  match program.run start with
  | .ok value final => post value final
  | .error _ final => crash final

variable {post : Value → State → Prop} {crash : State → Prop} {start : State}

@[simp]
theorem ensures_pure (value : Value) :
    Ensures (pure value) post crash start ↔ post value start := Iff.rfl

@[simp]
theorem ensures_get {post : State → State → Prop} :
    Ensures get post crash start ↔ post start start := Iff.rfl

@[simp]
theorem ensures_set {post : PUnit → State → Prop} (next : State) :
    Ensures (set next) post crash start ↔ post PUnit.unit next := Iff.rfl

@[simp]
theorem ensures_modify {post : PUnit → State → Prop} (update : State → State) :
    Ensures (modify update) post crash start ↔ post PUnit.unit (update start) := Iff.rfl

@[simp]
theorem ensures_modifyGet (update : State → Value × State) :
    Ensures (modifyGet update) post crash start ↔ post (update start).1 (update start).2 := Iff.rfl

@[simp]
theorem ensures_throw (reason : Interruption) :
    Ensures (throw reason : Program State Value) post crash start ↔ crash start := Iff.rfl

@[simp]
theorem ensures_bind (program : Program State Value) (rest : Value → Program State Next)
    {post : Next → State → Prop} :
    Ensures (program >>= rest) post crash start ↔
      Ensures program (fun value middle ↦ Ensures (rest value) post crash middle) crash start := by
  unfold Ensures
  rw [EStateM.run_bind]
  cases program.run start <;> rfl

@[simp]
theorem ensures_map (program : Program State Value) (f : Value → Next)
    {post : Next → State → Prop} :
    Ensures (f <$> program) post crash start ↔
      Ensures program (fun value final ↦ post (f value) final) crash start := by
  rw [← bind_pure_comp, ensures_bind]
  rfl

@[simp]
theorem ensures_ite (condition : Prop) [Decidable condition] (yes no : Program State Value) :
    Ensures (if condition then yes else no) post crash start ↔
      (condition → Ensures yes post crash start) ∧ (¬condition → Ensures no post crash start) := by
  split_ifs with h <;> simp [h]

/-- The consequence rule: a specification may be weakened on both exits. -/
theorem Ensures.mono {program : Program State Value} {post' : Value → State → Prop}
    {crash' : State → Prop} (h : Ensures program post crash start)
    (hpost : ∀ value final, post value final → post' value final)
    (hcrash : ∀ final, crash final → crash' final) :
    Ensures program post' crash' start := by
  unfold Ensures at h ⊢
  split at h
  · exact hpost _ _ h
  · exact hcrash _ h

/-- What holds of every result and every state holds wherever a program stops. -/
theorem ensures_of_forall {program : Program State Value} (hpost : ∀ value final, post value final)
    (hcrash : ∀ final, crash final) : Ensures program post crash start := by
  unfold Ensures
  split
  · exact hpost _ _
  · exact hcrash _

/-- The rule for C's `&&` between two calls: the second runs only when the first returned true. -/
@[simp]
theorem ensures_andM (first second : Program State Bool) {post : Bool → State → Prop} :
    Ensures (first <&&> second) post crash start ↔
      Ensures first (fun ok middle ↦ (ok = true → Ensures second post crash middle) ∧
        (ok = false → post false middle)) crash start := by
  unfold andM
  rw [ensures_bind]
  constructor
  all_goals
    intro h
    refine h.mono (fun ok middle hmiddle ↦ ?_) fun _ hcrash ↦ hcrash
    cases ok <;> simpa [toBool] using hmiddle

/-- Two specifications of one program hold together. -/
theorem Ensures.and {program : Program State Value} {post' : Value → State → Prop}
    {crash' : State → Prop} (h : Ensures program post crash start)
    (h' : Ensures program post' crash' start) :
    Ensures program (fun value final ↦ post value final ∧ post' value final)
      (fun final ↦ crash final ∧ crash' final) start := by
  unfold Ensures at h h' ⊢
  split <;> simp_all

/-- A sequence returns exactly when its first part returns and the rest returns from there. -/
theorem run_bind_eq_ok {program : Program State Value} {rest : Value → Program State Next}
    {value : Next} {final : State} :
    (program >>= rest).run start = .ok value final ↔
      ∃ first middle, program.run start = .ok first middle ∧
        (rest first).run middle = .ok value final := by
  rw [EStateM.run_bind]
  cases program.run start with
  | ok first middle =>
    constructor
    · intro h
      exact ⟨first, middle, rfl, h⟩
    · rintro ⟨_, _, ⟨rfl, rfl⟩, h⟩
      exact h
  | error reason middle => simp

/-- What a specification says of a run that returned. -/
theorem Ensures.of_run {program : Program State Value} {value : Value} {final : State}
    (h : Ensures program post crash start) (hrun : program.run start = .ok value final) :
    post value final := by
  unfold Ensures at h
  rwa [hrun] at h

/-- A specification may also mention the run itself. -/
theorem Ensures.with_run {program : Program State Value} (h : Ensures program post crash start) :
    Ensures program (fun value final ↦ post value final ∧ program.run start = .ok value final)
      crash start := by
  unfold Ensures at h ⊢
  cases hrun : program.run start with
  | ok value final =>
    rw [hrun] at h
    exact ⟨h, rfl⟩
  | error reason final =>
    rw [hrun] at h
    exact h

/-- C's `&&` is associative. -/
theorem andM_assoc (first second third : Program State Bool) :
    ((first <&&> second) <&&> third) = (first <&&> second <&&> third) := by
  unfold andM
  rw [bind_assoc]
  refine bind_congr fun ok ↦ ?_
  cases ok <;> rfl

/-- Whether a program passes a test on its result and the state it leaves, if it returns. -/
def passes (program : Program State Value) (start : State) (test : Value → State → Bool) : Bool :=
  match program.run start with
  | .ok value final => test value final
  | .error _ _ => true

theorem passes_of_run {program : Program State Value} {test : Value → State → Bool} {value : Value}
    {final : State} (h : passes program start test = true)
    (hrun : program.run start = .ok value final) : test value final = true := by
  unfold passes at h
  rwa [hrun] at h

end Ensures

section Agrees

variable {State Value Next : Type} {relation : State → State → Prop}

/-- Started in related states, both programs return the same value or are both interrupted, and
leave related states. -/
def Agrees (relation : State → State → Prop) (program program' : Program State Value) : Prop :=
  ∀ start start', relation start start' →
    match program.run start, program'.run start' with
    | .ok value final, .ok value' final' => value = value' ∧ relation final final'
    | .error _ final, .error _ final' => relation final final'
    | _, _ => False

theorem Agrees.pure (value : Value) :
    Agrees relation (Pure.pure value : Program State Value) (Pure.pure value) :=
  fun _ _ hstart ↦ ⟨rfl, hstart⟩

theorem Agrees.bind {program program' : Program State Value}
    {rest rest' : Value → Program State Next} (hprogram : Agrees relation program program')
    (hrest : ∀ value, Agrees relation (rest value) (rest' value)) :
    Agrees relation (program >>= rest) (program' >>= rest') := by
  intro start start' hstart
  have hfirst := hprogram start start' hstart
  rw [EStateM.run_bind, EStateM.run_bind]
  cases hrun : program.run start with
  | ok value final =>
    cases hrun' : program'.run start' with
    | ok value' final' =>
      rw [hrun, hrun'] at hfirst
      obtain ⟨rfl, hfinal⟩ := hfirst
      exact hrest value final final' hfinal
    | error reason' final' =>
      rw [hrun, hrun'] at hfirst
      exact hfirst.elim
  | error reason final =>
    cases hrun' : program'.run start' with
    | ok value' final' =>
      rw [hrun, hrun'] at hfirst
      exact hfirst.elim
    | error reason' final' =>
      rw [hrun, hrun'] at hfirst
      exact hfirst

/-- What a program returns from a state; nothing when it is interrupted. -/
def resultOf (program : Program State Value) (start : State) : Option Value :=
  match program.run start with
  | .ok value _ => some value
  | .error _ _ => none

/-- What a specification says of a result. -/
theorem Ensures.of_resultOf {program : Program State Value} {post : Value → State → Prop}
    {crash : State → Prop} {start : State} {value : Value} (h : Ensures program post crash start)
    (hvalue : resultOf program start = some value) : ∃ final, post value final := by
  unfold resultOf at hvalue
  split at hvalue
  · rename_i result final hrun
    obtain rfl := Option.some.inj hvalue
    exact ⟨final, h.of_run hrun⟩
  · exact absurd hvalue (by simp)

/-- A program that cannot be interrupted has a result. -/
theorem Ensures.exists_resultOf {program : Program State Value} {post : Value → State → Prop}
    {start : State} (h : Ensures program post (fun _ ↦ False) start) :
    ∃ value final, resultOf program start = some value ∧ post value final := by
  unfold Ensures at h
  unfold resultOf
  cases hrun : program.run start with
  | ok value final =>
    rw [hrun] at h
    exact ⟨value, final, rfl, h⟩
  | error reason final =>
    rw [hrun] at h
    exact h.elim

theorem Agrees.resultOf_eq {program program' : Program State Value} {start start' : State}
    (h : Agrees relation program program') (hstart : relation start start') :
    resultOf program start = resultOf program' start' := by
  have hrun := h start start' hstart
  unfold resultOf
  split at hrun
  · rename_i hfirst hsecond
    rw [hfirst, hsecond]
    exact congrArg some hrun.1
  · rename_i hfirst hsecond
    rw [hfirst, hsecond]
  · exact hrun.elim

/-- A program agrees with itself on one state. -/
theorem Agrees.refl (program : Program State Value) : Agrees Eq program program := by
  rintro start _ rfl
  cases program.run start with
  | ok value final => exact ⟨rfl, rfl⟩
  | error reason final => rfl

end Agrees

end ZeroFido.Foundations
