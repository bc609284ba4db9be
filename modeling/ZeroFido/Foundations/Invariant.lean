import ZeroFido.Foundations.CrashProgram

/-!
# Invariants of programs

An invariant of the state that a program keeps wherever it stops, with a condition on what it
returns. A caller proves it from the same judgment about what it calls: there is one rule for each
construct of a `do` block.
-/

set_option autoImplicit false
set_option relaxedAutoImplicit false

namespace ZeroFido.Foundations

variable {State Value Next : Type} {invariant : State → Prop}

/-- Started in a state with the invariant, the program leaves it in place when it returns and when
it is interrupted, and what it returns satisfies `post`. -/
def Sustains (invariant : State → Prop) (post : Value → Prop) (program : Program State Value) :
    Prop :=
  ∀ start, invariant start →
    Ensures program (fun value final ↦ post value ∧ invariant final) invariant start

namespace Sustains

variable {post : Value → Prop} {program : Program State Value}

theorem pure {value : Value} (h : post value) :
    Sustains invariant post (Pure.pure value : Program State Value) :=
  fun _ hstart ↦ ⟨h, hstart⟩

theorem bind {rest : Value → Program State Next} {post' : Next → Prop}
    (h : Sustains invariant post program)
    (hrest : ∀ value, post value → Sustains invariant post' (rest value)) :
    Sustains invariant post' (program >>= rest) := by
  intro start hstart
  rw [ensures_bind]
  exact (h start hstart).mono (fun value middle hmiddle ↦ hrest value hmiddle.1 middle hmiddle.2)
    fun _ hcrash ↦ hcrash

theorem ite {condition : Prop} [Decidable condition] {yes no : Program State Value}
    (hyes : condition → Sustains invariant post yes)
    (hno : ¬condition → Sustains invariant post no) :
    Sustains invariant post (if condition then yes else no) := by
  by_cases hcondition : condition
  · rw [if_pos hcondition]
    exact hyes hcondition
  · rw [if_neg hcondition]
    exact hno hcondition

/-- What a program returns may be described less exactly. -/
theorem mono {post' : Value → Prop} (h : Sustains invariant post program)
    (hpost : ∀ value, post value → post' value) : Sustains invariant post' program := by
  intro start hstart
  exact (h start hstart).mono (fun value final hfinal ↦ ⟨hpost value hfinal.1, hfinal.2⟩)
    fun _ hcrash ↦ hcrash

/-- Reading the state gives one with the invariant. -/
theorem get : Sustains invariant invariant (MonadState.get : Program State State) :=
  fun _ hstart ↦ ⟨hstart, hstart⟩

theorem modifying {update : State → State}
    (h : ∀ state, invariant state → invariant (update state)) :
    Sustains invariant (fun _ ↦ True) (modify update : Program State PUnit) :=
  fun start hstart ↦ ⟨trivial, h start hstart⟩

/-- The second call of C's `&&` needs the invariant only. -/
theorem andM {first second : Program State Bool} (hfirst : Sustains invariant (fun _ ↦ True) first)
    (hsecond : Sustains invariant (fun _ ↦ True) second) :
    Sustains invariant (fun _ ↦ True) (first <&&> second) := by
  intro start hstart
  rw [ensures_andM]
  refine (hfirst start hstart).mono (fun ok middle hmiddle ↦ ?_) fun _ hcrash ↦ hcrash
  exact ⟨fun _ ↦ hsecond middle hmiddle.2, fun _ ↦ hmiddle⟩

end Sustains

end ZeroFido.Foundations
