import Mathlib.Data.List.Basic

/-!
# Runs

A deterministic system is a step function from a state and an event to a state, and a run is a list
of events. `EveryStep` says that each event of a run meets a condition in the state it is taken in,
and `run_invariant` is the rule for what holds after such a run: it holds at the start, and every
step that meets the condition keeps it.
-/

set_option autoImplicit false
set_option relaxedAutoImplicit false

namespace ZeroFido.Foundations

variable {State Event : Type} (step : State → Event → State)

/-- The state after a list of events. -/
def run (start : State) (events : List Event) : State := events.foldl step start

/-- Every event of the run meets the condition in the state in which it happens. -/
def EveryStep (condition : State → Event → Prop) : State → List Event → Prop
  | _, [] => True
  | start, event :: events =>
    condition start event ∧ EveryStep condition (step start event) events

/-- A condition that can be decided at every step can be decided for a run. -/
instance decidableEveryStep (condition : State → Event → Prop)
    [∀ state event, Decidable (condition state event)] :
    ∀ (start : State) (events : List Event), Decidable (EveryStep step condition start events)
  | _, [] => isTrue trivial
  | start, event :: events =>
    haveI := decidableEveryStep condition (step start event) events
    inferInstanceAs (Decidable (condition start event ∧
      EveryStep step condition (step start event) events))

variable {step} {condition : State → Event → Prop} {start : State}

@[simp]
theorem run_nil : run step start [] = start := rfl

@[simp]
theorem run_cons (event : Event) (events : List Event) :
    run step start (event :: events) = run step (step start event) events := rfl

theorem run_append (events later : List Event) :
    run step start (events ++ later) = run step (run step start events) later :=
  List.foldl_append

theorem everyStep_append (events later : List Event) :
    EveryStep step condition start (events ++ later) ↔
      EveryStep step condition start events ∧
        EveryStep step condition (run step start events) later := by
  induction events generalizing start with
  | nil => simp only [List.nil_append, EveryStep, run_nil, true_and]
  | cons event events ih => simp only [List.cons_append, EveryStep, ih, run_cons, and_assoc]

/-- A condition that always holds is met by every run. -/
theorem everyStep_of_forall (h : ∀ state event, condition state event) (events : List Event) :
    EveryStep step condition start events := by
  induction events generalizing start with
  | nil => trivial
  | cons event events ih => exact ⟨h start event, ih⟩

/-- What holds at the start and is kept by every step that meets the condition holds after the
run. -/
theorem run_invariant {invariant : State → Prop}
    (hstep : ∀ state event, condition state event → invariant state →
      invariant (step state event))
    {events : List Event} (hevents : EveryStep step condition start events)
    (hstart : invariant start) : invariant (run step start events) := by
  induction events generalizing start with
  | nil => exact hstart
  | cons event events ih =>
    exact ih hevents.2 (hstep start event hevents.1 hstart)

/-- What the invariant says of each step holds of every step of the run. -/
theorem everyStep_of_invariant {invariant : State → Prop} {property : State → Event → Prop}
    (hstep : ∀ state event, condition state event → invariant state →
      invariant (step state event))
    (hproperty : ∀ state event, condition state event → invariant state → property state event)
    {events : List Event} (hevents : EveryStep step condition start events)
    (hstart : invariant start) : EveryStep step property start events := by
  induction events generalizing start with
  | nil => trivial
  | cons event events ih =>
    exact ⟨hproperty start event hevents.1 hstart,
      ih hevents.2 (hstep start event hevents.1 hstart)⟩

/-- The rule for an invariant that every step keeps. -/
theorem run_invariant_always {invariant : State → Prop}
    (hstep : ∀ state event, invariant state → invariant (step state event))
    (events : List Event) (hstart : invariant start) : invariant (run step start events) :=
  run_invariant (fun state event (_ : True) ↦ hstep state event)
    (everyStep_of_forall (fun _ _ ↦ trivial) events) hstart

end ZeroFido.Foundations
