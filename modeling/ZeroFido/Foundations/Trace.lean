import Mathlib.Data.List.Basic
import Mathlib.Data.List.Induction

/-!
# Records of a run

A run appends events to a record. `EveryEvent` says that each recorded event stands in a given
relation to the events recorded before it, the form in which a safety property of a run is a
property of its record. It is checked one event at a time (`everyEvent_concat`, and
`EveryEvent.append` for several) and restricts to every earlier record (`EveryEvent.of_append`).
-/

set_option autoImplicit false
set_option relaxedAutoImplicit false

namespace ZeroFido.Foundations

variable {Event : Type} {allowed : List Event → Event → Prop} {trace : List Event}

/-- Every event of the record is allowed after the events before it. -/
def EveryEvent (allowed : List Event → Event → Prop) (trace : List Event) : Prop :=
  ∀ before event after, trace = before ++ event :: after → allowed before event

theorem everyEvent_nil : EveryEvent allowed [] := by
  intro before event after h
  exact absurd h (by simp)

theorem EveryEvent.of_append {more : List Event} (h : EveryEvent allowed (trace ++ more)) :
    EveryEvent allowed trace := by
  intro before event after htrace
  exact h before event (after ++ more) (by simp [htrace])

/-- Recording one more event. -/
theorem everyEvent_concat {event : Event} :
    EveryEvent allowed (trace ++ [event]) ↔ EveryEvent allowed trace ∧ allowed trace event := by
  constructor
  · intro h
    exact ⟨h.of_append, h trace event [] (by simp)⟩
  · rintro ⟨htrace, hevent⟩ before found after h
    obtain rfl | ⟨rest, last, rfl⟩ := List.eq_nil_or_concat after
    · obtain ⟨rfl, rfl⟩ := List.append_singleton_inj.mp h
      exact hevent
    · have hsplit : trace ++ [event] = (before ++ found :: rest) ++ [last] := by simpa using h
      obtain ⟨hbefore, -⟩ := List.append_singleton_inj.mp hsplit
      exact htrace before found rest hbefore

/-- Recording several events, each allowed after the ones before it. -/
theorem EveryEvent.append {more : List Event} (h : EveryEvent allowed trace)
    (hmore : ∀ before event after, more = before ++ event :: after →
      allowed (trace ++ before) event) : EveryEvent allowed (trace ++ more) := by
  induction more using List.reverseRecOn with
  | nil => rwa [List.append_nil]
  | append_singleton more event ih =>
    rw [← List.append_assoc, everyEvent_concat]
    refine ⟨ih fun before found after hsplit ↦ ?_, hmore more event [] rfl⟩
    exact hmore before found (after ++ [event]) (by simp [hsplit])

end ZeroFido.Foundations
