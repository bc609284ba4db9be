import ZeroFido.Ctap.Continuation

/-!
# The window of getNextAssertion

The deadline of the queue is kept modulo `2^32` and compared as a signed difference, and no timer
clears the queue. `checkPassed_iff` says for every elapsed time what the comparison finds: the
window is open for its 30 seconds, and again in the second half of each wrap after them.

`next_assertion_in_window` is the result for the runs in which no check meets a second half.
-/

set_option autoImplicit false
set_option relaxedAutoImplicit false

namespace ZeroFido.Ctap

open Foundations Storage Store

section Comparison

/-- The time at which the check was made, since its window was opened. -/
def elapsed (check : ℕ × ℕ) : ℕ := check.2 - check.1

/-- The check is made inside the window, or where the signed difference is not negative. -/
def Decided (check : ℕ × ℕ) : Prop :=
  elapsed check < assertionQueueTimeoutMs ∨
    (elapsed check - assertionQueueTimeoutMs) % 2 ^ 32 < 2 ^ 31

instance (check : ℕ × ℕ) : Decidable (Decided check) := by
  unfold Decided
  infer_instance

/-- What the comparison finds after every elapsed time. -/
theorem checkPassed_iff {check : ℕ × ℕ} (hlater : check.1 ≤ check.2) :
    CheckPassed check ↔ elapsed check < assertionQueueTimeoutMs ∨
      2 ^ 31 ≤ (elapsed check - assertionQueueTimeoutMs) % 2 ^ 32 := by
  obtain ⟨openedAt, now⟩ := check
  unfold CheckPassed isExpired elapsed assertionQueueTimeoutMs
  rw [decide_eq_false_iff_not, not_lt]
  dsimp only at hlater ⊢
  omega

/-- A decided check that was passed was made inside the window. -/
theorem CheckPassed.inWindow {check : ℕ × ℕ} (hpassed : CheckPassed check)
    (hdecided : Decided check) : elapsed check < assertionQueueTimeoutMs := by
  rcases hdecided with hwindow | hnonnegative
  · exact hwindow
  · by_cases hlater : check.1 ≤ check.2
    · rcases (checkPassed_iff hlater).mp hpassed with hwindow | hnegative
      · exact hwindow
      · exact absurd hnonnegative (not_lt.mpr hnegative)
    · have hnone : elapsed check = 0 := Nat.sub_eq_zero_of_le (Nat.le_of_lt (not_le.mp hlater))
      rw [hnone]
      exact Nat.zero_lt_of_lt (show 0 < assertionQueueTimeoutMs by decide)

end Comparison

section Runs

variable {crypto : Crypto}

/-- In every run in which each expiry check for the queue's session is a decided one: every
getNextAssertion that returned success is a continuation that the observer saw, each continuation
followed a check, and that check was made less than 30 seconds after the later of the seeding and
the answer before it. -/
theorem next_assertion_in_window {system : System} (hfresh : system.Fresh)
    (events : List SystemEvent)
    (hdecided : ∀ check ∈ (run (systemStep crypto) system events).app.expiry.checks,
      Decided check) :
    (run (systemStep crypto) system events).answers <+:
        continuations (run (systemStep crypto) system events).app.record ∧
      (run (systemStep crypto) system events).app.expiry.answered.length =
        (continuations (run (systemStep crypto) system events).app.record).length ∧
      ∀ check ∈ (run (systemStep crypto) system events).app.expiry.answered,
        elapsed check < assertionQueueTimeoutMs := by
  have hsafe : (run (systemStep crypto) system events).Safe crypto :=
    run_invariant_always (fun system event h ↦ h.step event) events hfresh.safe
  obtain ⟨-, hanswers, hanswered, hcounted⟩ := hsafe.observed
  refine ⟨hanswers, hcounted, fun check hmem ↦ ?_⟩
  obtain ⟨hchecked, hpassed⟩ := hanswered check hmem
  exact hpassed.inWindow (hdecided check hchecked)

/-- The queued match is answered 29 seconds after the seeding. -/
def answeredInWindow : List SystemEvent :=
  completes 0 (.getAssertion (.ok silentRequest)) ++ [.ui (.timePasses 29000)] ++
    completes 0 (.getNextAssertion 0)

theorem twoCredentials_fresh : twoCredentials.Fresh :=
  ⟨rfl, rfl, rfl, rfl, rfl, fun hui ↦ absurd rfl hui⟩

theorem next_assertion_in_window_answered :
    (run (systemStep Crypto.standIn) twoCredentials answeredInWindow).answers.length = 1 ∧
      (run (systemStep Crypto.standIn) twoCredentials answeredInWindow).app.expiry.answered.length =
        (continuations
          (run (systemStep Crypto.standIn) twoCredentials answeredInWindow).app.record).length ∧
      ∀ check ∈
        (run (systemStep Crypto.standIn) twoCredentials answeredInWindow).app.expiry.answered,
        elapsed check < assertionQueueTimeoutMs := by
  have hdecided : ∀ check ∈
      (run (systemStep Crypto.standIn) twoCredentials answeredInWindow).app.expiry.checks,
      Decided check := by decide +kernel
  refine ⟨by decide +kernel, ?_⟩
  exact (next_assertion_in_window twoCredentials_fresh answeredInWindow hdecided).2

/-- The same call, half a wrap and 30 seconds after the seeding. -/
def answeredAfterHalfWrap : List SystemEvent :=
  completes 0 (.getAssertion (.ok silentRequest)) ++ [.ui (.timePasses (2 ^ 31 + 30000))] ++
    completes 0 (.getNextAssertion 0)

/-- It succeeds. -/
theorem next_assertion_after_half_wrap :
    (run (systemStep Crypto.standIn) twoCredentials answeredAfterHalfWrap).answers.length = 1 ∧
      ((run (systemStep Crypto.standIn) twoCredentials answeredAfterHalfWrap).app.expiry.answered.any
        fun check ↦ decide (assertionQueueTimeoutMs ≤ elapsed check)) = true := by
  decide +kernel

end Runs

end ZeroFido.Ctap
