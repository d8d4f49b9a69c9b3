import Mathlib.Algebra.Order.Ring.Rat
import Mathlib.Tactic.Linarith
import Mathlib.Tactic.Positivity

/-! The bounded retry policy. Seconds are rationals; the jitter source is an argument. -/

namespace DayuAgent

/-- The caps of one run, as the validators accept them. -/
structure RetryBudget where
  maxAttempts : Nat
  maxElapsedSeconds : ℚ
  baseDelay : ℚ
  maxDelay : ℚ
  jitter : Bool
  attempts : 1 ≤ maxAttempts ∧ maxAttempts ≤ 10
  elapsed : 0 < maxElapsedSeconds ∧ maxElapsedSeconds ≤ 600
  base : 0 ≤ baseDelay ∧ baseDelay ≤ 60
  cap : baseDelay ≤ maxDelay ∧ maxDelay ≤ 120

namespace RetryBudget

/-- The budget of a supervisor that is given none. -/
def standard : RetryBudget where
  maxAttempts := 3
  maxElapsedSeconds := 15
  baseDelay := 1 / 4
  maxDelay := 2
  jitter := true
  attempts := by decide
  elapsed := by norm_num
  base := by norm_num
  cap := by norm_num

/-- Capped exponential backoff with multiplicative jitter. -/
def delayAfter (budget : RetryBudget) (failedAttempt : Nat) (randomValue : ℚ) : ℚ :=
  let delay := min budget.maxDelay (budget.baseDelay * 2 ^ (failedAttempt - 1))
  let jittered := if budget.jitter ∧ delay ≠ 0 then delay * (1 / 2 + randomValue) else delay
  min jittered budget.maxDelay

/-- Both the attempts and the wall clock must have something left. -/
def permitsRetry (budget : RetryBudget) (failedAttempt : Nat) (elapsed delay : ℚ) : Bool :=
  failedAttempt < budget.maxAttempts ∧ elapsed + delay < budget.maxElapsedSeconds

theorem delayAfter_le (budget : RetryBudget) (failedAttempt : Nat) (randomValue : ℚ) :
    budget.delayAfter failedAttempt randomValue ≤ budget.maxDelay := min_le_right _ _

theorem delayAfter_nonneg (budget : RetryBudget) (failedAttempt : Nat)
    (sampled : 0 ≤ randomValue) : 0 ≤ budget.delayAfter failedAttempt randomValue := by
  have cap : 0 ≤ budget.maxDelay := budget.base.1.trans budget.cap.1
  have growth : 0 ≤ budget.baseDelay * 2 ^ (failedAttempt - 1) :=
    mul_nonneg budget.base.1 (by positivity)
  have delay := le_min cap growth
  unfold delayAfter
  refine le_min ?_ cap
  split
  · exact mul_nonneg delay (by positivity)
  · exact delay

end RetryBudget

end DayuAgent
