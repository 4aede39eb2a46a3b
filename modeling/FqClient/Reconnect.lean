import FqClient.Errors
import Mathlib.Algebra.Order.Field.Rat
import Mathlib.Algebra.Order.Group.Abs

namespace FqClient

/-- A timeout argument; `default` is taken from the client settings. -/
inductive Timeout
  | default
  | unlimited
  | seconds (value : ℚ)
  deriving DecidableEq

/-- `float ** int`, which raises when the power is `2 ^ 1024` or more. -/
def floatPow (base : ℚ) (exponent : ℕ) : Except Exc ℚ :=
  if 2 ^ 1024 ≤ |base ^ exponent| then .error (.overflowError .delay) else .ok (base ^ exponent)

/-- Exponential backoff with full jitter. -/
structure ReconnectPolicy where
  initial : ℚ := 5 / 100
  maxDelay : ℚ := 2
  multiplier : ℚ := 2
  maxAttempts : Option ℕ := none
  deriving DecidableEq

namespace ReconnectPolicy

/-- The bound of the delay before attempt number `attempt`, counting from one. -/
def ceiling (policy : ReconnectPolicy) (attempt : ℕ) : Except Exc ℚ := do
  return min policy.maxDelay (policy.initial * (← floatPow policy.multiplier (attempt - 1)))

def exhausted (policy : ReconnectPolicy) (attempt : ℕ) : Bool :=
  match policy.maxAttempts with
  | some maxAttempts => maxAttempts < attempt
  | none => false

end ReconnectPolicy

/-- The point in time after which a call is overdue. -/
structure Deadline where
  deadline : Option ℚ
  deriving DecidableEq

theorem ReconnectPolicy.exhausted_none {policy : ReconnectPolicy} (h : policy.maxAttempts = none)
    (attempt : ℕ) : policy.exhausted attempt = false := by
  unfold exhausted
  rw [h]

end FqClient
