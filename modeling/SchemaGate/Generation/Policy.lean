/-!
# Retry policies

How often and how long a producer is asked for one component. A policy only exists within its
bounds; the errors say which bound a setting breaks.
-/

namespace SchemaGate

/-- A bound that a policy setting breaks. -/
inductive PolicyError where
  | maxAttemptsOutOfRange (actual : Nat)
  | zeroTimeout
  deriving DecidableEq, Repr, Inhabited

/-- The most attempts that a policy may allow. -/
def maxAttemptsLimit : Nat := 32

def PolicyError.message : PolicyError → String
  | maxAttemptsOutOfRange actual =>
    s!"max_attempts must be between 1 and {maxAttemptsLimit}, got {actual}"
  | zeroTimeout => "timeout must be greater than zero"

/-- Bounds on the calls to a producer for one component. Times are in milliseconds. -/
structure RetryPolicy where
  maxAttempts : Nat := 3
  /-- How long one call may take. -/
  timeoutMs : Nat := 120000
  /-- The pause before every attempt after the first. -/
  retryDelayMs : Nat := 0
  one_le_maxAttempts : 1 ≤ maxAttempts := by decide
  maxAttempts_le_limit : maxAttempts ≤ maxAttemptsLimit := by decide
  timeoutMs_pos : 0 < timeoutMs := by decide
  deriving DecidableEq, Repr

namespace RetryPolicy

instance : Inhabited RetryPolicy := ⟨{}⟩

/-- The policy with these settings, or the first bound they break. -/
def make (maxAttempts timeoutMs retryDelayMs : Nat) : Except PolicyError RetryPolicy :=
  if ha : 1 ≤ maxAttempts ∧ maxAttempts ≤ maxAttemptsLimit then
    if ht : 0 < timeoutMs then
      .ok { maxAttempts, timeoutMs, retryDelayMs, one_le_maxAttempts := ha.1,
            maxAttempts_le_limit := ha.2, timeoutMs_pos := ht }
    else .error .zeroTimeout
  else .error (.maxAttemptsOutOfRange maxAttempts)

end RetryPolicy

end SchemaGate
