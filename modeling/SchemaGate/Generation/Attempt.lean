import SchemaGate.Generation.Policy
import SchemaGate.Generation.Producer
import SchemaGate.Validation

/-!
# Attempts

One attempt at a component: what its reply means for the component's task. The candidate is judged
by itself, against the component alone, with the other components known by their plan.

* `GenerationError`, why a component has no file
* `settle`, a response within the time allowed
* `judge`, the step from a reply to the next attempt or to the end
-/

namespace SchemaGate

/-- Why a component has no file. -/
inductive GenerationError where
  /-- The candidate of the last attempt allowed is invalid. -/
  | exhausted (component : String) (attempts : Nat) (violations : List Violation)
  /-- The producer failed for good, or on the last attempt allowed. -/
  | producer (component : String) (attempts : Nat) (source : ProducerError)
  /-- The component's task ended with the producer. -/
  | cancelled (component : String)
  deriving DecidableEq, Repr, Inhabited

namespace GenerationError

def component : GenerationError → String
  | exhausted component .. => component
  | producer component .. => component
  | cancelled component => component

def message : GenerationError → String
  | exhausted component attempts violations =>
    s!"Component '{component}' is still invalid after {attempts} attempt(s). " ++
      Violation.listText violations
  | producer component attempts source =>
    s!"Component '{component}' failed after {attempts} attempt(s): {source.message}"
  | cancelled component => s!"Generation of component '{component}' was cancelled"

end GenerationError

/-- A file that was accepted by itself, and the attempts it took. -/
structure Delivery where
  file : SchemaFile
  attempts : Nat
  deriving DecidableEq, Repr, Inhabited

/-- What came of a component. -/
abbrev Outcome := Except GenerationError Delivery

/-- How long a call takes and how it ends, where it may take this long. -/
def settle (timeoutMs : Nat) : Response → Nat × Reply
  | .after delayMs reply =>
    if delayMs ≤ timeoutMs then (delayMs, reply) else (timeoutMs, .error (.timeout timeoutMs))
  | .never => (timeoutMs, .error (.timeout timeoutMs))

/-- What follows an attempt. -/
inductive Verdict where
  /-- Another attempt, with this feedback. -/
  | again (feedback : List Violation)
  | done (outcome : Outcome)
  deriving Inhabited

/-- The violations of a candidate judged by itself. -/
def isolatedViolations (target : Component) (others : List Component) (models : List Model) :
    List Violation :=
  Scope.violations ⟨[target], others⟩ ⟨[.ofComponent target models]⟩

/-- What a reply to an attempt means. Feedback stays as it was unless a candidate came. -/
def judge (maxAttempts : Nat) (target : Component) (others : List Component) (attempt : Nat)
    (feedback : List Violation) : Reply → Verdict
  | .panic => .done (.error (.cancelled target.filename))
  | .error e =>
    if e.isRetryable && attempt < maxAttempts then .again feedback
    else .done (.error (.producer target.filename attempt e))
  | .candidate models =>
    match isolatedViolations target others models with
    | [] => .done (.ok ⟨.ofComponent target models, attempt⟩)
    | violations =>
      if attempt < maxAttempts then .again violations
      else .done (.error (.exhausted target.filename maxAttempts violations))

end SchemaGate
