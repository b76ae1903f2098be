import SchemaGate.Generation.Candidate
import SchemaGate.Violation

/-!
# Producers

A producer proposes the models of a component. It is not trusted: it may fail, answer late or never,
or give up altogether, and it may keep a state of its own from one call to the next.

* `Request`, all that a producer is told about one attempt
* `ProducerError`, the failures it may report
* `Response`, what it does with a request, and `Producer` itself
* `Producer.replay`, which gives recorded candidates
-/

namespace SchemaGate

/-- What a producer is told about one attempt. -/
structure Request where
  /-- The component to write models for. -/
  target : Component
  /-- The other components: their tables may be referred to, not defined. -/
  others : List Component
  /-- The requirements, as they were given. -/
  context : String
  /-- The number of the attempt, from one on. -/
  attempt : Nat
  /-- The violations of the last candidate for the component. -/
  feedback : List Violation
  deriving DecidableEq, Repr, Inhabited

/-- Whether a request is not the first for its component. -/
def Request.isRetry (r : Request) : Bool := 1 < r.attempt

inductive ProducerError where
  /-- There was no answer in time. -/
  | timeout (ms : Nat)
  /-- The answer is no candidate. -/
  | malformed (detail : String)
  /-- The producer could not be reached. -/
  | unavailable (reason : String)
  /-- The producer refuses. -/
  | rejected (reason : String)
  deriving DecidableEq, Repr, Inhabited

namespace ProducerError

def message : ProducerError → String
  | timeout ms => s!"Producer timed out after {ms}ms"
  | malformed detail => s!"Malformed candidate: {detail}"
  | unavailable reason => s!"Producer unavailable: {reason}"
  | rejected reason => s!"Producer rejected the request: {reason}"

/-- Whether another attempt may do better; a refusal is final. -/
def isRetryable : ProducerError → Bool
  | rejected _ => false
  | _ => true

end ProducerError

/-- How a call to a producer ends. -/
inductive Reply where
  | candidate (models : List Model)
  | error (e : ProducerError)
  /-- The producer gives up and takes its component's task with it. -/
  | panic
  deriving DecidableEq, Repr, Inhabited

/-- What a producer does with a request. -/
inductive Response where
  /-- It replies after a delay. -/
  | after (delayMs : Nat) (reply : Reply)
  /-- It never replies. -/
  | never
  deriving DecidableEq, Repr, Inhabited

/-- A producer with a state of its own. -/
structure Producer (σ : Type) where
  /-- What it does with a request, and the state it is left in. -/
  answer : σ → Request → Response × σ

/-- What a text is to a producer that reads its candidates. -/
def Reply.ofText (text : String) : Reply :=
  match Candidate.parse? text with
  | some models => .candidate models
  | none => .error (.malformed "not a candidate")

/-! ## Recorded candidates -/

/-- Candidate texts by component filename. -/
abbrev Recordings := List (String × String)

/-- Adds a text under a filename, in place of the one that was there. -/
def Recordings.record (filename text : String) (recordings : Recordings) : Recordings :=
  recordings.filter (·.1 ≠ filename) ++ [(filename, text)]

/-- The producer that answers every request for a component with its recorded candidate. -/
def Producer.replay (recordings : Recordings) : Producer Unit where
  answer _ request :=
    let reply := match recordings.lookup request.target.filename with
      | some text => .ofText text
      | none => .error (.unavailable s!"no candidate recorded for '{request.target.filename}'")
    (.after 0 reply, ())

/-! ## Scripted answers -/

/-- The answers still to come, by component filename. -/
abbrev Script := List (String × List Response)

/-- The producer that answers the requests for a component by a script, in order. Where the script
has run out the producer cannot be reached. -/
def Producer.scripted : Producer Script where
  answer script request :=
    match script.lookup request.target.filename with
    | some (response :: rest) =>
      (response, script.map fun (name, responses) =>
        if name = request.target.filename then (name, rest) else (name, responses))
    | _ => (.after 0 (.error (.unavailable "script exhausted")), script)

end SchemaGate
