/-!
# Transcripts

What a command says, piece by piece and each to one of the two streams of a process.
-/

namespace SchemaGate

/-- A stream that a process writes to. -/
inductive Stream where
  | output
  | error
  deriving DecidableEq, Repr, Inhabited

/-- What has been said so far. -/
abbrev Transcript := List (Stream × String)

/-- All that was said to a stream. -/
def Transcript.on (stream : Stream) (t : Transcript) : String :=
  String.join ((t.filter (·.1 == stream)).map (·.2))

end SchemaGate
