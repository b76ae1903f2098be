import SchemaGate.Json.Limits
import SchemaGate.Json.Reader
import SchemaGate.Schema.Codec

/-!
# Candidates

A candidate is the list of models that a producer proposes for one component. Its text is a JSON
document in one of two forms: a record whose one field is `models`, or the bare list.
-/

namespace SchemaGate.Candidate

open Json (Slot)

def toJson (models : List Model) : Json := .object [("models", .arr (models.map (·.toJson)))]

def ofRecord? (j : Json) : Option (List Model) := do
  let field ← j.fields? ["models"]
  (field "models").required (Json.list? Model.ofJson?)

def ofList? (j : Json) : Option (List Model) := j.list? Model.ofJson?

/-- Reads either form, the record first. -/
def ofJson? (j : Json) : Option (List Model) := ofRecord? j <|> ofList? j

/-- Reads a text. The form is told by the whole tree, so a document that no tree can hold is no
candidate. -/
def parse? (s : String) : Option (List Model) := do
  let j ← Json.parse? s
  if j.fits then ofJson? j else none

end SchemaGate.Candidate
