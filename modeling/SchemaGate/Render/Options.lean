import SchemaGate.Json.Record

/-!
# Rendering options

The database provider that a schema is rendered for, and whether documentation comments are kept.
-/

namespace SchemaGate

open Json (Slot)

inductive Provider where
  /-- With native column types and trigram indexes. -/
  | postgresql
  /-- With neither. -/
  | sqlite
  deriving DecidableEq, Repr, Inhabited

namespace Provider

def name : Provider → String
  | postgresql => "postgresql"
  | sqlite => "sqlite"

def ofWireName? : String → Option Provider
  | "postgresql" => some postgresql
  | "sqlite" => some sqlite
  | _ => none

/-- The provider of a name given by a person, who may also write `postgres`. -/
def ofName? (s : String) : Option Provider :=
  if s = "postgres" then some postgresql else ofWireName? s

/-- What is said of a name that is no provider's. -/
def unknownMessage (s : String) : String :=
  s!"unknown provider '{s}', expected 'postgresql' or 'sqlite'"

def hasNativeTypes (p : Provider) : Bool := p == postgresql

def hasTrigramIndexes (p : Provider) : Bool := p == postgresql

def toJson (p : Provider) : Json := .text p.name

def ofJson? (j : Json) : Option Provider := j.enumName?.bind ofWireName?

end Provider

structure RenderOptions where
  provider : Provider := .postgresql
  /-- Documentation comments are kept. -/
  comments : Bool := true
  deriving DecidableEq, Repr, Inhabited

namespace RenderOptions

def toJson (o : RenderOptions) : Json :=
  .object [("provider", o.provider.toJson), ("comments", .bool o.comments)]

/-- Reads rendering options; all of them may be left out. -/
def ofJson? (j : Json) : Option RenderOptions := do
  let field ← j.fields? ["provider", "comments"]
  return { provider := ← (field "provider").withDefault .postgresql Provider.ofJson?
           comments := ← (field "comments").withDefault true Json.bool? }

end RenderOptions

end SchemaGate
