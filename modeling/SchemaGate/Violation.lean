import SchemaGate.Schema.Codec

/-!
# Violations

A violation is one broken rule of an application: its kind, where it stands, and an explanation. It
is data that goes back to whoever delivered the application.

* `Violation.Kind`, with the names in documents
* `Violation.Path`, from component down to column or index
* `Violation` and lists of them, with their text and their documents
-/

namespace SchemaGate

open Json (Slot)

namespace Violation

/-- The rule that is broken. -/
inductive Kind where
  /-- A model name is used twice in the application. -/
  | duplicateModel
  /-- A component has no file. -/
  | missingFile
  /-- A file belongs to no component. -/
  | unexpectedFile
  /-- Two files share a filename. -/
  | duplicateFile
  /-- A file's domain label is not its component's. -/
  | namespaceMismatch
  /-- A file holds no models. -/
  | emptyFile
  /-- A component's table is absent from its file. -/
  | missingModel
  /-- A file holds a model that its component does not own. -/
  | unexpectedModel
  /-- A model or column name is ill-formed. -/
  | invalidIdentifier
  /-- A relation's name or label is ill-formed. -/
  | invalidRelationName
  /-- A relation points at a model that does not exist. -/
  | danglingRelation
  /-- Relations of the same two models cannot be told apart. -/
  | ambiguousRelation
  /-- A property is used twice on one model. -/
  | duplicateField
  /-- An index names a column that does not exist. -/
  | unknownIndexField
  /-- An index names no columns. -/
  | emptyIndex
  /-- An index names a column twice. -/
  | duplicateIndexField
  /-- Two indexes cover the same columns. -/
  | duplicateIndex
  /-- A full-text index covers a column that is not text. -/
  | invalidTextIndex
  deriving DecidableEq, Repr, Inhabited

namespace Kind

def all : List Kind :=
  [duplicateModel, missingFile, unexpectedFile, duplicateFile, namespaceMismatch, emptyFile,
    missingModel, unexpectedModel, invalidIdentifier, invalidRelationName, danglingRelation,
    ambiguousRelation, duplicateField, unknownIndexField, emptyIndex, duplicateIndexField,
    duplicateIndex, invalidTextIndex]

def name : Kind → String
  | duplicateModel => "duplicate_model"
  | missingFile => "missing_file"
  | unexpectedFile => "unexpected_file"
  | duplicateFile => "duplicate_file"
  | namespaceMismatch => "namespace_mismatch"
  | emptyFile => "empty_file"
  | missingModel => "missing_model"
  | unexpectedModel => "unexpected_model"
  | invalidIdentifier => "invalid_identifier"
  | invalidRelationName => "invalid_relation_name"
  | danglingRelation => "dangling_relation"
  | ambiguousRelation => "ambiguous_relation"
  | duplicateField => "duplicate_field"
  | unknownIndexField => "unknown_index_field"
  | emptyIndex => "empty_index"
  | duplicateIndexField => "duplicate_index_field"
  | duplicateIndex => "duplicate_index"
  | invalidTextIndex => "invalid_gin_index"

def ofName? (s : String) : Option Kind :=
  all.find? (·.name = s)

@[simp] theorem ofName?_name (k : Kind) : ofName? k.name = some k := by
  cases k <;> decide

def toJson (k : Kind) : Json := .text k.name

def ofJson? (j : Json) : Option Kind := j.enumName?.bind ofName?

end Kind

/-- Where a violation stands: component, file, model, and the column or index of the model. -/
structure Path where
  /-- The label of the component's domain. -/
  component : Option String := none
  file : Option String := none
  model : Option String := none
  /-- The column or relation property. -/
  field : Option String := none
  /-- The label of the index. -/
  index : Option String := none
  deriving DecidableEq, Repr, Inhabited

namespace Path

def ofFile (f : SchemaFile) : Path := { component := f.domain, file := f.filename }

def ofComponent (c : Component) : Path := { component := c.domain, file := c.filename }

def ofForeign (f : Foreign) : Path :=
  { ofFile f.file with model := f.model.name, field := f.field.name }

/-- The parts that are given, from the outside in. -/
def parts (p : Path) : List String :=
  [p.component, p.file, p.model, p.index, p.field].filterMap id

def text (p : Path) : String :=
  match p.parts with
  | [] => "<application>"
  | parts => " > ".intercalate parts

/-- The document of a place, with the parts that are given. -/
def toJson (p : Path) : Json :=
  .object (optionalText "component" p.component ++ optionalText "file" p.file ++
    optionalText "model" p.model ++ optionalText "field" p.field ++ optionalText "index" p.index)

def ofJson? (j : Json) : Option Path := do
  let field ← j.fields? ["component", "file", "model", "field", "index"]
  return { component := ← (field "component").optionalMember Json.text?
           file := ← (field "file").optionalMember Json.text?
           model := ← (field "model").optionalMember Json.text?
           field := ← (field "field").optionalMember Json.text?
           index := ← (field "index").optionalMember Json.text? }

end Path

end Violation

/-- One broken rule. -/
structure Violation where
  kind : Violation.Kind
  path : Violation.Path
  message : String
  deriving DecidableEq, Repr, Inhabited

/-- Numbers the items from one on and puts each on an indented line. -/
def numberedLines (items : List String) : String :=
  "\n".intercalate (items.zipIdx.map fun (item, i) => s!"  {i + 1}. {item}")

namespace Violation

def text (v : Violation) : String := s!"[{v.kind.name}] {v.path.text}: {v.message}"

def toJson (v : Violation) : Json :=
  .object [("kind", v.kind.toJson), ("path", v.path.toJson), ("message", .text v.message)]

def ofJson? (j : Json) : Option Violation := do
  let field ← j.fields? ["kind", "path", "message"]
  return { kind := ← (field "kind").required Kind.ofJson?
           path := ← (field "path").required Path.ofJson?
           message := ← (field "message").required Json.text? }

def listText (vs : List Violation) : String :=
  s!"Validation failed with {vs.length} violation(s):\n" ++ numberedLines (vs.map (·.text))

def listToJson (vs : List Violation) : Json := .arr (vs.map (·.toJson))

def listOfJson? (j : Json) : Option (List Violation) := j.list? ofJson?

end Violation

end SchemaGate
