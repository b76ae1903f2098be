import SchemaGate.Json.Record
import SchemaGate.Schema.Application

/-!
# Schema documents

Each type of the schema with its JSON form: `toJson` writes every field in declaration order, but
leaves out a relation's label and opposite name where there are none, and `ofJson?` reads either
form of a record back.
-/

namespace SchemaGate

open Json (Slot)

namespace Scalar

def toJson (t : Scalar) : Json := .text t.name

def ofJson? (j : Json) : Option Scalar := j.enumName?.bind ofName?

end Scalar

/-- A member that is written only where it has a value. -/
def optionalText (name : String) : Option String → List (String × Json)
  | some s => [(name, .text s)]
  | none => []

namespace Relation

def toJson (r : Relation) : Json :=
  .object ([("name", .text r.name), ("targetModel", .text r.target)] ++
    optionalText "mappingName" r.mapping ++ optionalText "oppositeName" r.opposite)

def ofJson? (j : Json) : Option Relation := do
  let field ← j.fields? ["name", "targetModel", "mappingName", "oppositeName"]
  return { name := ← (field "name").required Json.text?
           target := ← (field "targetModel").required Json.text?
           mapping := ← (field "mappingName").optional Json.text?
           opposite := ← (field "oppositeName").optional Json.text? }

end Relation

namespace PrimaryField

def toJson (f : PrimaryField) : Json :=
  .object [("name", .text f.name), ("description", .text f.description)]

def ofJson? (j : Json) : Option PrimaryField := do
  let field ← j.fields? ["name", "description"]
  return { name := ← (field "name").required Json.text?
           description := ← (field "description").withDefault "" Json.text? }

end PrimaryField

namespace ForeignField

def toJson (f : ForeignField) : Json :=
  .object [("name", .text f.name), ("description", .text f.description),
    ("relation", f.relation.toJson), ("unique", .bool f.unique), ("nullable", .bool f.nullable)]

def ofJson? (j : Json) : Option ForeignField := do
  let field ← j.fields? ["name", "description", "relation", "unique", "nullable"]
  return { name := ← (field "name").required Json.text?
           description := ← (field "description").withDefault "" Json.text?
           relation := ← (field "relation").required Relation.ofJson?
           unique := ← (field "unique").withDefault false Json.bool?
           nullable := ← (field "nullable").withDefault false Json.bool? }

end ForeignField

namespace PlainField

def toJson (f : PlainField) : Json :=
  .object [("name", .text f.name), ("type", f.scalar.toJson), ("description", .text f.description),
    ("nullable", .bool f.nullable)]

def ofJson? (j : Json) : Option PlainField := do
  let field ← j.fields? ["name", "type", "description", "nullable"]
  return { name := ← (field "name").required Json.text?
           scalar := ← (field "type").required Scalar.ofJson?
           description := ← (field "description").withDefault "" Json.text?
           nullable := ← (field "nullable").withDefault false Json.bool? }

end PlainField

/-! ## Indexes -/

def indexToJson (columns : List String) : Json := .object [("fieldNames", .texts columns)]

def indexOfJson? (j : Json) : Option (List String) := do
  let field ← j.fields? ["fieldNames"]
  (field "fieldNames").required (Json.list? Json.text?)

def textIndexToJson (column : String) : Json := .object [("fieldName", .text column)]

def textIndexOfJson? (j : Json) : Option String := do
  let field ← j.fields? ["fieldName"]
  (field "fieldName").required Json.text?

namespace Model

def toJson (m : Model) : Json :=
  .object [("name", .text m.name), ("description", .text m.description),
    ("material", .bool m.material), ("primaryField", m.primary.toJson),
    ("foreignFields", .arr (m.foreign.map (·.toJson))),
    ("plainFields", .arr (m.plain.map (·.toJson))),
    ("uniqueIndexes", .arr (m.uniqueIndexes.map indexToJson)),
    ("plainIndexes", .arr (m.plainIndexes.map indexToJson)),
    ("ginIndexes", .arr (m.textIndexes.map textIndexToJson))]

def ofJson? (j : Json) : Option Model := do
  let field ← j.fields? ["name", "description", "material", "primaryField", "foreignFields",
    "plainFields", "uniqueIndexes", "plainIndexes", "ginIndexes"]
  return { name := ← (field "name").required Json.text?
           description := ← (field "description").withDefault "" Json.text?
           material := ← (field "material").withDefault false Json.bool?
           primary := ← (field "primaryField").required PrimaryField.ofJson?
           foreign := ← (field "foreignFields").withDefault [] (Json.list? ForeignField.ofJson?)
           plain := ← (field "plainFields").withDefault [] (Json.list? PlainField.ofJson?)
           uniqueIndexes := ← (field "uniqueIndexes").withDefault [] (Json.list? indexOfJson?)
           plainIndexes := ← (field "plainIndexes").withDefault [] (Json.list? indexOfJson?)
           textIndexes := ← (field "ginIndexes").withDefault [] (Json.list? textIndexOfJson?) }

end Model

/-! ## Files, applications and components -/

namespace SchemaFile

def toJson (f : SchemaFile) : Json :=
  .object [("filename", .text f.filename), ("namespace", .text f.domain),
    ("models", .arr (f.models.map (·.toJson)))]

def ofJson? (j : Json) : Option SchemaFile := do
  let field ← j.fields? ["filename", "namespace", "models"]
  return { filename := ← (field "filename").required Json.text?
           domain := ← (field "namespace").required Json.text?
           models := ← (field "models").withDefault [] (Json.list? Model.ofJson?) }

end SchemaFile

namespace Application

def toJson (app : Application) : Json := .object [("files", .arr (app.files.map (·.toJson)))]

def ofJson? (j : Json) : Option Application := do
  let field ← j.fields? ["files"]
  return { files := ← (field "files").required (Json.list? SchemaFile.ofJson?) }

end Application

namespace Component

def toJson (c : Component) : Json :=
  .object [("filename", .text c.filename), ("namespace", .text c.domain),
    ("tables", .texts c.tables)]

def ofJson? (j : Json) : Option Component := do
  let field ← j.fields? ["filename", "namespace", "tables"]
  return { filename := ← (field "filename").required Json.text?
           domain := ← (field "namespace").required Json.text?
           tables := ← (field "tables").required (Json.list? Json.text?) }

def listToJson (components : List Component) : Json := .arr (components.map toJson)

def listOfJson? (j : Json) : Option (List Component) := j.list? ofJson?

end Component

end SchemaGate
