import SchemaGate.Text.Name
import SchemaGate.Validation.Earlier
import SchemaGate.Violation

/-!
# Names

Model names are used once in the whole application. On one model the columns, the relations it holds
and the relations that point at it are all properties, and no two properties share a name.

* `modelNameViolations`, over the application
* `identifierViolations` and `columnViolations`, on one model by itself
* `relationViolations`, on the relations it holds
* `backRelationViolations`, on the relations that point at it
-/

namespace SchemaGate.Validation

/-- A model name is used once. -/
def modelNameViolations (app : Application) : List Violation :=
  (withEarlier app.declarations).flatMap fun (earlier, file, model) =>
    match earlier.find? (·.2.name == model.name) with
    | some (first, _) =>
      [{ kind := .duplicateModel, path := { Violation.Path.ofFile file with model := model.name },
         message := s!"model '{model.name}' is already defined in '{first.filename}'" }]
    | none => []

def modelPath (file : SchemaFile) (model : Model) : Violation.Path :=
  { Violation.Path.ofFile file with model := model.name }

/-- The model name is well-formed. -/
def identifierViolations (file : SchemaFile) (model : Model) : List Violation :=
  if Text.isIdentifier model.name then []
  else
    [{ kind := .invalidIdentifier, path := modelPath file model,
       message := s!"model name '{model.name}' must match [a-z][a-z0-9_]*" }]

/-- Column names are well-formed and used once. -/
def columnViolations (file : SchemaFile) (model : Model) : List Violation :=
  (withEarlier model.columnNames).flatMap fun (earlier, name) =>
    let path := { modelPath file model with field := name }
    (if Text.isIdentifier name then []
    else
      [{ kind := .invalidIdentifier, path,
         message := s!"field name '{name}' must match [a-z][a-z0-9_]*" }]) ++
    (if earlier.contains name then
      [{ kind := .duplicateField, path,
         message := s!"duplicate field name '{name}' in model '{model.name}'" }]
    else [])

/-! ## Relations held by a model -/

/-- The names that a relation writes, with what each is called. -/
def relationLabels (r : Relation) : List (String × String) :=
  ("relation name", r.name) :: (r.mapping.toList.map ("mappingName", ·)) ++
    r.opposite.toList.map ("oppositeName", ·)

/-- The names that a relation writes are well-formed. -/
def labelShapeViolations (f : Foreign) : List Violation :=
  ((relationLabels f.field.relation).filter fun (_, label) => !Text.isRelationName label).map
    fun (what, label) =>
      { kind := .invalidRelationName, path := .ofForeign f,
        message := s!"{what} '{label}' must match [A-Za-z_][A-Za-z0-9_]*" }

/-- The relation's name is none of the names taken so far. -/
def relationNameViolations (taken : List String) (f : Foreign) : List Violation :=
  if taken.contains f.field.relation.name then
    [{ kind := .duplicateField, path := .ofForeign f,
       message := s!"relation property '{f.field.relation.name}' collides with another field or relation of '{f.model.name}'" }]
  else []

/-- The relation points at one of the targets. -/
def targetViolations (targets : List String) (f : Foreign) : List Violation :=
  if targets.contains f.target then []
  else
    [{ kind := .danglingRelation, path := .ofForeign f,
       message := s!"relation '{f.field.relation.name}' targets model '{f.target}' which does not exist" }]

/-- The relations a model holds: their names are well-formed and new, and their targets exist. -/
def relationViolations (targets : List String) (file : SchemaFile) (model : Model) :
    List Violation :=
  (withEarlier model.foreign).flatMap fun (earlier, field) =>
    let f : Foreign := ⟨file, model, field⟩
    labelShapeViolations f ++
      relationNameViolations (model.columnNames ++ earlier.map (·.relation.name)) f ++
      targetViolations targets f

/-! ## Relations pointing at a model -/

/-- The properties that a model declares itself: its columns and the relations it holds. -/
def ownProperties (model : Model) : List String :=
  model.columnNames ++ model.foreign.map (·.relation.name)

/-- The properties of the relations that point at a model are new. The fault is reported at the
column that holds the relation, where it can be mended. -/
def backRelationViolations (app : Application) (model : Model) : List Violation :=
  (withEarlier (app.foreignsTo model.name)).flatMap fun (earlier, f) =>
    let property := f.oppositeProperty
    if (ownProperties model ++ earlier.map (·.oppositeProperty)).contains property then
      [{ kind := .duplicateField, path := .ofForeign f,
         message := s!"back-relation property '{property}' collides with another field or relation of '{model.name}'; set oppositeName" }]
    else []

end SchemaGate.Validation
