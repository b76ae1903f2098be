import SchemaGate.Text.Name
import SchemaGate.Validation.Names

/-!
# Indexes

An index over columns names at least one, each once and each a column of the model, and no earlier
index covers the same columns in the same order. A full-text index covers a plain column of text.
-/

namespace SchemaGate.Validation

/-- An index over columns with the label it is reported under. -/
structure LabelledIndex where
  label : String
  columns : List String
  deriving DecidableEq, Repr

/-- The unique and then the plain indexes of a model. -/
def columnIndexes (model : Model) : List LabelledIndex :=
  (model.uniqueIndexes.zipIdx.map fun (columns, i) => ⟨s!"uniqueIndexes[{i}]", columns⟩) ++
    model.plainIndexes.zipIdx.map fun (columns, i) => ⟨s!"plainIndexes[{i}]", columns⟩

/-- What is said of an ill-formed column name in an index. -/
def indexFieldMessage (name : String) : String :=
  s!"index field name '{name}' must match [a-z][a-z0-9_]*"

/-- A column of an index occurs once, is well-formed and exists. The first fault counts. -/
def indexColumnViolations (model : Model) (path : Violation.Path) (index : LabelledIndex) :
    List Violation :=
  (withEarlier index.columns).flatMap fun (earlier, name) =>
    let path := { path with index := index.label, field := name }
    if earlier.contains name then
      [{ kind := .duplicateIndexField, path,
         message := s!"{index.label} lists field '{name}' more than once" }]
    else if !Text.isIdentifier name then
      [{ kind := .invalidIdentifier, path, message := indexFieldMessage name }]
    else if !model.hasColumn name then
      [{ kind := .unknownIndexField, path,
         message := s!"{index.label} references field '{name}' which does not exist on '{model.name}'" }]
    else []

/-- No earlier index covers the same columns. -/
def coverViolations (path : Violation.Path) (earlier : List LabelledIndex)
    (index : LabelledIndex) : List Violation :=
  match earlier.find? (·.columns == index.columns) with
  | some first =>
    [{ kind := .duplicateIndex, path := { path with index := index.label },
       message := s!"{index.label} covers the same fields as {first.label}" }]
  | none => []

def columnIndexViolations (model : Model) (path : Violation.Path) : List Violation :=
  (withEarlier (columnIndexes model)).flatMap fun (earlier, index) =>
    if index.columns.isEmpty then
      [{ kind := .emptyIndex, path := { path with index := index.label },
         message := s!"{index.label} has no fields" }]
    else indexColumnViolations model path index ++ coverViolations path earlier index

/-! ## Full-text indexes -/

/-- The column of a full-text index is well-formed, exists, and is a plain column of text. -/
def textColumnViolations (model : Model) (path : Violation.Path) (label name : String) :
    List Violation :=
  let path := { path with index := label, field := name }
  if !Text.isIdentifier name then
    [{ kind := .invalidIdentifier, path, message := indexFieldMessage name }]
  else match model.plainField? name with
    | some field =>
      if field.scalar.isText then []
      else
        [{ kind := .invalidTextIndex, path,
           message := s!"{label} requires a string field but '{name}' is '{field.scalar.name}'" }]
    | none =>
      if model.hasColumn name then
        [{ kind := .invalidTextIndex, path,
           message := s!"{label} requires a plain string field but '{name}' is a key" }]
      else
        [{ kind := .unknownIndexField, path,
           message := s!"{label} references field '{name}' which does not exist on '{model.name}'" }]

/-- No earlier full-text index covers the same column. -/
def textCoverViolations (path : Violation.Path) (earlier : List (String × String))
    (label name : String) : List Violation :=
  match earlier.find? (·.2 == name) with
  | some (first, _) =>
    [{ kind := .duplicateIndex, path := { path with index := label, field := name },
       message := s!"{label} covers the same field as {first}" }]
  | none => []

/-- The full-text indexes of a model with their labels. -/
def labelledTextIndexes (model : Model) : List (String × String) :=
  model.textIndexes.zipIdx.map fun (name, i) => (s!"ginIndexes[{i}]", name)

def textIndexViolations (model : Model) (path : Violation.Path) : List Violation :=
  (withEarlier (labelledTextIndexes model)).flatMap fun (earlier, label, name) =>
    textColumnViolations model path label name ++ textCoverViolations path earlier label name

def indexViolations (file : SchemaFile) (model : Model) : List Violation :=
  let path := modelPath file model
  columnIndexViolations model path ++ textIndexViolations model path

end SchemaGate.Validation
