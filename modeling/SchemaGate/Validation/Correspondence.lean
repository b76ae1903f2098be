import SchemaGate.Validation.Earlier
import SchemaGate.Violation

/-!
# Files and components correspond

Each checked component has exactly one file, under its filename and domain label, whose models are
the component's tables. Other components are known by their plan only: their files may be absent,
and what they own must not be defined elsewhere.
-/

namespace SchemaGate.Validation

/-! ## The files by themselves -/

/-- A filename is used once, and a file has models. -/
def fileViolations (app : Application) : List Violation :=
  (withEarlier app.files).flatMap fun (earlier, file) =>
    (if earlier.any (·.filename == file.filename) then
      [{ kind := .duplicateFile, path := .ofFile file,
         message := s!"file '{file.filename}' is declared more than once" }]
    else []) ++
    (if file.models.isEmpty then
      [{ kind := .emptyFile, path := .ofFile file,
         message := s!"file '{file.filename}' has no models" }]
    else [])

/-! ## Each component with its file -/

/-- The file carries the component's domain label. -/
def labelViolations (c : Component) (file : SchemaFile) : List Violation :=
  if file.domain ≠ c.domain then
    [{ kind := .namespaceMismatch, path := .ofComponent c,
       message := s!"file '{file.filename}' declares namespace '{file.domain}' but its component is '{c.domain}'" }]
  else []

/-- Every table of the component is a model of its file. -/
def missingModelViolations (c : Component) (file : SchemaFile) : List Violation :=
  (c.tables.filter fun table => !file.modelNames.contains table).map fun (table : String) =>
    { kind := .missingModel, path := { Violation.Path.ofComponent c with model := table },
      message := s!"table '{table}' is owned by component '{c.domain}' but its file does not define it" }

/-- What is said of a model that its component does not own. -/
def unexpectedModelMessage (c : Component) (owner : Option Component) (table : String) : String :=
  match owner with
  | some o => s!"table '{table}' is owned by component '{o.domain}' ({o.filename}) and must not be defined here"
  | none => s!"table '{table}' is not owned by component '{c.domain}' nor by any other component"

/-- Every model of the file is a table of the component. `known` are all components, in the order in
which an owner is looked for. -/
def unexpectedModelViolations (known : List Component) (c : Component) (file : SchemaFile) :
    List Violation :=
  (file.models.filter fun model => !c.owns model.name).map fun model =>
    { kind := .unexpectedModel, path := { Violation.Path.ofComponent c with model := model.name },
      message := unexpectedModelMessage c (known.find? (·.owns model.name)) model.name }

/-- The component's file exists and is as planned. -/
def componentViolations (known : List Component) (app : Application) (c : Component) :
    List Violation :=
  match app.file? c.filename with
  | none =>
    [{ kind := .missingFile, path := .ofComponent c,
       message := s!"component '{c.domain}' has no file named '{c.filename}'" }]
  | some file =>
    labelViolations c file ++ missingModelViolations c file ++ unexpectedModelViolations known c file

/-! ## Files without a component -/

/-- Every file belongs to a known component. -/
def strayFileViolations (known : List Component) (app : Application) : List Violation :=
  (app.files.filter fun file => !known.any (·.filename == file.filename)).map fun file =>
    { kind := .unexpectedFile, path := .ofFile file,
      message := s!"file '{file.filename}' does not belong to any component" }

end SchemaGate.Validation
