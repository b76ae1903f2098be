import SchemaGate.Schema.Model

/-!
# Applications and their plans

A component assigns tables to one output file; a file is what was delivered for a component; an
application is the list of files in output order.

* `Component`, with `owns` for its tables
* `SchemaFile` and `Application`, with the models of all files
* `Foreign`, a foreign column together with the model and file that hold it
-/

namespace SchemaGate

/-- One output file of a plan and the tables it owns. -/
structure Component where
  filename : String
  /-- The label of the business domain. -/
  domain : String
  tables : List String
  deriving DecidableEq, Repr, Inhabited

def Component.owns (c : Component) (table : String) : Bool := c.tables.contains table

/-- The models delivered under a filename and domain label. -/
structure SchemaFile where
  filename : String
  domain : String
  models : List Model
  deriving DecidableEq, Repr, Inhabited

namespace SchemaFile

/-- The file of a component that holds these models. -/
def ofComponent (c : Component) (models : List Model) : SchemaFile :=
  { filename := c.filename, domain := c.domain, models }

def modelNames (f : SchemaFile) : List String := f.models.map (·.name)

end SchemaFile

structure Application where
  files : List SchemaFile
  deriving DecidableEq, Repr, Inhabited

/-- A foreign column where it is declared. -/
structure Foreign where
  file : SchemaFile
  model : Model
  field : ForeignField
  deriving DecidableEq, Repr, Inhabited

namespace Foreign

def target (f : Foreign) : String := f.field.relation.target

def oppositeProperty (f : Foreign) : String := f.field.relation.oppositeProperty f.model.name

end Foreign

namespace Application

/-- Every model with the file that declares it, in file order and then declaration order. -/
def declarations (app : Application) : List (SchemaFile × Model) :=
  app.files.flatMap fun file => file.models.map (file, ·)

/-- Every model, in file order and then declaration order. -/
def models (app : Application) : List Model := app.files.flatMap (·.models)

/-- The names of all models, with their repeats. -/
def modelNames (app : Application) : List String := app.models.map (·.name)

/-- The model of a name, the first one where it is repeated. -/
def model? (app : Application) (name : String) : Option Model :=
  app.models.find? (·.name == name)

/-- The file of a name, the first one where it is repeated. -/
def file? (app : Application) (filename : String) : Option SchemaFile :=
  app.files.find? (·.filename == filename)

/-- Every foreign column, in the order of the models and then of declaration. -/
def foreigns (app : Application) : List Foreign :=
  app.declarations.flatMap fun (file, model) => model.foreign.map (⟨file, model, ·⟩)

/-- The foreign columns whose relation points at a model. -/
def foreignsTo (app : Application) (target : String) : List Foreign :=
  app.foreigns.filter (·.target == target)

end Application

end SchemaGate
