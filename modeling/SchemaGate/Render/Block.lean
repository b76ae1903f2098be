import SchemaGate.Render.Line
import SchemaGate.Schema.Application

/-!
# The block of a model

A model is rendered as one block: header comments, columns, relations and indexes.

* columns come primary, then foreign, then plain, in stored order
* relations come forward in column order, then back in the order of the application
* indexes come unique, then plain, then full-text
-/

namespace SchemaGate

/-- The column that a relation references where its target is not in the application. -/
def defaultPrimaryKey : String := "id"

namespace Block

variable (options : RenderOptions)

/-- Documentation lines, where they are kept. -/
def docs (indented : Bool) (description : String) : List SchemaLine :=
  if options.comments then SchemaLine.docs indented description else []

/-- The comments above a model: its description, its namespace, and whether it is derived. -/
def header (file : SchemaFile) (model : Model) : List SchemaLine :=
  if options.comments then
    let description := SchemaLine.docs false model.description
    (if description.isEmpty then [] else description ++ [.doc false ""]) ++
      [.doc false s!"@namespace {file.domain}"] ++
      if model.material then [.doc false "@material"] else []
  else []

/-! ## Columns -/

/-- A column with its documentation. -/
def column (description name : String) (scalar : Scalar) (nullable : Bool)
    (attributes : List String) : List SchemaLine :=
  docs options true description ++
    [.column name (.forProvider options.provider scalar nullable attributes)]

def columns (model : Model) : List (List SchemaLine) :=
  column options model.primary.description model.primary.name .uuid false ["@id"] ::
    (model.foreign.map fun f =>
      column options f.description f.name .uuid f.nullable (if f.unique then ["@unique"] else [])) ++
    model.plain.map fun f => column options f.description f.name f.scalar f.nullable []

/-! ## Relations -/

/-- A relation on the model that holds its column. It references the primary column of its target,
the first model of that name. -/
def forwardRelation (app : Application) (field : ForeignField) : RelationLine :=
  .forward field.relation.name field.relation.target field.nullable field.relation.mapping
    field.name ((app.model? field.relation.target).elim defaultPrimaryKey (·.primary.name))

/-- A relation on the model it points at. -/
def backRelation (f : Foreign) : RelationLine :=
  .back f.oppositeProperty f.model.name f.field.unique f.field.relation.mapping

/-- The relations of a model, those it holds first. -/
def relations (app : Application) (model : Model) : List RelationLine :=
  model.foreign.map (forwardRelation app) ++ (app.foreignsTo model.name).map backRelation

/-! ## Indexes -/

def indexes (model : Model) : List SchemaLine :=
  model.uniqueIndexes.map .uniqueIndex ++ model.plainIndexes.map .plainIndex ++
    model.textIndexes.map (.textIndex options.provider.hasTrigramIndexes)

/-! ## The whole block -/

/-- A section behind a blank line, where there is anything in it. -/
def behindBlank (lines : List SchemaLine) : List SchemaLine :=
  if lines.isEmpty then [] else .blank :: lines

def relationSection (app : Application) (model : Model) : List SchemaLine :=
  match relations app model with
  | [] => []
  | lines => SchemaLine.heading "RELATIONS" ++ lines.map .relation

def lines (app : Application) (file : SchemaFile) (model : Model) : List SchemaLine :=
  header options file model ++ [.opening model.name] ++ SchemaLine.heading "COLUMNS" ++
    [SchemaLine.blank].intercalate (columns options model) ++
    behindBlank (relationSection app model) ++ behindBlank (indexes options model) ++ [.closing]

end Block

/-- The lines of a file: the blocks of its models with blank lines between. -/
def SchemaFile.lines (options : RenderOptions) (app : Application) (file : SchemaFile) :
    List SchemaLine :=
  [SchemaLine.blank].intercalate (file.models.map (Block.lines options app file))

def SchemaFile.render (options : RenderOptions) (app : Application) (file : SchemaFile) : String :=
  SchemaLine.join (file.lines options app)

end SchemaGate
