import SchemaGate.Render.Column
import SchemaGate.Text.Blank

/-!
# Lines of a schema

Every line of a rendered model is one of a few kinds, kept apart until it is written, so that what a
schema declares can be read off its lines without parsing text.
-/

namespace SchemaGate

/-- The declaration of a relation, on either of its models. -/
inductive RelationLine where
  /-- On the model that holds the column. -/
  | forward (name target : String) (nullable : Bool) (label : Option String)
      (column references : String)
  /-- On the model it points at. -/
  | back (name source : String) (unique : Bool) (label : Option String)
  deriving DecidableEq, Repr, Inhabited

namespace RelationLine

/-- The property that a relation declares. -/
def name : RelationLine → String
  | forward name .. => name
  | back name .. => name

/-- The model that a relation's property is typed by. -/
def type : RelationLine → String
  | forward _ target .. => target
  | back _ source .. => source

/-- The label that tells relations of the same models apart. -/
def label : RelationLine → Option String
  | forward _ _ _ label .. => label
  | back _ _ _ label => label

def text : RelationLine → String
  | forward name target nullable label column references =>
    let written := match label with
      | some l => s!"\"{l}\", "
      | none => ""
    let type := target ++ ColumnType.optionalMark nullable
    s!"  {name} {type} @relation({written}fields: [{column}], references: [{references}], onDelete: Cascade)"
  | back name source unique label =>
    let written := match label with
      | some l => s!" @relation(\"{l}\")"
      | none => ""
    let type := source ++ if unique then "?" else "[]"
    s!"  {name} {type}{written}"

end RelationLine

/-- One line of a rendered model. -/
inductive SchemaLine where
  /-- A line of documentation, at the margin or indented. -/
  | doc (indented : Bool) (text : String)
  /-- The line that opens a model. -/
  | opening (model : String)
  /-- The line above and below a section's title. -/
  | rule
  | title (text : String)
  | blank
  | column (name : String) (type : ColumnType)
  | relation (line : RelationLine)
  | uniqueIndex (columns : List String)
  | plainIndex (columns : List String)
  /-- A full-text index, as a trigram index or as a plain one. -/
  | textIndex (trigram : Bool) (column : String)
  /-- The line that closes a model. -/
  | closing
  deriving DecidableEq, Repr, Inhabited

namespace SchemaLine

/-- What starts a line of documentation. -/
def docMark (indented : Bool) : String := if indented then "  ///" else "///"

def text : SchemaLine → String
  | doc indented "" => docMark indented
  | doc indented words => s!"{docMark indented} {words}"
  | opening model => s!"model {model} \x7b"
  | rule => "  //----"
  | title words => s!"  // {words}"
  | blank => ""
  | column name type => s!"  {name} {type.text}"
  | relation line => line.text
  | uniqueIndex columns => "  @@unique([" ++ ", ".intercalate columns ++ "])"
  | plainIndex columns => "  @@index([" ++ ", ".intercalate columns ++ "])"
  | textIndex true name => s!"  @@index([{name}(ops: raw(\"gin_trgm_ops\"))], type: Gin)"
  | textIndex false name => s!"  @@index([{name}])"
  | closing => "\x7d"

/-- The documentation lines of a free text: its trimmed lines, without blanks at their ends. A text
of blanks has none. -/
def docs (indented : Bool) (description : String) : List SchemaLine :=
  (Text.lines (Text.trim description.toList)).map fun line =>
    .doc indented (.ofList (Text.trimEnd line))

def heading (words : String) : List SchemaLine := [rule, title words, rule]

/-- Lines as a text, each ended by a line feed. -/
def join (lines : List SchemaLine) : String :=
  String.join (lines.map fun line => line.text ++ "\n")

end SchemaLine

end SchemaGate
