import SchemaGate.Schema.Scalar

/-!
# Models

A model is one table: a primary column, foreign columns that each carry a relation, plain columns,
and indexes over columns. Every list is in declaration order, and nothing here is checked: names may
be ill-formed and repeated until `Validation` has seen them.
-/

namespace SchemaGate

/-- The association from the model that holds a foreign column to a target model. -/
structure Relation where
  /-- The property on the model that holds the column. -/
  name : String
  /-- The name of the model it points at. -/
  target : String
  /-- A label that tells relations of the same two models apart. -/
  mapping : Option String := none
  /-- The property on the target model. -/
  opposite : Option String := none
  deriving DecidableEq, Repr, Inhabited

namespace Relation

/-- The property on the target model: the one written, or else the name of the model that holds the
column, followed by the label where there is one. -/
def oppositeProperty (r : Relation) (source : String) : String :=
  match r.opposite, r.mapping with
  | some opposite, _ => opposite
  | none, some mapping => s!"{source}_{mapping}"
  | none, none => source

end Relation

/-- The primary column, always an opaque identifier. -/
structure PrimaryField where
  name : String
  description : String
  deriving DecidableEq, Repr, Inhabited

/-- The description of a primary column that was given none. -/
def PrimaryField.defaultDescription : String := "Primary Key."

/-- A foreign column and the relation it backs. -/
structure ForeignField where
  name : String
  description : String := ""
  relation : Relation
  /-- At most one row may point at a target row. -/
  unique : Bool := false
  nullable : Bool := false
  deriving DecidableEq, Repr, Inhabited

/-- A column that is no key. -/
structure PlainField where
  name : String
  scalar : Scalar
  description : String := ""
  nullable : Bool := false
  deriving DecidableEq, Repr, Inhabited

/-- One table. -/
structure Model where
  name : String
  description : String := ""
  /-- A derived table that is only read. -/
  material : Bool := false
  primary : PrimaryField
  foreign : List ForeignField := []
  plain : List PlainField := []
  /-- Uniqueness constraints, each the columns it covers. -/
  uniqueIndexes : List (List String) := []
  /-- Lookup indexes, each the columns it covers. -/
  plainIndexes : List (List String) := []
  /-- Full-text indexes, each the column it covers. -/
  textIndexes : List String := []
  deriving DecidableEq, Repr, Inhabited

namespace Model

/-- A model with an `id` column and nothing else. -/
def minimal (name : String) : Model :=
  { name, primary := { name := "id", description := PrimaryField.defaultDescription } }

/-- All column names: primary, then foreign, then plain. -/
def columnNames (m : Model) : List String :=
  m.primary.name :: m.foreign.map (·.name) ++ m.plain.map (·.name)

/-- The plain column of a name, the first one where it is repeated. -/
def plainField? (m : Model) (name : String) : Option PlainField :=
  m.plain.find? (·.name == name)

/-- The foreign column of a name, the first one where it is repeated. -/
def foreignField? (m : Model) (name : String) : Option ForeignField :=
  m.foreign.find? (·.name == name)

/-- Whether a column of any kind has the name. -/
def hasColumn (m : Model) (name : String) : Bool := m.columnNames.contains name

end Model

end SchemaGate
