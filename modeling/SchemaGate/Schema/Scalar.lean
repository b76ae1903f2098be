/-!
# Scalar types

The closed set of column types, with their names in documents.
-/

namespace SchemaGate

/-- The type of a plain column. Key columns are always `uuid`. -/
inductive Scalar where
  | boolean
  | int
  | double
  | string
  | uri
  | uuid
  | datetime
  deriving DecidableEq, Repr, Inhabited

namespace Scalar

def all : List Scalar := [boolean, int, double, string, uri, uuid, datetime]

def name : Scalar → String
  | boolean => "boolean"
  | int => "int"
  | double => "double"
  | string => "string"
  | uri => "uri"
  | uuid => "uuid"
  | datetime => "datetime"

def ofName? (s : String) : Option Scalar :=
  all.find? (·.name = s)

/-- Whether a full-text index may cover a column of this type. -/
def isText (t : Scalar) : Bool := t == string

theorem mem_all (t : Scalar) : t ∈ all := by cases t <;> decide

@[simp] theorem ofName?_name (t : Scalar) : ofName? t.name = some t := by
  cases t <;> decide

end Scalar

/-- What is said of a name that is no scalar type's. -/
def unknownScalarMessage (s : String) : String := s!"unknown scalar type '{s}'"

end SchemaGate
