import SchemaGate.Render.Options
import SchemaGate.Schema.Scalar

/-!
# Column types

How the scalar types are declared in a schema: the type, a mark for columns that accept null,
attributes, and last the native type where the provider has one.
-/

namespace SchemaGate

namespace Scalar

def schemaName : Scalar → String
  | boolean => "Boolean"
  | int => "Int"
  | double => "Float"
  | string => "String"
  | uri => "String"
  | uuid => "String"
  | datetime => "DateTime"

/-- The attribute that names the native type, where the schema name does not fix it. -/
def nativeAttribute? : Scalar → Option String
  | uuid => some "@db.Uuid"
  | uri => some "@db.VarChar(80000)"
  | double => some "@db.DoublePrecision"
  | datetime => some "@db.Timestamptz"
  | boolean => none
  | int => none
  | string => none

end Scalar

def Provider.nativeAttribute? (p : Provider) (t : Scalar) : Option String :=
  if p.hasNativeTypes then t.nativeAttribute? else none

structure ColumnType where
  scalar : Scalar
  nullable : Bool
  /-- Attributes between the type and its native attribute. -/
  attributes : List String
  native : Option String
  deriving DecidableEq, Repr, Inhabited

namespace ColumnType

def forProvider (p : Provider) (scalar : Scalar) (nullable : Bool) (attributes : List String) :
    ColumnType :=
  { scalar, nullable, attributes, native := p.nativeAttribute? scalar }

/-- The mark of a column or relation that may be absent. -/
def optionalMark (nullable : Bool) : String := if nullable then "?" else ""

def text (t : ColumnType) : String :=
  " ".intercalate ((t.scalar.schemaName ++ optionalMark t.nullable) ::
    t.attributes ++ t.native.toList)

end ColumnType

end SchemaGate
