import SchemaGate.Json.Basic

/-!
# Records

A record is written as an object of its fields or as an array of them in the order of their
declaration. `fields?` reads either form into one view, which says for each field how it was given;
the readers on `Slot` then decide what an absent field means.

* unknown members are skipped, a known one given twice is refused
* an array may stop early, but holds no more items than there are fields
-/

namespace SchemaGate.Json

/-- How a field of a record was given. -/
inductive Slot where
  /-- With this value. -/
  | given (value : Json)
  /-- Not at all: the record is an object without such a member. -/
  | unnamed
  /-- Not at all: the record is an array that ends before the field. -/
  | beyond
  deriving Inhabited

/-- The fields of a record declared with these names, by name. -/
def fields? (names : List String) : Json → Option (String → Slot)
  | .obj members =>
    let known := members.filterMap fun m => m.1.filter names.contains
    if members.all (·.1.isSome) && known.Nodup then
      some fun name => match members.lookup (some name) with
        | some value => .given value
        | none => .unnamed
    else none
  | .arr items =>
    if items.length ≤ names.length then
      some fun name => match (names.zip items).lookup name with
        | some value => .given value
        | none => .beyond
    else none
  | _ => none

namespace Slot

/-- A field that has to be given. -/
def required {α : Type} (read : Json → Option α) : Slot → Option α
  | given value => read value
  | _ => none

/-- A field with a value for when it is not given. -/
def withDefault {α : Type} (default : α) (read : Json → Option α) : Slot → Option α
  | given value => read value
  | _ => some default

/-- A value that may be null. -/
def nullable {α : Type} (read : Json → Option α) : Json → Option (Option α)
  | .null => some none
  | value => (read value).map some

/-- A field that may be null or not given. -/
def optional {α : Type} (read : Json → Option α) : Slot → Option (Option α) :=
  withDefault none (nullable read)

/-- A field that may be null, and left out of an object but not of an array. -/
def optionalMember {α : Type} (read : Json → Option α) : Slot → Option (Option α)
  | given value => nullable read value
  | unnamed => some none
  | beyond => none

end Slot

/-- The name of an enumeration's value: a string, or an object whose one member is the name with the
value null. -/
def enumName? : Json → Option String
  | .str name => name
  | .obj [(name, .null)] => name
  | _ => none

end SchemaGate.Json
