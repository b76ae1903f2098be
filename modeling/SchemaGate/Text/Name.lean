import SchemaGate.Text.Blank

/-!
# The shapes of names

What a table or column name, a relation name, a file extension and a component's filename look
like. The letters and digits meant are the ASCII ones, and a shape is matched by the whole text: a
line feed at the end is no part of any of them.
-/

namespace SchemaGate.Text

/-- A letter, digit or underscore of a table or column name. -/
def isIdentifierChar (c : Char) : Bool :=
  c.isLower || c.isDigit || c == '_'

/-- Table and column names: `[a-z][a-z0-9_]*`. -/
def isIdentifier (s : String) : Bool :=
  match s.toList with
  | [] => false
  | c :: cs => c.isLower && cs.all isIdentifierChar

/-- Relation names and labels: `[A-Za-z_][A-Za-z0-9_]*`. -/
def isRelationName (s : String) : Bool :=
  match s.toList with
  | [] => false
  | c :: cs => (c.isAlpha || c == '_') && cs.all fun c => c.isAlphanum || c == '_'

/-- One part of a domain slug: `[a-z0-9]+`. -/
def isSlugPart (cs : List Char) : Bool :=
  cs ≠ [] && cs.all fun c => c.isLower || c.isDigit

/-- A file extension without its dot: `[a-z]+`. -/
def isExtension (cs : List Char) : Bool :=
  cs ≠ [] && cs.all Char.isLower

/-- The first word of every component's filename. -/
def filenameHead : String := "schema"

/-- Component filenames: `schema-{order}-{domain}.{ext}`, where the order has two digits or more
and the domain is slug parts joined by hyphens. -/
def isComponentFilename (s : String) : Bool :=
  match split '.' s.toList with
  | [stem, extension] =>
    match split '-' stem with
    | head :: order :: part :: parts =>
      head == filenameHead.toList && 2 ≤ order.length && order.all Char.isDigit &&
        (part :: parts).all isSlugPart && isExtension extension
    | _ => false
  | _ => false

end SchemaGate.Text
