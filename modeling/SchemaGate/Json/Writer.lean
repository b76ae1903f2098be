import SchemaGate.Json.Basic

/-!
# Writing JSON

Two layouts of a document: `compact`, without any blank, and `pretty`, with one item or member a
line, each level two spaces deeper. Both keep the order of members; `sorted` is the document with
the members of every object ordered by name.
-/

namespace SchemaGate.Json

/-- The lower case hexadecimal digit of a number below sixteen. -/
def hexDigit (n : Nat) : Char := "0123456789abcdef".toList.getD n '0'

/-- How a character stands inside quotes: quote, backslash and controls are escaped, all else stands
for itself. -/
def quoteChar (c : Char) : List Char :=
  if c = '"' then ['\\', '"']
  else if c = '\\' then ['\\', '\\']
  else if c = '\x08' then ['\\', 'b']
  else if c = '\t' then ['\\', 't']
  else if c = '\n' then ['\\', 'n']
  else if c = '\x0c' then ['\\', 'f']
  else if c = '\r' then ['\\', 'r']
  else if c.toNat < 0x20 then
    ['\\', 'u', '0', '0', hexDigit (c.toNat / 16), hexDigit (c.toNat % 16)]
  else [c]

/-- A string with its quotes. Where it is no text, half a surrogate pair stands for it. -/
def quote : Option String → String
  | some s => .ofList ('"' :: s.toList.flatMap quoteChar ++ ['"'])
  | none => "\"\\ud800\""

mutual

/-- A document without blanks. -/
def compact : Json → String
  | .null => "null"
  | .bool true => "true"
  | .bool false => "false"
  | .num spelling => spelling
  | .str text => quote text
  | .arr items => "[" ++ ",".intercalate (compactItems items) ++ "]"
  | .obj members => "\x7b" ++ ",".intercalate (compactMembers members) ++ "\x7d"

def compactItems : List Json → List String
  | [] => []
  | item :: items => compact item :: compactItems items

def compactMembers : List (Option String × Json) → List String
  | [] => []
  | (name, value) :: members => (quote name ++ ":" ++ compact value) :: compactMembers members

end

/-- The start of a line at a depth. -/
def newline (depth : Nat) : String :=
  "\n" ++ .ofList (List.replicate (2 * depth) ' ')

mutual

/-- A document with a line for each item and member, where `depth` is the level it stands at. -/
def prettyAt (depth : Nat) : Json → String
  | .arr [] => "[]"
  | .obj [] => "\x7b\x7d"
  | .arr items =>
    "[" ++ ",".intercalate (prettyItems (depth + 1) items) ++ newline depth ++ "]"
  | .obj members =>
    "\x7b" ++ ",".intercalate (prettyMembers (depth + 1) members) ++ newline depth ++ "\x7d"
  | .null => "null"
  | .bool true => "true"
  | .bool false => "false"
  | .num spelling => spelling
  | .str text => quote text

def prettyItems (depth : Nat) : List Json → List String
  | [] => []
  | item :: items => (newline depth ++ prettyAt depth item) :: prettyItems depth items

def prettyMembers (depth : Nat) : List (Option String × Json) → List String
  | [] => []
  | (name, value) :: members =>
    (newline depth ++ quote name ++ ": " ++ prettyAt depth value) :: prettyMembers depth members

end

/-- A document with a line for each item and member. -/
def pretty (j : Json) : String := prettyAt 0 j

/-- Names in the order of their code points, which is that of their UTF-8 bytes. -/
def nameLe (a b : Option String) : Bool :=
  a.getD "" ≤ b.getD ""

mutual

/-- The document with the members of every object in the order of their names. -/
def sorted : Json → Json
  | .arr items => .arr (sortedItems items)
  | .obj members => .obj ((sortedMembers members).mergeSort fun a b => nameLe a.1 b.1)
  | .null => .null
  | .bool b => .bool b
  | .num spelling => .num spelling
  | .str text => .str text

def sortedItems : List Json → List Json
  | [] => []
  | item :: items => sorted item :: sortedItems items

/-- The members with each value sorted, in their old order. -/
def sortedMembers : List (Option String × Json) → List (Option String × Json)
  | [] => []
  | (name, value) :: members => (name, sorted value) :: sortedMembers members

end

end SchemaGate.Json
