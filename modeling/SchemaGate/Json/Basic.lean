/-!
# JSON documents

The tree of a JSON text with everything that decides whether it decodes: members keep their order
and their repeats, numbers keep their spelling, and a string may hold escapes that no text can.
-/

namespace SchemaGate

inductive Json where
  | null
  | bool (value : Bool)
  /-- A number as it is spelled. -/
  | num (spelling : String)
  /-- A string; `none` where its escapes name half of a surrogate pair, which no text holds. -/
  | str (text : Option String)
  | arr (items : List Json)
  | obj (members : List (Option String × Json))
  deriving Inhabited

namespace Json

/-- A string that is a text. -/
def text (s : String) : Json := .str (some s)

def nat (n : Nat) : Json := .num (toString n)

def texts (ss : List String) : Json := .arr (ss.map text)

/-- An object with these members in this order. -/
def object (members : List (String × Json)) : Json :=
  .obj (members.map fun (name, value) => (some name, value))

def text? : Json → Option String
  | .str s => s
  | _ => none

def bool? : Json → Option Bool
  | .bool b => some b
  | _ => none

/-- The items of an array, each read. -/
def list? {α : Type} (read : Json → Option α) : Json → Option (List α)
  | .arr items => items.mapM read
  | _ => none

/-- The value of the first member of a name, in an object. -/
def member? (j : Json) (name : String) : Option Json :=
  match j with
  | .obj members => members.lookup (some name)
  | _ => none

@[simp] theorem text?_text (s : String) : (text s).text? = some s := rfl

@[simp] theorem bool?_bool (b : Bool) : (bool b).bool? = some b := rfl

end Json

end SchemaGate
