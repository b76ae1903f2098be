/-!
# TOML documents

A TOML text is a sequence of statements that each add to one tree of tables. Whether a statement may
extend a table depends on how that table came to be, so tables keep that.

* `Toml`, the tree, with the kinds of tables
* `alter`, a change to the table that a path of keys leads to
* `addPair`, `openTable` and `openArrayItem`, the three statements
-/

namespace SchemaGate

/-- How a table came to be. -/
inductive Toml.TableKind where
  /-- By a header of its own, or the document itself. -/
  | explicit
  /-- As part of the path in the header of another table. -/
  | implicit
  /-- As part of a dotted key. -/
  | dotted
  /-- As a value between braces, which nothing may extend. -/
  | inline
  deriving DecidableEq, Repr, Inhabited

inductive Toml where
  | text (s : String)
  | integer (n : Int)
  | bool (b : Bool)
  /-- A float or a point in time, which no setting takes. -/
  | other
  /-- An array, written as a value or as one item after another by headers. -/
  | array (byHeaders : Bool) (items : List Toml)
  | table (kind : Toml.TableKind) (entries : List (String × Toml))
  deriving Inhabited

namespace Toml

abbrev Entries := List (String × Toml)

/-- Puts a value in place of the one under a key. -/
def replace (key : String) (value : Toml) (entries : Entries) : Entries :=
  entries.map fun (k, v) => if k = key then (k, value) else (k, v)

/-- Whether a path may lead into a table of a kind. A dotted key may not lead into one that has a
header of its own. -/
def TableKind.mayEnter (byDots : Bool) : TableKind → Bool
  | .explicit => !byDots
  | .implicit => true
  | .dotted => true
  | .inline => false

/-- Changes the table that a path leads to. Tables that are missing on the way are added; through an
array of headers the path leads into its last item. The path is that of a dotted key or a header. -/
def alter (byDots : Bool) (act : TableKind → Entries → Option Toml) :
    List String → TableKind → Entries → Option Toml
  | [], kind, entries => act kind entries
  | key :: path, kind, entries =>
    match entries.lookup key with
    | none => do
      let child ← alter byDots act path (if byDots then .dotted else .implicit) []
      return .table kind (entries ++ [(key, child)])
    | some (.table childKind childEntries) =>
      if childKind.mayEnter byDots then do
        let child ← alter byDots act path childKind childEntries
        return .table kind (replace key child entries)
      else none
    | some (.array true items) =>
      match items.reverse with
      | .table lastKind lastEntries :: before => do
        let last ← alter byDots act path lastKind lastEntries
        return .table kind (replace key (.array true (before.reverse ++ [last])) entries)
      | _ => none
    | some _ => none

/-- Adds a value under a new key. -/
def add (key : String) (value : Toml) (kind : TableKind) (entries : Entries) : Option Toml :=
  match entries.lookup key with
  | some _ => none
  | none => some (.table kind (entries ++ [(key, value)]))

/-- Adds a value under a dotted key, given as its path and last part. Only tables made by dotted
keys are extended by longer ones. -/
def addPair (path : List String) (key : String) (value : Toml) (kind : TableKind)
    (entries : Entries) : Option Toml :=
  alter true (fun kind entries =>
    if (kind == .dotted) == path.isEmpty then none else add key value kind entries)
    path kind entries

/-- Opens the table of a header. It is new, or was only part of another header's path so far. -/
def openTable (path : List String) (key : String) : TableKind → Entries → Option Toml :=
  alter false (fun kind entries =>
    match entries.lookup key with
    | none => some (.table kind (entries ++ [(key, .table .explicit [])]))
    | some (.table .implicit inner) =>
      some (.table kind (replace key (.table .explicit inner) entries))
    | some _ => none) path

/-- Opens the next item of an array of headers. -/
def openArrayItem (path : List String) (key : String) : TableKind → Entries → Option Toml :=
  alter false (fun kind entries =>
    match entries.lookup key with
    | none => some (.table kind (entries ++ [(key, .array true [.table .explicit []])]))
    | some (.array true items) =>
      some (.table kind (replace key (.array true (items ++ [.table .explicit []])) entries))
    | some _ => none) path

/-! ## Reading values -/

/-- The fields of a record declared with these names, by name: those of a table, or the items of an
array in the order of declaration, where further items are skipped. -/
def fields? (names : List String) : Toml → Option (String → Option Toml)
  | .table _ entries => some fun name => entries.lookup name
  | .array _ items => some fun name => (names.zip items).lookup name
  | _ => none

/-- A field that has a value for when it is absent. -/
def withDefault {α : Type} (default : α) (read : Toml → Option α) : Option Toml → Option α
  | some value => read value
  | none => some default

def text? : Toml → Option String
  | .text s => some s
  | _ => none

def bool? : Toml → Option Bool
  | .bool b => some b
  | _ => none

/-- A natural number of so many bits. -/
def natOfBits? (bits : Nat) : Toml → Option Nat
  | .integer n => if 0 ≤ n ∧ n.toNat < Nat.pow 2 bits then some n.toNat else none
  | _ => none

/-- The name of an enumeration's value: a text, or a table whose one key is the name with nothing
under it. -/
def enumName? : Toml → Option String
  | .text s => some s
  | .table _ [(name, .table _ [])] => some name
  | .table _ [(name, .array _ [])] => some name
  | _ => none

end Toml

end SchemaGate
