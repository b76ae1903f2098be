import SchemaGate.Toml.Quoted

/-!
# Reading TOML

`Toml.parse?` reads a text line by line. The state is the tree so far and the header that the
current line stands under.

* `readValue`, a value with the arrays and tables inside it
* `readStatement`, a line with a header or a key and its value
-/

namespace SchemaGate.Toml

/-- How deep arrays and tables may stand in each other as values. -/
def maxDepth : Nat := 80

/-! ## Blanks -/

/-- Drops a comment at the front, up to the end of its line. -/
def skipComment : List Char → List Char
  | '#' :: cs => cs.dropWhile isPlain
  | cs => cs

/-- What follows the end of a statement: spaces, perhaps a comment, and the end of the line. -/
def endOfStatement? (cs : List Char) : Option (List Char) :=
  match skipComment (skipSpace cs) with
  | [] => some []
  | cs => newline? cs

/-- Drops spaces, comments and ends of lines at the front; `inComment` says that the text starts
inside a comment. -/
def skipLines (inComment : Bool) : List Char → List Char
  | [] => []
  | '\n' :: cs => skipLines false cs
  | '\r' :: '\n' :: cs => skipLines false cs
  | c :: cs =>
    if inComment && isPlain c then skipLines true cs
    else if inComment then c :: cs
    else if isSpace c then skipLines false cs
    else if c == '#' then skipLines true cs
    else c :: cs

/-! ## Values -/

mutual

/-- A value at the front, and what follows; `depth` is how deep it may be. -/
def readValue : Nat → Nat → List Char → Option (Toml × List Char)
  | fuel + 1, depth + 1, '[' :: cs => readItems fuel depth [] (skipLines false cs)
  | fuel + 1, depth + 1, '{' :: cs => readPairs fuel depth [] (skipLines false cs)
  | _ + 1, _, cs =>
    match cs with
    | '"' :: _ => (quoted? cs).map fun (s, rest) => (.text s, rest)
    | '\'' :: _ => (quoted? cs).map fun (s, rest) => (.text s, rest)
    | _ =>
      let (run, rest) := scalarRun cs
      (scalar? run).map (·, rest)
  | 0, _, _ => none

/-- The items of an array from its next one on, behind those read so far, last first. -/
def readItems : Nat → Nat → List Toml → List Char → Option (Toml × List Char)
  | _ + 1, _, done, ']' :: rest => some (.array false done.reverse, rest)
  | fuel + 1, depth, done, cs => do
    let (item, rest) ← readValue fuel depth cs
    match skipLines false rest with
    | ',' :: rest => readItems fuel depth (item :: done) (skipLines false rest)
    | ']' :: rest => some (.array false (item :: done).reverse, rest)
    | _ => none
  | 0, _, _, _ => none

/-- The pairs of a table between braces from its next one on, added to those read so far. -/
def readPairs : Nat → Nat → Entries → List Char → Option (Toml × List Char)
  | _ + 1, _, entries, '}' :: rest => some (.table .inline entries, rest)
  | fuel + 1, depth, entries, cs => do
    let (path, key, rest) ← key? cs.length cs
    let '=' :: rest := rest | none
    let (value, rest) ← readValue fuel depth (skipSpace rest)
    let .table _ entries ← addPair path key value .explicit entries | none
    match skipLines false rest with
    | ',' :: rest => readPairs fuel depth entries (skipLines false rest)
    | '}' :: rest => some (.table .inline entries, rest)
    | _ => none
  | 0, _, _, _ => none

end

/-! ## Statements -/

/-- The tree that is being built, and the header that a pair falls under. -/
structure Draft where
  root : Toml
  header : List String
  deriving Inhabited

namespace Draft

/-- Changes the tree by a change to its entries. -/
def change (d : Draft) (act : TableKind → Entries → Option Toml) : Option Toml :=
  match d.root with
  | .table kind entries => act kind entries
  | _ => none

def pair (d : Draft) (path : List String) (key : String) (value : Toml) : Option Draft :=
  (d.change (alter false (addPair path key value) d.header)).map ({ d with root := · })

def table (d : Draft) (path : List String) (key : String) : Option Draft :=
  (d.change (openTable path key)).map (⟨·, path ++ [key]⟩)

def arrayItem (d : Draft) (path : List String) (key : String) : Option Draft :=
  (d.change (openArrayItem path key)).map (⟨·, path ++ [key]⟩)

end Draft

/-- One statement at the front, without the end of its line, and what follows. -/
def readStatement (d : Draft) : List Char → Option (Draft × List Char)
  | '[' :: '[' :: cs => do
    let (path, key, rest) ← key? cs.length cs
    let ']' :: ']' :: rest := rest | none
    return (← d.arrayItem path key, rest)
  | '[' :: cs => do
    let (path, key, rest) ← key? cs.length cs
    let ']' :: rest := rest | none
    return (← d.table path key, rest)
  | cs => do
    let (path, key, rest) ← key? cs.length cs
    let '=' :: rest := rest | none
    let rest := skipSpace rest
    let (value, rest) ← readValue (2 * rest.length + 1) maxDepth rest
    return (← d.pair path key value, rest)

/-- All statements. Each takes a character, so the number of characters bounds the steps. -/
def readAll : Nat → Draft → List Char → Option Toml
  | 0, _, _ => none
  | fuel + 1, d, cs =>
    match skipLines false cs with
    | [] => some d.root
    | cs => do
      let (d, rest) ← readStatement d cs
      readAll fuel d (← endOfStatement? rest)

/-- The document that a text spells. A byte order mark in front is skipped. -/
def parse? (s : String) : Option Toml :=
  let cs := match s.toList with
    | '\ufeff' :: cs => cs
    | cs => cs
  readAll (cs.length + 1) ⟨.table .explicit [], []⟩ cs

end SchemaGate.Toml
