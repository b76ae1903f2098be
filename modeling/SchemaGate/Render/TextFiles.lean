/-!
# Named texts

Rendered files by filename. The names are distinct and in the order of their code points, which is
that of their UTF-8 bytes.
-/

namespace SchemaGate

/-- Texts by filename, in the order of the names. -/
abbrev TextFiles := List (String × String)

namespace TextFiles

/-- Adds a text under a name, in place of the one that was there. -/
def insert (name text : String) : TextFiles → TextFiles
  | [] => [(name, text)]
  | (n, t) :: files =>
    if name = n then (name, text) :: files
    else if name < n then (name, text) :: (n, t) :: files
    else (n, t) :: insert name text files

/-- Collects texts by name; of two with one name the later stays. -/
def ofList (files : List (String × String)) : TextFiles :=
  files.foldl (fun done (name, text) => insert name text done) []

def get? (files : TextFiles) (name : String) : Option String := files.lookup name

end TextFiles

end SchemaGate
