import SchemaGate.Text.Blank

/-!
# Paths

A path is a text whose parts stand between slashes. It is kept as it was written: an empty part or a
`.` leads nowhere, and only a walk on the disk knows where `..` leads.

* `Path.join`, the path of a name in a directory
* `Path.parent?`, the path of the directory that the last part stands in
* `Path.extension?` of a file's name
-/

namespace SchemaGate.Path

def parts (path : String) : List String := (Text.split '/' path.toList).map String.ofList

/-- The path of a name in a directory. A name that starts at the root is a path of its own. -/
def join (dir name : String) : String :=
  if name.toList.head? = some '/' ∨ dir = "" then name
  else if dir.toList.getLast? = some '/' then dir ++ name
  else dir ++ "/" ++ name

/-- Drops the parts at the end that lead nowhere, but not the first part. -/
def trimParts (ps : List String) : List String :=
  ps.take 1 ++ ((ps.drop 1).reverse.dropWhile fun p => p == "" || p == ".").reverse

/-- The path of the directory that the last part of a path stands in. An empty path and the root
stand in none, a single part in the one of the empty path. -/
def parent? (path : String) : Option String :=
  match trimParts (parts path) with
  | [""] => none
  | ps => match trimParts ps.dropLast with
    | [""] => some "/"
    | dir => some ("/".intercalate dir)

/-- The extension of a file's name: what follows its last dot, unless the name starts with that. -/
def extension? (name : String) : Option String :=
  match Text.split '.' name.toList with
  | [_] => none
  | [[], _] => none
  | pieces => pieces.getLast?.map String.ofList

end SchemaGate.Path
