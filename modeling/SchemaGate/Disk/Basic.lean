import SchemaGate.Disk.Error
import SchemaGate.Disk.Path

/-!
# Disks

A disk is a tree of directories and files below the working directory, kept as the list of what is
where. `..` at the top leads nowhere, and a path from the root starts at the top.

* `Disk.walk`, the location that a path leads to
* `Disk.read`, `write`, `createDirs`, `names` and `remove`, the operations on paths
-/

namespace SchemaGate

/-- What a file holds. -/
inductive Disk.Content where
  | text (s : String)
  /-- Bytes that are no UTF-8. -/
  | bytes (bs : List Nat)
  deriving DecidableEq, Repr, Inhabited

/-- What may be at a location. -/
inductive Disk.Node where
  | dir
  | file (content : Disk.Content)
  deriving DecidableEq, Repr, Inhabited

/-- The names on the way from the top. -/
abbrev Disk.Location := List String

/-- A disk: what is at each location but the top. -/
structure Disk where
  nodes : List (Disk.Location × Disk.Node) := []
  deriving DecidableEq, Repr, Inhabited

namespace Disk

/-! ## Locations -/

/-- What is at a location. The top is a directory. -/
def node? (d : Disk) (loc : Location) : Option Node :=
  if loc = [] then some .dir else d.nodes.lookup loc

/-- Puts something at a location, in place of what was there. -/
def put (loc : Location) (node : Node) (d : Disk) : Disk :=
  match d.nodes.lookup loc with
  | none => ⟨d.nodes ++ [(loc, node)]⟩
  | some _ => ⟨d.nodes.map fun (l, n) => if l = loc then (l, node) else (l, n)⟩

/-- The most bytes that a name may have. -/
def maxNameBytes : Nat := 255

/-- Where one part leads from a directory. -/
def step (loc : Location) (part : String) : Except DiskError Location :=
  if part = "" ∨ part = "." then .ok loc
  else if part = ".." then .ok loc.dropLast
  else if maxNameBytes < part.utf8ByteSize then .error .nameTooLong
  else .ok (loc ++ [part])

/-- Where parts lead from a location. There need not be anything at the last one, but every location
on the way must be a directory. -/
def walkFrom (d : Disk) : Location → List String → Except DiskError Location
  | loc, [] => .ok loc
  | loc, part :: rest =>
    match d.node? loc with
    | some .dir => (step loc part).bind fun next => d.walkFrom next rest
    | some (.file _) => .error .notADirectory
    | none => .error .notFound

def walk (d : Disk) (path : String) : Except DiskError Location :=
  if path = "" then .error .notFound
  else if path.toList.contains '\x00' then .error .nulInName
  else d.walkFrom [] (Path.parts path)

def find? (d : Disk) (path : String) : Option Node := (d.walk path).toOption.bind d.node?

/-! ## Reading -/

def isPresent (d : Disk) (path : String) : Bool := (d.find? path).isSome

def isDirectory (d : Disk) (path : String) : Bool := d.find? path == some .dir

def isFile (d : Disk) (path : String) : Bool := d.isPresent path && !d.isDirectory path

def read (d : Disk) (path : String) : Except DiskError String := do
  match d.node? (← d.walk path) with
  | some (.file (.text s)) => .ok s
  | some (.file (.bytes _)) => .error .notText
  | some .dir => .error .isADirectory
  | none => .error .notFound

/-- The name of a location that stands directly in a directory. -/
def nameIn? (dir loc : Location) : Option String :=
  match loc.getLast? with
  | some name => if loc.dropLast = dir then some name else none
  | none => none

def names (d : Disk) (path : String) : Except DiskError (List String) := do
  let dir ← d.walk path
  match d.node? dir with
  | some .dir => .ok (d.nodes.filterMap fun (l, _) => nameIn? dir l)
  | some (.file _) => .error .notADirectory
  | none => .error .notFound

/-! ## Writing -/

/-- Writes a file, in place of what it held. -/
def writeContent (path : String) (content : Content) (d : Disk) : Except DiskError Disk := do
  let loc ← d.walk path
  match d.node? loc with
  | some .dir => .error .isADirectory
  | _ => .ok (d.put loc (.file content))

def write (path text : String) (d : Disk) : Except DiskError Disk :=
  d.writeContent path (.text text)

/-- Creates the directories that are missing on the way of parts from a directory. Those created
before an error stay. -/
def createFrom (d : Disk) : Location → List String → Except DiskError Unit × Disk
  | _, [] => (.ok (), d)
  | loc, part :: rest =>
    match step loc part with
    | .error e => (.error e, d)
    | .ok next =>
      match d.node? next with
      | some .dir => d.createFrom next rest
      | some (.file _) => (.error (if rest.isEmpty then .alreadyExists else .notADirectory), d)
      | none => (d.put next .dir).createFrom next rest

/-- Creates a directory with those on the way to it. The empty path needs none. -/
def createDirs (path : String) (d : Disk) : Except DiskError Unit × Disk :=
  if path.toList.contains '\x00' then (.error .nulInName, d) else d.createFrom [] (Path.parts path)

/-- Removes what is at a path, with all below it. -/
def remove (path : String) (d : Disk) : Disk :=
  match d.walk path with
  | .ok loc => ⟨d.nodes.filter fun (l, _) => !(loc.isPrefixOf l)⟩
  | .error _ => d

def files (d : Disk) : List (Location × Content) :=
  d.nodes.filterMap fun (l, n) => match n with
    | .file content => some (l, content)
    | .dir => none

end Disk

end SchemaGate
