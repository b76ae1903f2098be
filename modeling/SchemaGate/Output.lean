import SchemaGate.Disk.Storage
import SchemaGate.Render.TextFiles

/-!
# Output

Rendered files are written into one directory. A file that already holds its text is left alone, and
schema files in the directory that the rendering did not produce are reported as stale.

* `OutputDirectory.write`, which writes the files in the order of their names up to the first
  failure
* `writeDocument`, for a single text with a path of its own
-/

namespace SchemaGate

/-- Why output is not written. -/
inductive WriteError where
  /-- The directory cannot be created. -/
  | directory (path : String) (reason : DiskError)
  /-- A file cannot be written. -/
  | file (path : String) (reason : DiskError)
  /-- What a file held before cannot be read. -/
  | existing (path : String) (reason : DiskError)
  /-- The directory cannot be listed. -/
  | listing (path : String) (reason : DiskError)
  deriving DecidableEq, Repr, Inhabited

def WriteError.message : WriteError → String
  | directory path reason => s!"Failed to create directory {path}: {reason.message}"
  | file path reason => s!"Failed to write file {path}: {reason.message}"
  | existing path reason => s!"Failed to read existing file {path}: {reason.message}"
  | listing path reason => s!"Failed to list directory {path}: {reason.message}"

/-- What became of a rendered file. -/
inductive FileStatus where
  /-- There was none before. -/
  | created
  /-- It held another text before. -/
  | updated
  /-- It held its text already and was not written. -/
  | unchanged
  /-- Nothing was written, as it was not to be. -/
  | planned
  deriving DecidableEq, Repr, Inhabited

def FileStatus.isChange : FileStatus → Bool
  | created => true
  | updated => true
  | unchanged => false
  | planned => false

/-- A rendered file and where it belongs. -/
structure OutputFile where
  filename : String
  path : String
  text : String
  status : FileStatus
  deriving DecidableEq, Repr, Inhabited

/-- What became of a rendering. -/
structure OutputReport where
  /-- The files in the order of their names. -/
  files : List OutputFile
  /-- The paths of schema files that were not rendered, in order. -/
  stale : List String
  deriving DecidableEq, Repr, Inhabited

def OutputReport.changed (r : OutputReport) : List OutputFile := r.files.filter (·.status.isChange)

/-- A directory of schema files with an extension. -/
structure OutputDirectory where
  dir : String
  extension : String
  deriving DecidableEq, Repr, Inhabited

def writeFile {m : Type → Type} [Monad m] [Storage m] (path text : String) :
    m (Except WriteError Unit) := do
  return (← Storage.write path text).mapError (.file path)

namespace OutputDirectory

variable {m : Type → Type} [Monad m] [Storage m]

/-- A rendered file of the directory that is not written. -/
def planned (o : OutputDirectory) (file : String × String) : OutputFile :=
  { filename := file.1, path := Path.join o.dir file.1, text := file.2, status := .planned }

/-- Writes a text to a path unless it is there already. -/
def place (path text : String) : m (Except WriteError FileStatus) := do
  match ← Storage.read path with
  | .ok existing =>
    if existing = text then return .ok .unchanged
    else return (← writeFile path text).map fun _ => .updated
  | .error .notFound => return (← writeFile path text).map fun _ => .created
  | .error e => return .error (.existing path e)

/-- Writes files one after another up to the first failure. -/
def placeAll (o : OutputDirectory) : TextFiles → m (Except WriteError (List OutputFile))
  | [] => return .ok []
  | file :: rest => do
    let planned := o.planned file
    match ← place planned.path planned.text with
    | .error e => return .error e
    | .ok status => return (← o.placeAll rest).map ({ planned with status } :: ·)

/-- Whether a name in the directory is that of a schema file. -/
def hasExtension (o : OutputDirectory) (name : String) : Bool :=
  Path.extension? name == some o.extension

/-- The paths of the files that a list of names in the directory leads to. -/
def filePaths (o : OutputDirectory) : List String → m (List String)
  | [] => return []
  | name :: rest => do
    let path := Path.join o.dir name
    let isFile ← Storage.isFile path
    let paths ← o.filePaths rest
    return if isFile then path :: paths else paths

/-- The schema files in the directory that were not rendered. Where there is no directory there are
none. -/
def staleFiles (o : OutputDirectory) (rendered : TextFiles) :
    m (Except WriteError (List String)) := do
  match ← Storage.names o.dir with
  | .ok names =>
    let strays := names.filter fun name => o.hasExtension name && (rendered.get? name).isNone
    return .ok ((← o.filePaths strays).mergeSort fun a b => decide (a ≤ b))
  | .error .notFound => return .ok []
  | .error e => return .error (.listing o.dir e)

/-- The report of files that have been dealt with. -/
def reportOn (o : OutputDirectory) (rendered : TextFiles) (files : List OutputFile) :
    m (Except WriteError OutputReport) := do
  return (← o.staleFiles rendered).map ({ files, stale := · })

/-- Writes rendered files into the directory, which is created. Those before a failure stay. -/
def write (o : OutputDirectory) (rendered : TextFiles) : m (Except WriteError OutputReport) := do
  match ← Storage.createDirs o.dir with
  | .error e => return .error (.directory o.dir e)
  | .ok () => match ← o.placeAll rendered with
    | .error e => return .error e
    | .ok files => o.reportOn rendered files

/-- Reports what would be written, and writes nothing. -/
def dryRun (o : OutputDirectory) (rendered : TextFiles) : m (Except WriteError OutputReport) :=
  o.reportOn rendered (rendered.map o.planned)

end OutputDirectory

/-- Writes a single text, and creates the directory that it stands in. -/
def writeDocument {m : Type → Type} [Monad m] [Storage m] (path text : String) :
    m (Except WriteError Unit) := do
  match Path.parent? path with
  | none => writeFile path text
  | some "" => writeFile path text
  | some dir => match ← Storage.createDirs dir with
    | .error e => return .error (.directory dir e)
    | .ok () => writeFile path text

end SchemaGate
