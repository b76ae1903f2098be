import SchemaGate.Command.Error

/-!
# Input

The files that commands read: settings, JSON documents, requirements and recorded candidates.

* `Settings.load`, where a path given by hand must exist and the usual one need not
* `Input.text` and `Input.document`
* `Input.recordings`, the candidates in a directory
-/

namespace SchemaGate

variable {m : Type → Type} [Monad m] [Storage m]

/-! ## Settings -/

namespace Settings

/-- The settings of a document, where they can be used. -/
def ofDocument (path text : String) : Except SettingsError Settings :=
  match parse? text with
  | none => .error (.invalidToml path)
  | some settings =>
    if settings.check then .ok settings else .error (.invalidExtension settings.output.extension)

/-- Reads the settings of a file that is there. -/
def read (path : String) : m (Except SettingsError Settings) := do
  match ← Storage.read path with
  | .error e => return .error (.io path e)
  | .ok text => return ofDocument path text

/-- Reads the settings of the file that is given, or of the usual one. Without that they are the
defaults. -/
def load (given : Option String) : m (Except SettingsError Settings) := do
  let path := given.getD usualPath
  if ← Storage.isPresent path then read path
  else match given with
    | some path => return .error (.notFound path)
    | none => return .ok {}

end Settings

/-! ## Documents -/

namespace Input

def text (path : String) : m (Except InputError String) := do
  if ← Storage.isPresent path then return (← Storage.read path).mapError (.io path)
  else return .error (.notFound path)

/-- The value of a document's text. -/
def decode {α : Type} (read : Json → Option α) (path text : String) : Except InputError α :=
  match (Json.parse? text).bind read with
  | some a => .ok a
  | none => .error (.invalidJson path)

def document {α : Type} (read : Json → Option α) (path : String) : m (Except InputError α) := do
  return (← text path).bind (decode read path)

/-- Reads the requirements, which are empty where no file is given. -/
def requirements : Option String → m (Except InputError String)
  | none => return .ok ""
  | some path => text path

/-! ## Recorded candidates -/

/-- The path of the candidate recorded for a component. -/
def candidatePath (dir : String) (c : Component) : String := Path.join dir (c.filename ++ ".json")

/-- Adds the recorded candidates of components to those read so far. A component without a file has
none. -/
def recordAll (dir : String) : Recordings → List Component → m (Except InputError Recordings)
  | done, [] => return .ok done
  | done, c :: rest => do
    let path := candidatePath dir c
    if ← Storage.isPresent path then
      match ← text path with
      | .ok text => recordAll dir (done.record c.filename text) rest
      | .error e => return .error e
    else recordAll dir done rest

/-- Reads the candidates of components that are recorded in a directory. They are decoded once a
producer gives them. -/
def recordings (dir : String) (components : List Component) :
    m (Except InputError Recordings) := do
  if ← Storage.isDirectory dir then recordAll dir [] components
  else return .error (.notFound dir)

end Input

end SchemaGate
