import SchemaGate.Command.Run

/-!
# The program

Runs the command line on the disk of the system.
-/

namespace SchemaGate

/-- The reason behind a failure of the system. -/
def DiskError.ofIO : IO.Error → DiskError
  | .noFileOrDirectory .. => .notFound
  | e => .other (toString e)

/-- Runs an action of the system, and catches its failure. -/
def attemptIO {α : Type} (action : IO α) : IO (Except DiskError α) := do
  match ← action.toBaseIO with
  | .ok a => return .ok a
  | .error e => return .error (.ofIO e)

def succeeds {α : Type} (action : IO α) : IO Bool := do return (← attemptIO action).isOk

def readSystemFile (path : String) : IO (Except DiskError String) := do
  return (← attemptIO (IO.FS.readBinFile path)).bind fun bytes =>
    match String.fromUTF8? bytes with
    | some text => .ok text
    | none => .error .notText

def systemNames (path : String) : IO (Except DiskError (List String)) := do
  let place : IO.FS.DirEntry := { root := path, fileName := "" }
  attemptIO (do return (← place.root.readDir).toList.map (·.fileName))

def isSystemDirectory (path : String) : IO Bool := do return (← systemNames path).isOk

instance : Storage IO where
  isPresent path := do
    return (← isSystemDirectory path) || (← succeeds (IO.FS.Handle.mk path .read))
  isDirectory := isSystemDirectory
  isFile path := do
    return !(← isSystemDirectory path) && (← succeeds (IO.FS.Handle.mk path .read))
  read := readSystemFile
  names := systemNames
  write path text := attemptIO (IO.FS.writeFile path text)
  createDirs path := if path = "" then return .ok () else attemptIO (IO.FS.createDirAll path)

/-- Runs the command line and says its transcript. The value is the exit code. -/
def process (args : List String) : IO UInt32 := do
  let ending ← runCommandLine args
  for (stream, text) in ending.transcript do
    match stream with
    | .output => IO.print text
    | .error => IO.eprint text
  return ending.exitCode.toUInt32

end SchemaGate

def main (args : List String) : IO UInt32 := SchemaGate.process args
