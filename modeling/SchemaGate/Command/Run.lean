import SchemaGate.Command.Arguments
import SchemaGate.Command.Input
import SchemaGate.Command.Transcript
import SchemaGate.Json.Writer
import SchemaGate.Workflow

/-!
# Running commands

Each command reads its input, works on it and says what it does. It runs in any monad with a disk
and ends in a transcript and an exit code.

* `Command.act`, what a command does, up to the first error
* `runCommandLine`, from arguments to exit code
-/

namespace SchemaGate

/-- A command at work: on a disk, saying things, until an error ends it. -/
abbrev Act (m : Type → Type) := ExceptT CommandError (StateT Transcript m)

namespace Act

variable {m : Type → Type} [Monad m] {ε α : Type}

def emit (stream : Stream) (text : String) : Act m Unit := modify (· ++ [(stream, text)])

def say (line : String) : Act m Unit := emit .output (line ++ "\n")

def note (line : String) : Act m Unit := emit .error (line ++ "\n")

/-- Goes on with a value, or ends with a cause of its own kind. -/
def expect (cause : ε → CommandError) (result : Except ε α) : Act m α :=
  match result with
  | .ok a => pure a
  | .error e => throw (cause e)

/-- Does something on the disk, and goes on with its value or ends. -/
def attempt (cause : ε → CommandError) (action : m (Except ε α)) : Act m α := do
  expect cause (← action)

end Act

namespace Command

open Act

variable {m : Type → Type} [Monad m] [Storage m]

/-! ## Reading -/

/-- The settings of a file under what is given by hand. The extension is checked once more, as it
may be given. -/
def loadSettings (path : Option String) (overrides : Overrides) : Act m Settings := do
  let settings := (← attempt .settings (Settings.load path)).override overrides
  if settings.check then return settings
  else throw (.settings (.invalidExtension settings.output.extension))

def loadTables (path : String) : Act m (List String) :=
  attempt .input (Input.document (Json.list? Json.text?) path)

def loadComponents (path : String) : Act m (List Component) :=
  attempt .input (Input.document Component.listOfJson? path)

def loadApplication (path : String) : Act m Application :=
  attempt .input (Input.document Application.ofJson? path)

/-! ## Output -/

/-- The rule above and below a file that is shown. -/
def ruler : String := String.ofList (List.replicate 60 '─')

def sayFile (file : OutputFile) : Act m Unit := do
  let written := say s!"✓ Written {file.text.utf8ByteSize} bytes to {file.path}"
  match file.status with
  | .created => written
  | .updated => written
  | .unchanged => say s!"· Unchanged {file.path}"
  | .planned =>
    say s!"[dry-run] Would write to {file.path}:"
    say ruler
    emit .output file.text
    say ruler

/-- Writes files into the output directory, or shows what would be written, and says so. -/
def deliver (settings : Settings) (files : TextFiles) (dryRun : Bool) : Act m Unit := do
  let directory : OutputDirectory := ⟨settings.output.dir, settings.output.extension⟩
  let report ← attempt .write (if dryRun then directory.dryRun files else directory.write files)
  report.files.forM sayFile
  report.stale.forM fun path =>
    say s!"! {path} is not part of this schema; remove it before running prisma"

/-! ## The commands -/

/-- Plans components, and writes them to a file or prints them. -/
def actPlan (tables hints : String) (output settings : Option String) : Act m Unit := do
  let settings ← attempt .settings (Settings.load settings)
  let tables ← loadTables tables
  let hints ← attempt .input (Input.document DomainHint.listOfJson? hints)
  note s!"Planning {tables.length} table(s) across {hints.length} domain(s)..."
  let components ← expect id (settings.plan tables hints)
  let document := (Component.listToJson components).pretty
  match output with
  | none => say document
  | some path =>
    attempt .write (writeDocument path (document ++ "\n"))
    note s!"✓ Planned {components.length} component(s) into {path}"

/-- Validates an application and prints its violations, or a report as a document. -/
def actCheck (application components : String) (tables : Option String) (json : Bool) :
    Act m Unit := do
  let application ← loadApplication application
  let components ← loadComponents components
  match tables with
  | none => pure ()
  | some tables => expect id (checkComponents components (some (← loadTables tables)))
  let result := Scope.validate ⟨components, []⟩ application
  if json then say (Report.ofResult result).toJson.pretty
  else
    say "Validating application..."
    match result with
    | .ok whole =>
      let app := whole.application
      say s!"✓ {app.files.length} file(s), {app.models.length} model(s) valid"
    | .error violations =>
      say s!"✗ {violations.length} violation(s)"
      violations.forM fun v => say s!"  [{v.kind.name}] {v.path.text}\n      {v.message}"
  discard (expect .validation result)

/-- Validates an application and writes its schema files. -/
def actRender (application components : String) (overrides : Overrides) (dryRun : Bool)
    (settings : Option String) : Act m Unit := do
  let settings ← loadSettings settings overrides
  let application ← loadApplication application
  let components ← loadComponents components
  say "Validating application..."
  let whole ← expect .validation (Scope.validate ⟨components, []⟩ application)
  let app := whole.application
  say s!"  {app.models.length} model(s) in {app.files.length} file(s)"
  say s!"Rendering Prisma schema... ({settings.rendering.provider.name})"
  deliver settings (settings.outputs whole) dryRun

def outcomeLine (c : Component) : Except GenerationError SchemaFile → String
  | .ok file => s!"  ✓ {c.filename} ({file.models.length} model(s))"
  | .error e => s!"  ✗ {e.message}"

/-- Generates an application from recorded candidates and writes its schema files. -/
def actGenerate (components candidates : String) (context : Option String) (overrides : Overrides)
    (dryRun : Bool) (settings : Option String) : Act m Unit := do
  let settings ← loadSettings settings overrides
  let components ← loadComponents components
  let context ← attempt .input (Input.requirements context)
  let recordings ← attempt .input (Input.recordings candidates components)
  let attempts := settings.generation.maxAttempts
  say s!"Generating {components.length} component(s), up to {attempts} attempt(s) each..."
  let report ← expect id (settings.generate (Producer.replay recordings) context components ())
  report.outcomes.forM fun (c, outcome) => say (outcomeLine c outcome)
  deliver settings (← expect id (settings.outputOf report)) dryRun

def actInit (output : String) (force : Bool) : Act m Unit := do
  if (← (Storage.isPresent output : m Bool)) && !force then throw (.alreadyExists output)
  attempt .io (Storage.write output Settings.document)
  say s!"✓ Created configuration file: {output}"

def act : Command → Act m Unit
  | plan tables hints output settings => actPlan tables hints output settings
  | check application components tables json => actCheck application components tables json
  | render application components overrides dryRun settings =>
    actRender application components overrides dryRun settings
  | generate components candidates context overrides dryRun settings =>
    actGenerate components candidates context overrides dryRun settings
  | init output force => actInit output force

end Command

/-! ## The command line -/

structure Ending where
  exitCode : Nat
  transcript : Transcript
  deriving DecidableEq, Repr, Inhabited

def usageExitCode : Nat := 2

def versionLine : String := "prisma-ir 0.1.0\n"

/-- The text on how the program is called. -/
def usageText : String := "Plan, validate and render Prisma schemas

Usage: prisma-ir [-v] <command> [options]

Commands:
  plan      --tables <path> --hints <path> [--output <path>] [--config <path>]
  check     --app <path> --components <path> [--tables <path>] [--json]
  render    --app <path> --components <path> [--output <path>] [--dry-run]
            [--provider <name>] [--no-comments] [--config <path>]
  generate  --components <path> --candidates <path> [--context <path>] [--output <path>]
            [--dry-run] [--max-attempts <number>] [--config <path>]
  init      [--output <path>] [--force]
"

/-- The ending of arguments that lead to no command. -/
def Arguments.Stop.ending : Arguments.Stop → Ending
  | usage => ⟨usageExitCode, [(.error, usageText)]⟩
  | help => ⟨0, [(.output, usageText)]⟩
  | version => ⟨0, [(.output, versionLine)]⟩

/-- Runs a command. An error is said last and decides the exit code. -/
def Command.run {m : Type → Type} [Monad m] [Storage m] (c : Command) : m Ending := do
  match ← (c.act (m := m)).run.run [] with
  | (.ok (), transcript) => return ⟨0, transcript⟩
  | (.error e, transcript) =>
    return ⟨e.exitCode, transcript ++ [(.error, s!"Error: {e.message}\n")]⟩

/-- Runs the command that arguments ask for. -/
def runCommandLine {m : Type → Type} [Monad m] [Storage m] (args : List String) : m Ending :=
  match Command.ofArguments args with
  | .ok command => command.run
  | .error stop => return stop.ending

end SchemaGate
