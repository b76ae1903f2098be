import SchemaGate.Generation
import SchemaGate.Output
import SchemaGate.Plan.Error
import SchemaGate.Settings

/-!
# Command errors

Everything that ends a command early, with its text and the exit code of the process: input that
rules refuse is told apart from input that cannot be used.
-/

namespace SchemaGate

/-- Why there are no settings. -/
inductive SettingsError where
  | notFound (path : String)
  /-- The file is no document of settings. -/
  | invalidToml (path : String)
  /-- The extension is not one that filenames may have. -/
  | invalidExtension (extension : String)
  | io (path : String) (reason : DiskError)
  deriving DecidableEq, Repr, Inhabited

def SettingsError.message : SettingsError → String
  | notFound path => s!"Configuration file not found: {path}"
  | invalidToml path => s!"Invalid TOML in {path}: not a document of settings\n"
  | invalidExtension extension =>
    s!"Invalid configuration value for 'output.extension': '{extension}' must be non-empty " ++
      "lowercase ASCII letters"
  | io path reason => s!"Failed to read config {path}: {reason.message}"

/-- Why an input cannot be read. -/
inductive InputError where
  | notFound (path : String)
  /-- The file is no JSON document of what is wanted. -/
  | invalidJson (path : String)
  | io (path : String) (reason : DiskError)
  deriving DecidableEq, Repr, Inhabited

def InputError.message : InputError → String
  | notFound path => s!"Input file not found: {path}"
  | invalidJson path => s!"Invalid JSON in {path}: not the document that is wanted"
  | io path reason => s!"Failed to read {path}: {reason.message}"

/-- Why a command ends early. -/
inductive CommandError where
  | settings (e : SettingsError)
  | input (e : InputError)
  | write (e : WriteError)
  | planning (errors : List PlanningError)
  | validation (violations : List Violation)
  /-- Of this many components these have no file. -/
  | generation (failed : List String) (total : Nat)
  | policy (e : PolicyError)
  /-- A file is in the way that is not to be replaced. -/
  | alreadyExists (path : String)
  | io (reason : DiskError)
  deriving DecidableEq, Repr, Inhabited

namespace CommandError

def message : CommandError → String
  | settings e => s!"Failed to load configuration: {e.message}"
  | input e => s!"Failed to read input: {e.message}"
  | write e => s!"Failed to write output: {e.message}"
  | planning errors => PlanningError.listMessage errors
  | validation violations => Violation.listText violations
  | generation failed total =>
    s!"Generation failed: {failed.length} of {total} component(s) failed: " ++
      ", ".intercalate failed
  | policy e => s!"Invalid generation settings: {e.message}"
  | alreadyExists path => s!"File already exists: {path} (use --force to overwrite)"
  | io reason => s!"IO error: {reason.message}"

/-- The exit code of the process: 2 where rules refuse what was read, else 1. -/
def exitCode : CommandError → Nat
  | planning _ => 2
  | validation _ => 2
  | generation _ _ => 2
  | _ => 1

end CommandError

end SchemaGate
