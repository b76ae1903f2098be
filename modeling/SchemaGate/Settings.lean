import SchemaGate.Generation.Policy
import SchemaGate.Plan
import SchemaGate.Render.Options
import SchemaGate.Toml.Reader

/-!
# Settings

What a project sets once for all its commands, in three tables of a TOML document. Every setting may
be left out; what a command is given by hand takes the place of what is set.

* `Settings`, with their values where nothing is set
* `Settings.parse?`, which reads a document, and `Settings.document`, one that sets the defaults
* `Settings.check`, the one rule on values beyond their types
* `Overrides` and `Settings.override`
-/

namespace SchemaGate

/-- Where schema files are written, and which. -/
structure OutputSettings where
  /-- The directory of the schema files. -/
  dir : String := "./prisma"
  /-- The extension of planned filenames. -/
  extension : String := Plan.defaultExtension
  /-- Whether a file with the data source is written too. -/
  datasource : Bool := true
  deriving DecidableEq, Repr, Inhabited

/-- The bounds on the calls to a producer, which are only checked once they are used. -/
structure GenerationSettings where
  maxAttempts : Nat := 3
  timeoutMs : Nat := 120000
  retryDelayMs : Nat := 0
  deriving DecidableEq, Repr, Inhabited

structure Settings where
  output : OutputSettings := {}
  rendering : RenderOptions := {}
  generation : GenerationSettings := {}
  deriving DecidableEq, Repr, Inhabited

/-! ## Reading -/

def OutputSettings.ofToml? (t : Toml) : Option OutputSettings := do
  let field ← t.fields? ["dir", "extension", "datasource"]
  let default : OutputSettings := {}
  return { dir := ← Toml.withDefault default.dir Toml.text? (field "dir")
           extension := ← Toml.withDefault default.extension Toml.text? (field "extension")
           datasource := ← Toml.withDefault default.datasource Toml.bool? (field "datasource") }

def RenderOptions.ofToml? (t : Toml) : Option RenderOptions := do
  let field ← t.fields? ["provider", "comments"]
  let default : RenderOptions := {}
  let readProvider := fun t => (Toml.enumName? t).bind Provider.ofWireName?
  return { provider := ← Toml.withDefault default.provider readProvider (field "provider")
           comments := ← Toml.withDefault default.comments Toml.bool? (field "comments") }

/-- Reads the generation settings. Attempts are a word of 32 bits, times one of 64. -/
def GenerationSettings.ofToml? (t : Toml) : Option GenerationSettings := do
  let field ← t.fields? ["max_attempts", "timeout_ms", "retry_delay_ms"]
  let default : GenerationSettings := {}
  let number := fun bits value => Toml.withDefault value (Toml.natOfBits? bits)
  return { maxAttempts := ← number 32 default.maxAttempts (field "max_attempts")
           timeoutMs := ← number 64 default.timeoutMs (field "timeout_ms")
           retryDelayMs := ← number 64 default.retryDelayMs (field "retry_delay_ms") }

namespace Settings

def ofToml? (t : Toml) : Option Settings := do
  let field ← t.fields? ["output", "render", "generation"]
  return { output := ← Toml.withDefault {} OutputSettings.ofToml? (field "output")
           rendering := ← Toml.withDefault {} RenderOptions.ofToml? (field "render")
           generation := ← Toml.withDefault {} GenerationSettings.ofToml? (field "generation") }

def parse? (s : String) : Option Settings := (Toml.parse? s).bind ofToml?

/-- The file that settings are read from where no other is given. -/
def usualPath : String := "prisma-ir.toml"

/-- The document that sets every default, with a comment on each. -/
def document : String := "# prisma-ir configuration file

[output]
# Output directory for rendered schema files
dir = \"./prisma\"

# Extension of planned schema filenames (schema-01-actors.prisma)
extension = \"prisma\"

# Whether to also write main.prisma with the generator and datasource blocks
datasource = true

[render]
# Target database provider (postgresql, sqlite)
provider = \"postgresql\"

# Whether to emit /// documentation comments from model and field descriptions
comments = true

[generation]
# Attempts per component before the component is reported as failed
max_attempts = 3

# Timeout of a single producer call, in milliseconds
timeout_ms = 120000

# Pause between attempts, in milliseconds
retry_delay_ms = 0
"

/-! ## Using -/

/-- Whether the settings can be used: filenames end in the extension, so it must be one. -/
def check (s : Settings) : Bool := Text.isExtension s.output.extension.toList

/-- The retry policy that is set, or the first bound that the settings break. -/
def policy (s : Settings) : Except PolicyError RetryPolicy :=
  RetryPolicy.make s.generation.maxAttempts s.generation.timeoutMs s.generation.retryDelayMs

end Settings

/-! ## Overriding -/

/-- Settings that one command is given by hand. -/
structure Overrides where
  dir : Option String := none
  extension : Option String := none
  datasource : Option Bool := none
  provider : Option Provider := none
  comments : Option Bool := none
  maxAttempts : Option Nat := none
  timeoutMs : Option Nat := none
  deriving DecidableEq, Repr, Inhabited

/-- Puts what is given by hand in place of what is set. -/
def Settings.override (s : Settings) (o : Overrides) : Settings :=
  { output :=
      { dir := o.dir.getD s.output.dir
        extension := o.extension.getD s.output.extension
        datasource := o.datasource.getD s.output.datasource }
    rendering :=
      { provider := o.provider.getD s.rendering.provider
        comments := o.comments.getD s.rendering.comments }
    generation :=
      { s.generation with
        maxAttempts := o.maxAttempts.getD s.generation.maxAttempts
        timeoutMs := o.timeoutMs.getD s.generation.timeoutMs } }

end SchemaGate
