import SchemaGate.Command.Error

/-!
# Workflows

What the commands do with what they have read, under the settings of a project and without a disk.

* `Settings.plan`, from tables and hints to components
* `Settings.render`, from an application and its components to the files to write
* `Settings.generate` and `Settings.outputOf`, from components and a producer to the files to write
-/

namespace SchemaGate

/-- Checks components against the tables that are required, or where there is no list of those
against each other. -/
def checkComponents (components : List Component) (tables : Option (List String)) :
    Except CommandError Unit :=
  (Plan.check components tables).mapError .planning

namespace Settings

def plan (s : Settings) (tables : List String) (hints : List DomainHint) :
    Except CommandError (List Component) :=
  (Plan.ofHints s.output.extension tables hints).mapError .planning

/-- The files of an accepted application, with that of the data source where it is set. -/
def outputs {scope : Scope} (s : Settings) (whole : Accepted scope) : TextFiles :=
  let files := whole.render s.rendering
  if s.output.datasource then
    files.insert datasourceFilename s.rendering.provider.datasource
  else files

def render (s : Settings) (app : Application) (components : List Component) :
    Except CommandError TextFiles :=
  match Scope.validate ⟨components, []⟩ app with
  | .ok whole => .ok (s.outputs whole)
  | .error violations => .error (.validation violations)

/-- Asks a producer for every component, once the components and the settings are found in order. -/
def generate {σ : Type} (s : Settings) (producer : Producer σ) (context : String)
    (components : List Component) (state : σ) :
    Except CommandError (GenerationReport components) := do
  checkComponents components none
  let policy ← s.policy.mapError .policy
  return (generateAll producer policy context components state).1

/-- The files that a report of a generation leads to, or why there are none. -/
def outputOf {components : List Component} (s : Settings) (report : GenerationReport components) :
    Except CommandError TextFiles :=
  match report.assembly with
  | .rejected violations => .error (.validation violations)
  | .accepted whole => .ok (s.outputs whole)
  | .incomplete => .error (.generation (report.failures.map (·.component)) report.outcomes.length)

end Settings

end SchemaGate
