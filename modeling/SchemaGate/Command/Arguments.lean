import SchemaGate.Render.Options
import SchemaGate.Settings

/-!
# Arguments

The command line: options of the program, the name of a command, and options of that command. An
option has a long name and perhaps a letter. Its value is the next argument, or stands behind an
equals sign or directly behind the letter; letters may share one hyphen.

* `Command`, a command with what it is given
* `Arguments.readOptions`, the options at the front of a list of arguments
* `Command.ofArguments`, the command, or why there is none
-/

namespace SchemaGate

/-- A command with what it is given. All texts but those in overrides are paths. -/
inductive Command where
  /-- Plans the components of tables, and writes them to a file or prints them. -/
  | plan (tables hints : String) (output settings : Option String)
  /-- Validates an application, and may check its components against tables first. -/
  | check (application components : String) (tables : Option String) (json : Bool)
  /-- Validates an application and writes its schema files. -/
  | render (application components : String) (overrides : Overrides) (dryRun : Bool)
    (settings : Option String)
  /-- Generates an application from recorded candidates and writes its schema files. -/
  | generate (components candidates : String) (context : Option String) (overrides : Overrides)
    (dryRun : Bool) (settings : Option String)
  /-- Writes a file that sets the defaults. -/
  | init (output : String) (force : Bool)
  deriving DecidableEq, Repr, Inhabited

namespace Arguments

/-! ## Options -/

/-- What value an option takes. -/
inductive Value where
  /-- It has none. -/
  | flag
  /-- A path, which is not empty. -/
  | path
  /-- The name of a provider. -/
  | provider
  /-- A number of 32 bits, perhaps with a sign. -/
  | number
  deriving DecidableEq, Repr, Inhabited

/-- Why arguments lead to no command. -/
inductive Stop where
  /-- They are not understood. -/
  | usage
  /-- They ask for help. -/
  | help
  /-- They ask for the version. -/
  | version
  deriving DecidableEq, Repr, Inhabited

structure Spec where
  name : String
  letter : Option Char := none
  value : Value := .flag
  /-- What is asked for instead of a command. -/
  stop : Option Stop := none
  deriving DecidableEq, Repr, Inhabited

/-- The options that are given, by name, with their values. -/
abbrev Given := List (String × String)

/-- The number that a value spells. -/
def number? (value : String) : Option Nat :=
  let (negative, digits) := match value.toList with
    | '-' :: cs => (true, cs)
    | '+' :: cs => (false, cs)
    | cs => (false, cs)
  let n := Nat.ofDigitChars 10 digits 0
  if digits ≠ [] ∧ digits.all Char.isDigit ∧ n < Nat.pow 2 32 ∧ (negative → n = 0) then some n
  else none

/-- Whether an option takes a value. -/
def Value.admits : Value → String → Bool
  | .flag, _ => true
  | .path, value => value ≠ ""
  | .provider, value => (Provider.ofName? value).isSome
  | .number, value => (number? value).isSome

/-- Adds an option, which may be given once, to those given. -/
def add (given : Given) (spec : Spec) (value : String) : Except Stop Given :=
  if (given.lookup spec.name).isNone && spec.value.admits value then
    .ok (given ++ [(spec.name, value)])
  else .error .usage

/-- Whether an argument can be the value of the option before it: one that starts with a hyphen is
an option itself, unless it is only that. -/
def isValue (arg : String) : Bool := arg.toList.head? ≠ some '-' || arg = "-"

/-- Reads letters that share a hyphen. The last may be that of an option whose value is still to
come. -/
def readLetters (specs : List Spec) (given : Given) : List Char → Except Stop (Given × Option Spec)
  | [] => .ok (given, none)
  | c :: cs =>
    match specs.find? (·.letter == some c) with
    | none => .error .usage
    | some spec =>
      match spec.stop, spec.value, cs with
      | some stop, _, _ => .error stop
      | none, .flag, cs => do readLetters specs (← add given spec "") cs
      | none, _, [] => .ok (given, some spec)
      | none, _, '=' :: value => do return (← add given spec (String.ofList value), none)
      | none, _, value => do return (← add given spec (String.ofList value), none)

/-- Reads a long name with perhaps a value behind an equals sign. -/
def readName (specs : List Spec) (given : Given) (cs : List Char) :
    Except Stop (Given × Option Spec) :=
  let name := String.ofList (cs.takeWhile (· ≠ '='))
  match specs.find? (·.name == name) with
  | none => .error .usage
  | some spec =>
    match spec.stop, spec.value, cs.dropWhile (· ≠ '=') with
    | some stop, _, [] => .error stop
    | none, .flag, [] => do return (← add given spec "", none)
    | none, .flag, _ => .error .usage
    | none, _, [] => .ok (given, some spec)
    | none, _, _ :: value => do return (← add given spec (String.ofList value), none)
    | some _, _, _ => .error .usage

/-- Reads one argument that starts with a hyphen, given without that. -/
def readOption (specs : List Spec) (given : Given) : List Char → Except Stop (Given × Option Spec)
  | '-' :: name => readName specs given name
  | letters => readLetters specs given letters

/-- Reads the options at the front: those given, and the arguments from the first that is none. Two
hyphens end the options, and nothing may follow them. -/
def readOptions (specs : List Spec) : Given → List String → Except Stop (Given × List String)
  | given, [] => .ok (given, [])
  | given, arg :: rest =>
    if isValue arg then .ok (given, arg :: rest)
    else if arg = "--" then if rest.isEmpty then .ok (given, []) else .error .usage
    else
      match readOption specs given (arg.toList.drop 1), rest with
      | .error stop, _ => .error stop
      | .ok (given, none), rest => readOptions specs given rest
      | .ok (_, some _), [] => .error .usage
      | .ok (given, some spec), value :: rest =>
        if isValue value then
          match add given spec value with
          | .error stop => .error stop
          | .ok given => readOptions specs given rest
        else .error .usage

/-! ## Commands -/

def globalSpecs : List Spec :=
  [{ name := "verbose", letter := 'v' }, { name := "help", letter := 'h', stop := some .help }]

def programSpecs : List Spec :=
  globalSpecs ++ [{ name := "version", letter := 'V', stop := some .version }]

def settingsSpec : Spec := { name := "config", letter := 'c', value := .path }

def outputSpec : Spec := { name := "output", letter := 'o', value := .path }

/-- The options of the command of a name, besides the global ones. -/
def commandSpecs? : String → Option (List Spec)
  | "plan" => some [{ name := "tables", letter := 't', value := .path },
      { name := "hints", value := .path }, outputSpec, settingsSpec]
  | "check" => some [{ name := "app", letter := 'a', value := .path },
      { name := "components", value := .path }, { name := "tables", letter := 't', value := .path },
      { name := "json" }]
  | "render" => some [{ name := "app", letter := 'a', value := .path },
      { name := "components", value := .path }, outputSpec, { name := "dry-run" },
      { name := "provider", letter := 'p', value := .provider }, { name := "no-comments" },
      settingsSpec]
  | "generate" => some [{ name := "components", value := .path },
      { name := "candidates", value := .path }, { name := "context", value := .path }, outputSpec,
      { name := "dry-run" }, { name := "max-attempts", value := .number }, settingsSpec]
  | "init" => some [outputSpec, { name := "force" }]
  | _ => none

/-- The value of an option that must be given. -/
def Given.need (given : Given) (name : String) : Except Stop String :=
  match given.lookup name with
  | some value => .ok value
  | none => .error .usage

def Given.has (given : Given) (name : String) : Bool := (given.lookup name).isSome

/-- The command of a name with the options given. -/
def Given.command (given : Given) : String → Except Stop Command
  | "plan" => do
    return .plan (← given.need "tables") (← given.need "hints") (given.lookup "output")
      (given.lookup "config")
  | "check" => do
    return .check (← given.need "app") (← given.need "components") (given.lookup "tables")
      (given.has "json")
  | "render" => do
    let overrides : Overrides :=
      { dir := given.lookup "output"
        provider := (given.lookup "provider").bind Provider.ofName?
        comments := if given.has "no-comments" then some false else none }
    return .render (← given.need "app") (← given.need "components") overrides (given.has "dry-run")
      (given.lookup "config")
  | "generate" => do
    let overrides : Overrides :=
      { dir := given.lookup "output"
        maxAttempts := (given.lookup "max-attempts").bind number? }
    return .generate (← given.need "components") (← given.need "candidates")
      (given.lookup "context") overrides (given.has "dry-run") (given.lookup "config")
  | "init" => .ok (.init ((given.lookup "output").getD Settings.usualPath) (given.has "force"))
  | _ => .error .usage

/-- What asking for help on commands leads to. -/
def helpOn : List String → Stop
  | [] => .help
  | [name] => if name = "help" ∨ (commandSpecs? name).isSome then .help else .usage
  | _ => .usage

end Arguments

namespace Command

open Arguments

/-- The command that arguments ask for, or why they lead to none. -/
def ofArguments (args : List String) : Except Stop Command := do
  match (← readOptions programSpecs [] args).2 with
  | [] => .error .usage
  | "help" :: rest => .error (helpOn rest)
  | name :: rest =>
    match commandSpecs? name with
    | none => .error .usage
    | some specs =>
      let (given, excess) ← readOptions (globalSpecs ++ specs) [] rest
      if excess.isEmpty then given.command name else .error .usage

end Command

end SchemaGate
