import SchemaGate.Plan.Order
import SchemaGate.Plan.Partition
import SchemaGate.Text.Kebab
import SchemaGate.Text.Name

/-!
# Plans

A plan splits the required tables into components, one for each business domain, and names their
files in dependency order. It is made from domain hints, or supplied and checked.

* `Plan.ofHints`, the components of a list of hints, or all planning errors
* `Plan.checkErrors`, the errors of supplied components against required tables
* `Plan.check`, the same with the tables optional
-/

namespace SchemaGate.Plan

/-! ## Planning -/

/-- The extension of planned filenames where none is set. -/
def defaultExtension : String := "prisma"

/-- The order number of a filename, with two digits at least. -/
def orderText (order : Nat) : String :=
  if order < 10 then s!"0{order}" else toString order

def filename (order : Nat) (slug extension : String) : String :=
  s!"{Text.filenameHead}-{orderText order}-{slug}.{extension}"

/-- Domain labels that are declared again. -/
def repeatedLabelErrors (hints : List DomainHint) : List PlanningError :=
  ((withEarlier (hints.map (·.domain))).filter fun (earlier, d) => earlier.contains d).map
    fun (_, d) => .duplicateNamespace d

/-- Dependencies on domains that are not declared. -/
def dependencyErrors (hints : List DomainHint) : List PlanningError :=
  hints.flatMap fun h =>
    (h.dependsOn.filter fun d => !(hints.any (·.domain == d))).map (.unknownDependency h.domain ·)

def hintGroup (h : DomainHint) : TableGroup := ⟨h.domain, h.tables⟩

/-- Everything wrong with hints for the required tables. -/
def hintErrors (required : List String) (hints : List DomainHint) : List PlanningError :=
  repeatedLabelErrors hints ++ dependencyErrors hints ++
    partitionErrors (hints.map hintGroup) required

/-- The component of a hint at a place in the order, counted from zero. -/
def component (caseOf : String → String) (extension : String) (place : Nat) (h : DomainHint) :
    Component :=
  { filename := filename (place + 1) (Text.slug (caseOf h.domain)) extension
    domain := h.domain
    tables := h.tables }

/-- The components of a list of hints, numbered from one in dependency order. Filenames have the
labels as `caseOf` writes them. -/
def ofHints (extension : String) (required : List String) (hints : List DomainHint)
    (caseOf : String → String := Text.kebab) : Except (List PlanningError) (List Component) :=
  match hintErrors required hints with
  | [] => .ok ((dependencyOrder hints).mapIdx (component caseOf extension))
  | errors => .error errors

/-! ## Checking -/

/-- Errors of a component's filename and label, where `earlier` are the components before it. -/
def namingErrors (earlier : List Component) (c : Component) : List PlanningError :=
  (if Text.isComponentFilename c.filename then [] else [.invalidFilename c.filename]) ++
  (if earlier.any (·.filename == c.filename) then [.duplicateFilename c.filename] else []) ++
  (if earlier.any (·.domain == c.domain) then [.duplicateNamespace c.domain] else [])

def componentGroup (c : Component) : TableGroup := ⟨c.domain, c.tables⟩

/-- Everything wrong with supplied components for the required tables. -/
def checkErrors (components : List Component) (required : List String) : List PlanningError :=
  (withEarlier components).flatMap (fun (earlier, c) => namingErrors earlier c) ++
    partitionErrors (components.map componentGroup) required

/-- The tables that components own, with repeats. -/
def ownedTables (components : List Component) : List String := components.flatMap (·.tables)

/-- Checks supplied components against the required tables, or where there is no list of those
against each other. -/
def check (components : List Component) (required : Option (List String)) :
    Except (List PlanningError) Unit :=
  match checkErrors components (required.getD (ownedTables components)) with
  | [] => .ok ()
  | errors => .error errors

end SchemaGate.Plan
