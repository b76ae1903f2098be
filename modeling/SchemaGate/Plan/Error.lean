import SchemaGate.Violation

/-!
# Planning errors

What can be wrong with a plan. Errors are causes; the wording is in `PlanningError.message`.
-/

namespace SchemaGate

/-- One thing wrong with a plan. -/
inductive PlanningError where
  /-- A required table is owned by no component. -/
  | unassignedTable (table : String)
  /-- A table is claimed again after its first claim. -/
  | duplicateAssignment (table first second : String)
  /-- A claimed table is not required. -/
  | unknownTable (component table : String)
  /-- A component owns no tables. -/
  | emptyComponent (component : String)
  /-- A domain label is used again. -/
  | duplicateNamespace (domain : String)
  /-- A filename is used again. -/
  | duplicateFilename (filename : String)
  /-- A filename has not the shape of one. -/
  | invalidFilename (filename : String)
  /-- A domain depends on one that is not declared. -/
  | unknownDependency (domain dependency : String)
  deriving DecidableEq, Repr, Inhabited

namespace PlanningError

def message : PlanningError → String
  | unassignedTable table => s!"Table '{table}' is not assigned to any component"
  | duplicateAssignment table first second =>
    s!"Table '{table}' is assigned to both '{first}' and '{second}'"
  | unknownTable component table =>
    s!"Component '{component}' claims table '{table}' which is not required"
  | emptyComponent component => s!"Component '{component}' has no tables"
  | duplicateNamespace domain => s!"Namespace '{domain}' is declared more than once"
  | duplicateFilename filename => s!"Filename '{filename}' is declared more than once"
  | invalidFilename filename =>
    s!"Filename '{filename}' does not match 'schema-\x7border\x7d-\x7bdomain\x7d.\x7bext\x7d'"
  | unknownDependency domain dependency =>
    s!"Namespace '{domain}' depends on '{dependency}' which is not declared"

def listMessage (errors : List PlanningError) : String :=
  "Planning failed:\n" ++ numberedLines (errors.map (·.message))

end PlanningError

end SchemaGate
