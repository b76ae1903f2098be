import SchemaGate.Plan.Error
import SchemaGate.Validation.Earlier

/-!
# Partitions of tables

Labelled groups of tables partition the required ones when no group is empty, no table is claimed
twice, every claimed table is required and every required one is claimed. `partitionErrors` reports
each breach once.
-/

namespace SchemaGate

/-- Tables claimed under one label. -/
structure TableGroup where
  label : String
  tables : List String
  deriving DecidableEq, Repr, Inhabited

/-- The claims of a group: its label with each of its tables. -/
def TableGroup.claims (g : TableGroup) : List (String × String) := g.tables.map (g.label, ·)

namespace Plan

/-- Errors of one claim, where `earlier` are the claims before it: it is a repeat of the first claim
on its table, or else it may be on a table that is not required. -/
def claimErrors (required : List String) (earlier : List (String × String))
    (claim : String × String) : List PlanningError :=
  match earlier.find? (·.2 == claim.2) with
  | some (first, _) => [.duplicateAssignment claim.2 first claim.1]
  | none => if required.contains claim.2 then [] else [.unknownTable claim.1 claim.2]

/-- Errors of one group, where `earlier` are the claims of the groups before it. -/
def groupErrors (required : List String) (earlier : List (String × String)) (g : TableGroup) :
    List PlanningError :=
  (if g.tables.isEmpty then [.emptyComponent g.label] else []) ++
    (withEarlier g.claims).flatMap fun (before, claim) =>
      claimErrors required (earlier ++ before) claim

/-- Required tables that nobody claims, each once. -/
def unassignedErrors (groups : List TableGroup) (required : List String) : List PlanningError :=
  ((withEarlier required).filter fun (earlier, table) =>
    !(groups.any (·.tables.contains table)) && !earlier.contains table).map
    fun (_, table) => .unassignedTable table

/-- Everything that keeps groups from being a partition of the required tables. -/
def partitionErrors (groups : List TableGroup) (required : List String) : List PlanningError :=
  ((withEarlier groups).flatMap fun (earlier, g) =>
    groupErrors required (earlier.flatMap (·.claims)) g) ++
    unassignedErrors groups required

end Plan

end SchemaGate
