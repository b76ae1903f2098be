import SchemaGate.Validation.Ambiguity
import SchemaGate.Validation.Correspondence
import SchemaGate.Validation.Indexes

/-!
# Validation

Every rule is checked on every part of an application, and all violations are collected in a fixed
order: files and components, model names, each model by itself, and relations between models.

* `Scope`, the components that are checked and those that are known besides
* `Scope.violations`, all broken rules
* `Accepted`, an application without any, which is what the renderer takes
-/

namespace SchemaGate

/-- What an application is checked against. -/
structure Scope where
  /-- Each of these has exactly one file in the application. -/
  components : List Component
  /-- These are delivered elsewhere: their tables exist as targets of relations, and must not be
  defined in the application. -/
  others : List Component := []
  deriving DecidableEq, Repr, Inhabited

namespace Scope

/-- All components that may own a table, the checked ones first. -/
def known (s : Scope) : List Component := s.components ++ s.others

/-- The models that a relation may point at. -/
def targets (s : Scope) (app : Application) : List String :=
  app.modelNames ++ s.others.flatMap (·.tables)

/-- The violations of one model: its name, its properties and its indexes. -/
def modelViolations (s : Scope) (app : Application) (file : SchemaFile) (model : Model) :
    List Violation :=
  Validation.identifierViolations file model ++
    Validation.columnViolations file model ++
    Validation.relationViolations (s.targets app) file model ++
    Validation.backRelationViolations app model ++
    Validation.indexViolations file model

def violations (s : Scope) (app : Application) : List Violation :=
  Validation.fileViolations app ++
    s.components.flatMap (Validation.componentViolations s.known app) ++
    Validation.strayFileViolations s.known app ++
    Validation.modelNameViolations app ++
    app.declarations.flatMap (fun (file, model) => s.modelViolations app file model) ++
    Validation.ambiguityViolations app

end Scope

/-- An application that breaks no rule of its scope. -/
structure Accepted (scope : Scope) where
  application : Application
  no_violations : scope.violations application = []

/-- Checks an application: it is accepted, or all its violations are given. -/
def Scope.validate (s : Scope) (app : Application) : Except (List Violation) (Accepted s) :=
  if h : s.violations app = [] then .ok ⟨app, h⟩ else .error (s.violations app)

theorem Scope.validate_isOk_iff {s : Scope} {app : Application} :
    (s.validate app).isOk ↔ s.violations app = [] := by
  rw [validate]
  split <;> simp_all [Except.isOk, Except.toBool]

/-- The outcome of a validation as it is handed to callers. -/
structure Report where
  accepted : Bool
  application : Option Application := none
  violations : Option (List Violation) := none
  deriving DecidableEq, Repr, Inhabited

namespace Report

def ofResult {s : Scope} : Except (List Violation) (Accepted s) → Report
  | .ok a => { accepted := true, application := a.application }
  | .error vs => { accepted := false, violations := vs }

/-- A member that is written only where it has a value. -/
def optionalMember {α : Type} (name : String) (toJson : α → Json) :
    Option α → List (String × Json)
  | some a => [(name, toJson a)]
  | none => []

def toJson (r : Report) : Json :=
  .object (("accepted", .bool r.accepted) ::
    optionalMember "application" Application.toJson r.application ++
    optionalMember "violations" Violation.listToJson r.violations)

def ofJson? (j : Json) : Option Report := do
  let field ← j.fields? ["accepted", "application", "violations"]
  return { accepted := ← (field "accepted").required Json.bool?
           application := ← (field "application").optionalMember Application.ofJson?
           violations := ← (field "violations").optionalMember Violation.listOfJson? }

end Report

end SchemaGate
