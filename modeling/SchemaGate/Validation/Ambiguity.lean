import SchemaGate.Violation

/-!
# Relations that can be told apart

Relations of the same two models show on both of them, so each needs a label of its own once there
are several. A relation of a model to itself shows twice on that one model and always needs a label.
-/

namespace SchemaGate.Validation

/-- Whether two foreign columns relate the same two models, in either direction. -/
def samePair (f g : Foreign) : Bool :=
  (f.model.name == g.model.name && f.target == g.target) ||
    (f.model.name == g.target && f.target == g.model.name)

/-- The foreign columns that relate the same two models as this one, itself among them. -/
def pairGroup (app : Application) (f : Foreign) : List Foreign :=
  app.foreigns.filter (samePair f)

/-- Whether a relation has to be told apart by its label. -/
def needsLabel (app : Application) (f : Foreign) : Bool :=
  2 ≤ (pairGroup app f).length || f.model.name == f.target

/-- Whether a relation has no label that is its own among the relations of the same two models. -/
def lacksOwnLabel (app : Application) (f : Foreign) : Bool :=
  match f.field.relation.mapping with
  | none => true
  | some label => 1 < (pairGroup app f).countP fun g => g.field.relation.mapping == some label

/-- What is said of a relation that cannot be told apart. -/
def ambiguityMessage (app : Application) (f : Foreign) : String :=
  match pairGroup app f with
  | [_] => s!"self-relation '{f.field.relation.name}' on '{f.model.name}' needs a mappingName"
  | group => s!"{group.length} relations link '{f.model.name}' and '{f.target}'; each needs a distinct mappingName"

/-- Every relation can be told apart from the others of the same two models. -/
def ambiguityViolations (app : Application) : List Violation :=
  (app.foreigns.filter fun f => needsLabel app f && lacksOwnLabel app f).map fun f =>
    { kind := .ambiguousRelation, path := .ofForeign f, message := ambiguityMessage app f }

end SchemaGate.Validation
