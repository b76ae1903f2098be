import Mathlib.Algebra.GroupWithZero.Nat
import SchemaGate.Proofs.Render.Declarations
import SchemaGate.Proofs.Validation.Acceptance
import SchemaGate.Proofs.Validation.Findings

/-!
# Repeated properties are counted

The renderer declares the properties of a model in one block: its columns, the relations it holds,
and those that it finds pointing at it (`propertyNames_eq`). The validator never looks at a block.
It walks columns, relations held and relations pointing here in three checks, and what they report
together is one violation for each property of the block that has the name of an earlier one
(`count_duplicateField_violations`).
-/

namespace SchemaGate

/-- The name of the property that a line declares. -/
def SchemaLine.property? : SchemaLine → Option String
  | column name _ => some name
  | relation line => some line.name
  | _ => none

namespace Block

/-- The names of the columns and relations that a rendered model declares, with their repeats. -/
def propertyNames (options : RenderOptions) (app : Application) (file : SchemaFile)
    (model : Model) : List String :=
  (lines options app file model).filterMap SchemaLine.property?

variable (options : RenderOptions)

theorem property?_eq_none_of_isRemark (line : SchemaLine) (h : line.isRemark) :
    line.property? = none := by
  cases line <;> first | rfl | simp [SchemaLine.isRemark] at h

theorem filterMap_property?_columnLines (model : Model) :
    (columnLines options model).filterMap SchemaLine.property? = model.columnNames := by
  have hname : ∀ (name : String) (type : ColumnType),
      SchemaLine.property? (.column name type) = some name := fun _ _ => rfl
  simp [columnLines, Model.columnNames, hname, List.filterMap_map]

/-- The properties that a block declares are those of the model. -/
theorem propertyNames_eq (app : Application) (file : SchemaFile) (model : Model) :
    propertyNames options app file model = app.properties model := by
  have hrelations : (relations app model).filterMap
      (fun relation => SchemaLine.property? (.relation relation)) =
        model.foreign.map (·.relation.name) ++
          (app.foreignsTo model.name).map (·.oppositeProperty) := by
    have hname : (fun relation => SchemaLine.property? (.relation relation)) =
      some ∘ RelationLine.name := rfl
    rw [hname, List.filterMap_eq_map, relations, List.map_append, List.map_map, List.map_map]
    rfl
  have hindexes : (indexes options model).filterMap SchemaLine.property? = [] := by
    rw [List.filterMap_eq_nil_iff]
    intro line hline
    rcases mem_indexes hline with ⟨_, -, rfl⟩ | ⟨_, -, rfl⟩ | ⟨_, -, rfl⟩ <;> rfl
  rw [propertyNames, filterMap_lines options property?_eq_none_of_isRemark,
    filterMap_declarations options (fun _ => rfl) rfl, filterMap_property?_columnLines, hrelations,
    hindexes, List.append_nil, ← List.append_assoc]
  rfl

end Block

namespace Validation

variable {app : Application} {file : SchemaFile} {model : Model}

/-- How many violations are of repeated properties. -/
def duplicates (vs : List Violation) : Nat := vs.countP (·.kind = .duplicateField)

theorem duplicates_append (vs ws : List Violation) :
    duplicates (vs ++ ws) = duplicates vs + duplicates ws :=
  List.countP_append

theorem duplicates_eq_length (vs : List Violation) :
    duplicates vs = (ofKind .duplicateField vs).length :=
  List.countP_eq_length_filter

theorem duplicates_eq_zero {vs : List Violation} {kinds : List Violation.Kind}
    (h : ∀ v ∈ vs, v.kind ∈ kinds) (hkind : .duplicateField ∉ kinds) : duplicates vs = 0 := by
  rw [duplicates_eq_length, ofKind_eq_nil h hkind, List.length_nil]

/-! ### The three walks -/

theorem duplicates_columnViolations :
    duplicates (columnViolations file model) =
      (withEarlier model.columnNames).countP fun p => p.2 ∈ p.1 := by
  refine countP_flatMap_of_forall ?_
  rintro ⟨earlier, name⟩ -
  by_cases hidentifier : Text.isIdentifier name <;> by_cases hearlier : name ∈ earlier <;>
    simp [hidentifier, hearlier]

theorem duplicates_relationViolations (targets : List String) :
    duplicates (relationViolations targets file model) =
      (withEarlier model.foreign).countP fun p =>
        p.2.relation.name ∈ model.columnNames ++ p.1.map (·.relation.name) := by
  refine countP_flatMap_of_forall ?_
  rintro ⟨earlier, field⟩ -
  have hshape : duplicates (labelShapeViolations ⟨file, model, field⟩) = 0 :=
    duplicates_eq_zero (fun _ hv => List.mem_singleton.mpr (kind_of_mem_labelShapeViolations hv))
      (by decide)
  have htarget : duplicates (targetViolations targets ⟨file, model, field⟩) = 0 :=
    duplicates_eq_zero (fun _ hv => List.mem_singleton.mpr (kind_of_mem_targetViolations hv))
      (by decide)
  change duplicates (_ ++ _ ++ _) = _
  rw [duplicates_append, duplicates_append, hshape, htarget, relationNameViolations]
  by_cases hname : field.relation.name ∈ model.columnNames ++ earlier.map (·.relation.name) <;>
    simp only [List.contains_iff_mem, hname, if_true, if_false] <;> rfl

theorem duplicates_backRelationViolations :
    duplicates (backRelationViolations app model) =
      (withEarlier (app.foreignsTo model.name)).countP fun p =>
        p.2.oppositeProperty ∈ ownProperties model ++ p.1.map (·.oppositeProperty) := by
  refine countP_flatMap_of_forall ?_
  rintro ⟨earlier, f⟩ -
  by_cases hname : f.oppositeProperty ∈ ownProperties model ++ earlier.map (·.oppositeProperty) <;>
    simp only [List.contains_iff_mem, hname, if_true, if_false] <;> rfl

/-! ### One model -/

/-- Of one model, the walks report together as many repeats as it has properties beyond their
names. -/
theorem duplicates_modelViolations (s : Scope) :
    duplicates (s.modelViolations app file model) =
      (app.properties model).length - (app.properties model).toFinset.card := by
  have hidentifier : duplicates (identifierViolations file model) = 0 :=
    duplicates_eq_zero (fun _ hv => List.mem_singleton.mpr (kind_of_mem_identifierViolations hv))
      (by decide)
  have hindexes : duplicates (indexViolations file model) = 0 := by
    rw [indexViolations, duplicates_append,
      duplicates_eq_zero (fun _ hv => kind_of_mem_columnIndexViolations hv) (by decide),
      duplicates_eq_zero (fun _ hv => kind_of_mem_textIndexViolations hv) (by decide)]
  have hcolumns := card_add_countP_withEarlier id model.columnNames []
  have hrelations := card_add_countP_withEarlier (·.relation.name) model.foreign model.columnNames
  have hback := card_add_countP_withEarlier (·.oppositeProperty) (app.foreignsTo model.name)
    (ownProperties model)
  have hlength : (app.properties model).length = model.columnNames.length + model.foreign.length +
      (app.foreignsTo model.name).length := by
    simp [Application.properties, Nat.add_assoc]
  simp only [Scope.modelViolations, duplicates_append, hidentifier, hindexes,
    duplicates_columnViolations, duplicates_relationViolations, duplicates_backRelationViolations]
  simp only [List.nil_append, List.map_id, id_eq, List.toFinset_nil, Finset.card_empty] at hcolumns
  rw [hlength]
  change (app.properties model).toFinset.card + _ = _ at hback
  change (ownProperties model).toFinset.card + _ = _ at hrelations
  omega

/-- No other check reports a repeat. -/
theorem duplicates_violations (s : Scope) (app : Application) :
    duplicates (s.violations app) = (app.declarations.map fun d =>
      (app.properties d.2).length - (app.properties d.2).toFinset.card).sum := by
  have hmodels : duplicates (s.violations app) =
      duplicates (app.declarations.flatMap fun d => s.modelViolations app d.1 d.2) := by
    rw [duplicates_eq_length, duplicates_eq_length, ofKind_violations_of_model (by decide),
      ofKind_flatMap]
  have hsum : duplicates (app.declarations.flatMap fun d => s.modelViolations app d.1 d.2) =
      (app.declarations.map fun d => duplicates (s.modelViolations app d.1 d.2)).sum :=
    List.countP_flatMap
  rw [hmodels, hsum]
  simp only [duplicates_modelViolations]

end Validation

/-- Repeated properties are reported as often as the blocks of the models declare more properties
than names. An accepted application has no block that declares two properties of one name. -/
theorem count_duplicateField_violations (options : RenderOptions) (s : Scope) (app : Application) :
    (s.violations app).countP (·.kind = .duplicateField) =
      (app.declarations.map fun (file, model) =>
        (Block.propertyNames options app file model).length -
          (Block.propertyNames options app file model).toFinset.card).sum ∧
    ((s.validate app).isOk → ∀ d ∈ app.declarations,
      (Block.propertyNames options app d.1 d.2).Nodup) := by
  constructor
  · simp only [Block.propertyNames_eq]
    exact Validation.duplicates_violations s app
  · intro haccepted d hd
    have h := Scope.validate_isOk_iff_conforms.mp haccepted
    rw [Block.propertyNames_eq]
    exact (Application.forall_models_iff.mp h.properties d hd).nodup

-- The names that relations give a property by default may meet: `a_b` with the label `c` and `a`
-- with the label `b_c` both declare `a_b_c` on their target.
example :
    let held (name label : String) : Model := { Model.minimal name with
      foreign := [{ name := "t_id", relation :=
        { name := "t", target := "target", mapping := label } }] }
    let app : Application := ⟨[
      { filename := "schema-01-t.prisma", domain := "T",
        models := [.minimal "target", held "a_b" "c", held "a" "b_c"] }]⟩
    Block.propertyNames {} app default (.minimal "target") = ["id", "a_b_c", "a_b_c"] ∧
      (Scope.violations ⟨[], []⟩ app).countP (·.kind = .duplicateField) = 1 := by
  decide +kernel

end SchemaGate
