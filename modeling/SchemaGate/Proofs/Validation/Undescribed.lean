import SchemaGate.Proofs.Schema.Undescribed
import SchemaGate.Validation

/-!
# Descriptions are not checked

No check looks at a description, and no violation tells of one: without descriptions the same
violations are reported, with the same paths and messages (`violations_undescribed`). The checks are
gone through one by one.
-/

namespace SchemaGate

namespace Validation

variable (app : Application) (file : SchemaFile) (model : Model)

/-! ### Files and components -/

theorem fileViolations_undescribed : fileViolations app.undescribed = fileViolations app := by
  rw [fileViolations, fileViolations, Application.undescribed, withEarlier_map, List.flatMap_map]
  refine List.flatMap_congr fun p _ => ?_
  simp only [List.any_map, SchemaFile.undescribed, List.isEmpty_map]
  rfl

theorem componentViolations_undescribed (known : List Component) :
    componentViolations known app.undescribed = componentViolations known app := by
  funext c
  rw [componentViolations, componentViolations, app.file?_undescribed]
  cases app.file? c.filename with
  | none => rfl
  | some file =>
    have hlabel : labelViolations c file.undescribed = labelViolations c file := rfl
    have hmissing : missingModelViolations c file.undescribed = missingModelViolations c file := by
      rw [missingModelViolations, file.modelNames_undescribed]
      rfl
    have hunexpected : unexpectedModelViolations known c file.undescribed =
        unexpectedModelViolations known c file := by
      rw [unexpectedModelViolations, SchemaFile.undescribed, List.filter_map, List.map_map]
      rfl
    simp only [Option.map_some, hlabel, hmissing, hunexpected]

theorem strayFileViolations_undescribed (known : List Component) :
    strayFileViolations known app.undescribed = strayFileViolations known app := by
  rw [strayFileViolations, Application.undescribed, List.filter_map, List.map_map]
  rfl

/-! ### Names -/

theorem modelNameViolations_undescribed :
    modelNameViolations app.undescribed = modelNameViolations app := by
  rw [modelNameViolations, modelNameViolations, app.declarations_undescribed, withEarlier_map,
    List.flatMap_map]
  refine List.flatMap_congr fun p _ => ?_
  have hname : (fun d : SchemaFile × Model => d.2.name == p.2.2.undescribed.name) ∘
      (fun d : SchemaFile × Model => (d.1.undescribed, d.2.undescribed)) =
        fun d => d.2.name == p.2.2.name := rfl
  dsimp only
  rw [List.find?_map, hname]
  cases p.1.find? fun d => d.2.name == p.2.2.name <;> rfl

theorem columnViolations_undescribed :
    columnViolations file.undescribed model.undescribed = columnViolations file model := by
  rw [columnViolations, model.columnNames_undescribed]
  rfl

theorem relationViolations_undescribed (targets : List String) :
    relationViolations targets file.undescribed model.undescribed =
      relationViolations targets file model := by
  rw [relationViolations, relationViolations, model.columnNames_undescribed, Model.undescribed,
    withEarlier_map, List.flatMap_map]
  refine List.flatMap_congr fun p _ => ?_
  simp only [List.map_map]
  rfl

theorem backRelationViolations_undescribed :
    backRelationViolations app.undescribed model.undescribed =
      backRelationViolations app model := by
  have hname : model.undescribed.name = model.name := rfl
  have hown : ownProperties model.undescribed = ownProperties model := by
    rw [ownProperties, model.columnNames_undescribed, Model.undescribed, List.map_map]
    rfl
  rw [backRelationViolations, backRelationViolations, hname, app.foreignsTo_undescribed,
    withEarlier_map, List.flatMap_map, hown]
  refine List.flatMap_congr fun p _ => ?_
  simp only [List.map_map]
  rfl

/-! ### Indexes -/

theorem columnIndexViolations_undescribed (path : Violation.Path) :
    columnIndexViolations model.undescribed path = columnIndexViolations model path := by
  have hindex : ∀ index, indexColumnViolations model.undescribed path index =
      indexColumnViolations model path index := by
    intro index
    rw [indexColumnViolations, model.hasColumn_undescribed]
    rfl
  simp only [columnIndexViolations, hindex]
  rfl

theorem textIndexViolations_undescribed (path : Violation.Path) :
    textIndexViolations model.undescribed path = textIndexViolations model path := by
  have htext : ∀ label name, textColumnViolations model.undescribed path label name =
      textColumnViolations model path label name := by
    intro label name
    rw [textColumnViolations, model.hasColumn_undescribed, model.plainField?_undescribed,
      textColumnViolations]
    cases model.plainField? name <;> rfl
  simp only [textIndexViolations, htext]
  rfl

/-! ### Labels -/

theorem pairGroup_undescribed (f : Foreign) :
    pairGroup app.undescribed f.undescribed = (pairGroup app f).map (·.undescribed) := by
  rw [pairGroup, app.foreigns_undescribed, List.filter_map]
  rfl

theorem ambiguityMessage_undescribed (f : Foreign) :
    ambiguityMessage app.undescribed f.undescribed = ambiguityMessage app f := by
  rw [ambiguityMessage, pairGroup_undescribed, ambiguityMessage]
  match pairGroup app f with
  | [] | [_] => rfl
  | _ :: _ :: group =>
    rw [List.map_cons, List.map_cons]
    dsimp only
    rw [List.length_cons, List.length_cons, List.length_map]
    rfl

theorem ambiguityViolations_undescribed :
    ambiguityViolations app.undescribed = ambiguityViolations app := by
  have hneeds : ∀ f : Foreign, needsLabel app.undescribed f.undescribed = needsLabel app f := by
    intro f
    rw [needsLabel, pairGroup_undescribed, List.length_map]
    rfl
  have hlacks : ∀ f : Foreign,
      lacksOwnLabel app.undescribed f.undescribed = lacksOwnLabel app f := by
    intro f
    simp only [lacksOwnLabel, pairGroup_undescribed, List.countP_map]
    rfl
  rw [ambiguityViolations, app.foreigns_undescribed, List.filter_map, List.map_map,
    ambiguityViolations]
  simp only [Function.comp_def, hneeds, hlacks, ambiguityMessage_undescribed]
  rfl

end Validation

namespace Scope

open Validation

variable (s : Scope) (app : Application)

theorem targets_undescribed : s.targets app.undescribed = s.targets app := by
  rw [targets, app.modelNames_undescribed, targets]

theorem modelViolations_undescribed (file : SchemaFile) (model : Model) :
    s.modelViolations app.undescribed file.undescribed model.undescribed =
      s.modelViolations app file model := by
  have hidentifier : identifierViolations file.undescribed model.undescribed =
      identifierViolations file model := rfl
  have hpath : modelPath file.undescribed model.undescribed = modelPath file model := rfl
  rw [modelViolations, hidentifier, columnViolations_undescribed, targets_undescribed,
    relationViolations_undescribed, backRelationViolations_undescribed, indexViolations, hpath,
    columnIndexViolations_undescribed, textIndexViolations_undescribed, modelViolations,
    indexViolations]

theorem violations_undescribed : s.violations app.undescribed = s.violations app := by
  rw [violations, fileViolations_undescribed, componentViolations_undescribed,
    strayFileViolations_undescribed, modelNameViolations_undescribed,
    ambiguityViolations_undescribed, app.declarations_undescribed, List.flatMap_map, violations]
  simp only [modelViolations_undescribed]

end Scope

end SchemaGate
