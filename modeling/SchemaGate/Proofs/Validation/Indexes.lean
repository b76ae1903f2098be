import SchemaGate.Proofs.Repeats
import SchemaGate.Validation.Indexes

/-!
# Indexes over existing columns

The rules behind the checks on indexes. The labels under which indexes are reported play no part:
the checks see the lists of columns, unique before plain (`map_columns_columnIndexes`). On a model
whose columns are well named they report nothing exactly when every index covers columns of the
model and no two indexes cover the same (`indexViolations_eq_nil_iff`).
-/

namespace SchemaGate

/-- The columns of an index: at least one, each once, and each a column of the model. -/
structure Model.Covers (model : Model) (columns : List String) : Prop where
  ne_nil : columns ≠ []
  nodup : columns.Nodup
  exist : ∀ name ∈ columns, name ∈ model.columnNames

/-- Every index covers columns of the model, and no two cover the same. -/
structure IndexesSound (model : Model) : Prop where
  covers : ∀ columns ∈ model.uniqueIndexes ++ model.plainIndexes, model.Covers columns
  nodup : (model.uniqueIndexes ++ model.plainIndexes).Nodup
  texts : ∀ name ∈ model.textIndexes, ∃ field ∈ model.plain, field.name = name ∧
    field.scalar = .string
  texts_nodup : model.textIndexes.Nodup

namespace Validation

/-! ### Indexes over columns -/

theorem map_columns_columnIndexes (model : Model) :
    (columnIndexes model).map (·.columns) = model.uniqueIndexes ++ model.plainIndexes := by
  have hlabels (what : Nat → String) (indexes : List (List String)) :
      (indexes.zipIdx.map fun p => (⟨what p.2, p.1⟩ : LabelledIndex)).map (·.columns) =
        indexes := by
    rw [List.map_map]
    exact List.zipIdx_map_fst 0 indexes
  rw [columnIndexes, List.map_append]
  exact congrArg₂ _ (hlabels (fun i => s!"uniqueIndexes[{i}]") _)
    (hlabels (fun i => s!"plainIndexes[{i}]") _)

theorem indexColumnViolations_eq_nil_iff {model : Model} {path : Violation.Path}
    {index : LabelledIndex} :
    indexColumnViolations model path index = [] ↔
      (∀ name ∈ index.columns, Text.isIdentifier name ∧ name ∈ model.columnNames) ∧
        index.columns.Nodup := by
  rw [indexColumnViolations, List.flatMap_eq_nil_iff]
  refine forall_withEarlier_iff_self fun earlier name => ?_
  -- each test of the chain is reached only where those before it found nothing
  by_cases hearlier : name ∈ earlier
  · simp [hearlier]
  · by_cases hidentifier : Text.isIdentifier name
    · simp [hearlier, hidentifier, Model.hasColumn]
    · simp [hearlier, hidentifier]

theorem coverViolations_eq_nil_iff {path : Violation.Path} {earlier : List LabelledIndex}
    {index : LabelledIndex} :
    coverViolations path earlier index = [] ↔ index.columns ∉ earlier.map (·.columns) := by
  rw [coverViolations, ← find?_eq_none_iff_not_mem_map]
  cases earlier.find? (·.columns == index.columns) <;> simp

theorem columnIndexViolations_eq_nil_iff {model : Model} {path : Violation.Path} :
    columnIndexViolations model path = [] ↔
      (∀ columns ∈ model.uniqueIndexes ++ model.plainIndexes, columns ≠ [] ∧
        (∀ name ∈ columns, Text.isIdentifier name ∧ name ∈ model.columnNames) ∧
          columns.Nodup) ∧
      (model.uniqueIndexes ++ model.plainIndexes).Nodup := by
  rw [columnIndexViolations, List.flatMap_eq_nil_iff, ← map_columns_columnIndexes,
    List.forall_mem_map]
  refine forall_withEarlier_iff fun earlier index => ?_
  by_cases hempty : index.columns = []
  · simp [hempty]
  · simp only [List.isEmpty_iff, hempty, if_false, List.append_eq_nil_iff,
      indexColumnViolations_eq_nil_iff, coverViolations_eq_nil_iff, ne_eq, not_false_eq_true,
      true_and]

/-! ### Full-text indexes -/

theorem map_snd_labelledTextIndexes (model : Model) :
    (labelledTextIndexes model).map (·.2) = model.textIndexes := by
  rw [labelledTextIndexes, List.map_map]
  exact List.zipIdx_map_fst 0 model.textIndexes

theorem textColumnViolations_eq_nil_iff {model : Model} {path : Violation.Path}
    {label name : String} :
    textColumnViolations model path label name = [] ↔ Text.isIdentifier name ∧
      ∃ field, model.plainField? name = some field ∧ field.scalar = .string := by
  rw [textColumnViolations]
  by_cases hidentifier : Text.isIdentifier name
  · cases hfield : model.plainField? name with
    | none => by_cases hcolumn : model.hasColumn name <;> simp [hidentifier, hcolumn]
    | some field => simp [hidentifier, Scalar.isText]
  · simp [hidentifier]

theorem textCoverViolations_eq_nil_iff {path : Violation.Path} {earlier : List (String × String)}
    {label name : String} :
    textCoverViolations path earlier label name = [] ↔ name ∉ earlier.map (·.2) := by
  rw [textCoverViolations, ← find?_eq_none_iff_not_mem_map]
  cases earlier.find? (·.2 == name) <;> simp

theorem textIndexViolations_eq_nil_iff {model : Model} {path : Violation.Path} :
    textIndexViolations model path = [] ↔
      (∀ name ∈ model.textIndexes, Text.isIdentifier name ∧
        ∃ field, model.plainField? name = some field ∧ field.scalar = .string) ∧
      model.textIndexes.Nodup := by
  rw [textIndexViolations, List.flatMap_eq_nil_iff, ← map_snd_labelledTextIndexes,
    List.forall_mem_map]
  refine forall_withEarlier_iff fun earlier index => ?_
  simp only [List.append_eq_nil_iff, textColumnViolations_eq_nil_iff,
    textCoverViolations_eq_nil_iff]

/-! ### All indexes of a model -/

/-- Where column names are distinct, a plain column is found under its name. -/
theorem plainField?_eq_some_iff {model : Model} (hnodup : model.columnNames.Nodup) {name : String}
    {field : PlainField} :
    model.plainField? name = some field ↔ field ∈ model.plain ∧ field.name = name := by
  have hplain : (model.plain.map (·.name)).Nodup := by
    rw [Model.columnNames, List.nodup_append] at hnodup
    exact hnodup.2.1
  constructor
  · intro h
    exact ⟨List.mem_of_find?_eq_some h, by simpa using List.find?_some h⟩
  · rintro ⟨hfield, rfl⟩
    exact find?_eq_some_of_nodup (f := PlainField.name) hplain hfield

/-- The checks on the indexes of a model with well-named columns report nothing exactly when the
indexes are sound. -/
theorem indexViolations_eq_nil_iff {file : SchemaFile} {model : Model}
    (hidentifiers : ∀ name ∈ model.columnNames, Text.isIdentifier name)
    (hnodup : model.columnNames.Nodup) :
    indexViolations file model = [] ↔ IndexesSound model := by
  simp only [indexViolations, List.append_eq_nil_iff, columnIndexViolations_eq_nil_iff,
    textIndexViolations_eq_nil_iff, plainField?_eq_some_iff hnodup]
  constructor
  · rintro ⟨⟨hcovers, hdistinct⟩, htexts, htextsDistinct⟩
    refine ⟨fun columns hcolumns => ?_, hdistinct, fun name hname => ?_, htextsDistinct⟩
    · obtain ⟨hne, hexist, honce⟩ := hcovers columns hcolumns
      exact ⟨hne, honce, fun name hname => (hexist name hname).2⟩
    · obtain ⟨-, field, ⟨hfield, hname⟩, hscalar⟩ := htexts name hname
      exact ⟨field, hfield, hname, hscalar⟩
  · intro h
    refine ⟨⟨fun columns hcolumns => ?_, h.nodup⟩, fun name hname => ?_, h.texts_nodup⟩
    · obtain ⟨hne, honce, hexist⟩ := h.covers columns hcolumns
      exact ⟨hne, fun name hname => ⟨hidentifiers name (hexist name hname), hexist name hname⟩,
        honce⟩
    · obtain ⟨field, hfield, rfl, hscalar⟩ := h.texts name hname
      have hcolumn : field.name ∈ model.columnNames :=
        List.mem_append_right _ (List.mem_map_of_mem hfield)
      exact ⟨hidentifiers _ hcolumn, field, ⟨hfield, rfl⟩, hscalar⟩

end Validation

end SchemaGate
