import Mathlib.Data.List.Basic
import SchemaGate.Validation

/-!
# The kinds that each check reports

No two checks of different rules report violations of one kind, but for ill-formed names, which
models, columns and indexes have alike.
-/

namespace SchemaGate.Validation

variable {app : Application} {file : SchemaFile} {model : Model} {v : Violation}

theorem kind_of_mem_fileViolations (h : v ∈ fileViolations app) :
    v.kind = .duplicateFile ∨ v.kind = .emptyFile := by
  obtain ⟨⟨earlier, file⟩, -, h⟩ := List.mem_flatMap.mp h
  rcases List.mem_append.mp h with h | h <;> split at h <;> simp_all

theorem kind_of_mem_labelViolations {c : Component} (h : v ∈ labelViolations c file) :
    v.kind = .namespaceMismatch := by
  unfold labelViolations at h
  split at h <;> simp_all

theorem kind_of_mem_missingModelViolations {c : Component}
    (h : v ∈ missingModelViolations c file) : v.kind = .missingModel := by
  obtain ⟨table, -, rfl⟩ := List.mem_map.mp h
  rfl

theorem kind_of_mem_unexpectedModelViolations {known : List Component} {c : Component}
    (h : v ∈ unexpectedModelViolations known c file) : v.kind = .unexpectedModel := by
  obtain ⟨model, -, rfl⟩ := List.mem_map.mp h
  rfl

theorem kind_of_mem_componentViolations {known : List Component} {c : Component}
    (h : v ∈ componentViolations known app c) :
    v.kind ∈ [.missingFile, .namespaceMismatch, .missingModel, .unexpectedModel] := by
  unfold componentViolations at h
  split at h
  · simp_all
  · rcases List.mem_append.mp h with h | h
    · rcases List.mem_append.mp h with h | h
      · simp [kind_of_mem_labelViolations h]
      · simp [kind_of_mem_missingModelViolations h]
    · simp [kind_of_mem_unexpectedModelViolations h]

theorem kind_of_mem_strayFileViolations {known : List Component}
    (h : v ∈ strayFileViolations known app) : v.kind = .unexpectedFile := by
  obtain ⟨file, -, rfl⟩ := List.mem_map.mp h
  rfl

theorem kind_of_mem_modelNameViolations (h : v ∈ modelNameViolations app) :
    v.kind = .duplicateModel := by
  obtain ⟨⟨earlier, file, model⟩, -, h⟩ := List.mem_flatMap.mp h
  dsimp only at h
  split at h <;> simp_all

theorem kind_of_mem_identifierViolations (h : v ∈ identifierViolations file model) :
    v.kind = .invalidIdentifier := by
  unfold identifierViolations at h
  split at h <;> simp_all

theorem kind_of_mem_columnViolations (h : v ∈ columnViolations file model) :
    v.kind ∈ [.invalidIdentifier, .duplicateField] := by
  obtain ⟨⟨earlier, name⟩, -, h⟩ := List.mem_flatMap.mp h
  rcases List.mem_append.mp h with h | h <;> split at h <;> simp_all

theorem kind_of_mem_labelShapeViolations {f : Foreign} (h : v ∈ labelShapeViolations f) :
    v.kind = .invalidRelationName := by
  obtain ⟨label, -, rfl⟩ := List.mem_map.mp h
  rfl

theorem kind_of_mem_relationNameViolations {taken : List String} {f : Foreign}
    (h : v ∈ relationNameViolations taken f) : v.kind = .duplicateField := by
  unfold relationNameViolations at h
  split at h <;> simp_all

theorem kind_of_mem_targetViolations {targets : List String} {f : Foreign}
    (h : v ∈ targetViolations targets f) : v.kind = .danglingRelation := by
  unfold targetViolations at h
  split at h <;> simp_all

theorem kind_of_mem_relationViolations {targets : List String}
    (h : v ∈ relationViolations targets file model) :
    v.kind ∈ [.invalidRelationName, .duplicateField, .danglingRelation] := by
  obtain ⟨⟨earlier, field⟩, -, h⟩ := List.mem_flatMap.mp h
  rcases List.mem_append.mp h with h | h
  · rcases List.mem_append.mp h with h | h
    · simp [kind_of_mem_labelShapeViolations h]
    · simp [kind_of_mem_relationNameViolations h]
  · simp [kind_of_mem_targetViolations h]

theorem kind_of_mem_backRelationViolations (h : v ∈ backRelationViolations app model) :
    v.kind = .duplicateField := by
  obtain ⟨⟨earlier, f⟩, -, h⟩ := List.mem_flatMap.mp h
  dsimp only at h
  split at h <;> simp_all

theorem kind_of_mem_coverViolations {path : Violation.Path} {earlier : List LabelledIndex}
    {index : LabelledIndex} (h : v ∈ coverViolations path earlier index) :
    v.kind = .duplicateIndex := by
  unfold coverViolations at h
  split at h <;> simp_all

theorem kind_of_mem_columnIndexViolations {path : Violation.Path}
    (h : v ∈ columnIndexViolations model path) :
    v.kind ∈ [.emptyIndex, .duplicateIndexField, .invalidIdentifier, .unknownIndexField,
      .duplicateIndex] := by
  obtain ⟨⟨earlier, index⟩, -, h⟩ := List.mem_flatMap.mp h
  dsimp only at h
  split at h
  · simp_all
  · rcases List.mem_append.mp h with h | h
    · obtain ⟨⟨earlier, name⟩, -, h⟩ := List.mem_flatMap.mp h
      dsimp only at h
      repeat' split at h
      all_goals simp_all
    · simp [kind_of_mem_coverViolations h]

theorem kind_of_mem_textCoverViolations {path : Violation.Path}
    {earlier : List (String × String)} {label name : String}
    (h : v ∈ textCoverViolations path earlier label name) : v.kind = .duplicateIndex := by
  unfold textCoverViolations at h
  split at h <;> simp_all

theorem kind_of_mem_textIndexViolations {path : Violation.Path}
    (h : v ∈ textIndexViolations model path) :
    v.kind ∈ [.invalidIdentifier, .invalidTextIndex, .unknownIndexField, .duplicateIndex] := by
  obtain ⟨⟨earlier, label, name⟩, -, h⟩ := List.mem_flatMap.mp h
  dsimp only at h
  rcases List.mem_append.mp h with h | h
  · unfold textColumnViolations at h
    dsimp only at h
    repeat' split at h
    all_goals simp_all
  · simp [kind_of_mem_textCoverViolations h]

theorem kind_of_mem_ambiguityViolations (h : v ∈ ambiguityViolations app) :
    v.kind = .ambiguousRelation := by
  obtain ⟨f, -, rfl⟩ := List.mem_map.mp h
  rfl

end SchemaGate.Validation
