import SchemaGate.Proofs.Repeats
import SchemaGate.Proofs.Schema.Application
import SchemaGate.Proofs.Validation.IndexReports
import SchemaGate.Validation

/-!
# The file that a violation names

Every violation stands somewhere: its path names the file that it was found in, or the file that a
checked component was to have (`file_of_mem_violations`). So each can be sent to whoever delivered
the file.
-/

namespace SchemaGate

namespace Validation

variable {app : Application} {file : SchemaFile} {model : Model} {v : Violation}

/-! ### Files and components -/

theorem file_of_mem_fileViolations (h : v ∈ fileViolations app) :
    ∃ file ∈ app.files, v.path.file = some file.filename := by
  obtain ⟨⟨earlier, file⟩, hmem, h⟩ := List.mem_flatMap.mp h
  refine ⟨file, mem_of_mem_withEarlier hmem, ?_⟩
  rcases List.mem_append.mp h with h | h <;> split at h <;> simp_all [Violation.Path.ofFile]

theorem file_of_mem_componentViolations {known : List Component} {c : Component}
    (h : v ∈ componentViolations known app c) : v.path.file = some c.filename := by
  unfold componentViolations at h
  split at h
  · simp_all [Violation.Path.ofComponent]
  · simp only [List.mem_append] at h
    rcases h with (h | h) | h
    · unfold labelViolations at h
      split at h <;> simp_all [Violation.Path.ofComponent]
    · obtain ⟨table, -, rfl⟩ := List.mem_map.mp h
      rfl
    · obtain ⟨model, -, rfl⟩ := List.mem_map.mp h
      rfl

theorem file_of_mem_strayFileViolations {known : List Component}
    (h : v ∈ strayFileViolations known app) :
    ∃ file ∈ app.files, v.path.file = some file.filename := by
  obtain ⟨file, hmem, rfl⟩ := List.mem_map.mp h
  exact ⟨file, List.mem_of_mem_filter hmem, rfl⟩

/-! ### Names and relations -/

theorem file_of_mem_modelNameViolations (h : v ∈ modelNameViolations app) :
    ∃ file ∈ app.files, v.path.file = some file.filename := by
  obtain ⟨⟨earlier, file, model⟩, hmem, h⟩ := List.mem_flatMap.mp h
  refine ⟨file, (Application.mem_declarations.mp (mem_of_mem_withEarlier hmem)).1, ?_⟩
  dsimp only at h
  split at h <;> simp_all [Violation.Path.ofFile]

theorem file_of_mem_identifierViolations (h : v ∈ identifierViolations file model) :
    v.path.file = some file.filename := by
  unfold identifierViolations at h
  split at h <;> simp_all [modelPath, Violation.Path.ofFile]

theorem file_of_mem_columnViolations (h : v ∈ columnViolations file model) :
    v.path.file = some file.filename := by
  obtain ⟨⟨earlier, name⟩, -, h⟩ := List.mem_flatMap.mp h
  rcases List.mem_append.mp h with h | h <;> split at h <;>
    simp_all [modelPath, Violation.Path.ofFile]

theorem file_of_mem_relationViolations {targets : List String}
    (h : v ∈ relationViolations targets file model) : v.path.file = some file.filename := by
  obtain ⟨⟨earlier, field⟩, -, h⟩ := List.mem_flatMap.mp h
  simp only [List.mem_append] at h
  rcases h with (h | h) | h
  · obtain ⟨label, -, rfl⟩ := List.mem_map.mp h
    rfl
  · unfold relationNameViolations at h
    split at h <;> simp_all [Violation.Path.ofForeign, Violation.Path.ofFile]
  · unfold targetViolations at h
    split at h <;> simp_all [Violation.Path.ofForeign, Violation.Path.ofFile]

/-- A relation is in the file that holds it. -/
theorem file_of_mem_foreigns {f : Foreign} (hf : f ∈ app.foreigns) : f.file ∈ app.files :=
  (Application.mem_declarations.mp (Application.mem_foreigns.mp hf).1).1

theorem file_of_mem_backRelationViolations (h : v ∈ backRelationViolations app model) :
    ∃ file ∈ app.files, v.path.file = some file.filename := by
  obtain ⟨⟨earlier, f⟩, hmem, h⟩ := List.mem_flatMap.mp h
  refine ⟨f.file, ?_, ?_⟩
  · exact file_of_mem_foreigns (Application.mem_foreignsTo.mp (mem_of_mem_withEarlier hmem)).1
  · dsimp only at h
    split at h <;> simp_all [Violation.Path.ofForeign, Violation.Path.ofFile]

theorem file_of_mem_ambiguityViolations (h : v ∈ ambiguityViolations app) :
    ∃ file ∈ app.files, v.path.file = some file.filename := by
  obtain ⟨f, hf, rfl⟩ := List.mem_map.mp h
  exact ⟨f.file, file_of_mem_foreigns (List.mem_of_mem_filter hf), rfl⟩

/-! ### Indexes -/

theorem file_of_mem_indexViolations (h : v ∈ indexViolations file model) :
    v.path.file = some file.filename := by
  rw [indexViolations_eq_flatMap] at h
  obtain ⟨r, hr, hv⟩ := List.mem_flatMap.mp h
  rw [path_of_mem_indexReports file model hr hv]
  rfl

end Validation

namespace Scope

open Validation

variable {s : Scope} {app : Application} {v : Violation}

/-- Every violation names the file that it was found in, or that of a checked component. -/
theorem file_of_mem_violations (h : v ∈ s.violations app) :
    (∃ file ∈ app.files, v.path.file = some file.filename) ∨
      ∃ c ∈ s.components, v.path.file = some c.filename := by
  simp only [violations, List.mem_append] at h
  rcases h with ((((h | h) | h) | h) | h) | h
  · exact .inl (file_of_mem_fileViolations h)
  · obtain ⟨c, hc, h⟩ := List.mem_flatMap.mp h
    exact .inr ⟨c, hc, file_of_mem_componentViolations h⟩
  · exact .inl (file_of_mem_strayFileViolations h)
  · exact .inl (file_of_mem_modelNameViolations h)
  · obtain ⟨⟨file, model⟩, hdecl, h⟩ := List.mem_flatMap.mp h
    have hfile : file ∈ app.files := (Application.mem_declarations.mp hdecl).1
    simp only [modelViolations, List.mem_append] at h
    rcases h with (((h | h) | h) | h) | h
    · exact .inl ⟨file, hfile, file_of_mem_identifierViolations h⟩
    · exact .inl ⟨file, hfile, file_of_mem_columnViolations h⟩
    · exact .inl ⟨file, hfile, file_of_mem_relationViolations h⟩
    · exact .inl (file_of_mem_backRelationViolations h)
    · exact .inl ⟨file, hfile, file_of_mem_indexViolations h⟩
  · exact .inl (file_of_mem_ambiguityViolations h)

end Scope

end SchemaGate
