import SchemaGate.Proofs.Repeats
import SchemaGate.Proofs.Schema.Application
import SchemaGate.Validation.Correspondence

/-!
# Files that realize components

The rules behind the checks on files and components: a file realizes a component when it carries the
component's filename and domain label and its models are the component's tables. Each check reports
nothing exactly when its rule holds, whatever the order of tables and models, and all of them
together when the files and the components correspond (`corresponds_iff`).
-/

namespace SchemaGate

/-- The file is what the component plans. -/
structure SchemaFile.Realizes (file : SchemaFile) (c : Component) : Prop where
  filename : file.filename = c.filename
  domain : file.domain = c.domain
  tables : ∀ table, table ∈ file.modelNames ↔ table ∈ c.tables

/-- Each of the `checked` components has its file, and each file belongs to one that is `known`. -/
structure Corresponds (checked known : List Component) (app : Application) : Prop where
  filenames_nodup : (app.files.map (·.filename)).Nodup
  models_ne_nil : ∀ file ∈ app.files, file.models ≠ []
  planned : ∀ file ∈ app.files, ∃ c ∈ known, c.filename = file.filename
  realized : ∀ c ∈ checked, ∃ file ∈ app.files, file.Realizes c

namespace Validation

/-! ### The files by themselves -/

theorem fileViolations_eq_nil_iff {app : Application} :
    fileViolations app = [] ↔
      (∀ file ∈ app.files, file.models ≠ []) ∧ (app.files.map (·.filename)).Nodup := by
  rw [fileViolations, List.flatMap_eq_nil_iff]
  refine forall_withEarlier_iff fun earlier file => ?_
  simp [and_comm]

/-! ### Each component with its file -/

theorem labelViolations_eq_nil_iff {c : Component} {file : SchemaFile} :
    labelViolations c file = [] ↔ file.domain = c.domain := by
  simp [labelViolations]

theorem missingModelViolations_eq_nil_iff {c : Component} {file : SchemaFile} :
    missingModelViolations c file = [] ↔ ∀ table ∈ c.tables, table ∈ file.modelNames := by
  simp [missingModelViolations, List.filter_eq_nil_iff]

theorem unexpectedModelViolations_eq_nil_iff {known : List Component} {c : Component}
    {file : SchemaFile} :
    unexpectedModelViolations known c file = [] ↔ ∀ table ∈ file.modelNames, table ∈ c.tables := by
  simp [unexpectedModelViolations, List.filter_eq_nil_iff, SchemaFile.modelNames, Component.owns]

theorem componentViolations_eq_nil_iff {known : List Component} {app : Application}
    {c : Component} :
    componentViolations known app c = [] ↔
      ∃ file, app.file? c.filename = some file ∧ file.Realizes c := by
  rw [componentViolations]
  cases hfile : app.file? c.filename with
  | none => simp
  | some file =>
    simp only [List.append_eq_nil_iff, labelViolations_eq_nil_iff,
      missingModelViolations_eq_nil_iff, unexpectedModelViolations_eq_nil_iff, Option.some.injEq,
      exists_eq_left']
    constructor
    · rintro ⟨⟨hdomain, hmissing⟩, hunexpected⟩
      exact ⟨(Application.mem_of_file? hfile).2, hdomain,
        fun table => ⟨hunexpected table, hmissing table⟩⟩
    · intro h
      exact ⟨⟨h.domain, fun table => (h.tables table).mpr⟩, fun table => (h.tables table).mp⟩

/-! ### Files without a component -/

theorem strayFileViolations_eq_nil_iff {known : List Component} {app : Application} :
    strayFileViolations known app = [] ↔
      ∀ file ∈ app.files, ∃ c ∈ known, c.filename = file.filename := by
  simp [strayFileViolations, List.filter_eq_nil_iff]

/-- The checks on files and components report nothing exactly when these correspond. -/
theorem corresponds_iff {checked known : List Component} {app : Application} :
    Corresponds checked known app ↔
      fileViolations app = [] ∧ (∀ c ∈ checked, componentViolations known app c = []) ∧
        strayFileViolations known app = [] := by
  rw [fileViolations_eq_nil_iff, strayFileViolations_eq_nil_iff]
  simp only [componentViolations_eq_nil_iff]
  constructor
  · intro h
    refine ⟨⟨h.models_ne_nil, h.filenames_nodup⟩, fun c hc => ?_, h.planned⟩
    obtain ⟨file, hfile, hrealizes⟩ := h.realized c hc
    refine ⟨file, ?_, hrealizes⟩
    rw [← hrealizes.filename]
    exact Application.file?_of_nodup h.filenames_nodup hfile
  · rintro ⟨⟨hmodels, hnodup⟩, hrealized, hplanned⟩
    refine ⟨hnodup, hmodels, hplanned, fun c hc => ?_⟩
    obtain ⟨file, hfile, hrealizes⟩ := hrealized c hc
    exact ⟨file, (Application.mem_of_file? hfile).1, hrealizes⟩

end Validation

end SchemaGate
