import SchemaGate.Proofs.Validation.Ambiguity
import SchemaGate.Proofs.Validation.Correspondence
import SchemaGate.Proofs.Validation.Indexes
import SchemaGate.Proofs.Validation.Names
import SchemaGate.Validation

/-!
# What is accepted

An application is accepted exactly when it keeps every rule of its scope (`violations_eq_nil_iff`),
and the rules are those a reader would write down, with no list that is walked and no name that is
remembered on the way. `validate_isOk_iff_rules` spells them out for a whole application, where
nothing is delivered elsewhere.
-/

namespace SchemaGate

/-- An application keeps every rule of its scope. -/
structure Conforms (s : Scope) (app : Application) : Prop where
  corresponds : Corresponds s.components s.known app
  models : ModelsNamed app
  properties : ∀ model ∈ app.models, PropertiesNamed app model
  targets : ∀ f ∈ app.foreigns, f.target ∈ s.targets app
  labels : RelationsLabelled app
  indexes : ∀ model ∈ app.models, IndexesSound model

namespace Scope

open Validation

theorem modelViolations_eq_nil_iff {s : Scope} {app : Application} {file : SchemaFile}
    {model : Model} :
    s.modelViolations app file model = [] ↔
      identifierViolations file model = [] ∧ PropertiesNamed app model ∧
        (∀ field ∈ model.foreign, field.relation.target ∈ s.targets app) ∧
        IndexesSound model := by
  have hproperties : (PropertiesNamed app model ∧
      ∀ field ∈ model.foreign, field.relation.target ∈ s.targets app) ↔
        columnViolations file model = [] ∧ relationViolations (s.targets app) file model = [] ∧
          backRelationViolations app model = [] := propertiesNamed_iff
  simp only [modelViolations, List.append_eq_nil_iff]
  constructor
  · rintro ⟨⟨⟨⟨hidentifier, hcolumns⟩, hrelations⟩, hback⟩, hindexes⟩
    obtain ⟨hnamed, htargets⟩ := hproperties.mpr ⟨hcolumns, hrelations, hback⟩
    have hnodup := (nodup_properties_iff.mp hnamed.nodup).1
    exact ⟨hidentifier, hnamed, htargets,
      (indexViolations_eq_nil_iff hnamed.identifiers hnodup).mp hindexes⟩
  · rintro ⟨hidentifier, hnamed, htargets, hindexes⟩
    obtain ⟨hcolumns, hrelations, hback⟩ := hproperties.mp ⟨hnamed, htargets⟩
    have hnodup := (nodup_properties_iff.mp hnamed.nodup).1
    exact ⟨⟨⟨⟨hidentifier, hcolumns⟩, hrelations⟩, hback⟩,
      (indexViolations_eq_nil_iff hnamed.identifiers hnodup).mpr hindexes⟩

/-- Nothing is reported exactly when every rule of the scope is kept. -/
theorem violations_eq_nil_iff {s : Scope} {app : Application} :
    s.violations app = [] ↔ Conforms s app := by
  simp only [violations, List.append_eq_nil_iff, List.flatMap_eq_nil_iff,
    modelViolations_eq_nil_iff, ambiguityViolations_eq_nil_iff]
  constructor
  · rintro ⟨⟨⟨⟨⟨hfiles, hcomponents⟩, hstray⟩, hnames⟩, hmodels⟩, hlabels⟩
    refine ⟨corresponds_iff.mpr ⟨hfiles, hcomponents, hstray⟩,
      modelsNamed_iff.mpr ⟨hnames, fun d hd => (hmodels d hd).1⟩, ?_, ?_, hlabels, ?_⟩
    · exact Application.forall_models_iff.mpr fun d hd => (hmodels d hd).2.1
    · exact Application.forall_foreigns_iff.mpr fun d hd => (hmodels d hd).2.2.1
    · exact Application.forall_models_iff.mpr fun d hd => (hmodels d hd).2.2.2
  · intro h
    obtain ⟨hfiles, hcomponents, hstray⟩ := corresponds_iff.mp h.corresponds
    obtain ⟨hnames, hidentifiers⟩ := modelsNamed_iff.mp h.models
    refine ⟨⟨⟨⟨⟨hfiles, hcomponents⟩, hstray⟩, hnames⟩, fun d hd => ?_⟩, h.labels⟩
    exact ⟨hidentifiers d hd, Application.forall_models_iff.mp h.properties d hd,
      Application.forall_foreigns_iff.mp h.targets d hd,
      Application.forall_models_iff.mp h.indexes d hd⟩

theorem application_of_validate {s : Scope} {app : Application} {whole : Accepted s}
    (h : s.validate app = .ok whole) : whole.application = app := by
  rw [validate] at h
  split at h
  · exact (Except.ok.inj h) ▸ rfl
  · cases h

theorem violations_of_validate {s : Scope} {app : Application} {violations : List Violation}
    (h : s.validate app = .error violations) : s.violations app = violations ∧ violations ≠ [] := by
  rw [validate] at h
  split at h
  · cases h
  · next hne =>
    obtain rfl := Except.error.inj h
    exact ⟨rfl, hne⟩

theorem validate_eq_error_iff {s : Scope} {app : Application} {violations : List Violation} :
    s.validate app = .error violations ↔ s.violations app = violations ∧ violations ≠ [] := by
  refine ⟨violations_of_validate, ?_⟩
  rintro ⟨rfl, hne⟩
  rw [validate, dif_neg hne]

theorem validate_isOk_iff_conforms {s : Scope} {app : Application} :
    (s.validate app).isOk ↔ Conforms s app := by
  rw [validate_isOk_iff, violations_eq_nil_iff]

/-- A whole application is accepted exactly when its files and components correspond, its model
names and the properties of each model are well-formed and used once, every relation points at one
of its models, relations of the same two models have labels of their own, and indexes cover existing
columns, each choice of them once. -/
theorem validate_isOk_iff_rules (components : List Component) (app : Application) :
    (validate ⟨components, []⟩ app).isOk ↔
      Corresponds components components app ∧ ModelsNamed app ∧
        (∀ model ∈ app.models, PropertiesNamed app model) ∧
        (∀ f ∈ app.foreigns, f.target ∈ app.modelNames) ∧
        RelationsLabelled app ∧ ∀ model ∈ app.models, IndexesSound model := by
  have hknown : known ⟨components, []⟩ = components := List.append_nil components
  have htargets : targets ⟨components, []⟩ app = app.modelNames := List.append_nil app.modelNames
  rw [validate_isOk_iff_conforms]
  constructor
  · intro h
    have hcorresponds := h.corresponds
    have hexist := h.targets
    rw [hknown] at hcorresponds
    rw [htargets] at hexist
    exact ⟨hcorresponds, h.models, h.properties, hexist, h.labels, h.indexes⟩
  · rintro ⟨hcorresponds, hmodels, hproperties, hexist, hlabels, hindexes⟩
    exact ⟨hknown.symm ▸ hcorresponds, hmodels, hproperties, htargets.symm ▸ hexist, hlabels,
      hindexes⟩

end Scope

end SchemaGate
