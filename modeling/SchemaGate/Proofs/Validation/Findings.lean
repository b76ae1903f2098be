import SchemaGate.Proofs.Validation.Kinds

/-!
# The violations of one kind

All violations are given in one list. Those of one kind come from the checks that report it, in the
order of these checks: what a component's file does not have as planned is found component by
component (`ofKind_violations_of_component`), what is wrong with a model model by model
(`ofKind_violations_of_model`), and relations that cannot be told apart by a check of their own
(`ofKind_ambiguousRelation`).
-/

namespace SchemaGate.Validation

/-- The violations of one kind, in their order. -/
def ofKind (kind : Violation.Kind) (vs : List Violation) : List Violation :=
  vs.filter (·.kind = kind)

section

variable {α : Type} {kind : Violation.Kind} {vs ws : List Violation}

@[simp] theorem ofKind_append : ofKind kind (vs ++ ws) = ofKind kind vs ++ ofKind kind ws :=
  List.filter_append ..

@[simp] theorem ofKind_flatMap {f : α → List Violation} {l : List α} :
    ofKind kind (l.flatMap f) = l.flatMap fun a => ofKind kind (f a) :=
  List.filter_flatMap

theorem ofKind_eq_self (h : ∀ v ∈ vs, v.kind = kind) : ofKind kind vs = vs :=
  List.filter_eq_self.mpr fun v hv => decide_eq_true (h v hv)

/-- Nothing is found of a kind by a check of other kinds. -/
theorem ofKind_eq_nil {kinds : List Violation.Kind} (h : ∀ v ∈ vs, v.kind ∈ kinds)
    (hkind : kind ∉ kinds) : ofKind kind vs = [] := by
  rw [ofKind, List.filter_eq_nil_iff]
  intro v hv hsame
  exact hkind (of_decide_eq_true hsame ▸ h v hv)

theorem ofKind_eq_nil_of_ne {other : Violation.Kind} (h : ∀ v ∈ vs, v.kind = other)
    (hne : kind ≠ other) : ofKind kind vs = [] :=
  ofKind_eq_nil (fun v hv => List.mem_singleton.mpr (h v hv)) (by simpa using hne)

end

/-! ### Which checks report a kind -/

/-- What is found of the lists of files and of models. -/
def listKinds : List Violation.Kind :=
  [.duplicateFile, .emptyFile, .unexpectedFile, .duplicateModel]

/-- What is found of a component with its file. -/
def componentKinds : List Violation.Kind :=
  [.missingFile, .namespaceMismatch, .missingModel, .unexpectedModel]

/-- What is found of a model. -/
def modelKinds : List Violation.Kind :=
  [.invalidIdentifier, .invalidRelationName, .duplicateField, .danglingRelation, .emptyIndex,
    .duplicateIndexField, .unknownIndexField, .duplicateIndex, .invalidTextIndex]

variable {s : Scope} {app : Application} {kind : Violation.Kind}

theorem kind_of_mem_modelViolations {file : SchemaFile} {model : Model} {v : Violation}
    (h : v ∈ s.modelViolations app file model) : v.kind ∈ modelKinds := by
  simp only [Scope.modelViolations, indexViolations, List.mem_append] at h
  rcases h with (((h | h) | h) | h) | h | h
  · simp [kind_of_mem_identifierViolations h, modelKinds]
  · have hsub : [.invalidIdentifier, .duplicateField] ⊆ modelKinds := by decide
    exact hsub (kind_of_mem_columnViolations h)
  · have hsub : [.invalidRelationName, .duplicateField, .danglingRelation] ⊆ modelKinds := by decide
    exact hsub (kind_of_mem_relationViolations h)
  · simp [kind_of_mem_backRelationViolations h, modelKinds]
  · have hsub : [.emptyIndex, .duplicateIndexField, .invalidIdentifier, .unknownIndexField,
        .duplicateIndex] ⊆ modelKinds := by decide
    exact hsub (kind_of_mem_columnIndexViolations h)
  · have hsub : [.invalidIdentifier, .invalidTextIndex, .unknownIndexField, .duplicateIndex] ⊆
        modelKinds := by decide
    exact hsub (kind_of_mem_textIndexViolations h)

/-- What is not found of the lists is found of components, of models, or of pairs of models. -/
theorem ofKind_violations (hlist : kind ∉ listKinds) :
    ofKind kind (s.violations app) =
      s.components.flatMap (fun c => ofKind kind (componentViolations s.known app c)) ++
        app.declarations.flatMap (fun d => ofKind kind (s.modelViolations app d.1 d.2)) ++
        ofKind kind (ambiguityViolations app) := by
  have hfiles : ofKind kind (fileViolations app) = [] := by
    refine ofKind_eq_nil (fun v hv => ?_) hlist
    rcases kind_of_mem_fileViolations hv with h | h <;> simp [h, listKinds]
  have hstray : ofKind kind (strayFileViolations s.known app) = [] :=
    ofKind_eq_nil (fun v hv => by simp [kind_of_mem_strayFileViolations hv, listKinds]) hlist
  have hnames : ofKind kind (modelNameViolations app) = [] :=
    ofKind_eq_nil (fun v hv => by simp [kind_of_mem_modelNameViolations hv, listKinds]) hlist
  simp only [Scope.violations, ofKind_append, ofKind_flatMap, hfiles, hstray, hnames,
    List.nil_append, List.append_nil]

theorem ofKind_components_eq_nil (hkind : kind ∉ componentKinds) :
    s.components.flatMap (fun c => ofKind kind (componentViolations s.known app c)) = [] :=
  List.flatMap_eq_nil_iff.mpr fun _ _ =>
    ofKind_eq_nil (fun _ hv => kind_of_mem_componentViolations hv) hkind

theorem ofKind_models_eq_nil (hkind : kind ∉ modelKinds) :
    app.declarations.flatMap (fun d => ofKind kind (s.modelViolations app d.1 d.2)) = [] :=
  List.flatMap_eq_nil_iff.mpr fun _ _ =>
    ofKind_eq_nil (fun _ hv => kind_of_mem_modelViolations hv) hkind

theorem ofKind_ambiguityViolations_eq_nil (hkind : kind ≠ .ambiguousRelation) :
    ofKind kind (ambiguityViolations app) = [] :=
  ofKind_eq_nil_of_ne (fun _ hv => kind_of_mem_ambiguityViolations hv) hkind

theorem ofKind_violations_of_component (hkind : kind ∈ componentKinds) :
    ofKind kind (s.violations app) =
      s.components.flatMap fun c => ofKind kind (componentViolations s.known app c) := by
  have helsewhere : kind ∉ listKinds ∧ kind ∉ modelKinds ∧ kind ≠ .ambiguousRelation := by
    revert hkind
    cases kind <;> decide
  obtain ⟨hlist, hmodel, hpair⟩ := helsewhere
  rw [ofKind_violations hlist, ofKind_models_eq_nil hmodel, ofKind_ambiguityViolations_eq_nil hpair,
    List.append_nil, List.append_nil]

theorem ofKind_violations_of_model (hkind : kind ∈ modelKinds) :
    ofKind kind (s.violations app) =
      app.declarations.flatMap fun d => ofKind kind (s.modelViolations app d.1 d.2) := by
  have helsewhere : kind ∉ listKinds ∧ kind ∉ componentKinds ∧ kind ≠ .ambiguousRelation := by
    revert hkind
    cases kind <;> decide
  obtain ⟨hlist, hcomponent, hpair⟩ := helsewhere
  rw [ofKind_violations hlist, ofKind_components_eq_nil hcomponent,
    ofKind_ambiguityViolations_eq_nil hpair, List.nil_append, List.append_nil]

theorem ofKind_ambiguousRelation :
    ofKind .ambiguousRelation (s.violations app) = ambiguityViolations app := by
  rw [ofKind_violations (by decide), ofKind_components_eq_nil (by decide),
    ofKind_models_eq_nil (by decide), List.nil_append, List.nil_append]
  exact ofKind_eq_self fun _ hv => kind_of_mem_ambiguityViolations hv

end SchemaGate.Validation
