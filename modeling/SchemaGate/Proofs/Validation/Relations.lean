import Mathlib.Data.List.Perm.Basic
import SchemaGate.Proofs.Validation.Findings
import SchemaGate.Proofs.Validation.Isolation

/-!
# Relations that are reported

A relation is reported as ambiguous exactly when relations of its two models have to be told apart
and no label of its own tells it (`ambiguities_reported`), and as dangling exactly when its target
is no model of the application and no table delivered elsewhere (`dangling_relations_reported`).
Both are found in the order of the application, each relation once, and wherever it is held. So
where a model is taken out of an accepted application, the relations that pointed at it dangle and
no others.
-/

namespace SchemaGate

open Validation

/-! ### Relations that cannot be told apart -/

section

variable {α : Type} {p : α → Bool} {l : List α} {a : α} {place : Nat}

/-- An element is one of several exactly when another place has such an element too. -/
theorem one_lt_countP_iff_eraseIdx (h : l[place]? = some a) (ha : p a) :
    1 < l.countP p ↔ ∃ b ∈ l.eraseIdx place, p b := by
  obtain ⟨hplace, rfl⟩ := List.getElem?_eq_some_iff.mp h
  rw [← (List.getElem_cons_eraseIdx_perm hplace).countP_eq, List.countP_cons_of_pos ha,
    Nat.lt_add_left_iff_pos, List.countP_pos_iff]

end

/-- The relation at a place among all relations cannot be told apart: relations of its two models
need labels, and it has none, or one that a relation at another place gives to the same models. -/
def Application.AmbiguousAt (app : Application) (place : Nat) (f : Foreign) : Prop :=
  (2 ≤ (app.linking f.ends).length ∨ f.model.name = f.target) ∧
    (f.label = none ∨ ∃ g ∈ app.foreigns.eraseIdx place, g.ends = f.ends ∧ g.label = f.label)

instance (app : Application) (place : Nat) (f : Foreign) : Decidable (app.AmbiguousAt place f) :=
  inferInstanceAs (Decidable (_ ∧ _))

namespace Validation

variable {app : Application} {place : Nat} {f : Foreign}

/-- The count of a label among the relations of its two models tells whether another place has it. -/
theorem lacksOwnLabel_iff (h : app.foreigns[place]? = some f) :
    lacksOwnLabel app f ↔ f.label = none ∨
      ∃ g ∈ app.foreigns.eraseIdx place, g.ends = f.ends ∧ g.label = f.label := by
  have hcount : ((app.linking f.ends).map (·.label)).count f.label =
      app.foreigns.countP fun g => decide (g.ends = f.ends ∧ g.label = f.label) := by
    rw [List.count, List.countP_map, Application.linking, List.countP_filter]
    congr 1
    funext g
    simp [beq_eq_decide, Bool.and_comm]
  have hother := one_lt_countP_iff_eraseIdx
    (p := fun g => decide (g.ends = f.ends ∧ g.label = f.label)) h (by simp)
  rw [← not_iff_not, not_lacksOwnLabel_iff, hcount, not_or, ← Nat.not_lt, hother]
  simp

theorem ambiguousAt_iff (h : app.foreigns[place]? = some f) :
    app.AmbiguousAt place f ↔ needsLabel app f ∧ lacksOwnLabel app f := by
  have hneeds : needsLabel app f ↔
      2 ≤ (app.linking f.ends).length ∨ f.model.name = f.target := by
    rw [needsLabel_iff, Foreign.ends, Sym2.mk_isDiag_iff]
    exact Iff.rfl
  rw [hneeds, lacksOwnLabel_iff h, Application.AmbiguousAt]

end Validation

/-- Of all relations, those that cannot be told apart are reported, each once and in the order of
the application. -/
theorem ambiguities_reported (s : Scope) (app : Application) :
    ofKind .ambiguousRelation (s.violations app) =
      (app.foreigns.zipIdx.filter fun (f, place) => app.AmbiguousAt place f).map fun (f, _) =>
        { kind := .ambiguousRelation, path := .ofForeign f, message := ambiguityMessage app f } := by
  have hplaces : (app.foreigns.zipIdx.filter fun (f, place) => app.AmbiguousAt place f) =
      app.foreigns.zipIdx.filter fun (f, _) => needsLabel app f && lacksOwnLabel app f := by
    refine List.filter_congr fun ⟨f, place⟩ hmem => ?_
    rw [Bool.eq_iff_iff, decide_eq_true_iff, Bool.and_eq_true]
    exact ambiguousAt_iff (List.mem_zipIdx_iff_getElem?.mp hmem)
  have hfound : ambiguityViolations app =
      (app.foreigns.zipIdx.filter fun (f, _) => needsLabel app f && lacksOwnLabel app f).map
        fun (f, _) => { kind := .ambiguousRelation, path := .ofForeign f,
                        message := ambiguityMessage app f } := by
    rw [ambiguityViolations]
    conv_lhs => rw [← List.zipIdx_map_fst 0 app.foreigns, List.filter_map, List.map_map]
    rfl
  rw [ofKind_ambiguousRelation, hfound, hplaces]

/-! ### Relations without a target -/

/-- The relation points at no model of the application and at no table delivered elsewhere. -/
def Scope.Dangles (s : Scope) (app : Application) (f : Foreign) : Prop :=
  f.target ∉ app.modelNames ∧ ∀ c ∈ s.others, f.target ∉ c.tables

instance (s : Scope) (app : Application) (f : Foreign) : Decidable (s.Dangles app f) :=
  inferInstanceAs (Decidable (_ ∧ _))

/-- What is reported of a relation without a target. -/
def danglingViolation (f : Foreign) : Violation :=
  { kind := .danglingRelation, path := .ofForeign f,
    message := s!"relation '{f.field.relation.name}' targets model '{f.target}' which does not exist" }

namespace Validation

variable {targets : List String} {file : SchemaFile} {model : Model}

/-- Of the relations that a model holds, those without a target are found one by one. -/
theorem ofKind_dangling_relationViolations :
    ofKind .danglingRelation (relationViolations targets file model) =
      model.foreign.flatMap fun field => targetViolations targets ⟨file, model, field⟩ := by
  have hshape : ∀ f : Foreign, ofKind .danglingRelation (labelShapeViolations f) = [] := fun f =>
    ofKind_eq_nil_of_ne (fun _ hv => kind_of_mem_labelShapeViolations hv) (by decide)
  have hname : ∀ (taken : List String) (f : Foreign),
      ofKind .danglingRelation (relationNameViolations taken f) = [] := fun taken f =>
    ofKind_eq_nil_of_ne (fun _ hv => kind_of_mem_relationNameViolations hv) (by decide)
  have htarget : ∀ f : Foreign, ofKind .danglingRelation (targetViolations targets f) =
      targetViolations targets f := fun f =>
    ofKind_eq_self fun _ hv => kind_of_mem_targetViolations hv
  simp only [relationViolations, ofKind_flatMap, ofKind_append, hshape, hname, htarget,
    List.nil_append]
  exact flatMap_withEarlier_snd (fun field => targetViolations targets ⟨file, model, field⟩) _

/-- Of a model, the check on its relations alone finds those without a target. -/
theorem ofKind_dangling_modelViolations {s : Scope} {app : Application} :
    ofKind .danglingRelation (s.modelViolations app file model) =
      model.foreign.flatMap fun field => targetViolations (s.targets app) ⟨file, model, field⟩ := by
  have hidentifier : ofKind .danglingRelation (identifierViolations file model) = [] :=
    ofKind_eq_nil_of_ne (fun _ hv => kind_of_mem_identifierViolations hv) (by decide)
  have hcolumns : ofKind .danglingRelation (columnViolations file model) = [] :=
    ofKind_eq_nil (fun _ hv => kind_of_mem_columnViolations hv) (by decide)
  have hback : ofKind .danglingRelation (backRelationViolations app model) = [] :=
    ofKind_eq_nil_of_ne (fun _ hv => kind_of_mem_backRelationViolations hv) (by decide)
  have hindexes : ofKind .danglingRelation (indexViolations file model) = [] := by
    rw [indexViolations, ofKind_append,
      ofKind_eq_nil (fun _ hv => kind_of_mem_columnIndexViolations hv) (by decide),
      ofKind_eq_nil (fun _ hv => kind_of_mem_textIndexViolations hv) (by decide), List.nil_append]
  simp only [Scope.modelViolations, ofKind_append, hidentifier, hcolumns, hback, hindexes,
    ofKind_dangling_relationViolations, List.nil_append, List.append_nil]

/-- Of one relation, that it dangles is found where it does. -/
theorem targetViolations_eq (s : Scope) (app : Application) (f : Foreign) :
    targetViolations (s.targets app) f = if s.Dangles app f then [danglingViolation f] else [] := by
  have hiff : s.Dangles app f ↔ f.target ∉ s.targets app := by
    simp [Scope.Dangles, Scope.targets]
  rw [targetViolations]
  by_cases hf : f.target ∈ s.targets app
  · rw [if_pos (List.contains_iff_mem.mpr hf), if_neg (fun h => hiff.mp h hf)]
  · rw [if_neg (fun h => hf (List.contains_iff_mem.mp h)), if_pos (hiff.mpr hf)]
    rfl

theorem ofKind_danglingRelation (s : Scope) (app : Application) :
    ofKind .danglingRelation (s.violations app) =
      (app.foreigns.filter fun f => s.Dangles app f).map danglingViolation := by
  rw [ofKind_violations_of_model (by decide)]
  simp only [ofKind_dangling_modelViolations]
  rw [← flatMap_ite_eq_map_filter, Application.foreigns, List.flatMap_assoc]
  simp only [List.flatMap_map, targetViolations_eq]

end Validation

/-! ### A model that is taken out -/

/-- The application without the models of a name. -/
def Application.without (app : Application) (name : String) : Application :=
  ⟨app.files.map fun file => { file with models := file.models.filter (·.name ≠ name) }⟩

section

variable {app : Application} {name : String}

theorem modelNames_without (app : Application) (name : String) :
    (app.without name).modelNames = app.modelNames.filter (· ≠ name) := by
  simp only [Application.modelNames, Application.models, Application.without, List.flatMap_map,
    ← List.filter_flatMap, List.filter_map]
  rfl

/-- The relations that are left are held and point as before. -/
theorem exists_foreign_of_without {f : Foreign} (hf : f ∈ (app.without name).foreigns) :
    ∃ g ∈ app.foreigns, g.target = f.target := by
  obtain ⟨hdecl, hfield⟩ := Application.mem_foreigns.mp hf
  obtain ⟨hfile, hmodel⟩ := Application.mem_declarations.mp hdecl
  obtain ⟨home, hhome, hsame⟩ := List.mem_map.mp hfile
  have hmodel : f.model ∈ home.models := by
    rw [← hsame] at hmodel
    exact List.mem_of_mem_filter hmodel
  exact ⟨⟨home, f.model, f.field⟩,
    Application.mem_foreigns.mpr ⟨Application.mem_declarations.mpr ⟨hhome, hmodel⟩, hfield⟩, rfl⟩

variable {components : List Component}

/-- Where a model is taken out of an accepted application, what pointed at it dangles. -/
theorem Conforms.dangles_without (h : Conforms ⟨components, []⟩ app) {f : Foreign}
    (hf : f ∈ (app.without name).foreigns) :
    Scope.Dangles ⟨components, []⟩ (app.without name) f ↔ f.target = name := by
  obtain ⟨g, hg, hsame⟩ := exists_foreign_of_without hf
  have htarget : f.target ∈ app.modelNames := by
    simpa [Scope.targets, hsame] using h.targets g hg
  rw [Scope.Dangles, modelNames_without]
  simp [htarget]

/-- Its component misses a model that is taken out. -/
theorem Conforms.not_conforms_without (h : Conforms ⟨components, []⟩ app)
    (hname : name ∈ app.modelNames) : ¬ Conforms ⟨components, []⟩ (app.without name) := by
  intro hwithout
  obtain ⟨home, hhome, hmem⟩ := Application.mem_modelNames.mp hname
  obtain ⟨c, hc, hplanned⟩ := h.corresponds.planned home hhome
  have hc : c ∈ components := by simpa [Scope.known] using hc
  have hrealizes := h.corresponds.realizes hc hhome hplanned.symm
  obtain ⟨file, hfile, hrealizes'⟩ := hwithout.corresponds.realized c hc
  have hstill : name ∈ (app.without name).modelNames := Application.mem_modelNames.mpr
    ⟨file, hfile, (hrealizes'.tables name).mpr ((hrealizes.tables name).mp hmem)⟩
  rw [modelNames_without] at hstill
  simp at hstill

end

/-- Of all relations, those whose target is neither a model of the application nor a table of
another component are reported as dangling, each once and in the order of the application. Where a
model is taken out of an accepted application, these are the remaining relations that pointed at
it. -/
theorem dangling_relations_reported (components others : List Component) (app : Application) :
    ofKind .danglingRelation (Scope.violations ⟨components, others⟩ app) =
        (app.foreigns.filter fun f =>
          f.target ∉ app.modelNames ∧ ∀ c ∈ others, f.target ∉ c.tables).map danglingViolation ∧
    ((Scope.validate ⟨components, []⟩ app).isOk → ∀ model ∈ app.models,
      ∃ violations,
        Scope.validate ⟨components, []⟩ (app.without model.name) = .error violations ∧
        ofKind .danglingRelation violations =
          ((app.without model.name).foreigns.filter (·.target = model.name)).map
            danglingViolation) := by
  refine ⟨ofKind_danglingRelation ⟨components, others⟩ app, fun haccepted model hmodel => ?_⟩
  have h : Conforms ⟨components, []⟩ app := Scope.validate_isOk_iff_conforms.mp haccepted
  have hname : model.name ∈ app.modelNames := List.mem_map_of_mem hmodel
  have hviolations : Scope.violations ⟨components, []⟩ (app.without model.name) ≠ [] :=
    fun hnone => h.not_conforms_without hname (Scope.violations_eq_nil_iff.mp hnone)
  refine ⟨_, dif_neg hviolations, ?_⟩
  rw [ofKind_danglingRelation]
  congr 1
  refine List.filter_congr fun f hf => ?_
  rw [decide_eq_decide]
  exact h.dangles_without hf

/-- Without the teams' model the users' relation dangles, and it alone. -/
theorem dangling_relations_reported_mutual :
    let whole : Application := ⟨mutualFiles (some "member") (some "lead")⟩
    (Scope.validate ⟨[userComponent, teamComponent], []⟩ whole).isOk ∧
    ∃ violations, Scope.validate ⟨[userComponent, teamComponent], []⟩ (whole.without "team") =
        .error violations ∧
      (ofKind .danglingRelation violations).map (·.path) =
        [{ component := "Users", file := "schema-01-users.prisma", model := "user",
           field := "team_id" }] := by
  have haccepted : (Scope.validate ⟨[userComponent, teamComponent], []⟩
      ⟨mutualFiles (some "member") (some "lead")⟩).isOk := by decide +kernel
  obtain ⟨-, hremoved⟩ := dangling_relations_reported [userComponent, teamComponent] []
    ⟨mutualFiles (some "member") (some "lead")⟩
  obtain ⟨violations, hrejected, hdangling⟩ := hremoved haccepted
    ((pointingFile teamComponent "team" "user" (some "lead")).models.head (by decide)) (by decide)
  refine ⟨haccepted, violations, hrejected, ?_⟩
  rw [hdangling]
  decide +kernel

end SchemaGate
