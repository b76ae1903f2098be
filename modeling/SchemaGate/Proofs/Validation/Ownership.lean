import SchemaGate.Proofs.Validation.Findings
import SchemaGate.Proofs.Validation.Isolation

/-!
# Tables and their owners

A checked component owns the tables of its plan, and its file is held to them in both directions:
every table that no model bears is reported, and so is every model that the component does not own,
with the first component that does (`ownership_reported`). No other component, whether it is checked
or known by its plan only, can make good for either.
-/

namespace SchemaGate

open Validation

/-- The files of a name. -/
def Application.filesNamed (app : Application) (filename : String) : List SchemaFile :=
  app.files.filter (·.filename = filename)

/-- Where filenames are distinct, a component has no file or the one that is found for it. -/
theorem Application.filesNamed_of_nodup {app : Application} {filename : String}
    (hnodup : (app.files.map (·.filename)).Nodup) :
    app.filesNamed filename = (app.file? filename).toList := by
  cases hfile : app.file? filename with
  | none =>
    rw [filesNamed, List.filter_eq_nil_iff.mpr]
    · rfl
    · simpa using List.find?_eq_none.mp hfile
  | some file =>
    obtain ⟨hmem, rfl⟩ := mem_of_file? hfile
    exact filter_eq_singleton_of_nodup (f := SchemaFile.filename) hnodup hmem

/-! ### What is said of a model without its owner -/

/-- What is said of a model that stands in the file of a component without being its table: the
first of the known components that owns it, or that none of them does. -/
inductive NamesOwner (known : List Component) (c : Component) (table : String) : String → Prop
  | owned {before after : List Component} {owner : Component}
      (hknown : known = before ++ owner :: after) (howns : table ∈ owner.tables)
      (hfirst : ∀ d ∈ before, table ∉ d.tables) :
    NamesOwner known c table
      s!"table '{table}' is owned by component '{owner.domain}' ({owner.filename}) and must not be defined here"
  | unowned (hnone : ∀ d ∈ known, table ∉ d.tables) :
    NamesOwner known c table
      s!"table '{table}' is not owned by component '{c.domain}' nor by any other component"

namespace Validation

variable {known : List Component} {c : Component} {table : String}

/-- What is said of a model of a component's file that the component does not own. -/
def strangerMessage (known : List Component) (c : Component) (table : String) : String :=
  unexpectedModelMessage c (known.find? (·.owns table)) table

theorem namesOwner_strangerMessage : NamesOwner known c table (strangerMessage known c table) := by
  rw [strangerMessage]
  cases howner : known.find? (·.owns table) with
  | none =>
    refine .unowned fun d hd => ?_
    simpa [Component.owns] using List.find?_eq_none.mp howner d hd
  | some owner =>
    obtain ⟨howns, before, after, hknown, hfirst⟩ := List.find?_eq_some_iff_append.mp howner
    refine .owned hknown (by simpa [Component.owns] using howns) fun d hd => ?_
    simpa [Component.owns] using hfirst d hd

/-- A text that names an owner is not the text that there is none, whatever the names are. -/
theorem unexpectedModelMessage_some_ne (owner : Component) :
    unexpectedModelMessage c (some owner) table ≠ unexpectedModelMessage c none table := by
  intro h
  -- the two part behind the table, with `is owned` and `is not owned`
  have hletters := congrArg String.toList h
  simp [unexpectedModelMessage, toString] at hletters

theorem strangerMessage_eq_iff :
    strangerMessage known c table = unexpectedModelMessage c none table ↔
      ∀ d ∈ known, table ∉ d.tables := by
  have hnone : known.find? (·.owns table) = none ↔ ∀ d ∈ known, table ∉ d.tables := by
    simp [Component.owns]
  rw [strangerMessage, ← hnone]
  cases known.find? (·.owns table) with
  | none => simp
  | some owner => simpa using unexpectedModelMessage_some_ne owner

/-! ### What is reported of a component -/

/-- Beyond its name and domain label, a component's file is judged by its models. -/
theorem ofKind_componentViolations {app : Application} {kind : Violation.Kind}
    (hnodup : (app.files.map (·.filename)).Nodup)
    (hkind : kind ∉ [.missingFile, .namespaceMismatch]) :
    ofKind kind (componentViolations known app c) = (app.filesNamed c.filename).flatMap fun file =>
      ofKind kind (missingModelViolations c file) ++
        ofKind kind (unexpectedModelViolations known c file) := by
  rw [Application.filesNamed_of_nodup hnodup, componentViolations]
  cases app.file? c.filename with
  | none => exact ofKind_eq_nil (by simp) hkind
  | some file =>
    have hlabel : ofKind kind (labelViolations c file) = [] :=
      ofKind_eq_nil (fun v hv => by simp [kind_of_mem_labelViolations hv]) hkind
    simp [ofKind_append, hlabel]

theorem ofKind_missingModel {s : Scope} {app : Application}
    (hnodup : (app.files.map (·.filename)).Nodup) :
    ofKind .missingModel (s.violations app) = s.components.flatMap fun c =>
      (app.filesNamed c.filename).flatMap fun file => missingModelViolations c file := by
  rw [ofKind_violations_of_component (by decide)]
  refine List.flatMap_congr fun c _ => ?_
  rw [ofKind_componentViolations hnodup (by decide)]
  refine List.flatMap_congr fun file _ => ?_
  rw [ofKind_eq_self fun _ hv => kind_of_mem_missingModelViolations hv,
    ofKind_eq_nil_of_ne (fun _ hv => kind_of_mem_unexpectedModelViolations hv) (by decide),
    List.append_nil]

theorem ofKind_unexpectedModel {s : Scope} {app : Application}
    (hnodup : (app.files.map (·.filename)).Nodup) :
    ofKind .unexpectedModel (s.violations app) = s.components.flatMap fun c =>
      (app.filesNamed c.filename).flatMap fun file =>
        unexpectedModelViolations s.known c file := by
  rw [ofKind_violations_of_component (by decide)]
  refine List.flatMap_congr fun c _ => ?_
  rw [ofKind_componentViolations hnodup (by decide)]
  refine List.flatMap_congr fun file _ => ?_
  rw [ofKind_eq_self fun _ hv => kind_of_mem_unexpectedModelViolations hv,
    ofKind_eq_nil_of_ne (fun _ hv => kind_of_mem_missingModelViolations hv) (by decide),
    List.nil_append]

end Validation

/-- Where filenames are distinct, each checked component with a file is told every listed table that
no model of the file bears and every model of the file that it does not own, with the first of the
known components, checked ones before others, that owns it. In any application a file that defines
what its component does not own, or omits what it owns, is refused, whatever else is known. -/
theorem ownership_reported (components others : List Component) (app : Application) :
    ((app.files.map (·.filename)).Nodup →
      ofKind .missingModel (Scope.violations ⟨components, others⟩ app) =
        (components.flatMap fun c => (app.filesNamed c.filename).flatMap fun file =>
          (c.tables.filter (· ∉ file.modelNames)).map fun (table : String) =>
            { kind := .missingModel, path := { Violation.Path.ofComponent c with model := table },
              message := s!"table '{table}' is owned by component '{c.domain}' but its file does not define it" }) ∧
      ofKind .unexpectedModel (Scope.violations ⟨components, others⟩ app) =
        components.flatMap fun c => (app.filesNamed c.filename).flatMap fun file =>
          (file.models.filter (·.name ∉ c.tables)).map fun model =>
            { kind := .unexpectedModel,
              path := { Violation.Path.ofComponent c with model := model.name },
              message := strangerMessage (components ++ others) c model.name }) ∧
    (∀ c table,
      NamesOwner (components ++ others) c table (strangerMessage (components ++ others) c table) ∧
      (strangerMessage (components ++ others) c table = unexpectedModelMessage c none table ↔
        ∀ d ∈ components ++ others, table ∉ d.tables)) ∧
    ∀ c ∈ components, ∀ file ∈ app.files, file.filename = c.filename →
      ((∃ model ∈ file.models, model.name ∉ c.tables) ∨ ∃ table ∈ c.tables,
        table ∉ file.modelNames) → ¬ (Scope.validate ⟨components, others⟩ app).isOk := by
  refine ⟨fun hnodup => ⟨?_, ?_⟩,
    fun c table => ⟨namesOwner_strangerMessage, strangerMessage_eq_iff⟩, ?_⟩
  · rw [ofKind_missingModel hnodup]
    simp only [missingModelViolations, List.contains_eq_mem, decide_not]
  · have hown : ∀ (c : Component) (file : SchemaFile),
        file.models.filter (fun model => !c.owns model.name) =
          file.models.filter (·.name ∉ c.tables) := fun c file => by simp [Component.owns]
    rw [ofKind_unexpectedModel hnodup]
    simp only [unexpectedModelViolations, hown]
    rfl
  · intro c hc file hfile hname hbreach haccepted
    have h := Scope.validate_isOk_iff_conforms.mp haccepted
    have hrealizes := h.corresponds.realizes hc hfile hname
    rcases hbreach with ⟨model, hmodel, hforeign⟩ | ⟨table, htable, hmissing⟩
    · exact hforeign ((hrealizes.tables model.name).mp (List.mem_map_of_mem hmodel))
    · exact hmissing ((hrealizes.tables table).mpr htable)

/-- The users' file defines a table of the teams and one of nobody, and not its own. -/
theorem ownership_reported_leaking :
    let app : Application := ⟨[.ofComponent userComponent [.minimal "team", .minimal "note"]]⟩
    let scope : Scope := ⟨[userComponent], [teamComponent]⟩
    (app.files.map (·.filename)).Nodup ∧
    (ofKind .missingModel (scope.violations app)).map (·.path.model) = [some "user"] ∧
    (ofKind .unexpectedModel (scope.violations app)).map (·.message) =
      ["table 'team' is owned by component 'Teams' (schema-02-teams.prisma) and must not be defined here",
        "table 'note' is not owned by component 'Users' nor by any other component"] ∧
    ¬ (scope.validate app).isOk := by
  intro app scope
  have hnodup : (app.files.map (·.filename)).Nodup := by decide
  obtain ⟨hreported, -, hrefused⟩ := ownership_reported [userComponent] [teamComponent] app
  obtain ⟨hmissing, hunexpected⟩ := hreported hnodup
  refine ⟨hnodup, ?_, ?_, ?_⟩
  · rw [hmissing]
    decide +kernel
  · rw [hunexpected]
    decide +kernel
  · exact hrefused userComponent (by simp) _ List.mem_cons_self rfl
      (.inr ⟨"user", by decide, by decide⟩)

end SchemaGate
