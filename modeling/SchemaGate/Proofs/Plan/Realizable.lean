import SchemaGate.Proofs.Plan.Partition
import SchemaGate.Proofs.Validation.Acceptance

/-!
# Plans that can be realized

A plan does not look at the names of tables, and validation does not look at how a plan came about.
The minimal models of all tables of a plan clash in nothing, since the plan has each table once, so
that they make up an accepted application where the names of the tables are well-formed; and no
other application gets past an ill-formed one (`realizable_iff`).
-/

namespace SchemaGate

/-- The file of a component with a minimal model for each of its tables. -/
def Component.minimalFile (c : Component) : SchemaFile :=
  .ofComponent c (c.tables.map .minimal)

/-- The application that has the minimal file of every component. -/
def minimalApplication (components : List Component) : Application :=
  ⟨components.map (·.minimalFile)⟩

namespace Plan

variable {components : List Component}

/-! ### Minimal models -/

theorem modelNames_minimalFile (c : Component) : c.minimalFile.modelNames = c.tables := by
  rw [Component.minimalFile, SchemaFile.ofComponent, SchemaFile.modelNames, List.map_map]
  exact List.map_id c.tables

theorem modelNames_minimalApplication (components : List Component) :
    (minimalApplication components).modelNames = ownedTables components := by
  rw [Application.modelNames_eq_flatMap, minimalApplication, List.flatMap_map]
  exact List.flatMap_congr fun c _ => modelNames_minimalFile c

theorem mem_models_minimalApplication {model : Model}
    (h : model ∈ (minimalApplication components).models) : ∃ table, model = .minimal table := by
  obtain ⟨file, hfile, hmodel⟩ := Application.mem_models.mp h
  obtain ⟨c, -, rfl⟩ := List.mem_map.mp hfile
  obtain ⟨table, -, rfl⟩ := List.mem_map.mp hmodel
  exact ⟨table, rfl⟩

theorem foreigns_minimalApplication (components : List Component) :
    (minimalApplication components).foreigns = [] := by
  rw [List.eq_nil_iff_forall_not_mem]
  intro f hf
  obtain ⟨hdecl, hfield⟩ := Application.mem_foreigns.mp hf
  have hmodel : f.model ∈ (minimalApplication components).models := by
    rw [← Application.map_snd_declarations]
    exact List.mem_map_of_mem hdecl
  obtain ⟨table, htable⟩ := mem_models_minimalApplication hmodel
  rw [htable] at hfield
  cases hfield

theorem realizes_minimalFile (c : Component) : c.minimalFile.Realizes c :=
  ⟨rfl, rfl, fun table => by rw [modelNames_minimalFile]⟩

theorem indexesSound_minimal (table : String) : IndexesSound (.minimal table) where
  covers _ h := by cases h
  nodup := List.nodup_nil
  texts _ h := by cases h
  texts_nodup := List.nodup_nil

theorem propertiesNamed_minimal {app : Application} (hforeigns : app.foreigns = [])
    (table : String) : PropertiesNamed app (.minimal table) where
  identifiers name hname := by
    obtain rfl : name = "id" := List.mem_singleton.mp hname
    decide
  relations _ h := by cases h
  nodup := by
    rw [Application.properties, Application.foreignsTo, hforeigns]
    exact List.nodup_singleton "id"

/-! ### Accepted applications -/

theorem conforms_minimalApplication (hfilenames : (components.map (·.filename)).Nodup)
    (hne : ∀ c ∈ components, c.tables ≠ []) (hnodup : (ownedTables components).Nodup)
    (hidentifiers : ∀ c ∈ components, ∀ table ∈ c.tables, Text.isIdentifier table) :
    Conforms ⟨components, []⟩ (minimalApplication components) where
  corresponds := by
    refine ⟨?_, fun file hfile => ?_, fun file hfile => ?_, fun c hc => ?_⟩
    · rw [minimalApplication, List.map_map]
      exact hfilenames
    · obtain ⟨c, hc, rfl⟩ := List.mem_map.mp hfile
      exact fun hnil => hne c hc (List.map_eq_nil_iff.mp hnil)
    · obtain ⟨c, hc, rfl⟩ := List.mem_map.mp hfile
      exact ⟨c, List.mem_append_left _ hc, rfl⟩
    · exact ⟨c.minimalFile, List.mem_map_of_mem hc, realizes_minimalFile c⟩
  models := by
    refine ⟨?_, fun name hname => ?_⟩
    · rwa [modelNames_minimalApplication]
    · rw [modelNames_minimalApplication] at hname
      obtain ⟨c, hc, htable⟩ := List.mem_flatMap.mp hname
      exact hidentifiers c hc name htable
  properties model hmodel := by
    obtain ⟨table, rfl⟩ := mem_models_minimalApplication hmodel
    exact propertiesNamed_minimal (foreigns_minimalApplication components) table
  targets f hf := by
    rw [foreigns_minimalApplication] at hf
    cases hf
  labels ends _ := by
    rw [Application.linking, foreigns_minimalApplication]
    exact ⟨List.not_mem_nil, List.nodup_nil⟩
  indexes model hmodel := by
    obtain ⟨table, rfl⟩ := mem_models_minimalApplication hmodel
    exact indexesSound_minimal table

/-- Whatever is accepted, the tables of the components that are checked have well-formed names. -/
theorem isIdentifier_of_conforms {s : Scope} {app : Application} (h : Conforms s app)
    {c : Component} (hc : c ∈ s.components) {table : String} (htable : table ∈ c.tables) :
    Text.isIdentifier table := by
  obtain ⟨file, hfile, hrealizes⟩ := h.corresponds.realized c hc
  refine h.models.identifiers table (Application.mem_modelNames.mpr ⟨file, hfile, ?_⟩)
  exact (hrealizes.tables table).mpr htable

/-- For components that are a plan for some tables there is an accepted application exactly when the
names of all their tables are well-formed, and then the minimal one is. -/
theorem realizable_iff {required : List String}
    (hcheck : check components (some required) = .ok ()) :
    ((∃ app, (Scope.validate ⟨components, []⟩ app).isOk) ↔
      ∀ c ∈ components, ∀ table ∈ c.tables, Text.isIdentifier table) ∧
    ((∀ c ∈ components, ∀ table ∈ c.tables, Text.isIdentifier table) →
      (Scope.validate ⟨components, []⟩ (minimalApplication components)).isOk) := by
  obtain ⟨-, hfilenames, -, hpartition⟩ := checkErrors_eq_nil_iff.mp (check_eq_ok_iff.mp hcheck)
  obtain ⟨hne, hnodup, -⟩ := partitions_map_iff.mp hpartition
  have hminimal (h : ∀ c ∈ components, ∀ table ∈ c.tables, Text.isIdentifier table) :
      (Scope.validate ⟨components, []⟩ (minimalApplication components)).isOk :=
    Scope.validate_isOk_iff_conforms.mpr (conforms_minimalApplication hfilenames hne hnodup h)
  refine ⟨⟨?_, fun h => ⟨_, hminimal h⟩⟩, hminimal⟩
  rintro ⟨app, hok⟩ c hc table htable
  exact isIdentifier_of_conforms (Scope.validate_isOk_iff_conforms.mp hok) hc htable

/-- Two components of well-formed tables, and one of which a table is not. -/
def soundPlan : List Component :=
  [⟨"schema-01-users.prisma", "Users", ["user", "login_2"]⟩,
    ⟨"schema-02-teams.prisma", "Teams", ["team"]⟩]

def unsoundPlan : List Component := [⟨"schema-01-users.prisma", "Users", ["user", "Login"]⟩]

theorem realizable_iff_sound :
    check soundPlan (some ["team", "user", "login_2", "user"]) = .ok () ∧
      (Scope.validate ⟨soundPlan, []⟩ (minimalApplication soundPlan)).isOk ∧
      check unsoundPlan (some ["Login", "user"]) = .ok () ∧
      ¬∃ app, (Scope.validate ⟨unsoundPlan, []⟩ app).isOk := by
  have hsound : check soundPlan (some ["team", "user", "login_2", "user"]) = .ok () := by
    decide +kernel
  have hunsound : check unsoundPlan (some ["Login", "user"]) = .ok () := by decide +kernel
  refine ⟨hsound, (realizable_iff hsound).2 (by decide), hunsound, fun happ => ?_⟩
  exact absurd ((realizable_iff hunsound).1.mp happ) (by decide)

end Plan

end SchemaGate
