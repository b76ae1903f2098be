import SchemaGate.Proofs.Repeats
import SchemaGate.Proofs.Schema.Application
import SchemaGate.Validation.Names

/-!
# Names that do not clash

The rules behind the checks on names. A model's properties are its columns, the relations it holds
and the relations from anywhere in the application that point at it; the three checks that walk them
one after the other report nothing exactly when names are well-formed, no two properties share one,
and every relation held has a target (`propertiesNamed_iff`).
-/

namespace SchemaGate

/-- The names that a relation writes are well-formed. -/
structure Relation.WellNamed (r : Relation) : Prop where
  name : Text.isRelationName r.name
  mapping : ∀ label ∈ r.mapping, Text.isRelationName label
  opposite : ∀ property ∈ r.opposite, Text.isRelationName property

/-- The properties of a model: its columns, the relations it holds and those that point at it. -/
def Application.properties (app : Application) (model : Model) : List String :=
  model.columnNames ++ model.foreign.map (·.relation.name) ++
    (app.foreignsTo model.name).map (·.oppositeProperty)

/-- Names on a model are well-formed, and no two of its properties share one. -/
structure PropertiesNamed (app : Application) (model : Model) : Prop where
  identifiers : ∀ name ∈ model.columnNames, Text.isIdentifier name
  relations : ∀ field ∈ model.foreign, field.relation.WellNamed
  nodup : (app.properties model).Nodup

/-- Model names are well-formed and used once in the whole application. -/
structure ModelsNamed (app : Application) : Prop where
  nodup : app.modelNames.Nodup
  identifiers : ∀ name ∈ app.modelNames, Text.isIdentifier name

namespace Validation

/-! ### Model names -/

theorem modelNameViolations_eq_nil_iff {app : Application} :
    modelNameViolations app = [] ↔ app.modelNames.Nodup := by
  rw [modelNameViolations, List.flatMap_eq_nil_iff, ← Application.map_name_declarations,
    nodup_map_iff_withEarlier]
  refine forall₂_congr ?_
  rintro ⟨earlier, file, model⟩ -
  rw [← find?_eq_none_iff_not_mem_map]
  dsimp only
  cases earlier.find? (·.2.name == model.name) <;> simp

theorem identifierViolations_eq_nil_iff {file : SchemaFile} {model : Model} :
    identifierViolations file model = [] ↔ Text.isIdentifier model.name := by
  simp [identifierViolations]

theorem modelsNamed_iff {app : Application} :
    ModelsNamed app ↔ modelNameViolations app = [] ∧
      ∀ d ∈ app.declarations, identifierViolations d.1 d.2 = [] := by
  simp only [modelNameViolations_eq_nil_iff, identifierViolations_eq_nil_iff]
  constructor
  · intro h
    refine ⟨h.nodup, fun d hd => h.identifiers _ ?_⟩
    rw [← Application.map_name_declarations]
    exact List.mem_map_of_mem hd
  · rintro ⟨hnodup, hidentifiers⟩
    refine ⟨hnodup, fun name hname => ?_⟩
    rw [← Application.map_name_declarations] at hname
    obtain ⟨d, hd, rfl⟩ := List.mem_map.mp hname
    exact hidentifiers d hd

/-! ### Columns and relations of one model -/

theorem columnViolations_eq_nil_iff {file : SchemaFile} {model : Model} :
    columnViolations file model = [] ↔
      (∀ name ∈ model.columnNames, Text.isIdentifier name) ∧ model.columnNames.Nodup := by
  rw [columnViolations, List.flatMap_eq_nil_iff]
  refine forall_withEarlier_iff_self fun earlier name => ?_
  simp

theorem labelShapeViolations_eq_nil_iff {f : Foreign} :
    labelShapeViolations f = [] ↔ f.field.relation.WellNamed := by
  have hlabels : labelShapeViolations f = [] ↔
      ∀ p ∈ relationLabels f.field.relation, Text.isRelationName p.2 := by
    simp [labelShapeViolations, List.filter_eq_nil_iff]
  rw [hlabels, relationLabels]
  simp only [List.cons_append, List.forall_mem_cons, List.forall_mem_append, List.forall_mem_map,
    Option.mem_toList]
  exact ⟨fun ⟨hname, hmapping, hopposite⟩ => ⟨hname, hmapping, hopposite⟩,
    fun h => ⟨h.name, h.mapping, h.opposite⟩⟩

theorem relationNameViolations_eq_nil_iff {taken : List String} {f : Foreign} :
    relationNameViolations taken f = [] ↔ f.field.relation.name ∉ taken := by
  simp [relationNameViolations]

theorem targetViolations_eq_nil_iff {targets : List String} {f : Foreign} :
    targetViolations targets f = [] ↔ f.target ∈ targets := by
  simp [targetViolations]

theorem relationViolations_eq_nil_iff {targets : List String} {file : SchemaFile} {model : Model} :
    relationViolations targets file model = [] ↔
      (∀ field ∈ model.foreign, field.relation.WellNamed ∧ field.relation.target ∈ targets) ∧
        ∀ p ∈ withEarlier model.foreign,
          p.2.relation.name ∉ model.columnNames ++ p.1.map (·.relation.name) := by
  rw [relationViolations, List.flatMap_eq_nil_iff,
    ← forall_withEarlier_snd (P := fun field : ForeignField =>
      field.relation.WellNamed ∧ field.relation.target ∈ targets), ← forall₂_and]
  refine forall₂_congr ?_
  rintro ⟨earlier, field⟩ -
  simp only [List.append_eq_nil_iff, labelShapeViolations_eq_nil_iff,
    relationNameViolations_eq_nil_iff, targetViolations_eq_nil_iff, Foreign.target]
  exact and_right_comm

theorem backRelationViolations_eq_nil_iff {app : Application} {model : Model} :
    backRelationViolations app model = [] ↔
      ∀ p ∈ withEarlier (app.foreignsTo model.name),
        p.2.oppositeProperty ∉ ownProperties model ++ p.1.map (·.oppositeProperty) := by
  rw [backRelationViolations, List.flatMap_eq_nil_iff]
  refine forall₂_congr ?_
  rintro ⟨earlier, f⟩ -
  simp

/-- Properties are distinct when each of the three walks finds new names only. -/
theorem nodup_properties_iff {app : Application} {model : Model} :
    (app.properties model).Nodup ↔ model.columnNames.Nodup ∧
      (∀ p ∈ withEarlier model.foreign,
        p.2.relation.name ∉ model.columnNames ++ p.1.map (·.relation.name)) ∧
      ∀ p ∈ withEarlier (app.foreignsTo model.name),
        p.2.oppositeProperty ∉ ownProperties model ++ p.1.map (·.oppositeProperty) := by
  rw [Application.properties, nodup_append_map_iff, nodup_append_map_iff, and_assoc]
  rfl

/-- The checks on a model's columns and relations report nothing exactly when its properties are
well named and its relations have targets. -/
theorem propertiesNamed_iff {targets : List String} {app : Application} {file : SchemaFile}
    {model : Model} :
    (PropertiesNamed app model ∧ ∀ field ∈ model.foreign, field.relation.target ∈ targets) ↔
      columnViolations file model = [] ∧ relationViolations targets file model = [] ∧
        backRelationViolations app model = [] := by
  rw [columnViolations_eq_nil_iff, relationViolations_eq_nil_iff,
    backRelationViolations_eq_nil_iff]
  constructor
  · rintro ⟨h, htargets⟩
    obtain ⟨hcolumns, hrelations, hback⟩ := nodup_properties_iff.mp h.nodup
    exact ⟨⟨h.identifiers, hcolumns⟩,
      ⟨fun field hfield => ⟨h.relations field hfield, htargets field hfield⟩, hrelations⟩, hback⟩
  · rintro ⟨⟨hidentifiers, hcolumns⟩, ⟨hfields, hrelations⟩, hback⟩
    exact ⟨⟨hidentifiers, fun field hfield => (hfields field hfield).1,
      nodup_properties_iff.mpr ⟨hcolumns, hrelations, hback⟩⟩, fun field hfield =>
        (hfields field hfield).2⟩

/-! ### What is reported of names that clash -/

/-- Of well-named relations with targets, nothing but repeated properties is reported. -/
theorem duplicate_of_mem_relationViolations {targets : List String} {file : SchemaFile}
    {model : Model} {v : Violation}
    (hfields : ∀ field ∈ model.foreign,
      field.relation.WellNamed ∧ field.relation.target ∈ targets)
    (hv : v ∈ relationViolations targets file model) :
    v.kind = .duplicateField ∧
      ∃ field ∈ model.foreign, v.path = .ofForeign ⟨file, model, field⟩ := by
  obtain ⟨⟨earlier, field⟩, hmem, hv⟩ := List.mem_flatMap.mp hv
  have hfield : field ∈ model.foreign := mem_of_mem_withEarlier hmem
  obtain ⟨hnamed, htarget⟩ := hfields field hfield
  have hshape : labelShapeViolations ⟨file, model, field⟩ = [] :=
    labelShapeViolations_eq_nil_iff.mpr hnamed
  have hdangling : targetViolations targets ⟨file, model, field⟩ = [] :=
    targetViolations_eq_nil_iff.mpr htarget
  dsimp only at hv
  rw [hshape, hdangling, List.nil_append, List.append_nil, relationNameViolations] at hv
  split at hv
  · obtain rfl := List.mem_singleton.mp hv
    exact ⟨rfl, field, hfield, rfl⟩
  · simp at hv

theorem duplicate_of_mem_backRelationViolations {app : Application} {model : Model}
    {v : Violation} (hv : v ∈ backRelationViolations app model) :
    v.kind = .duplicateField ∧ ∃ f ∈ app.foreigns, v.path = .ofForeign f := by
  obtain ⟨⟨earlier, f⟩, hmem, hv⟩ := List.mem_flatMap.mp hv
  have hf : f ∈ app.foreignsTo model.name := mem_of_mem_withEarlier hmem
  dsimp only at hv
  split at hv
  · obtain rfl := List.mem_singleton.mp hv
    exact ⟨rfl, f, (Application.mem_foreignsTo.mp hf).1, rfl⟩
  · simp at hv

end Validation

/-! ### Part of an application -/

/-- With fewer relations around it a model stays well named. -/
theorem PropertiesNamed.mono {part whole : Application} {model : Model}
    (hsub : part.foreigns.Sublist whole.foreigns) (h : PropertiesNamed whole model) :
    PropertiesNamed part model := by
  refine ⟨h.identifiers, h.relations, h.nodup.sublist ?_⟩
  exact (List.Sublist.refl _).append ((hsub.filter _).map _)

end SchemaGate
