import Mathlib.Data.List.Perm.Basic
import SchemaGate.Proofs.Render.Relations
import SchemaGate.Proofs.Validation.Acceptance

/-!
# Both ends of a relation

A relation is declared twice, on the model that holds its column and on the model it points at. The
renderer collects the two kinds of lines on ways of their own, those held from the model and those
pointed at it from the whole application. Sorted by the other model of each line the two blocks hold
the same relations, with the ends exchanged (`filter_type_relations`), and what the check on
ambiguity says about the relations that link two models says that labels tell the lines apart.
-/

namespace SchemaGate

open Block

/-- The relations that point from one model at another. -/
def Application.between (app : Application) (source target : String) : List Foreign :=
  app.foreigns.filter fun f => f.model.name = source ∧ f.target = target

/-- The lines of a block whose properties are typed by a model. -/
def Block.linesTyped (options : RenderOptions) (app : Application) (d : SchemaFile × Model)
    (name : String) : List RelationLine :=
  (relationLines options app d.1 d.2).filter (·.type = name)

/-- A foreign column has one line on the model that holds it, and its relation one line on the model
it points at, with the same label. -/
structure Foreign.EndsRendered (options : RenderOptions) (app : Application) (f : Foreign)
    (target : SchemaFile × Model) : Prop where
  forward : (relationLines options app f.file f.model).filter (·.column? = some f.field.name) =
    [.forward f.field.relation.name target.2.name f.field.nullable f.label f.field.name
      target.2.primary.name]
  back : (relationLines options app target.1 target.2).filter (·.name = f.oppositeProperty) =
    [.back f.oppositeProperty f.model.name f.field.unique f.label]
  optional : (RelationLine.back f.oppositeProperty f.model.name f.field.unique
    f.label).WrittenOptional ↔ f.field.unique

/-- Lines carry the same labels as others, no two the same, and one that has none is alone. -/
structure LabelsPaired (here there : List RelationLine) : Prop where
  perm : (here.map (·.label)).Perm (there.map (·.label))
  nodup : (here.map (·.label)).Nodup
  alone : none ∈ here.map (·.label) → here.length = 1

/-- Each of the lines is labelled, and with each label there are a line of a relation that is held
and a line of one that is pointed at. -/
structure LabelsDoubled (lines : List RelationLine) : Prop where
  labelled : none ∉ lines.map (·.label)
  two : ∀ label ∈ lines.map (·.label), ∃ forward back : RelationLine,
    lines.filter (·.label = label) = [forward, back] ∧
      forward.column?.isSome ∧ back.column? = none

variable {app : Application}

/-! ### Relations by their ends -/

theorem Block.relations_eq {file : SchemaFile} {model : Model} (hnodup : app.modelNames.Nodup)
    (hdecl : (file, model) ∈ app.declarations) :
    relations app model =
      (app.foreigns.filter (·.model.name = model.name)).map (forwardRelation app ·.field) ++
        (app.foreigns.filter (·.target = model.name)).map backRelation := by
  rw [Application.filter_foreigns_model hnodup hdecl, List.map_map]
  rfl

/-- On a model, the lines typed by another are those of the relations from it to the other and from
the other to it. -/
theorem Block.filter_type_relations {file : SchemaFile} {model : Model}
    (hnodup : app.modelNames.Nodup) (hdecl : (file, model) ∈ app.declarations) (name : String) :
    (relations app model).filter (·.type = name) =
      (app.between model.name name).map (forwardRelation app ·.field) ++
        (app.between name model.name).map backRelation := by
  rw [relations_eq hnodup hdecl, List.filter_append, List.filter_map, List.filter_map,
    List.filter_filter, List.filter_filter]
  have hforward : ∀ f : Foreign, (forwardRelation app f.field).type = f.target := fun _ => rfl
  have hback : ∀ f : Foreign, (backRelation f).type = f.model.name := fun _ => rfl
  simp [Application.between, hforward, hback, Bool.and_comm]

/-- The labels of those lines, in the same order. -/
theorem Block.map_label_linesTyped (options : RenderOptions) {d : SchemaFile × Model}
    (hnodup : app.modelNames.Nodup) (hdecl : d ∈ app.declarations) (name : String) :
    (linesTyped options app d name).map (·.label) =
      (app.between d.2.name name).map (·.label) ++
        (app.between name d.2.name).map (·.label) := by
  obtain ⟨file, model⟩ := d
  rw [linesTyped, relationLines_eq, filter_type_relations hnodup hdecl, List.map_append,
    List.map_map, List.map_map]
  rfl

theorem linking_eq_between (app : Application) (name : String) :
    app.linking s(name, name) = app.between name name := by
  refine List.filter_congr fun f _ => ?_
  simp [Foreign.ends]

theorem linking_perm_between {a b : String} (hne : a ≠ b) :
    (app.linking s(a, b)).Perm (app.between a b ++ app.between b a) := by
  have hsource : (app.linking s(a, b)).filter (·.model.name = a) = app.between a b := by
    rw [Application.linking, List.filter_filter]
    refine List.filter_congr fun f _ => ?_
    grind [Foreign.ends, Sym2.eq_iff]
  have htarget : (app.linking s(a, b)).filter (fun f => !decide (f.model.name = a)) =
      app.between b a := by
    rw [Application.linking, List.filter_filter]
    refine List.filter_congr fun f _ => ?_
    grind [Foreign.ends, Sym2.eq_iff]
  rw [← hsource, ← htarget]
  exact (List.filter_append_perm _ _).symm

/-- Relations of the same two models have labels of their own, and one without a label is alone. -/
theorem RelationsLabelled.labels (h : RelationsLabelled app) (ends : Sym2 String) :
    ((app.linking ends).map (·.label)).Nodup ∧
      (none ∈ (app.linking ends).map (·.label) → (app.linking ends).length = 1) := by
  by_cases hneeds : 1 < (app.linking ends).length
  · obtain ⟨hnone, hnodup⟩ := h ends (Or.inl hneeds)
    exact ⟨hnodup, fun hmem => absurd hmem hnone⟩
  · match hlinking : app.linking ends with
    | [] => simp
    | [f] => simp
    | f :: g :: rest => simp [hlinking] at hneeds

/-! ### Lines on models whose properties are distinct -/

theorem PropertiesNamed.nodup_foreign {model : Model} (h : PropertiesNamed app model) :
    (model.foreign.map (·.name)).Nodup := by
  have hsub : (model.foreign.map (·.name)).Sublist (app.properties model) := by
    unfold Application.properties Model.columnNames
    rw [List.append_assoc]
    refine List.Sublist.trans ?_ (List.sublist_append_left _ _)
    exact ((List.sublist_append_left _ _).cons _)
  exact h.nodup.sublist hsub

theorem PropertiesNamed.nodup_relations {model : Model} (h : PropertiesNamed app model) :
    ((Block.relations app model).map (·.name)).Nodup := by
  have hnames : (Block.relations app model).map (·.name) =
      model.foreign.map (·.relation.name) ++
        (app.foreignsTo model.name).map (·.oppositeProperty) := by
    rw [Block.relations, List.map_append, List.map_map, List.map_map]
    rfl
  have hsub : ((Block.relations app model).map (·.name)).Sublist (app.properties model) := by
    rw [hnames, Application.properties, List.append_assoc]
    exact List.sublist_append_right _ _
  exact h.nodup.sublist hsub

/-- A foreign column has one line on the model that holds it. -/
theorem PropertiesNamed.filter_column?_relations {model : Model} (h : PropertiesNamed app model)
    {field : ForeignField} (hfield : field ∈ model.foreign) :
    (Block.relations app model).filter (·.column? = some field.name) =
      [forwardRelation app field] := by
  have hcolumn : ∀ g : ForeignField, (forwardRelation app g).column? = some g.name := fun _ => rfl
  have hback : ∀ f : Foreign, (backRelation f).column? = none := fun _ => rfl
  have hone : model.foreign.filter (·.name = field.name) = [field] :=
    filter_eq_singleton_of_nodup (f := ForeignField.name) h.nodup_foreign hfield
  rw [Block.relations, List.filter_append, List.filter_map, List.filter_map]
  simp [Function.comp_def, hcolumn, hback, hone]

/-- A relation that points at a model has one line there. -/
theorem PropertiesNamed.filter_name_relations {model : Model} (h : PropertiesNamed app model)
    {f : Foreign} (hf : f ∈ app.foreignsTo model.name) :
    (Block.relations app model).filter (·.name = f.oppositeProperty) = [backRelation f] := by
  have hmem : backRelation f ∈ Block.relations app model :=
    List.mem_append_right _ (List.mem_map_of_mem hf)
  exact filter_eq_singleton_of_nodup (f := RelationLine.name) h.nodup_relations hmem

/-! ### Lines of accepted applications -/

section Accepted

variable {components : List Component} {options : RenderOptions}
  (h : Conforms ⟨components, []⟩ app)

include h in
theorem endsRendered_of_conforms {f : Foreign} (hf : f ∈ app.foreigns) :
    ∃ target ∈ app.declarations, target.2.name = f.target ∧ f.EndsRendered options app target := by
  have htarget : f.target ∈ app.modelNames := by
    simpa [Scope.targets] using h.targets f hf
  rw [← Application.map_name_declarations] at htarget
  obtain ⟨⟨home, target⟩, htarget, hname⟩ := List.mem_map.mp htarget
  dsimp only at hname
  obtain ⟨hdecl, hfield⟩ := Application.mem_foreigns.mp hf
  have hsource := Application.forall_models_iff.mp h.properties _ hdecl
  have hthere := Application.forall_models_iff.mp h.properties _ htarget
  have hmodel : app.model? f.target = some target := by
    rw [← hname]
    refine Application.model?_of_nodup h.models.nodup ?_
    rw [← Application.map_snd_declarations]
    exact List.mem_map_of_mem htarget
  refine ⟨(home, target), htarget, hname, ?_, ?_, RelationLine.writtenOptional_back_iff⟩
  · rw [relationLines_eq, hsource.filter_column?_relations hfield, forwardRelation,
      show f.field.relation.target = f.target from rfl, hmodel, hname]
    rfl
  · rw [relationLines_eq,
      hthere.filter_name_relations (Application.mem_foreignsTo.mpr ⟨hf, hname.symm⟩)]
    rfl

include h in
theorem labelsPaired_of_conforms {a b : SchemaFile × Model} (ha : a ∈ app.declarations)
    (hb : b ∈ app.declarations) (hne : a.2.name ≠ b.2.name) :
    LabelsPaired (linesTyped options app a b.2.name) (linesTyped options app b a.2.name) := by
  have hhere := map_label_linesTyped options h.models.nodup ha b.2.name
  have hthere := map_label_linesTyped options h.models.nodup hb a.2.name
  have hlinking : ((app.linking s(a.2.name, b.2.name)).map (·.label)).Perm
      ((linesTyped options app a b.2.name).map (·.label)) := by
    rw [hhere, ← List.map_append]
    exact (linking_perm_between hne).map _
  obtain ⟨hnodup, halone⟩ := h.labels.labels s(a.2.name, b.2.name)
  refine ⟨?_, hlinking.nodup_iff.mp hnodup, fun hnone => ?_⟩
  · rw [hhere, hthere]
    exact List.perm_append_comm
  · have hlength := hlinking.length_eq
    rw [List.length_map, List.length_map] at hlength
    rw [← hlength]
    exact halone (hlinking.mem_iff.mpr hnone)

include h in
theorem labelsDoubled_of_conforms {a : SchemaFile × Model} (ha : a ∈ app.declarations) :
    LabelsDoubled (linesTyped options app a a.2.name) := by
  obtain ⟨file, model⟩ := a
  obtain ⟨hnone, hnodup⟩ := h.labels s(model.name, model.name) (Or.inr (Sym2.mk_isDiag_iff.mpr rfl))
  rw [linking_eq_between] at hnone hnodup
  have hlabels := map_label_linesTyped options h.models.nodup ha model.name
  refine ⟨?_, fun label hlabel => ?_⟩
  · rw [hlabels]
    simpa using hnone
  · rw [hlabels, List.mem_append, or_self] at hlabel
    obtain ⟨f, hf, rfl⟩ := List.mem_map.mp hlabel
    have hone : (app.between model.name model.name).filter (·.label = f.label) = [f] :=
      filter_eq_singleton_of_nodup (f := Foreign.label) hnodup hf
    have hforward : ∀ g : Foreign, (forwardRelation app g.field).label = g.label := fun _ => rfl
    have hback : ∀ g : Foreign, (backRelation g).label = g.label := fun _ => rfl
    refine ⟨forwardRelation app f.field, backRelation f, ?_, rfl, rfl⟩
    rw [linesTyped, relationLines_eq, filter_type_relations h.models.nodup ha, List.filter_append,
      List.filter_map, List.filter_map]
    simp [Function.comp_def, hforward, hback, hone]

end Accepted

/-- In an accepted application both ends of every relation are rendered, with the same label, the
end on the target as optional just where the column is unique. Of two models the relations that
link them have the same labels on either side, no two the same, and a model's relations with itself
are each labelled on both their lines. -/
theorem relation_ends_rendered (options : RenderOptions) {components : List Component}
    (haccepted : (Scope.validate ⟨components, []⟩ app).isOk) :
    (∀ f ∈ app.foreigns, ∃ target ∈ app.declarations, target.2.name = f.target ∧
      f.EndsRendered options app target) ∧
    (∀ a ∈ app.declarations, ∀ b ∈ app.declarations, a.2.name ≠ b.2.name →
      LabelsPaired (linesTyped options app a b.2.name) (linesTyped options app b a.2.name)) ∧
    ∀ a ∈ app.declarations, LabelsDoubled (linesTyped options app a a.2.name) := by
  have h := Scope.validate_isOk_iff_conforms.mp haccepted
  refine ⟨?_, ?_, ?_⟩
  · intro f hf
    exact endsRendered_of_conforms h hf
  · intro a ha b hb hne
    exact labelsPaired_of_conforms h ha hb hne
  · intro a ha
    exact labelsDoubled_of_conforms h ha

/-- Users have a team and a manager, and teams a lead. -/
def staffApplication : Application :=
  let user : Model := { Model.minimal "user" with
    foreign := [
      { name := "team_id", relation := { name := "team", target := "team", mapping := "member" } },
      { name := "manager_id", unique := true,
        relation := { name := "manager", target := "user", mapping := "manager" } }] }
  let team : Model := { Model.minimal "team" with
    foreign := [
      { name := "lead_id", relation := { name := "lead", target := "user", mapping := "lead" } }] }
  ⟨[{ filename := "schema-01-staff.prisma", domain := "Staff", models := [user, team] }]⟩

def staffComponent : Component :=
  { filename := "schema-01-staff.prisma", domain := "Staff", tables := ["user", "team"] }

theorem relation_ends_rendered_staff :
    (Scope.validate ⟨[staffComponent], []⟩ staffApplication).isOk ∧
    (∀ f ∈ staffApplication.foreigns, ∃ target ∈ staffApplication.declarations,
      target.2.name = f.target ∧ f.EndsRendered {} staffApplication target) ∧
    (∀ a ∈ staffApplication.declarations, ∀ b ∈ staffApplication.declarations,
      a.2.name ≠ b.2.name →
        LabelsPaired (linesTyped {} staffApplication a b.2.name)
          (linesTyped {} staffApplication b a.2.name)) ∧
    ∀ a ∈ staffApplication.declarations,
      LabelsDoubled (linesTyped {} staffApplication a a.2.name) := by
  have haccepted : (Scope.validate ⟨[staffComponent], []⟩ staffApplication).isOk := by
    decide +kernel
  exact ⟨haccepted, relation_ends_rendered {} haccepted⟩

end SchemaGate
