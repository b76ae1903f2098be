import Mathlib.Logic.Relation
import SchemaGate.Proofs.Lookup
import SchemaGate.Proofs.Paired
import SchemaGate.Proofs.Schema.Application
import SchemaGate.Render

/-!
# What a file shows of other files

A file shows little of the models outside it: the primary column of the first model of a name, where
one of its relations points, and the relations that point at its own models. As long as the models
elsewhere look the same from the file in this respect (`Model.SameFrom`) its text is the same, and
nothing that is edited elsewhere without regard to the file can change it (`render_local`).
-/

namespace SchemaGate

/-- A relation as far as it shows on its target. -/
structure Pointer where
  target : String
  label : Option String
  property : String
  unique : Bool
  deriving DecidableEq, Repr

/-- The relations of a model that point at models of the given names. -/
def Model.pointers (m : Model) (names : List String) : List Pointer :=
  (m.foreign.filter (·.relation.target ∈ names)).map fun f =>
    { target := f.relation.target
      label := f.relation.mapping
      property := f.relation.oppositeProperty m.name
      unique := f.unique }

/-- Two models look the same from the models of the given names. -/
structure Model.SameFrom (names : List String) (m m' : Model) : Prop where
  name : m.name = m'.name
  primary : m.primary.name = m'.primary.name
  pointers : m.pointers names = m'.pointers names

namespace Model.SameFrom

variable {names : List String} {m m' m'' : Model}

theorem refl (names : List String) (m : Model) : SameFrom names m m := ⟨rfl, rfl, rfl⟩

theorem trans (h : SameFrom names m m') (h' : SameFrom names m' m'') : SameFrom names m m'' :=
  ⟨h.name.trans h'.name, h.primary.trans h'.primary, h.pointers.trans h'.pointers⟩

end Model.SameFrom

/-! ### What a block shows of other models -/

namespace Application

theorem map_backRelation_foreignsTo (app : Application) {names : List String} {target : String}
    (h : target ∈ names) :
    (app.foreignsTo target).map Block.backRelation =
      app.models.flatMap fun m => ((m.pointers names).filter (·.target == target)).map fun p =>
        .back p.property m.name p.unique p.label := by
  rw [foreignsTo, foreigns, List.filter_flatMap, List.map_flatMap, ← map_snd_declarations,
    List.flatMap_map]
  refine List.flatMap_congr fun d _ => ?_
  have hnames : ∀ f : ForeignField, (f.relation.target == target &&
      decide (f.relation.target ∈ names)) = (f.relation.target == target) := by
    intro f
    by_cases hf : f.relation.target = target
    · simp [hf, h]
    · simp [hf]
  rw [Model.pointers, List.filter_map, List.filter_map, List.filter_filter, List.map_map,
    List.map_map]
  simp only [Function.comp_def, Foreign.target, hnames]
  rfl

end Application

namespace Block

variable {names : List String} {app app' : Application}
  (h : List.Forall₂ (Model.SameFrom names) app.models app'.models)

include h

theorem forwardRelation_eq_of_sameFrom (field : ForeignField) :
    forwardRelation app field = forwardRelation app' field := by
  have hkeys : (app.models.map fun m => (m.name, m.primary.name)) =
      app'.models.map fun m => (m.name, m.primary.name) :=
    map_eq_map_iff_forall₂.mpr (h.imp fun _ _ hsame => Prod.ext hsame.name hsame.primary)
  have hread : ∀ (app : Application) (name : String),
      (app.model? name).elim defaultPrimaryKey (·.primary.name) =
        ((app.models.map fun m => (m.name, m.primary.name)).lookup name).getD
          defaultPrimaryKey := by
    intro app name
    rw [lookup_map Model.name fun m => m.primary.name]
    change _ = ((app.model? name).map _).getD _
    cases app.model? name <;> rfl
  rw [forwardRelation, forwardRelation, hread, hread, hkeys]

theorem relations_eq_of_sameFrom {model : Model} (hname : model.name ∈ names) :
    relations app model = relations app' model := by
  have hback : (app.foreignsTo model.name).map backRelation =
      (app'.foreignsTo model.name).map backRelation := by
    rw [app.map_backRelation_foreignsTo hname, app'.map_backRelation_foreignsTo hname,
      List.flatMap_def, List.flatMap_def]
    refine congrArg List.flatten (map_eq_map_iff_forall₂.mpr (h.imp fun m m' hsame => ?_))
    rw [hsame.name, hsame.pointers]
  have hforward : model.foreign.map (forwardRelation app) =
      model.foreign.map (forwardRelation app') :=
    List.map_congr_left fun field _ => forwardRelation_eq_of_sameFrom h field
  rw [relations, relations, hback, hforward]

end Block

/-- A file is rendered alike where all models look the same from its own. -/
theorem SchemaFile.render_eq_of_sameFrom (options : RenderOptions) {app app' : Application}
    {file : SchemaFile}
    (h : List.Forall₂ (Model.SameFrom file.modelNames) app.models app'.models) :
    file.render options app = file.render options app' := by
  have hblocks : file.models.map (Block.lines options app file) =
      file.models.map (Block.lines options app' file) := by
    refine List.map_congr_left fun model hmodel => ?_
    have hrelations := Block.relations_eq_of_sameFrom h (List.mem_map_of_mem hmodel)
    rw [Block.lines, Block.relationSection, hrelations, Block.lines, Block.relationSection]
  rw [render, SchemaFile.lines, hblocks, render, SchemaFile.lines]

/-! ### Edits -/

/-- One edit of a model that has nothing to do with the models of the given names. -/
inductive Model.Edit (names : List String) (m : Model) : Model → Prop
  /-- Other words about the model and its primary column, or whether it is derived. -/
  | words (description primaryDescription : String) (material : Bool) :
      Edit names m { m with description, material, primary := { m.primary with
        description := primaryDescription } }
  /-- Other plain columns. -/
  | plain (plain : List PlainField) : Edit names m { m with plain }
  /-- Other indexes. -/
  | indexes (uniqueIndexes plainIndexes : List (List String)) (textIndexes : List String) :
      Edit names m { m with uniqueIndexes, plainIndexes, textIndexes }
  /-- Another description of a foreign column, or whether it accepts null. -/
  | foreign {before after : List ForeignField} {f : ForeignField} (description : String)
      (nullable : Bool) (h : m.foreign = before ++ f :: after) :
      Edit names m { m with foreign := before ++ { f with description, nullable } :: after }
  /-- Other relations between two places, none of which points at a model of these names. -/
  | relations {before held held' after : List ForeignField}
      (h : m.foreign = before ++ held ++ after)
      (hheld : ∀ f ∈ held, f.relation.target ∉ names)
      (hheld' : ∀ f ∈ held', f.relation.target ∉ names) :
      Edit names m { m with foreign := before ++ held' ++ after }

theorem Model.Edit.sameFrom {names : List String} {m m' : Model} (h : Edit names m m') :
    SameFrom names m m' := by
  cases h with
  | words | plain | indexes => exact ⟨rfl, rfl, rfl⟩
  | @foreign before after f description nullable h =>
    refine ⟨rfl, rfl, ?_⟩
    by_cases hf : f.relation.target ∈ names <;>
      simp [pointers, h, hf]
  | relations h hheld hheld' =>
    have hnone : ∀ {l : List ForeignField}, (∀ f ∈ l, f.relation.target ∉ names) →
        l.filter (·.relation.target ∈ names) = [] := fun hl => by
      simpa [List.filter_eq_nil_iff] using hl
    refine ⟨rfl, rfl, ?_⟩
    simp [pointers, h, hnone hheld, hnone hheld']

theorem Model.sameFrom_of_edits {names : List String} {m m' : Model}
    (h : Relation.ReflTransGen (Model.Edit names) m m') : m.SameFrom names m' := by
  induction h with
  | refl => exact .refl names m
  | tail _ hedit ih => exact ih.trans hedit.sameFrom

/-- A file whose models were edited without regard to those of the given names. Its own name and its
label may be others. -/
def SchemaFile.EditedApart (names : List String) (file file' : SchemaFile) : Prop :=
  List.Forall₂ (Relation.ReflTransGen (Model.Edit names)) file.models file'.models

theorem SchemaFile.sameFrom_of_editedApart {names : List String} {files files' : List SchemaFile}
    (h : List.Forall₂ (SchemaFile.EditedApart names) files files') :
    List.Forall₂ (Model.SameFrom names) (files.flatMap (·.models)) (files'.flatMap (·.models)) :=
  List.rel_flatMap h fun _ _ hedited => hedited.imp fun _ _ => Model.sameFrom_of_edits

/-- A file is rendered alike in any application that holds it in the same place, as long as the
models before it and behind it look the same from its own; so it is whatever was edited there
without regard to its models. -/
theorem SchemaFile.render_local (options : RenderOptions) (file : SchemaFile)
    {before before' after after' : List SchemaFile} :
    (List.Forall₂ (Model.SameFrom file.modelNames) (before.flatMap (·.models))
        (before'.flatMap (·.models)) →
      List.Forall₂ (Model.SameFrom file.modelNames) (after.flatMap (·.models))
        (after'.flatMap (·.models)) →
      file.render options ⟨before ++ file :: after⟩ =
        file.render options ⟨before' ++ file :: after'⟩) ∧
    (List.Forall₂ (SchemaFile.EditedApart file.modelNames) before before' →
      List.Forall₂ (SchemaFile.EditedApart file.modelNames) after after' →
      file.render options ⟨before ++ file :: after⟩ =
        file.render options ⟨before' ++ file :: after'⟩) := by
  have hframe (hbefore : List.Forall₂ (Model.SameFrom file.modelNames)
        (before.flatMap (·.models)) (before'.flatMap (·.models)))
      (hafter : List.Forall₂ (Model.SameFrom file.modelNames) (after.flatMap (·.models))
        (after'.flatMap (·.models))) :
      file.render options ⟨before ++ file :: after⟩ =
        file.render options ⟨before' ++ file :: after'⟩ := by
    have hown : List.Forall₂ (Model.SameFrom file.modelNames) file.models file.models :=
      List.forall₂_same.mpr fun model _ => .refl _ model
    refine file.render_eq_of_sameFrom options ?_
    rw [Application.models, Application.models, List.flatMap_append, List.flatMap_append,
      List.flatMap_cons, List.flatMap_cons]
    exact List.rel_append hbefore (List.rel_append hown hafter)
  exact ⟨hframe, fun hbefore hafter =>
    hframe (sameFrom_of_editedApart hbefore) (sameFrom_of_editedApart hafter)⟩

/-- A team is led by a person, and has a file of its own. -/
def teamFile : SchemaFile :=
  { filename := "schema-02-teams.prisma", domain := "Teams"
    models := [{ Model.minimal "team" with
      foreign := [{ name := "lead_id", relation := { name := "lead", target := "person" } }] }] }

/-- The column of a person that holds its team. -/
def membership : ForeignField :=
  { name := "team_id", unique := true
    relation := { name := "team", target := "team", mapping := "members" } }

/-- The column of a person that holds another one. -/
def superiority : ForeignField :=
  { name := "superior_id"
    relation := { name := "superior", target := "person", mapping := "superior" } }

def personFile (domain : String) (person : Model) : SchemaFile :=
  { filename := "schema-01-persons.prisma", domain, models := [person] }

def person : Model := { Model.minimal "person" with foreign := [membership] }

/-- The person with an address and a superior, who need not belong to a team. -/
def superiorPerson : Model :=
  { person with
    description := "Whoever works here."
    foreign := [{ membership with nullable := true }, superiority]
    plain := [{ name := "address", scalar := .string }]
    plainIndexes := [["address"]] }

theorem editedApart_superiorPerson :
    (personFile "Persons" person).EditedApart teamFile.modelNames
      (personFile "Staff" superiorPerson) := by
  have hheld : person.foreign = [] ++ membership :: [] := rfl
  have hadded :
      ({ person with foreign := [{ membership with nullable := true }] } : Model).foreign =
        [{ membership with nullable := true }] ++ [] ++ [] := rfl
  have helsewhere : ∀ f ∈ [superiority], f.relation.target ∉ teamFile.modelNames := by decide
  have hnullable : Relation.ReflTransGen (Model.Edit teamFile.modelNames) person
      { person with foreign := [{ membership with nullable := true }, superiority] } :=
    (Relation.ReflTransGen.single (.foreign "" true hheld)).tail
      (.relations hadded (by simp) helsewhere)
  have hwords := hnullable.tail (.words "Whoever works here." person.primary.description false)
  have hedits := (hwords.tail
    (.plain [{ name := "address", scalar := .string }])).tail (.indexes [] [["address"]] [])
  exact .cons hedits .nil

theorem render_local_superiorPerson :
    List.Forall₂ (Model.SameFrom teamFile.modelNames) [person] [superiorPerson] ∧
    List.Forall₂ (SchemaFile.EditedApart teamFile.modelNames) [personFile "Persons" person]
      [personFile "Staff" superiorPerson] ∧
    teamFile.render {} ⟨[personFile "Persons" person, teamFile]⟩ =
      teamFile.render {} ⟨[personFile "Staff" superiorPerson, teamFile]⟩ := by
  have hsame : List.Forall₂ (Model.SameFrom teamFile.modelNames) [person] [superiorPerson] :=
    .cons ⟨rfl, rfl, by decide⟩ .nil
  have hedited : List.Forall₂ (SchemaFile.EditedApart teamFile.modelNames)
      [personFile "Persons" person] [personFile "Staff" superiorPerson] :=
    .cons editedApart_superiorPerson .nil
  have hlocal := (teamFile.render_local {}).2 hedited .nil
  exact ⟨hsame, hedited, hlocal⟩

end SchemaGate
