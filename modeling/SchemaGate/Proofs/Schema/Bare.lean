import SchemaGate.Proofs.Schema.Application
import SchemaGate.Render

/-!
# What a schema keeps

A schema without comments shows neither descriptions nor labels nor what is derived, and of the
property on a relation's target it shows the name, not whether that was written or left to the
default. The bare form of an application is what is left without them, and it is rendered as the
application is (`texts_bare`).
-/

namespace SchemaGate

/-- A relation with the property on its target written out. -/
def Relation.bare (source : String) (r : Relation) : Relation :=
  { r with opposite := some (r.oppositeProperty source) }

def ForeignField.bare (source : String) (f : ForeignField) : ForeignField :=
  { f with description := "", relation := f.relation.bare source }

def PlainField.bare (f : PlainField) : PlainField := { f with description := "" }

/-- A model without words about it. -/
def Model.bare (m : Model) : Model :=
  { m with
    description := ""
    material := false
    primary := { m.primary with description := "" }
    foreign := m.foreign.map (·.bare m.name)
    plain := m.plain.map (·.bare) }

def SchemaFile.bare (f : SchemaFile) : SchemaFile :=
  { f with domain := "", models := f.models.map (·.bare) }

def Application.bare (app : Application) : Application := ⟨app.files.map (·.bare)⟩

def Foreign.bare (f : Foreign) : Foreign :=
  ⟨f.file.bare, f.model.bare, f.field.bare f.model.name⟩

namespace Application

variable (app : Application)

theorem models_bare : app.bare.models = app.models.map (·.bare) := models_map (fun _ => rfl) app

theorem model?_bare (name : String) : app.bare.model? name = (app.model? name).map (·.bare) := by
  rw [model?, models_bare, List.find?_map]
  rfl

theorem foreigns_bare : app.bare.foreigns = app.foreigns.map (·.bare) :=
  foreigns_map (M := Model.bare) (G := fun m f => f.bare m.name) (fun _ => rfl) app fun _ => rfl

theorem foreignsTo_bare (target : String) :
    app.bare.foreignsTo target = (app.foreignsTo target).map (·.bare) := by
  rw [foreignsTo, foreigns_bare, List.filter_map]
  rfl

end Application

/-! ### The bare form is rendered alike -/

namespace Block

variable (provider : Provider) (app : Application)

theorem forwardRelation_bare (source : String) (field : ForeignField) :
    forwardRelation app.bare (field.bare source) = forwardRelation app field := by
  have hkey : (app.bare.model? field.relation.target).elim defaultPrimaryKey (·.primary.name) =
      (app.model? field.relation.target).elim defaultPrimaryKey (·.primary.name) := by
    rw [Application.model?_bare]
    cases app.model? field.relation.target <;> rfl
  exact congrArg (RelationLine.forward field.relation.name field.relation.target field.nullable
    field.relation.mapping field.name) hkey

theorem relations_bare (model : Model) : relations app.bare model.bare = relations app model := by
  have hforward : model.bare.foreign.map (forwardRelation app.bare) =
      model.foreign.map (forwardRelation app) := by
    simp only [Model.bare, List.map_map, Function.comp_def, forwardRelation_bare]
  have hback : (app.bare.foreignsTo model.name).map backRelation =
      (app.foreignsTo model.name).map backRelation := by
    rw [Application.foreignsTo_bare, List.map_map]
    rfl
  exact congrArg₂ (· ++ ·) hforward hback

theorem column_off (description name : String) (scalar : Scalar) (nullable : Bool)
    (attributes : List String) :
    column ⟨provider, false⟩ description name scalar nullable attributes =
      [.column name (.forProvider provider scalar nullable attributes)] := rfl

theorem columns_bare (model : Model) :
    columns ⟨provider, false⟩ model.bare = columns ⟨provider, false⟩ model := by
  simp only [columns, column_off, Model.bare, List.map_map, Function.comp_def, ForeignField.bare,
    PlainField.bare]

theorem header_off (file : SchemaFile) (model : Model) :
    header ⟨provider, false⟩ file model = [] := rfl

theorem lines_bare (file : SchemaFile) (model : Model) :
    lines ⟨provider, false⟩ app.bare file.bare model.bare =
      lines ⟨provider, false⟩ app file model := by
  have hsection : relationSection app.bare model.bare = relationSection app model := by
    rw [relationSection, relations_bare, relationSection]
  have hopening : model.bare.name = model.name := rfl
  have hindexes : indexes ⟨provider, false⟩ model.bare = indexes ⟨provider, false⟩ model := rfl
  rw [lines, header_off, hopening, columns_bare, hsection, hindexes, lines, header_off]

end Block

theorem SchemaFile.map_lines_bare (provider : Provider) (app : Application) (file : SchemaFile) :
    file.bare.models.map (Block.lines ⟨provider, false⟩ app.bare file.bare) =
      file.models.map (Block.lines ⟨provider, false⟩ app file) := by
  rw [show file.bare.models = file.models.map (·.bare) from rfl, List.map_map]
  refine List.map_congr_left fun model _ => ?_
  rw [Function.comp_apply, Block.lines_bare]

theorem SchemaFile.render_bare (provider : Provider) (app : Application) (file : SchemaFile) :
    file.bare.render ⟨provider, false⟩ app.bare = file.render ⟨provider, false⟩ app := by
  rw [SchemaFile.render, SchemaFile.lines, file.map_lines_bare, SchemaFile.render,
    SchemaFile.lines]

/-- Without comments an application is rendered as its bare form. -/
theorem texts_bare (provider : Provider) (app : Application) :
    (app.bare.files.map fun file => (file.filename, file.render ⟨provider, false⟩ app.bare)) =
      app.files.map fun file => (file.filename, file.render ⟨provider, false⟩ app) := by
  rw [show app.bare.files = app.files.map (·.bare) from rfl, List.map_map]
  refine List.map_congr_left fun file _ => ?_
  rw [Function.comp_apply, SchemaFile.render_bare]
  rfl

end SchemaGate
