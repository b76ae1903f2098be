import SchemaGate.Proofs.Schema.Bare

/-!
# An application without its descriptions

Two applications that differ in nothing but descriptions are the same without them. What is found in
an application under a name, and what its lists hold, is found without descriptions too.
-/

namespace SchemaGate

def ForeignField.undescribed (f : ForeignField) : ForeignField := { f with description := "" }

/-- A model without its description and those of its columns. -/
def Model.undescribed (m : Model) : Model :=
  { m with
    description := ""
    primary := { m.primary with description := "" }
    foreign := m.foreign.map (·.undescribed)
    plain := m.plain.map (·.bare) }

def SchemaFile.undescribed (f : SchemaFile) : SchemaFile :=
  { f with models := f.models.map (·.undescribed) }

def Application.undescribed (app : Application) : Application := ⟨app.files.map (·.undescribed)⟩

def Foreign.undescribed (f : Foreign) : Foreign :=
  ⟨f.file.undescribed, f.model.undescribed, f.field.undescribed⟩

namespace Model

variable (m : Model)

theorem columnNames_undescribed : m.undescribed.columnNames = m.columnNames := by
  simp only [columnNames, undescribed, List.map_map]
  rfl

theorem hasColumn_undescribed : m.undescribed.hasColumn = m.hasColumn := by
  funext name
  rw [hasColumn, m.columnNames_undescribed, hasColumn]

theorem plainField?_undescribed (name : String) :
    m.undescribed.plainField? name = (m.plainField? name).map (·.bare) := by
  rw [plainField?, undescribed, List.find?_map]
  rfl

theorem bare_undescribed : m.undescribed.bare = m.bare := by
  simp only [bare, undescribed, List.map_map]
  rfl

end Model

namespace SchemaFile

variable (file : SchemaFile)

theorem modelNames_undescribed : file.undescribed.modelNames = file.modelNames := by
  rw [modelNames, undescribed, List.map_map]
  rfl

theorem bare_undescribed : file.undescribed.bare = file.bare := by
  simp only [bare, undescribed, List.map_map, Function.comp_def, Model.bare_undescribed]

end SchemaFile

namespace Application

variable (app : Application)

theorem bare_undescribed : app.undescribed.bare = app.bare := by
  simp only [bare, undescribed, List.map_map, Function.comp_def, SchemaFile.bare_undescribed]

theorem declarations_undescribed : app.undescribed.declarations =
    app.declarations.map fun d => (d.1.undescribed, d.2.undescribed) :=
  declarations_map (fun _ => rfl) app

theorem modelNames_undescribed : app.undescribed.modelNames = app.modelNames := by
  rw [modelNames, undescribed, models_map fun _ => rfl, List.map_map]
  rfl

theorem file?_undescribed (filename : String) :
    app.undescribed.file? filename = (app.file? filename).map (·.undescribed) := by
  rw [file?, undescribed, List.find?_map]
  rfl

theorem foreigns_undescribed : app.undescribed.foreigns = app.foreigns.map (·.undescribed) :=
  foreigns_map (M := Model.undescribed) (G := fun _ => ForeignField.undescribed)
    (fun _ => rfl) app fun _ => rfl

theorem foreignsTo_undescribed (target : String) :
    app.undescribed.foreignsTo target = (app.foreignsTo target).map (·.undescribed) := by
  rw [foreignsTo, foreigns_undescribed, List.filter_map]
  rfl

end Application

end SchemaGate
