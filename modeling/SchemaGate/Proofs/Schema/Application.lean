import Mathlib.Data.List.Flatten
import SchemaGate.Proofs.Repeats
import SchemaGate.Schema.Application

/-!
# The parts of an application

What is found under a name, and what the lists of all models and of all foreign columns hold.
-/

namespace SchemaGate.Application

variable {app : Application}

theorem mem_of_file? {filename : String} {file : SchemaFile}
    (h : app.file? filename = some file) : file ∈ app.files ∧ file.filename = filename := by
  refine ⟨List.mem_of_find?_eq_some h, ?_⟩
  simpa using List.find?_some h

theorem file?_of_nodup {file : SchemaFile}
    (hnodup : (app.files.map (·.filename)).Nodup) (hfile : file ∈ app.files) :
    app.file? file.filename = some file :=
  find?_eq_some_of_nodup (f := SchemaFile.filename) hnodup hfile

theorem map_snd_declarations (app : Application) :
    app.declarations.map (·.2) = app.models := by
  simp [declarations, models, List.map_flatMap, Function.comp_def]

theorem map_name_declarations (app : Application) :
    app.declarations.map (·.2.name) = app.modelNames := by
  rw [modelNames, ← map_snd_declarations, List.map_map]
  rfl

theorem mem_declarations {file : SchemaFile} {model : Model} :
    (file, model) ∈ app.declarations ↔ file ∈ app.files ∧ model ∈ file.models := by
  simp [declarations]

theorem mem_models {model : Model} :
    model ∈ app.models ↔ ∃ file ∈ app.files, model ∈ file.models := by
  simp [models]

theorem mem_modelNames {name : String} :
    name ∈ app.modelNames ↔ ∃ file ∈ app.files, name ∈ file.modelNames := by
  simp only [modelNames, List.mem_map, mem_models, SchemaFile.modelNames]
  constructor
  · rintro ⟨model, ⟨file, hfile, hmodel⟩, hname⟩
    exact ⟨file, hfile, model, hmodel, hname⟩
  · rintro ⟨file, hfile, model, hmodel, hname⟩
    exact ⟨model, ⟨file, hfile, hmodel⟩, hname⟩

theorem modelNames_eq_flatMap (app : Application) :
    app.modelNames = app.files.flatMap (·.modelNames) := by
  rw [modelNames, models, List.map_flatMap]
  rfl

theorem mem_foreigns {f : Foreign} :
    f ∈ app.foreigns ↔ (f.file, f.model) ∈ app.declarations ∧ f.field ∈ f.model.foreign := by
  obtain ⟨file, model, field⟩ := f
  simp only [foreigns, List.mem_flatMap, Prod.exists, List.mem_map, Foreign.mk.injEq]
  constructor
  · rintro ⟨_, _, hdecl, _, hfield, rfl, rfl, rfl⟩
    exact ⟨hdecl, hfield⟩
  · rintro ⟨hdecl, hfield⟩
    exact ⟨file, model, hdecl, field, hfield, rfl, rfl, rfl⟩

theorem mem_foreignsTo {target : String} {f : Foreign} :
    f ∈ app.foreignsTo target ↔ f ∈ app.foreigns ∧ f.target = target := by
  simp [foreignsTo]

theorem model?_of_nodup {model : Model} (hnodup : app.modelNames.Nodup)
    (hmodel : model ∈ app.models) : app.model? model.name = some model :=
  find?_eq_some_of_nodup (f := Model.name) hnodup hmodel

/-- Where model names are distinct, the foreign columns held by models of a name are those of the
model of that name. -/
theorem filter_foreigns_model {file : SchemaFile} {model : Model} (hnodup : app.modelNames.Nodup)
    (hdecl : (file, model) ∈ app.declarations) :
    app.foreigns.filter (·.model.name = model.name) = model.foreign.map (⟨file, model, ·⟩) := by
  have hnames : (app.declarations.map (·.2.name)).Nodup := by
    rwa [map_name_declarations]
  have hone : app.declarations.filter (·.2.name = model.name) = [(file, model)] :=
    filter_eq_singleton_of_nodup (f := fun d : SchemaFile × Model => d.2.name) hnames hdecl
  have hheld : ∀ d ∈ app.declarations, ∀ f ∈ d.2.foreign.map (Foreign.mk d.1 d.2 ·),
      decide (f.model.name = model.name) = decide (d.2.name = model.name) := by
    rintro d - f hf
    obtain ⟨_, -, rfl⟩ := List.mem_map.mp hf
    rfl
  rw [foreigns, filter_flatMap_of_forall hheld, hone]
  exact List.flatMap_singleton _ _

/-- The relations of some of the files are among those of all, in the same order. -/
theorem foreigns_sublist {part whole : Application} (h : part.files.Sublist whole.files) :
    part.foreigns.Sublist whole.foreigns :=
  (h.flatMap fun file => file.models.map (file, ·)).flatMap _

section

variable {F : SchemaFile → SchemaFile} {M : Model → Model} {G : Model → ForeignField → ForeignField}
  (hmodels : ∀ file : SchemaFile, (F file).models = file.models.map M) (app : Application)

include hmodels

/-- Where every file is changed model by model, so are the declarations. -/
theorem declarations_map : (⟨app.files.map F⟩ : Application).declarations =
    app.declarations.map fun d => (F d.1, M d.2) := by
  simp [declarations, hmodels, List.flatMap_map, List.map_flatMap, Function.comp_def]

theorem models_map : (⟨app.files.map F⟩ : Application).models = app.models.map M := by
  simp [models, hmodels, List.flatMap_map, List.map_flatMap]

theorem foreigns_map (hforeign : ∀ model : Model, (M model).foreign = model.foreign.map (G model)) :
    (⟨app.files.map F⟩ : Application).foreigns =
      app.foreigns.map fun f => ⟨F f.file, M f.model, G f.model f.field⟩ := by
  simp [foreigns, declarations_map hmodels, hforeign, List.flatMap_map, List.map_flatMap,
    Function.comp_def]

end

theorem forall_models_iff {P : Model → Prop} :
    (∀ model ∈ app.models, P model) ↔ ∀ d ∈ app.declarations, P d.2 := by
  rw [← map_snd_declarations, List.forall_mem_map]

theorem forall_foreigns_iff {P : Foreign → Prop} :
    (∀ f ∈ app.foreigns, P f) ↔
      ∀ d ∈ app.declarations, ∀ field ∈ d.2.foreign, P ⟨d.1, d.2, field⟩ := by
  simp only [mem_foreigns]
  exact ⟨fun h d hd field hfield => h ⟨d.1, d.2, field⟩ ⟨hd, hfield⟩,
    fun h f ⟨hd, hfield⟩ => h (f.file, f.model) hd f.field hfield⟩

end SchemaGate.Application
