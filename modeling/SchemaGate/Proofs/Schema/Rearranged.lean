import Mathlib.Data.List.Perm.Basic
import SchemaGate.Proofs.Paired
import SchemaGate.Proofs.Schema.Application

/-!
# Applications in another order

The same files in any order, each with its models in any order, make another application
(`Application.Rearranges`). What is collected from its models or from its foreign columns without
regard to the file is the same in another order (`flatMap_declarations`, `map_foreigns`), and where
filenames are distinct the same files are found (`file?`).
-/

namespace SchemaGate

/-- The same file with its models in any order. -/
structure SchemaFile.Rearranges (file file' : SchemaFile) : Prop where
  filename : file'.filename = file.filename
  domain : file'.domain = file.domain
  models : file.models.Perm file'.models

/-- The same files in any order, each with its models in any order. -/
def Application.Rearranges (app app' : Application) : Prop :=
  ∃ files, app.files.Perm files ∧ List.Forall₂ SchemaFile.Rearranges files app'.files

theorem SchemaFile.Rearranges.mem_modelNames {file file' : SchemaFile} (h : file.Rearranges file')
    (table : String) : table ∈ file.modelNames ↔ table ∈ file'.modelNames :=
  (h.models.map Model.name).mem_iff

namespace Application.Rearranges

variable {β : Type} {app app' : Application} (h : app.Rearranges app')

include h

theorem flatMap_files {F G : SchemaFile → List β}
    (hFG : ∀ file file' : SchemaFile, file.Rearranges file' → (F file).Perm (G file')) :
    (app.files.flatMap F).Perm (app'.files.flatMap G) := by
  obtain ⟨files, hperm, hfiles⟩ := h
  refine (hperm.flatMap_right F).trans ?_
  generalize app'.files = files' at hfiles ⊢
  clear hperm
  induction hfiles with
  | nil => exact .refl _
  | cons hfile _ ih => exact (hFG _ _ hfile).append ih

theorem filenames : (app.files.map (·.filename)).Perm (app'.files.map (·.filename)) := by
  rw [List.map_eq_flatMap, List.map_eq_flatMap]
  refine h.flatMap_files fun file file' hfile => ?_
  rw [hfile.filename]

theorem flatMap_declarations {F G : SchemaFile × Model → List β}
    (hFG : ∀ file file' model, (F (file, model)).Perm (G (file', model))) :
    (app.declarations.flatMap F).Perm (app'.declarations.flatMap G) := by
  simp only [declarations, List.flatMap_assoc, List.flatMap_map]
  refine h.flatMap_files fun file file' hfile => ?_
  exact hfile.models.flatMap fun model _ => hFG file file' model

theorem modelNames : app.modelNames.Perm app'.modelNames := by
  rw [← map_name_declarations, ← map_name_declarations, List.map_eq_flatMap, List.map_eq_flatMap]
  exact h.flatMap_declarations fun _ _ _ => .refl _

/-- What foreign columns show besides their file is shown as often. -/
theorem map_foreigns {g : Foreign → β}
    (hg : ∀ file file' model field, g ⟨file, model, field⟩ = g ⟨file', model, field⟩) :
    (app.foreigns.map g).Perm (app'.foreigns.map g) := by
  rw [foreigns, foreigns, List.map_flatMap, List.map_flatMap]
  refine h.flatMap_declarations fun file file' model => ?_
  have hsame : (model.foreign.map (Foreign.mk file model ·)).map g =
      (model.foreign.map (Foreign.mk file' model ·)).map g := by
    rw [List.map_map, List.map_map]
    exact List.map_congr_left fun field _ => hg file file' model field
  rw [hsame]

theorem oppositeProperties (target : String) :
    ((app.foreignsTo target).map (·.oppositeProperty)).Perm
      ((app'.foreignsTo target).map (·.oppositeProperty)) := by
  have hread : ∀ app : Application, (app.foreignsTo target).map (·.oppositeProperty) =
      ((app.foreigns.map fun f => (f.target, f.oppositeProperty)).filter (·.1 == target)).map
        (·.2) := by
    intro app
    rw [List.filter_map, List.map_map]
    rfl
  rw [hread, hread]
  exact ((h.map_foreigns fun _ _ _ _ => rfl).filter _).map _

/-- Where filenames are distinct, a name finds the same file in both. -/
theorem file? (hnodup : (app.files.map (·.filename)).Nodup) (filename : String) :
    Option.Rel SchemaFile.Rearranges (app.file? filename) (app'.file? filename) := by
  have hnames := h.filenames
  obtain ⟨files, hperm, hfiles⟩ := h
  cases hfile : app.file? filename with
  | none =>
    have hnone : filename ∉ app'.files.map (·.filename) := by
      rw [← hnames.mem_iff]
      exact find?_eq_none_iff_not_mem_map.mp hfile
    have hnone' : app'.file? filename = none := find?_eq_none_iff_not_mem_map.mpr hnone
    rw [hnone']
    exact .none
  | some file =>
    obtain ⟨hmem, rfl⟩ := mem_of_file? hfile
    obtain ⟨file', hmem', hrearranges⟩ := forall₂_mem_left hfiles file (hperm.mem_iff.mp hmem)
    have hfound := file?_of_nodup (hnames.nodup_iff.mp hnodup) hmem'
    rw [hrearranges.filename] at hfound
    rw [hfound]
    exact .some hrearranges

end Application.Rearranges

end SchemaGate
