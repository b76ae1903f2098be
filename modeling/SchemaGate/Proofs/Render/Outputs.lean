import Mathlib.Data.String.Basic
import SchemaGate.Proofs.Lookup
import SchemaGate.Proofs.Render.Blocks
import SchemaGate.Proofs.Validation.Acceptance
import SchemaGate.Workflow

/-!
# What is handed out

The texts of a rendering stand in the order of their names, each name once, and where two texts are
collected under one name the later stays. An accepted application has no name twice among its files,
so that each of them keeps its text; the header of the data source comes last, and takes the place of
a file of its name (`outputs_of_render`). Only a component of that name brings one
(`mem_names_outputs`).
-/

namespace SchemaGate

/-! ### Collecting texts -/

namespace TextFiles

/-- The names are in order, and so each of them stands once. -/
def Ascending (files : TextFiles) : Prop := files.Pairwise fun a b => a.1 < b.1

variable {files : TextFiles}

theorem Ascending.nodup (h : files.Ascending) : (files.map (·.1)).Nodup :=
  List.pairwise_map.mpr (h.imp fun hlt => ne_of_lt hlt)

theorem mem_insert {name text : String} {f : String × String} (h : f ∈ insert name text files) :
    f = (name, text) ∨ f ∈ files := by
  induction files with
  | nil => exact Or.inl (List.mem_singleton.mp h)
  | cons g files ih =>
    obtain ⟨n, t⟩ := g
    rw [insert] at h
    split at h
    · exact (List.mem_cons.mp h).imp_right (List.mem_cons_of_mem _)
    · split at h
      · exact List.mem_cons.mp h
      · rcases List.mem_cons.mp h with rfl | h
        · exact Or.inr List.mem_cons_self
        · exact (ih h).imp_right (List.mem_cons_of_mem _)

theorem Ascending.insert (h : files.Ascending) (name text : String) :
    (TextFiles.insert name text files).Ascending := by
  induction files with
  | nil => exact List.pairwise_singleton _ _
  | cons g files ih =>
    obtain ⟨n, t⟩ := g
    obtain ⟨hfirst, hrest⟩ := List.pairwise_cons.mp h
    rw [TextFiles.insert]
    by_cases hsame : name = n
    · subst hsame
      rw [if_pos rfl]
      exact List.pairwise_cons.mpr ⟨hfirst, hrest⟩
    · rw [if_neg hsame]
      by_cases hlt : name < n
      · rw [if_pos hlt]
        refine List.pairwise_cons.mpr ⟨?_, h⟩
        intro f hf
        rcases List.mem_cons.mp hf with rfl | hf
        · exact hlt
        · exact lt_trans hlt (hfirst f hf)
      · rw [if_neg hlt]
        refine List.pairwise_cons.mpr ⟨?_, ih hrest⟩
        intro f hf
        rcases mem_insert hf with rfl | hf
        · exact lt_of_le_of_ne (not_lt.mp hlt) (Ne.symm hsame)
        · exact hfirst f hf

theorem ascending_ofList (files : List (String × String)) : (ofList files).Ascending := by
  have hfold : ∀ (files : List (String × String)) (done : TextFiles), done.Ascending →
      (files.foldl (fun done f => TextFiles.insert f.1 f.2 done) done).Ascending := by
    intro files
    induction files with
    | nil => exact fun _ h => h
    | cons f files ih => exact fun done h => ih _ (h.insert f.1 f.2)
  exact hfold files [] List.Pairwise.nil

/-- An entry takes the place of the one under its name, and leaves all others. -/
theorem insert_perm_filter (h : files.Ascending) (name text : String) :
    (insert name text files).Perm ((name, text) :: files.filter (·.1 ≠ name)) := by
  induction files with
  | nil => exact .refl _
  | cons g files ih =>
    obtain ⟨n, t⟩ := g
    obtain ⟨hfirst, hrest⟩ := List.pairwise_cons.mp h
    rw [insert]
    by_cases hsame : name = n
    · subst hsame
      rw [if_pos rfl, List.filter_cons_of_neg (by simp), List.filter_eq_self.mpr]
      intro f hf
      simpa using (hfirst f hf).ne'
    · rw [if_neg hsame, List.filter_cons_of_pos (by simpa using Ne.symm hsame)]
      by_cases hlt : name < n
      · rw [if_pos hlt, List.filter_eq_self.mpr]
        intro f hf
        simpa using (lt_trans hlt (hfirst f hf)).ne'
      · rw [if_neg hlt]
        exact ((ih hrest).cons _).trans (.swap _ _ _)

end TextFiles

/-! ### The entries of an application -/

namespace Accepted

variable {scope : Scope} (whole : Accepted scope) (options : RenderOptions)

/-- The text of every file under its name, in the order of the files. -/
def entries : List (String × String) :=
  whole.application.files.map fun file =>
    (file.filename, file.render options whole.application)

theorem nodup_names_entries : ((whole.entries options).map (·.1)).Nodup := by
  rw [entries, List.map_map]
  exact (Scope.violations_eq_nil_iff.mp whole.no_violations).corresponds.filenames_nodup

theorem render_perm : (whole.render options).Perm (whole.entries options) :=
  TextFiles.ofList_perm (whole.nodup_names_entries options)

end Accepted

namespace Settings

/-- The text of every file under its name. -/
def fileEntries (s : Settings) (app : Application) : List (String × String) :=
  app.files.map fun file => (file.filename, file.render s.rendering app)

/-- The header of the data source under its name, where it is set. -/
def headerEntries (s : Settings) : List (String × String) :=
  if s.output.datasource then [(datasourceFilename, s.rendering.provider.datasource)] else []

variable {s : Settings} {app : Application} {components : List Component} {out : TextFiles}

theorem map_fst_fileEntries : (s.fileEntries app).map (·.1) = app.files.map (·.filename) := by
  rw [fileEntries, List.map_map]
  rfl

theorem exists_accepted_of_render (h : s.render app components = .ok out) :
    ∃ whole : Accepted ⟨components, []⟩, whole.application = app ∧ out = s.outputs whole := by
  rw [render] at h
  split at h
  · next whole hvalidate =>
    exact ⟨whole, Scope.application_of_validate hvalidate, (Except.ok.inj h).symm⟩
  · cases h

theorem ascending_outputs {scope : Scope} (s : Settings) (whole : Accepted scope) :
    (s.outputs whole).Ascending := by
  unfold outputs
  dsimp only
  split
  · exact (TextFiles.ascending_ofList _).insert ..
  · exact TextFiles.ascending_ofList _

theorem outputs_perm {scope : Scope} (s : Settings) (whole : Accepted scope) :
    (s.outputs whole).Perm
      ((s.fileEntries whole.application).filter (·.1 ∉ s.headerEntries.map (·.1)) ++
        s.headerEntries) := by
  have hfiles : (whole.render s.rendering).Perm (s.fileEntries whole.application) :=
    whole.render_perm s.rendering
  unfold outputs headerEntries
  dsimp only
  split
  · have hinsert : (TextFiles.insert datasourceFilename s.rendering.provider.datasource
        (whole.render s.rendering)).Perm _ :=
      TextFiles.insert_perm_filter (TextFiles.ascending_ofList _) ..
    refine hinsert.trans (((hfiles.filter _).cons _).trans ?_)
    simpa using (List.perm_append_singleton _ _).symm
  · simpa using hfiles

/-- The names are those of the components, and that of the header where it is set. -/
theorem mem_names_outputs (s : Settings) (whole : Accepted ⟨components, []⟩) {name : String} :
    name ∈ (s.outputs whole).map (·.1) ↔
      name ∈ components.map (·.filename) ∨ name ∈ s.headerEntries.map (·.1) := by
  have hcorresponds : Corresponds components (components ++ []) whole.application :=
    (Scope.violations_eq_nil_iff.mp whole.no_violations).corresponds
  rw [List.append_nil] at hcorresponds
  have hfiles : name ∈ (s.fileEntries whole.application).map (·.1) ↔
      name ∈ components.map (·.filename) := by
    rw [map_fst_fileEntries]
    constructor
    · intro h
      obtain ⟨file, hfile, rfl⟩ := List.mem_map.mp h
      obtain ⟨c, hc, hname⟩ := hcorresponds.planned file hfile
      exact List.mem_map.mpr ⟨c, hc, hname⟩
    · intro h
      obtain ⟨c, hc, rfl⟩ := List.mem_map.mp h
      obtain ⟨file, hfile, hrealizes⟩ := hcorresponds.realized c hc
      exact List.mem_map.mpr ⟨file, hfile, hrealizes.filename⟩
  rw [((outputs_perm s whole).map (·.1)).mem_iff, List.map_append, List.mem_append, ← hfiles]
  by_cases hheader : name ∈ s.headerEntries.map (·.1)
  · simp only [hheader, or_true]
  · simp only [hheader, or_false]
    constructor
    · intro h
      obtain ⟨f, hf, rfl⟩ := List.mem_map.mp h
      exact List.mem_map_of_mem (List.mem_filter.mp hf).1
    · intro h
      obtain ⟨f, hf, rfl⟩ := List.mem_map.mp h
      exact List.mem_map_of_mem (List.mem_filter.mpr ⟨hf, by simpa using hheader⟩)

/-- What is handed out of an application are the texts of its files, but for one of the header's name
where the header is set, and the header then; so it is all of them exactly where no file has that
name. -/
theorem outputs_of_render (h : s.render app components = .ok out) :
    out.Ascending ∧ (∀ name text, out.get? name = some text ↔ (name, text) ∈ out) ∧
      out.Perm ((s.fileEntries app).filter (·.1 ∉ s.headerEntries.map (·.1)) ++ s.headerEntries) ∧
      (out.Perm (s.fileEntries app ++ s.headerEntries) ↔
        (s.output.datasource = true → ∀ file ∈ app.files, file.filename ≠ datasourceFilename)) := by
  obtain ⟨whole, rfl, rfl⟩ := exists_accepted_of_render h
  have hascending : (s.outputs whole).Ascending := ascending_outputs s whole
  have hperm := outputs_perm s whole
  have hcount := List.nodup_iff_count_le_one.mp hascending.nodup
  refine ⟨hascending, fun name _ => lookup_eq_some_iff_mem (hcount name), hperm, ?_⟩
  constructor
  · intro hall hset file hfile hname
    have hnodup := (hall.map (·.1)).nodup_iff.mp hascending.nodup
    rw [List.map_append, List.nodup_append] at hnodup
    refine hnodup.2.2 file.filename ?_ datasourceFilename ?_ hname
    · rw [map_fst_fileEntries]
      exact List.mem_map_of_mem hfile
    · simp [headerEntries, hset]
  · intro hnone
    rw [List.filter_eq_self.mpr] at hperm
    · exact hperm
    · intro f hf
      obtain ⟨file, hfile, rfl⟩ := List.mem_map.mp hf
      by_cases hset : s.output.datasource
      · simpa [headerEntries, hset] using hnone hset file hfile
      · simp [headerEntries, hset]

end Settings

/-- A component whose file has the name of the header. -/
def headerComponent : Component :=
  { filename := datasourceFilename, domain := "Users", tables := ["user"] }

/-- The application of that component. -/
def headerApplication : Application := ⟨[.ofComponent headerComponent [.minimal "user"]]⟩

/-- Without the header a file of its name is handed out like any other. -/
theorem outputs_of_render_headless :
    ∃ out, Settings.render { output := { datasource := false } } headerApplication
        [headerComponent] = .ok out ∧
      out.Perm [(datasourceFilename,
        (SchemaFile.ofComponent headerComponent [.minimal "user"]).render {} headerApplication)] := by
  have hok : (Settings.render { output := { datasource := false } } headerApplication
      [headerComponent]).isOk := by decide +kernel
  cases h : Settings.render { output := { datasource := false } } headerApplication
      [headerComponent] with
  | error e => simp [h, Except.isOk, Except.toBool] at hok
  | ok out =>
    obtain ⟨-, -, -, hiff⟩ := Settings.outputs_of_render h
    exact ⟨out, rfl, hiff.mpr (fun hset => by cases hset)⟩

/-- Where the header is set, it is found in place of the file. -/
theorem header_replaces_file :
    ∃ out, Settings.render {} headerApplication [headerComponent] = .ok out ∧
      ∃ file ∈ headerApplication.files,
        out.get? file.filename ≠ some (file.render {} headerApplication) := by
  have hlost : (Settings.render {} headerApplication [headerComponent]).toOption.any
      (fun out => out.get? datasourceFilename ≠ some
        ((SchemaFile.ofComponent headerComponent [.minimal "user"]).render {} headerApplication)) =
      true := by decide +kernel
  cases h : Settings.render {} headerApplication [headerComponent] with
  | error e => simp [h, Except.toOption] at hlost
  | ok out =>
    rw [h] at hlost
    refine ⟨out, rfl, _, List.mem_singleton_self _, ?_⟩
    show out.get? datasourceFilename ≠ _
    simpa [Except.toOption] using hlost

end SchemaGate
