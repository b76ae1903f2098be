import SchemaGate.Proofs.Render.Comments
import SchemaGate.Proofs.Validation.Undescribed

/-!
# Descriptions are inert

A description is printed line by line, each behind a mark of documentation, and nothing else depends
on it. So a text without its documentation shows the same of an application whatever is described
in it (`descriptions_inert`), be it accepted or not: names may hold line feeds here, so that lines
are compared and not read.
-/

namespace SchemaGate

open SchemaLine (undocumented)

theorem withoutDocs_join (lines : List SchemaLine) :
    withoutDocs (SchemaLine.join lines) =
      .ofList (['\n'].intercalate (lines.flatMap undocumented ++ [[]])) := by
  rw [withoutDocs, Reading.filter_split_join]

namespace Block

variable (provider : Provider) (app : Application) (file : SchemaFile) (model : Model)

theorem flatMap_undocumented_docs (indented : Bool) (description : String) :
    (SchemaLine.docs indented description).flatMap undocumented = [] := by
  rw [List.flatMap_eq_nil_iff]
  intro line hline
  obtain ⟨_, -, rfl⟩ := List.mem_map.mp hline
  exact Reading.undocumented_doc (Reading.legible_of_mem_docs hline)

/-- Of a header no more is left than of its label. -/
theorem flatMap_undocumented_header :
    (header ⟨provider, true⟩ file model).flatMap undocumented =
      undocumented (.doc false s!"@namespace {file.domain}") := by
  have hend : undocumented (.doc false "") = [] :=
    Reading.undocumented_doc (Reading.legible_doc (by decide))
  have hderived : undocumented (.doc false "@material") = [] :=
    Reading.undocumented_doc (Reading.legible_doc (by decide))
  have hdescription := flatMap_undocumented_docs false model.description
  simp only [header, if_true]
  split <;> split <;> simp [hend, hderived, hdescription]

theorem flatMap_undocumented_column (description name : String) (scalar : Scalar)
    (nullable : Bool) (attributes : List String) :
    (column ⟨provider, true⟩ description name scalar nullable attributes).flatMap undocumented =
      (column ⟨provider, false⟩ description name scalar nullable attributes).flatMap
        undocumented := by
  change (SchemaLine.docs true description ++ [_]).flatMap undocumented = _
  rw [List.flatMap_append, flatMap_undocumented_docs]
  rfl

theorem flatMap_undocumented_lines :
    (lines ⟨provider, true⟩ app file model).flatMap undocumented =
      undocumented (.doc false s!"@namespace {file.domain}") ++
        (lines ⟨provider, false⟩ app file model).flatMap undocumented := by
  have hcolumns : (columns ⟨provider, true⟩ model).map (·.flatMap undocumented) =
      (columns ⟨provider, false⟩ model).map (·.flatMap undocumented) := by
    simp only [columns, List.map_append, List.map_cons, List.map_map, Function.comp_def,
      flatMap_undocumented_column]
  have hindexes : indexes ⟨provider, true⟩ model = indexes ⟨provider, false⟩ model := rfl
  simp only [lines, List.flatMap_append, flatMap_undocumented_header, flatMap_intercalate, hcolumns,
    hindexes, header_off, List.nil_append, List.append_assoc]

end Block

namespace SchemaFile

variable (provider : Provider) {app app' : Application} {file file' : SchemaFile}

theorem flatMap_undocumented_lines (app : Application) (file : SchemaFile) :
    (file.lines ⟨provider, true⟩ app).flatMap undocumented =
      (undocumented .blank).intercalate
        ((file.models.map (Block.lines ⟨provider, false⟩ app file)).map fun block =>
          undocumented (.doc false s!"@namespace {file.domain}") ++
            block.flatMap undocumented) := by
  rw [SchemaFile.lines, flatMap_intercalate, List.flatMap_singleton, List.map_map, List.map_map]
  simp only [Function.comp_def, Block.flatMap_undocumented_lines]

/-- Without its documentation a text shows the label of the file, and what its bare form does. -/
theorem withoutDocs_render_eq (hdomain : file.domain = file'.domain)
    (hfile : file.bare = file'.bare) (happ : app.bare = app'.bare) :
    withoutDocs (file.render ⟨provider, true⟩ app) =
      withoutDocs (file'.render ⟨provider, true⟩ app') := by
  have hblocks : file.models.map (Block.lines ⟨provider, false⟩ app file) =
      file'.models.map (Block.lines ⟨provider, false⟩ app' file') := by
    rw [← file.map_lines_bare provider app, ← file'.map_lines_bare provider app', hfile, happ]
  rw [SchemaFile.render, SchemaFile.render, withoutDocs_join, withoutDocs_join,
    flatMap_undocumented_lines, flatMap_undocumented_lines, hblocks, hdomain]

theorem render_eq_of_bare_eq (hfile : file.bare = file'.bare) (happ : app.bare = app'.bare) :
    file.render ⟨provider, false⟩ app = file'.render ⟨provider, false⟩ app' := by
  rw [← render_bare, hfile, happ, render_bare]

end SchemaFile

/-- Applications that differ in descriptions alone are accepted alike or refused for the same
reasons, and file by file their texts are the same without documentation. Without comments they are
the same as they stand. -/
theorem descriptions_inert {app app' : Application} (h : app.undescribed = app'.undescribed) :
    (∀ scope : Scope, (scope.validate app).isOk = (scope.validate app').isOk ∧
      ∀ violations, scope.validate app = .error violations ↔
        scope.validate app' = .error violations) ∧
    ∀ provider : Provider, List.Forall₂ (fun file file' =>
        withoutDocs (file.render ⟨provider, true⟩ app) =
          withoutDocs (file'.render ⟨provider, true⟩ app') ∧
        file.render ⟨provider, false⟩ app = file'.render ⟨provider, false⟩ app')
      app.files app'.files := by
  have happ : app.bare = app'.bare := by
    rw [← app.bare_undescribed, h, app'.bare_undescribed]
  have hfiles : app.files.map (·.undescribed) = app'.files.map (·.undescribed) :=
    congrArg Application.files h
  constructor
  · intro scope
    have hviolations : scope.violations app = scope.violations app' := by
      rw [← scope.violations_undescribed app, h, scope.violations_undescribed]
    refine ⟨?_, fun violations => ?_⟩
    · rw [Bool.eq_iff_iff, Scope.validate_isOk_iff, Scope.validate_isOk_iff, hviolations]
    · rw [Scope.validate_eq_error_iff, Scope.validate_eq_error_iff, hviolations]
  · intro provider
    refine (map_eq_map_iff_forall₂.mp hfiles).imp fun file file' hfile => ?_
    have hdomain := congrArg SchemaFile.domain hfile
    have hbare : file.bare = file'.bare := by
      rw [← file.bare_undescribed, hfile, file'.bare_undescribed]
    exact ⟨SchemaFile.withoutDocs_render_eq provider hdomain hbare happ,
      SchemaFile.render_eq_of_bare_eq provider hbare happ⟩

/-- The person in other words, with line ends of other kinds. -/
def redescribedApplication : Application :=
  ⟨[{ filename := "schema-01-users.prisma", domain := "Users",
      models := [{ Model.minimal "user" with
        description := "\x7d\r\n\r\n@@map(\"team\")\rmodel team \x7b", material := true
        primary := { name := "id", description := " \n/// \n" }
        plain := [{ name := "email", scalar := .string }] }] }]⟩

theorem descriptions_inert_redescribed :
    describedApplication.undescribed = redescribedApplication.undescribed ∧
    (Scope.validate ⟨[describedComponent], []⟩ redescribedApplication).isOk ∧
    ∀ file ∈ describedApplication.files, ∃ file' ∈ redescribedApplication.files,
      withoutDocs (file.render ⟨.sqlite, true⟩ describedApplication) =
          withoutDocs (file'.render ⟨.sqlite, true⟩ redescribedApplication) ∧
        file.render ⟨.sqlite, false⟩ describedApplication =
          file'.render ⟨.sqlite, false⟩ redescribedApplication := by
  have hsame : describedApplication.undescribed = redescribedApplication.undescribed := by decide
  obtain ⟨hvalidate, htexts⟩ := descriptions_inert hsame
  have haccepted : (Scope.validate ⟨[describedComponent], []⟩ describedApplication).isOk := by
    decide +kernel
  refine ⟨hsame, ?_, forall₂_mem_left (htexts .sqlite)⟩
  rw [← (hvalidate _).1]
  exact haccepted

end SchemaGate
