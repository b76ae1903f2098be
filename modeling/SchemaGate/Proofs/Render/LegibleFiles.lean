import SchemaGate.Proofs.Render.Blocks
import SchemaGate.Proofs.Render.Spelled
import SchemaGate.Proofs.Schema.Application
import SchemaGate.Proofs.Validation.Acceptance

/-!
# The files of an accepted application are legible

What an accepted application declares is written in words (`spelled_of_mem_declarations`), and
remarks stay behind their slashes: descriptions are cut into lines that are each marked. A file's
label is not, it is written as it stands, so that every line is legible where no label that is
printed holds a line feed (`legible_of_conforms`).
-/

namespace SchemaGate

namespace Reading

open SchemaGate.Block (backRelation behindBlank column columnLines columns declarations
  declaringLines_lines docs forwardRelation header indexes lines mem_indexes relationSection
  relations)

/-! ### Remarks -/

theorem legible_of_isRemark {line : SchemaLine} (h : line.isRemark)
    (hfeed : '\n' ∉ line.text.toList) : Legible line := by
  refine ⟨hfeed, ?_⟩
  rw [lineOf?_remark h]
  cases line <;> first | rfl | cases h

theorem legible_of_mem_docs {indented : Bool} {description : String} {line : SchemaLine}
    (h : line ∈ SchemaLine.docs indented description) : Legible line := by
  obtain ⟨words, hwords, rfl⟩ := List.mem_map.mp h
  refine legible_doc ?_
  rw [String.toList_ofList]
  intro hmem
  refine Text.feed_not_mem_of_mem_lines hwords ?_
  have hsuffix := List.dropWhile_suffix (l := words.reverse) Text.isBlank
  exact List.mem_reverse.mp (hsuffix.subset (List.mem_reverse.mp hmem))

theorem legible_of_mem_heading {words : String} (hwords : '\n' ∉ words.toList) {line : SchemaLine}
    (h : line ∈ SchemaLine.heading words) : Legible line := by
  simp only [SchemaLine.heading, List.mem_cons, List.not_mem_nil, or_false] at h
  have hrule : Legible .rule := legible_of_isRemark rfl (by decide)
  rcases h with rfl | rfl | rfl
  · exact hrule
  · refine legible_of_isRemark rfl ?_
    rw [show (SchemaLine.title words).text = "  // " ++ words from rfl]
    simp [hwords]
  · exact hrule

theorem legible_blank : Legible .blank := legible_of_isRemark rfl (by decide)

variable (options : RenderOptions)

/-- A header is made of the description, the label and two marks. -/
theorem mem_header {file : SchemaFile} {model : Model} {line : SchemaLine}
    (h : line ∈ header options file model) :
    options.comments ∧ (line ∈ SchemaLine.docs false model.description ∨ line = .doc false "" ∨
      line = .doc false s!"@namespace {file.domain}" ∨ line = .doc false "@material") := by
  unfold header at h
  split at h
  · rename_i hcomments
    refine ⟨hcomments, ?_⟩
    simp only [List.mem_append, List.mem_singleton] at h
    rcases h with (hdescription | hnamespace) | hderived
    · split at hdescription
      · simp at hdescription
      · rcases List.mem_append.mp hdescription with hdocs | hend
        · exact Or.inl hdocs
        · exact Or.inr (Or.inl (List.mem_singleton.mp hend))
    · exact Or.inr (Or.inr (Or.inl hnamespace))
    · split at hderived
      · exact Or.inr (Or.inr (Or.inr (List.mem_singleton.mp hderived)))
      · simp at hderived
  · simp at h

/-- In a header all but the label is legible. -/
theorem legible_of_mem_header {file : SchemaFile} {model : Model} {line : SchemaLine}
    (h : line ∈ header options file model) (hne : line ≠ .doc false s!"@namespace {file.domain}") :
    Legible line := by
  obtain ⟨-, hdocs | rfl | rfl | rfl⟩ := mem_header options h
  · exact legible_of_mem_docs hdocs
  · exact legible_doc (by decide)
  · exact absurd rfl hne
  · exact legible_doc (by decide)

theorem legible_of_mem_column {description name : String} {scalar : Scalar} {nullable : Bool}
    {attributes : List String} {line : SchemaLine}
    (h : line ∈ column options description name scalar nullable attributes)
    (hremark : line.isRemark) : Legible line := by
  rcases List.mem_append.mp h with hdocs | hcolumn
  · unfold docs at hdocs
    split at hdocs
    · exact legible_of_mem_docs hdocs
    · simp at hdocs
  · rw [List.mem_singleton.mp hcolumn] at hremark
    cases hremark

theorem legible_of_mem_columns {model : Model} {line : SchemaLine}
    (h : line ∈ [SchemaLine.blank].intercalate (columns options model))
    (hremark : line.isRemark) : Legible line := by
  rcases mem_intercalate h with hblank | ⟨part, hpart, hline⟩
  · rw [List.mem_singleton.mp hblank]
    exact legible_blank
  · simp only [columns, List.cons_append, List.mem_cons, List.mem_append,
      List.mem_map] at hpart
    rcases hpart with rfl | ⟨_, -, rfl⟩ | ⟨_, -, rfl⟩ <;>
      exact legible_of_mem_column options hline hremark

theorem mem_of_mem_behindBlank {lines : List SchemaLine} {line : SchemaLine}
    (h : line ∈ behindBlank lines) : line = .blank ∨ line ∈ lines := by
  unfold behindBlank at h
  split at h
  · simp at h
  · exact List.mem_cons.mp h

theorem legible_of_mem_relationSection {app : Application} {model : Model} {line : SchemaLine}
    (h : line ∈ relationSection app model) (hremark : line.isRemark) :
    Legible line := by
  unfold relationSection at h
  split at h
  · simp at h
  · rcases List.mem_append.mp h with hheading | hrelation
    · exact legible_of_mem_heading (by decide) hheading
    · obtain ⟨relation, -, rfl⟩ := List.mem_map.mp hrelation
      cases hremark

/-- Below its header the remarks of a block are legible, and so are all of its lines where its
declarations are. -/
theorem legible_of_mem_lines {app : Application} {file : SchemaFile} {model : Model}
    (hdeclarations : ∀ line ∈ declarations options app model, Legible line)
    {line : SchemaLine} (h : line ∈ lines options app file model) :
    line ∈ header options file model ∨ Legible line := by
  by_cases hremark : line.isRemark
  · simp only [lines, List.mem_append, List.mem_singleton] at h
    rcases h with (((((hheader | rfl) | htitle) | hcolumns) | hrelations) | hindexes) | rfl
    · exact Or.inl hheader
    · cases hremark
    · exact Or.inr (legible_of_mem_heading (by decide) htitle)
    · exact Or.inr (legible_of_mem_columns options hcolumns hremark)
    · rcases mem_of_mem_behindBlank hrelations with rfl | hline
      · exact Or.inr legible_blank
      · exact Or.inr (legible_of_mem_relationSection hline hremark)
    · rcases mem_of_mem_behindBlank hindexes with rfl | hline
      · exact Or.inr legible_blank
      · rcases mem_indexes hline with ⟨_, -, rfl⟩ | ⟨_, -, rfl⟩ | ⟨_, -, rfl⟩ <;> cases hremark
    · cases hremark
  · refine Or.inr (hdeclarations line ?_)
    rw [← declaringLines_lines options app file model, declaringLines,
      List.mem_filter]
    exact ⟨h, by simpa using hremark⟩

/-! ### Declarations of an accepted application -/

/-- No model of an accepted application has the name of a scalar type. -/
theorem schemaName_ne_of_isIdentifier {name : String} (h : Text.isIdentifier name) (t : Scalar) :
    t.schemaName ≠ name := by
  rintro rfl
  cases t <;> exact absurd h (by decide)

theorem mem_models_of_mem_foreigns {app : Application} {f : Foreign} (h : f ∈ app.foreigns) :
    f.model ∈ app.models ∧ f.field ∈ f.model.foreign := by
  obtain ⟨hdecl, hfield⟩ := Application.mem_foreigns.mp h
  rw [← Application.map_snd_declarations]
  exact ⟨List.mem_map_of_mem hdecl, hfield⟩

section

variable {components : List Component} {app : Application}
  (h : Conforms ⟨components, []⟩ app)

include h

theorem isWord_column {model : Model} (hmodel : model ∈ app.models) {name : String}
    (hname : name ∈ model.columnNames) : IsWord name :=
  isWord_of_isIdentifier ((h.properties model hmodel).identifiers name hname)

/-- The model that a relation points at, which is the one found under its name. -/
theorem exists_target {f : Foreign} (hf : f ∈ app.foreigns) :
    ∃ target ∈ app.models, target.name = f.target ∧ app.model? f.target = some target := by
  have htargets := h.targets f hf
  rw [Scope.targets, List.flatMap_nil, List.append_nil, Application.modelNames] at htargets
  obtain ⟨target, htarget, hname⟩ := List.mem_map.mp htargets
  refine ⟨target, htarget, hname, ?_⟩
  rw [← hname]
  exact Application.model?_of_nodup h.models.nodup htarget

theorem isIdentifier_name {model : Model} (hmodel : model ∈ app.models) :
    Text.isIdentifier model.name :=
  h.models.identifiers _ (List.mem_map_of_mem hmodel)

theorem wellNamed_relation {f : Foreign} (hf : f ∈ app.foreigns) : f.field.relation.WellNamed := by
  obtain ⟨hdecl, hfield⟩ := Application.mem_foreigns.mp hf
  exact (Application.forall_models_iff.mp h.properties _ hdecl).relations _ hfield

theorem isWord_label {f : Foreign} (hf : f ∈ app.foreigns) :
    ∀ label ∈ f.field.relation.mapping, IsWord label :=
  fun label hlabel => isWord_of_isRelationName ((wellNamed_relation h hf).mapping label hlabel)

theorem spelled_forwardRelation (p : Provider) {f : Foreign} (hf : f ∈ app.foreigns) :
    Spelled p (.relation (forwardRelation app f.field)) := by
  obtain ⟨target, htarget, hname, hfound⟩ := exists_target h hf
  obtain ⟨hmodel, hfield⟩ := mem_models_of_mem_foreigns hf
  have hidentifier : Text.isIdentifier f.target := hname ▸ isIdentifier_name h htarget
  have hreferences : IsWord ((app.model? f.target).elim defaultPrimaryKey (·.primary.name)) := by
    rw [hfound]
    exact isWord_column h htarget (by simp [Model.columnNames])
  refine .forward _ (isWord_of_isRelationName (wellNamed_relation h hf).name)
    (isWord_of_isIdentifier hidentifier) (isWord_column h hmodel ?_) hreferences (isWord_label h hf)
    (schemaName_ne_of_isIdentifier hidentifier)
  simp only [Model.columnNames, List.mem_append, List.mem_cons, List.mem_map]
  exact Or.inl (Or.inr ⟨f.field, hfield, rfl⟩)

theorem spelled_backRelation (p : Provider) {f : Foreign} (hf : f ∈ app.foreigns) :
    Spelled p (.relation (backRelation f)) := by
  obtain ⟨hmodel, -⟩ := mem_models_of_mem_foreigns hf
  have hsource := isIdentifier_name h hmodel
  have hopposite : ∀ name ∈ f.field.relation.opposite, IsWord name := fun name hname =>
    isWord_of_isRelationName ((wellNamed_relation h hf).opposite name hname)
  exact .back _
    (isWord_oppositeProperty (isWord_of_isIdentifier hsource) (isWord_label h hf) hopposite)
    (isWord_of_isIdentifier hsource) (isWord_label h hf) (schemaName_ne_of_isIdentifier hsource)

theorem spelled_of_mem_columnLines {model : Model} (hmodel : model ∈ app.models)
    {line : SchemaLine} (hline : line ∈ columnLines options model) :
    Spelled options.provider line := by
  have hword : ∀ name ∈ model.columnNames, IsWord name := fun _ => isWord_column h hmodel
  simp only [Model.columnNames, List.cons_append, List.forall_mem_cons, List.forall_mem_append,
    List.forall_mem_map] at hword
  obtain ⟨hprimary, hforeign, hplain⟩ := hword
  simp only [columnLines, List.cons_append, List.mem_cons, List.mem_append,
    List.mem_map] at hline
  rcases hline with rfl | ⟨f, hf, rfl⟩ | ⟨f, hf, rfl⟩
  · exact .column hprimary _ _ (by simp [columnKeys])
  · exact .column (hforeign f hf) _ _ (by cases f.unique <;> simp [columnKeys])
  · exact .column (hplain f hf) _ _ (by simp [columnKeys])

theorem spelled_of_mem_indexes {model : Model} (hmodel : model ∈ app.models)
    {line : SchemaLine} (hline : line ∈ indexes options model) :
    Spelled options.provider line := by
  have hindexes := h.indexes model hmodel
  have hcovers : ∀ columns ∈ model.uniqueIndexes ++ model.plainIndexes,
      columns ≠ [] ∧ ∀ name ∈ columns, IsWord name := by
    intro columns hcolumns
    have hcover := hindexes.covers columns hcolumns
    exact ⟨hcover.ne_nil, fun name hname => isWord_column h hmodel (hcover.exist name hname)⟩
  rcases mem_indexes hline with
    ⟨columns, hcolumns, rfl⟩ | ⟨columns, hcolumns, rfl⟩ | ⟨name, hname, rfl⟩
  · obtain ⟨hne, hwords⟩ := hcovers columns (List.mem_append_left _ hcolumns)
    exact .uniqueIndex hne hwords
  · obtain ⟨hne, hwords⟩ := hcovers columns (List.mem_append_right _ hcolumns)
    exact .plainIndex hne hwords
  · obtain ⟨field, hfield, rfl, -⟩ := hindexes.texts name hname
    refine .textIndex (isWord_column h hmodel ?_)
    exact List.mem_append_right _ (List.mem_map_of_mem hfield)

theorem spelled_of_mem_declarations {file : SchemaFile} {model : Model}
    (hdecl : (file, model) ∈ app.declarations) {line : SchemaLine}
    (hline : line ∈ declarations options app model) : Spelled options.provider line := by
  have hmodel : model ∈ app.models := by
    rw [← Application.map_snd_declarations]
    exact List.mem_map_of_mem hdecl
  simp only [declarations, relations, List.mem_cons,
    List.mem_append, List.mem_map, List.not_mem_nil, or_false] at hline
  rcases hline with rfl | ((hcolumn | ⟨_, ⟨field, hfield, rfl⟩ | ⟨f, hf, rfl⟩, rfl⟩) | hindex) | rfl
  · exact .opening (isWord_of_isIdentifier (isIdentifier_name h hmodel))
  · exact spelled_of_mem_columnLines options h hmodel hcolumn
  · have hf : ⟨file, model, field⟩ ∈ app.foreigns := Application.mem_foreigns.mpr ⟨hdecl, hfield⟩
    exact spelled_forwardRelation h _ hf
  · exact spelled_backRelation h _ (Application.mem_foreignsTo.mp hf).1
  · exact spelled_of_mem_indexes options h hmodel hindex
  · exact .closing

theorem spelled_of_mem_lines {file : SchemaFile} (hfile : file ∈ app.files) {line : SchemaLine}
    (hline : line ∈ file.lines options app) (hremark : line.isRemark = false) :
    Spelled options.provider line := by
  have hdeclaring : line ∈ declaringLines (file.lines options app) :=
    List.mem_filter.mpr ⟨hline, by simp [hremark]⟩
  rw [file.declaringLines_lines] at hdeclaring
  obtain ⟨model, hmodel, hdeclared⟩ := List.mem_flatMap.mp hdeclaring
  exact spelled_of_mem_declarations options h
    (Application.mem_declarations.mpr ⟨hfile, hmodel⟩) hdeclared

/-- Every line of an accepted application is legible, but for labels that are printed. -/
theorem legible_or_label_of_conforms {file : SchemaFile} (hfile : file ∈ app.files)
    {line : SchemaLine} (hline : line ∈ file.lines options app) :
    Legible line ∨ options.comments ∧ line = .doc false s!"@namespace {file.domain}" := by
  rcases mem_intercalate hline with hblank | ⟨_, hblock, hline⟩
  · rw [List.mem_singleton.mp hblank]
    exact Or.inl legible_blank
  · obtain ⟨model, hmodel, rfl⟩ := List.mem_map.mp hblock
    have hdecl := Application.mem_declarations.mpr ⟨hfile, hmodel⟩
    rcases legible_of_mem_lines options
      (fun line hline => (spelled_of_mem_declarations options h hdecl hline).legible) hline with
      hheader | hlegible
    · by_cases hlabel : line = .doc false s!"@namespace {file.domain}"
      · exact Or.inr ⟨(mem_header options hheader).1, hlabel⟩
      · exact Or.inl (legible_of_mem_header options hheader hlabel)
    · exact Or.inl hlegible

/-- Every line is legible as long as labels that are printed hold no line feed. -/
theorem legible_of_conforms {file : SchemaFile} (hfile : file ∈ app.files)
    (hlabel : options.comments → '\n' ∉ file.domain.toList) :
    ∀ line ∈ file.lines options app, Legible line := by
  intro line hline
  rcases legible_or_label_of_conforms options h hfile hline with hlegible | ⟨hcomments, rfl⟩
  · exact hlegible
  · refine legible_doc ?_
    rw [show s!"@namespace {file.domain}" = "@namespace " ++ file.domain from rfl]
    simp [hlabel hcomments]

end

end Reading

end SchemaGate
