import SchemaGate.Proofs.Render.LegibleFiles

/-!
# Lines of indexes

An accepted model has no two unique or plain indexes over the same columns, and no two full-text
indexes over one column. So its block declares no index twice where full-text indexes are written as
trigram indexes. Elsewhere they are written as plain ones, and as no check compares a full-text
index with a plain one, a line stands twice where both cover one column alone, and only there
(`nodup_indexTexts_iff`).
-/

namespace SchemaGate

namespace SchemaLine

/-- The text of a line that declares an index. -/
def indexText? (line : SchemaLine) : Option String :=
  match line with
  | uniqueIndex _ | plainIndex _ | textIndex .. => some line.text
  | _ => none

/-- The index that a line shows: a full-text index that is written as a plain one shows as that. -/
def shown : SchemaLine → SchemaLine
  | textIndex false name => plainIndex [name]
  | line => line

theorem text_shown (line : SchemaLine) : line.shown.text = line.text := by
  unfold shown
  split <;> rfl

end SchemaLine

namespace Block

variable (options : RenderOptions) (app : Application) (file : SchemaFile) (model : Model)

/-- The lines of a rendered model that declare an index. -/
def indexTexts : List String :=
  (lines options app file model).filterMap SchemaLine.indexText?

theorem indexTexts_eq :
    indexTexts options app file model = (indexes options model).map (·.text) := by
  have hremark : ∀ line : SchemaLine, line.isRemark → line.indexText? = none := by
    intro line h
    cases line <;> first | rfl | cases h
  have hcolumns : (columnLines options model).filterMap SchemaLine.indexText? = [] := by
    rw [List.filterMap_eq_nil_iff]
    intro line hline
    obtain ⟨name, type, rfl⟩ := eq_column_of_mem_columnLines options hline
    rfl
  have hrelations : (relations app model).filterMap
      (fun relation => SchemaLine.indexText? (.relation relation)) = [] := by
    rw [List.filterMap_eq_nil_iff]
    intro relation _
    rfl
  have hindexes : (indexes options model).filterMap SchemaLine.indexText? =
      (indexes options model).map (·.text) := by
    rw [← List.filterMap_eq_map]
    refine List.filterMap_congr fun line hline => ?_
    rcases mem_indexes hline with ⟨_, -, rfl⟩ | ⟨_, -, rfl⟩ | ⟨_, -, rfl⟩ <;> rfl
  rw [indexTexts, filterMap_lines options hremark,
    filterMap_declarations options (fun _ => rfl) rfl, hcolumns, hrelations, hindexes]
  rfl

theorem map_shown_indexes : (indexes options model).map SchemaLine.shown =
    model.uniqueIndexes.map .uniqueIndex ++ model.plainIndexes.map .plainIndex ++
      model.textIndexes.map fun name =>
        (SchemaLine.textIndex options.provider.hasTrigramIndexes name).shown := by
  rw [indexes, List.map_append, List.map_append, List.map_map, List.map_map, List.map_map]
  rfl

/-- On a model with sound indexes two lines show the same index only where a full-text index is
written as a plain one of its column. -/
theorem nodup_map_shown_iff {model : Model} (h : IndexesSound model) :
    ((indexes options model).map SchemaLine.shown).Nodup ↔
      options.provider.hasTrigramIndexes ∨
        ∀ name ∈ model.textIndexes, [name] ∉ model.plainIndexes := by
  obtain ⟨hunique, hplain, -⟩ := List.nodup_append'.mp h.nodup
  have hcolumns : (model.uniqueIndexes.map SchemaLine.uniqueIndex ++
      model.plainIndexes.map SchemaLine.plainIndex).Nodup := by
    refine List.nodup_append'.mpr ⟨?_, ?_, ?_⟩
    · exact hunique.map fun _ _ hsame => SchemaLine.uniqueIndex.inj hsame
    · exact hplain.map fun _ _ hsame => SchemaLine.plainIndex.inj hsame
    · intro line hline hline'
      obtain ⟨_, -, rfl⟩ := List.mem_map.mp hline
      obtain ⟨_, -, hsame⟩ := List.mem_map.mp hline'
      cases hsame
  have htexts : (model.textIndexes.map fun name =>
      (SchemaLine.textIndex options.provider.hasTrigramIndexes name).shown).Nodup := by
    refine h.texts_nodup.map fun name name' hsame => ?_
    cases htrigram : options.provider.hasTrigramIndexes with
    | true =>
      rw [htrigram] at hsame
      exact (SchemaLine.textIndex.inj hsame).2
    | false =>
      rw [htrigram] at hsame
      exact List.singleton_inj.mp (SchemaLine.plainIndex.inj hsame)
  rw [map_shown_indexes, List.nodup_append', List.disjoint_right, List.forall_mem_map]
  simp only [hcolumns, htexts, true_and]
  cases htrigram : options.provider.hasTrigramIndexes with
  | true => simp [SchemaLine.shown]
  | false => simp [SchemaLine.shown]

end Block

namespace Reading

/-- Lines that declare something in words are told apart by their texts. -/
theorem eq_of_text_eq {line line' : SchemaLine} (h : Spelled .postgresql line)
    (h' : Spelled .postgresql line') (htext : line.text = line'.text) : line = line' := by
  have hread := declarationOf?_text h
  rw [htext, declarationOf?_text h'] at hread
  exact (Option.some.inj hread).symm

variable {options : RenderOptions} {components : List Component} {app : Application}
  {model : Model}

/-- What an index of an accepted model shows is spelled alike for both providers. -/
theorem spelled_shown (h : Conforms ⟨components, []⟩ app) (hmodel : model ∈ app.models)
    {line : SchemaLine} (hline : line ∈ Block.indexes options model) :
    Spelled .postgresql line.shown := by
  have hspelled := spelled_of_mem_indexes options h hmodel hline
  rcases Block.mem_indexes hline with ⟨columns, -, rfl⟩ | ⟨columns, -, rfl⟩ | ⟨name, -, rfl⟩
  · cases hspelled with
    | uniqueIndex hne hwords => exact .uniqueIndex hne hwords
  · cases hspelled with
    | plainIndex hne hwords => exact .plainIndex hne hwords
  · have hname : IsWord name := by
      cases hspelled with
      | textIndex hname => exact hname
    cases options.provider with
    | postgresql => exact .textIndex hname
    | sqlite => exact .plainIndex (by simp) (by simpa using hname)

/-- Lines differ in their texts where they differ in what they show. -/
theorem nodup_indexTexts_iff_shown (h : Conforms ⟨components, []⟩ app) (hmodel : model ∈ app.models)
    (file : SchemaFile) :
    (Block.indexTexts options app file model).Nodup ↔
      ((Block.indexes options model).map SchemaLine.shown).Nodup := by
  have htexts : Block.indexTexts options app file model =
      ((Block.indexes options model).map SchemaLine.shown).map (·.text) := by
    rw [Block.indexTexts_eq, List.map_map]
    exact List.map_congr_left fun line _ => line.text_shown.symm
  rw [htexts]
  constructor
  · exact List.Nodup.of_map _
  · intro hnodup
    refine hnodup.map_on ?_
    intro line hline line' hline' hsame
    obtain ⟨_, hindex, rfl⟩ := List.mem_map.mp hline
    obtain ⟨_, hindex', rfl⟩ := List.mem_map.mp hline'
    exact eq_of_text_eq (spelled_shown h hmodel hindex) (spelled_shown h hmodel hindex') hsame

end Reading

/-- The lines of the indexes in each block of an accepted application are distinct where full-text
indexes are written as trigram indexes. Where they are written as plain ones the lines are distinct
exactly when no column has a full-text index and a plain index of its own. -/
theorem nodup_indexTexts_iff (options : RenderOptions) {components : List Component}
    {app : Application} (haccepted : (Scope.validate ⟨components, []⟩ app).isOk)
    (file : SchemaFile) (model : Model) (hmodel : (file, model) ∈ app.declarations) :
    (Block.indexTexts options app file model).Nodup ↔
      options.provider.hasTrigramIndexes ∨
        ∀ name ∈ model.textIndexes, [name] ∉ model.plainIndexes := by
  have h := Scope.validate_isOk_iff_conforms.mp haccepted
  have hmem : model ∈ app.models := by
    rw [← Application.map_snd_declarations]
    exact List.mem_map_of_mem hmodel
  rw [Reading.nodup_indexTexts_iff_shown h hmem]
  exact Block.nodup_map_shown_iff options (h.indexes model hmem)

/-- A model with a plain and a full-text index of one column. -/
def titled : Model :=
  { Model.minimal "article" with
    plain := [{ name := "title", scalar := .string }]
    plainIndexes := [["title"]]
    textIndexes := ["title"] }

def titledFile : SchemaFile :=
  { filename := "schema-01-articles.prisma", domain := "Articles", models := [titled] }

def titledComponent : Component :=
  { filename := "schema-01-articles.prisma", domain := "Articles", tables := ["article"] }

theorem nodup_indexTexts_iff_titled :
    (Scope.validate ⟨[titledComponent], []⟩ ⟨[titledFile]⟩).isOk ∧
      (Block.indexTexts {} ⟨[titledFile]⟩ titledFile titled).Nodup ∧
      ¬ (Block.indexTexts { provider := .sqlite } ⟨[titledFile]⟩ titledFile titled).Nodup := by
  have haccepted : (Scope.validate ⟨[titledComponent], []⟩ ⟨[titledFile]⟩).isOk := by
    decide +kernel
  have hiff := fun options => nodup_indexTexts_iff options haccepted titledFile titled (by decide)
  refine ⟨haccepted, (hiff {}).mpr (Or.inl rfl), fun hnodup => ?_⟩
  have hapart := (hiff { provider := .sqlite }).mp hnodup
  exact absurd hapart (by decide)

/-- Without trigram indexes the two indexes of the title are one line, which stands twice. -/
theorem indexTexts_twice :
    (Scope.validate ⟨[titledComponent], []⟩ ⟨[titledFile]⟩).isOk ∧
      Block.indexTexts { provider := .sqlite } ⟨[titledFile]⟩ titledFile titled =
        ["  @@index([title])", "  @@index([title])"] ∧
      ¬ (Block.indexTexts { provider := .sqlite } ⟨[titledFile]⟩ titledFile titled).Nodup := by
  decide +kernel

end SchemaGate
