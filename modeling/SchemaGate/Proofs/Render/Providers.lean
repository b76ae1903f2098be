import SchemaGate.Proofs.Render.LegibleFiles

/-!
# One schema for both providers

The texts for the two providers are the same line by line, but for the native type that ends the
line of a column and for full-text indexes, which without trigram indexes are plain ones
(`lines_of_providers`). Every line of a text is given with what it is written for, so that words of
a description or of a label are told from the columns that they may look like.
-/

namespace SchemaGate

namespace SchemaLine

/-- The line where there are neither native types nor trigram indexes. -/
def portable : SchemaLine → SchemaLine
  | column name type => column name { type with native := none }
  | textIndex _ name => textIndex false name
  | line => line

/-- A line that is written alike for both providers: no full-text index, and no column with a native
type. -/
def isPortable : SchemaLine → Bool
  | column _ type => type.scalar.nativeAttribute?.isNone
  | textIndex .. => false
  | _ => true

/-- The lines that are written for one, which are several where a label holds line feeds. -/
def textLines (line : SchemaLine) : List (SchemaLine × List Char) :=
  (Text.split '\n' line.text.toList).map (line, ·)

end SchemaLine

/-- The lines of a file's text, each with what it is written for. -/
def SchemaFile.textLines (options : RenderOptions) (app : Application) (file : SchemaFile) :
    List (SchemaLine × List Char) :=
  (file.lines options app).flatMap SchemaLine.textLines

/-- What a line with native types and trigram indexes is without them. -/
inductive Counterpart : SchemaLine × List Char → SchemaLine × List Char → Prop
  /-- A column ends without its native type. -/
  | column {name : String} {type : ColumnType} {ending : String}
      (h : type.scalar.nativeAttribute? = some ending) (words : List Char) :
      Counterpart
        (.column name { type with native := some ending }, words ++ (" " ++ ending).toList)
        (.column name { type with native := none }, words)
  /-- A full-text index is a plain one. -/
  | textIndex (name : String) :
      Counterpart
        (.textIndex true name,
          ("  @@index([" ++ name ++ "(ops: raw(\"gin_trgm_ops\"))], type: Gin)").toList)
        (.textIndex false name, ("  @@index([" ++ name ++ "])").toList)
  /-- Any other line is the same. -/
  | alike {line : SchemaLine} (h : line.isPortable) (words : List Char) :
      Counterpart (line, words) (line, words)

/-! ### Blocks line by line -/

theorem SchemaLine.portable_eq_self_of_isRemark {line : SchemaLine} (h : line.isRemark) :
    line.portable = line := by
  cases line <;> first | rfl | cases h

theorem map_portable_eq_self {ls : List SchemaLine} (h : ∀ line ∈ ls, line.portable = line) :
    ls.map SchemaLine.portable = ls := by
  rw [List.map_congr_left h, List.map_id']

theorem map_portable_intercalate (parts : List (List SchemaLine)) :
    ([SchemaLine.blank].intercalate parts).map SchemaLine.portable =
      [SchemaLine.blank].intercalate (parts.map (·.map SchemaLine.portable)) := by
  simp only [List.map_eq_flatMap (f := SchemaLine.portable), flatMap_intercalate]
  rfl

namespace Block

variable (comments : Bool) (app : Application) (file : SchemaFile) (model : Model)

theorem map_portable_docs (indented : Bool) (description : String) :
    (SchemaLine.docs indented description).map SchemaLine.portable =
      SchemaLine.docs indented description := by
  rw [SchemaLine.docs, List.map_map]
  rfl

theorem map_portable_header :
    (header ⟨.postgresql, comments⟩ file model).map SchemaLine.portable =
      header ⟨.sqlite, comments⟩ file model := by
  refine map_portable_eq_self fun line hline => ?_
  obtain ⟨-, hdocs | rfl | rfl | rfl⟩ := Reading.mem_header _ hline
  · obtain ⟨_, -, rfl⟩ := List.mem_map.mp hdocs
    rfl
  all_goals rfl

theorem map_portable_column (description name : String) (scalar : Scalar) (nullable : Bool)
    (attributes : List String) :
    (column ⟨.postgresql, comments⟩ description name scalar nullable attributes).map
        SchemaLine.portable =
      column ⟨.sqlite, comments⟩ description name scalar nullable attributes := by
  have hdocs : (docs ⟨.postgresql, comments⟩ true description).map SchemaLine.portable =
      docs ⟨.sqlite, comments⟩ true description := by
    cases comments
    · rfl
    · exact map_portable_docs true description
  rw [column, List.map_append, hdocs]
  rfl

theorem map_portable_columns :
    (columns ⟨.postgresql, comments⟩ model).map (·.map SchemaLine.portable) =
      columns ⟨.sqlite, comments⟩ model := by
  simp only [columns, List.map_append, List.map_cons, List.map_map, Function.comp_def,
    map_portable_column]

theorem map_portable_behindBlank (ls : List SchemaLine) :
    (behindBlank ls).map SchemaLine.portable = behindBlank (ls.map SchemaLine.portable) := by
  cases ls <;> rfl

theorem map_portable_relationSection :
    (relationSection app model).map SchemaLine.portable = relationSection app model := by
  unfold relationSection
  split
  · rfl
  · rw [List.map_append, List.map_map]
    rfl

theorem map_portable_indexes :
    (indexes ⟨.postgresql, comments⟩ model).map SchemaLine.portable =
      indexes ⟨.sqlite, comments⟩ model := by
  simp only [indexes, List.map_append, List.map_map]
  rfl

theorem map_portable_lines :
    (lines ⟨.postgresql, comments⟩ app file model).map SchemaLine.portable =
      lines ⟨.sqlite, comments⟩ app file model := by
  simp only [lines, List.map_append, map_portable_header, map_portable_intercalate,
    map_portable_columns, map_portable_behindBlank, map_portable_relationSection,
    map_portable_indexes]
  rfl

end Block

theorem SchemaFile.map_portable_lines (comments : Bool) (app : Application) (file : SchemaFile) :
    (file.lines ⟨.postgresql, comments⟩ app).map SchemaLine.portable =
      file.lines ⟨.sqlite, comments⟩ app := by
  rw [SchemaFile.lines, map_portable_intercalate, List.map_map, SchemaFile.lines]
  simp only [Function.comp_def, Block.map_portable_lines]

/-! ### Texts line by line -/

theorem SchemaFile.split_render (options : RenderOptions) (app : Application) (file : SchemaFile) :
    Text.split '\n' (file.render options app).toList =
      (file.textLines options app).map (·.2) ++ [[]] := by
  rw [SchemaFile.render, Text.split_eq_splitOn, Reading.toList_join, splitOn_flatMap_concat,
    SchemaFile.textLines, List.map_flatMap]
  congr 1
  refine List.flatMap_congr fun line _ => ?_
  rw [SchemaLine.textLines, List.map_map, Text.split_eq_splitOn]
  exact (List.map_id _).symm

theorem ColumnType.text_native (type : ColumnType) (ending : String) :
    ({ type with native := some ending } : ColumnType).text =
      ({ type with native := none } : ColumnType).text ++ (" " ++ ending) := by
  simp only [ColumnType.text, Option.toList_some, Option.toList_none, List.append_nil]
  rw [String.intercalate_append_of_ne_nil (by simp) (by simp), String.intercalate_singleton,
    String.append_assoc]

theorem SchemaLine.text_native (name : String) (type : ColumnType) (ending : String) :
    (SchemaLine.column name { type with native := some ending }).text =
      (SchemaLine.column name { type with native := none }).text ++ (" " ++ ending) := by
  have htext : ∀ type : ColumnType,
      (SchemaLine.column name type).text = "  " ++ name ++ " " ++ type.text := fun _ => rfl
  simp only [htext, ColumnType.text_native, String.append_assoc]

namespace Reading

theorem textLines_of_legible {line : SchemaLine} (h : Legible line) :
    line.textLines = [(line, line.text.toList)] := by
  rw [SchemaLine.textLines, Text.split_of_not_mem h.feed, List.map_singleton]

theorem counterpart_of_isPortable {line : SchemaLine} (hself : line.portable = line)
    (h : line.isPortable) :
    List.Forall₂ Counterpart line.textLines line.portable.textLines := by
  rw [hself, List.forall₂_same]
  intro p hp
  obtain ⟨words, -, rfl⟩ := List.mem_map.mp hp
  exact .alike h words

theorem counterpart_column {name : String} (hname : IsWord name) (t : Scalar) (nullable : Bool)
    {keys : List String} (hkeys : keys ∈ columnKeys) :
    List.Forall₂ Counterpart
      (SchemaLine.column name (.forProvider .postgresql t nullable keys)).textLines
      (SchemaLine.column name (.forProvider .sqlite t nullable keys)).textLines := by
  have hwith := textLines_of_legible (legible_column hname .postgresql t nullable hkeys)
  have hwithout := textLines_of_legible (legible_column hname .sqlite t nullable hkeys)
  have hsqlite : ColumnType.forProvider .sqlite t nullable keys =
      { scalar := t, nullable, attributes := keys, native := none } := rfl
  have hpostgresql : ColumnType.forProvider .postgresql t nullable keys =
      { scalar := t, nullable, attributes := keys, native := t.nativeAttribute? } := rfl
  rw [hwith, hwithout, hsqlite, hpostgresql]
  cases hnative : t.nativeAttribute? with
  | none =>
    refine .cons (.alike ?_ _) .nil
    rw [SchemaLine.isPortable, hnative]
    rfl
  | some ending =>
    refine .cons ?_ .nil
    rw [SchemaLine.text_native name ⟨t, nullable, keys, none⟩ ending, String.toList_append]
    exact @Counterpart.column name ⟨t, nullable, keys, none⟩ ending hnative _

/-- What an accepted application declares has its counterpart line by line. -/
theorem counterpart_of_spelled {line : SchemaLine} (h : Spelled .postgresql line) :
    List.Forall₂ Counterpart line.textLines line.portable.textLines := by
  cases h with
  | column hname t nullable hkeys => exact counterpart_column hname t nullable hkeys
  | @textIndex name hname =>
    have hwith := textLines_of_legible (legible_textIndex true hname)
    have hwithout := textLines_of_legible (legible_textIndex false hname)
    change List.Forall₂ _ (SchemaLine.textIndex true name).textLines
      (SchemaLine.textIndex false name).textLines
    rw [hwith, hwithout]
    exact .cons (.textIndex name) .nil
  | _ => exact counterpart_of_isPortable rfl rfl

theorem counterpart_of_isRemark {line : SchemaLine} (h : line.isRemark) :
    List.Forall₂ Counterpart line.textLines line.portable.textLines := by
  refine counterpart_of_isPortable (SchemaLine.portable_eq_self_of_isRemark h) ?_
  cases line <;> first | rfl | cases h

end Reading

/-- For every file of an accepted application the texts for the two providers have the same lines,
but for the ends of columns and for full-text indexes. -/
theorem lines_of_providers {components : List Component} {app : Application}
    (haccepted : (Scope.validate ⟨components, []⟩ app).isOk) {file : SchemaFile}
    (hfile : file ∈ app.files) (comments : Bool) :
    (∀ provider, Text.split '\n' (file.render ⟨provider, comments⟩ app).toList =
      (file.textLines ⟨provider, comments⟩ app).map (·.2) ++ [[]]) ∧
    List.Forall₂ Counterpart (file.textLines ⟨.postgresql, comments⟩ app)
      (file.textLines ⟨.sqlite, comments⟩ app) ∧
    (Text.lines (file.render ⟨.postgresql, comments⟩ app).toList).length =
      (Text.lines (file.render ⟨.sqlite, comments⟩ app).toList).length := by
  have hconforms := Scope.validate_isOk_iff_conforms.mp haccepted
  have hlines : List.Forall₂ Counterpart (file.textLines ⟨.postgresql, comments⟩ app)
      (file.textLines ⟨.sqlite, comments⟩ app) := by
    rw [SchemaFile.textLines, SchemaFile.textLines, ← SchemaFile.map_portable_lines]
    refine forall₂_flatMap_map fun line hline => ?_
    by_cases hremark : line.isRemark
    · exact Reading.counterpart_of_isRemark hremark
    · refine Reading.counterpart_of_spelled ?_
      exact Reading.spelled_of_mem_lines ⟨.postgresql, comments⟩ hconforms hfile hline
        (by simpa using hremark)
  have hsplit := fun provider => file.split_render ⟨provider, comments⟩ app
  refine ⟨hsplit, hlines, ?_⟩
  rw [Text.length_lines_of_split (hsplit .postgresql), Text.length_lines_of_split (hsplit .sqlite),
    List.length_map, List.length_map, hlines.length_eq]

/-- A file with columns that have native types, under a label and a description that look like such
a column. -/
def lookalikeFile : SchemaFile :=
  { filename := "schema-01-users.prisma", domain := "Users\n  id String @db.Uuid"
    models := [{ Model.minimal "user" with
      description := "Keyed by\nid String @id @db.Uuid"
      plain := [{ name := "email", scalar := .string },
        { name := "page", scalar := .uri, nullable := true },
        { name := "created_at", scalar := .datetime }]
      textIndexes := ["email"] }] }

def lookalikeComponent : Component :=
  { filename := "schema-01-users.prisma", domain := "Users\n  id String @db.Uuid"
    tables := ["user"] }

theorem lines_of_providers_lookalike :
    (Scope.validate ⟨[lookalikeComponent], []⟩ ⟨[lookalikeFile]⟩).isOk ∧
      lookalikeFile ∈ (Application.mk [lookalikeFile]).files ∧
      List.Forall₂ Counterpart (lookalikeFile.textLines ⟨.postgresql, true⟩ ⟨[lookalikeFile]⟩)
        (lookalikeFile.textLines ⟨.sqlite, true⟩ ⟨[lookalikeFile]⟩) := by
  have haccepted : (Scope.validate ⟨[lookalikeComponent], []⟩ ⟨[lookalikeFile]⟩).isOk := by
    decide +kernel
  have hfile : lookalikeFile ∈ (Application.mk [lookalikeFile]).files := List.mem_singleton_self _
  exact ⟨haccepted, hfile, (lines_of_providers haccepted hfile true).2.1⟩

end SchemaGate
