import Mathlib.Data.List.Basic
import SchemaGate.Render.Block

/-!
# What a block declares

Comments, titles and blank lines declare nothing. Without them a rendered block is the line that
opens it, a line for each column, relation and index, and the line that closes it
(`declaringLines_lines`), whatever the options, so that whatever is read line by line is read off
these (`filterMap_lines`).
-/

namespace SchemaGate

/-! ### Lines of a kind -/

section

variable {α : Type} {p : α → Bool} {l : List α}

theorem filter_not_eq_nil (h : ∀ a ∈ l, p a) : (l.filter fun a => !p a) = [] := by
  rw [List.filter_eq_nil_iff]
  intro a ha
  simp [h a ha]

theorem filter_not_eq_self (h : ∀ a ∈ l, p a = false) : (l.filter fun a => !p a) = l := by
  rw [List.filter_eq_self]
  intro a ha
  simp [h a ha]

end

/-- A line that explains or sets apart, and declares nothing. -/
def SchemaLine.isRemark : SchemaLine → Bool
  | doc .. | rule | title .. | blank => true
  | _ => false

/-- The lines that declare something. -/
def declaringLines (lines : List SchemaLine) : List SchemaLine :=
  lines.filter fun line => !line.isRemark

theorem declaringLines_append (ls ks : List SchemaLine) :
    declaringLines (ls ++ ks) = declaringLines ls ++ declaringLines ks :=
  List.filter_append ls ks

theorem declaringLines_eq_nil {ls : List SchemaLine} (h : ∀ line ∈ ls, line.isRemark) :
    declaringLines ls = [] :=
  filter_not_eq_nil h

theorem declaringLines_eq_self {ls : List SchemaLine} (h : ∀ line ∈ ls, line.isRemark = false) :
    declaringLines ls = ls :=
  filter_not_eq_self h

theorem declaringLines_intercalate (parts : List (List SchemaLine)) :
    declaringLines ([SchemaLine.blank].intercalate parts) = parts.flatMap declaringLines := by
  induction parts with
  | nil => rfl
  | cons part parts ih =>
    cases parts with
    | nil => rw [List.intercalate_singleton, List.flatMap_singleton]
    | cons next parts =>
      have hblank : declaringLines [SchemaLine.blank] = [] := rfl
      rw [List.intercalate_cons_cons, declaringLines_append, declaringLines_append, ih, hblank,
        List.append_nil]
      rfl

/-- What remarks do not show is read off the declarations. -/
theorem filterMap_declaringLines {β : Type} {read : SchemaLine → Option β}
    (h : ∀ line, line.isRemark → read line = none) (ls : List SchemaLine) :
    (declaringLines ls).filterMap read = ls.filterMap read := by
  rw [declaringLines, List.filterMap_filter]
  refine List.filterMap_congr fun line _ => ?_
  cases hline : line.isRemark with
  | true => simp [h line hline]
  | false => simp

namespace Block

variable (options : RenderOptions)

/-- The lines of the columns, without documentation. -/
def columnLines (model : Model) : List SchemaLine :=
  let line name scalar nullable attributes :=
    SchemaLine.column name (.forProvider options.provider scalar nullable attributes)
  line model.primary.name .uuid false ["@id"] ::
    model.foreign.map (fun f =>
      line f.name .uuid f.nullable (if f.unique then ["@unique"] else [])) ++
    model.plain.map fun f => line f.name f.scalar f.nullable []

theorem eq_column_of_mem_columnLines {model : Model} {line : SchemaLine}
    (h : line ∈ columnLines options model) : ∃ name type, line = .column name type := by
  simp only [columnLines, List.cons_append, List.mem_cons, List.mem_append, List.mem_map] at h
  rcases h with rfl | ⟨_, -, rfl⟩ | ⟨_, -, rfl⟩ <;> exact ⟨_, _, rfl⟩

theorem declaringLines_docs (indented : Bool) (description : String) :
    declaringLines (SchemaLine.docs indented description) = [] := by
  apply declaringLines_eq_nil
  intro line hline
  obtain ⟨words, -, rfl⟩ := List.mem_map.mp hline
  rfl

theorem declaringLines_header (file : SchemaFile) (model : Model) :
    declaringLines (header options file model) = [] := by
  have hdocs := declaringLines_docs false model.description
  have hnamespace : declaringLines [.doc false s!"@namespace {file.domain}"] = [] := rfl
  unfold header
  split
  · rw [declaringLines_append, declaringLines_append, hnamespace, List.append_nil]
    split
    · split <;> rfl
    · rw [declaringLines_append, hdocs]
      split <;> rfl
  · rfl

theorem declaringLines_column (description name : String) (scalar : Scalar) (nullable : Bool)
    (attributes : List String) :
    declaringLines (column options description name scalar nullable attributes) =
      [.column name (.forProvider options.provider scalar nullable attributes)] := by
  have hdocs := declaringLines_docs true description
  unfold column docs
  split
  · rw [declaringLines_append, hdocs]
    rfl
  · rfl

theorem declaringLines_columns (model : Model) :
    declaringLines ([SchemaLine.blank].intercalate (columns options model)) =
      columnLines options model := by
  rw [declaringLines_intercalate]
  simp only [columns, columnLines, List.cons_append, List.flatMap_cons, List.flatMap_append,
    List.flatMap_map, declaringLines_column, ← List.map_eq_flatMap, List.nil_append]

theorem declaringLines_behindBlank (part : List SchemaLine) :
    declaringLines (behindBlank part) = declaringLines part := by
  cases part <;> rfl

theorem declaringLines_relationSection (app : Application) (model : Model) :
    declaringLines (relationSection app model) = (relations app model).map .relation := by
  have hlines : ∀ ls : List RelationLine,
      declaringLines (ls.map .relation) = ls.map .relation := by
    intro ls
    apply declaringLines_eq_self
    intro line hline
    obtain ⟨_, -, rfl⟩ := List.mem_map.mp hline
    rfl
  unfold relationSection
  cases relations app model with
  | nil => rfl
  | cons line lines =>
    rw [declaringLines_append, hlines]
    rfl

theorem mem_indexes {options : RenderOptions} {model : Model} {line : SchemaLine}
    (h : line ∈ indexes options model) :
    (∃ columns ∈ model.uniqueIndexes, .uniqueIndex columns = line) ∨
      (∃ columns ∈ model.plainIndexes, .plainIndex columns = line) ∨
      ∃ name ∈ model.textIndexes, .textIndex options.provider.hasTrigramIndexes name = line := by
  simpa only [indexes, List.mem_append, List.mem_map, or_assoc] using h

theorem declaringLines_indexes (model : Model) :
    declaringLines (indexes options model) = indexes options model := by
  apply declaringLines_eq_self
  intro line hline
  rcases mem_indexes hline with ⟨_, -, rfl⟩ | ⟨_, -, rfl⟩ | ⟨_, -, rfl⟩ <;> rfl

/-- The declarations of a block, in the order of its lines. -/
def declarations (app : Application) (model : Model) : List SchemaLine :=
  .opening model.name :: (columnLines options model ++ (relations app model).map .relation ++
    indexes options model ++ [.closing])

theorem filterMap_declarations {β : Type} {read : SchemaLine → Option β}
    (hopening : ∀ name, read (.opening name) = none) (hclosing : read .closing = none)
    (app : Application) (model : Model) :
    (declarations options app model).filterMap read =
      (columnLines options model).filterMap read ++
        (relations app model).filterMap (fun relation => read (.relation relation)) ++
          (indexes options model).filterMap read := by
  have hend : [SchemaLine.closing].filterMap read = [] := List.filterMap_cons_none hclosing
  rw [declarations, List.filterMap_cons_none (hopening _), List.filterMap_append,
    List.filterMap_append, List.filterMap_append, List.filterMap_map, hend, List.append_nil]
  rfl

theorem declaringLines_lines (app : Application) (file : SchemaFile) (model : Model) :
    declaringLines (lines options app file model) = declarations options app model := by
  have hopening : declaringLines [.opening model.name] = [.opening model.name] := rfl
  have htitle : declaringLines (SchemaLine.heading "COLUMNS") = [] := rfl
  have hclosing : declaringLines [.closing] = [.closing] := rfl
  rw [lines, declaringLines_append, declaringLines_append, declaringLines_append,
    declaringLines_append, declaringLines_append, declaringLines_append, declaringLines_header,
    hopening, htitle, declaringLines_columns, declaringLines_behindBlank,
    declaringLines_relationSection, declaringLines_behindBlank, declaringLines_indexes, hclosing]
  simp only [declarations, List.nil_append, List.append_nil, List.cons_append]

/-- What is read line by line and shows on no remark is read off the declarations. -/
theorem filterMap_lines {β : Type} {read : SchemaLine → Option β}
    (h : ∀ line, line.isRemark → read line = none) (app : Application) (file : SchemaFile)
    (model : Model) :
    (lines options app file model).filterMap read =
      (declarations options app model).filterMap read := by
  rw [← filterMap_declaringLines h, declaringLines_lines]

end Block

/-- A file declares what its blocks declare. -/
theorem SchemaFile.declaringLines_lines (options : RenderOptions) (app : Application)
    (file : SchemaFile) :
    declaringLines (file.lines options app) =
      file.models.flatMap (Block.declarations options app) := by
  rw [SchemaFile.lines, declaringLines_intercalate, List.flatMap_map]
  refine List.flatMap_congr fun model _ => ?_
  exact Block.declaringLines_lines options app file model

end SchemaGate
