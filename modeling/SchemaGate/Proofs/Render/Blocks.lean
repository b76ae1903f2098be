import Mathlib.Data.List.Nodup
import Mathlib.Data.List.Perm.Basic
import SchemaGate.Proofs.Paired
import SchemaGate.Proofs.Render.Legible
import SchemaGate.Render

/-!
# Files are read as the blocks of their models

A text whose lines are legible is read line by line (`blocks?_join`), and what it declares stands on
its declaring lines, so that a file is read as one block for each of its models (`blocks?_render`).
Files are collected by name, which changes their order and loses none where their names are
distinct.
-/

namespace SchemaGate

/-! ### Files collected by name -/

namespace TextFiles

theorem insert_perm {name : String} {files : TextFiles} (h : name ∉ files.map (·.1))
    (text : String) : (insert name text files).Perm ((name, text) :: files) := by
  induction files with
  | nil => exact .refl _
  | cons f files ih =>
    obtain ⟨n, t⟩ := f
    simp only [List.map_cons, List.mem_cons, not_or] at h
    rw [insert, if_neg h.1]
    split
    · exact .refl _
    · exact ((ih h.2).cons _).trans (.swap _ _ _)

theorem ofList_perm {files : List (String × String)} (h : (files.map (·.1)).Nodup) :
    (ofList files).Perm files := by
  have hfold : ∀ (files : List (String × String)) (done : TextFiles),
      ((done ++ files).map (·.1)).Nodup →
        (files.foldl (fun done f => insert f.1 f.2 done) done).Perm (done ++ files) := by
    intro files
    induction files with
    | nil => simp
    | cons f files ih =>
      intro done hnodup
      obtain ⟨name, text⟩ := f
      have hmoved : (done ++ (name, text) :: files).Perm ((name, text) :: done ++ files) :=
        List.perm_middle
      have hnew : name ∉ done.map (·.1) := by
        have := (hmoved.map (·.1)).nodup_iff.mp hnodup
        simp only [List.cons_append, List.map_cons, List.nodup_cons, List.map_append,
          List.mem_append, not_or] at this
        exact this.1.1
      have hinsert : (insert name text done ++ files).Perm (done ++ (name, text) :: files) :=
        ((insert_perm hnew text).append_right files).trans hmoved.symm
      rw [List.foldl_cons]
      exact (ih _ ((hinsert.map (·.1)).nodup_iff.mpr hnodup)).trans hinsert
  exact hfold files [] h

/-- Of distinct names in one order the collection gives each text back. -/
theorem ofList_inj {files files' : List (String × String)}
    (hnames : files.map (·.1) = files'.map (·.1)) (hnodup : (files.map (·.1)).Nodup) :
    ofList files = ofList files' ↔ files = files' := by
  refine ⟨fun h => ?_, fun h => h ▸ rfl⟩
  have hnodup' : (files'.map (·.1)).Nodup := hnames ▸ hnodup
  have hperm : files.Perm files' := (ofList_perm hnodup).symm.trans (h ▸ ofList_perm hnodup')
  refine List.ext_getElem hperm.length_eq fun i hi hi' => ?_
  have hname : files[i].1 = files'[i].1 := by
    have hget := congrArg (fun names => names[i]?) hnames
    simpa [hi, hi'] using hget
  exact List.inj_on_of_nodup_map hnodup' (hperm.mem_iff.mp (List.getElem_mem hi))
    (List.getElem_mem hi') hname

end TextFiles

namespace Reading

open SchemaGate.Block (columnLines declarations eq_column_of_mem_columnLines indexes mem_indexes
  relations)

/-! ### A text by its lines -/

theorem toList_join (lines : List SchemaLine) :
    (SchemaLine.join lines).toList = lines.flatMap fun line => line.text.toList ++ ['\n'] := by
  simp [SchemaLine.join, String.toList_join, List.flatMap_map]

theorem splitOn_join {lines : List SchemaLine} (h : ∀ line ∈ lines, '\n' ∉ line.text.toList) :
    (SchemaLine.join lines).toList.splitOn '\n' = lines.map (·.text.toList) ++ [[]] := by
  rw [toList_join, splitOn_flatMap_concat_of_not_mem h]

/-- Remarks are passed over. -/
theorem blocksAfter_filter (b : Option Block) (ls : List Line) :
    blocksAfter b (ls.filter (· ≠ .remark)) = blocksAfter b ls := by
  induction ls generalizing b with
  | nil => rfl
  | cons l ls ih =>
    by_cases hl : l = .remark
    · subst hl
      rw [List.filter_cons_of_neg (by simp), ih]
      cases b <;> rfl
    · rw [List.filter_cons_of_pos (by simpa using hl)]
      cases l <;> cases b <;> simp only [blocksAfter, ih]

theorem reading_eq_remark_iff {line : SchemaLine} : reading line = .remark ↔ line.isRemark := by
  cases line with
  | relation line => cases line <;> simp [reading, SchemaLine.isRemark]
  | _ => simp [reading, SchemaLine.isRemark]

theorem blocksAfter_declaringLines (lines : List SchemaLine) :
    blocksAfter none ((declaringLines lines).map reading) =
      blocksAfter none (lines.map reading) := by
  have hdeclaring : (declaringLines lines).map reading =
      (lines.map reading).filter (· ≠ .remark) := by
    rw [List.filter_map, declaringLines]
    congr 1
    refine List.filter_congr fun line _ => ?_
    simp [reading_eq_remark_iff]
  rw [hdeclaring, blocksAfter_filter]

/-- A text of legible lines is read by them. -/
theorem blocks?_join {lines : List SchemaLine} (h : ∀ line ∈ lines, Legible line) :
    blocks? (SchemaLine.join lines) = blocksAfter none ((declaringLines lines).map reading) := by
  have hread : ∀ line ∈ lines, lineOf? (tokens line.text.toList) = some (reading line) :=
    fun line hline => (h line hline).read
  have hlines : (lines.map (·.text.toList)).mapM (fun line => lineOf? (tokens line)) =
      some (lines.map reading) := by
    rw [List.mapM_map]
    exact mapM_eq_some hread
  have hrest : ([[]] : List (List Char)).mapM (fun line => lineOf? (tokens line)) =
      some [.remark] := rfl
  have hend : blocksAfter none (lines.map reading ++ [.remark]) =
      blocksAfter none (lines.map reading) := by
    rw [← blocksAfter_filter, List.filter_append, ← blocksAfter_filter none (lines.map reading)]
    simp
  rw [blocks?, splitOn_join fun line hline => (h line hline).feed, List.mapM_append, hlines, hrest,
    blocksAfter_declaringLines]
  exact hend

/-! ### Blocks -/

/-- What a line declares in its block. -/
def item? (line : SchemaLine) : Option Item :=
  match reading line with
  | .item i => some i
  | _ => none

/-- What is read of the block of a model. -/
def Block.ofModel (options : RenderOptions) (app : Application) (model : Model) : Block where
  name := model.name
  items := (declarations options app model).filterMap item?

theorem blocksAfter_items {items : List SchemaLine} (h : ∀ line ∈ items, (item? line).isSome)
    (b : Block) (ls : List Line) :
    blocksAfter (some b) (items.map reading ++ ls) =
      blocksAfter (some { b with items := b.items ++ items.filterMap item? }) ls := by
  induction items generalizing b with
  | nil => simp
  | cons line items ih =>
    obtain ⟨hline, hitems⟩ := List.forall_mem_cons.mp h
    obtain ⟨i, hi⟩ := Option.isSome_iff_exists.mp hline
    have hreading : reading line = .item i := by
      unfold item? at hi
      split at hi
      · rename_i hread
        rw [hread, Option.some.inj hi]
      · cases hi
    rw [List.map_cons, List.cons_append, hreading, blocksAfter, ih hitems,
      List.filterMap_cons_some hi, List.append_assoc, List.singleton_append]

variable (options : RenderOptions) (app : Application)

theorem item?_isSome_of_mem {model : Model} {line : SchemaLine}
    (h : line ∈ columnLines options model ++ (relations app model).map .relation ++
      indexes options model) : (item? line).isSome := by
  simp only [List.mem_append, List.mem_map] at h
  rcases h with (hcolumn | ⟨relation, -, rfl⟩) | hindex
  · obtain ⟨_, _, rfl⟩ := eq_column_of_mem_columnLines options hcolumn
    rfl
  · cases relation <;> rfl
  · rcases mem_indexes hindex with ⟨_, -, rfl⟩ | ⟨_, -, rfl⟩ | ⟨_, -, rfl⟩ <;> rfl

theorem blocksAfter_declarations (model : Model) (ls : List Line) :
    blocksAfter none ((declarations options app model).map reading ++ ls) =
      (blocksAfter none ls).map (Block.ofModel options app model :: ·) := by
  have hopening : item? (.opening model.name) = none := rfl
  have hclosing : [SchemaLine.closing].filterMap item? = [] := rfl
  rw [Block.ofModel, declarations, List.filterMap_cons_none hopening,
    List.filterMap_append, hclosing, List.append_nil, List.map_cons, List.map_append,
    List.cons_append, List.append_assoc]
  change blocksAfter (some ⟨model.name, []⟩) (_ ++ .closing :: ls) = _
  rw [blocksAfter_items fun line hline => item?_isSome_of_mem options app hline, List.nil_append]
  rfl

/-- A file of legible lines is read as the blocks of its models. -/
theorem blocks?_render {file : SchemaFile} (h : ∀ line ∈ file.lines options app, Legible line) :
    blocks? (file.render options app) = some (file.models.map (Block.ofModel options app)) := by
  have hblocks : ∀ models : List Model,
      blocksAfter none ((models.flatMap (declarations options app)).map reading) =
        some (models.map (Block.ofModel options app)) := by
    intro models
    induction models with
    | nil => rfl
    | cons model models ih =>
      rw [List.flatMap_cons, List.map_append, blocksAfter_declarations, ih]
      rfl
  rw [SchemaFile.render, blocks?_join h, file.declaringLines_lines, hblocks]

/-- The blocks of all files of distinct names are those of all models. -/
theorem schema?_render {scope : Scope} {whole : Accepted scope}
    (hnodup : (whole.application.files.map (·.filename)).Nodup)
    (h : ∀ file ∈ whole.application.files,
      ∀ line ∈ file.lines options whole.application, Legible line) :
    ∃ blocks, schema? (whole.render options) = some blocks ∧
      blocks.Perm (whole.application.models.map (Block.ofModel options whole.application)) := by
  let texts := whole.application.files.map fun file =>
    (file.filename, file.render options whole.application)
  have hperm : (whole.render options).Perm texts :=
    TextFiles.ofList_perm (by simpa [texts, Function.comp_def] using hnodup)
  let read (file : String × String) : List Block := (blocks? file.2).getD []
  have hread : ∀ file ∈ whole.application.files,
      blocks? (file.render options whole.application) =
        some (file.models.map (Block.ofModel options whole.application)) :=
    fun file hfile => blocks?_render options whole.application (h file hfile)
  have htexts : ∀ text ∈ whole.render options, blocks? text.2 = some (read text) := by
    intro text htext
    obtain ⟨file, hfile, rfl⟩ := List.mem_map.mp (hperm.mem_iff.mp htext)
    simp [read, hread file hfile]
  refine ⟨((whole.render options).map read).flatten, ?_, ?_⟩
  · rw [schema?, mapM_eq_some htexts]
    rfl
  · have hflat : (texts.map read).flatten =
        whole.application.models.map (Block.ofModel options whole.application) := by
      rw [Application.models, List.map_flatMap, ← List.flatMap_def, List.flatMap_map]
      refine List.flatMap_congr fun file hfile => ?_
      simp [read, hread file hfile]
    rw [← hflat]
    exact (hperm.map read).flatten

end Reading

end SchemaGate
