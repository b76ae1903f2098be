import SchemaGate.Proofs.Render.Declarations

/-!
# The relations that a block declares

What a rendered model declares as relations is read off the lines of its block. Neither the comments
nor the columns nor the indexes declare one, so that these are the relations the renderer collects,
whatever the options (`relationLines_eq`).
-/

namespace SchemaGate

/-- The relation that a line declares. -/
def SchemaLine.relation? : SchemaLine → Option RelationLine
  | relation line => some line
  | _ => none

namespace RelationLine

/-- The foreign column behind a relation that is declared on the model that holds it. -/
def column? : RelationLine → Option String
  | forward _ _ _ _ column _ => some column
  | back .. => none

/-- A relation is written with a type that is marked as optional. -/
def WrittenOptional (line : RelationLine) : Prop :=
  s!"  {line.name} {line.type}?".toList <+: line.text.toList

theorem writtenOptional_back_iff {name source : String} {unique : Bool} {label : Option String} :
    (back name source unique label).WrittenOptional ↔ unique := by
  have hself : ∀ s : String, toString s = s := fun _ => rfl
  unfold WrittenOptional text
  simp only [RelationLine.name, type, hself, String.toList_append, List.append_assoc,
    List.prefix_append_right_inj]
  cases unique <;> simp

end RelationLine

namespace Block

/-- The relations that a rendered model declares. -/
def relationLines (options : RenderOptions) (app : Application) (file : SchemaFile)
    (model : Model) : List RelationLine :=
  (lines options app file model).filterMap SchemaLine.relation?

variable (options : RenderOptions)

theorem relation?_eq_none_of_isRemark (line : SchemaLine) (h : line.isRemark) :
    line.relation? = none := by
  cases line <;> first | rfl | simp [SchemaLine.isRemark] at h

/-- The relations read off a block are those of the model. -/
theorem relationLines_eq (app : Application) (file : SchemaFile) (model : Model) :
    relationLines options app file model = relations app model := by
  have hcolumns : (columnLines options model).filterMap SchemaLine.relation? = [] := by
    rw [List.filterMap_eq_nil_iff]
    intro line hline
    obtain ⟨name, type, rfl⟩ := eq_column_of_mem_columnLines options hline
    rfl
  have hindexes : (indexes options model).filterMap SchemaLine.relation? = [] := by
    rw [List.filterMap_eq_nil_iff]
    intro line hline
    rcases mem_indexes hline with ⟨_, -, rfl⟩ | ⟨_, -, rfl⟩ | ⟨_, -, rfl⟩ <;> rfl
  rw [relationLines, filterMap_lines options relation?_eq_none_of_isRemark,
    filterMap_declarations options (fun _ => rfl) rfl, hcolumns, hindexes, List.nil_append,
    List.append_nil]
  exact List.filterMap_some

end Block

end SchemaGate
