import SchemaGate.Proofs.Render.LegibleFiles
import SchemaGate.Proofs.Render.RelationEnds

/-!
# A schema refers to what it declares

The text of an accepted application is read back as one block for each model, and every name in a
block is declared: relations are typed by blocks, those that are held join a foreign column of their
block with the primary column of the other, and indexes cover columns
(`rendered_closed_under_reference`).

This is so while the words above a block stay remarks. Behind a line feed in a file's label a text
goes on that is none, and it may head a block of its own (`label_heads_block`).
-/

namespace SchemaGate

namespace Reading

open SchemaGate.Block (backRelation columnLines declarations eq_column_of_mem_columnLines
  filterMap_declarations forwardRelation indexes mem_indexes relations)

/-- A relation that is held joins a foreign column of its block with the primary column of the block
it is typed by. -/
structure Block.Joins (app : Application) (b target : Block) (fields references : List String) :
    Prop where
  column : ∃ model ∈ app.models, model.name = b.name ∧ ∃ field ∈ model.foreign,
    fields = [field.name] ∧ field.name ∈ b.columns
  key : ∃ name, references = [name] ∧ target.keys = [name]

/-- The blocks of an application refer to nothing but what they declare. -/
structure ClosedUnderReference (app : Application) (blocks : List Block) : Prop where
  heads : (blocks.map (·.name)).Perm app.modelNames
  nodup : (blocks.map (·.name)).Nodup
  relations : ∀ b ∈ blocks, ∀ name type fields references,
    Item.relation name type fields references ∈ b.items →
      ∃ target ∈ blocks, target.name = type ∧
        (fields = [] ∨ b.Joins app target fields references)
  held : ∀ model ∈ app.models, ∀ field ∈ model.foreign, ∃ b ∈ blocks, b.name = model.name ∧
    ∃ references, Item.relation field.relation.name field.relation.target [field.name] references ∈
      b.items
  indexes : ∀ b ∈ blocks, ∀ columns, Item.index columns ∈ b.items →
    ∀ name ∈ columns, name ∈ b.columns

/-! ### The block of a model -/

variable (options : RenderOptions) (app : Application)

theorem mem_items_ofModel {model : Model} {i : Item} :
    i ∈ (Block.ofModel options app model).items ↔
      (∃ line ∈ columnLines options model, item? line = some i) ∨
      (∃ line ∈ relations app model, item? (.relation line) = some i) ∨
      ∃ line ∈ indexes options model, item? line = some i := by
  have hopening : item? (.opening model.name) = none := rfl
  have hclosing : item? .closing = none := rfl
  simp only [Block.ofModel, declarations, List.mem_filterMap, List.mem_cons,
    List.mem_append, List.mem_map, List.not_mem_nil, or_false, or_and_right, exists_or,
    exists_eq_left, hopening, hclosing, false_or, reduceCtorEq, or_assoc]
  simp

theorem relation_of_mem_items {model : Model} {name type : String} {fields references : List String}
    (h : Item.relation name type fields references ∈ (Block.ofModel options app model).items) :
    (∃ field ∈ model.foreign, field.relation.target = type ∧ fields = [field.name] ∧
      references = [(app.model? type).elim defaultPrimaryKey (·.primary.name)]) ∨
    ∃ f ∈ app.foreignsTo model.name, f.model.name = type ∧ fields = [] := by
  rcases (mem_items_ofModel options app).mp h with
    ⟨_, hcolumn, hi⟩ | ⟨line, hline, hi⟩ | ⟨_, hindex, hi⟩
  · obtain ⟨_, _, rfl⟩ := eq_column_of_mem_columnLines options hcolumn
    cases hi
  · simp only [relations, List.mem_append, List.mem_map] at hline
    rcases hline with ⟨field, hfield, rfl⟩ | ⟨f, hf, rfl⟩
    · obtain ⟨rfl, rfl, rfl, rfl⟩ : _ ∧ _ ∧ _ ∧ _ := by
        simpa [item?, reading, forwardRelation] using hi
      exact Or.inl ⟨field, hfield, rfl, rfl, rfl⟩
    · obtain ⟨rfl, rfl, rfl, rfl⟩ : _ ∧ _ ∧ _ ∧ _ := by
        simpa [item?, reading, backRelation] using hi
      exact Or.inr ⟨f, hf, rfl, rfl⟩
  · rcases mem_indexes hindex with ⟨_, -, rfl⟩ | ⟨_, -, rfl⟩ | ⟨_, -, rfl⟩ <;> cases hi

theorem index_of_mem_items {model : Model} {columns : List String}
    (h : Item.index columns ∈ (Block.ofModel options app model).items) :
    columns ∈ model.uniqueIndexes ++ model.plainIndexes ∨
      ∃ name ∈ model.textIndexes, columns = [name] := by
  rcases (mem_items_ofModel options app).mp h with
    ⟨_, hcolumn, hi⟩ | ⟨line, -, hi⟩ | ⟨_, hindex, hi⟩
  · obtain ⟨_, _, rfl⟩ := eq_column_of_mem_columnLines options hcolumn
    cases hi
  · cases line <;> cases hi
  · rcases mem_indexes hindex with ⟨_, hmem, rfl⟩ | ⟨_, hmem, rfl⟩ | ⟨name, hmem, rfl⟩ <;> cases hi
    · exact Or.inl (List.mem_append_left _ hmem)
    · exact Or.inl (List.mem_append_right _ hmem)
    · exact Or.inr ⟨name, hmem, rfl⟩

/-- What relations and indexes do not show is read off the columns. -/
theorem filterMap_items_ofModel {read : Item → Option String}
    (hrelation : ∀ name type fields references, read (.relation name type fields references) = none)
    (hindex : ∀ columns, read (.index columns) = none) (model : Model) :
    (Block.ofModel options app model).items.filterMap read =
      (columnLines options model).filterMap fun line => (item? line).bind read := by
  have hrelations : (relations app model).filterMap
      (fun relation => (item? (.relation relation)).bind read) = [] := by
    rw [List.filterMap_eq_nil_iff]
    intro relation _
    cases relation <;> exact hrelation _ _ _ _
  have hindexes : (indexes options model).filterMap (fun line => (item? line).bind read) = [] := by
    rw [List.filterMap_eq_nil_iff]
    intro line hline
    rcases mem_indexes hline with ⟨_, -, rfl⟩ | ⟨_, -, rfl⟩ | ⟨_, -, rfl⟩ <;> exact hindex _
  rw [Block.ofModel, List.filterMap_filterMap,
    filterMap_declarations options (fun _ => rfl) rfl, hrelations, hindexes, List.append_nil,
    List.append_nil]

theorem columns_ofModel (model : Model) :
    (Block.ofModel options app model).columns = model.columnNames := by
  have hname : ∀ (name : String) (type : ColumnType),
      (item? (.column name type)).bind Item.column? = some name := fun _ _ => rfl
  rw [Block.columns, filterMap_items_ofModel options app (fun _ _ _ _ => rfl) fun _ => rfl]
  simp [columnLines, Model.columnNames, hname, List.filterMap_map]

theorem keys_ofModel (model : Model) :
    (Block.ofModel options app model).keys = [model.primary.name] := by
  have hread : ∀ (name : String) (t : Scalar) (nullable : Bool) (keys : List String),
      (item? (.column name (.forProvider options.provider t nullable keys))).bind Item.key? =
        if (keys.map fun a => String.ofList (a.toList.drop 1)).contains "id" then some name
        else none := by
    intro name t nullable keys
    change (if _ then _ else _) = _
    congr 1
    cases hnative : options.provider.nativeAttribute? t <;>
      simp [typeAttributes, ColumnType.forProvider, hnative]
  have hprimary : ∀ name, (item? (.column name (.forProvider options.provider .uuid false
      ["@id"]))).bind Item.key? = some name := by
    intro name
    rw [hread, if_pos (by decide)]
  have hforeign : ∀ f : ForeignField, (item? (.column f.name (.forProvider options.provider .uuid
      f.nullable (if f.unique then ["@unique"] else [])))).bind Item.key? = none := by
    intro f
    cases f.unique <;> rw [hread, if_neg (by decide)]
  have hplain : ∀ f : PlainField, (item? (.column f.name (.forProvider options.provider f.scalar
      f.nullable []))).bind Item.key? = none := by
    intro f
    rw [hread, if_neg (by decide)]
  rw [Block.keys, filterMap_items_ofModel options app (fun _ _ _ _ => rfl) fun _ => rfl]
  simp [columnLines, hprimary, hforeign, hplain, List.filterMap_map]

/-! ### All blocks -/

section

variable {options app} {components : List Component} {blocks : List Block}
  (hblocks : blocks.Perm (app.models.map (Block.ofModel options app)))

include hblocks

theorem map_name_perm : (blocks.map (·.name)).Perm app.modelNames := by
  have hnames : (app.models.map (Block.ofModel options app)).map (·.name) = app.modelNames := by
    rw [List.map_map]
    rfl
  exact hnames ▸ hblocks.map (·.name)

theorem ofModel_mem {model : Model} (hmodel : model ∈ app.models) :
    Block.ofModel options app model ∈ blocks :=
  hblocks.mem_iff.mpr (List.mem_map_of_mem hmodel)

variable (h : Conforms ⟨components, []⟩ app)

include h

theorem exists_block_of_relation {model : Model} (hmodel : model ∈ app.models)
    {name type : String} {fields references : List String}
    (hitem : Item.relation name type fields references ∈ (Block.ofModel options app model).items) :
    ∃ target ∈ blocks, target.name = type ∧
      (fields = [] ∨ (Block.ofModel options app model).Joins app target fields references) := by
  rcases relation_of_mem_items options app hitem with
    ⟨field, hfield, rfl, rfl, rfl⟩ | ⟨f, hf, rfl, rfl⟩
  -- its own block holds the column, and the one it is typed by the key
  · obtain ⟨⟨file, model⟩, hdecl, rfl⟩ : ∃ d ∈ app.declarations, d.2 = model := by
      rwa [← Application.map_snd_declarations, List.mem_map] at hmodel
    obtain ⟨target, htarget, hname, hfound⟩ :=
      exists_target h (f := ⟨file, model, field⟩) (Application.mem_foreigns.mpr ⟨hdecl, hfield⟩)
    refine ⟨_, ofModel_mem hblocks htarget, hname, Or.inr ⟨⟨_, hmodel, rfl, field, hfield,
      rfl, ?_⟩, target.primary.name, ?_, keys_ofModel options app target⟩⟩
    · rw [columns_ofModel]
      simp only [Model.columnNames, List.mem_append, List.mem_cons, List.mem_map]
      exact Or.inl (Or.inr ⟨field, hfield, rfl⟩)
    · rw [show field.relation.target = Foreign.target ⟨file, model, field⟩ from rfl, hfound]
      rfl
  · obtain ⟨hsource, -⟩ := mem_models_of_mem_foreigns (Application.mem_foreignsTo.mp hf).1
    exact ⟨_, ofModel_mem hblocks hsource, rfl, Or.inl rfl⟩

theorem closedUnderReference_of_perm : ClosedUnderReference app blocks where
  heads := map_name_perm hblocks
  nodup := (map_name_perm hblocks).nodup_iff.mpr h.models.nodup
  relations := by
    intro b hb
    obtain ⟨model, hmodel, rfl⟩ := List.mem_map.mp (hblocks.mem_iff.mp hb)
    exact fun _ _ _ _ => exists_block_of_relation hblocks h hmodel
  held := by
    intro model hmodel field hfield
    refine ⟨_, ofModel_mem hblocks hmodel, rfl,
      [(app.model? field.relation.target).elim defaultPrimaryKey (·.primary.name)], ?_⟩
    refine (mem_items_ofModel options app).mpr (Or.inr (Or.inl ?_))
    exact ⟨_, List.mem_append_left _ (List.mem_map_of_mem hfield), rfl⟩
  indexes := by
    intro b hb columns hitem name hname
    obtain ⟨model, hmodel, rfl⟩ := List.mem_map.mp (hblocks.mem_iff.mp hb)
    rw [columns_ofModel]
    rcases index_of_mem_items options app hitem with hcolumns | ⟨text, htext, rfl⟩
    · exact ((h.indexes model hmodel).covers columns hcolumns).exist name hname
    · obtain ⟨field, hfield, rfl, -⟩ := (h.indexes model hmodel).texts text htext
      rw [List.mem_singleton.mp hname]
      exact List.mem_append_right _ (List.mem_map_of_mem hfield)

end

end Reading

open Reading

/-- What is rendered of an accepted application, where no label that is printed holds a line feed,
is read as blocks that refer to nothing but what they declare. -/
theorem rendered_closed_under_reference (options : RenderOptions) {components : List Component}
    {app : Application} {whole : Accepted ⟨components, []⟩}
    (h : Scope.validate ⟨components, []⟩ app = .ok whole)
    (hlabels : options.comments → ∀ file ∈ app.files, '\n' ∉ file.domain.toList) :
    ∃ blocks, schema? (whole.render options) = some blocks ∧ ClosedUnderReference app blocks := by
  have hconforms : Conforms ⟨components, []⟩ app := by
    rw [← Scope.validate_isOk_iff_conforms, h]
    rfl
  obtain rfl := Scope.application_of_validate h
  obtain ⟨blocks, hread, hblocks⟩ := schema?_render options
    hconforms.corresponds.filenames_nodup fun file hfile =>
      legible_of_conforms options hconforms hfile fun hcomments => hlabels hcomments file hfile
  exact ⟨blocks, hread, closedUnderReference_of_perm hblocks hconforms⟩

theorem rendered_closed_under_reference_staff :
    ∃ whole, Scope.validate ⟨[staffComponent], []⟩ staffApplication = .ok whole ∧
      (∀ file ∈ staffApplication.files, '\n' ∉ file.domain.toList) ∧
      ∃ blocks, schema? (whole.render {}) = some blocks ∧
        ClosedUnderReference staffApplication blocks := by
  have hlabels : ∀ file ∈ staffApplication.files, '\n' ∉ file.domain.toList := by decide
  have haccepted : Scope.validate ⟨[staffComponent], []⟩ staffApplication =
      .ok ⟨staffApplication, by decide +kernel⟩ := by
    rw [Scope.validate, dif_pos]
  exact ⟨_, haccepted, hlabels, rendered_closed_under_reference {} haccepted fun _ => hlabels⟩

/-- A label may hold a line feed, and what it says behind that is no remark. -/
def splitLabelApplication : Application :=
  ⟨[{ filename := "schema-01-users.prisma", domain := "Users\nmodel user \x7b\n\x7d",
      models := [.minimal "user"] }]⟩

def splitLabelComponent : Component :=
  { filename := "schema-01-users.prisma", domain := "Users\nmodel user \x7b\n\x7d",
    tables := ["user"] }

theorem label_heads_block :
    ∃ whole, Scope.validate ⟨[splitLabelComponent], []⟩ splitLabelApplication = .ok whole ∧
      ∃ blocks, schema? (whole.render {}) = some blocks ∧
        blocks.map (·.name) = ["user", "user"] ∧
        ¬ ClosedUnderReference splitLabelApplication blocks := by
  have haccepted : Scope.validate ⟨[splitLabelComponent], []⟩ splitLabelApplication =
      .ok ⟨splitLabelApplication, by decide +kernel⟩ := by
    rw [Scope.validate, dif_pos]
  refine ⟨_, haccepted, [⟨"user", []⟩, ⟨"user", [.column "id" ["id", "db"]]⟩], ?_, rfl, ?_⟩
  · decide +kernel
  · intro h
    exact absurd h.nodup (by decide)

end SchemaGate
