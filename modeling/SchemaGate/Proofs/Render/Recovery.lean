import SchemaGate.Proofs.Render.LegibleFiles
import SchemaGate.Proofs.Render.RelationEnds
import SchemaGate.Proofs.Schema.Bare

/-!
# Rendering loses no structure

From the text of a file without comments its declarations are read back whole, block by block
(`bodiesOf_render`). A block shows its model but for the properties on the targets of its relations
(`outline_of_body`); these are shown by the blocks of the targets, in the order of the whole
application, so that they are found once all blocks are known. Two accepted applications with the
same files are then rendered alike exactly when their bare forms are the same
(`render_eq_iff_bare_eq`).
-/

namespace SchemaGate

/-! ### Blocks read back from a text -/

namespace Block

/-- The declarations of a block up to the line that closes it. -/
def body (options : RenderOptions) (app : Application) (model : Model) : List SchemaLine :=
  .opening model.name :: (columnLines options model ++ (relations app model).map .relation ++
    indexes options model)

variable {options : RenderOptions} {app : Application}

theorem declarations_eq_body_append (model : Model) :
    declarations options app model = body options app model ++ [SchemaLine.closing] := rfl

theorem closing_not_mem_body (model : Model) : .closing ∉ body options app model := by
  simp only [body, List.mem_cons, List.mem_append, List.mem_map]
  rintro (h | (hcolumn | ⟨_, -, h⟩) | hindex)
  · cases h
  · obtain ⟨_, _, h⟩ := eq_column_of_mem_columnLines options hcolumn
    cases h
  · cases h
  · rcases mem_indexes hindex with ⟨_, -, h⟩ | ⟨_, -, h⟩ | ⟨_, -, h⟩ <;> cases h

end Block

namespace Reading

/-- What is declared in a text, line by line. -/
def declarationsOf (text : String) : List SchemaLine :=
  (text.toList.splitOn '\n').filterMap fun line => declarationOf? .postgresql (tokens line)

/-- The blocks of a text, without the lines that close them. -/
def bodiesOf (text : String) : List (List SchemaLine) :=
  ((declarationsOf text).splitOn .closing).dropLast

variable {components : List Component} {app : Application}
  (h : Conforms ⟨components, []⟩ app) {file : SchemaFile} (hfile : file ∈ app.files)

include h hfile

theorem declarationsOf_render :
    declarationsOf (file.render ⟨.postgresql, false⟩ app) =
      file.models.flatMap (Block.declarations ⟨.postgresql, false⟩ app) := by
  have hfeed : ∀ line ∈ file.lines ⟨.postgresql, false⟩ app, '\n' ∉ line.text.toList :=
    fun line hline => (legible_of_conforms _ h hfile (by simp) line hline).feed
  have hspelled : ∀ line ∈ declaringLines (file.lines ⟨.postgresql, false⟩ app),
      Spelled .postgresql line := by
    intro line hline
    obtain ⟨hline, hremark⟩ := List.mem_filter.mp hline
    exact spelled_of_mem_lines ⟨.postgresql, false⟩ h hfile hline (by simpa using hremark)
  have hend : ([[]] : List (List Char)).filterMap
      (fun line => declarationOf? .postgresql (tokens line)) = [] := rfl
  rw [declarationsOf, SchemaFile.render, splitOn_join hfeed, List.filterMap_append, hend,
    List.append_nil, List.filterMap_map, ← file.declaringLines_lines]
  exact filterMap_declarationOf? hspelled

theorem bodiesOf_render :
    bodiesOf (file.render ⟨.postgresql, false⟩ app) =
      file.models.map (Block.body ⟨.postgresql, false⟩ app) := by
  have hclosed : file.models.flatMap (Block.declarations ⟨.postgresql, false⟩ app) =
      file.models.flatMap fun model =>
        Block.body ⟨.postgresql, false⟩ app model ++ [SchemaLine.closing] :=
    List.flatMap_congr fun model _ => Block.declarations_eq_body_append model
  rw [bodiesOf, declarationsOf_render h hfile, hclosed,
    splitOn_flatMap_concat_of_not_mem fun model _ => Block.closing_not_mem_body model,
    List.dropLast_concat]

end Reading

/-! ### A model read back from its block -/

/-- A foreign column without the property on the target of its relation. -/
def ForeignField.outline (f : ForeignField) : ForeignField :=
  { f with description := "", relation := { f.relation with opposite := none } }

/-- A model as far as its own block shows it. -/
def Model.outline (m : Model) : Model :=
  { m.bare with foreign := m.foreign.map (·.outline) }

/-- The properties on the targets of the relations that a model holds. -/
def Model.opposites (m : Model) : List String :=
  m.foreign.map fun f => f.relation.oppositeProperty m.name

namespace SchemaLine

def column? : SchemaLine → Option (String × ColumnType)
  | column name type => some (name, type)
  | _ => none

/-- The foreign column behind the relation of a line, which does not show whether it is unique. -/
def held? : SchemaLine → Option ForeignField
  | relation (.forward name target nullable label foreign _) =>
    some { name := foreign, relation := { name, target, mapping := label }, nullable }
  | _ => none

/-- The property that a line declares for a relation from elsewhere. -/
def pointed? : SchemaLine → Option String
  | relation (.back name ..) => some name
  | _ => none

def uniqueIndex? : SchemaLine → Option (List String)
  | uniqueIndex columns => some columns
  | _ => none

def plainIndex? : SchemaLine → Option (List String)
  | plainIndex columns => some columns
  | _ => none

def textIndex? : SchemaLine → Option String
  | textIndex _ name => some name
  | _ => none

end SchemaLine

namespace Block

variable (options : RenderOptions) (app : Application) (model : Model)

theorem filterMap_column?_body :
    (body options app model).filterMap SchemaLine.column? =
      (model.primary.name, ColumnType.forProvider options.provider .uuid false ["@id"]) ::
        (model.foreign.map (fun f => (f.name, ColumnType.forProvider options.provider .uuid
          f.nullable (if f.unique then ["@unique"] else []))) ++
        model.plain.map fun f =>
          (f.name, ColumnType.forProvider options.provider f.scalar f.nullable [])) := by
  simp [body, columnLines, relations, indexes, SchemaLine.column?, List.filterMap_cons,
    List.filterMap_map, Function.comp_def]

theorem filterMap_held?_body :
    (body options app model).filterMap SchemaLine.held? =
      model.foreign.map fun f => { f.outline with unique := false } := by
  simp [body, columnLines, relations, indexes, SchemaLine.held?, List.filterMap_cons,
    List.filterMap_map, Function.comp_def, forwardRelation, backRelation, ForeignField.outline]

theorem filterMap_pointed?_body :
    (body options app model).filterMap SchemaLine.pointed? =
      (app.foreignsTo model.name).map (·.oppositeProperty) := by
  simp [body, columnLines, relations, indexes, SchemaLine.pointed?, List.filterMap_cons,
    List.filterMap_map, Function.comp_def, forwardRelation, backRelation]

theorem filterMap_uniqueIndex?_body :
    (body options app model).filterMap SchemaLine.uniqueIndex? = model.uniqueIndexes := by
  simp [body, columnLines, relations, indexes, SchemaLine.uniqueIndex?, List.filterMap_cons,
    List.filterMap_map, Function.comp_def]

theorem filterMap_plainIndex?_body :
    (body options app model).filterMap SchemaLine.plainIndex? = model.plainIndexes := by
  simp [body, columnLines, relations, indexes, SchemaLine.plainIndex?, List.filterMap_cons,
    List.filterMap_map, Function.comp_def]

theorem filterMap_textIndex?_body :
    (body options app model).filterMap SchemaLine.textIndex? = model.textIndexes := by
  simp [body, columnLines, relations, indexes, SchemaLine.textIndex?, List.filterMap_cons,
    List.filterMap_map, Function.comp_def]

/-- Foreign columns are told by the relations they hold, and the first columns behind the primary one
are theirs. -/
theorem foreign_of_body {app app' : Application} {m m' : Model}
    (h : body ⟨.postgresql, false⟩ app m = body ⟨.postgresql, false⟩ app' m') :
    m.primary.name = m'.primary.name ∧
      m.foreign.map (·.outline) = m'.foreign.map (·.outline) ∧
      m.plain.map (·.bare) = m'.plain.map (·.bare) := by
  have hheld := congrArg (List.filterMap SchemaLine.held?) h
  rw [filterMap_held?_body, filterMap_held?_body] at hheld
  have hcolumns := congrArg (List.filterMap SchemaLine.column?) h
  rw [filterMap_column?_body, filterMap_column?_body] at hcolumns
  obtain ⟨hprimary, hcolumns⟩ := List.cons.inj hcolumns
  -- a foreign column and a plain one of the same type are written alike, but are not as many
  have hlength : m.foreign.length = m'.foreign.length := by
    simpa using congrArg List.length hheld
  obtain ⟨hforeign, hplain⟩ := List.append_inj hcolumns (by simpa using hlength)
  refine ⟨(Prod.mk.inj hprimary).1, ?_, ?_⟩
  · refine map_eq_map_of_imp (map_prod_eq_map hheld hforeign) fun f g hfg => ?_
    obtain ⟨hfield, hcolumn⟩ := Prod.mk.inj hfg
    have hunique : f.unique = g.unique := by
      have hattributes := congrArg (fun column : String × ColumnType => column.2.attributes) hcolumn
      cases hf : f.unique <;> cases hg : g.unique <;> simp_all [ColumnType.forProvider]
    calc f.outline = { ({ f.outline with unique := false } : ForeignField) with
          unique := f.unique } := rfl
      _ = g.outline := by
        rw [hfield, hunique]
        rfl
  · refine map_eq_map_of_imp hplain fun f g hfg => ?_
    obtain ⟨hname, htype⟩ := Prod.mk.inj hfg
    have hscalar : f.scalar = g.scalar := congrArg ColumnType.scalar htype
    have hnullable : f.nullable = g.nullable := congrArg ColumnType.nullable htype
    rw [PlainField.bare, PlainField.bare, hname, hscalar, hnullable]

/-- A block shows the outline of its model and the properties of the relations that point at it. -/
theorem outline_of_body {app app' : Application} {m m' : Model}
    (h : body ⟨.postgresql, false⟩ app m = body ⟨.postgresql, false⟩ app' m') :
    m.outline = m'.outline ∧
      (app.foreignsTo m.name).map (·.oppositeProperty) =
        (app'.foreignsTo m'.name).map (·.oppositeProperty) := by
  obtain ⟨hprimary, hforeign, hplain⟩ := foreign_of_body h
  have hname : m.name = m'.name := SchemaLine.opening.inj (List.cons.inj h).1
  have hunique := congrArg (List.filterMap SchemaLine.uniqueIndex?) h
  have hindexes := congrArg (List.filterMap SchemaLine.plainIndex?) h
  have htexts := congrArg (List.filterMap SchemaLine.textIndex?) h
  have hpointed := congrArg (List.filterMap SchemaLine.pointed?) h
  rw [filterMap_uniqueIndex?_body, filterMap_uniqueIndex?_body] at hunique
  rw [filterMap_plainIndex?_body, filterMap_plainIndex?_body] at hindexes
  rw [filterMap_textIndex?_body, filterMap_textIndex?_body] at htexts
  rw [filterMap_pointed?_body, filterMap_pointed?_body] at hpointed
  have hparts : ∀ m : Model, m.outline = ⟨m.name, "", false, ⟨m.primary.name, ""⟩,
      m.foreign.map (·.outline), m.plain.map (·.bare), m.uniqueIndexes, m.plainIndexes,
      m.textIndexes⟩ := fun _ => rfl
  refine ⟨?_, hpointed⟩
  rw [hparts, hparts, hname, hprimary, hforeign, hplain, hunique, hindexes, htexts]

end Block

/-- A model is what its block shows and the properties on the targets of its relations. -/
theorem Model.bare_eq_of_outline {m m' : Model} (h : m.outline = m'.outline)
    (hopposites : m.opposites = m'.opposites) : m.bare = m'.bare := by
  have houtline := congrArg Model.foreign h
  have hforeign : m.foreign.map (·.bare m.name) = m'.foreign.map (·.bare m'.name) := by
    refine map_eq_map_of_imp (map_prod_eq_map houtline hopposites) fun f g hfg => ?_
    obtain ⟨hfield, hopposite⟩ := Prod.mk.inj hfg
    calc f.bare m.name = { f.outline with relation := { f.outline.relation with
          opposite := some (f.relation.oppositeProperty m.name) } } := rfl
      _ = g.bare m'.name := by
        rw [hfield, hopposite]
        rfl
  calc m.bare = { m.outline with foreign := m.foreign.map (·.bare m.name) } := rfl
    _ = m'.bare := by
      rw [h, hforeign]
      rfl

/-! ### Applications read back from their blocks -/

namespace Application

/-- What the blocks of all models declare. -/
def bodies (app : Application) : List (List SchemaLine) :=
  app.models.map (Block.body ⟨.postgresql, false⟩ app)

theorem map_target_foreigns (app : Application) :
    app.foreigns.map (·.target) =
      app.models.flatMap fun m => m.outline.foreign.map (·.relation.target) := by
  rw [foreigns, ← map_snd_declarations, List.flatMap_map, List.map_flatMap]
  refine List.flatMap_congr fun d _ => ?_
  simp [Model.outline, ForeignField.outline, Foreign.target, Function.comp_def]

theorem map_oppositeProperty_foreigns (app : Application) :
    app.foreigns.map (·.oppositeProperty) = (app.models.map (·.opposites)).flatten := by
  rw [foreigns, ← map_snd_declarations, ← List.flatMap_def, List.flatMap_map, List.map_flatMap]
  refine List.flatMap_congr fun d _ => ?_
  rw [List.map_map]
  rfl

variable {components : List Component} {app app' : Application}

/-- The properties on the targets of all relations are those that the blocks of the targets show. -/
theorem opposites_eq_of_bodies (h : Conforms ⟨components, []⟩ app)
    (hbodies : app.bodies = app'.bodies) :
    app.models.map (·.opposites) = app'.models.map (·.opposites) := by
  have houtline : app.models.map (·.outline) = app'.models.map (·.outline) :=
    map_eq_map_of_imp hbodies fun _ _ hbody => (Block.outline_of_body hbody).1
  have htargets : app.foreigns.map (·.target) = app'.foreigns.map (·.target) := by
    have hflat := congrArg (List.flatMap fun m => m.foreign.map (·.relation.target)) houtline
    rwa [List.flatMap_map, List.flatMap_map, ← map_target_foreigns, ← map_target_foreigns] at hflat
  have hshown : app.foreigns.map (·.oppositeProperty) = app'.foreigns.map (·.oppositeProperty) := by
    refine map_eq_map_of_filter htargets fun f hf => ?_
    -- the block of the target shows the properties of all relations that point at it
    obtain ⟨target, htarget, hname, -⟩ := Reading.exists_target h hf
    obtain ⟨target', -, hbody⟩ :=
      forall₂_mem_left (map_eq_map_iff_forall₂.mp hbodies) target htarget
    have hname' : target.name = target'.name := SchemaLine.opening.inj (List.cons.inj hbody).1
    have hpointed := (Block.outline_of_body hbody).2
    rwa [← hname', hname] at hpointed
  rw [map_oppositeProperty_foreigns, map_oppositeProperty_foreigns] at hshown
  refine List.eq_iff_flatten_eq.mpr ⟨hshown, ?_⟩
  rw [List.map_map, List.map_map]
  refine map_eq_map_of_imp houtline fun m m' hm => ?_
  simpa [Model.opposites, Model.outline] using congrArg (·.foreign.length) hm

/-- Files with the same blocks have the same bare models. -/
theorem bare_eq_of_bodies (h : Conforms ⟨components, []⟩ app)
    (hfiles : (app.files.map fun file =>
        (file.filename, file.models.map (Block.body ⟨.postgresql, false⟩ app))) =
      app'.files.map fun file =>
        (file.filename, file.models.map (Block.body ⟨.postgresql, false⟩ app'))) :
    app.bare = app'.bare := by
  have hblocks : (app.files.map fun file => file.models.map (Block.body ⟨.postgresql, false⟩ app)) =
      app'.files.map fun file => file.models.map (Block.body ⟨.postgresql, false⟩ app') :=
    map_eq_map_of_imp hfiles fun _ _ hfile => (Prod.mk.inj hfile).2
  have hbodies : app.bodies = app'.bodies := by
    have hflat := congrArg List.flatten hblocks
    rwa [← List.flatMap_def, ← List.flatMap_def, ← List.map_flatMap, ← List.map_flatMap] at hflat
  have hopposites := opposites_eq_of_bodies h hbodies
  have hmodels : app.models.map (·.bare) = app'.models.map (·.bare) :=
    map_eq_map_of_imp (map_prod_eq_map hbodies hopposites) fun m m' hm => by
      obtain ⟨hbody, hopposite⟩ := Prod.mk.inj hm
      exact Model.bare_eq_of_outline (Block.outline_of_body hbody).1 hopposite
  have hparts : (app.files.map fun file => file.models.map (·.bare)) =
      app'.files.map fun file => file.models.map (·.bare) := by
    rw [models, models, List.map_flatMap, List.map_flatMap, List.flatMap_def,
      List.flatMap_def] at hmodels
    refine List.eq_iff_flatten_eq.mpr ⟨hmodels, ?_⟩
    rw [List.map_map, List.map_map]
    refine map_eq_map_of_imp hblocks fun file file' hfile => ?_
    simpa using congrArg List.length hfile
  refine congrArg Application.mk (map_eq_map_of_imp (map_prod_eq_map hfiles hparts) ?_)
  intro file file' hfile
  obtain ⟨hname, hparts⟩ := Prod.mk.inj hfile
  rw [SchemaFile.bare, SchemaFile.bare, hparts, (Prod.mk.inj hname).1]

end Application

/-- Two accepted applications with files of the same names are rendered alike, with native types and
without comments, exactly when they have the same models in the same files and order, with the same
names, columns, relations and indexes. They may differ in descriptions, labels and in what is
derived, and in whether the property on the target of a relation is written or left to the
default. -/
theorem render_eq_iff_bare_eq {components components' : List Component} {app app' : Application}
    {whole : Accepted ⟨components, []⟩} {whole' : Accepted ⟨components', []⟩}
    (h : Scope.validate ⟨components, []⟩ app = .ok whole)
    (h' : Scope.validate ⟨components', []⟩ app' = .ok whole')
    (hnames : app.files.map (·.filename) = app'.files.map (·.filename)) :
    whole.render ⟨.postgresql, false⟩ = whole'.render ⟨.postgresql, false⟩ ↔
      app.bare = app'.bare := by
  have hconforms : Conforms ⟨components, []⟩ app :=
    Scope.validate_isOk_iff_conforms.mp (by rw [h]; rfl)
  have hconforms' : Conforms ⟨components', []⟩ app' :=
    Scope.validate_isOk_iff_conforms.mp (by rw [h']; rfl)
  obtain rfl := Scope.application_of_validate h
  obtain rfl := Scope.application_of_validate h'
  have htextNames : ∀ (files : List SchemaFile) (app : Application),
      (files.map fun file => (file.filename, file.render ⟨.postgresql, false⟩ app)).map (·.1) =
        files.map (·.filename) := by
    intro files app
    rw [List.map_map]
    rfl
  rw [Accepted.render, Accepted.render,
    TextFiles.ofList_inj (by rwa [htextNames, htextNames])
      (by rw [htextNames]; exact hconforms.corresponds.filenames_nodup)]
  constructor
  · intro htexts
    refine Application.bare_eq_of_bodies hconforms ?_
    have hread := congrArg (List.map fun text => (text.1, Reading.bodiesOf text.2)) htexts
    rw [List.map_map, List.map_map] at hread
    refine Eq.trans ?_ (hread.trans ?_)
    · refine List.map_congr_left fun file hfile => ?_
      rw [Function.comp_apply, Reading.bodiesOf_render hconforms hfile]
    · refine List.map_congr_left fun file hfile => ?_
      rw [Function.comp_apply, Reading.bodiesOf_render hconforms' hfile]
  · intro hbare
    have htexts := texts_bare .postgresql whole.application
    rw [hbare, texts_bare] at htexts
    exact htexts.symm

/-- The staff, with descriptions, another label and a property written out. -/
def staffDescribed : Application :=
  let user : Model := { Model.minimal "user" with
    description := "Who works here.\nAlso who did."
    foreign := [
      { name := "team_id", description := "Where they work.",
        relation := { name := "team", target := "team", mapping := "member",
                      opposite := "user_member" } },
      { name := "manager_id", unique := true,
        relation := { name := "manager", target := "user", mapping := "manager" } }] }
  let team : Model := { Model.minimal "team" with
    material := true
    foreign := [
      { name := "lead_id", relation := { name := "lead", target := "user", mapping := "lead" } }] }
  ⟨[{ filename := "schema-01-staff.prisma", domain := "People", models := [user, team] }]⟩

def staffDescribedComponent : Component := { staffComponent with domain := "People" }

theorem render_eq_staffDescribed :
    ∃ whole whole', Scope.validate ⟨[staffComponent], []⟩ staffApplication = .ok whole ∧
      Scope.validate ⟨[staffDescribedComponent], []⟩ staffDescribed = .ok whole' ∧
      staffApplication.files.map (·.filename) = staffDescribed.files.map (·.filename) ∧
      whole.render ⟨.postgresql, false⟩ = whole'.render ⟨.postgresql, false⟩ := by
  have haccepted : Scope.validate ⟨[staffComponent], []⟩ staffApplication =
      .ok ⟨staffApplication, by decide +kernel⟩ := by
    rw [Scope.validate, dif_pos]
  have haccepted' : Scope.validate ⟨[staffDescribedComponent], []⟩ staffDescribed =
      .ok ⟨staffDescribed, by decide +kernel⟩ := by
    rw [Scope.validate, dif_pos]
  have hbare : staffApplication.bare = staffDescribed.bare := by decide +kernel
  exact ⟨_, _, haccepted, haccepted', rfl,
    (render_eq_iff_bare_eq haccepted haccepted' rfl).mpr hbare⟩

end SchemaGate
