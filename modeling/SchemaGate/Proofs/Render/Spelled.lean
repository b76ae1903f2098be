import SchemaGate.Proofs.Render.Legible
import SchemaGate.Proofs.Repeats

/-!
# Declarations are read back whole

What `lineOf?` says of a line is what other lines refer to. The rest of a declaration is in its text
as well: a line that declares something in words (`Spelled`) can be read back as it was written
(`declarationOf?_text`), where the provider has a type of its own for each kind of column.
-/

namespace SchemaGate

namespace Reading

/-- A line that declares something in words, as it is written for a provider. -/
inductive Spelled (p : Provider) : SchemaLine → Prop
  | opening {name : String} (hname : IsWord name) : Spelled p (.opening name)
  | column {name : String} (hname : IsWord name) (t : Scalar) (nullable : Bool)
      {keys : List String} (hkeys : keys ∈ columnKeys) :
      Spelled p (.column name (.forProvider p t nullable keys))
  | forward {name target column references : String} {label : Option String} (nullable : Bool)
      (hname : IsWord name) (htarget : IsWord target) (hcolumn : IsWord column)
      (hreferences : IsWord references) (hlabel : ∀ l ∈ label, IsWord l)
      (hscalar : ∀ t : Scalar, t.schemaName ≠ target) :
      Spelled p (.relation (.forward name target nullable label column references))
  | back {name source : String} {label : Option String} (unique : Bool) (hname : IsWord name)
      (hsource : IsWord source) (hlabel : ∀ l ∈ label, IsWord l)
      (hscalar : ∀ t : Scalar, t.schemaName ≠ source) :
      Spelled p (.relation (.back name source unique label))
  | uniqueIndex {columns : List String} (hne : columns ≠ []) (h : ∀ name ∈ columns, IsWord name) :
      Spelled p (.uniqueIndex columns)
  | plainIndex {columns : List String} (hne : columns ≠ []) (h : ∀ name ∈ columns, IsWord name) :
      Spelled p (.plainIndex columns)
  | textIndex {name : String} (hname : IsWord name) :
      Spelled p (.textIndex p.hasTrigramIndexes name)
  | closing : Spelled p .closing

theorem Spelled.legible {p : Provider} {line : SchemaLine} (h : Spelled p line) :
    Legible line := by
  cases h with
  | opening hname => exact legible_opening hname
  | column hname t nullable hkeys => exact legible_column hname p t nullable hkeys
  | forward nullable hname htarget hcolumn hreferences hlabel hscalar =>
    exact legible_forward nullable hname htarget hcolumn hreferences hlabel hscalar
  | back unique hname hsource hlabel hscalar =>
    exact legible_back unique hname hsource hlabel hscalar
  | uniqueIndex hne h => exact legible_uniqueIndex hne h
  | plainIndex hne h => exact legible_plainIndex hne h
  | textIndex hname => exact legible_textIndex _ hname
  | closing => exact ⟨by decide, rfl⟩

/-! ### The rest of a declaration -/

/-- All types of columns. -/
def columnTypes (p : Provider) : List ColumnType :=
  Scalar.all.flatMap fun t => [false, true].flatMap fun nullable =>
    columnKeys.map (.forProvider p t nullable)

def columnTypeOf? (p : Provider) (ts : List Token) : Option ColumnType :=
  (columnTypes p).find? fun type => tokens type.text.toList == ts

/-- The word in quotes. -/
def labelIn : List Token → Option String
  | .mark '"' :: .word l :: _ => some (.ofList l)
  | _ :: ts => labelIn ts
  | [] => none

/-- A relation is held where it names a column. Its type may be marked as optional. -/
def relationOf (name type : String) (fields references : List String) (ts : List Token) :
    RelationLine :=
  let optional : Bool := ts[2]? = some (Token.mark '?')
  match fields, references with
  | [column], [key] => .forward name type optional (labelIn ts) column key
  | _, _ => .back name type optional (labelIn ts)

/-- An index is told by its keyword, and a full-text index by what its column says more. -/
def indexOf (columns : List String) (ts : List Token) : SchemaLine :=
  if ts[2]? = some (Token.word "unique".toList) then .uniqueIndex columns
  else match columns, ts[6]? with
    | [name], some (Token.mark '(') => .textIndex true name
    | _, _ => .plainIndex columns

/-- The declaration that a line is written for. -/
def declarationOf? (p : Provider) (ts : List Token) : Option SchemaLine :=
  match lineOf? ts with
  | some (.opening name) => some (.opening name)
  | some .closing => some .closing
  | some (.item (.column name _)) => (columnTypeOf? p ts.tail).map (.column name ·)
  | some (.item (.relation name type fields references)) =>
    some (.relation (relationOf name type fields references ts))
  | some (.item (.index columns)) => some (indexOf columns ts)
  | _ => none

/-- With native types no two kinds of columns are written alike. -/
theorem nodup_tokens_columnTypes :
    ((columnTypes .postgresql).map fun type => tokens type.text.toList).Nodup := by
  simp only [tokens_columnType]
  decide +kernel

theorem columnTypeOf?_text (t : Scalar) (nullable : Bool) {keys : List String}
    (hkeys : keys ∈ columnKeys) :
    columnTypeOf? .postgresql
        (tokens (ColumnType.forProvider .postgresql t nullable keys).text.toList) =
      some (.forProvider .postgresql t nullable keys) := by
  have hmem : ColumnType.forProvider .postgresql t nullable keys ∈ columnTypes .postgresql := by
    rw [columnTypes, List.mem_flatMap]
    refine ⟨t, t.mem_all, List.mem_flatMap.mpr ⟨nullable, ?_, List.mem_map_of_mem hkeys⟩⟩
    cases nullable <;> simp
  exact find?_eq_some_of_nodup (f := fun type : ColumnType => tokens type.text.toList)
    nodup_tokens_columnTypes hmem

theorem relationOf_forward {name target column references : String} {label : Option String}
    (nullable : Bool) (hname : IsWord name) (htarget : IsWord target) (hcolumn : IsWord column)
    (hreferences : IsWord references) (hlabel : ∀ l ∈ label, IsWord l) :
    relationOf name target [column] [references] (tokens
        (RelationLine.forward name target nullable label column references).text.toList) =
      .forward name target nullable label column references := by
  rw [tokens_forward nullable hname htarget hcolumn hreferences hlabel]
  cases nullable <;> cases label <;> simp [relationOf, labelIn]

theorem relationOf_back {name source : String} {label : Option String} (unique : Bool)
    (hname : IsWord name) (hsource : IsWord source) (hlabel : ∀ l ∈ label, IsWord l) :
    relationOf name source [] []
        (tokens (RelationLine.back name source unique label).text.toList) =
      .back name source unique label := by
  rw [tokens_back unique hname hsource hlabel]
  cases unique <;> cases label <;> simp [relationOf, labelIn]

theorem indexOf_uniqueIndex (columns : List String) :
    indexOf columns (tokens (SchemaLine.uniqueIndex columns).text.toList) =
      .uniqueIndex columns := by
  change indexOf columns (tokens ("  @@unique([" ++ _ ++ _).toList) = _
  rw [tokens_index columns (w := "unique".toList) rfl rfl]
  rfl

theorem indexOf_plainIndex {columns : List String} (h : ∀ name ∈ columns, IsWord name) :
    indexOf columns (tokens (SchemaLine.plainIndex columns).text.toList) =
      .plainIndex columns := by
  change indexOf columns (tokens ("  @@index([" ++ _ ++ _).toList) = _
  rw [tokens_index columns (w := "index".toList) rfl rfl]
  match columns with
  | [] => rfl
  | [name] =>
    rw [tokens_columns h, if_pos rfl]
    rfl
  | _ :: _ :: _ => rfl

theorem indexOf_textIndex {name : String} (h : IsWord name) :
    indexOf [name] (tokens (SchemaLine.textIndex true name).text.toList) =
      .textIndex true name := by
  obtain ⟨ts, hts⟩ := tokens_textIndex true h
  rw [hts]
  rfl

/-- A line that declares something in words is read back as it was written. -/
theorem declarationOf?_text {line : SchemaLine} (h : Spelled .postgresql line) :
    declarationOf? .postgresql (tokens line.text.toList) = some line := by
  rw [declarationOf?, h.legible.read]
  cases h with
  | opening | closing => rfl
  | column hname t nullable hkeys =>
    change (columnTypeOf? .postgresql (tokens _).tail).map _ = _
    rw [tokens_column hname, List.tail_cons, columnTypeOf?_text t nullable hkeys]
    rfl
  | forward nullable hname htarget hcolumn hreferences hlabel =>
    exact congrArg (some ∘ SchemaLine.relation)
      (relationOf_forward nullable hname htarget hcolumn hreferences hlabel)
  | back unique hname hsource hlabel =>
    exact congrArg (some ∘ SchemaLine.relation) (relationOf_back unique hname hsource hlabel)
  | uniqueIndex => exact congrArg some (indexOf_uniqueIndex _)
  | plainIndex hne h => exact congrArg some (indexOf_plainIndex h)
  | textIndex hname => exact congrArg some (indexOf_textIndex hname)

/-- A remark declares nothing. -/
theorem declarationOf?_remark {line : SchemaLine} (h : line.isRemark) (p : Provider) :
    declarationOf? p (tokens line.text.toList) = none := by
  rw [declarationOf?, lineOf?_remark h]

/-- The declarations among lines are read off their texts. -/
theorem filterMap_declarationOf? {lines : List SchemaLine}
    (h : ∀ line ∈ declaringLines lines, Spelled .postgresql line) :
    (lines.filterMap fun line => declarationOf? .postgresql (tokens line.text.toList)) =
      declaringLines lines := by
  rw [← filterMap_declaringLines fun line hremark => declarationOf?_remark hremark _,
    List.filterMap_congr fun line hline => declarationOf?_text (h line hline)]
  exact List.filterMap_some

end Reading

end SchemaGate
