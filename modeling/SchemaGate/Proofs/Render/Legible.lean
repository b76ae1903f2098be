import SchemaGate.Proofs.Render.Reading
import SchemaGate.Proofs.Text.Split

/-!
# Lines are read as they are written

A line of a block whose names are words is read as what it is written for and ends only where it
ends, and so does documentation that holds no line feed (`Legible`). There is one lemma for each
kind of line.
-/

namespace SchemaGate

namespace Reading

/-! ### Lines are read as they are written -/

theorem tokens_indent : tokens "  ".toList = [] := rfl

theorem tokens_blank : tokens " ".toList = [] := rfl

theorem lineOf?_property (name type : List Char) {ts : List Token} (h : ts ≠ [.mark '\x7b']) :
    lineOf? (.word name :: .word type :: ts) = some (.item (property name type ts)) := by
  unfold lineOf?
  split <;> simp_all

theorem property_relation {type : String} (h : ∀ t : Scalar, t.schemaName ≠ type)
    (name : String) (ts : List Token) :
    property name.toList type.toList ts =
      .relation name type (argument "fields" ts) (argument "references" ts) := by
  have hscalar : type.toList ∉ Scalar.all.map (·.schemaName.toList) := by
    rintro hmem
    obtain ⟨t, -, ht⟩ := List.mem_map.mp hmem
    exact h t (String.toList_inj.mp ht)
  rw [property, if_neg (by simpa using hscalar), String.ofList_toList, String.ofList_toList]

theorem text_forward (name target : String) (nullable : Bool) (label : Option String)
    (column references : String) :
    (RelationLine.forward name target nullable label column references).text =
      "  " ++ name ++ " " ++ (target ++ ColumnType.optionalMark nullable) ++ " @relation(" ++
        (label.elim "" fun l => "\"" ++ l ++ "\", ") ++ "fields: [" ++ column ++
          "], references: [" ++ references ++ "], onDelete: Cascade)" := by
  cases label <;> rfl

theorem text_back (name source : String) (unique : Bool) (label : Option String) :
    (RelationLine.back name source unique label).text =
      "  " ++ name ++ " " ++ (source ++ if unique then "?" else "[]") ++
        (label.elim "" fun l => " @relation(\"" ++ l ++ "\")") := by
  cases label <;> rfl

theorem tokens_optionalMark (nullable : Bool) (cs : List Char) :
    tokens ((ColumnType.optionalMark nullable).toList ++ cs) =
      (if nullable then [.mark '?'] else []) ++ tokens cs := by
  cases nullable
  · rfl
  · exact tokens_literal "?" rfl cs

theorem tokens_label {label : Option String} (h : ∀ l ∈ label, IsWord l) (cs : List Char) :
    tokens ((label.elim "" fun l => "\"" ++ l ++ "\", ").toList ++ cs) =
      (label.elim [] fun l => [.mark '"', .word l.toList, .mark '"', .mark ',']) ++ tokens cs := by
  cases label with
  | none => rfl
  | some l =>
    simp only [Option.elim_some, String.toList_append, List.append_assoc]
    rw [tokens_literal "\"" rfl, tokens_word (h l rfl) rfl, tokens_literal "\", " rfl]
    rfl

theorem tokens_forward {name target column references : String} {label : Option String}
    (nullable : Bool) (hname : IsWord name) (htarget : IsWord target) (hcolumn : IsWord column)
    (hreferences : IsWord references) (hlabel : ∀ l ∈ label, IsWord l) :
    tokens (RelationLine.forward name target nullable label column references).text.toList =
      Token.word name.toList :: Token.word target.toList ::
        ((if nullable then [Token.mark '?'] else []) ++
          Token.mark '@' :: Token.word "relation".toList :: Token.mark '(' ::
            ((label.elim [] fun l =>
                [Token.mark '"', Token.word l.toList, Token.mark '"', Token.mark ',']) ++
              Token.word "fields".toList :: Token.mark ':' :: Token.mark '[' ::
                Token.word column.toList :: Token.mark ']' :: Token.mark ',' ::
                  Token.word "references".toList :: Token.mark ':' :: Token.mark '[' ::
                    Token.word references.toList :: Token.mark ']' :: Token.mark ',' ::
                      [Token.word "onDelete".toList, Token.mark ':', Token.word "Cascade".toList,
                        Token.mark ')'])) := by
  have hopen : tokens " @relation(".toList =
    [.mark '@', .word "relation".toList, .mark '('] := rfl
  have hfields : tokens "fields: [".toList = [.word "fields".toList, .mark ':', .mark '['] := rfl
  have hlist : tokens "], references: [".toList =
    [.mark ']', .mark ',', .word "references".toList, .mark ':', .mark '['] := rfl
  have hclose : tokens "], onDelete: Cascade)".toList = [.mark ']', .mark ',',
    .word "onDelete".toList, .mark ':', .word "Cascade".toList, .mark ')'] := rfl
  have hhead : ∀ cs, ((ColumnType.optionalMark nullable).toList ++
      (" @relation(".toList ++ cs)).head?.all (!isWordChar ·) := by
    intro cs
    cases nullable <;> rfl
  simp only [text_forward, String.toList_append, List.append_assoc]
  rw [tokens_literal "  " rfl, tokens_word hname rfl, tokens_literal " " rfl,
    tokens_word htarget (hhead _), tokens_optionalMark, tokens_literal " @relation(" rfl,
    tokens_label hlabel, tokens_literal "fields: [" rfl, tokens_word hcolumn rfl,
    tokens_literal "], references: [" rfl, tokens_word hreferences rfl, tokens_indent,
    tokens_blank, hopen, hfields, hlist, hclose, List.nil_append, List.nil_append]
  rfl

theorem lineOf?_forward {name target column references : String} {label : Option String}
    (nullable : Bool) (hname : IsWord name) (htarget : IsWord target) (hcolumn : IsWord column)
    (hreferences : IsWord references) (hlabel : ∀ l ∈ label, IsWord l)
    (hscalar : ∀ t : Scalar, t.schemaName ≠ target) :
    lineOf? (tokens
      (RelationLine.forward name target nullable label column references).text.toList) =
        some (.item (.relation name target [column] [references])) := by
  rw [tokens_forward nullable hname htarget hcolumn hreferences hlabel,
    lineOf?_property _ _ (by cases nullable <;> simp), property_relation hscalar]
  cases nullable <;> cases label <;> simp [argument, listed]

theorem tokens_back {name source : String} {label : Option String} (unique : Bool)
    (hname : IsWord name) (hsource : IsWord source) (hlabel : ∀ l ∈ label, IsWord l) :
    tokens (RelationLine.back name source unique label).text.toList =
      Token.word name.toList :: Token.word source.toList ::
        ((if unique then [Token.mark '?'] else [Token.mark '[', Token.mark ']']) ++
          label.elim [] fun l => [Token.mark '@', Token.word "relation".toList, Token.mark '(',
            Token.mark '"', Token.word l.toList, Token.mark '"', Token.mark ')']) := by
  have hmark : ∀ cs, tokens ((if unique then "?" else "[]").toList ++ cs) =
      (if unique then [.mark '?'] else [.mark '[', .mark ']']) ++ tokens cs := by
    intro cs
    cases unique <;> exact tokens_literal _ rfl cs
  have hhead : ∀ cs, ((if unique then "?" else "[]").toList ++ cs).head?.all (!isWordChar ·) := by
    intro cs
    cases unique <;> rfl
  have hlabelTokens : tokens (label.elim "" fun l => " @relation(\"" ++ l ++ "\")").toList =
      label.elim [] fun l => [.mark '@', .word "relation".toList, .mark '(', .mark '"',
        .word l.toList, .mark '"', .mark ')'] := by
    cases label with
    | none => rfl
    | some l =>
      simp only [Option.elim_some, String.toList_append, List.append_assoc]
      rw [tokens_literal " @relation(\"" rfl, tokens_word (hlabel l rfl) rfl]
      rfl
  simp only [text_back, String.toList_append, List.append_assoc]
  rw [tokens_literal "  " rfl, tokens_word hname rfl, tokens_literal " " rfl,
    tokens_word hsource (hhead _), hmark, hlabelTokens, tokens_indent, tokens_blank,
    List.nil_append, List.nil_append]

theorem lineOf?_back {name source : String} {label : Option String} (unique : Bool)
    (hname : IsWord name) (hsource : IsWord source) (hlabel : ∀ l ∈ label, IsWord l)
    (hscalar : ∀ t : Scalar, t.schemaName ≠ source) :
    lineOf? (tokens (RelationLine.back name source unique label).text.toList) =
      some (.item (.relation name source [] [])) := by
  rw [tokens_back unique hname hsource hlabel,
    lineOf?_property _ _ (by cases unique <;> cases label <;> simp), property_relation hscalar]
  cases unique <;> cases label <;> simp [argument]

theorem lineOf?_opening {name : String} (h : IsWord name) :
    lineOf? (tokens (SchemaLine.opening name).text.toList) = some (.opening name) := by
  have htext : (SchemaLine.opening name).text = "model " ++ name ++ " \x7b" := rfl
  have hmodel : tokens "model ".toList = [.word "model".toList] := rfl
  have hbrace : tokens " \x7b".toList = [.mark '\x7b'] := rfl
  simp only [htext, String.toList_append, List.append_assoc]
  rw [tokens_literal "model " rfl, tokens_word h rfl, hmodel, hbrace]
  simp [lineOf?]

/-- Behind the first column that an index covers there is a comma or the end. -/
theorem tokens_columns {name : String} {columns : List String}
    (h : ∀ column ∈ name :: columns, IsWord column) :
    tokens ((", ".intercalate (name :: columns)).toList ++ "])".toList) =
      .word name.toList :: if columns = [] then [.mark ']', .mark ')'] else
        .mark ',' :: tokens ((", ".intercalate columns).toList ++ "])".toList) := by
  have hname := h name List.mem_cons_self
  rw [String.toList_intercalate, String.toList_intercalate]
  cases columns with
  | nil =>
    rw [List.map_singleton, List.intercalate_singleton, tokens_word hname rfl]
    rfl
  | cons next columns =>
    have hcomma : tokens ", ".toList = [.mark ','] := rfl
    rw [List.map_cons, List.map_cons, List.intercalate_cons_cons, ← List.map_cons,
      List.append_assoc, List.append_assoc, tokens_word hname rfl, tokens_literal ", " rfl,
      hcomma, if_neg (by simp)]
    rfl

/-- What is read of the columns that an index covers, up to its end. -/
theorem listed_columns {columns : List String} (hne : columns ≠ [])
    (h : ∀ name ∈ columns, IsWord name) :
    listed (tokens ((", ".intercalate columns).toList ++ "])".toList)) = some columns := by
  induction columns with
  | nil => exact absurd rfl hne
  | cons name columns ih =>
    rw [tokens_columns h]
    cases columns with
    | nil => simp [listed]
    | cons next columns =>
      rw [if_neg (by simp), listed, ih (by simp) fun name hname => h name (.tail _ hname),
        String.ofList_toList]
      rfl

/-- The lines of unique and plain indexes differ by what they start with. -/
theorem tokens_index {keyword : String} {w : List Char} (columns : List String)
    (hkeyword : tokens keyword.toList = [.mark '@', .mark '@', .word w, .mark '(', .mark '['])
    (hend : keyword.toList.getLast?.any (!isWordChar ·)) :
    tokens (keyword ++ ", ".intercalate columns ++ "])").toList =
      .mark '@' :: .mark '@' :: .word w :: .mark '(' :: .mark '[' ::
        tokens ((", ".intercalate columns).toList ++ "])".toList) := by
  rw [String.toList_append, String.toList_append, List.append_assoc, tokens_literal keyword hend,
    hkeyword]
  rfl

theorem lineOf?_index {keyword : String} {w : List Char} {columns : List String}
    (hne : columns ≠ []) (h : ∀ name ∈ columns, IsWord name)
    (hkeyword : tokens keyword.toList = [.mark '@', .mark '@', .word w, .mark '(', .mark '['])
    (hend : keyword.toList.getLast?.any (!isWordChar ·)) :
    lineOf? (tokens (keyword ++ ", ".intercalate columns ++ "])").toList) =
      some (.item (.index columns)) := by
  rw [tokens_index columns hkeyword hend, lineOf?, listed_columns hne h]
  rfl

theorem tokens_textIndex {name : String} (trigram : Bool) (h : IsWord name) :
    ∃ ts, tokens (SchemaLine.textIndex trigram name).text.toList =
      .mark '@' :: .mark '@' :: .word "index".toList :: .mark '(' :: .mark '[' ::
        .word name.toList :: .mark (if trigram then '(' else ']') :: ts := by
  have hopen : tokens "  @@index([".toList =
    [.mark '@', .mark '@', .word "index".toList, .mark '(', .mark '['] := rfl
  cases trigram
  · have htext : (SchemaLine.textIndex false name).text = "  @@index([" ++ name ++ "])" := rfl
    rw [htext, String.toList_append, String.toList_append, List.append_assoc,
      tokens_literal "  @@index([" rfl, tokens_word h rfl, hopen]
    exact ⟨_, rfl⟩
  · have htext : (SchemaLine.textIndex true name).text = "  @@index([" ++ name ++
        "(ops: raw(\"gin_trgm_ops\"))], type: Gin)" := rfl
    rw [htext, String.toList_append, String.toList_append, List.append_assoc,
      tokens_literal "  @@index([" rfl, tokens_word h rfl, hopen]
    exact ⟨_, rfl⟩

theorem lineOf?_textIndex {name : String} (trigram : Bool) (h : IsWord name) :
    lineOf? (tokens (SchemaLine.textIndex trigram name).text.toList) =
      some (.item (.index [name])) := by
  obtain ⟨ts, hts⟩ := tokens_textIndex trigram h
  rw [hts]
  cases trigram <;> simp [lineOf?, listed]

/-- The attributes of a column's type as they are read. -/
def typeAttributes (type : ColumnType) : List String :=
  type.attributes.map (fun a => .ofList (a.toList.drop 1)) ++ type.native.toList.map fun _ => "db"

theorem tokens_intercalate (parts : List String) :
    tokens (" ".intercalate parts).toList = parts.flatMap fun part => tokens part.toList := by
  rw [String.toList_intercalate]
  induction parts with
  | nil => rfl
  | cons part parts ih =>
    cases parts with
    | nil => simp
    | cons next parts =>
      rw [List.map_cons, List.map_cons, List.intercalate_cons_cons, ← List.map_cons,
        List.append_assoc, List.flatMap_cons, ← ih]
      exact tokensAfter_append rfl _ _

theorem isWord_schemaName (t : Scalar) : IsWord t.schemaName := by
  cases t <;> exact ⟨by decide, List.all_eq_true.mp rfl⟩

theorem tokens_columnType (type : ColumnType) :
    tokens type.text.toList = .word type.scalar.schemaName.toList ::
      ((if type.nullable then [.mark '?'] else []) ++
        (type.attributes ++ type.native.toList).flatMap fun a => tokens a.toList) := by
  have hhead : (ColumnType.optionalMark type.nullable).toList.head?.all (!isWordChar ·) := by
    cases type.nullable <;> rfl
  have hname : tokens (type.scalar.schemaName ++ ColumnType.optionalMark type.nullable).toList =
      .word type.scalar.schemaName.toList :: if type.nullable then [.mark '?'] else [] := by
    rw [String.toList_append, tokens_word (isWord_schemaName _) hhead]
    cases type.nullable <;> rfl
  rw [ColumnType.text, tokens_intercalate, List.cons_append, List.flatMap_cons, hname,
    List.cons_append]

/-- The attributes that the columns of a model can have beside their types. -/
def columnKeys : List (List String) := [[], ["@id"], ["@unique"]]

/-- A native attribute is read as the one of the database. -/
theorem tokens_nativeAttribute {p : Provider} {t : Scalar} {a : String}
    (h : p.nativeAttribute? t = some a) :
    ∃ ts, tokens a.toList = .mark '@' :: .word "db".toList :: ts ∧ attributes ts = [] := by
  have hscalar : t.nativeAttribute? = some a := by
    unfold Provider.nativeAttribute? at h
    split at h
    · exact h
    · cases h
  cases t <;> cases hscalar <;> exact ⟨_, rfl, rfl⟩

theorem attributes_columnType (p : Provider) (t : Scalar) (nullable : Bool) {keys : List String}
    (hkeys : keys ∈ columnKeys) :
    ∃ ts, tokens (ColumnType.forProvider p t nullable keys).text.toList =
        .word t.schemaName.toList :: ts ∧ ts ≠ [.mark '\x7b'] ∧
      attributes ts = typeAttributes (.forProvider p t nullable keys) := by
  have hid : tokens ['@', 'i', 'd'] = [.mark '@', .word ['i', 'd']] := rfl
  have hunique : tokens ['@', 'u', 'n', 'i', 'q', 'u', 'e'] =
    [.mark '@', .word ['u', 'n', 'i', 'q', 'u', 'e']] := rfl
  refine ⟨_, tokens_columnType _, ?_⟩
  simp only [columnKeys, List.mem_cons, List.not_mem_nil, or_false] at hkeys
  cases hnative : p.nativeAttribute? t with
  | none =>
    rcases hkeys with rfl | rfl | rfl <;> cases nullable <;>
      simp [ColumnType.forProvider, hnative, hid, hunique, attributes, typeAttributes]
  | some a =>
    obtain ⟨ts, hts, hattributes⟩ := tokens_nativeAttribute hnative
    rcases hkeys with rfl | rfl | rfl <;> cases nullable <;>
      simp [ColumnType.forProvider, hnative, hts, hid, hunique, hattributes, attributes,
        typeAttributes]

theorem tokens_column {name : String} (h : IsWord name) (type : ColumnType) :
    tokens (SchemaLine.column name type).text.toList =
      .word name.toList :: tokens type.text.toList := by
  have htext : (SchemaLine.column name type).text = "  " ++ name ++ " " ++ type.text := rfl
  simp only [htext, String.toList_append, List.append_assoc]
  rw [tokens_literal "  " rfl, tokens_word h rfl, tokens_literal " " rfl, tokens_indent,
    tokens_blank, List.nil_append, List.nil_append]

theorem lineOf?_column {name : String} (h : IsWord name) (p : Provider) (t : Scalar)
    (nullable : Bool) {keys : List String} (hkeys : keys ∈ columnKeys) :
    lineOf? (tokens (SchemaLine.column name (.forProvider p t nullable keys)).text.toList) =
      some (.item (.column name (typeAttributes (.forProvider p t nullable keys)))) := by
  have hscalar : (Scalar.all.map (·.schemaName.toList)).contains t.schemaName.toList := by
    cases t <;> decide
  obtain ⟨ts, hts, hne, hattributes⟩ := attributes_columnType p t nullable hkeys
  rw [tokens_column h, hts, lineOf?_property _ _ hne, property, if_pos hscalar, hattributes,
    String.ofList_toList]

theorem text_doc (indented : Bool) (words : String) :
    (SchemaLine.doc indented words).text =
      SchemaLine.docMark indented ++ if words = "" then "" else " " ++ words := by
  unfold SchemaLine.text
  split
  · next hdoc =>
    obtain ⟨rfl, rfl⟩ := SchemaLine.doc.inj hdoc
    exact String.append_empty.symm
  · next hwords hdoc =>
    obtain ⟨rfl, rfl⟩ := SchemaLine.doc.inj hdoc
    rw [if_neg hwords]
    exact String.append_assoc
  all_goals contradiction

theorem lineOf?_doc (indented : Bool) (words : String) :
    lineOf? (tokens (SchemaLine.doc indented words).text.toList) = some .remark := by
  rw [text_doc, String.toList_append]
  cases indented <;> rfl

theorem lineOf?_remark {line : SchemaLine} (h : line.isRemark) :
    lineOf? (tokens line.text.toList) = some .remark := by
  cases line with
  | doc indented words => exact lineOf?_doc indented words
  | title words =>
    have htext : (SchemaLine.title words).text = "  // " ++ words := rfl
    rw [htext, String.toList_append, tokens_literal "  // " rfl]
    rfl
  | rule => rfl
  | blank => rfl
  | _ => cases h

/-! ### Whole lines -/

/-- What a line is written for. -/
def reading : SchemaLine → Line
  | .opening name => .opening name
  | .column name type => .item (.column name (typeAttributes type))
  | .relation (.forward name target _ _ column references) =>
    .item (.relation name target [column] [references])
  | .relation (.back name source ..) => .item (.relation name source [] [])
  | .uniqueIndex columns => .item (.index columns)
  | .plainIndex columns => .item (.index columns)
  | .textIndex _ name => .item (.index [name])
  | .closing => .closing
  | .doc .. | .rule | .title _ | .blank => .remark

/-- A line that is read as what it is written for, and ends only where it ends. -/
structure Legible (line : SchemaLine) : Prop where
  feed : '\n' ∉ line.text.toList
  read : lineOf? (tokens line.text.toList) = some (reading line)

theorem IsWord.feed {s : String} (h : IsWord s) : '\n' ∉ s.toList := by
  intro hmem
  exact absurd (h.letters _ hmem) (by decide)

theorem legible_doc {indented : Bool} {words : String} (h : '\n' ∉ words.toList) :
    Legible (.doc indented words) := by
  refine ⟨?_, lineOf?_doc indented words⟩
  rw [text_doc, String.toList_append, List.mem_append]
  rintro (hmem | hmem)
  · cases indented <;> exact absurd hmem (by decide)
  · split at hmem
    · exact absurd hmem (by decide)
    · simp [h] at hmem

theorem legible_opening {name : String} (h : IsWord name) : Legible (.opening name) := by
  refine ⟨?_, lineOf?_opening h⟩
  rw [show (SchemaLine.opening name).text = "model " ++ name ++ " \x7b" from rfl]
  simp [h.feed]

theorem legible_forward {name target column references : String} {label : Option String}
    (nullable : Bool) (hname : IsWord name) (htarget : IsWord target) (hcolumn : IsWord column)
    (hreferences : IsWord references) (hlabel : ∀ l ∈ label, IsWord l)
    (hscalar : ∀ t : Scalar, t.schemaName ≠ target) :
    Legible (.relation (.forward name target nullable label column references)) := by
  refine ⟨?_, lineOf?_forward nullable hname htarget hcolumn hreferences hlabel hscalar⟩
  have hmark : '\n' ∉ (ColumnType.optionalMark nullable).toList := by cases nullable <;> decide
  have hwritten : '\n' ∉ (label.elim "" fun l => "\"" ++ l ++ "\", ").toList := by
    cases label with
    | none => simp
    | some l => simp [(hlabel l rfl).feed]
  change '\n' ∉ (RelationLine.forward ..).text.toList
  rw [text_forward]
  simp [hname.feed, htarget.feed, hmark, hwritten, hcolumn.feed, hreferences.feed]

theorem legible_back {name source : String} {label : Option String} (unique : Bool)
    (hname : IsWord name) (hsource : IsWord source) (hlabel : ∀ l ∈ label, IsWord l)
    (hscalar : ∀ t : Scalar, t.schemaName ≠ source) :
    Legible (.relation (.back name source unique label)) := by
  refine ⟨?_, lineOf?_back unique hname hsource hlabel hscalar⟩
  have hmark : '\n' ∉ (if unique then "?" else "[]").toList := by cases unique <;> decide
  have hwritten : '\n' ∉ (label.elim "" fun l => " @relation(\"" ++ l ++ "\")").toList := by
    cases label with
    | none => simp
    | some l => simp [(hlabel l rfl).feed]
  change '\n' ∉ (RelationLine.back ..).text.toList
  rw [text_back]
  simp [hname.feed, hsource.feed, hmark, hwritten]

theorem feed_not_mem_intercalate {sep : String} {parts : List String} (hsep : '\n' ∉ sep.toList)
    (h : ∀ part ∈ parts, '\n' ∉ part.toList) : '\n' ∉ (sep.intercalate parts).toList := by
  rw [String.toList_intercalate]
  intro hmem
  rcases mem_intercalate hmem with hmem | ⟨_, hpart, hmem⟩
  · exact hsep hmem
  · obtain ⟨part, hmapped, rfl⟩ := List.mem_map.mp hpart
    exact h part hmapped hmem

theorem legible_column {name : String} (h : IsWord name) (p : Provider) (t : Scalar)
    (nullable : Bool) {keys : List String} (hkeys : keys ∈ columnKeys) :
    Legible (.column name (.forProvider p t nullable keys)) := by
  refine ⟨?_, lineOf?_column h p t nullable hkeys⟩
  have hname : '\n' ∉ (t.schemaName ++ ColumnType.optionalMark nullable).toList := by
    cases t <;> cases nullable <;> decide
  have hkeyFeed : ∀ key ∈ keys, '\n' ∉ key.toList := by
    simp only [columnKeys, List.mem_cons, List.not_mem_nil, or_false] at hkeys
    rcases hkeys with rfl | rfl | rfl <;> decide
  have hnative : ∀ a ∈ p.nativeAttribute? t, '\n' ∉ a.toList := by
    intro a ha
    unfold Provider.nativeAttribute? at ha
    split at ha
    · cases t <;> cases ha <;> decide
    · cases ha
  have htype : '\n' ∉ (ColumnType.forProvider p t nullable keys).text.toList := by
    refine feed_not_mem_intercalate (by decide) ?_
    rw [List.cons_append, List.forall_mem_cons, List.forall_mem_append]
    exact ⟨hname, hkeyFeed, fun a ha => hnative a (Option.mem_toList.mp ha)⟩
  rw [show (SchemaLine.column name (.forProvider p t nullable keys)).text =
    "  " ++ name ++ " " ++ (ColumnType.forProvider p t nullable keys).text from rfl]
  simp [h.feed, htype]

theorem feed_not_mem_index {keyword : String} {columns : List String}
    (hkeyword : '\n' ∉ keyword.toList) (h : ∀ name ∈ columns, IsWord name) :
    '\n' ∉ (keyword ++ ", ".intercalate columns ++ "])").toList := by
  have hcolumns : '\n' ∉ (", ".intercalate columns).toList :=
    feed_not_mem_intercalate (by decide) fun name hname => (h name hname).feed
  rw [String.toList_append, String.toList_append, List.mem_append, List.mem_append]
  rintro ((hmem | hmem) | hmem)
  · exact hkeyword hmem
  · exact hcolumns hmem
  · exact absurd hmem (by decide)

theorem legible_uniqueIndex {columns : List String} (hne : columns ≠ [])
    (h : ∀ name ∈ columns, IsWord name) : Legible (.uniqueIndex columns) :=
  ⟨feed_not_mem_index (by decide) h, lineOf?_index hne h rfl rfl⟩

theorem legible_plainIndex {columns : List String} (hne : columns ≠ [])
    (h : ∀ name ∈ columns, IsWord name) : Legible (.plainIndex columns) :=
  ⟨feed_not_mem_index (by decide) h, lineOf?_index hne h rfl rfl⟩

theorem legible_textIndex {name : String} (trigram : Bool) (h : IsWord name) :
    Legible (.textIndex trigram name) := by
  refine ⟨?_, lineOf?_textIndex trigram h⟩
  cases trigram with
  | false =>
    rw [show (SchemaLine.textIndex false name).text = "  @@index([" ++ name ++ "])" from rfl]
    simp [h.feed]
  | true =>
    rw [show (SchemaLine.textIndex true name).text = "  @@index([" ++ name ++
      "(ops: raw(\"gin_trgm_ops\"))], type: Gin)" from rfl]
    simp [h.feed]

end Reading

end SchemaGate
