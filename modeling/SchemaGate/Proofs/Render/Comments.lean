import SchemaGate.Proofs.Render.LegibleFiles

/-!
# Comments are only comments

Without its lines of documentation, a file that is rendered with comments is the file that is
rendered without them (`withoutDocs_render_iff`), and no description can change that. A label can:
what follows a line feed in it is no documentation unless it is marked as such by itself
(`label_outside_docs`).
-/

namespace SchemaGate

/-- A line whose first characters, behind blanks, mark it as documentation. -/
def isDocLine (line : List Char) : Bool :=
  (SchemaLine.docMark false).toList.isPrefixOf (line.dropWhile Text.isBlank)

/-- A text without its lines of documentation. -/
def withoutDocs (text : String) : String :=
  .ofList (['\n'].intercalate ((Text.split '\n' text.toList).filter fun line => !isDocLine line))

def SchemaLine.isDoc : SchemaLine → Bool
  | doc .. => true
  | _ => false

/-- The lines of a line's text that are no documentation. -/
def SchemaLine.undocumented (line : SchemaLine) : List (List Char) :=
  (Text.split '\n' line.text.toList).filter fun piece => !isDocLine piece

/-! ### Lines -/

namespace Reading

theorem not_isWordChar_of_isBlank {c : Char} (h : Text.isBlank c) : ¬ isWordChar c := by
  have halpha : c.isAlpha = (c.isUpper || c.isLower) := rfl
  have hupper : c.isUpper → 65 ≤ c.toNat ∧ c.toNat ≤ 90 := fun h => of_decide_eq_true h
  have hlower : c.isLower → 97 ≤ c.toNat ∧ c.toNat ≤ 122 := fun h =>
    (Bool.and_eq_true_iff.mp h).imp of_decide_eq_true of_decide_eq_true
  have hdigit : c.isDigit → 48 ≤ c.toNat ∧ c.toNat ≤ 57 := fun h =>
    (Bool.and_eq_true_iff.mp h).imp of_decide_eq_true of_decide_eq_true
  simp only [Text.isBlank, Bool.or_eq_true, Bool.and_eq_true, decide_eq_true_eq, beq_iff_eq] at h
  simp only [isWordChar, Char.isAlphanum, halpha, Bool.or_eq_true, beq_iff_eq]
  rintro (((hc | hc) | hc) | rfl)
  · have := hupper hc
    omega
  · have := hlower hc
    omega
  · have := hdigit hc
    omega
  · exact absurd h (by decide)

/-- No line begins with a mark but two slashes, a closing brace and the sign of an attribute. -/
theorem lineOf?_mark {c : Char} (hslash : c ≠ '/') (hbrace : c ≠ '\x7d') (hat : c ≠ '@')
    (ts : List Token) : lineOf? (.mark c :: ts) = none := by
  unfold lineOf?
  split <;> simp_all

/-- A line of documentation is read as a remark where it is read. -/
theorem eq_remark_of_isDocLine {line : List Char} (h : isDocLine line) {l : Line}
    (hread : lineOf? (tokens line) = some l) : l = .remark := by
  induction line with
  | nil => exact absurd h (by decide)
  | cons c line ih =>
    by_cases hblank : Text.isBlank c
    · have htokens : tokens (c :: line) = (if c = ' ' then [] else [.mark c]) ++ tokens line := by
        rw [tokens, tokensAfter, if_neg (not_isWordChar_of_isBlank hblank)]
        split <;> rfl
      by_cases hspace : c = ' '
      · rw [htokens, if_pos hspace] at hread
        refine ih ?_ hread
        rwa [isDocLine, List.dropWhile_cons_of_pos hblank] at h
      -- no line begins with another blank
      · rw [htokens, if_neg hspace] at hread
        have hslash : c ≠ '/' := by rintro rfl; exact absurd hblank (by decide)
        have hbrace : c ≠ '\x7d' := by rintro rfl; exact absurd hblank (by decide)
        have hat : c ≠ '@' := by rintro rfl; exact absurd hblank (by decide)
        rw [List.singleton_append, lineOf?_mark hslash hbrace hat] at hread
        cases hread
    · rw [isDocLine, List.dropWhile_cons_of_neg hblank, List.isPrefixOf_iff_prefix] at h
      obtain ⟨words, hwords⟩ := h
      rw [← hwords] at hread
      exact (Option.some.inj hread).symm

open SchemaLine (undocumented)

theorem text_label (domain : String) :
    (SchemaLine.doc false s!"@namespace {domain}").text = "/// @namespace " ++ domain := by
  have hlabel : s!"@namespace {domain}" = "@namespace " ++ domain := rfl
  have hne : "@namespace " ++ domain ≠ "" := by
    intro h
    simpa using congrArg String.toList h
  rw [text_doc, hlabel, if_neg hne, ← String.append_assoc, ← String.append_assoc]
  rfl

/-- Legible documentation is taken out as a whole. -/
theorem undocumented_doc {indented : Bool} {words : String}
    (h : Legible (.doc indented words)) : undocumented (.doc indented words) = [] := by
  have hdoc : isDocLine (SchemaLine.doc indented words).text.toList := by
    rw [text_doc, String.toList_append]
    cases indented <;> rfl
  rw [undocumented, Text.split_of_not_mem h.feed, List.filter_cons_of_neg (by simpa using hdoc)]
  rfl

/-- What follows the first line feed of a label is taken out only where it is marked by itself. -/
theorem undocumented_label (domain : String) :
    undocumented (.doc false s!"@namespace {domain}") =
      (Text.split '\n' domain.toList).tail.filter fun line => !isDocLine line := by
  obtain ⟨first, rest, hsplit⟩ :=
    List.exists_cons_of_ne_nil (Text.split_ne_nil '\n' domain.toList)
  have hdoc : isDocLine ("/// @namespace ".toList ++ first) := rfl
  rw [undocumented, text_label, String.toList_append, Text.split_append (by decide), hsplit]
  exact List.filter_cons_of_neg (by simpa using hdoc)

/-- Every other legible line stays. -/
theorem undocumented_of_legible {line : SchemaLine} (h : Legible line)
    (hdoc : line.isDoc = false) : undocumented line = [line.text.toList] := by
  have hkept : ¬ isDocLine line.text.toList := by
    intro hmark
    have hremark := eq_remark_of_isDocLine hmark h.read
    cases line with
    | doc => cases hdoc
    | rule => exact absurd hmark (by decide)
    | title words =>
      have htext : (SchemaLine.title words).text = "  // " ++ words := rfl
      rw [htext, String.toList_append] at hmark
      cases hmark
    | blank => exact absurd hmark (by decide)
    | relation line => cases line <;> cases hremark
    | _ => cases hremark
  rw [undocumented, Text.split_of_not_mem h.feed, List.filter_cons_of_pos (by simpa using hkept)]
  rfl

theorem filter_split_join (lines : List SchemaLine) :
    (Text.split '\n' (SchemaLine.join lines).toList).filter (fun line => !isDocLine line) =
      lines.flatMap undocumented ++ [[]] := by
  have hend : ([[]] : List (List Char)).filter (fun line => !isDocLine line) = [[]] := rfl
  rw [Text.split_eq_splitOn, toList_join, splitOn_flatMap_concat, List.filter_append, hend,
    List.filter_flatMap]
  congr 1
  refine List.flatMap_congr fun line _ => ?_
  rw [undocumented, Text.split_eq_splitOn]

/-- Lines without their documentation make a text of legible lines when these are what is kept of
them. -/
theorem withoutDocs_join_eq_iff {lines kept : List SchemaLine} (h : ∀ line ∈ kept, Legible line) :
    withoutDocs (SchemaLine.join lines) = SchemaLine.join kept ↔
      lines.flatMap undocumented = kept.map (·.text.toList) := by
  have hkept := splitOn_join fun line hline => (h line hline).feed
  have hdropped := filter_split_join lines
  have hfeed : ∀ line ∈ lines.flatMap undocumented ++ [[]], '\n' ∉ line := by
    intro line hline
    rw [← hdropped] at hline
    exact Text.not_mem_of_mem_split (List.mem_of_mem_filter hline)
  rw [withoutDocs, hdropped, ← String.toList_inj, String.toList_ofList]
  constructor
  · intro heq
    rw [← heq, List.splitOn_intercalate _ hfeed (by simp)] at hkept
    exact List.append_cancel_right hkept
  · intro heq
    rw [heq, ← hkept, List.intercalate_splitOn]

end Reading

/-! ### Blocks with and without comments -/

/-- The lines that are no documentation. -/
def codeLines (lines : List SchemaLine) : List SchemaLine :=
  lines.filter fun line => !line.isDoc

theorem codeLines_append (ls ks : List SchemaLine) :
    codeLines (ls ++ ks) = codeLines ls ++ codeLines ks :=
  List.filter_append ls ks

theorem codeLines_intercalate (parts : List (List SchemaLine)) :
    codeLines ([SchemaLine.blank].intercalate parts) =
      [SchemaLine.blank].intercalate (parts.map codeLines) :=
  filter_intercalate _ _ parts

namespace Block

variable (provider : Provider)

theorem isDoc_of_mem_docs {indented : Bool} {description : String} {line : SchemaLine}
    (h : line ∈ SchemaLine.docs indented description) : line.isDoc := by
  obtain ⟨_, -, rfl⟩ := List.mem_map.mp h
  rfl

theorem codeLines_header (file : SchemaFile) (model : Model) :
    codeLines (header ⟨provider, true⟩ file model) = [] := by
  refine filter_not_eq_nil fun line hline => ?_
  obtain ⟨-, hdocs | rfl | rfl | rfl⟩ := Reading.mem_header _ hline
  · exact isDoc_of_mem_docs hdocs
  all_goals rfl

theorem codeLines_column (description name : String) (scalar : Scalar) (nullable : Bool)
    (attributes : List String) :
    codeLines (column ⟨provider, true⟩ description name scalar nullable attributes) =
      column ⟨provider, false⟩ description name scalar nullable attributes := by
  have hdocs : codeLines (SchemaLine.docs true description) = [] :=
    filter_not_eq_nil fun line hline => isDoc_of_mem_docs hline
  change codeLines (SchemaLine.docs true description ++ [_]) = _
  rw [codeLines_append, hdocs]
  rfl

theorem codeLines_columns (model : Model) :
    (columns ⟨provider, true⟩ model).map codeLines = columns ⟨provider, false⟩ model := by
  simp only [columns, List.map_append, List.map_cons, List.map_map, Function.comp_def,
    codeLines_column]

theorem isDoc_eq_false_of_mem_relationSection {app : Application} {model : Model}
    {line : SchemaLine} (h : line ∈ relationSection app model) : line.isDoc = false := by
  unfold relationSection at h
  split at h
  · simp at h
  · simp only [SchemaLine.heading, List.mem_append, List.mem_cons, List.not_mem_nil, or_false,
      List.mem_map] at h
    rcases h with (rfl | rfl | rfl) | ⟨_, -, rfl⟩ <;> rfl

theorem codeLines_behindBlank (part : List SchemaLine) (h : ∀ line ∈ part, line.isDoc = false) :
    codeLines (behindBlank part) = behindBlank part := by
  refine filter_not_eq_self fun line hline => ?_
  rcases Reading.mem_of_mem_behindBlank hline with rfl | hline
  · rfl
  · exact h line hline

/-- A block without comments has the lines of the block with comments that are none. -/
theorem codeLines_lines (app : Application) (file : SchemaFile) (model : Model) :
    codeLines (lines ⟨provider, true⟩ app file model) =
      lines ⟨provider, false⟩ app file model := by
  have hrelations : ∀ line ∈ relationSection app model, line.isDoc = false :=
    fun _ => isDoc_eq_false_of_mem_relationSection
  have hindexes : ∀ line ∈ indexes ⟨provider, true⟩ model, line.isDoc = false := by
    intro line hline
    rcases mem_indexes hline with ⟨_, -, rfl⟩ | ⟨_, -, rfl⟩ | ⟨_, -, rfl⟩ <;> rfl
  have hheader : header ⟨provider, false⟩ file model = [] := rfl
  have hsame : indexes ⟨provider, false⟩ model = indexes ⟨provider, true⟩ model := rfl
  have hopening : codeLines [.opening model.name] = [.opening model.name] := rfl
  have htitle : codeLines (SchemaLine.heading "COLUMNS") = SchemaLine.heading "COLUMNS" := rfl
  have hclosing : codeLines [.closing] = [.closing] := rfl
  rw [lines, codeLines_append, codeLines_append, codeLines_append, codeLines_append,
    codeLines_append, codeLines_append, codeLines_header, hopening, htitle, codeLines_intercalate,
    codeLines_columns, codeLines_behindBlank _ hrelations, codeLines_behindBlank _ hindexes,
    hclosing, lines, hheader, hsame]

end Block

theorem SchemaFile.codeLines_lines (provider : Provider) (app : Application) (file : SchemaFile) :
    codeLines (file.lines ⟨provider, true⟩ app) = file.lines ⟨provider, false⟩ app := by
  have hblocks : (file.models.map (Block.lines ⟨provider, true⟩ app file)).map codeLines =
      file.models.map (Block.lines ⟨provider, false⟩ app file) := by
    rw [List.map_map]
    refine List.map_congr_left fun model _ => ?_
    rw [Function.comp_apply, Block.codeLines_lines]
  rw [SchemaFile.lines, codeLines_intercalate, hblocks, SchemaFile.lines]

theorem SchemaFile.label_mem_lines {file : SchemaFile} (h : file.models ≠ []) (provider : Provider)
    (app : Application) :
    .doc false s!"@namespace {file.domain}" ∈ file.lines ⟨provider, true⟩ app := by
  obtain ⟨model, models, hmodels⟩ := List.exists_cons_of_ne_nil h
  have hheader : .doc false s!"@namespace {file.domain}" ∈
      Block.header ⟨provider, true⟩ file model := by
    simp [Block.header]
  have hblock : .doc false s!"@namespace {file.domain}" ∈
      Block.lines ⟨provider, true⟩ app file model := by
    simp only [Block.lines, List.append_assoc]
    exact List.mem_append_left _ hheader
  rw [SchemaFile.lines, hmodels, List.map_cons]
  cases models with
  | nil => simpa using hblock
  | cons next models =>
    rw [List.map_cons, List.intercalate_cons_cons, List.append_assoc]
    exact List.mem_append_left _ hblock

/-! ### Files with and without comments -/

/-- Nothing is lost with what is left out exactly when that is nothing. -/
theorem flatMap_filter_eq_iff {α β : Type} {p : α → Bool} {f : α → List β} {l : List α} :
    l.flatMap f = (l.filter p).flatMap f ↔ ∀ a ∈ l, p a = false → f a = [] := by
  induction l with
  | nil => simp
  | cons a l ih =>
    rw [List.forall_mem_cons, ← ih, List.flatMap_cons]
    cases hp : p a with
    | true =>
      rw [List.filter_cons_of_pos hp, List.flatMap_cons, List.append_cancel_left_eq]
      simp
    | false =>
      rw [List.filter_cons_of_neg (by simp [hp])]
      constructor
      · intro heq
        have hlength := congrArg List.length heq
        have hle : ((l.filter p).flatMap f).length ≤ (l.flatMap f).length :=
          ((List.filter_sublist).flatMap f).length_le
        rw [List.length_append] at hlength
        have hnil : f a = [] := List.length_eq_zero_iff.mp (by omega)
        rw [hnil] at heq
        exact ⟨fun _ => hnil, heq⟩
      · rintro ⟨hnil, heq⟩
        rw [hnil rfl, List.nil_append, heq]

open Reading

theorem withoutDocs_render_iff_of_conforms (provider : Provider) {components : List Component}
    {app : Application} (h : Conforms ⟨components, []⟩ app) {file : SchemaFile}
    (hfile : file ∈ app.files) :
    withoutDocs (file.render ⟨provider, true⟩ app) = file.render ⟨provider, false⟩ app ↔
      ∀ line ∈ (Text.split '\n' file.domain.toList).tail, isDocLine line := by
  have hlegible : ∀ line ∈ file.lines ⟨provider, false⟩ app, Legible line :=
    legible_of_conforms _ h hfile (by simp)
  have hkept : (file.lines ⟨provider, false⟩ app).map (·.text.toList) =
      (codeLines (file.lines ⟨provider, true⟩ app)).flatMap SchemaLine.undocumented := by
    rw [← SchemaFile.codeLines_lines, List.map_eq_flatMap]
    refine List.flatMap_congr fun line hline => ?_
    have hdoc : line.isDoc = false := by simpa using (List.mem_filter.mp hline).2
    rw [SchemaFile.codeLines_lines] at hline
    exact (undocumented_of_legible (hlegible line hline) hdoc).symm
  rw [SchemaFile.render, SchemaFile.render, withoutDocs_join_eq_iff hlegible, hkept, codeLines,
    flatMap_filter_eq_iff]
  have hlabel : SchemaLine.undocumented (.doc false s!"@namespace {file.domain}") = [] ↔
      ∀ line ∈ (Text.split '\n' file.domain.toList).tail, isDocLine line := by
    rw [undocumented_label, List.filter_eq_nil_iff]
    simp
  rw [← hlabel]
  constructor
  · intro hall
    exact hall _ (file.label_mem_lines (h.corresponds.models_ne_nil file hfile) provider app) rfl
  · intro hlabel line hline hdoc
    rcases legible_or_label_of_conforms _ h hfile hline with hlegible | ⟨-, rfl⟩
    · cases line with
      | doc => exact undocumented_doc hlegible
      | _ => cases hdoc
    · exact hlabel

/-- Without its documentation a file that is rendered with comments is the one that is rendered
without them, exactly when whatever follows a line feed in its label is documentation by itself. -/
theorem withoutDocs_render_iff (provider : Provider) {components : List Component}
    {app : Application} (haccepted : (Scope.validate ⟨components, []⟩ app).isOk)
    {file : SchemaFile} (hfile : file ∈ app.files) :
    withoutDocs (file.render ⟨provider, true⟩ app) = file.render ⟨provider, false⟩ app ↔
      ∀ line ∈ (Text.split '\n' file.domain.toList).tail, isDocLine line :=
  withoutDocs_render_iff_of_conforms provider (Scope.validate_isOk_iff_conforms.mp haccepted) hfile

/-- A description may hold what reads as a schema. -/
def describedApplication : Application :=
  ⟨[{ filename := "schema-01-users.prisma", domain := "Users",
      models := [{ Model.minimal "user" with
        description := "A person.\n\nmodel team \x7b\n\x7d", material := true
        plain := [{ name := "email", scalar := .string, description := " of mail\n\x7d\n" }] }] }]⟩

def describedComponent : Component :=
  { filename := "schema-01-users.prisma", domain := "Users", tables := ["user"] }

theorem withoutDocs_render_described :
    (Scope.validate ⟨[describedComponent], []⟩ describedApplication).isOk ∧
    ∀ file ∈ describedApplication.files,
      withoutDocs (file.render ⟨.postgresql, true⟩ describedApplication) =
        file.render ⟨.postgresql, false⟩ describedApplication := by
  have haccepted : (Scope.validate ⟨[describedComponent], []⟩ describedApplication).isOk := by
    decide +kernel
  have hlabels : ∀ file ∈ describedApplication.files,
      ∀ line ∈ (Text.split '\n' file.domain.toList).tail, isDocLine line := by
    decide
  exact ⟨haccepted, fun file hfile =>
    (withoutDocs_render_iff .postgresql haccepted hfile).mpr (hlabels file hfile)⟩

/-- A label may hold a declaration, which stays when the documentation is taken out. -/
def labelledApplication : Application :=
  ⟨[{ filename := "schema-01-users.prisma", domain := "Users\nenum role \x7b\n  admin\n\x7d",
      models := [.minimal "user"] }]⟩

def labelledComponent : Component :=
  { filename := "schema-01-users.prisma", domain := "Users\nenum role \x7b\n  admin\n\x7d",
    tables := ["user"] }

theorem label_outside_docs :
    (Scope.validate ⟨[labelledComponent], []⟩ labelledApplication).isOk ∧
    ∃ file ∈ labelledApplication.files,
      withoutDocs (file.render ⟨.postgresql, true⟩ labelledApplication) ≠
        file.render ⟨.postgresql, false⟩ labelledApplication := by
  have haccepted : (Scope.validate ⟨[labelledComponent], []⟩ labelledApplication).isOk := by
    decide +kernel
  have hconforms := Scope.validate_isOk_iff_conforms.mp haccepted
  refine ⟨haccepted, _, List.mem_singleton.mpr rfl, fun heq => ?_⟩
  have hall := (withoutDocs_render_iff_of_conforms _ hconforms (List.mem_singleton.mpr rfl)).mp heq
  exact absurd hall (by decide)

end SchemaGate
