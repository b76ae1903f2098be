import Mathlib.Data.List.Basic
import SchemaGate.Proofs.Render.Declarations
import SchemaGate.Render
import SchemaGate.Text.Name

/-!
# Reading a schema back

What a schema declares can be read from its text alone: a line is cut into words and marks, one that
starts with two slashes is a remark, and every other line opens a block, closes it, or declares a
column, a relation or an index of it. A text with any other line, or with one that stands in the
wrong place, is refused.

Names that are words are read as single tokens, whatever stands around them (`tokens_word`).
-/

namespace SchemaGate

namespace Reading

/-! ### Words and marks -/

/-- A run of letters, digits and underscores, or another character that is no blank. -/
inductive Token where
  | word (letters : List Char)
  | mark (c : Char)
  deriving DecidableEq, Repr

def isWordChar (c : Char) : Bool := c.isAlphanum || c == '_'

def flush (letters : List Char) : List Token :=
  if letters.isEmpty then [] else [.word letters]

/-- The tokens of a line behind the letters of a word that it goes on with. -/
def tokensAfter (letters : List Char) : List Char → List Token
  | [] => flush letters
  | c :: cs =>
    if isWordChar c then tokensAfter (letters ++ [c]) cs
    else flush letters ++
      if c = ' ' then tokensAfter [] cs else .mark c :: tokensAfter [] cs

def tokens (line : List Char) : List Token := tokensAfter [] line

/-! ### Lines -/

/-- What a line in a block declares. A relation that is held names its column and the column it
references. -/
inductive Item where
  | column (name : String) (attributes : List String)
  | relation (name type : String) (fields references : List String)
  | index (columns : List String)
  deriving DecidableEq, Repr

inductive Line where
  | remark
  | opening (name : String)
  | item (i : Item)
  | closing
  deriving DecidableEq, Repr

/-- The names behind an opening bracket. In parentheses a name may say more. -/
def listed : List Token → Option (List String)
  | .word w :: .mark ',' :: ts => (listed ts).map (String.ofList w :: ·)
  | .word w :: .mark ']' :: _ => some [String.ofList w]
  | .word w :: .mark '(' :: _ => some [String.ofList w]
  | _ => none

/-- The names in brackets behind a keyword. -/
def argument (key : String) : List Token → List String
  | .word w :: .mark ':' :: .mark '[' :: ts =>
    if w = key.toList then (listed ts).getD [] else argument key ts
  | _ :: ts => argument key ts
  | [] => []

/-- The words behind the sign of an attribute. -/
def attributes : List Token → List String
  | .mark '@' :: .word w :: ts => String.ofList w :: attributes ts
  | _ :: ts => attributes ts
  | [] => []

/-- A property is a column when its type is that of a scalar, or else a relation. -/
def property (name type : List Char) (ts : List Token) : Item :=
  if (Scalar.all.map (·.schemaName.toList)).contains type then
    .column (.ofList name) (attributes ts)
  else .relation (.ofList name) (.ofList type) (argument "fields" ts) (argument "references" ts)

def lineOf? : List Token → Option Line
  | [] => some .remark
  | .mark '/' :: .mark '/' :: _ => some .remark
  | [.mark '\x7d'] => some .closing
  | [.word keyword, .word name, .mark '\x7b'] =>
    if keyword = "model".toList then some (.opening (.ofList name)) else none
  | .mark '@' :: .mark '@' :: .word _ :: .mark '(' :: .mark '[' :: ts =>
    (listed ts).map fun columns => .item (.index columns)
  | .word name :: .word type :: ts => some (.item (property name type ts))
  | _ => none

/-! ### Blocks -/

/-- A model as it is read. -/
structure Block where
  name : String
  items : List Item
  deriving DecidableEq, Repr

/-- The blocks that lines make, where one may be open already. -/
def blocksAfter : Option Block → List Line → Option (List Block)
  | none, [] => some []
  | b, .remark :: ls => blocksAfter b ls
  | none, .opening name :: ls => blocksAfter (some ⟨name, []⟩) ls
  | some b, .item i :: ls => blocksAfter (some { b with items := b.items ++ [i] }) ls
  | some b, .closing :: ls => (blocksAfter none ls).map (b :: ·)
  | _, _ => none

/-- The blocks of a text. -/
def blocks? (text : String) : Option (List Block) :=
  ((text.toList.splitOn '\n').mapM fun line => lineOf? (tokens line)).bind (blocksAfter none)

/-- The blocks of all texts. -/
def schema? (files : TextFiles) : Option (List Block) :=
  (files.mapM fun file => blocks? file.2).map List.flatten

/-- The column that is declared. -/
def Item.column? : Item → Option String
  | column name _ => some name
  | _ => none

/-- The column that is declared with the attribute of a primary key. -/
def Item.key? : Item → Option String
  | column name attributes => if attributes.contains "id" then some name else none
  | _ => none

namespace Block

def columns (b : Block) : List String := b.items.filterMap Item.column?

def keys (b : Block) : List String := b.items.filterMap Item.key?

end Block

/-! ### Words are read as they are written -/

/-- A text is one word. -/
structure IsWord (s : String) : Prop where
  ne_nil : s.toList ≠ []
  letters : ∀ c ∈ s.toList, isWordChar c

theorem isWord_of_isIdentifier {s : String} (h : Text.isIdentifier s) : IsWord s := by
  have hchar : ∀ c : Char, Text.isIdentifierChar c → isWordChar c := by
    intro c hc
    simp only [Text.isIdentifierChar, Bool.or_eq_true] at hc
    have halpha : c.isAlpha = (c.isUpper || c.isLower) := rfl
    simp only [isWordChar, Char.isAlphanum, halpha, Bool.or_eq_true]
    tauto
  unfold Text.isIdentifier at h
  cases hs : s.toList with
  | nil => simp [hs] at h
  | cons c cs =>
    simp only [hs, Bool.and_eq_true, List.all_eq_true] at h
    refine ⟨by simp [hs], ?_⟩
    rw [hs, List.forall_mem_cons]
    refine ⟨hchar c ?_, fun d hd => hchar d (h.2 d hd)⟩
    simp [Text.isIdentifierChar, h.1]

theorem isWord_of_isRelationName {s : String} (h : Text.isRelationName s) : IsWord s := by
  unfold Text.isRelationName at h
  cases hs : s.toList with
  | nil => simp [hs] at h
  | cons c cs =>
    simp only [hs, Bool.and_eq_true, List.all_eq_true] at h
    refine ⟨by simp [hs], ?_⟩
    rw [hs, List.forall_mem_cons]
    refine ⟨?_, fun d hd => h.2 d hd⟩
    have hc := h.1
    simp only [Bool.or_eq_true] at hc
    simp only [isWordChar, Char.isAlphanum, Bool.or_eq_true]
    tauto

theorem isWord_oppositeProperty {r : Relation} {source : String} (hsource : IsWord source)
    (hmapping : ∀ label ∈ r.mapping, IsWord label)
    (hopposite : ∀ name ∈ r.opposite, IsWord name) : IsWord (r.oppositeProperty source) := by
  obtain ⟨name, target, mapping, opposite⟩ := r
  match mapping, opposite with
  | _, some opposite => exact hopposite opposite rfl
  | none, none => exact hsource
  | some mapping, none =>
    have hlabel := hmapping mapping rfl
    have htext : (s!"{source}_{mapping}").toList = source.toList ++ '_' :: mapping.toList := by
      change (source ++ "_" ++ mapping).toList = _
      simp
    unfold Relation.oppositeProperty
    refine ⟨by simp [htext], ?_⟩
    rw [htext, List.forall_mem_append, List.forall_mem_cons]
    exact ⟨hsource.letters, rfl, hlabel.letters⟩

/-- Letters do not go on across another character. -/
theorem tokensAfter_append {cs : List Char} (hcs : cs.head?.all (!isWordChar ·)) :
    ∀ u letters : List Char,
      tokensAfter letters (u ++ cs) = tokensAfter letters u ++ tokens cs := by
  intro u
  induction u with
  | nil =>
    intro letters
    cases cs with
    | nil => simp [tokens, tokensAfter, flush]
    | cons c cs =>
      have hc : ¬ isWordChar c := by simpa using hcs
      simp [tokens, tokensAfter, hc, flush]
  | cons c u ih =>
    intro letters
    rw [List.cons_append, tokensAfter, tokensAfter]
    split
    -- the word goes on, with one more letter before the rest
    · rw [ih]
    · split <;> rw [ih] <;> simp

theorem tokens_append_cons {c : Char} (hc : ¬ isWordChar c) (u cs : List Char) :
    tokens (u ++ c :: cs) = tokens (u ++ [c]) ++ tokens cs := by
  have hhead : ∀ ds : List Char, (c :: ds).head?.all (!isWordChar ·) := by
    intro ds
    simp [hc]
  have hsplit : tokens (c :: cs) = tokens [c] ++ tokens cs := by
    rw [tokens, tokens, tokens, tokensAfter, if_neg hc, tokensAfter, if_neg hc]
    by_cases hblank : c = ' ' <;> simp [hblank, tokensAfter, flush]
  calc tokens (u ++ c :: cs) = tokens u ++ tokens (c :: cs) := tokensAfter_append (hhead cs) u []
    _ = tokens u ++ tokens [c] ++ tokens cs := by rw [hsplit, List.append_assoc]
    _ = tokens (u ++ [c]) ++ tokens cs := by
      rw [show tokens (u ++ [c]) = tokens u ++ tokens [c] from tokensAfter_append (hhead []) u []]

/-- A text that ends in no letter is read by itself. -/
theorem tokens_literal (s : String) (h : s.toList.getLast?.any (!isWordChar ·)) (cs : List Char) :
    tokens (s.toList ++ cs) = tokens s.toList ++ tokens cs := by
  rcases List.eq_nil_or_concat s.toList with hnil | ⟨u, c, hconcat⟩
  · simp [hnil] at h
  · rw [hconcat] at h ⊢
    have hc : ¬ isWordChar c := by simpa using h
    rw [List.concat_eq_append, List.append_assoc]
    exact tokens_append_cons hc u cs

theorem tokens_of_isWord {s : String} (h : IsWord s) : tokens s.toList = [.word s.toList] := by
  have hall : ∀ (u letters : List Char), (∀ c ∈ u, isWordChar c) →
      tokensAfter letters u = flush (letters ++ u) := by
    intro u
    induction u with
    | nil => simp [tokensAfter]
    | cons c u ih =>
      intro letters hu
      obtain ⟨hc, hu⟩ := List.forall_mem_cons.mp hu
      rw [tokensAfter, if_pos hc, ih _ hu]
      simp
  rw [tokens, hall _ _ h.letters, List.nil_append, flush, if_neg]
  simpa using h.ne_nil

/-- A word is read by itself where no letter follows. -/
theorem tokens_word {s : String} (h : IsWord s) {cs : List Char}
    (hcs : cs.head?.all (!isWordChar ·)) :
    tokens (s.toList ++ cs) = .word s.toList :: tokens cs := by
  rw [tokens, tokensAfter_append hcs, ← tokens, tokens_of_isWord h]
  rfl

end Reading

end SchemaGate
