import SchemaGate.Json.Limits
import SchemaGate.Json.Reader
import SchemaGate.Proofs.Json.Scanning
import SchemaGate.Proofs.Paired

/-!
# What is written is read back

A piece of a text spells a document when it is cut into tokens that are read as that document, both
whatever comes behind (`Spells`). What spells the items or the members, with commas between them and
blanks where they do no harm, spells the array or object. So both layouts spell what they write, and
a document is read back from either (`parse?_compact`, `parse?_pretty`).
-/

namespace SchemaGate.Json

/-! ### Tokens of a document -/

/-- Tokens are read as a document, whatever comes behind them. -/
def Reads (tokens : List Token) (j : Json) : Prop :=
  ∀ fuel rest, 2 * tokens.length ≤ fuel → readValue fuel (tokens ++ rest) = some (j, rest)

/-- Tokens are read as a member of an object. -/
def ReadsMember (tokens : List Token) (m : Option String × Json) : Prop :=
  ∃ value, tokens = .str m.1 :: .colon :: value ∧ Reads value m.2

theorem reads_scalar (j : Json) : Reads [.scalar j] j := by
  intro fuel rest hfuel
  obtain ⟨fuel, rfl⟩ := Nat.exists_eq_add_of_le' hfuel
  rfl

theorem reads_str (text : Option String) : Reads [.str text] (.str text) := by
  intro fuel rest hfuel
  obtain ⟨fuel, rfl⟩ := Nat.exists_eq_add_of_le' hfuel
  rfl

theorem readItems_of_reads {tss : List (List Token)} {items : List Json}
    (h : List.Forall₂ Reads tss items) (hne : tss ≠ []) :
    ∀ fuel done rest, 2 * ([Token.comma].intercalate tss).length < fuel →
      readItems fuel done ([Token.comma].intercalate tss ++ .closeArray :: rest) =
        some (.arr (done.reverse ++ items), rest) := by
  induction h with
  | nil => exact absurd rfl hne
  | @cons ts item tss items hts h ih =>
    intro fuel done rest hfuel
    obtain ⟨fuel, rfl⟩ := Nat.exists_eq_succ_of_ne_zero (Nat.ne_zero_of_lt hfuel)
    cases h with
    | nil =>
      rw [List.intercalate_singleton] at hfuel ⊢
      rw [readItems, hts fuel _ (Nat.le_of_lt_succ hfuel)]
      simp
    | cons _ _ =>
      simp only [List.intercalate_cons_cons, List.length_append, List.length_singleton] at hfuel
      rw [List.intercalate_cons_cons, List.append_assoc, List.append_assoc, List.singleton_append,
        readItems, hts fuel _ (by omega)]
      change readItems fuel (item :: done) _ = _
      rw [ih (List.cons_ne_nil _ _) fuel (item :: done) rest (by omega), List.reverse_cons,
        List.append_assoc]
      rfl

theorem readMembers_of_reads {tss : List (List Token)} {members : List (Option String × Json)}
    (h : List.Forall₂ ReadsMember tss members) (hne : tss ≠ []) :
    ∀ fuel done rest, 2 * ([Token.comma].intercalate tss).length < fuel →
      readMembers fuel done ([Token.comma].intercalate tss ++ .closeObject :: rest) =
        some (.obj (done.reverse ++ members), rest) := by
  induction h with
  | nil => exact absurd rfl hne
  | @cons ts m tss members hts h ih =>
    intro fuel done rest hfuel
    obtain ⟨fuel, rfl⟩ := Nat.exists_eq_succ_of_ne_zero (Nat.ne_zero_of_lt hfuel)
    obtain ⟨value, rfl, hvalue⟩ := hts
    cases h with
    | nil =>
      simp only [List.intercalate_singleton, List.length_cons] at hfuel
      rw [List.intercalate_singleton, List.cons_append, List.cons_append, readMembers,
        hvalue fuel _ (by omega)]
      simp
    | cons _ _ =>
      simp only [List.intercalate_cons_cons, List.length_append, List.length_cons] at hfuel
      rw [List.intercalate_cons_cons, List.append_assoc, List.append_assoc, List.singleton_append,
        List.cons_append, List.cons_append, readMembers, hvalue fuel _ (by omega)]
      change readMembers fuel (m :: done) _ = _
      rw [ih (List.cons_ne_nil _ _) fuel (m :: done) rest (by omega), List.reverse_cons,
        List.append_assoc]
      rfl

theorem exists_intercalate_cons {α : Type} (sep l : List α) (ls : List (List α)) :
    ∃ rest, sep.intercalate (l :: ls) = l ++ rest := by
  cases ls with
  | nil => exact ⟨[], by rw [List.intercalate_singleton, List.append_nil]⟩
  | cons _ _ => exact ⟨_, by rw [List.intercalate_cons_cons, List.append_assoc]⟩

theorem readValue_closeArray (fuel : Nat) (rest : List Token) :
    readValue fuel (.closeArray :: rest) = none := by
  cases fuel <;> rfl

theorem Reads.ne_closeArray {tokens rest rest' : List Token} {j : Json} (h : Reads tokens j) :
    tokens ++ rest ≠ .closeArray :: rest' := by
  intro heq
  have hread := h (2 * tokens.length) rest (Nat.le_refl _)
  rw [heq, readValue_closeArray] at hread
  cases hread

theorem Reads.arr {tss : List (List Token)} {items : List Json}
    (h : List.Forall₂ Reads tss items) :
    Reads (.openArray :: ([Token.comma].intercalate tss ++ [.closeArray])) (.arr items) := by
  intro fuel rest hfuel
  rw [List.length_cons, List.length_append, List.length_singleton] at hfuel
  obtain ⟨fuel, rfl⟩ := Nat.exists_eq_add_of_le' (Nat.le_trans (by omega) hfuel : 1 ≤ fuel)
  rw [List.cons_append, List.append_assoc, List.singleton_append]
  cases h with
  | nil => rfl
  | @cons ts item tss items hts h =>
    rw [readValue, readItems_of_reads (.cons hts h) (List.cons_ne_nil _ _) _ _ _ (by omega)]
    · rfl
    · obtain ⟨behind, hbehind⟩ := exists_intercalate_cons [Token.comma] ts tss
      rw [hbehind, List.append_assoc]
      exact fun _ => hts.ne_closeArray

theorem Reads.obj {tss : List (List Token)} {members : List (Option String × Json)}
    (h : List.Forall₂ ReadsMember tss members) :
    Reads (.openObject :: ([Token.comma].intercalate tss ++ [.closeObject])) (.obj members) := by
  intro fuel rest hfuel
  rw [List.length_cons, List.length_append, List.length_singleton] at hfuel
  obtain ⟨fuel, rfl⟩ := Nat.exists_eq_add_of_le' (Nat.le_trans (by omega) hfuel : 1 ≤ fuel)
  rw [List.cons_append, List.append_assoc, List.singleton_append]
  cases h with
  | nil => rfl
  | @cons ts m tss members hts h =>
    rw [readValue, readMembers_of_reads (.cons hts h) (List.cons_ne_nil _ _) _ _ _ (by omega)]
    · rfl
    · -- a member starts with its name
      obtain ⟨behind, hbehind⟩ := exists_intercalate_cons [Token.comma] ts tss
      obtain ⟨value, rfl, -⟩ := hts
      rw [hbehind]
      intro _ heq
      cases heq

/-! ### Texts of a document -/

/-- A piece of a text is cut into tokens of a document. -/
def Spells (cs : List Char) (j : Json) : Prop := ∃ tokens, Lexes cs tokens ∧ Reads tokens j

/-- A piece of a text is cut into tokens of a member of an object. -/
def SpellsMember (cs : List Char) (m : Option String × Json) : Prop :=
  ∃ tokens, Lexes cs tokens ∧ ReadsMember tokens m

theorem parse?_of_spells {s : String} {j : Json} (h : Spells s.toList j) : parse? s = some j := by
  obtain ⟨tokens, hlexes, hreads⟩ := h
  have hscan : scan s = some tokens := by
    refine scan_of_scans ?_
    simpa using hlexes [] [] stops_nil (.nil rfl)
  have hread : readValue (2 * tokens.length) tokens = some (j, []) := by
    simpa using hreads _ [] (Nat.le_refl _)
  simp [parse?, hscan, hread]

theorem Spells.blank {cs blanks : List Char} {j : Json} (h : Spells cs j)
    (hblanks : ∀ c ∈ blanks, isSpace c) : Spells (blanks ++ cs) j := by
  obtain ⟨tokens, hlexes, hreads⟩ := h
  exact ⟨tokens, hlexes.blank hblanks, hreads⟩

theorem lexes_intercalate {texts : List (List Char)} {tss : List (List Token)}
    (h : List.Forall₂ Lexes texts tss) :
    Lexes ([','].intercalate texts) ([Token.comma].intercalate tss) := by
  induction h with
  | nil => exact lexes_nil
  | cons hcs h ih =>
    cases h with
    | nil =>
      rw [List.intercalate_singleton, List.intercalate_singleton]
      exact hcs
    | cons _ _ =>
      rw [List.intercalate_cons_cons, List.intercalate_cons_cons, List.append_assoc,
        List.append_assoc]
      exact hcs.append (ih.mark (by decide) fun _ => rfl) fun _ => stops_cons (by decide) _

theorem stops_blank {blanks : List Char} (hblanks : ∀ c ∈ blanks, isSpace c) {c : Char}
    (hc : isNumberChar c = false) (rest : List Char) : Stops (blanks ++ c :: rest) := by
  cases blanks with
  | nil => exact stops_cons hc rest
  | cons b blanks =>
    refine stops_cons ?_ _
    have hb := hblanks b List.mem_cons_self
    simp only [isSpace, Bool.or_eq_true, beq_iff_eq] at hb
    rcases hb with ((rfl | rfl) | rfl) | rfl <;> decide

/-- Pieces between an opening and a closing mark, with commas between them. -/
theorem lexes_enclosed {texts : List (List Char)} {tss : List (List Token)} {blanks : List Char}
    {left right : Char} {openMark closeMark : Token} (h : List.Forall₂ Lexes texts tss)
    (hblanks : ∀ c ∈ blanks, isSpace c) (hleft : isSpace left = false)
    (hopen : ∀ rest, scanToken? (left :: rest) = some (openMark, rest))
    (hright : isSpace right = false ∧ isNumberChar right = false)
    (hclose : ∀ rest, scanToken? (right :: rest) = some (closeMark, rest)) :
    Lexes (left :: ([','].intercalate texts ++ (blanks ++ [right])))
      (openMark :: ([Token.comma].intercalate tss ++ [closeMark])) := by
  have hend : Lexes (blanks ++ [right]) [closeMark] :=
    (lexes_nil.mark hright.1 hclose).blank hblanks
  refine ((lexes_intercalate h).append hend fun rest => ?_).mark hleft hopen
  rw [List.append_assoc]
  exact stops_blank hblanks hright.2 rest

theorem Spells.arr {items : List Json} {write : Json → String} (blank : String)
    (hblank : ∀ c ∈ blank.toList, isSpace c) (h : ∀ item ∈ items, Spells (write item).toList item) :
    Spells ("[" ++ ",".intercalate (items.map write) ++ blank ++ "]").toList (.arr items) := by
  have htexts : List.Forall₂ Spells ((items.map write).map String.toList) items := by
    rw [List.map_map]
    exact List.forall₂_map_left_iff.mpr (List.forall₂_same.mpr h)
  obtain ⟨tss, hlexes, hreads⟩ := exists_forall₂_of_comp htexts
  refine ⟨_, ?_, .arr hreads⟩
  rw [String.toList_append, String.toList_append, String.toList_append, String.toList_intercalate,
    List.append_assoc, List.append_assoc]
  exact lexes_enclosed hlexes hblank (by decide) (fun _ => rfl) (by decide) fun _ => rfl

theorem Spells.object {members : List (String × Json)} {write : String × Json → String}
    (blank : String) (hblank : ∀ c ∈ blank.toList, isSpace c)
    (h : ∀ m ∈ members, SpellsMember (write m).toList (some m.1, m.2)) :
    Spells ("\x7b" ++ ",".intercalate (members.map write) ++ blank ++ "\x7d").toList
      (.object members) := by
  have htexts : List.Forall₂ SpellsMember ((members.map write).map String.toList)
      (members.map fun m => (some m.1, m.2)) := by
    rw [List.map_map]
    exact List.forall₂_map_left_iff.mpr
      (List.forall₂_map_right_iff.mpr (List.forall₂_same.mpr h))
  obtain ⟨tss, hlexes, hreads⟩ := exists_forall₂_of_comp htexts
  refine ⟨_, ?_, .obj hreads⟩
  rw [String.toList_append, String.toList_append, String.toList_append, String.toList_intercalate,
    List.append_assoc, List.append_assoc]
  exact lexes_enclosed hlexes hblank (by decide) (fun _ => rfl) (by decide) fun _ => rfl

theorem Spells.member (before name after : String) {text : String} {value : Json}
    (h : Spells text.toList value) (hbefore : ∀ c ∈ before.toList, isSpace c)
    (hafter : ∀ c ∈ after.toList, isSpace c) :
    SpellsMember (before ++ quote (some name) ++ ":" ++ after ++ text).toList
      (some name, value) := by
  obtain ⟨tokens, hlexes, hreads⟩ := h
  refine ⟨_, ?_, tokens, rfl, hreads⟩
  have hcolon : Lexes (':' :: (after.toList ++ text.toList)) (.colon :: tokens) :=
    (hlexes.blank hafter).mark (by decide) fun _ => rfl
  simp only [String.toList_append, List.append_assoc]
  exact ((lexes_quote name).append hcolon fun _ => stops_cons (by decide) _).blank hbefore

/-! ### Either layout -/

/-- A document that has a text: its strings and names are texts, its numbers numbers. -/
inductive Writable : Json → Prop
  | null : Writable .null
  | bool (b : Bool) : Writable (.bool b)
  | num {spelling : String} (h : IsNumber spelling) : Writable (.num spelling)
  | text (s : String) : Writable (.text s)
  | arr {items : List Json} (h : ∀ item ∈ items, Writable item) : Writable (.arr items)
  | object {members : List (String × Json)} (h : ∀ m ∈ members, Writable m.2) :
    Writable (.object members)

theorem spells_null : Spells "null".toList .null :=
  ⟨_, lexes_token (by decide) fun _ _ => rfl, reads_scalar _⟩

theorem spells_bool (b : Bool) : Spells (compact (.bool b)).toList (.bool b) := by
  cases b <;> exact ⟨_, lexes_token (by decide) fun _ _ => rfl, reads_scalar _⟩

theorem spells_num {spelling : String} (h : IsNumber spelling) :
    Spells spelling.toList (.num spelling) := ⟨_, lexes_number h, reads_scalar _⟩

theorem spells_text (s : String) : Spells (quote (some s)).toList (.text s) :=
  ⟨_, lexes_quote s, reads_str _⟩

theorem spells_emptyArr : Spells "[]".toList (.arr []) :=
  ⟨_, (lexes_nil.mark (by decide) fun _ => rfl).mark (by decide) fun _ => rfl, .arr .nil⟩

theorem spells_emptyObj : Spells "\x7b\x7d".toList (.obj []) :=
  ⟨_, (lexes_nil.mark (by decide) fun _ => rfl).mark (by decide) fun _ => rfl, .obj .nil⟩

theorem compactItems_eq_map (items : List Json) : compactItems items = items.map compact := by
  induction items with
  | nil => rfl
  | cons item items ih => rw [compactItems, ih, List.map_cons]

theorem compactMembers_eq_map (members : List (String × Json)) :
    compactMembers (members.map fun (name, value) => (some name, value)) =
      members.map fun m => quote (some m.1) ++ ":" ++ compact m.2 := by
  induction members with
  | nil => rfl
  | cons m members ih => rw [List.map_cons, compactMembers, ih, List.map_cons]

theorem spells_compact {j : Json} (h : Writable j) : Spells (compact j).toList j := by
  induction h with
  | null => exact spells_null
  | bool b => exact spells_bool b
  | num h => exact spells_num h
  | text s => exact spells_text s
  | arr _ ih =>
    have hspells := Spells.arr "" (by simp) ih
    rwa [String.append_empty, ← compactItems_eq_map] at hspells
  | object _ ih =>
    have hspells := Spells.object "" (by simp) fun m hm =>
      Spells.member "" m.1 "" (ih m hm) (by simp) (by simp)
    simp only [String.append_empty, String.empty_append] at hspells
    rwa [← compactMembers_eq_map] at hspells

theorem isSpace_newline (depth : Nat) : ∀ c ∈ (newline depth).toList, isSpace c := by
  intro c hc
  rw [newline, String.toList_append] at hc
  rcases List.mem_append.mp hc with hc | hc
  · obtain rfl := List.mem_singleton.mp hc
    decide
  · rw [String.toList_ofList] at hc
    obtain rfl := (List.mem_replicate.mp hc).2
    decide

theorem prettyItems_eq_map (depth : Nat) (items : List Json) :
    prettyItems depth items = items.map fun item => newline depth ++ prettyAt depth item := by
  induction items with
  | nil => rfl
  | cons item items ih => rw [prettyItems, ih, List.map_cons]

theorem prettyMembers_eq_map (depth : Nat) (members : List (String × Json)) :
    prettyMembers depth (members.map fun (name, value) => (some name, value)) =
      members.map fun m => newline depth ++ quote (some m.1) ++ ": " ++ prettyAt depth m.2 := by
  induction members with
  | nil => rfl
  | cons m members ih => rw [List.map_cons, prettyMembers, ih, List.map_cons]

theorem spells_prettyAt {j : Json} (h : Writable j) :
    ∀ depth, Spells (prettyAt depth j).toList j := by
  induction h with
  | null => exact fun _ => spells_null
  | bool b =>
    intro _
    cases b
    · exact spells_bool false
    · exact spells_bool true
  | num h => exact fun _ => spells_num h
  | text s => exact fun _ => spells_text s
  | @arr items _ ih =>
    intro depth
    cases items with
    | nil => exact spells_emptyArr
    | cons item items =>
      have hitems : ∀ i ∈ item :: items,
          Spells (newline (depth + 1) ++ prettyAt (depth + 1) i).toList i := by
        intro i hi
        rw [String.toList_append]
        exact (ih i hi (depth + 1)).blank (isSpace_newline (depth + 1))
      have hspells := Spells.arr _ (isSpace_newline depth) hitems
      rwa [← prettyItems_eq_map] at hspells
  | @object members _ ih =>
    intro depth
    cases members with
    | nil => exact spells_emptyObj
    | cons m members =>
      have hblank : ∀ c ∈ " ".toList, isSpace c := List.forall_mem_singleton.mpr rfl
      have hspells := Spells.object _ (isSpace_newline depth) fun m hm =>
        Spells.member _ m.1 " " (ih m hm (depth + 1)) (isSpace_newline (depth + 1)) hblank
      have hcolon (s : String) : s ++ ":" ++ " " = s ++ ": " := String.append_assoc
      simp only [hcolon] at hspells
      rwa [← prettyMembers_eq_map] at hspells

/-- A document is read back from its text without blanks. -/
theorem parse?_compact {j : Json} (h : Writable j) : parse? (compact j) = some j :=
  parse?_of_spells (spells_compact h)

/-- A document is read back from its text with a line for each item and member. -/
theorem parse?_pretty {j : Json} (h : Writable j) : parse? (pretty j) = some j :=
  parse?_of_spells (spells_prettyAt h 0)

/-! ### Documents that a tree can hold -/

/-- A document that has a text and that can be held with this many levels of nesting left. -/
structure Portable (levels : Nat) (j : Json) : Prop where
  writable : Writable j
  fits : fitsWithin levels j

theorem portable_text (levels : Nat) (s : String) : Portable levels (text s) := ⟨.text s, rfl⟩

theorem portable_bool (levels : Nat) (b : Bool) : Portable levels (.bool b) := ⟨.bool b, rfl⟩

theorem itemsFitWithin_iff {levels : Nat} {items : List Json} :
    itemsFitWithin levels items ↔ ∀ item ∈ items, fitsWithin levels item := by
  induction items with
  | nil => simp [itemsFitWithin]
  | cons item items ih => rw [itemsFitWithin, Bool.and_eq_true, ih, List.forall_mem_cons]

theorem membersFitWithin_iff {levels : Nat} {members : List (String × Json)} :
    membersFitWithin levels (members.map fun (name, value) => (some name, value)) ↔
      ∀ m ∈ members, fitsWithin levels m.2 := by
  induction members with
  | nil => simp [membersFitWithin]
  | cons m members ih =>
    rw [List.map_cons, membersFitWithin, Bool.and_eq_true, ih, List.forall_mem_cons]
    rfl

theorem Portable.arr {levels : Nat} {items : List Json}
    (h : ∀ item ∈ items, Portable levels item) : Portable (levels + 1) (.arr items) :=
  ⟨.arr fun item hitem => (h item hitem).writable,
    itemsFitWithin_iff.mpr fun item hitem => (h item hitem).fits⟩

theorem Portable.object {levels : Nat} {members : List (String × Json)}
    (h : ∀ m ∈ members, Portable levels m.2) : Portable (levels + 1) (.object members) :=
  ⟨.object fun m hm => (h m hm).writable, membersFitWithin_iff.mpr fun m hm => (h m hm).fits⟩

theorem portable_texts (levels : Nat) (ss : List String) : Portable (levels + 1) (texts ss) :=
  .arr (List.forall_mem_map.mpr fun s _ => portable_text levels s)

end SchemaGate.Json
