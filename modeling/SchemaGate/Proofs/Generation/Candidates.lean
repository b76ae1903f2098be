import SchemaGate.Generation.Candidate
import SchemaGate.Proofs.Json.Writing
import SchemaGate.Proofs.Schema.Decoding

/-!
# The two forms of a candidate

A candidate is a record with its models or the bare list of them, and as either may be an array of
arrays, only what stands inside tells the forms apart: a model that is an array starts with a text,
which is no model (`ofRecord?_eq_none_or_ofList?_eq_none`). So it does not matter which form is tried
first. Nor is anything lost on the way: what is written in either form has a text, in either layout,
that fits a tree and is read back as the same models (`parse?_forms`).
-/

namespace SchemaGate

open Json (Portable portable_text portable_bool portable_texts)

/-! ### Documents of models -/

theorem portable_optionalText (levels : Nat) (name : String) (s : Option String) :
    ∀ m ∈ optionalText name s, Portable levels m.2 := by
  cases s with
  | none => exact List.forall_mem_nil _
  | some s => exact List.forall_mem_singleton.mpr (portable_text levels s)

theorem Relation.portable (r : Relation) (levels : Nat) : Portable (levels + 1) r.toJson := by
  refine .object (List.forall_mem_append.mpr ⟨List.forall_mem_append.mpr ⟨?_, ?_⟩, ?_⟩)
  · simp only [List.forall_mem_cons]
    exact ⟨portable_text _ _, portable_text _ _, List.forall_mem_nil _⟩
  · exact portable_optionalText levels _ r.mapping
  · exact portable_optionalText levels _ r.opposite

theorem PrimaryField.portable (f : PrimaryField) (levels : Nat) :
    Portable (levels + 1) f.toJson := by
  refine .object ?_
  simp only [List.forall_mem_cons]
  exact ⟨portable_text _ _, portable_text _ _, List.forall_mem_nil _⟩

theorem ForeignField.portable (f : ForeignField) (levels : Nat) :
    Portable (levels + 2) f.toJson := by
  refine .object ?_
  simp only [List.forall_mem_cons]
  exact ⟨portable_text _ _, portable_text _ _, f.relation.portable levels, portable_bool _ _,
    portable_bool _ _, List.forall_mem_nil _⟩

theorem PlainField.portable (f : PlainField) (levels : Nat) : Portable (levels + 1) f.toJson := by
  refine .object ?_
  simp only [List.forall_mem_cons]
  exact ⟨portable_text _ _, portable_text _ _, portable_text _ _, portable_bool _ _,
    List.forall_mem_nil _⟩

theorem portable_index (columns : List String) (levels : Nat) :
    Portable (levels + 2) (indexToJson columns) :=
  .object (List.forall_mem_singleton.mpr (portable_texts levels columns))

theorem portable_textIndex (column : String) (levels : Nat) :
    Portable (levels + 1) (textIndexToJson column) :=
  .object (List.forall_mem_singleton.mpr (portable_text levels column))

theorem Model.portable (m : Model) (levels : Nat) : Portable (levels + 4) m.toJson := by
  have hforeign : Portable (levels + 3) (.arr (m.foreign.map (·.toJson))) :=
    .arr (List.forall_mem_map.mpr fun f _ => f.portable levels)
  have hplain : Portable (levels + 3) (.arr (m.plain.map (·.toJson))) :=
    .arr (List.forall_mem_map.mpr fun f _ => f.portable (levels + 1))
  have hindexes (indexes : List (List String)) :
      Portable (levels + 3) (.arr (indexes.map indexToJson)) :=
    .arr (List.forall_mem_map.mpr fun columns _ => portable_index columns levels)
  have htexts : Portable (levels + 3) (.arr (m.textIndexes.map textIndexToJson)) :=
    .arr (List.forall_mem_map.mpr fun column _ => portable_textIndex column (levels + 1))
  refine .object ?_
  simp only [List.forall_mem_cons]
  exact ⟨portable_text _ _, portable_text _ _, portable_bool _ _, m.primary.portable (levels + 2),
    hforeign, hplain, hindexes m.uniqueIndexes, hindexes m.plainIndexes, htexts,
    List.forall_mem_nil _⟩

/-! ### Telling the forms apart -/

theorem Model.ofJson?_str (s : Option String) : ofJson? (.str s) = none := rfl

/-- A model that is an array starts with a text, its name. -/
theorem Model.eq_of_ofJson?_arr {items : List Json} {m : Model}
    (h : ofJson? (.arr items) = some m) : ∃ name rest, items = .text name :: rest := by
  obtain ⟨field, hfield, h⟩ := Option.bind_eq_some_iff.mp h
  obtain ⟨name, hname, -⟩ := Option.bind_eq_some_iff.mp h
  rw [Json.fields?] at hfield
  split at hfield
  · cases hfield
    cases items with
    | nil => cases hname
    | cons item items =>
      change item.text? = some name at hname
      cases item with
      | str text =>
        obtain rfl : text = some name := hname
        exact ⟨name, items, rfl⟩
      | _ => cases hname
  · cases hfield

namespace Candidate

/-- A record that is an array has one item, the list of its models. -/
theorem eq_of_ofRecord?_arr {items : List Json} {models : List Model}
    (h : ofRecord? (.arr items) = some models) :
    ∃ docs, items = [.arr docs] ∧ docs.mapM Model.ofJson? = some models := by
  obtain ⟨field, hfield, hmodels⟩ := Option.bind_eq_some_iff.mp h
  rw [Json.fields?] at hfield
  split at hfield
  · next hlength =>
    cases hfield
    cases items with
    | nil => cases hmodels
    | cons item items =>
      obtain rfl := List.eq_nil_of_length_eq_zero (Nat.le_zero.mp (Nat.le_of_succ_le_succ hlength))
      change Json.list? Model.ofJson? item = some models at hmodels
      cases item with
      | arr docs => exact ⟨docs, rfl, hmodels⟩
      | _ => cases hmodels
  · cases hfield

/-- No document is a candidate in both forms. -/
theorem ofRecord?_eq_none_or_ofList?_eq_none (j : Json) :
    ofRecord? j = none ∨ ofList? j = none := by
  cases j with
  | arr items =>
    refine or_iff_not_imp_left.mpr fun hrecord => ?_
    obtain ⟨models, hmodels⟩ := Option.ne_none_iff_exists'.mp hrecord
    obtain ⟨docs, rfl, hdocs⟩ := eq_of_ofRecord?_arr hmodels
    by_contra hlist
    obtain ⟨listed, hlisted⟩ := Option.ne_none_iff_exists'.mp hlist
    -- the one item is the list of models of the record and, in the list, a model
    obtain ⟨m, -, hm⟩ := forall₂_mem_left (mapM_eq_some_iff_forall₂.mp hlisted) _ List.mem_cons_self
    obtain ⟨name, rest, rfl⟩ := Model.eq_of_ofJson?_arr hm
    obtain ⟨first, -, hfirst⟩ :=
      forall₂_mem_left (mapM_eq_some_iff_forall₂.mp hdocs) _ List.mem_cons_self
    rw [Json.text, Model.ofJson?_str] at hfirst
    cases hfirst
  | _ => exact Or.inr rfl

/-- No models, as a record that is an array and as a bare list. -/
example : ofRecord? (.arr [.arr []]) = some [] ∧ ofList? (.arr []) = some [] := ⟨rfl, rfl⟩

/-! ### Reading back -/

theorem ofRecord?_toJson (models : List Model) : ofRecord? (toJson models) = some models :=
  Model.codes.list.read_write models

theorem ofList?_arr (models : List Model) :
    ofList? (.arr (models.map (·.toJson))) = some models :=
  Model.codes.list.read_write models

theorem portable_arr (models : List Model) (levels : Nat) :
    Portable (levels + 5) (.arr (models.map (·.toJson))) :=
  .arr (List.forall_mem_map.mpr fun m _ => m.portable levels)

theorem portable_toJson (models : List Model) (levels : Nat) :
    Portable (levels + 6) (toJson models) :=
  .object (List.forall_mem_singleton.mpr (portable_arr models levels))

/-- The tree of a text, from which either form is read. -/
def tree? (s : String) : Option Json := (Json.parse? s).filter Json.fits

/-- Reads a text as a record alone. -/
def parseRecord? (s : String) : Option (List Model) := (tree? s).bind ofRecord?

/-- Reads a text as a bare list alone. -/
def parseList? (s : String) : Option (List Model) := (tree? s).bind ofList?

theorem parse?_eq_bind (s : String) : parse? s = (tree? s).bind ofJson? := by
  rw [parse?, tree?]
  cases Json.parse? s with
  | none => rfl
  | some j =>
    rw [Option.filter_some]
    change (if j.fits then ofJson? j else none) = _
    split <;> rfl

theorem parse?_eq_orElse (s : String) : parse? s = (parseRecord? s <|> parseList? s) := by
  rw [parse?_eq_bind, parseRecord?, parseList?]
  cases tree? s <;> rfl

theorem parseRecord?_eq_none_or_parseList?_eq_none (s : String) :
    parseRecord? s = none ∨ parseList? s = none := by
  rw [parseRecord?, parseList?]
  cases tree? s with
  | none => exact Or.inl rfl
  | some j => exact ofRecord?_eq_none_or_ofList?_eq_none j

theorem parse?_eq_some_iff {s : String} {models : List Model} :
    parse? s = some models ↔ parseRecord? s = some models ∨ parseList? s = some models := by
  rw [parse?_eq_orElse]
  rcases parseRecord?_eq_none_or_parseList?_eq_none s with h | h <;> simp [h]

/-- A document that fits a tree is read from its text in either layout. -/
theorem tree?_of_portable {j : Json} (h : Portable Json.maxDepth j) :
    ∀ write ∈ [Json.compact, Json.pretty], tree? (write j) = some j := by
  have htree {s : String} (hs : Json.parse? s = some j) : tree? s = some j := by
    rw [tree?, hs, Option.filter_some, Json.fits, if_pos h.fits]
  simp only [List.forall_mem_cons]
  exact ⟨htree (Json.parse?_compact h.writable), htree (Json.parse?_pretty h.writable),
    List.forall_mem_nil _⟩

/-- No text is a candidate in both forms, so that it is read alike whichever form is tried first,
and as what one of the forms alone reads. The models of a candidate are read back from either form,
however it is laid out. -/
theorem parse?_forms :
    (∀ s, parseRecord? s = none ∨ parseList? s = none) ∧
    (∀ s, parse? s = (parseRecord? s <|> parseList? s) ∧
      parse? s = (parseList? s <|> parseRecord? s)) ∧
    (∀ s models, parse? s = some models ↔
      parseRecord? s = some models ∨ parseList? s = some models) ∧
    ∀ models, ∀ write ∈ [Json.compact, Json.pretty],
      parse? (write (.arr (models.map (·.toJson)))) = some models ∧
      parse? (write (toJson models)) = some models := by
  refine ⟨parseRecord?_eq_none_or_parseList?_eq_none, fun s => ⟨parse?_eq_orElse s, ?_⟩,
    fun _ _ => parse?_eq_some_iff, fun models write hwrite => ⟨?_, ?_⟩⟩
  · rw [parse?_eq_orElse]
    rcases parseRecord?_eq_none_or_parseList?_eq_none s with h | h <;> simp [h]
  · refine parse?_eq_some_iff.mpr (Or.inr ?_)
    rw [parseList?, tree?_of_portable (portable_arr models 122) write hwrite]
    exact ofList?_arr models
  · refine parse?_eq_some_iff.mpr (Or.inl ?_)
    rw [parseRecord?, tree?_of_portable (portable_toJson models 121) write hwrite]
    exact ofRecord?_toJson models

end Candidate

end SchemaGate
