import Mathlib.Data.List.Basic
import SchemaGate.Text.Blank

/-!
# Pieces of a text

`Text.split` is the splitting of lists at a separator, with its laws: a separator behind a piece
without one ends that piece (`split_append_cons`), pieces that were joined come apart again
(`split_intercalate`), and joined they are the text (`intercalate_split`). Parts that a separator
ends each are split one by one (`splitOn_flatMap_concat`).
-/

namespace SchemaGate

theorem mem_intercalate {α : Type} {sep : List α} {parts : List (List α)} {a : α}
    (h : a ∈ sep.intercalate parts) : a ∈ sep ∨ ∃ part ∈ parts, a ∈ part := by
  induction parts with
  | nil => simp at h
  | cons part parts ih =>
    cases parts with
    | nil => exact Or.inr ⟨part, by simp, by simpa using h⟩
    | cons next parts =>
      rw [List.intercalate_cons_cons, List.mem_append, List.mem_append] at h
      rcases h with (hpart | hsep) | hrest
      · exact Or.inr ⟨part, by simp, hpart⟩
      · exact Or.inl hsep
      · rcases ih hrest with hsep | ⟨part, hpart, ha⟩
        · exact Or.inl hsep
        · exact Or.inr ⟨part, List.mem_cons_of_mem _ hpart, ha⟩

theorem intercalate_concat {α : Type} (sep : List α) {parts : List (List α)} (h : parts ≠ [])
    (last : List α) :
    sep.intercalate (parts ++ [last]) = sep.intercalate parts ++ sep ++ last := by
  induction parts with
  | nil => exact absurd rfl h
  | cons part parts ih =>
    cases parts with
    | nil => simp [List.intercalate_cons_cons]
    | cons next parts =>
      rw [List.cons_append, List.intercalate_cons_of_ne_nil (by simp), ih (List.cons_ne_nil _ _)]
      simp [List.intercalate_cons_cons]

theorem filter_intercalate {α : Type} (p : α → Bool) (sep : List α) (parts : List (List α)) :
    (sep.intercalate parts).filter p =
      (sep.filter p).intercalate (parts.map fun part => part.filter p) := by
  induction parts with
  | nil => simp
  | cons part parts ih =>
    cases parts with
    | nil => simp
    | cons next parts =>
      rw [List.intercalate_cons_cons, List.filter_append, List.filter_append, ih]
      exact List.intercalate_cons_cons.symm

theorem flatMap_intercalate {α β : Type} (f : α → List β) (sep : List α) (parts : List (List α)) :
    (sep.intercalate parts).flatMap f =
      (sep.flatMap f).intercalate (parts.map fun part => part.flatMap f) := by
  induction parts with
  | nil => simp
  | cons part parts ih =>
    cases parts with
    | nil => simp
    | cons next parts =>
      rw [List.intercalate_cons_cons, List.flatMap_append, List.flatMap_append, ih]
      exact List.intercalate_cons_cons.symm

theorem splitOn_flatMap_concat {α β : Type} [BEq β] [LawfulBEq β] (f : α → List β) (sep : β)
    (l : List α) :
    (l.flatMap fun a => f a ++ [sep]).splitOn sep =
      (l.flatMap fun a => (f a).splitOn sep) ++ [[]] := by
  induction l with
  | nil => rfl
  | cons a l ih =>
    rw [List.flatMap_cons, List.append_assoc, List.singleton_append,
      List.splitOn_append_cons_self, ih, List.flatMap_cons, List.append_assoc]

/-- Where no part holds the separator, the parts come back. -/
theorem splitOn_flatMap_concat_of_not_mem {α β : Type} [BEq β] [LawfulBEq β] {f : α → List β}
    {sep : β} {l : List α} (h : ∀ a ∈ l, sep ∉ f a) :
    (l.flatMap fun a => f a ++ [sep]).splitOn sep = l.map f ++ [[]] := by
  rw [splitOn_flatMap_concat, List.map_eq_flatMap]
  congr 1
  exact List.flatMap_congr fun a ha => List.splitOn_eq_singleton (h a ha)

namespace Text

theorem split_eq_splitOn (sep : Char) (cs : List Char) : split sep cs = cs.splitOn sep := by
  induction cs with
  | nil => rfl
  | cons c cs ih =>
    rw [split, ih, List.splitOn_cons_eq_if_modifyHead]
    by_cases hc : c = sep
    · rw [if_pos hc, if_pos (by simpa using hc)]
    · rw [if_neg hc, if_neg (by simpa using hc)]
      obtain ⟨piece, pieces, h⟩ := List.exists_cons_of_ne_nil (List.splitOn_ne_nil sep cs)
      rw [h]
      rfl

theorem split_append_cons {sep : Char} {front back : List Char} (h : sep ∉ front) :
    split sep (front ++ sep :: back) = front :: split sep back := by
  rw [split_eq_splitOn, split_eq_splitOn, List.splitOn_append_cons_self_of_not_mem h]

/-- Text without a separator goes on to the first one behind it. -/
theorem split_append {sep : Char} {front : List Char} (h : sep ∉ front) (back : List Char) :
    split sep (front ++ back) = (split sep back).modifyHead (front ++ ·) := by
  induction front with
  | nil =>
    rw [List.nil_append]
    cases split sep back <;> rfl
  | cons c front ih =>
    obtain ⟨hc, hfront⟩ := not_or.mp (mt List.mem_cons.mpr h)
    rw [List.cons_append, split, if_neg (Ne.symm hc), ih hfront]
    obtain ⟨piece, pieces, hback⟩ := List.exists_cons_of_ne_nil (split_ne_nil sep back)
    rw [hback]
    rfl

/-- A separator divides a text whatever stands before it. -/
theorem split_append_sep (sep : Char) (front back : List Char) :
    split sep (front ++ sep :: back) = split sep front ++ split sep back := by
  rw [split_eq_splitOn, split_eq_splitOn, split_eq_splitOn, List.splitOn_append_cons_self]

theorem split_of_not_mem {sep : Char} {cs : List Char} (h : sep ∉ cs) : split sep cs = [cs] := by
  rw [split_eq_splitOn, List.splitOn_eq_singleton h]

theorem split_intercalate {sep : Char} {parts : List (List Char)} (hne : parts ≠ [])
    (h : ∀ part ∈ parts, sep ∉ part) : split sep ([sep].intercalate parts) = parts := by
  rw [split_eq_splitOn, List.splitOn_intercalate sep h hne]

/-- A text that ends at a line feed has as many lines as pieces that end there. -/
theorem length_lines_of_split {cs : List Char} {pieces : List (List Char)}
    (h : split '\n' cs = pieces ++ [[]]) : (lines cs).length = pieces.length := by
  simp [lines, h]

theorem mem_of_mem_split {sep : Char} {cs piece : List Char} (h : piece ∈ split sep cs) {c : Char}
    (hc : c ∈ piece) : c ∈ cs := by
  induction cs generalizing piece with
  | nil => simp_all [split]
  | cons x cs ih =>
    rw [split] at h
    split at h
    · rcases List.mem_cons.mp h with rfl | h
      · cases hc
      · exact List.mem_cons_of_mem _ (ih h hc)
    · split at h
      · next hsplit => exact absurd hsplit (split_ne_nil sep cs)
      · next first pieces hsplit =>
        rcases List.mem_cons.mp h with rfl | h
        · rcases List.mem_cons.mp hc with rfl | hc
          · exact List.mem_cons_self
          · exact List.mem_cons_of_mem _ (ih (hsplit ▸ List.mem_cons_self) hc)
        · exact List.mem_cons_of_mem _ (ih (hsplit ▸ List.mem_cons_of_mem _ h) hc)

/-- The pieces of a text make the text again. -/
theorem intercalate_split (sep : Char) (cs : List Char) :
    [sep].intercalate (split sep cs) = cs := by
  rw [split_eq_splitOn]
  exact List.intercalate_splitOn sep

end Text

end SchemaGate
