import SchemaGate.Disk.Path
import SchemaGate.Proofs.Text.Slugs

/-!
# Names and the paths made of them

A name that is joined to the path of a directory becomes one more part behind the parts of that path
(`parts_join`), so that different names have different paths (`join_injective`). The extension of a
name is what follows its last dot, where something stands before that dot
(`extension?_eq_some_iff`).
-/

namespace SchemaGate.Path

/-! ### Names -/

/-- A name that leads to a child of the directory it is looked up in. -/
structure IsName (name : String) : Prop where
  slash : '/' ∉ name.toList
  ne_empty : name ≠ ""
  ne_dot : name ≠ "."
  ne_dots : name ≠ ".."

instance (name : String) : Decidable (IsName name) :=
  decidable_of_iff ('/' ∉ name.toList ∧ name ≠ "" ∧ name ≠ "." ∧ name ≠ "..")
    ⟨fun ⟨slash, empty, dot, dots⟩ => ⟨slash, empty, dot, dots⟩,
      fun ⟨slash, empty, dot, dots⟩ => ⟨slash, empty, dot, dots⟩⟩

theorem isName_of_isComponentFilename {name : String} (h : Text.isComponentFilename name) :
    IsName name := by
  refine ⟨Text.slash_not_mem_of_isComponentFilename h, ?_, ?_, ?_⟩
  · rintro rfl
    exact absurd h (by decide)
  · rintro rfl
    exact absurd h (by decide)
  · rintro rfl
    exact absurd h (by decide)

/-! ### Joined paths -/

variable {dir name other : String}

/-- What stands before the names in the paths of a directory's children. -/
def lead (dir : String) : String :=
  if dir = "" then ""
  else if dir.toList.getLast? = some '/' then dir
  else dir ++ "/"

theorem join_eq_lead_append (hslash : '/' ∉ name.toList) : join dir name = lead dir ++ name := by
  have hhead : name.toList.head? ≠ some '/' := fun h => hslash (List.mem_of_head? h)
  rw [join, lead]
  by_cases hdir : dir = ""
  · rw [if_pos (Or.inr hdir), if_pos hdir, String.empty_append]
  · rw [if_neg (not_or.mpr ⟨hhead, hdir⟩), if_neg hdir]
    split <;> rfl

theorem join_injective (hname : '/' ∉ name.toList) (hother : '/' ∉ other.toList)
    (h : join dir name = join dir other) : name = other := by
  rw [join_eq_lead_append hname, join_eq_lead_append hother] at h
  exact (String.append_right_inj _).mp h

theorem join_ne_empty (hname : IsName name) : join dir name ≠ "" := by
  rw [join_eq_lead_append hname.slash]
  exact fun h => hname.ne_empty (String.append_eq_empty_iff.mp h).2

theorem mem_join_iff {c : Char} (hslash : '/' ∉ name.toList) (hc : c ≠ '/') :
    c ∈ (join dir name).toList ↔ c ∈ dir.toList ∨ c ∈ name.toList := by
  rw [join_eq_lead_append hslash, lead]
  split
  · next hdir => simp [hdir]
  · split <;> simp [hc]

/-- A name is the last part of its path. Of the directory's own parts one may be missing before it,
the empty one behind a slash at the end. -/
theorem parts_join (dir : String) (hslash : '/' ∉ name.toList) :
    ∃ front last, parts dir = front ++ last ∧ (last = [] ∨ last = [""]) ∧
      parts (join dir name) = front ++ [name] := by
  have hname : Text.split '/' name.toList = [name.toList] := Text.split_of_not_mem hslash
  rw [join_eq_lead_append hslash, lead]
  split
  · next hdir =>
    subst hdir
    exact ⟨[], [""], rfl, Or.inr rfl, by simp [parts, hname]⟩
  · split
    · next hlast =>
      obtain ⟨front, hfront⟩ := List.getLast?_eq_some_iff.mp hlast
      refine ⟨(Text.split '/' front).map String.ofList, [""], ?_, Or.inr rfl, ?_⟩
      · rw [parts, hfront, Text.split_append_sep]
        simp [Text.split]
      · rw [parts, String.toList_append, hfront, List.append_assoc, List.singleton_append,
          Text.split_append_sep, hname]
        simp
    · refine ⟨parts dir, [], (List.append_nil _).symm, Or.inl rfl, ?_⟩
      have hmiddle : (dir ++ "/" ++ name).toList = dir.toList ++ '/' :: name.toList := by simp
      rw [parts, hmiddle, Text.split_append_sep, hname]
      simp [parts]

/-! ### Extensions -/

/-- The name ends in a dot and the extension, and something stands before the dot. -/
def HasExtension (name extension : String) : Prop :=
  '.' ∉ extension.toList ∧ ∃ stem, stem ≠ "" ∧ name = stem ++ "." ++ extension

theorem extension?_eq_some_iff {extension : String} :
    extension? name = some extension ↔ HasExtension name extension := by
  rw [extension?]
  constructor
  · intro h
    split at h
    · cases h
    · cases h
    · next hone htwo =>
      obtain ⟨last, hlast, rfl⟩ := Option.map_eq_some_iff.mp h
      obtain ⟨front, hsplit⟩ := List.getLast?_eq_some_iff.mp hlast
      have hlast : last ∈ Text.split '.' name.toList := by simp [hsplit]
      have hdot : '.' ∉ last := Text.not_mem_of_mem_split hlast
      have hfront : front ≠ [] := by
        rintro rfl
        exact hone _ hsplit
      have htext : name.toList = ['.'].intercalate front ++ '.' :: last := by
        rw [← Text.intercalate_split '.' name.toList, hsplit, intercalate_concat _ hfront]
        simp
      refine ⟨by simpa using hdot, .ofList (['.'].intercalate front), ?_, ?_⟩
      -- a dot that nothing stands before is the first character
      · intro hnil
        have hstem : ['.'].intercalate front = [] := by simpa using hnil
        rw [hstem] at htext
        refine htwo last ?_
        rw [htext, Text.split_append_cons (by simp), Text.split_of_not_mem hdot]
      · rw [← String.toList_inj, htext]
        simp
  · rintro ⟨hdot, stem, hstem, rfl⟩
    have hsplit : Text.split '.' (stem ++ "." ++ extension).toList =
        Text.split '.' stem.toList ++ [extension.toList] := by
      have htext : (stem ++ "." ++ extension).toList = stem.toList ++ '.' :: extension.toList := by
        simp
      rw [htext, Text.split_append_sep, Text.split_of_not_mem hdot]
    have hne : Text.split '.' stem.toList ≠ [[]] := by
      intro hnil
      have hjoined := Text.intercalate_split '.' stem.toList
      rw [hnil] at hjoined
      exact hstem (by simpa using hjoined.symm)
    rw [hsplit]
    split
    · next h => exact absurd (List.append_eq_singleton_iff.mp h) (by simp [Text.split_ne_nil])
    · next last h =>
      have hlast : Text.split '.' stem.toList ++ [extension.toList] = [[]] ++ [last] := h
      exact absurd (List.append_inj' hlast rfl).1 hne
    · simp

end SchemaGate.Path
