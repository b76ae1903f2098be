import SchemaGate.Proofs.Text.Split
import SchemaGate.Text.Kebab
import SchemaGate.Text.Name

/-!
# Slugs and filenames

A slug is made of parts that single hyphens join, so that its pieces between hyphens are those parts
(`isSlug_iff_split`). What a label leaves is one whatever the label is and however it is put in kebab
case. A component's filename is recognised by cutting it at its dots and what stands before the
extension at its hyphens, although the order number, which stands between hyphens too, is made of
characters that a slug may have; that is the same as being put together from an order number, a slug
and an extension (`isComponentFilename_iff`).
-/

namespace SchemaGate.Text

/-! ### Slugs -/

/-- Parts of lower case letters and digits that are joined by single hyphens. -/
def IsSlug (cs : List Char) : Prop :=
  ∃ parts, parts ≠ [] ∧ (∀ part ∈ parts, part ≠ [] ∧ ∀ c ∈ part, c.isLower ∨ c.isDigit) ∧
    cs = ['-'].intercalate parts

variable {cs part : List Char}

theorem isSlugPart_iff : isSlugPart part ↔ part ≠ [] ∧ ∀ c ∈ part, c.isLower ∨ c.isDigit := by
  simp [isSlugPart]

theorem isExtension_iff : isExtension cs ↔ cs ≠ [] ∧ ∀ c ∈ cs, c.isLower := by
  simp [isExtension]

theorem hyphen_not_mem_of_isSlugPart (h : isSlugPart part) : '-' ∉ part := by
  intro hmem
  exact absurd ((isSlugPart_iff.mp h).2 _ hmem) (by decide)

theorem isSlug_iff_split : IsSlug cs ↔ ∀ part ∈ split '-' cs, isSlugPart part := by
  constructor
  · rintro ⟨parts, hne, hparts, rfl⟩
    have hparts : ∀ part ∈ parts, isSlugPart part := fun part hpart =>
      isSlugPart_iff.mpr (hparts part hpart)
    rwa [split_intercalate hne fun part hpart => hyphen_not_mem_of_isSlugPart (hparts part hpart)]
  · intro h
    exact ⟨split '-' cs, split_ne_nil '-' cs, fun part hpart => isSlugPart_iff.mp (h part hpart),
      (intercalate_split '-' cs).symm⟩

/-- A hyphen of a slug has a part on either side. -/
theorem IsSlug.of_append_hyphen {front back : List Char} (h : IsSlug (front ++ '-' :: back)) :
    IsSlug front ∧ IsSlug back := by
  have hsplit := isSlug_iff_split.mp h
  rw [split_append_sep] at hsplit
  obtain ⟨hfront, hback⟩ := List.forall_mem_append.mp hsplit
  exact ⟨isSlug_iff_split.mpr hfront, isSlug_iff_split.mpr hback⟩

theorem not_isSlug_nil : ¬ IsSlug [] := by
  intro h
  exact absurd (isSlug_iff_split.mp h [] (by simp [split])) (by decide)

theorem not_isSlug_hyphen_cons (back : List Char) : ¬ IsSlug ('-' :: back) := by
  intro h
  have hback : IsSlug ([] ++ '-' :: back) := h
  exact not_isSlug_nil hback.of_append_hyphen.1

theorem isSlugChar_of_isSlug (h : IsSlug cs) {c : Char} (hc : c ∈ cs) : isSlugChar c := by
  obtain ⟨parts, -, hparts, rfl⟩ := h
  rcases mem_intercalate hc with hhyphen | ⟨part, hpart, hc⟩
  · rw [List.mem_singleton.mp hhyphen]
    decide
  · rcases (hparts part hpart).2 c hc with hlower | hdigit
    · simp [isSlugChar, hlower]
    · simp [isSlugChar, hdigit]

theorem isSlugPart_of_mem_slugParts (h : part ∈ slugParts cs) : isSlugPart part := by
  obtain ⟨hsplit, hne⟩ := List.mem_filter.mp h
  have hhyphen := not_mem_of_mem_split hsplit
  refine isSlugPart_iff.mpr ⟨by simpa using hne, fun c hc => ?_⟩
  have hslug : isSlugChar c := (List.mem_filter.mp (mem_of_mem_split hsplit hc)).2
  have hother : c ≠ '-' := fun hsame => hhyphen (hsame ▸ hc)
  simpa [isSlugChar, hother] using hslug

theorem isSlug_slug (label : String) : IsSlug (slug label).toList := by
  rw [slug]
  split
  · rw [isSlug_iff_split]
    decide
  · next hne =>
    refine ⟨slugParts label.toList, hne, fun part hpart => ?_, String.toList_ofList⟩
    exact isSlugPart_iff.mp (isSlugPart_of_mem_slugParts hpart)

/-- A slug is its own slug. -/
theorem slug_of_isSlug {label : String} (h : IsSlug label.toList) : slug label = label := by
  have hchars : label.toList.filter isSlugChar = label.toList :=
    List.filter_eq_self.mpr fun c hc => isSlugChar_of_isSlug h hc
  have hparts : slugParts label.toList = split '-' label.toList := by
    rw [slugParts, hchars, List.filter_eq_self]
    intro part hpart
    exact decide_eq_true (isSlugPart_iff.mp (isSlug_iff_split.mp h part hpart)).1
  rw [slug, hparts]
  split
  · next hnil => exact absurd hnil (split_ne_nil '-' _)
  · rw [intercalate_split, String.ofList_toList]

/-! ### Filenames -/

theorem dot_not_mem_of_isSlug (h : IsSlug cs) : '.' ∉ cs :=
  fun hmem => absurd (isSlugChar_of_isSlug h hmem) (by decide)

theorem dot_not_mem_of_isExtension (h : isExtension cs) : '.' ∉ cs :=
  fun hmem => absurd ((isExtension_iff.mp h).2 _ hmem) (by decide)

/-- A component's filename is put together from an order number, a slug and an extension. -/
theorem isComponentFilename_iff {s : String} : isComponentFilename s ↔
    ∃ order domain extension, (2 ≤ order.length ∧ ∀ c ∈ order, c.isDigit) ∧ IsSlug domain ∧
      isExtension extension ∧
      s.toList = filenameHead.toList ++ '-' :: (order ++ '-' :: (domain ++ '.' :: extension)) := by
  constructor
  · intro h
    rw [isComponentFilename] at h
    split at h
    · next stem extension hdots =>
      split at h
      · next head order part parts hhyphens =>
        simp only [Bool.and_eq_true, beq_iff_eq, decide_eq_true_eq, List.all_eq_true] at h
        obtain ⟨⟨⟨⟨rfl, hlength⟩, horder⟩, hparts⟩, hextension⟩ := h
        have hdomain : IsSlug (['-'].intercalate (part :: parts)) :=
          ⟨_, List.cons_ne_nil _ _, fun part hpart => isSlugPart_iff.mp (hparts part hpart), rfl⟩
        refine ⟨order, _, extension, ⟨hlength, horder⟩, hdomain, hextension, ?_⟩
        calc s.toList = stem ++ '.' :: extension := by
              simpa [hdots] using (intercalate_split '.' s.toList).symm
          _ = (filenameHead.toList ++ '-' :: (order ++ '-' :: ['-'].intercalate (part :: parts))) ++
              '.' :: extension := by
              rw [← intercalate_split '-' stem, hhyphens]
              simp [List.intercalate_cons_cons]
          _ = _ := by simp
      · cases h
    · cases h
  · rintro ⟨order, domain, extension, ⟨hlength, horder⟩, hdomain, hextension, htext⟩
    have hhyphen : '-' ∉ order := fun hmem => absurd (horder _ hmem) (by decide)
    have hdot : '.' ∉ filenameHead.toList ++ '-' :: (order ++ '-' :: domain) := by
      have hhead : '.' ∉ filenameHead.toList := by decide
      have hnumber : '.' ∉ order := fun hmem => absurd (horder _ hmem) (by decide)
      simp [hhead, hnumber, dot_not_mem_of_isSlug hdomain]
    -- the text falls apart at its dot, and what stands before that at its hyphens
    have hdots : split '.' s.toList =
        [filenameHead.toList ++ '-' :: (order ++ '-' :: domain), extension] := by
      have hgroups : s.toList = (filenameHead.toList ++ '-' :: (order ++ '-' :: domain)) ++
          '.' :: extension := by simp [htext]
      rw [hgroups, split_append_cons hdot, split_of_not_mem (dot_not_mem_of_isExtension hextension)]
    have hhyphens : split '-' (filenameHead.toList ++ '-' :: (order ++ '-' :: domain)) =
        filenameHead.toList :: order :: split '-' domain := by
      rw [split_append_cons (by decide), split_append_cons hhyphen]
    obtain ⟨part, parts, hparts⟩ := List.exists_cons_of_ne_nil (split_ne_nil '-' domain)
    have hall : (part :: parts).all isSlugPart :=
      List.all_eq_true.mpr (hparts ▸ isSlug_iff_split.mp hdomain)
    rw [isComponentFilename, hdots]
    simp only [hhyphens, hparts, hall, hextension, hlength, List.all_eq_true.mpr horder,
      beq_self_eq_true, decide_true, Bool.and_self]

theorem slash_not_mem_of_isComponentFilename {name : String} (h : isComponentFilename name) :
    '/' ∉ name.toList := by
  obtain ⟨order, domain, extension, ⟨-, horder⟩, hdomain, hextension, htext⟩ :=
    isComponentFilename_iff.mp h
  have hhead : '/' ∉ filenameHead.toList := by decide
  have hnumber : '/' ∉ order := fun hmem => absurd (horder _ hmem) (by decide)
  have hslug : '/' ∉ domain := fun hmem => absurd (isSlugChar_of_isSlug hdomain hmem) (by decide)
  have hlower : '/' ∉ extension := fun hmem =>
    absurd ((isExtension_iff.mp hextension).2 _ hmem) (by decide)
  simp [htext, hhead, hnumber, hslug, hlower]

/-- What a label leaves is a slug, however it is put in kebab case, and a slug is left as it is; a
slug has no hyphen at its ends nor two in a row. A component's filename is recognised exactly where
it is an order number of two digits or more, a slug and an extension behind the first word, so that
a line feed at the end is no part of one. -/
theorem shape_of_slug_and_filename :
    (∀ (caseOf : String → String) (label : String), IsSlug (slug (caseOf label)).toList) ∧
    (∀ label : String, IsSlug label.toList → slug label = label) ∧
    (∀ cs, IsSlug cs → cs.head? ≠ some '-' ∧ cs.getLast? ≠ some '-' ∧ ¬ ['-', '-'] <:+: cs) ∧
    (∀ s, isComponentFilename s ↔ ∃ order domain extension,
      (2 ≤ order.length ∧ ∀ c ∈ order, c.isDigit) ∧ IsSlug domain ∧
        (extension ≠ [] ∧ ∀ c ∈ extension, c.isLower) ∧
        s.toList = "schema-".toList ++ order ++ "-".toList ++ domain ++ ".".toList ++ extension) ∧
    ∀ s, ¬ isComponentFilename (s ++ "\n") := by
  refine ⟨fun caseOf label => isSlug_slug _, fun label => slug_of_isSlug, ?_, ?_, ?_⟩
  · intro cs h
    refine ⟨fun hhead => ?_, fun hlast => ?_, ?_⟩
    · obtain ⟨back, rfl⟩ := List.head?_eq_some_iff.mp hhead
      exact not_isSlug_hyphen_cons back h
    · obtain ⟨front, rfl⟩ := List.getLast?_eq_some_iff.mp hlast
      exact not_isSlug_nil h.of_append_hyphen.2
    · rintro ⟨front, back, rfl⟩
      rw [List.append_assoc] at h
      exact not_isSlug_hyphen_cons back h.of_append_hyphen.2
  · intro s
    rw [isComponentFilename_iff]
    simp only [isExtension_iff, filenameHead]
    simp
  · intro s h
    obtain ⟨order, domain, extension, -, -, hextension, htext⟩ := isComponentFilename_iff.mp h
    obtain ⟨hne, hlower⟩ := isExtension_iff.mp hextension
    obtain ⟨front, last, rfl⟩ : ∃ front last, extension = front ++ [last] :=
      ⟨_, _, (List.dropLast_append_getLast hne).symm⟩
    have hfeed : last = '\n' := by
      have hlasts := congrArg List.getLast? htext
      simpa [List.getLast?_append, List.getLast?_cons] using hlasts.symm
    exact absurd (hlower last (by simp)) (by simp [hfeed])

end SchemaGate.Text
