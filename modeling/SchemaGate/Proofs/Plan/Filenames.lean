import SchemaGate.Proofs.Plan.Hints
import SchemaGate.Proofs.Text.Slugs
import SchemaGate.Workflow

/-!
# Planned filenames

The filenames of a plan have the shape that is checked of supplied ones, whatever the labels and
however those are put in kebab case: they are put together from an order number of two digits or
more and a slug (`isComponentFilename_filename`). The number is read back from a filename
(`orderNumber?_filename`), so that filenames differ even where slugs do not, and a plan always
passes the check (`check_of_planned`).
-/

namespace SchemaGate.Plan

open Text (filenameHead isComponentFilename slug)

/-! ### Order numbers -/

theorem toList_orderText (order : Nat) : (orderText order).toList =
    if order < 10 then '0' :: Nat.toDigits 10 order else Nat.toDigits 10 order := by
  rw [orderText]
  split <;> simp [toString]

theorem isDigit_of_mem_orderText {order : Nat} {c : Char} (h : c ∈ (orderText order).toList) :
    c.isDigit := by
  rw [toList_orderText] at h
  split at h
  · rcases List.mem_cons.mp h with rfl | h
    · rfl
    · exact Nat.isDigit_of_mem_toDigits (by decide) (by decide) h
  · exact Nat.isDigit_of_mem_toDigits (by decide) (by decide) h

theorem all_isDigit_orderText (order : Nat) : (orderText order).toList.all Char.isDigit :=
  List.all_eq_true.mpr fun _ => isDigit_of_mem_orderText

theorem two_le_length_orderText (order : Nat) : 2 ≤ (orderText order).toList.length := by
  rw [toList_orderText]
  split
  · have hpos : 0 < (Nat.toDigits 10 order).length := Nat.length_toDigits_pos
    rw [List.length_cons]
    omega
  · next hlarge =>
    have hshort := Nat.length_toDigits_le_iff (n := order) (k := 1) (b := 10) (by decide) (by decide)
    omega

theorem ofDigitChars_orderText (order : Nat) :
    Nat.ofDigitChars 10 (orderText order).toList 0 = order := by
  rw [toList_orderText]
  split
  · rw [Nat.ofDigitChars_cons]
    exact Nat.ofDigitChars_ten_toDigits
  · exact Nat.ofDigitChars_ten_toDigits

/-! ### Filenames -/

/-- The decimal number between the first two hyphens of a filename. -/
def orderNumber? (filename : String) : Option Nat :=
  match Text.split '-' filename.toList with
  | _ :: digits :: _ :: _ =>
    if digits.all Char.isDigit then some (Nat.ofDigitChars 10 digits 0) else none
  | _ => none

theorem toList_filename (order : Nat) (label extension : String) :
    (filename order label extension).toList =
      filenameHead.toList ++ '-' :: ((orderText order).toList ++ '-' :: (label.toList ++
        '.' :: extension.toList)) := by
  simp [filename, toString]

theorem hyphen_not_mem_orderText (order : Nat) : '-' ∉ (orderText order).toList :=
  fun h => absurd (isDigit_of_mem_orderText h) (by decide)

/-- The order number stands in a filename, whatever its slug and extension. -/
theorem orderNumber?_filename (order : Nat) (label extension : String) :
    orderNumber? (filename order label extension) = some order := by
  have hdigits := all_isDigit_orderText order
  obtain ⟨piece, pieces, hrest⟩ := List.exists_cons_of_ne_nil
    (Text.split_ne_nil '-' (label.toList ++ '.' :: extension.toList))
  rw [orderNumber?, toList_filename, Text.split_append_cons (by decide),
    Text.split_append_cons (hyphen_not_mem_orderText order), hrest]
  simp only [hdigits, if_true, ofDigitChars_orderText]

theorem isComponentFilename_filename {order : Nat} {label extension : String}
    (hextension : Text.isExtension extension.toList) :
    isComponentFilename (filename order (slug label) extension) :=
  Text.isComponentFilename_iff.mpr ⟨_, _, _,
    ⟨two_le_length_orderText order, fun _ => isDigit_of_mem_orderText⟩, Text.isSlug_slug label,
    hextension, toList_filename ..⟩

/-! ### Plans pass the check -/

section

variable {extension : String} {caseOf : String → String} {required : List String}
  {hints order : List DomainHint}

theorem map_orderNumber?_mapIdx :
    (order.mapIdx (component caseOf extension)).map (orderNumber? ·.filename) =
      (List.range order.length).map fun place => some (place + 1) := by
  refine List.ext_getElem (by simp) fun place _ _ => ?_
  simp [component, orderNumber?_filename]

/-- Filenames with numbers of their own are distinct, even where slugs are not. -/
theorem nodup_filenames_mapIdx :
    ((order.mapIdx (component caseOf extension)).map (·.filename)).Nodup := by
  refine List.Nodup.of_map orderNumber? ?_
  rw [List.map_map]
  have hnumbers : (order.mapIdx (component caseOf extension)).map (orderNumber? ·.filename) =
      (List.range order.length).map fun place => some (place + 1) := map_orderNumber?_mapIdx
  refine hnumbers ▸ List.Nodup.map (fun i j h => ?_) List.nodup_range
  simpa using h

theorem checkErrors_mapIdx_eq_nil (hextension : Text.isExtension extension.toList)
    (hlabels : (order.map (·.domain)).Nodup) (hne : ∀ h ∈ order, h.tables ≠ [])
    (hnodup : (order.flatMap (·.tables)).Nodup)
    (hcovers : ∀ table, table ∈ order.flatMap (·.tables) ↔ table ∈ required) :
    checkErrors (order.mapIdx (component caseOf extension)) required = [] := by
  refine checkErrors_eq_nil_iff.mpr ⟨fun c hc => ?_, nodup_filenames_mapIdx, ?_, ?_⟩
  · obtain ⟨place, hplace, rfl⟩ := List.mem_mapIdx.mp hc
    exact isComponentFilename_filename hextension
  · rwa [map_mapIdx_component _ (·.domain) _ fun _ _ => rfl]
  · have htables : ownedTables (order.mapIdx (component caseOf extension)) =
        order.flatMap (·.tables) := ownedTables_mapIdx_component order
    refine partitions_map_iff.mpr ⟨fun c hc => ?_, ?_, ?_⟩
    · obtain ⟨place, hplace, rfl⟩ := List.mem_mapIdx.mp hc
      exact hne _ (List.getElem_mem hplace)
    · change (ownedTables _).Nodup
      rwa [htables]
    · change ∀ table, table ∈ ownedTables _ ↔ table ∈ required
      rwa [htables]

end

/-- A plan passes the check against the tables it was made for and against itself: its filenames
have the shape of one, each has its own, and the numbers in them count the components from one. Of
the way in which labels are put in kebab case nothing is used. -/
theorem check_of_planned {s : Settings} (hsettings : s.check) {caseOf : String → String}
    {required : List String} {hints : List DomainHint} {components : List Component}
    (hplanned : ofHints s.output.extension required hints caseOf = .ok components) :
    check components (some required) = .ok () ∧ checkComponents components none = .ok () ∧
      (∀ c ∈ components, isComponentFilename c.filename) ∧
      (components.map (·.filename)).Nodup ∧
      ∀ place c, components[place]? = some c → orderNumber? c.filename = some (place + 1) := by
  obtain ⟨h, rfl⟩ := ofHints_eq_ok_iff.mp hplanned
  have hperm := dependencyOrder_perm h.labels_nodup
  have htables := hperm.flatMap_right (·.tables)
  have hpasses : ∀ tables, (∀ table, table ∈ (dependencyOrder hints).flatMap (·.tables) ↔
      table ∈ tables) → checkErrors ((dependencyOrder hints).mapIdx
        (component caseOf s.output.extension)) tables = [] := fun tables =>
    checkErrors_mapIdx_eq_nil hsettings (nodup_dependencyOrder hints)
      (fun a ha => h.tables_ne_nil a (hperm.subset ha)) (htables.nodup_iff.mpr h.tables_nodup)
  have hrequired := hpasses required fun table => htables.mem_iff.trans (h.covers table)
  have howned : check ((dependencyOrder hints).mapIdx (component caseOf s.output.extension)) none =
      .ok () := by
    refine check_eq_ok_iff.mpr (hpasses _ fun table => ?_)
    rw [Option.getD_none, ownedTables_mapIdx_component]
  refine ⟨check_eq_ok_iff.mpr hrequired, by rw [checkComponents, howned]; rfl,
    (checkErrors_eq_nil_iff.mp hrequired).1, nodup_filenames_mapIdx, fun place c hc => ?_⟩
  rw [List.getElem?_mapIdx, Option.map_eq_some_iff] at hc
  obtain ⟨hint, -, rfl⟩ := hc
  exact orderNumber?_filename ..

/-- Four labels of which two leave one slug and two leave none. -/
def likeHints : List DomainHint :=
  [{ domain := "Users", tables := ["user"] }, { domain := "users!", tables := ["login"] },
    { domain := "", tables := ["note"] }, { domain := "日本", tables := ["tag", "mark"] }]

theorem check_of_planned_like :
    ({} : Settings).check ∧
      ∃ components, ofHints "prisma" ["login", "mark", "note", "tag", "user"] likeHints =
          .ok components ∧
        components.map (·.filename) = ["schema-01-users.prisma", "schema-02-users.prisma",
          "schema-03-domain.prisma", "schema-04-domain.prisma"] ∧
        check components (some ["login", "mark", "note", "tag", "user"]) = .ok () ∧
        checkComponents components none = .ok () := by
  have hsettings : ({} : Settings).check := by decide
  have hplanned : ∃ components, ofHints "prisma" ["login", "mark", "note", "tag", "user"] likeHints =
      .ok components ∧ components.map (·.filename) = ["schema-01-users.prisma",
        "schema-02-users.prisma", "schema-03-domain.prisma", "schema-04-domain.prisma"] :=
    ⟨_, rfl, by decide +kernel⟩
  obtain ⟨components, hplanned, hfilenames⟩ := hplanned
  obtain ⟨hrequired, howned, -⟩ := check_of_planned hsettings hplanned
  exact ⟨hsettings, components, hplanned, hfilenames, hrequired, howned⟩

end SchemaGate.Plan
