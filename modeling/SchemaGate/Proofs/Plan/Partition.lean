import Mathlib.Data.List.Lattice
import Mathlib.Data.List.Pairwise
import SchemaGate.Proofs.Repeats
import SchemaGate.Workflow

/-!
# Groups that partition the required tables

No planning error on tables remains exactly when the groups partition the required tables
(`partitionErrors_eq_nil_iff`). The check walks the groups one by one; with the claims before a
group, those are the claims before each table of all groups in one list. A list of components is
free of errors when moreover their filenames are well-formed and distinct and so are their labels
(`checkErrors_eq_nil_iff`).
-/

namespace SchemaGate.Plan

/-- The groups claim the required tables, each once, and none claims nothing. -/
structure Partitions (groups : List TableGroup) (required : List String) : Prop where
  tables_ne_nil : ∀ g ∈ groups, g.tables ≠ []
  nodup : (groups.flatMap (·.tables)).Nodup
  covers : ∀ table, table ∈ groups.flatMap (·.tables) ↔ table ∈ required

/-! ### Claims -/

theorem map_snd_flatMap_claims (groups : List TableGroup) :
    (groups.flatMap (·.claims)).map (·.2) = groups.flatMap (·.tables) := by
  rw [List.map_flatMap]
  congr 1
  funext g
  simp [TableGroup.claims, Function.comp_def]

theorem claimErrors_eq_nil_iff {required : List String} {earlier : List (String × String)}
    {claim : String × String} :
    claimErrors required earlier claim = [] ↔
      claim.2 ∈ required ∧ claim.2 ∉ earlier.map (·.2) := by
  rw [claimErrors, ← find?_eq_none_iff_not_mem_map]
  cases earlier.find? (·.2 == claim.2) <;> simp

theorem groupErrors_eq_nil_iff {required : List String} {earlier : List (String × String)}
    {g : TableGroup} :
    groupErrors required earlier g = [] ↔ g.tables ≠ [] ∧
      ∀ p ∈ withEarlier g.claims, claimErrors required (earlier ++ p.1) p.2 = [] := by
  simp [groupErrors, List.flatMap_eq_nil_iff]

/-- Groups walked one by one are their claims walked in one list. -/
theorem forall_groupErrors_eq_nil_iff {groups : List TableGroup} {required : List String} :
    (∀ p ∈ withEarlier groups, groupErrors required (p.1.flatMap (·.claims)) p.2 = []) ↔
      (∀ g ∈ groups, g.tables ≠ []) ∧
        ∀ p ∈ withEarlier (groups.flatMap (·.claims)), claimErrors required p.1 p.2 = [] := by
  rw [withEarlier_flatMap, ← forall_withEarlier_snd (P := fun g : TableGroup => g.tables ≠ [])]
  simp only [groupErrors_eq_nil_iff, List.forall_mem_flatMap, List.forall_mem_map]
  exact forall₂_and

theorem forall_claimErrors_eq_nil_iff {claims : List (String × String)} {required : List String} :
    (∀ p ∈ withEarlier claims, claimErrors required p.1 p.2 = []) ↔
      (∀ table ∈ claims.map (·.2), table ∈ required) ∧ (claims.map (·.2)).Nodup := by
  rw [List.forall_mem_map]
  exact forall_withEarlier_iff fun _ _ => claimErrors_eq_nil_iff

/-! ### Required tables -/

theorem unassignedErrors_eq_nil_iff {groups : List TableGroup} {required : List String} :
    unassignedErrors groups required = [] ↔
      ∀ table ∈ required, table ∈ groups.flatMap (·.tables) := by
  have hall : unassignedErrors groups required = [] ↔ ∀ p ∈ withEarlier required,
      p.2 ∉ p.1 → p.2 ∈ groups.flatMap (·.tables) := by
    simp only [unassignedErrors, List.map_eq_nil_iff, List.filter_eq_nil_iff]
    refine forall₂_congr ?_
    rintro ⟨earlier, table⟩ -
    rw [not_imp_comm]
    simp
  rw [hall]
  constructor
  · intro h table htable
    -- the error stands where the table is first required
    obtain ⟨earlier, later, hsplit, hnew⟩ := List.eq_append_cons_of_mem htable
    exact h (earlier, table) (mem_withEarlier.mpr ⟨later, hsplit⟩) hnew
  · intro h p hp _
    exact (forall_withEarlier_snd (P := (· ∈ groups.flatMap (·.tables)))).mpr h p hp

theorem partitionErrors_eq_nil_iff {groups : List TableGroup} {required : List String} :
    partitionErrors groups required = [] ↔ Partitions groups required := by
  rw [partitionErrors, List.append_eq_nil_iff, List.flatMap_eq_nil_iff,
    forall_groupErrors_eq_nil_iff, forall_claimErrors_eq_nil_iff, map_snd_flatMap_claims,
    unassignedErrors_eq_nil_iff]
  constructor
  · rintro ⟨⟨hne, hrequired, hnodup⟩, hassigned⟩
    exact ⟨hne, hnodup, fun table => ⟨hrequired table, hassigned table⟩⟩
  · intro h
    exact ⟨⟨h.tables_ne_nil, fun table => (h.covers table).mp, h.nodup⟩,
      fun table => (h.covers table).mpr⟩

/-- The same of groups that are made of other things. -/
theorem partitions_map_iff {α : Type} {f : α → TableGroup} {l : List α} {required : List String} :
    Partitions (l.map f) required ↔ (∀ a ∈ l, (f a).tables ≠ []) ∧
      (l.flatMap fun a => (f a).tables).Nodup ∧
        ∀ table, table ∈ l.flatMap (fun a => (f a).tables) ↔ table ∈ required := by
  have htables : (l.map f).flatMap (·.tables) = l.flatMap fun a => (f a).tables :=
    List.flatMap_map ..
  constructor
  · intro h
    have hnodup := h.nodup
    have hcovers := h.covers
    rw [htables] at hnodup hcovers
    exact ⟨fun a ha => h.tables_ne_nil _ (List.mem_map_of_mem ha), hnodup, hcovers⟩
  · rintro ⟨hne, hnodup, hcovers⟩
    refine ⟨fun g hg => ?_, htables ▸ hnodup, htables ▸ hcovers⟩
    obtain ⟨a, ha, rfl⟩ := List.mem_map.mp hg
    exact hne a ha

/-! ### Supplied components -/

theorem flatMap_tables_componentGroup (components : List Component) :
    (components.map componentGroup).flatMap (·.tables) = ownedTables components := by
  rw [List.flatMap_map]
  rfl

theorem checkErrors_eq_nil_iff {components : List Component} {required : List String} :
    checkErrors components required = [] ↔
      (∀ c ∈ components, Text.isComponentFilename c.filename) ∧
        (components.map (·.filename)).Nodup ∧ (components.map (·.domain)).Nodup ∧
        Partitions (components.map componentGroup) required := by
  have hnaming : (∀ p ∈ withEarlier components, namingErrors p.1 p.2 = []) ↔
      (∀ c ∈ components, Text.isComponentFilename c.filename) ∧
        (components.map (·.filename)).Nodup ∧ (components.map (·.domain)).Nodup := by
    rw [nodup_map_iff_withEarlier, nodup_map_iff_withEarlier,
      ← forall_withEarlier_snd (P := fun c : Component => Text.isComponentFilename c.filename),
      ← forall₂_and, ← forall₂_and]
    refine forall₂_congr ?_
    rintro ⟨earlier, c⟩ -
    simp [namingErrors]
  rw [checkErrors, List.append_eq_nil_iff, List.flatMap_eq_nil_iff, hnaming,
    partitionErrors_eq_nil_iff, and_assoc, and_assoc]

/-- Components of a plan without errors share no table. -/
theorem eq_of_mem_tables {components : List Component}
    (hnodup : (ownedTables components).Nodup) {c d : Component} (hc : c ∈ components)
    (hd : d ∈ components) {table : String} (htc : table ∈ c.tables) (htd : table ∈ d.tables) :
    c = d := by
  by_contra hne
  have hdisjoint := (List.nodup_flatMap.mp hnodup).2
  have : Std.Symm (Function.onFun List.Disjoint Component.tables) :=
    ⟨fun _ _ h => List.Disjoint.symm h⟩
  exact hdisjoint.forall hc hd hne htc htd

theorem check_eq_ok_iff {components : List Component} {required : Option (List String)} :
    check components required = .ok () ↔
      checkErrors components (required.getD (ownedTables components)) = [] := by
  rw [check]
  split <;> simp_all

theorem check_of_checkComponents {components : List Component} {required : Option (List String)}
    (h : checkComponents components required = .ok ()) : check components required = .ok () := by
  rw [checkComponents] at h
  cases hcheck : check components required with
  | ok => rfl
  | error _ => simp [hcheck, Except.mapError] at h

end SchemaGate.Plan
