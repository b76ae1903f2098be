import SchemaGate.Proofs.Plan.Partition

/-!
# What planning finds of each table

What is reported of a table depends on the labels of those who claim it, in the order of their
claims, and on whether it is required, but not on where the walk over the groups comes across it
(`tableErrors`): its first claimant may be told that it is not required, every later claim is one
too many, and where there is none a required table is missing. Besides, each empty group is told of,
and nothing else is (`PartitionFindings`). Where no tables are required, those that are claimed take
their place, and what is reported is what they do not bear on (`checkErrors_ownedTables`).
-/

namespace SchemaGate

namespace PlanningError

/-- The table that an error is about. -/
def table? : PlanningError → Option String
  | unassignedTable table => some table
  | duplicateAssignment table _ _ => some table
  | unknownTable _ table => some table
  | _ => none

/-- Whether an error tells of a group without tables. -/
def isEmptyComponent : PlanningError → Bool
  | emptyComponent _ => true
  | _ => false

/-- Whether an error tells how groups fail to be a partition. The others are about labels, filenames
and dependencies. -/
def isPartition : PlanningError → Bool
  | duplicateNamespace _ => false
  | duplicateFilename _ => false
  | invalidFilename _ => false
  | unknownDependency _ _ => false
  | _ => true

/-- Whether an error compares claims with what is required. -/
def isCoverage : PlanningError → Bool
  | unassignedTable _ => true
  | unknownTable _ _ => true
  | _ => false

theorem isPartition_eq (e : PlanningError) :
    e.isPartition = (e.table?.isSome || e.isEmptyComponent) := by
  cases e <;> rfl

theorem isPartition_of_isCoverage {e : PlanningError} (h : e.isCoverage) : e.isPartition := by
  cases e <;> simp_all [isCoverage, isPartition]

end PlanningError

namespace Plan

/-- The labels of those who claim a table, in the order of their claims. A group claims a table as
often as it lists it. -/
def claimants (groups : List TableGroup) (table : String) : List String :=
  groups.flatMap fun g => List.replicate (g.tables.count table) g.label

/-- What is wrong with a table that is claimed under these labels. -/
def tableErrors (required : List String) (table : String) : List String → List PlanningError
  | [] => if table ∈ required then [.unassignedTable table] else []
  | first :: again =>
    (if table ∈ required then [] else [.unknownTable first table]) ++
      again.map (.duplicateAssignment table first)

/-- The errors that are reported, none where there is a result. -/
def reported {α : Type} : Except (List PlanningError) α → List PlanningError
  | .ok _ => []
  | .error errors => errors

/-- Of every table and of every empty group there is reported what is wrong with it, and of how the
groups are split nothing else. -/
structure PartitionFindings (groups : List TableGroup) (required : List String)
    (errors : List PlanningError) : Prop where
  of_table : ∀ table, errors.filter (·.table? = some table) =
    tableErrors required table (claimants groups table)
  empty : errors.filter (·.isEmptyComponent) =
    (groups.filter (·.tables = [])).map (.emptyComponent ·.label)
  only : ∀ e ∈ errors, e.isPartition →
    (∃ table, e ∈ tableErrors required table (claimants groups table)) ∨
      ∃ g ∈ groups, g.tables = [] ∧ e = .emptyComponent g.label

variable {groups : List TableGroup} {required : List String} {table : String}

/-! ### Claims on one table -/

theorem claimants_eq_map_filter (groups : List TableGroup) (table : String) :
    claimants groups table = ((groups.flatMap (·.claims)).filter (·.2 = table)).map (·.1) := by
  rw [List.filter_flatMap, List.map_flatMap, claimants]
  congr 1
  funext g
  have hlisted : g.tables.filter (· = table) = List.replicate (g.tables.count table) table :=
    List.filter_eq table
  rw [TableGroup.claims, List.filter_map, List.map_map]
  change _ = (g.tables.filter (· = table)).map fun _ => g.label
  rw [hlisted, List.map_replicate]

theorem table?_of_mem_claimErrors {earlier : List (String × String)} {claim : String × String}
    {e : PlanningError} (h : e ∈ claimErrors required earlier claim) : e.table? = some claim.2 := by
  rw [claimErrors] at h
  split at h
  · rw [List.mem_singleton.mp h]
    rfl
  · split at h
    · cases h
    · rw [List.mem_singleton.mp h]
      rfl

/-- Behind a claim on a table every other one is a double claim with the first of all. -/
theorem flatMap_claimErrors_of_claimed {earlier : List (String × String)} {first : String × String}
    (hfirst : earlier.find? (·.2 == table) = some first) (claims : List (String × String)) :
    ((withEarlier claims).filter (·.2.2 = table)).flatMap
        (fun p => claimErrors required (earlier ++ p.1) p.2) =
      ((claims.filter (·.2 = table)).map (·.1)).map (.duplicateAssignment table first.1) := by
  have hdouble : ∀ p ∈ (withEarlier claims).filter (·.2.2 = table),
      claimErrors required (earlier ++ p.1) p.2 =
        [.duplicateAssignment table first.1 p.2.1] := by
    intro p hp
    have hclaim : p.2.2 = table := of_decide_eq_true (List.mem_filter.mp hp).2
    rw [claimErrors, hclaim, List.find?_append, hfirst]
    rfl
  rw [List.flatMap_congr hdouble, ← List.map_eq_flatMap,
    ← map_snd_filter_withEarlier (fun claim => decide (claim.2 = table)) claims, List.map_map,
    List.map_map]
  rfl

/-- The first claim on a table is told whether that is required, and every other one is a double
claim with it. -/
theorem flatMap_claimErrors {claims : List (String × String)} {first : String} {again : List String}
    (h : (claims.filter (·.2 = table)).map (·.1) = first :: again) :
    ((withEarlier claims).filter (·.2.2 = table)).flatMap (fun p => claimErrors required p.1 p.2) =
      tableErrors required table (first :: again) := by
  obtain ⟨claim, later, hclaims, rfl, rfl⟩ := List.map_eq_cons_iff.mp h
  obtain ⟨before, after, rfl, hbefore, hclaim, rfl⟩ := List.filter_eq_cons_iff.mp hclaims
  replace hclaim : claim.2 = table := of_decide_eq_true hclaim
  have hnone : (withEarlier before).filter (·.2.2 = table) = [] := by
    rw [List.filter_eq_nil_iff]
    exact fun p hp => hbefore p.2 (mem_of_mem_withEarlier hp)
  have hnew : before.find? (·.2 == table) = none := by
    rw [List.find?_eq_none]
    exact fun c hc => by simpa using hbefore c hc
  have hfirst : (before ++ [claim]).find? (·.2 == table) = some claim := by
    rw [List.find?_append, hnew]
    simp [hclaim]
  have hhead : ((withEarlier [claim]).map fun p => (before ++ p.1, p.2)).filter (·.2.2 = table) =
      [(before, claim)] := by
    simp [withEarlier, hclaim]
  have htold : claimErrors required before claim =
      if table ∈ required then [] else [.unknownTable claim.1 table] := by
    rw [claimErrors, hclaim, hnew]
    simp
  rw [List.append_cons, withEarlier_append, withEarlier_append, List.filter_append,
    List.filter_append, hnone, hhead, List.nil_append, List.filter_map, List.flatMap_append,
    List.flatMap_map, List.flatMap_singleton, htold, tableErrors]
  exact congrArg _ (flatMap_claimErrors_of_claimed hfirst after)

/-! ### What is found of the groups -/

theorem flatMap_groupErrors_filter_table (groups : List TableGroup) (required : List String)
    (table : String) :
    ((withEarlier groups).flatMap fun p =>
        groupErrors required (p.1.flatMap (·.claims)) p.2).filter (·.table? = some table) =
      ((withEarlier (groups.flatMap (·.claims))).filter (·.2.2 = table)).flatMap
        fun p => claimErrors required p.1 p.2 := by
  have hclaims : ∀ p ∈ withEarlier (groups.flatMap (·.claims)), ∀ e ∈ claimErrors required p.1 p.2,
      decide (e.table? = some table) = decide (p.2.2 = table) := by
    intro p _ e he
    rw [table?_of_mem_claimErrors he]
    simp
  rw [← filter_flatMap_of_forall hclaims, withEarlier_flatMap, List.flatMap_assoc,
    List.filter_flatMap, List.filter_flatMap]
  refine List.flatMap_congr fun p _ => ?_
  have hempty : (if p.2.tables.isEmpty then [PlanningError.emptyComponent p.2.label] else []).filter
      (·.table? = some table) = [] := by
    split <;> rfl
  rw [groupErrors, List.filter_append, hempty, List.nil_append, List.flatMap_map]

theorem claimants_eq_nil_iff :
    claimants groups table = [] ↔ table ∉ groups.flatMap (·.tables) := by
  simp [claimants, List.count_eq_zero]

theorem eraseDups_of_forall_eq {α : Type} [BEq α] [LawfulBEq α] {a : α} {l : List α}
    (hall : ∀ b ∈ l, b = a) (hne : l ≠ []) : l.eraseDups = [a] := by
  cases l with
  | nil => exact absurd rfl hne
  | cons b l =>
    obtain ⟨rfl, hall⟩ := List.forall_mem_cons.mp hall
    have hrest : (l.filter fun c => !c == b) = [] := by
      rw [List.filter_eq_nil_iff]
      intro c hc
      simp [hall c hc]
    rw [List.eraseDups_cons, hrest, List.eraseDups_nil]

theorem unassignedErrors_filter_table (groups : List TableGroup) (required : List String)
    (table : String) :
    (unassignedErrors groups required).filter (·.table? = some table) =
      if table ∈ required ∧ table ∉ groups.flatMap (·.tables) then [.unassignedTable table]
      else [] := by
  have hfirst : (unassignedErrors groups required).filter (·.table? = some table) =
      (required.filter fun t => t ∉ groups.flatMap (·.tables) ∧ t = table).eraseDups.map
        .unassignedTable := by
    rw [← map_snd_filter_new, List.map_map, unassignedErrors, List.filter_map, List.filter_filter]
    refine congrArg _ (List.filter_congr fun p _ => ?_)
    rw [Bool.eq_iff_iff]
    simp only [PlanningError.table?, Option.some.injEq, Bool.and_eq_true, Bool.not_eq_true',
      decide_eq_true_eq, List.any_eq_false, List.contains_eq_mem, decide_eq_false_iff_not,
      List.mem_flatMap, not_exists, not_and, Function.comp_apply]
    tauto
  rw [hfirst]
  split
  · next h =>
    rw [eraseDups_of_forall_eq (a := table)]
    · rfl
    · intro t ht
      exact (of_decide_eq_true (List.mem_filter.mp ht).2).2
    · exact List.ne_nil_of_mem (List.mem_filter.mpr ⟨h.1, decide_eq_true ⟨h.2, rfl⟩⟩)
  · next h =>
    have hnone : (required.filter fun t => t ∉ groups.flatMap (·.tables) ∧ t = table) = [] := by
      rw [List.filter_eq_nil_iff]
      intro t ht hmissing
      obtain ⟨hunclaimed, rfl⟩ := of_decide_eq_true hmissing
      exact h ⟨ht, hunclaimed⟩
    rw [hnone]
    rfl

/-- Of a table there is reported what follows from those who claim it and whether it is required. -/
theorem partitionErrors_filter_table (groups : List TableGroup) (required : List String)
    (table : String) :
    (partitionErrors groups required).filter (·.table? = some table) =
      tableErrors required table (claimants groups table) := by
  have hclaims := claimants_eq_map_filter groups table
  rw [partitionErrors, List.filter_append, flatMap_groupErrors_filter_table,
    unassignedErrors_filter_table]
  cases hclaimants : claimants groups table with
  | nil =>
    have hunclaimed := claimants_eq_nil_iff.mp hclaimants
    have hnone : (withEarlier (groups.flatMap (·.claims))).filter (·.2.2 = table) = [] := by
      rw [hclaimants, ← map_snd_filter_withEarlier fun claim : String × String =>
        decide (claim.2 = table)] at hclaims
      exact List.map_eq_nil_iff.mp (List.map_eq_nil_iff.mp hclaims.symm)
    rw [hnone, List.flatMap_nil, List.nil_append, tableErrors]
    simp [hunclaimed]
  | cons first again =>
    rw [hclaimants] at hclaims
    have hclaimed : table ∈ groups.flatMap (·.tables) := by
      by_contra hunclaimed
      rw [claimants_eq_nil_iff.mpr hunclaimed] at hclaimants
      cases hclaimants
    rw [flatMap_claimErrors hclaims.symm, if_neg fun h => h.2 hclaimed, List.append_nil]

theorem partitionErrors_filter_empty (groups : List TableGroup) (required : List String) :
    (partitionErrors groups required).filter (·.isEmptyComponent) =
      (groups.filter (·.tables = [])).map (.emptyComponent ·.label) := by
  have hclaims (earlier : List (String × String)) (g : TableGroup) :
      ((withEarlier g.claims).flatMap fun p =>
        claimErrors required (earlier ++ p.1) p.2).filter (·.isEmptyComponent) = [] := by
    rw [List.filter_eq_nil_iff]
    intro e he hempty
    obtain ⟨p, -, he⟩ := List.mem_flatMap.mp he
    have htable := table?_of_mem_claimErrors he
    cases e <;> cases htable <;> cases hempty
  have hunassigned : (unassignedErrors groups required).filter (·.isEmptyComponent) = [] := by
    rw [unassignedErrors, List.filter_map]
    exact List.map_eq_nil_iff.mpr (List.filter_eq_nil_iff.mpr fun _ _ => Bool.false_ne_true)
  have hgroup (earlier : List (String × String)) (g : TableGroup) :
      (groupErrors required earlier g).filter (·.isEmptyComponent) =
        if g.tables = [] then [.emptyComponent g.label] else [] := by
    rw [groupErrors, List.filter_append, hclaims, List.append_nil]
    simp only [List.isEmpty_iff]
    split <;> rfl
  rw [partitionErrors, List.filter_append, hunassigned, List.append_nil, List.filter_flatMap]
  simp only [hgroup]
  rw [flatMap_withEarlier_snd (fun g : TableGroup =>
    if g.tables = [] then [PlanningError.emptyComponent g.label] else []),
    flatMap_ite_eq_map_filter]

/-- What the walk over the groups reports, behind errors of other rules. -/
theorem findings_append {others : List PlanningError} (hothers : ∀ e ∈ others, ¬ e.isPartition)
    (groups : List TableGroup) (required : List String) :
    PartitionFindings groups required (others ++ partitionErrors groups required) := by
  have hnone (p : PlanningError → Bool) (hp : ∀ e, p e → e.isPartition) : others.filter p = [] :=
    List.filter_eq_nil_iff.mpr fun e he h => hothers e he (hp e h)
  refine ⟨fun table => ?_, ?_, fun e he hpartition => ?_⟩
  · have htable : ∀ e : PlanningError, decide (e.table? = some table) → e.isPartition := by
      intro e h
      rw [PlanningError.isPartition_eq, of_decide_eq_true h]
      rfl
    rw [List.filter_append, hnone _ htable, List.nil_append, partitionErrors_filter_table]
  · have hempty : ∀ e : PlanningError, e.isEmptyComponent → e.isPartition := by
      intro e h
      rw [PlanningError.isPartition_eq, h, Bool.or_true]
    rw [List.filter_append, hnone _ hempty, List.nil_append, partitionErrors_filter_empty]
  · have hmem : e ∈ partitionErrors groups required :=
      (List.mem_append.mp he).resolve_left fun h => hothers e h hpartition
    rw [PlanningError.isPartition_eq, Bool.or_eq_true, Option.isSome_iff_exists] at hpartition
    rcases hpartition with ⟨table, htable⟩ | hempty
    · refine Or.inl ⟨table, ?_⟩
      rw [← partitionErrors_filter_table]
      exact List.mem_filter.mpr ⟨hmem, decide_eq_true htable⟩
    · have hgroup := List.mem_filter.mpr ⟨hmem, hempty⟩
      rw [partitionErrors_filter_empty] at hgroup
      obtain ⟨g, hg, rfl⟩ := List.mem_map.mp hgroup
      obtain ⟨hg, hnil⟩ := List.mem_filter.mp hg
      exact Or.inr ⟨g, hg, of_decide_eq_true hnil, rfl⟩

theorem reported_ofHints (extension : String) (required : List String) (hints : List DomainHint)
    (caseOf : String → String) :
    reported (ofHints extension required hints caseOf) = hintErrors required hints := by
  rw [ofHints]
  cases hintErrors required hints <;> rfl

theorem reported_check (components : List Component) (required : Option (List String)) :
    reported (check components required) =
      checkErrors components (required.getD (ownedTables components)) := by
  rw [check]
  cases checkErrors components (required.getD (ownedTables components)) <;> rfl

theorem not_isPartition_of_mem_namingErrors {earlier : List Component} {c : Component}
    {e : PlanningError} (h : e ∈ namingErrors earlier c) : ¬ e.isPartition := by
  simp only [namingErrors, List.mem_append] at h
  rcases h with (h | h) | h <;> split at h <;> simp_all [PlanningError.isPartition]

/-- Of a list of hints and of a list of components there is reported, about how tables are split,
of each table one double claim for every claim after the first, with the labels of the two, one
unknown table for the first where it is not required, and one unassigned table where it is required
and not claimed, and of each empty group that it is. -/
theorem partitionFindings_reported (extension : String) (caseOf : String → String)
    (required : List String) (hints : List DomainHint) (components : List Component) :
    PartitionFindings (hints.map hintGroup) required
        (reported (ofHints extension required hints caseOf)) ∧
      PartitionFindings (components.map componentGroup) required
        (reported (check components (some required))) := by
  rw [reported_ofHints, reported_check]
  constructor
  · refine findings_append (fun e he => ?_) _ _
    rcases List.mem_append.mp he with he | he
    · obtain ⟨p, -, rfl⟩ := List.mem_map.mp he
      exact Bool.false_ne_true
    · obtain ⟨h, -, he⟩ := List.mem_flatMap.mp he
      obtain ⟨d, -, rfl⟩ := List.mem_map.mp he
      exact Bool.false_ne_true
  · refine findings_append (fun e he => ?_) _ _
    obtain ⟨p, -, he⟩ := List.mem_flatMap.mp he
    exact not_isPartition_of_mem_namingErrors he

/-! ### Without a list of tables -/

theorem claimErrors_of_required {earlier : List (String × String)} {claim : String × String}
    (hrequired : claim.2 ∈ required) (tables : List String) :
    claimErrors required earlier claim =
      (claimErrors tables earlier claim).filter (!·.isCoverage) := by
  rw [claimErrors, claimErrors]
  cases earlier.find? (·.2 == claim.2) with
  | some first => rfl
  | none =>
    have hknown : required.contains claim.2 = true := List.contains_iff_mem.mpr hrequired
    dsimp only
    rw [if_pos hknown]
    split <;> rfl

theorem groupErrors_of_required {earlier : List (String × String)} {g : TableGroup}
    (hrequired : ∀ table ∈ g.tables, table ∈ required) (tables : List String) :
    groupErrors required earlier g =
      (groupErrors tables earlier g).filter (!·.isCoverage) := by
  have hempty : (if g.tables.isEmpty then [PlanningError.emptyComponent g.label] else []).filter
      (!·.isCoverage) = if g.tables.isEmpty then [.emptyComponent g.label] else [] := by
    split <;> rfl
  rw [groupErrors, groupErrors, List.filter_append, hempty, List.filter_flatMap]
  refine congrArg _ (List.flatMap_congr fun p hp => claimErrors_of_required ?_ tables)
  obtain ⟨table, htable, hclaim⟩ := List.mem_map.mp (mem_of_mem_withEarlier hp)
  rw [← hclaim]
  exact hrequired table htable

/-- Where all tables that are claimed are required, and no others, there is reported what is with
any list of tables, but for what compares claims with the list. -/
theorem partitionErrors_flatMap_tables (groups : List TableGroup) (tables : List String) :
    partitionErrors groups (groups.flatMap (·.tables)) =
      (partitionErrors groups tables).filter (!·.isCoverage) := by
  have hassigned : unassignedErrors groups (groups.flatMap (·.tables)) = [] :=
    unassignedErrors_eq_nil_iff.mpr fun _ h => h
  have hcoverage : (unassignedErrors groups tables).filter (!·.isCoverage) = [] := by
    rw [unassignedErrors, List.filter_map]
    exact List.map_eq_nil_iff.mpr (List.filter_eq_nil_iff.mpr fun _ _ => Bool.false_ne_true)
  rw [partitionErrors, partitionErrors, List.filter_append, hassigned, hcoverage,
    List.filter_flatMap]
  refine congrArg (· ++ []) (List.flatMap_congr fun p hp => groupErrors_of_required ?_ tables)
  exact fun table htable => List.mem_flatMap.mpr ⟨p.2, mem_of_mem_withEarlier hp, htable⟩

theorem checkErrors_ownedTables (components : List Component) (tables : List String) :
    checkErrors components (ownedTables components) =
      (checkErrors components tables).filter (!·.isCoverage) := by
  have hnaming : ((withEarlier components).flatMap fun p => namingErrors p.1 p.2).filter
      (!·.isCoverage) = (withEarlier components).flatMap fun p => namingErrors p.1 p.2 := by
    rw [List.filter_eq_self]
    intro e he
    obtain ⟨p, -, he⟩ := List.mem_flatMap.mp he
    simpa using fun h =>
      not_isPartition_of_mem_namingErrors he (PlanningError.isPartition_of_isCoverage h)
  rw [checkErrors, checkErrors, List.filter_append, hnaming, ← partitionErrors_flatMap_tables,
    flatMap_tables_componentGroup]

theorem isOk_checkComponents {components : List Component} {required : Option (List String)} :
    (checkComponents components required).isOk ↔
      checkErrors components (required.getD (ownedTables components)) = [] := by
  rw [checkComponents, check]
  cases checkErrors components (required.getD (ownedTables components)) <;>
    simp [Except.mapError, Except.isOk, Except.toBool]

/-- Components that are in order without a list of tables are so with exactly the lists that name
the tables they own, in whatever order and however often, and with no list where they are not. -/
theorem checkComponents_isOk_iff (components : List Component) :
    ((checkComponents components none).isOk ↔
      ∃ tables, (checkComponents components (some tables)).isOk) ∧
    ∀ tables, (checkComponents components (some tables)).isOk ↔
      (checkComponents components none).isOk ∧
        ∀ table, table ∈ tables ↔ table ∈ ownedTables components := by
  have hlists (tables : List String) : (checkComponents components (some tables)).isOk ↔
      (checkComponents components none).isOk ∧
        ∀ table, table ∈ tables ↔ table ∈ ownedTables components := by
    rw [isOk_checkComponents, isOk_checkComponents, Option.getD_some, Option.getD_none]
    constructor
    · intro h
      have hcovers := (checkErrors_eq_nil_iff.mp h).2.2.2.covers
      rw [flatMap_tables_componentGroup] at hcovers
      refine ⟨?_, fun table => (hcovers table).symm⟩
      rw [checkErrors_ownedTables components tables, h]
      rfl
    · rintro ⟨h, htables⟩
      obtain ⟨hshape, hfilenames, hdomains, hpartition⟩ := checkErrors_eq_nil_iff.mp h
      refine checkErrors_eq_nil_iff.mpr ⟨hshape, hfilenames, hdomains, ?_⟩
      exact ⟨hpartition.tables_ne_nil, hpartition.nodup,
        fun table => (hpartition.covers table).trans (htables table).symm⟩
  refine ⟨⟨fun h => ?_, fun ⟨tables, h⟩ => ((hlists tables).mp h).1⟩, hlists⟩
  exact ⟨ownedTables components, (hlists _).mpr ⟨h, fun _ => Iff.rfl⟩⟩

end Plan

end SchemaGate
