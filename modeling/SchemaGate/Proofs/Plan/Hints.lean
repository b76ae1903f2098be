import Mathlib.Data.List.Perm.Basic
import SchemaGate.Proofs.Plan.Partition
import SchemaGate.Proofs.Plan.Walk

/-!
# Hints that make a plan

Hints make a plan exactly when their labels are used once, their dependencies are declared and their
tables are a partition of the required ones (`ofHints_eq_ok_iff`). The order of dependencies loses
no hint and adds none (`dependencyOrder_perm`), so the components carry the labels and tables of the
hints and are a partition of the required tables themselves (`components_partition_required`).
-/

namespace SchemaGate.Plan

/-- Hints from which a plan for the required tables can be made. -/
structure Plannable (required : List String) (hints : List DomainHint) : Prop where
  labels_nodup : (hints.map (·.domain)).Nodup
  declared : ∀ h ∈ hints, ∀ d ∈ h.dependsOn, d ∈ hints.map (·.domain)
  tables_ne_nil : ∀ h ∈ hints, h.tables ≠ []
  tables_nodup : (hints.flatMap (·.tables)).Nodup
  covers : ∀ table, table ∈ hints.flatMap (·.tables) ↔ table ∈ required

variable {required : List String} {hints : List DomainHint}

/-! ### Errors of hints -/

theorem repeatedLabelErrors_eq_nil_iff :
    repeatedLabelErrors hints = [] ↔ (hints.map (·.domain)).Nodup := by
  have h := nodup_map_iff_withEarlier id (hints.map (·.domain))
  rw [List.map_id] at h
  rw [repeatedLabelErrors, List.map_eq_nil_iff, List.filter_eq_nil_iff, h]
  refine forall₂_congr fun p _ => ?_
  simp

theorem dependencyErrors_eq_nil_iff :
    dependencyErrors hints = [] ↔
      ∀ h ∈ hints, ∀ d ∈ h.dependsOn, d ∈ hints.map (·.domain) := by
  rw [dependencyErrors, List.flatMap_eq_nil_iff]
  refine forall₂_congr fun h _ => ?_
  rw [List.map_eq_nil_iff, List.filter_eq_nil_iff]
  refine forall₂_congr fun d _ => ?_
  simp

theorem hintErrors_eq_nil_iff : hintErrors required hints = [] ↔ Plannable required hints := by
  rw [hintErrors, List.append_eq_nil_iff, List.append_eq_nil_iff, repeatedLabelErrors_eq_nil_iff,
    dependencyErrors_eq_nil_iff, partitionErrors_eq_nil_iff, partitions_map_iff]
  constructor
  · rintro ⟨⟨hlabels, hdeclared⟩, hne, hnodup, hcovers⟩
    exact ⟨hlabels, hdeclared, hne, hnodup, hcovers⟩
  · intro h
    exact ⟨⟨h.labels_nodup, h.declared⟩, h.tables_ne_nil, h.tables_nodup, h.covers⟩

theorem ofHints_eq_ok_iff {extension : String} {caseOf : String → String}
    {components : List Component} :
    ofHints extension required hints caseOf = .ok components ↔ Plannable required hints ∧
      components = (dependencyOrder hints).mapIdx (component caseOf extension) := by
  rw [← hintErrors_eq_nil_iff, ofHints]
  cases hintErrors required hints with
  | nil => simp [eq_comm]
  | cons e errors => simp

/-- Whether a plan can be made does not depend on the order of the hints. -/
theorem Plannable.perm {others : List DomainHint} (h : Plannable required hints)
    (hperm : others.Perm hints) : Plannable required others where
  labels_nodup := (hperm.map _).nodup_iff.mpr h.labels_nodup
  declared other hother d hd := by
    rw [(hperm.map (·.domain)).mem_iff]
    exact h.declared other (hperm.subset hother) d hd
  tables_ne_nil other hother := h.tables_ne_nil other (hperm.subset hother)
  tables_nodup := (hperm.flatMap_right _).nodup_iff.mpr h.tables_nodup
  covers table := by rw [(hperm.flatMap_right _).mem_iff, h.covers]

/-! ### The hints in their order -/

theorem mem_of_mem_dependencyOrder {h : DomainHint} (hmem : h ∈ dependencyOrder hints) :
    h ∈ hints := by
  rcases (walk_dependencyOrder hints).mem_cases hmem with hnil | ⟨hmem, -⟩
  · cases hnil
  · exact hmem

theorem nodup_dependencyOrder (hints : List DomainHint) :
    ((dependencyOrder hints).map (·.domain)).Nodup :=
  (walk_dependencyOrder hints).nodup List.nodup_nil

/-- No hint is lost on the walk. -/
theorem mem_labels_dependencyOrder {label : String} (h : label ∈ hints.map (·.domain)) :
    label ∈ (dependencyOrder hints).map (·.domain) := by
  rcases (walk_dependencyOrder hints).covers h with hnil | hdone | hundeclared
  · cases hnil
  · exact hdone
  · exact absurd h hundeclared

theorem dependencyOrder_perm (hlabels : (hints.map (·.domain)).Nodup) :
    (dependencyOrder hints).Perm hints := by
  rw [List.perm_ext_iff_of_nodup (nodup_dependencyOrder hints).of_map hlabels.of_map]
  refine fun h => ⟨mem_of_mem_dependencyOrder, fun hmem => ?_⟩
  obtain ⟨x, hx, hdomain⟩ := List.mem_map.mp (mem_labels_dependencyOrder (List.mem_map_of_mem hmem))
  have hsame : x = h := List.inj_on_of_nodup_map hlabels (mem_of_mem_dependencyOrder hx) hmem hdomain
  exact hsame ▸ hx

/-! ### The components -/

/-- Numbering hints leaves what a filename has no part in. -/
theorem map_mapIdx_component {α : Type} (f : Component → α) (g : DomainHint → α)
    {caseOf : String → String} {extension : String} (order : List DomainHint)
    (h : ∀ place hint, f (component caseOf extension place hint) = g hint) :
    (order.mapIdx (component caseOf extension)).map f = order.map g := by
  refine List.ext_getElem (by simp) fun i _ _ => ?_
  simp [h]

theorem ownedTables_mapIdx_component {caseOf : String → String} {extension : String}
    (order : List DomainHint) :
    ownedTables (order.mapIdx (component caseOf extension)) = order.flatMap (·.tables) := by
  have h : (order.mapIdx (component caseOf extension)).map (·.tables) = order.map (·.tables) :=
    map_mapIdx_component _ _ _ fun _ _ => rfl
  rw [ownedTables, List.flatMap_def, h, List.flatMap_def]

/-- A plan is made exactly from hints that can make one, and its components have the labels and the
tables of the hints, each once, and own every required table once and no other. -/
theorem components_partition_required (extension : String) (required : List String)
    (hints : List DomainHint) (caseOf : String → String) :
    ((ofHints extension required hints caseOf).isOk ↔ Plannable required hints) ∧
      ∀ components, ofHints extension required hints caseOf = .ok components →
        (components.map fun c => (c.domain, c.tables)).Perm
            (hints.map fun h => (h.domain, h.tables)) ∧
          (ownedTables components).Nodup ∧
          ∀ table, table ∈ ownedTables components ↔ table ∈ required := by
  constructor
  · rw [← hintErrors_eq_nil_iff, ofHints]
    cases hintErrors required hints <;> simp [Except.isOk, Except.toBool]
  · intro components hplanned
    obtain ⟨h, rfl⟩ := ofHints_eq_ok_iff.mp hplanned
    have hperm := dependencyOrder_perm h.labels_nodup
    rw [map_mapIdx_component _ (fun h => (h.domain, h.tables)) _ fun _ _ => rfl,
      ownedTables_mapIdx_component]
    have htables := hperm.flatMap_right (·.tables)
    exact ⟨hperm.map _, htables.nodup_iff.mpr h.tables_nodup,
      fun table => htables.mem_iff.trans (h.covers table)⟩

end SchemaGate.Plan
