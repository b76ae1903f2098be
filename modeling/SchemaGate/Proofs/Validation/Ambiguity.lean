import Mathlib.Data.List.Count
import Mathlib.Data.Sym.Sym2
import SchemaGate.Proofs.Schema.Application
import SchemaGate.Validation.Ambiguity

/-!
# Relations of the same two models

The rule behind the check on ambiguity, by the unordered pair of models that a relation links. The
relations that the check groups with one of them are all that link its pair (`pairGroup_eq`), so it
reports nothing exactly when on every pair that needs labels all relations have one, and no two the
same (`ambiguityViolations_eq_nil_iff`).
-/

namespace SchemaGate

/-- The two models that a relation links, in no order. -/
def Foreign.ends (f : Foreign) : Sym2 String := s(f.model.name, f.target)

/-- The label that tells a relation from others. -/
def Foreign.label (f : Foreign) : Option String := f.field.relation.mapping

/-- The relations that link two models. -/
def Application.linking (app : Application) (ends : Sym2 String) : List Foreign :=
  app.foreigns.filter (·.ends = ends)

/-- Where several relations link the same two models, and where one links a model to itself, every
relation of the pair has a label of its own. -/
def RelationsLabelled (app : Application) : Prop :=
  ∀ ends : Sym2 String, 1 < (app.linking ends).length ∨ ends.IsDiag →
    none ∉ (app.linking ends).map (·.label) ∧ ((app.linking ends).map (·.label)).Nodup

namespace Validation

theorem samePair_iff {f g : Foreign} : samePair f g ↔ g.ends = f.ends := by
  simp only [samePair, Foreign.ends, Sym2.eq_iff, Bool.or_eq_true, Bool.and_eq_true, beq_iff_eq]
  refine or_congr (and_congr eq_comm eq_comm) ?_
  rw [and_comm]
  exact and_congr eq_comm eq_comm

theorem pairGroup_eq (app : Application) (f : Foreign) : pairGroup app f = app.linking f.ends := by
  refine List.filter_congr fun g _ => ?_
  rw [Bool.eq_iff_iff, samePair_iff, decide_eq_true_iff]

theorem needsLabel_iff {app : Application} {f : Foreign} :
    needsLabel app f ↔ 1 < (app.linking f.ends).length ∨ f.ends.IsDiag := by
  rw [needsLabel, pairGroup_eq, Foreign.ends, Sym2.mk_isDiag_iff, Bool.or_eq_true,
    decide_eq_true_iff, beq_iff_eq]
  rfl

theorem not_lacksOwnLabel_iff {app : Application} {f : Foreign} :
    ¬ lacksOwnLabel app f ↔
      f.label ≠ none ∧ ((app.linking f.ends).map (·.label)).count f.label ≤ 1 := by
  rw [lacksOwnLabel, pairGroup_eq, Foreign.label]
  cases hlabel : f.field.relation.mapping with
  | none => simp
  | some label =>
    rw [List.count, List.countP_map, decide_eq_true_iff]
    simp [Foreign.label, Function.comp_def]

theorem ambiguityViolations_eq_nil_iff {app : Application} :
    ambiguityViolations app = [] ↔ RelationsLabelled app := by
  have hall : ambiguityViolations app = [] ↔
      ∀ f ∈ app.foreigns, needsLabel app f → ¬ lacksOwnLabel app f := by
    simp [ambiguityViolations, List.filter_eq_nil_iff]
  rw [hall]
  simp only [needsLabel_iff, not_lacksOwnLabel_iff]
  constructor
  · intro h ends hneeds
    have hown : ∀ f ∈ app.linking ends,
        f.label ≠ none ∧ ((app.linking ends).map (·.label)).count f.label ≤ 1 := by
      intro f hf
      obtain ⟨hmem, hends⟩ := List.mem_filter.mp hf
      obtain rfl := of_decide_eq_true hends
      exact h f hmem hneeds
    refine ⟨fun hnone => ?_, List.nodup_iff_count_le_one.mpr fun label => ?_⟩
    · obtain ⟨f, hf, hlabel⟩ := List.mem_map.mp hnone
      exact (hown f hf).1 hlabel
    · by_cases hlabel : label ∈ (app.linking ends).map (·.label)
      · obtain ⟨f, hf, rfl⟩ := List.mem_map.mp hlabel
        exact (hown f hf).2
      · rw [List.count_eq_zero_of_not_mem hlabel]
        exact Nat.zero_le 1
  · intro h f hf hneeds
    obtain ⟨hnone, hnodup⟩ := h f.ends hneeds
    have hmem : f.label ∈ (app.linking f.ends).map (·.label) :=
      List.mem_map_of_mem (List.mem_filter.mpr ⟨hf, by simp⟩)
    exact ⟨fun hlabel => hnone (hlabel ▸ hmem), List.nodup_iff_count_le_one.mp hnodup _⟩

theorem ambiguous_of_mem_ambiguityViolations {app : Application} {v : Violation}
    (hv : v ∈ ambiguityViolations app) :
    v.kind = .ambiguousRelation ∧ ∃ f ∈ app.foreigns, v.path = .ofForeign f := by
  obtain ⟨f, hf, rfl⟩ := List.mem_map.mp hv
  exact ⟨rfl, f, List.mem_of_mem_filter hf, rfl⟩

end Validation

/-- Of fewer relations, those that still need labels have them. -/
theorem RelationsLabelled.mono {part whole : Application}
    (hsub : part.foreigns.Sublist whole.foreigns) (h : RelationsLabelled whole) :
    RelationsLabelled part := by
  intro ends hneeds
  have hlinking : (part.linking ends).Sublist (whole.linking ends) := hsub.filter _
  obtain ⟨hnone, hnodup⟩ := h ends (hneeds.imp_left fun hlt => hlt.trans_le hlinking.length_le)
  exact ⟨fun hmem => hnone ((hlinking.map _).subset hmem), hnodup.sublist (hlinking.map _)⟩

end SchemaGate
