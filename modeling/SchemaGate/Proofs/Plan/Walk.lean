import Mathlib.Logic.Relation
import SchemaGate.Plan.Order
import SchemaGate.Proofs.Repeats

/-!
# The walk along dependencies

`visit` descends under a fold. As a relation the descent and the fold are one recursion over the
labels that are still to be walked to (`Walk`, `walk_dependencyOrder`), and what a walk keeps is an
induction with three cases: nothing is left, a label is passed over, a hint is entered.

A label is passed over when its hint is done or on the way down, and whatever is on the way down
depends on what is walked to. So a dependency that does not come before its dependent depends on it
in turn (`Walk.settled`). What a walk adds is what the labels walked to depend on
(`Walk.mem_cases`).
-/

open Relation (ReflTransGen TransGen)

namespace SchemaGate.Plan

/-- The hint of a label lists another label as one that it depends on. -/
def DependsOn (hints : List DomainHint) (label dependency : String) : Prop :=
  ∃ h ∈ hints, h.domain = label ∧ dependency ∈ h.dependsOn

/-- Walks to labels one after the other: from the hints that are done before to those that are done
after. `opened` are the labels whose walk has begun and not ended. -/
inductive Walk (hints : List DomainHint) :
    List String → List DomainHint → List String → List DomainHint → Prop
  | nil {opened : List String} {done : List DomainHint} : Walk hints opened done [] done
  | skip {opened labels : List String} {done result : List DomainHint} {label : String}
      (hseen : label ∈ opened ∨ label ∈ done.map (·.domain) ∨ label ∉ hints.map (·.domain))
      (hrest : Walk hints opened done labels result) :
    Walk hints opened done (label :: labels) result
  | enter {opened labels : List String} {done inner result : List DomainHint} {h : DomainHint}
      (hmem : h ∈ hints) (hopened : h.domain ∉ opened) (hnew : h.domain ∉ done.map (·.domain))
      (hdescent : Walk hints (h.domain :: opened) done h.dependsOn inner)
      (hrest : Walk hints opened (inner ++ [h]) labels result) :
    Walk hints opened done (h.domain :: labels) result

theorem walk_foldl_of_forall {hints : List DomainHint} {opened : List String}
    (hvisit : ∀ done label labels result, Walk hints opened (visit hints opened done label) labels
      result → Walk hints opened done (label :: labels) result) (labels : List String) :
    ∀ done, Walk hints opened done labels (labels.foldl (visit hints opened) done) := by
  induction labels with
  | nil => exact fun done => .nil
  | cons label labels ih => exact fun done => hvisit done label labels _ (ih _)

theorem walk_visit (hints : List DomainHint) (opened : List String) (done : List DomainHint)
    (label : String) : ∀ labels result,
      Walk hints opened (visit hints opened done label) labels result →
        Walk hints opened done (label :: labels) result := by
  fun_induction visit hints opened done label with
  | case1 opened done label hseen =>
    exact fun _ _ hrest => .skip (hseen.imp_right Or.inl) hrest
  | case2 opened done label hseen hfound =>
    refine fun _ _ hrest => .skip (Or.inr (Or.inr ?_)) hrest
    exact find?_eq_none_iff_not_mem_map.mp hfound
  | case3 opened done label hseen h hfound ih =>
    intro labels result hrest
    obtain rfl : h.domain = label := by simpa using List.find?_some hfound
    rw [not_or] at hseen
    exact .enter (List.mem_of_find?_eq_some hfound) hseen.1 hseen.2
      (walk_foldl_of_forall (fun done d => ih done d) h.dependsOn done) hrest

/-- The order of dependencies comes out of a walk to every label in turn. -/
theorem walk_dependencyOrder (hints : List DomainHint) :
    Walk hints [] [] (hints.map (·.domain)) (dependencyOrder hints) := by
  have h := walk_foldl_of_forall (walk_visit hints []) (hints.map (·.domain)) []
  rwa [List.foldl_map] at h

/-! ### What a walk adds -/

variable {hints done result : List DomainHint} {opened labels : List String}

theorem Walk.keeps_done (h : Walk hints opened done labels result) : done <+: result := by
  induction h with
  | nil => exact List.prefix_rfl
  | skip _ _ ih => exact ih
  | enter _ _ _ _ _ ihdescent ihrest =>
    exact ihdescent.trans ((List.prefix_append _ _).trans ihrest)

/-- What is done after a walk was done before it, or it is the hint of what a label walked to
depends on, and not on the way down to that. -/
theorem Walk.mem_cases (h : Walk hints opened done labels result) {x : DomainHint}
    (hx : x ∈ result) :
    x ∈ done ∨ x ∈ hints ∧ x.domain ∉ opened ∧
      ∃ label ∈ labels, ReflTransGen (DependsOn hints) label x.domain := by
  induction h with
  | nil => exact Or.inl hx
  | skip _ _ ih =>
    refine (ih hx).imp_right fun ⟨hmem, hopened, label, hlabel, hpath⟩ => ?_
    exact ⟨hmem, hopened, label, List.mem_cons_of_mem _ hlabel, hpath⟩
  | @enter opened labels done inner result h hmem hopened hnew hdescent hrest ihdescent ihrest =>
    rcases ihrest hx with hx | ⟨hxmem, hxopened, label, hlabel, hpath⟩
    · rcases List.mem_append.mp hx with hx | hx
      · refine (ihdescent hx).imp_right fun ⟨hxmem, hxopened, d, hd, hpath⟩ => ?_
        have hstep : DependsOn hints h.domain d := ⟨h, hmem, rfl, hd⟩
        exact ⟨hxmem, fun ho => hxopened (List.mem_cons_of_mem _ ho), h.domain, List.mem_cons_self,
          hpath.head hstep⟩
      · obtain rfl := List.mem_singleton.mp hx
        exact Or.inr ⟨hmem, hopened, x.domain, List.mem_cons_self, .refl⟩
    · exact Or.inr ⟨hxmem, hxopened, label, List.mem_cons_of_mem _ hlabel, hpath⟩

theorem Walk.nodup (h : Walk hints opened done labels result)
    (hdone : (done.map (·.domain)).Nodup) : (result.map (·.domain)).Nodup := by
  induction h with
  | nil => exact hdone
  | skip _ _ ih => exact ih hdone
  | @enter opened labels done inner result h hmem hopened hnew hdescent hrest ihdescent ihrest =>
    refine ihrest ?_
    rw [List.map_append, List.map_singleton, ← List.concat_eq_append, List.nodup_concat]
    refine ⟨fun hagain => ?_, ihdescent hdone⟩
    -- while a hint is on the way down no walk adds it
    obtain ⟨x, hx, hdomain⟩ := List.mem_map.mp hagain
    rcases hdescent.mem_cases hx with hx | ⟨-, hx, -⟩
    · exact hnew (List.mem_map.mpr ⟨x, hx, hdomain⟩)
    · exact hx (hdomain ▸ List.mem_cons_self)

/-- A label that is walked to is done afterwards, unless it is on the way down or not declared. -/
theorem Walk.covers (h : Walk hints opened done labels result) {label : String}
    (hlabel : label ∈ labels) :
    label ∈ opened ∨ label ∈ result.map (·.domain) ∨ label ∉ hints.map (·.domain) := by
  induction h with
  | nil => cases hlabel
  | skip hseen hrest ih =>
    rcases List.mem_cons.mp hlabel with rfl | hlabel
    · refine hseen.imp_right (Or.imp_left fun hdone => ?_)
      exact List.map_subset _ hrest.keeps_done.subset hdone
    · exact ih hlabel
  | @enter opened labels done inner result h hmem hopened hnew hdescent hrest ihdescent ihrest =>
    rcases List.mem_cons.mp hlabel with rfl | hlabel
    · have hdone : h ∈ result := hrest.keeps_done.subset (by simp)
      exact Or.inr (Or.inl (List.mem_map_of_mem hdone))
    · exact ihrest hlabel

/-! ### Dependencies come first -/

/-- Each declared dependency of a hint comes before it, or depends on it in turn. -/
def Settled (hints order : List DomainHint) : Prop :=
  ∀ p ∈ withEarlier order, ∀ d ∈ p.2.dependsOn, d ∈ hints.map (·.domain) →
    d ∈ p.1.map (·.domain) ∨ TransGen (DependsOn hints) d p.2.domain

theorem settled_concat {order : List DomainHint} {h : DomainHint} (horder : Settled hints order)
    (hlast : ∀ d ∈ h.dependsOn, d ∈ hints.map (·.domain) →
      d ∈ order.map (·.domain) ∨ TransGen (DependsOn hints) d h.domain) :
    Settled hints (order ++ [h]) := by
  intro p hp
  rw [withEarlier_append, List.mem_append] at hp
  rcases hp with hp | hp
  · exact horder p hp
  · obtain rfl : p = (order, h) := by simpa [withEarlier] using hp
    exact hlast

/-- A walk settles what it adds, where all that is on the way down depends on what is walked to. -/
theorem Walk.settled (h : Walk hints opened done labels result)
    (hopened : ∀ o ∈ opened, ∀ label ∈ labels, TransGen (DependsOn hints) o label)
    (hdone : Settled hints done) : Settled hints result := by
  induction h with
  | nil => exact hdone
  | skip _ _ ih =>
    exact ih (fun o ho label hlabel => hopened o ho label (List.mem_cons_of_mem _ hlabel)) hdone
  | @enter opened labels done inner result h hmem _ _ hdescent hrest ihdescent ihrest =>
    have hstep : ∀ d ∈ h.dependsOn, DependsOn hints h.domain d := fun d hd => ⟨h, hmem, rfl, hd⟩
    have habove : ∀ o ∈ opened, TransGen (DependsOn hints) o h.domain :=
      fun o ho => hopened o ho h.domain List.mem_cons_self
    have hinner : Settled hints inner := by
      refine ihdescent (fun o ho d hd => ?_) hdone
      rcases List.mem_cons.mp ho with rfl | ho
      · exact .single (hstep d hd)
      · exact (habove o ho).tail (hstep d hd)
    refine ihrest (fun o ho label hlabel => hopened o ho label (List.mem_cons_of_mem _ hlabel)) ?_
    refine settled_concat hinner fun d hd hdeclared => ?_
    rcases hdescent.covers hd with hup | hdown | hundeclared
    -- a dependency that was passed over on the way down leads back to the hint
    · rcases List.mem_cons.mp hup with rfl | hup
      · exact Or.inr (.single (hstep _ hd))
      · exact Or.inr (habove d hup)
    · exact Or.inl hdown
    · exact absurd hdeclared hundeclared

end SchemaGate.Plan
