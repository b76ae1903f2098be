import SchemaGate.Proofs.Plan.Hints

/-!
# The order of a plan

Of the hints of a plan, cyclic or not, a dependency comes before its dependent unless it depends on
it in turn, and only a dependency of what is declared before may overtake (`order_of_planned`). So
hints that are declared behind their dependencies keep their order, and one that a plan without
cycles has brought about is kept by the next.
-/

open Relation (ReflTransGen TransGen)

namespace SchemaGate.Plan

/-- One label stands before another. -/
def Before (labels : List String) (a b : String) : Prop := [a, b].Sublist labels

theorem before_append {front back : List String} {a b : String} (ha : a ∈ front) (hb : b ∈ back) :
    Before (front ++ back) a b :=
  (List.singleton_sublist.mpr ha).append (List.singleton_sublist.mpr hb)

theorem mem_front_of_before {front back : List String} {a b : String}
    (hnodup : (front ++ b :: back).Nodup) (h : Before (front ++ b :: back) a b) : a ∈ front := by
  obtain ⟨l, k, hsplit, hl, hk⟩ := List.sublist_append_iff.mp h
  cases l with
  | cons x l =>
    obtain ⟨rfl, -⟩ := List.cons.inj hsplit
    exact hl.subset List.mem_cons_self
  | nil =>
    obtain rfl : [a, b] = k := hsplit
    have hb : b ∉ back := (List.nodup_cons.mp hnodup.of_append_right).1
    have hagain : b ∈ back := (hk.tail).subset (by simp)
    exact absurd hagain hb

/-- Lists with the same names in the same order are the same, where a name tells an element. -/
theorem eq_of_map_eq {α β : Type} {f : α → β} {l k : List α}
    (hinj : ∀ a ∈ l, ∀ b ∈ k, f a = f b → a = b) (h : l.map f = k.map f) : l = k := by
  induction l generalizing k with
  | nil => exact (List.map_eq_nil_iff.mp h.symm).symm
  | cons a l ih =>
    cases k with
    | nil => cases h
    | cons b k =>
      obtain ⟨hhead, htail⟩ := List.cons.inj h
      rw [hinj a List.mem_cons_self b List.mem_cons_self hhead, ih (fun x hx y hy =>
        hinj x (List.mem_cons_of_mem _ hx) y (List.mem_cons_of_mem _ hy)) htail]

variable {hints done result : List DomainHint} {opened labels : List String}

/-! ### Dependencies come first -/

theorem settled_dependencyOrder (hints : List DomainHint) :
    Settled hints (dependencyOrder hints) :=
  (walk_dependencyOrder hints).settled (by simp) (by simp [Settled, withEarlier])

theorem before_of_dependsOn {a : DomainHint} (ha : a ∈ dependencyOrder hints) {d : String}
    (hd : d ∈ a.dependsOn) (hdeclared : d ∈ hints.map (·.domain))
    (hback : ¬TransGen (DependsOn hints) d a.domain) :
    Before ((dependencyOrder hints).map (·.domain)) d a.domain := by
  have hsettled := settled_dependencyOrder hints
  obtain ⟨front, back, hsplit⟩ := List.append_of_mem ha
  rcases hsettled (front, a) (mem_withEarlier.mpr ⟨back, hsplit⟩) d hd hdeclared with hfront | hpath
  · rw [hsplit, List.map_append, List.map_cons]
    exact before_append hfront List.mem_cons_self
  · exact absurd hpath hback

/-! ### What may overtake -/

theorem Walk.exists_append {front back : List String}
    (h : Walk hints opened done (front ++ back) result) :
    ∃ middle, Walk hints opened done front middle ∧ Walk hints opened middle back result := by
  induction front generalizing done with
  | nil => exact ⟨done, .nil, h⟩
  | cons label front ih =>
    cases h with
    | skip hseen hrest =>
      obtain ⟨middle, hfront, hback⟩ := ih hrest
      exact ⟨middle, .skip hseen hfront, hback⟩
    | enter hmem hopened hnew hdescent hrest =>
      obtain ⟨middle, hfront, hback⟩ := ih hrest
      exact ⟨middle, .enter hmem hopened hnew hdescent hfront, hback⟩

/-- Only what a hint declared before, or the hint itself, depends on may overtake it. -/
theorem exists_dependsOn_of_overtaken (hlabels : (hints.map (·.domain)).Nodup) {i j : String}
    (hdeclared : Before (hints.map (·.domain)) i j)
    (hplanned : Before ((dependencyOrder hints).map (·.domain)) j i) :
    ∃ k, (k = i ∨ Before (hints.map (·.domain)) k i) ∧ TransGen (DependsOn hints) k j := by
  obtain ⟨upTo, after, hsplit, hi, hj⟩ := List.cons_sublist_iff.mp hdeclared
  obtain ⟨front, between, rfl⟩ := List.append_of_mem hi
  have hlist : hints.map (·.domain) = (front ++ [i]) ++ (between ++ after) := by simp [hsplit]
  have hwalk := walk_dependencyOrder hints
  rw [hlist] at hwalk
  obtain ⟨middle, hfront, hback⟩ := hwalk.exists_append
  -- the walks up to `i` have come to `i`, so whatever stands before it was added by them
  have himiddle : i ∈ middle.map (·.domain) := by
    rcases hfront.covers (List.mem_append_right front (List.mem_singleton_self i)) with
      hnil | hdone | hundeclared
    · cases hnil
    · exact hdone
    · exact absurd (by simp [hlist]) hundeclared
  have hjmiddle : j ∈ middle.map (·.domain) := by
    obtain ⟨more, hmore⟩ := hback.keeps_done
    obtain ⟨u, v, huv⟩ := List.append_of_mem himiddle
    have horder : (dependencyOrder hints).map (·.domain) =
        u ++ i :: (v ++ more.map (·.domain)) := by
      rw [← hmore, List.map_append, huv, List.append_assoc, List.cons_append]
    have hnodup := nodup_dependencyOrder hints
    rw [horder] at hnodup hplanned
    rw [huv]
    exact List.mem_append_left _ (mem_front_of_before hnodup hplanned)
  obtain ⟨x, hx, rfl⟩ := List.mem_map.mp hjmiddle
  rcases hfront.mem_cases hx with hnil | ⟨-, -, k, hk, hpath⟩
  · cases hnil
  · have hne : x.domain ≠ k := by
      rintro hsame
      rw [hlist] at hlabels
      have hafter : x.domain ∈ between ++ after :=
        List.mem_append_right _ (List.singleton_sublist.mp hj)
      exact (List.disjoint_of_nodup_append hlabels) (hsame ▸ hk) hafter
    refine ⟨k, ?_, (Relation.reflTransGen_iff_eq_or_transGen.mp hpath).resolve_left hne⟩
    rcases List.mem_append.mp hk with hk | hk
    · rw [hsplit, List.append_assoc, List.cons_append]
      exact Or.inr (before_append hk List.mem_cons_self)
    · exact Or.inl (List.mem_singleton.mp hk)

/-! ### Orders that are kept -/

theorem Walk.eq_of_seen (h : Walk hints opened done labels result)
    (hseen : ∀ label ∈ labels, label ∈ opened ∨ label ∈ done.map (·.domain)) : result = done := by
  induction h with
  | nil => rfl
  | skip _ _ ih => exact ih fun label hlabel => hseen label (List.mem_cons_of_mem _ hlabel)
  | enter _ hopened hnew _ _ _ _ =>
    rcases hseen _ List.mem_cons_self with hup | hdown
    · exact absurd hup hopened
    · exact absurd hdown hnew

/-- Where every dependency is declared earlier, a walk goes through the hints as they stand. -/
theorem Walk.eq_of_declared_earlier (hlabels : (hints.map (·.domain)).Nodup)
    (hearlier : ∀ a ∈ hints, ∀ d ∈ a.dependsOn, Before (hints.map (·.domain)) d a.domain)
    {front back : List DomainHint} (hsplit : hints = front ++ back)
    (h : Walk hints [] front (back.map (·.domain)) result) : result = hints := by
  induction back generalizing front with
  | nil =>
    rw [hsplit, List.append_nil]
    exact h.eq_of_seen (by simp)
  | cons a back ih =>
    have ha : a ∈ hints := by simp [hsplit]
    have hlist : hints.map (·.domain) =
        front.map (·.domain) ++ a.domain :: back.map (·.domain) := by simp [hsplit]
    have hnew : a.domain ∉ front.map (·.domain) := by
      rw [hlist] at hlabels
      exact fun hmem => (List.disjoint_of_nodup_append hlabels) hmem List.mem_cons_self
    rw [List.map_cons] at h
    generalize hlabel : a.domain = label at h
    cases h with
    | skip hseen _ =>
      subst hlabel
      rcases hseen with hnil | hagain | hundeclared
      · cases hnil
      · exact absurd hagain hnew
      · exact absurd (List.mem_map_of_mem ha) hundeclared
    | enter hmem _ _ hdescent hrest =>
      obtain rfl := List.inj_on_of_nodup_map hlabels ha hmem hlabel
      have hdone : ∀ d ∈ a.dependsOn, d ∈ [a.domain] ∨ d ∈ front.map (·.domain) := by
        intro d hd
        have hbefore := hearlier a ha d hd
        rw [hlist] at hbefore hlabels
        exact Or.inr (mem_front_of_before hlabels hbefore)
      obtain rfl := hdescent.eq_of_seen hdone
      exact ih (by simp [hsplit]) hrest

theorem dependencyOrder_eq_self (hlabels : (hints.map (·.domain)).Nodup)
    (hearlier : ∀ a ∈ hints, ∀ d ∈ a.dependsOn, Before (hints.map (·.domain)) d a.domain) :
    dependencyOrder hints = hints :=
  (walk_dependencyOrder hints).eq_of_declared_earlier hlabels hearlier
    (show hints = [] ++ hints from rfl)

/-- Without cycles, hints in the order of a plan are planned in that order again. -/
theorem dependencyOrder_of_planned
    (hdeclared : ∀ h ∈ hints, ∀ d ∈ h.dependsOn, d ∈ hints.map (·.domain))
    (hacyclic : ∀ label, ¬TransGen (DependsOn hints) label label) :
    dependencyOrder (dependencyOrder hints) = dependencyOrder hints := by
  refine dependencyOrder_eq_self (nodup_dependencyOrder hints) fun a ha d hd => ?_
  have hmem := mem_of_mem_dependencyOrder ha
  refine before_of_dependsOn ha hd (hdeclared a hmem d hd) fun hback => ?_
  exact hacyclic a.domain (.head ⟨a, hmem, rfl, hd⟩ hback)

/-- Of the hints of a plan, a dependency comes first unless it depends on its dependent in turn, and
a hint declared after another comes before it only as a dependency of what is declared up to there.
Hints behind their dependencies are numbered as declared, and hints without cycles that are
rearranged as planned make the same plan. -/
theorem order_of_planned {extension : String} {required : List String} {hints : List DomainHint}
    {caseOf : String → String} {components : List Component}
    (hplanned : ofHints extension required hints caseOf = .ok components) :
    (∀ a ∈ hints, ∀ d ∈ a.dependsOn, ¬TransGen (DependsOn hints) d a.domain →
      Before (components.map (·.domain)) d a.domain) ∧
    (∀ i j, Before (hints.map (·.domain)) i j → Before (components.map (·.domain)) j i →
      ∃ k, (k = i ∨ Before (hints.map (·.domain)) k i) ∧ TransGen (DependsOn hints) k j) ∧
    ((∀ a ∈ hints, ∀ d ∈ a.dependsOn, Before (hints.map (·.domain)) d a.domain) →
      components.map (·.domain) = hints.map (·.domain)) ∧
    ((∀ label, ¬TransGen (DependsOn hints) label label) → ∀ others : List DomainHint,
      others.Perm hints → others.map (·.domain) = components.map (·.domain) →
        ofHints extension required others caseOf = .ok components) := by
  obtain ⟨h, rfl⟩ := ofHints_eq_ok_iff.mp hplanned
  have hperm := dependencyOrder_perm h.labels_nodup
  rw [map_mapIdx_component (·.domain) (·.domain) _ fun _ _ => rfl]
  refine ⟨fun a ha d hd => ?_, fun i j => exists_dependsOn_of_overtaken h.labels_nodup,
    fun hearlier => ?_, fun hacyclic others hothers hlabels => ?_⟩
  · exact before_of_dependsOn (hperm.symm.subset ha) hd (h.declared a ha d hd)
  · rw [dependencyOrder_eq_self h.labels_nodup hearlier]
  · have hsame : others = dependencyOrder hints := by
      refine eq_of_map_eq (fun a ha b hb => ?_) hlabels
      exact List.inj_on_of_nodup_map h.labels_nodup (hothers.subset ha) (hperm.subset hb)
    rw [hsame]
    refine ofHints_eq_ok_iff.mpr ⟨h.perm hperm, ?_⟩
    rw [dependencyOrder_of_planned h.declared hacyclic]

/-- Two domains that depend on each other, behind one that depends on the second of them. -/
def cyclicHints : List DomainHint :=
  [{ domain := "Orders", tables := ["order"], dependsOn := ["Teams"] },
    { domain := "Users", tables := ["user"], dependsOn := ["Teams"] },
    { domain := "Teams", tables := ["team"], dependsOn := ["Users"] }]

/-- Teams come before orders, which depend on them and are not depended on, although they are
declared last. -/
theorem order_of_planned_cyclic :
    ∃ components, ofHints "prisma" ["order", "team", "user"] cyclicHints = .ok components ∧
      Before (components.map (·.domain)) "Teams" "Orders" ∧
      ∃ k, (k = "Orders" ∨ Before (cyclicHints.map (·.domain)) k "Orders") ∧
        TransGen (DependsOn cyclicHints) k "Teams" := by
  refine ⟨_, rfl, ?_⟩
  obtain ⟨hfirst, hovertaken, -, -⟩ :=
    order_of_planned (show ofHints "prisma" ["order", "team", "user"] cyclicHints = .ok _ from rfl)
  have hfree : ∀ label, ¬DependsOn cyclicHints label "Orders" := by simp [DependsOn, cyclicHints]
  have hback : ¬TransGen (DependsOn cyclicHints) "Teams" "Orders" := by
    rintro (hstep | ⟨-, hstep⟩)
    · exact hfree _ hstep
    · exact hfree _ hstep
  have hbefore := hfirst { domain := "Orders", tables := ["order"], dependsOn := ["Teams"] }
    (by decide) "Teams" (by decide) hback
  have hdeclared : Before (cyclicHints.map (·.domain)) "Orders" "Teams" := by
    unfold Before
    decide
  exact ⟨hbefore, hovertaken "Orders" "Teams" hdeclared hbefore⟩

end SchemaGate.Plan
