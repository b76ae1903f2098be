import Mathlib.Data.Finset.Card
import Mathlib.Data.List.Nodup
import SchemaGate.Validation.Earlier

/-!
# Names used once

A rule that looks at each element with the ones before it is a rule about the whole list. Names that
are new where they stand are pairwise distinct (`nodup_append_map_iff`), also behind names that were
taken before, and each that is not new is one name less (`card_add_countP_withEarlier`), so that
there are as many of them in any order. The context of an element of a flattened list is what was
flattened before it (`withEarlier_flatMap`).
-/

namespace SchemaGate

variable {α β : Type}

/-! ### Elements with their context -/

theorem mem_withEarlier {l earlier : List α} {a : α} :
    (earlier, a) ∈ withEarlier l ↔ ∃ later, l = earlier ++ a :: later := by
  induction l generalizing earlier with
  | nil => simp [withEarlier]
  | cons b l ih =>
    simp only [withEarlier, List.mem_cons, Prod.mk.injEq, List.mem_map, Prod.exists]
    constructor
    · rintro (⟨rfl, rfl⟩ | ⟨before, c, hmem, rfl, rfl⟩)
      · exact ⟨l, rfl⟩
      · obtain ⟨later, rfl⟩ := ih.mp hmem
        exact ⟨later, rfl⟩
    · rintro ⟨later, h⟩
      cases earlier with
      | nil =>
        obtain ⟨rfl, -⟩ := List.cons.inj h
        exact Or.inl ⟨rfl, rfl⟩
      | cons c before =>
        obtain ⟨rfl, hl⟩ := List.cons.inj h
        exact Or.inr ⟨before, a, ih.mpr ⟨later, hl⟩, rfl, rfl⟩

theorem take_mem_withEarlier {l : List α} {i : Nat} {a : α} (h : l[i]? = some a) :
    (l.take i, a) ∈ withEarlier l := by
  obtain ⟨hi, rfl⟩ := List.getElem?_eq_some_iff.mp h
  refine mem_withEarlier.mpr ⟨l.drop (i + 1), ?_⟩
  rw [← List.drop_eq_getElem_cons hi, List.take_append_drop]

theorem mem_of_mem_withEarlier {l earlier : List α} {a : α} (h : (earlier, a) ∈ withEarlier l) :
    a ∈ l := by
  obtain ⟨later, rfl⟩ := mem_withEarlier.mp h
  simp

theorem flatMap_withEarlier_snd (f : α → List β) (l : List α) :
    (withEarlier l).flatMap (fun p => f p.2) = l.flatMap f := by
  conv_rhs => rw [← map_snd_withEarlier l, List.flatMap_map]

theorem map_snd_filter_withEarlier (p : α → Bool) (l : List α) :
    ((withEarlier l).filter fun q => p q.2).map (·.2) = l.filter p := by
  conv_rhs => rw [← map_snd_withEarlier l, List.filter_map]
  rfl

theorem withEarlier_map (f : α → β) (l : List α) :
    withEarlier (l.map f) = (withEarlier l).map fun (earlier, a) => (earlier.map f, f a) := by
  induction l with
  | nil => rfl
  | cons a l ih =>
    rw [List.map_cons, withEarlier, ih, withEarlier]
    simp

/-- A rule that leaves the context alone is a rule about the elements. -/
theorem forall_withEarlier_snd {P : α → Prop} {l : List α} :
    (∀ p ∈ withEarlier l, P p.2) ↔ ∀ a ∈ l, P a := by
  conv_rhs => rw [← map_snd_withEarlier l]
  exact List.forall_mem_map.symm

theorem forall_withEarlier_cons {P : List α × α → Prop} {a : α} {l : List α} :
    (∀ p ∈ withEarlier (a :: l), P p) ↔
      P ([], a) ∧ ∀ p ∈ withEarlier l, P (a :: p.1, p.2) := by
  rw [withEarlier, List.forall_mem_cons, List.forall_mem_map]

/-! ### Distinct names -/

/-- Names are distinct, behind the distinct names of `taken`, when each is new where it stands. -/
theorem nodup_append_map_iff (taken : List β) (f : α → β) (l : List α) :
    (taken ++ l.map f).Nodup ↔
      taken.Nodup ∧ ∀ p ∈ withEarlier l, f p.2 ∉ taken ++ p.1.map f := by
  induction l generalizing taken with
  | nil => simp [withEarlier]
  | cons a l ih =>
    have hshift : taken ++ (a :: l).map f = (taken ++ [f a]) ++ l.map f := by simp
    have hsnoc : (taken ++ [f a]).Nodup ↔ taken.Nodup ∧ f a ∉ taken := by
      rw [← List.concat_eq_append, List.nodup_concat, and_comm]
    rw [hshift, ih, hsnoc, forall_withEarlier_cons]
    simp [and_assoc]

theorem nodup_map_iff_withEarlier (f : α → β) (l : List α) :
    (l.map f).Nodup ↔ ∀ p ∈ withEarlier l, f p.2 ∉ p.1.map f := by
  simpa using nodup_append_map_iff [] f l

/-- A rule that asks something of each element, and that its name is new, asks the one of all
elements and that names are distinct. -/
theorem forall_withEarlier_iff {f : α → β} {P : α → Prop} {Q : List α × α → Prop} {l : List α}
    (h : ∀ earlier a, Q (earlier, a) ↔ P a ∧ f a ∉ earlier.map f) :
    (∀ p ∈ withEarlier l, Q p) ↔ (∀ a ∈ l, P a) ∧ (l.map f).Nodup := by
  rw [nodup_map_iff_withEarlier, ← forall_withEarlier_snd (P := P), ← forall₂_and]
  refine forall₂_congr ?_
  rintro ⟨earlier, a⟩ -
  exact h earlier a

theorem forall_withEarlier_iff_self {P : α → Prop} {Q : List α × α → Prop} {l : List α}
    (h : ∀ earlier a, Q (earlier, a) ↔ P a ∧ a ∉ earlier) :
    (∀ p ∈ withEarlier l, Q p) ↔ (∀ a ∈ l, P a) ∧ l.Nodup := by
  simpa using forall_withEarlier_iff (f := id) (l := l) (by simpa using h)

/-- Behind the names of `taken`, every element whose name is not new where it stands is one name
less. -/
theorem card_add_countP_withEarlier [DecidableEq β] (f : α → β) (l : List α) :
    ∀ taken : List β, (taken ++ l.map f).toFinset.card +
      (withEarlier l).countP (fun p => f p.2 ∈ taken ++ p.1.map f) =
        taken.toFinset.card + l.length := by
  induction l with
  | nil => simp [withEarlier]
  | cons a l ih =>
    intro taken
    have hshift : ∀ k : List α, taken ++ (a :: k).map f = (taken ++ [f a]) ++ k.map f := by simp
    have hsnoc : (taken ++ [f a]).toFinset.card + (if f a ∈ taken then 1 else 0) =
        taken.toFinset.card + 1 := by
      rw [List.toFinset_append, Finset.union_comm]
      by_cases ha : f a ∈ taken
      · have hmem : f a ∈ taken.toFinset := List.mem_toFinset.mpr ha
        simp [ha, hmem]
      · have hmem : f a ∉ taken.toFinset := fun h => ha (List.mem_toFinset.mp h)
        simp [ha, Finset.card_insert_of_notMem hmem]
    have hrest := ih (taken ++ [f a])
    rw [withEarlier, List.countP_cons, List.countP_map, List.length_cons]
    simp only [Function.comp_def, hshift, List.map_nil, List.append_nil, decide_eq_true_eq]
    omega

/-- How many names are not new where they stand does not depend on where they stand. -/
theorem countP_withEarlier_eq_of_perm {γ : Type} [DecidableEq β] {f : α → β} {g : γ → β}
    {l : List α} {k : List γ} (h : (l.map f).Perm (k.map g)) (taken : List β) :
    (withEarlier l).countP (fun p => f p.2 ∈ taken ++ p.1.map f) =
      (withEarlier k).countP (fun p => g p.2 ∈ taken ++ p.1.map g) := by
  have hl := card_add_countP_withEarlier f l taken
  have hk := card_add_countP_withEarlier g k taken
  have hnames : (taken ++ l.map f).toFinset = (taken ++ k.map g).toFinset :=
    List.toFinset_eq_of_perm _ _ (h.append_left taken)
  have hlength : l.length = k.length := by simpa using h.length_eq
  rw [hnames, hlength] at hl
  omega

theorem find?_eq_none_iff_not_mem_map [BEq β] [LawfulBEq β] {f : α → β} {l : List α} {b : β} :
    l.find? (f · == b) = none ↔ b ∉ l.map f := by
  simp

theorem mem_map_of_find?_eq_some [BEq β] [LawfulBEq β] {f : α → β} {l : List α} {a : α} {b : β}
    (h : l.find? (f · == b) = some a) : b ∈ l.map f := by
  have hname : f a = b := by simpa using List.find?_some h
  exact hname ▸ List.mem_map_of_mem (List.mem_of_find?_eq_some h)

/-- Where names are distinct, looking one up finds its owner. -/
theorem find?_eq_some_of_nodup [BEq β] [LawfulBEq β] {f : α → β} {l : List α} {a : α}
    (hnodup : (l.map f).Nodup) (ha : a ∈ l) : l.find? (f · == f a) = some a := by
  induction l with
  | nil => simp at ha
  | cons b l ih =>
    rw [List.map_cons, List.nodup_cons] at hnodup
    rcases List.mem_cons.mp ha with rfl | ha
    · simp
    · have hne : f b ≠ f a := fun h => hnodup.1 (h ▸ List.mem_map_of_mem ha)
      rw [List.find?_cons_of_neg (by simpa using hne)]
      exact ih hnodup.2 ha

/-- Where names are distinct, one element has the name of a given one. -/
theorem filter_eq_singleton_of_nodup [DecidableEq β] {f : α → β} {l : List α} {a : α}
    (hnodup : (l.map f).Nodup) (ha : a ∈ l) : l.filter (f · = f a) = [a] := by
  induction l with
  | nil => simp at ha
  | cons b l ih =>
    rw [List.map_cons, List.nodup_cons] at hnodup
    obtain ⟨hb, hnodup⟩ := hnodup
    rcases List.mem_cons.mp ha with rfl | ha
    · have hrest : l.filter (f · = f a) = [] := by
        rw [List.filter_eq_nil_iff]
        intro c hc
        have hne : f c ≠ f a := fun h => hb (h ▸ List.mem_map_of_mem hc)
        simpa using hne
      rw [List.filter_cons_of_pos (by simp), hrest]
    · have hne : f b ≠ f a := fun h => hb (h ▸ List.mem_map_of_mem ha)
      rw [List.filter_cons_of_neg (by simpa using hne)]
      exact ih hnodup ha

/-- The names with a property that stand for the first time are the names with that property, each
once. -/
theorem map_snd_filter_new [DecidableEq α] (names : List α) : ∀ p : α → Bool,
    ((withEarlier names).filter fun q => q.2 ∉ q.1 ∧ p q.2).map (·.2) =
      (names.filter p).eraseDups := by
  induction names with
  | nil => intro p; rfl
  | cons name names ih =>
    intro p
    -- behind the first name, what is new is new among the rest and is another name
    have hrest : (((withEarlier names).map fun q => (name :: q.1, q.2)).filter fun q =>
        q.2 ∉ q.1 ∧ p q.2).map (·.2) = (names.filter fun n => p n && n != name).eraseDups := by
      rw [← ih, List.filter_map, List.map_map]
      refine congrArg _ (List.filter_congr fun q _ => ?_)
      rw [Bool.eq_iff_iff]
      simp only [Function.comp_apply, decide_eq_true_eq, List.mem_cons, Bool.and_eq_true,
        bne_iff_ne]
      tauto
    rw [withEarlier, List.filter_cons, List.filter_cons]
    by_cases hname : p name
    · rw [if_pos (by simp [hname]), if_pos hname, List.map_cons, hrest, List.eraseDups_cons,
        List.filter_filter]
      simp only [bne, Bool.and_comm]
    · have hother : names.filter (fun n => p n && n != name) = names.filter p := by
        refine List.filter_congr fun n _ => ?_
        by_cases hn : n = name
        · simp [hn, hname]
        · simp [hn]
      rw [if_neg (by simp [hname]), if_neg hname, hrest, hother]

/-! ### Flattened lists -/

theorem countP_flatMap_of_forall {p : β → Bool} {q : α → Bool} {f : α → List β} {l : List α}
    (h : ∀ a ∈ l, (f a).countP p = if q a then 1 else 0) : (l.flatMap f).countP p = l.countP q := by
  induction l with
  | nil => rfl
  | cons a l ih =>
    obtain ⟨ha, hl⟩ := List.forall_mem_cons.mp h
    rw [List.flatMap_cons, List.countP_append, List.countP_cons, ha, ih hl, Nat.add_comm]

theorem filter_flatMap_of_forall {p : β → Bool} {q : α → Bool} {f : α → List β} {l : List α}
    (h : ∀ a ∈ l, ∀ b ∈ f a, p b = q a) : (l.flatMap f).filter p = (l.filter q).flatMap f := by
  induction l with
  | nil => rfl
  | cons a l ih =>
    obtain ⟨ha, hl⟩ := List.forall_mem_cons.mp h
    rw [List.flatMap_cons, List.filter_append, ih hl]
    cases hq : q a with
    | true =>
      have hall : (f a).filter p = f a := List.filter_eq_self.mpr fun b hb => by rw [ha b hb, hq]
      rw [List.filter_cons_of_pos hq, List.flatMap_cons, hall]
    | false =>
      have hnone : (f a).filter p = [] := by
        rw [List.filter_eq_nil_iff]
        intro b hb
        simp [ha b hb, hq]
      rw [List.filter_cons_of_neg (by simp [hq]), hnone, List.nil_append]

theorem flatMap_ite_eq_map_filter {p : α → Prop} [DecidablePred p] {f : α → β} {l : List α} :
    (l.flatMap fun a => if p a then [f a] else []) = (l.filter p).map f := by
  induction l with
  | nil => rfl
  | cons a l ih => by_cases ha : p a <;> simp [ha, ih]

/-- Before an element of a flattened list stand the parts before its own, and what is before it in
its own. -/
theorem withEarlier_flatMap (f : α → List β) (l : List α) :
    withEarlier (l.flatMap f) = (withEarlier l).flatMap fun (earlier, a) =>
      (withEarlier (f a)).map fun (before, b) => (earlier.flatMap f ++ before, b) := by
  induction l with
  | nil => rfl
  | cons a l ih =>
    rw [List.flatMap_cons, withEarlier_append, ih]
    simp [withEarlier, List.flatMap_map, List.map_flatMap, Function.comp_def]

end SchemaGate
