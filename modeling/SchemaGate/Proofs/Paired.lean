import Mathlib.Data.List.Forall2

/-!
# Lists paired place by place

What two paired lists say of each other's members, and a partial function on a list as a pairing
with what it gives (`mapM_eq_some_iff_forall₂`). Two lists that agree in what is said of each place
agree in what follows from it (`map_eq_map_of_imp`), and values that agree under each key agree
place by place where the keys do (`map_eq_map_of_filter`).
-/

namespace SchemaGate

variable {α β : Type} {R : α → β → Prop} {l : List α} {k : List β}

theorem forall₂_getElem? (h : List.Forall₂ R l k) {i : Nat} {b : β} (hb : k[i]? = some b) :
    ∃ a, l[i]? = some a ∧ R a b := by
  obtain ⟨hi, rfl⟩ := List.getElem?_eq_some_iff.mp hb
  have hlength := h.length_eq
  exact ⟨l[i], List.getElem?_eq_getElem (hlength ▸ hi), h.get (hlength ▸ hi) hi⟩

theorem forall₂_mem_right (h : List.Forall₂ R l k) : ∀ b ∈ k, ∃ a ∈ l, R a b := by
  intro b hb
  obtain ⟨i, hi⟩ := List.mem_iff_getElem?.mp hb
  obtain ⟨a, ha, hR⟩ := forall₂_getElem? h hi
  exact ⟨a, List.mem_of_getElem? ha, hR⟩

theorem forall₂_mem_left (h : List.Forall₂ R l k) : ∀ a ∈ l, ∃ b ∈ k, R a b :=
  forall₂_mem_right (R := flip R) h.flip

theorem forall₂_flatMap_map {γ δ ε : Type} {R : γ → δ → Prop} {f : α → List γ} {g : ε → List δ}
    {k : α → ε} (h : ∀ a ∈ l, List.Forall₂ R (f a) (g (k a))) :
    List.Forall₂ R (l.flatMap f) ((l.map k).flatMap g) := by
  induction l with
  | nil => exact .nil
  | cons a l ih =>
    obtain ⟨ha, hl⟩ := List.forall_mem_cons.mp h
    rw [List.map_cons, List.flatMap_cons, List.flatMap_cons]
    exact List.rel_append ha (ih hl)

/-- Lists that are paired by way of something between have a list of such things between them. -/
theorem exists_forall₂_of_comp {γ : Type} {P : α → γ → Prop} {Q : γ → β → Prop}
    (h : List.Forall₂ (fun a b => ∃ c, P a c ∧ Q c b) l k) :
    ∃ m, List.Forall₂ P l m ∧ List.Forall₂ Q m k := by
  induction h with
  | nil => exact ⟨[], .nil, .nil⟩
  | cons hc _ ih =>
    obtain ⟨c, hP, hQ⟩ := hc
    obtain ⟨m, hPs, hQs⟩ := ih
    exact ⟨c :: m, .cons hP hPs, .cons hQ hQs⟩

variable {f : α → Option β}

theorem mapM_eq_some_iff_forall₂ :
    l.mapM f = some k ↔ List.Forall₂ (fun a b => f a = some b) l k := by
  induction l generalizing k with
  | nil => simp [eq_comm]
  | cons a l ih =>
    rw [List.mapM_cons, List.forall₂_cons_left_iff]
    constructor
    · intro h
      obtain ⟨b, hb, h⟩ := Option.bind_eq_some_iff.mp h
      obtain ⟨rest, hrest, h⟩ := Option.bind_eq_some_iff.mp h
      exact ⟨b, rest, hb, ih.mp hrest, (Option.some.inj h).symm⟩
    · rintro ⟨b, rest, hb, hrest, rfl⟩
      simp [hb, ih.mpr hrest]

theorem mapM_eq_some {g : α → β} (h : ∀ a ∈ l, f a = some (g a)) : l.mapM f = some (l.map g) :=
  mapM_eq_some_iff_forall₂.mpr (List.forall₂_map_right_iff.mpr (List.forall₂_same.mpr h))

/-! ### What is said of each place -/

section

variable {α β γ δ ε : Type} {l : List α} {l' : List β}

theorem map_eq_map_iff_forall₂ {f : α → γ} {f' : β → γ} :
    l.map f = l'.map f' ↔ List.Forall₂ (fun a b => f a = f' b) l l' := by
  rw [← List.forall₂_eq_eq_eq, List.forall₂_map_left_iff, List.forall₂_map_right_iff]

theorem map_eq_map_of_imp {f : α → γ} {f' : β → γ} {k : α → ε} {k' : β → ε}
    (hf : l.map f = l'.map f') (h : ∀ a b, f a = f' b → k a = k' b) : l.map k = l'.map k' :=
  map_eq_map_iff_forall₂.mpr ((map_eq_map_iff_forall₂.mp hf).imp h)

theorem map_prod_eq_map {f : α → γ} {f' : β → γ} {g : α → δ} {g' : β → δ}
    (hf : l.map f = l'.map f') (hg : l.map g = l'.map g') :
    (l.map fun a => (f a, g a)) = l'.map fun b => (f' b, g' b) := by
  induction l generalizing l' with
  | nil =>
    obtain rfl := List.map_eq_nil_iff.mp hf.symm
    rfl
  | cons a l ih =>
    obtain ⟨b, l', rfl⟩ : ∃ b rest, l' = b :: rest := by
      cases l' with
      | nil => cases hf
      | cons b rest => exact ⟨b, rest, rfl⟩
    obtain ⟨hfa, hf⟩ := List.cons.inj hf
    obtain ⟨hga, hg⟩ := List.cons.inj hg
    rw [List.map_cons, List.map_cons, ih hf hg, hfa, hga]

end

/-- Where keys agree place by place, values agree that do so under each of the keys. -/
theorem map_eq_map_of_filter {α κ γ : Type} [DecidableEq κ] {key : α → κ} {f : α → γ}
    {l l' : List α} (hkey : l.map key = l'.map key)
    (h : ∀ a ∈ l, (l.filter (key · = key a)).map f = (l'.filter (key · = key a)).map f) :
    l.map f = l'.map f := by
  induction l generalizing l' with
  | nil =>
    obtain rfl := List.map_eq_nil_iff.mp hkey.symm
    rfl
  | cons a l ih =>
    obtain ⟨b, l', rfl⟩ : ∃ b rest, l' = b :: rest := by
      cases l' with
      | nil => cases hkey
      | cons b rest => exact ⟨b, rest, rfl⟩
    obtain ⟨hab, hkey⟩ := List.cons.inj hkey
    have hhead := h a List.mem_cons_self
    rw [List.filter_cons_of_pos (by simp), List.filter_cons_of_pos (by simp [hab]), List.map_cons,
      List.map_cons] at hhead
    obtain ⟨hvalue, htail⟩ := List.cons.inj hhead
    rw [List.map_cons, List.map_cons, hvalue, ih hkey]
    intro c hc
    by_cases hca : key a = key c
    · rwa [hca] at htail
    · have hrest := h c (List.mem_cons_of_mem _ hc)
      rwa [List.filter_cons_of_neg (by simpa using hca),
        List.filter_cons_of_neg (by simpa [← hab] using hca)] at hrest

end SchemaGate
