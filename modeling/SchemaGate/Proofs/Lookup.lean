import Mathlib.Data.List.Nodup

/-!
# Entries under keys

A key that stands at most once is looked up by finding its entry (`lookup_eq_some_iff_mem`), so that
the order of the entries does not matter (`lookup_eq_of_perm`). Entries that are made of the members
of a list are looked up by finding a member (`lookup_map`).
-/

namespace SchemaGate

variable {κ α : Type} [BEq κ] [LawfulBEq κ] {entries entries' : List (κ × α)} {k : κ} {a : α}

theorem mem_of_lookup (h : entries.lookup k = some a) : (k, a) ∈ entries := by
  obtain ⟨before, after, rfl, -⟩ := List.lookup_eq_some_iff.mp h
  simp

theorem lookup_eq_none_iff_not_mem : entries.lookup k = none ↔ k ∉ entries.map (·.1) := by
  rw [List.lookup_eq_none_iff]
  simp only [bne_iff_ne, List.mem_map, not_exists, not_and]
  exact forall₂_congr fun e _ => ne_comm

theorem lookup_eq_some_iff_mem (hcount : (entries.map (·.1)).count k ≤ 1) :
    entries.lookup k = some a ↔ (k, a) ∈ entries := by
  refine ⟨mem_of_lookup, fun h => ?_⟩
  obtain ⟨before, after, rfl⟩ := List.append_of_mem h
  refine List.lookup_eq_some_iff.mpr ⟨before, after, rfl, fun p hp => ?_⟩
  rw [List.map_append, List.map_cons, List.count_append, List.count_cons_self] at hcount
  have hnone : (before.map (·.1)).count k = 0 := by omega
  have hne : p.1 ≠ k := fun hsame =>
    List.count_eq_zero.mp hnone (hsame ▸ List.mem_map_of_mem hp)
  simpa using hne.symm

theorem lookup_eq_of_perm (hcount : (entries.map (·.1)).count k ≤ 1) (h : entries.Perm entries') :
    entries'.lookup k = entries.lookup k := by
  have hcount' : (entries'.map (·.1)).count k ≤ 1 := by rwa [← (h.map (·.1)).count_eq]
  ext a
  rw [lookup_eq_some_iff_mem hcount, lookup_eq_some_iff_mem hcount', h.mem_iff]

theorem lookup_map {γ : Type} (key : γ → κ) (value : γ → α) (l : List γ) (k : κ) :
    (l.map fun c => (key c, value c)).lookup k = (l.find? (key · == k)).map value := by
  induction l with
  | nil => rfl
  | cons c l ih =>
    by_cases hkey : key c = k
    · subst hkey
      rw [List.map_cons, List.lookup_cons_self, List.find?_cons_of_pos (by simp)]
      rfl
    · have hne : (k == key c) = false := by simpa using Ne.symm hkey
      rw [List.map_cons, List.lookup_cons, hne, ih, List.find?_cons_of_neg (by simpa using hkey)]

end SchemaGate
