import Mathlib.Logic.Relation
import SchemaGate.Json.Record
import SchemaGate.Proofs.Lookup
import SchemaGate.Proofs.Paired

/-!
# Presentations of a document

One value has many documents: the members of an object may stand in any order and among members that
nobody knows, one with its default may be left out, and where an option is absent there may be a
null. A `Shape` says where a document may vary so, and `Edit` is one such variation at any depth.

A reader of records that an edit does not disturb is put together from readers of its fields
(`stable_record`), each of them stable by the way in which it is given. With a writer whose documents
it reads back, it reads every presentation of them alike (`Codes.read_of_presents`).
-/

namespace SchemaGate.Json

/-! ### Shapes -/

/-- How a member may be given. -/
inductive Presence where
  | required
  /-- It may be left out where this is its value. -/
  | default (value : Json)
  /-- It may be null where there is none. -/
  | option

/-- What a document is made of. -/
inductive Shape where
  /-- A value that has one presentation. -/
  | leaf
  | list (item : Shape)
  | record (members : List (String × Presence × Shape))

/-- One variation of a document. -/
inductive Edit : Shape → Json → Json → Prop
  /-- Members are put in another order. -/
  | reorder {members ms ms'} (h : ms.Perm ms') : Edit (.record members) (.obj ms) (.obj ms')
  /-- A member is added under a name that the record does not have. -/
  | add {members ms name} (value : Json) (h : name ∉ members.map (·.1)) :
    Edit (.record members) (.obj ms) (.obj ((some name, value) :: ms))
  /-- A member with its default is left out. -/
  | leave {members ms name value shape} (h : (name, .default value, shape) ∈ members) :
    Edit (.record members) (.obj ((some name, value) :: ms)) (.obj ms)
  /-- A null is written for an option that is absent. -/
  | absent {members ms name shape} (h : (name, .option, shape) ∈ members)
    (hnone : some name ∉ ms.map (·.1)) :
    Edit (.record members) (.obj ms) (.obj ((some name, .null) :: ms))
  /-- The value of a member is varied. -/
  | inside {members ms name presence shape d d'} (h : (name, presence, shape) ∈ members)
    (hvalue : Edit shape d d') :
    Edit (.record members) (.obj ((some name, d) :: ms)) (.obj ((some name, d') :: ms))
  /-- An item of a list is varied. -/
  | item {shape front back d d'} (h : Edit shape d d') :
    Edit (.list shape) (.arr (front ++ d :: back)) (.arr (front ++ d' :: back))

/-- A document comes from another by any number of variations. -/
def Presents (shape : Shape) : Json → Json → Prop := Relation.ReflTransGen (Edit shape)

theorem Presents.inside {members : List (String × Presence × Shape)} {name : String}
    {presence : Presence} {shape : Shape} (hmember : (name, presence, shape) ∈ members)
    (ms : List (Option String × Json)) {d d' : Json} (h : Presents shape d d') :
    Presents (.record members) (.obj ((some name, d) :: ms)) (.obj ((some name, d') :: ms)) := by
  induction h with
  | refl => exact .refl
  | tail _ hedit ih => exact ih.tail (.inside hmember hedit)

theorem Presents.item {shape : Shape} (front back : List Json) {d d' : Json}
    (h : Presents shape d d') :
    Presents (.list shape) (.arr (front ++ d :: back)) (.arr (front ++ d' :: back)) := by
  induction h with
  | refl => exact .refl
  | tail _ hedit ih => exact ih.tail (.item hedit)

/-! ### Readers that an edit does not disturb -/

variable {α β : Type}

/-- What is read in one way is read in the other. -/
def Gives (x y : Option α) : Prop := ∀ a, x = some a → y = some a

theorem Gives.refl (x : Option α) : Gives x x := fun _ h => h

theorem Gives.bind {x y : Option α} {f g : α → Option β} (h : Gives x y)
    (hf : ∀ a, Gives (f a) (g a)) : Gives (x >>= f) (y >>= g) := by
  intro b hb
  obtain ⟨a, ha, hb⟩ := Option.bind_eq_some_iff.mp hb
  exact Option.bind_eq_some_iff.mpr ⟨a, h a ha, hf a b hb⟩

theorem Gives.map {x y : Option α} (f : α → β) (h : Gives x y) : Gives (x.map f) (y.map f) := by
  intro b hb
  obtain ⟨a, ha, rfl⟩ := Option.map_eq_some_iff.mp hb
  rw [h a ha, Option.map_some]

/-- A reader of documents of a shape reads an edited one alike. -/
def Stable (shape : Shape) (read : Json → Option α) : Prop :=
  ∀ d d', Edit shape d d' → Gives (read d) (read d')

/-- However often a document is edited, it is read alike. -/
theorem Stable.read_of_presents {shape : Shape} {read : Json → Option α} (hread : Stable shape read)
    {d d' : Json} (h : Presents shape d d') {a : α} (ha : read d = some a) : read d' = some a := by
  induction h with
  | refl => exact ha
  | tail _ hedit ih => exact hread _ _ hedit a ih

theorem stable_leaf (read : Json → Option α) : Stable .leaf read := by
  intro d d' h
  cases h

theorem stable_list {shape : Shape} {read : Json → Option α} (hread : Stable shape read) :
    Stable (.list shape) (list? read) := by
  intro d d' h
  cases h with
  | @item _ front back d d' h =>
    change Gives ((front ++ d :: back).mapM read) ((front ++ d' :: back).mapM read)
    induction front with
    | nil =>
      rw [List.nil_append, List.nil_append, List.mapM_cons, List.mapM_cons]
      exact (hread d d' h).bind fun a => .refl _
    | cons first front ih =>
      rw [List.cons_append, List.cons_append, List.mapM_cons, List.mapM_cons]
      exact (Gives.refl _).bind fun a => ih.bind fun as => .refl _

/-! ### How fields are given -/

/-- How a field is given before and after an edit of its record. -/
inductive SlotEdit : Presence → Shape → Slot → Slot → Prop
  | same {presence shape} (s : Slot) : SlotEdit presence shape s s
  | inside {presence shape d d'} (h : Edit shape d d') :
    SlotEdit presence shape (.given d) (.given d')
  | leave {value shape} : SlotEdit (.default value) shape (.given value) .unnamed
  | absent {shape} : SlotEdit .option shape .unnamed (.given .null)

namespace SlotEdit

variable {shape : Shape} {s s' : Slot} {read : Json → Option α}

theorem required (h : SlotEdit .required shape s s') (hread : Stable shape read) :
    Gives (s.required read) (s'.required read) := by
  cases h with
  | same => exact .refl _
  | inside h => exact hread _ _ h

theorem withDefault {value : Json} {a : α} (h : SlotEdit (.default value) shape s s')
    (hread : Stable shape read) (ha : read value = some a) :
    Gives (s.withDefault a read) (s'.withDefault a read) := by
  cases h with
  | same => exact .refl _
  | inside h => exact hread _ _ h
  | leave =>
    rw [Slot.withDefault, ha]
    exact .refl _

theorem nullable (hread : Stable shape read) {d d' : Json} (h : Edit shape d d') :
    Gives (Slot.nullable read d) (Slot.nullable read d') := by
  -- only arrays and objects vary, and neither is null
  have hvalue : Slot.nullable read d = (read d).map some ∧
      Slot.nullable read d' = (read d').map some := by
    cases h <;> exact ⟨rfl, rfl⟩
  rw [hvalue.1, hvalue.2]
  exact (hread d d' h).map some

theorem optional (h : SlotEdit .option shape s s') (hread : Stable shape read) :
    Gives (s.optional read) (s'.optional read) := by
  cases h with
  | same => exact .refl _
  | inside h => exact nullable hread h
  | absent => exact .refl (some none)

theorem optionalMember (h : SlotEdit .option shape s s') (hread : Stable shape read) :
    Gives (s.optionalMember read) (s'.optionalMember read) := by
  cases h with
  | same => exact .refl _
  | inside h => exact nullable hread h
  | absent => exact .refl (some none)

end SlotEdit

/-! ### Records -/

/-- The slot of a name among the members of an object. -/
def slotOf (ms : List (Option String × Json)) (name : String) : Slot :=
  match ms.lookup (some name) with
  | some value => .given value
  | none => .unnamed

/-- The names are texts, and the known ones stand once. -/
structure Legible (names : List String) (ms : List (Option String × Json)) : Prop where
  isSome : ∀ m ∈ ms, m.1.isSome
  count_le : ∀ name ∈ names, (ms.map (·.1)).count (some name) ≤ 1

section

variable {names : List String} {name : String} {ms ms' : List (Option String × Json)} {value : Json}

theorem slotOf_cons_self : slotOf ((some name, value) :: ms) name = .given value := by
  rw [slotOf, List.lookup_cons_self]

theorem slotOf_cons_of_ne {other : String} (h : name ≠ other) :
    slotOf ((some other, value) :: ms) name = slotOf ms name := by
  have hne : (some name == some other) = false := by simpa using h
  rw [slotOf, slotOf, List.lookup_cons, hne]

theorem slotOf_of_not_mem (h : some name ∉ ms.map (·.1)) : slotOf ms name = .unnamed := by
  cases hlookup : ms.lookup (some name) with
  | none => rw [slotOf, hlookup]
  | some value => exact absurd (List.mem_map_of_mem (f := (·.1)) (mem_of_lookup hlookup)) h

theorem slotOf_of_perm (hcount : (ms.map (·.1)).count (some name) ≤ 1) (h : ms.Perm ms') :
    slotOf ms' name = slotOf ms name := by
  rw [slotOf, slotOf, lookup_eq_of_perm hcount h]

theorem Legible.perm (h : Legible names ms) (hperm : ms.Perm ms') : Legible names ms' := by
  refine ⟨fun m hm => h.isSome m (hperm.mem_iff.mpr hm), fun name hname => ?_⟩
  rw [← (hperm.map (·.1)).count_eq]
  exact h.count_le name hname

/-- Behind a member that is known there is none of its name. -/
theorem legible_cons_iff :
    Legible names ((some name, value) :: ms) ↔
      Legible names ms ∧ (name ∈ names → some name ∉ ms.map (·.1)) := by
  constructor
  · rintro ⟨hsome, hcount⟩
    refine ⟨⟨(List.forall_mem_cons.mp hsome).2, fun known hknown => ?_⟩, fun hname => ?_⟩
    · have hle := hcount known hknown
      rw [List.map_cons, List.count_cons] at hle
      omega
    · have hle := hcount name hname
      rw [List.map_cons, List.count_cons_self] at hle
      exact List.count_eq_zero.mp (by omega)
  · rintro ⟨⟨hsome, hcount⟩, hnone⟩
    refine ⟨List.forall_mem_cons.mpr ⟨rfl, hsome⟩, fun known hknown => ?_⟩
    rw [List.map_cons]
    by_cases hsame : name = known
    · subst hsame
      have hzero : (ms.map (·.1)).count (some name) = 0 := List.count_eq_zero.mpr (hnone hknown)
      rw [List.count_cons_self]
      omega
    · rw [List.count_cons_of_ne (by simpa using hsame)]
      exact hcount known hknown

theorem count_known (names : List String) (ms : List (Option String × Json)) (name : String) :
    (ms.filterMap fun m => m.1.filter names.contains).count name =
      if name ∈ names then (ms.map (·.1)).count (some name) else 0 := by
  induction ms with
  | nil => simp
  | cons m ms ih =>
    obtain ⟨key, value⟩ := m
    rw [List.map_cons, List.count_cons, List.filterMap_cons]
    cases key with
    | none => simpa using ih
    | some other =>
      by_cases hother : other ∈ names
      · have hkept : (some other).filter names.contains = some other := by simp [hother]
        rw [hkept, List.count_cons, ih]
        by_cases hsame : other = name
        · subst hsame
          simp [hother]
        · simp [hsame]
      · have hleft : (some other).filter names.contains = none := by simp [hother]
        rw [hleft, ih]
        by_cases hname : name ∈ names
        · have hne : other ≠ name := fun h => hother (h ▸ hname)
          simp [hne]
        · rw [if_neg hname, if_neg hname]

theorem nodup_known_iff :
    (ms.filterMap fun m => m.1.filter names.contains).Nodup ↔
      ∀ name ∈ names, (ms.map (·.1)).count (some name) ≤ 1 := by
  rw [List.nodup_iff_count_le_one]
  refine forall_congr' fun name => ?_
  rw [count_known]
  by_cases hname : name ∈ names <;> simp [hname]

theorem fields?_obj_eq_some_iff {field : String → Slot} :
    fields? names (.obj ms) = some field ↔ Legible names ms ∧ field = slotOf ms := by
  have hlegible : (ms.all (·.1.isSome) &&
        (ms.filterMap fun m => m.1.filter names.contains).Nodup) = true ↔ Legible names ms := by
    rw [Bool.and_eq_true, List.all_eq_true, decide_eq_true_iff, nodup_known_iff]
    exact ⟨fun h => ⟨h.1, h.2⟩, fun h => ⟨h.1, h.2⟩⟩
  rw [fields?]
  split
  · next h =>
    have hgiven : Legible names ms := hlegible.mp h
    constructor
    · intro hfield
      exact ⟨hgiven, (Option.some.inj hfield).symm⟩
    · rintro ⟨-, rfl⟩
      rfl
  · next h =>
    constructor
    · intro hfield
      cases hfield
    · rintro ⟨hgiven, -⟩
      exact absurd (hlegible.mpr hgiven) h

end

/-- An edit of a record leaves its fields to be found, each as before or varied in its own way. -/
theorem exists_fields?_of_edit {members : List (String × Presence × Shape)}
    (hnodup : (members.map (·.1)).Nodup) {d d' : Json} (h : Edit (.record members) d d')
    {field : String → Slot} (hfield : d.fields? (members.map (·.1)) = some field) :
    ∃ field', d'.fields? (members.map (·.1)) = some field' ∧
      ∀ m ∈ members, SlotEdit m.2.1 m.2.2 (field m.1) (field' m.1) := by
  have hname : ∀ m ∈ members, m.1 ∈ members.map (·.1) := fun m hm => List.mem_map_of_mem hm
  have honly : ∀ m ∈ members, ∀ other ∈ members, m.1 = other.1 → m = other :=
    fun m hm other hother => List.inj_on_of_nodup_map hnodup hm hother
  cases h with
  | reorder hperm =>
    obtain ⟨hlegible, rfl⟩ := fields?_obj_eq_some_iff.mp hfield
    refine ⟨_, fields?_obj_eq_some_iff.mpr ⟨hlegible.perm hperm, rfl⟩, fun m hm => ?_⟩
    rw [slotOf_of_perm (hlegible.count_le _ (hname m hm)) hperm]
    exact .same _
  | @add _ ms name value hunknown =>
    obtain ⟨hlegible, rfl⟩ := fields?_obj_eq_some_iff.mp hfield
    refine ⟨_, fields?_obj_eq_some_iff.mpr
      ⟨legible_cons_iff.mpr ⟨hlegible, fun hmem => absurd hmem hunknown⟩, rfl⟩, fun m hm => ?_⟩
    have hne : m.1 ≠ name := fun hsame => hunknown (hsame ▸ hname m hm)
    rw [slotOf_cons_of_ne hne]
    exact .same _
  | @leave _ ms name value shape hmember =>
    obtain ⟨hlegible, rfl⟩ := fields?_obj_eq_some_iff.mp hfield
    obtain ⟨hrest, hnone⟩ := legible_cons_iff.mp hlegible
    refine ⟨_, fields?_obj_eq_some_iff.mpr ⟨hrest, rfl⟩, fun m hm => ?_⟩
    by_cases hsame : m.1 = name
    · cases honly m hm _ hmember hsame
      rw [slotOf_cons_self, slotOf_of_not_mem (hnone (hname _ hm))]
      exact .leave
    · rw [slotOf_cons_of_ne hsame]
      exact .same _
  | @absent _ ms name shape hmember hnone =>
    obtain ⟨hlegible, rfl⟩ := fields?_obj_eq_some_iff.mp hfield
    refine ⟨_, fields?_obj_eq_some_iff.mpr
      ⟨legible_cons_iff.mpr ⟨hlegible, fun _ => hnone⟩, rfl⟩, fun m hm => ?_⟩
    by_cases hsame : m.1 = name
    · cases honly m hm _ hmember hsame
      rw [slotOf_cons_self, slotOf_of_not_mem hnone]
      exact .absent
    · rw [slotOf_cons_of_ne hsame]
      exact .same _
  | @inside _ ms name presence shape d d' hmember hvalue =>
    obtain ⟨hlegible, rfl⟩ := fields?_obj_eq_some_iff.mp hfield
    have hlegible' : Legible (members.map (·.1)) ((some name, d') :: ms) :=
      legible_cons_iff.mpr (legible_cons_iff.mp hlegible)
    refine ⟨_, fields?_obj_eq_some_iff.mpr ⟨hlegible', rfl⟩, fun m hm => ?_⟩
    by_cases hsame : m.1 = name
    · cases honly m hm _ hmember hsame
      rw [slotOf_cons_self, slotOf_cons_self]
      exact .inside hvalue
    · rw [slotOf_cons_of_ne hsame, slotOf_cons_of_ne hsame]
      exact .same _

/-- A reader of a record is stable where it reads alike from fields that are varied in their ways. -/
theorem stable_record {members : List (String × Presence × Shape)}
    (hnodup : (members.map (·.1)).Nodup) {read : Json → Option α}
    {ofFields : (String → Slot) → Option α}
    (hread : ∀ d, read d = (d.fields? (members.map (·.1))).bind ofFields)
    (hfields : ∀ field field' : String → Slot,
      (∀ m ∈ members, SlotEdit m.2.1 m.2.2 (field m.1) (field' m.1)) →
        Gives (ofFields field) (ofFields field')) :
    Stable (.record members) read := by
  intro d d' h a ha
  rw [hread] at ha ⊢
  obtain ⟨field, hfield, ha⟩ := Option.bind_eq_some_iff.mp ha
  obtain ⟨field', hfield', hslots⟩ := exists_fields?_of_edit hnodup h hfield
  rw [hfield']
  exact hfields field field' hslots a ha

/-! ### Readers and writers -/

/-- What is written is read back, however it is edited. -/
structure Codes (shape : Shape) (write : α → Json) (read : Json → Option α) : Prop where
  stable : Stable shape read
  read_write : ∀ a, read (write a) = some a

namespace Codes

variable {shape : Shape} {write : α → Json} {read : Json → Option α}

theorem read_of_presents (h : Codes shape write read) {a : α} {d : Json}
    (hd : Presents shape (write a) d) : read d = some a :=
  h.stable.read_of_presents hd (h.read_write a)

theorem list (h : Codes shape write read) :
    Codes (.list shape) (fun as => .arr (as.map write)) (list? read) where
  stable := stable_list h.stable
  read_write _ := mapM_eq_some_iff_forall₂.mpr
    (List.forall₂_map_left_iff.mpr (List.forall₂_same.mpr fun a _ => h.read_write a))

end Codes

theorem codes_text : Codes .leaf text text? := ⟨stable_leaf _, text?_text⟩

theorem codes_texts : Codes (.list .leaf) texts (list? text?) := codes_text.list

theorem codes_bool : Codes .leaf bool bool? := ⟨stable_leaf _, bool?_bool⟩

end SchemaGate.Json
