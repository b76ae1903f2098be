import SchemaGate.Disk.Storage
import SchemaGate.Proofs.Disk.Paths

/-!
# Where paths lead

The parts of a path lead to one location whatever is on the disk, which only decides whether the walk
gets there (`leadsTo_of_walk`). A name that is no more than a name leads from a directory to a child
of it (`leadsTo_join`). Writing a file changes what is at the location of its path and nothing else
(`changesOnly_write`), and creating directories puts them where there was nothing
(`gainsDirectories_createDirs`). What a run changes is put together from its steps (`TouchesOnly`).
-/

namespace SchemaGate.Disk

/-! ### Locations -/

/-- The parts of a path lead to a location. -/
def LeadsTo (path : String) (loc : Location) : Prop := (Path.parts path).foldlM step [] = .ok loc

theorem walkFrom_cons_eq_ok_iff {d : Disk} {start loc : Location} {part : String}
    {parts : List String} : d.walkFrom start (part :: parts) = .ok loc ↔
      d.node? start = some .dir ∧ ∃ next, step start part = .ok next ∧
        d.walkFrom next parts = .ok loc := by
  rw [walkFrom]
  split
  · next hdir =>
    cases hstep : step start part with
    | error e => simp [Except.bind]
    | ok next => simp [hdir, Except.bind]
  · next hfile => simp [hfile]
  · next hnone => simp [hnone]

theorem foldlM_step_of_walkFrom {d : Disk} {start loc : Location} {parts : List String}
    (h : d.walkFrom start parts = .ok loc) : parts.foldlM step start = .ok loc := by
  induction parts generalizing start with
  | nil => exact h
  | cons part parts ih =>
    obtain ⟨-, next, hstep, hrest⟩ := walkFrom_cons_eq_ok_iff.mp h
    rw [List.foldlM_cons, hstep]
    exact ih hrest

theorem leadsTo_of_walk {d : Disk} {path : String} {loc : Location} (h : d.walk path = .ok loc) :
    LeadsTo path loc := by
  rw [walk] at h
  split at h
  · cases h
  · split at h
    · cases h
    · exact foldlM_step_of_walkFrom h

theorem step_of_isName {name : String} (hname : Path.IsName name) (loc : Location) :
    step loc name =
      if maxNameBytes < name.utf8ByteSize then .error .nameTooLong else .ok (loc ++ [name]) := by
  rw [step, if_neg (not_or.mpr ⟨hname.ne_empty, hname.ne_dot⟩), if_neg hname.ne_dots]

theorem step_isName {dir loc : Location} {name : String} (hname : Path.IsName name)
    (h : step dir name = .ok loc) : loc = dir ++ [name] := by
  rw [step_of_isName hname] at h
  split at h
  · cases h
  · exact (Except.ok.inj h).symm

/-- A path leads on from a directory by the name that is joined to it. -/
theorem foldlM_step_join (dir : String) {name : String} (hslash : '/' ∉ name.toList) :
    (Path.parts (Path.join dir name)).foldlM step [] =
      ((Path.parts dir).foldlM step []).bind fun loc => step loc name := by
  obtain ⟨front, last, hdir, hlast, hjoin⟩ := Path.parts_join dir hslash
  -- the part that may be missing leads nowhere
  have hstay : (front ++ last).foldlM step [] = front.foldlM step [] := by
    rw [List.foldlM_append]
    rcases hlast with rfl | rfl
    · exact bind_pure _
    · exact bind_pure _
  rw [hjoin, hdir, hstay, List.foldlM_append]
  exact bind_congr fun loc => bind_pure _

theorem leadsTo_join {dir name : String} {loc : Location} (hname : Path.IsName name)
    (h : LeadsTo (Path.join dir name) loc) : ∃ base, LeadsTo dir base ∧ loc = base ++ [name] := by
  rw [LeadsTo, foldlM_step_join dir hname.slash] at h
  cases hbase : (Path.parts dir).foldlM step [] with
  | error e =>
    rw [hbase] at h
    cases h
  | ok base =>
    rw [hbase] at h
    exact ⟨base, hbase, step_isName hname h⟩

/-! ### What changes -/

/-- From one disk to another nothing changes but at some locations. -/
def ChangesOnly (places : Location → Prop) (d d' : Disk) : Prop :=
  ∀ loc, ¬ places loc → d'.node? loc = d.node? loc

section

variable {places other : Location → Prop} {d d' d'' : Disk}

theorem ChangesOnly.refl (places : Location → Prop) (d : Disk) : ChangesOnly places d d :=
  fun _ _ => rfl

theorem ChangesOnly.trans (h : ChangesOnly places d d') (h' : ChangesOnly places d' d'') :
    ChangesOnly places d d'' :=
  fun loc hloc => (h' loc hloc).trans (h loc hloc)

theorem ChangesOnly.mono (h : ChangesOnly places d d') (hplaces : ∀ loc, places loc → other loc) :
    ChangesOnly other d d' :=
  fun loc hloc => h loc fun hin => hloc (hplaces loc hin)

theorem lookup_put (d : Disk) (loc l : Location) (node : Node) :
    (d.put loc node).nodes.lookup l = if l = loc then some node else d.nodes.lookup l := by
  have hmap : ∀ nodes : List (Location × Node),
      (nodes.map fun e => if e.1 = loc then (e.1, node) else (e.1, e.2)).lookup l =
        if l = loc then (nodes.lookup l).map fun _ => node else nodes.lookup l := by
    intro nodes
    induction nodes with
    | nil => simp
    | cons first nodes ih =>
      obtain ⟨k, n⟩ := first
      by_cases hk : k = loc
      · subst hk
        by_cases hl : l = k
        · simp [hl]
        · simp [hl, List.lookup_cons, beq_eq_false_iff_ne.mpr hl, ih]
      · by_cases hl : l = k
        · simp [hk, hl]
        · simp [hk, List.lookup_cons, beq_eq_false_iff_ne.mpr hl, ih]
  rw [put]
  split
  · next hnone =>
    rw [List.lookup_append]
    by_cases hl : l = loc
    · simp [hl, hnone]
    · simp [hl, List.lookup_cons, beq_eq_false_iff_ne.mpr hl]
  · next hsome =>
    refine (hmap d.nodes).trans ?_
    by_cases hl : l = loc
    · simp [hl, hsome]
    · simp [hl]

theorem node?_put_of_ne {loc l : Location} (h : l ≠ loc) (node : Node) :
    (d.put loc node).node? l = d.node? l := by
  rw [node?, node?, lookup_put, if_neg h]

theorem node?_put_self {loc : Location} (h : loc ≠ []) (node : Node) :
    (d.put loc node).node? loc = some node := by
  rw [node?, if_neg h, lookup_put, if_pos rfl]

theorem ne_nil_of_node?_ne_dir {loc : Location} (h : d.node? loc ≠ some .dir) : loc ≠ [] := by
  rintro rfl
  exact h rfl

theorem changesOnly_write {path text : String} (h : d.write path text = .ok d') :
    ChangesOnly (LeadsTo path) d d' := by
  rw [write, writeContent] at h
  cases hwalk : d.walk path with
  | error e =>
    rw [hwalk] at h
    cases h
  | ok loc =>
    have hput : d.put loc (.file (.text text)) = d' := by
      simp only [hwalk, bind, Except.bind] at h
      split at h
      · cases h
      · exact Except.ok.inj h
    intro l hl
    rw [← hput]
    refine node?_put_of_ne ?_ _
    rintro rfl
    exact hl (leadsTo_of_walk hwalk)

/-- From one disk to another nothing changes but that directories come where there was nothing. -/
def GainsDirectories (d d' : Disk) : Prop :=
  ∀ loc, d'.node? loc = d.node? loc ∨ d.node? loc = none ∧ d'.node? loc = some .dir

theorem GainsDirectories.refl (d : Disk) : GainsDirectories d d := fun _ => Or.inl rfl

theorem GainsDirectories.trans (h : GainsDirectories d d') (h' : GainsDirectories d' d'') :
    GainsDirectories d d'' := by
  intro loc
  rcases h loc with hsame | ⟨hnone, hdir⟩
  · rw [← hsame]
    exact h' loc
  · rcases h' loc with hsame' | ⟨hnone', -⟩
    · exact Or.inr ⟨hnone, hsame'.trans hdir⟩
    · rw [hdir] at hnone'
      cases hnone'

theorem gainsDirectories_put {loc : Location} (h : d.node? loc = none) :
    GainsDirectories d (d.put loc .dir) := by
  intro l
  by_cases hl : l = loc
  · subst hl
    have hdir : d.node? l ≠ some .dir := by simp [h]
    exact Or.inr ⟨h, node?_put_self (ne_nil_of_node?_ne_dir hdir) .dir⟩
  · exact Or.inl (node?_put_of_ne hl .dir)

theorem gainsDirectories_createFrom (parts : List String) (d : Disk) (loc : Location) :
    GainsDirectories d (d.createFrom loc parts).2 := by
  induction parts generalizing d loc with
  | nil => exact .refl d
  | cons part parts ih =>
    rw [createFrom]
    split
    · exact .refl d
    · next next hstep =>
      split
      · exact ih d next
      · exact .refl d
      · next hnone => exact (gainsDirectories_put hnone).trans (ih _ next)

theorem gainsDirectories_createDirs (path : String) (d : Disk) :
    GainsDirectories d (d.createDirs path).2 := by
  rw [createDirs]
  split
  · exact .refl d
  · exact gainsDirectories_createFrom _ d []

end

/-! ### What a run changes -/

/-- Whatever the disk is, a run changes nothing but at some locations. -/
def TouchesOnly {α : Type} (places : Location → Prop) (x : StateM Disk α) : Prop :=
  ∀ d, ChangesOnly places d (x d).2

namespace TouchesOnly

variable {α β : Type} {places other : Location → Prop} {x : StateM Disk α}

theorem pure (a : α) : TouchesOnly places (Pure.pure a : StateM Disk α) :=
  fun d => .refl places d

theorem bind {f : α → StateM Disk β} (hx : TouchesOnly places x)
    (hf : ∀ a, TouchesOnly places (f a)) : TouchesOnly places (x >>= f) :=
  fun d => (hx d).trans (hf _ _)

theorem mono (h : TouchesOnly places x) (hplaces : ∀ loc, places loc → other loc) :
    TouchesOnly other x :=
  fun d => (h d).mono hplaces

theorem read (path : String) : TouchesOnly places (Storage.read path : StateM Disk _) :=
  fun d => .refl places d

theorem names (path : String) : TouchesOnly places (Storage.names path : StateM Disk _) :=
  fun d => .refl places d

theorem isFile (path : String) : TouchesOnly places (Storage.isFile path : StateM Disk _) :=
  fun d => .refl places d

theorem write (path text : String) :
    TouchesOnly (LeadsTo path) (Storage.write path text : StateM Disk _) := by
  intro d
  simp only [Storage.write]
  split
  · next next hwrite => exact changesOnly_write hwrite
  · exact .refl _ d

/-- Behind a run that creates directories, a run changes nothing else but at some locations. -/
theorem behind {f : α → StateM Disk β} (hx : ∀ d, GainsDirectories d (x d).2)
    (hf : ∀ a, TouchesOnly places (f a)) (d : Disk) {loc : Location} (hloc : ¬ places loc) :
    ((x >>= f) d).2.node? loc = d.node? loc ∨
      d.node? loc = none ∧ ((x >>= f) d).2.node? loc = some .dir := by
  have hkept : ((x >>= f) d).2.node? loc = (x d).2.node? loc := hf _ _ loc hloc
  rw [hkept]
  exact hx d loc

end TouchesOnly

end SchemaGate.Disk
