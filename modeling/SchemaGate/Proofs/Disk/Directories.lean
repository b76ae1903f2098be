import Mathlib.Data.List.Nodup
import SchemaGate.Proofs.Disk.Places
import SchemaGate.Proofs.Lookup

/-!
# Directories

What the operations on a disk do to the children of one directory. A directory that was created is
entered by its path (`exists_enters_of_createDirs`), and creating it once more changes nothing
(`createDirs_of_enters`). A child is read and written at the location of its name below that of the
directory (`Enters.read_join_cases`, `Enters.write_join`), unless the name is none that a file can
have. The names in a directory are those of what is at these locations (`mem_childNames`), each once
on a disk that is well-formed (`nodup_childNames`).
-/

namespace SchemaGate

/-- A name that a file can have. -/
structure Path.IsFileName (name : String) : Prop extends Path.IsName name where
  nul : '\x00' ∉ name.toList
  short : name.utf8ByteSize ≤ Disk.maxNameBytes

instance (name : String) : Decidable (Path.IsFileName name) :=
  decidable_of_iff
    (Path.IsName name ∧ '\x00' ∉ name.toList ∧ name.utf8ByteSize ≤ Disk.maxNameBytes)
    ⟨fun ⟨isName, nul, short⟩ => ⟨isName, nul, short⟩,
      fun ⟨isName, nul, short⟩ => ⟨isName, nul, short⟩⟩

namespace Disk

variable {d made : Disk} {loc base : Location} {path dir name : String} {parts : List String}

/-! ### Walking -/

theorem walkFrom_append (d : Disk) (loc : Location) (front back : List String) :
    d.walkFrom loc (front ++ back) =
      (d.walkFrom loc front).bind fun mid => d.walkFrom mid back := by
  induction front generalizing loc with
  | nil => rfl
  | cons part front ih =>
    rw [List.cons_append, walkFrom, walkFrom]
    split
    · cases step loc part with
      | error e => rfl
      | ok next => exact ih next
    · rfl
    · rfl

/-- A walk begins in a directory where it ends in one. -/
theorem isDir_of_walkFrom (h : d.walkFrom loc parts = .ok base) (hbase : d.node? base = some .dir) :
    d.node? loc = some .dir := by
  cases parts with
  | nil =>
    cases h
    exact hbase
  | cons part parts => exact (walkFrom_cons_eq_ok_iff.mp h).1

theorem walkFrom_of_keeps {d' : Disk}
    (hkeep : ∀ loc, d.node? loc = some .dir → d'.node? loc = some .dir)
    (h : d.walkFrom loc parts = .ok base) : d'.walkFrom loc parts = .ok base := by
  induction parts generalizing loc with
  | nil => exact h
  | cons part parts ih =>
    obtain ⟨hdir, next, hstep, hrest⟩ := walkFrom_cons_eq_ok_iff.mp h
    exact walkFrom_cons_eq_ok_iff.mpr ⟨hkeep loc hdir, next, hstep, ih hrest⟩

theorem GainsDirectories.keeps {d' : Disk} (h : GainsDirectories d d') {node : Node}
    (hnode : d.node? loc = some node) : d'.node? loc = some node := by
  rcases h loc with hsame | ⟨hnone, -⟩
  · rw [hsame, hnode]
  · rw [hnode] at hnone
    cases hnone

/-! ### Entering a directory -/

/-- The parts of a path lead through directories to one. The empty path leads to the top in this
way, although nothing is found at it. -/
structure Enters (d : Disk) (path : String) (base : Location) : Prop where
  nul : '\x00' ∉ path.toList
  walkFrom : d.walkFrom [] (Path.parts path) = .ok base
  isDir : d.node? base = some .dir

theorem Enters.walk (h : d.Enters path base) (hpath : path ≠ "") : d.walk path = .ok base := by
  rw [Disk.walk, if_neg hpath, if_neg (by simpa using h.nul), h.walkFrom]

theorem Enters.leadsTo (h : d.Enters path base) : LeadsTo path base :=
  foldlM_step_of_walkFrom h.walkFrom

theorem Enters.of_keeps (h : d.Enters path base) {d' : Disk}
    (hkeep : ∀ loc, d.node? loc = some .dir → d'.node? loc = some .dir) : d'.Enters path base :=
  ⟨h.nul, walkFrom_of_keeps hkeep h.walkFrom, hkeep base h.isDir⟩

/-- Each part leads to a directory that is there or is created. -/
theorem createFrom_cons_eq_ok_iff {part : String} :
    d.createFrom loc (part :: parts) = (.ok (), made) ↔ ∃ next, step loc part = .ok next ∧
      (d.node? next = some .dir ∧ d.createFrom next parts = (.ok (), made) ∨
        d.node? next = none ∧ (d.put next .dir).createFrom next parts = (.ok (), made)) := by
  rw [createFrom]
  cases hstep : step loc part with
  | error e => simp
  | ok next =>
    dsimp only
    split
    · next hdir => simp [hdir]
    · next hfile => simp [hfile]
    · next hnone => simp [hnone]

theorem walkFrom_of_createFrom (h : d.createFrom loc parts = (.ok (), made))
    (hloc : d.node? loc = some .dir) :
    ∃ base, made.walkFrom loc parts = .ok base ∧ made.node? base = some .dir := by
  have hgains := gainsDirectories_createFrom parts d loc
  rw [h] at hgains
  have hstart : made.node? loc = some .dir := hgains.keeps hloc
  induction parts generalizing d loc with
  | nil => exact ⟨loc, rfl, hstart⟩
  | cons part parts ih =>
    obtain ⟨next, hstep, hrest⟩ := createFrom_cons_eq_ok_iff.mp h
    obtain ⟨d', hnext, hrest⟩ : ∃ d' : Disk, d'.node? next = some .dir ∧
        d'.createFrom next parts = (.ok (), made) := by
      rcases hrest with ⟨hdir, hrest⟩ | ⟨hnone, hrest⟩
      · exact ⟨d, hdir, hrest⟩
      · have hnot : d.node? next ≠ some .dir := by simp [hnone]
        exact ⟨_, node?_put_self (ne_nil_of_node?_ne_dir hnot) .dir, hrest⟩
    have hgains' := gainsDirectories_createFrom parts d' next
    rw [hrest] at hgains'
    obtain ⟨base, hwalk, hdir⟩ := ih hrest hnext hgains' (hgains'.keeps hnext)
    exact ⟨base, walkFrom_cons_eq_ok_iff.mpr ⟨hstart, next, hstep, hwalk⟩, hdir⟩

theorem exists_enters_of_createDirs (h : d.createDirs path = (.ok (), made)) :
    ∃ base, made.Enters path base := by
  rw [createDirs] at h
  split at h
  · cases h
  · next hnul =>
    obtain ⟨base, hwalk, hdir⟩ := walkFrom_of_createFrom h rfl
    exact ⟨base, by simpa using hnul, hwalk, hdir⟩

theorem createFrom_of_walkFrom (h : d.walkFrom loc parts = .ok base)
    (hbase : d.node? base = some .dir) : d.createFrom loc parts = (.ok (), d) := by
  induction parts generalizing loc with
  | nil => rfl
  | cons part parts ih =>
    obtain ⟨-, next, hstep, hrest⟩ := walkFrom_cons_eq_ok_iff.mp h
    exact createFrom_cons_eq_ok_iff.mpr
      ⟨next, hstep, Or.inl ⟨isDir_of_walkFrom hrest hbase, ih hrest⟩⟩

/-- A directory that is there need not be created. -/
theorem createDirs_of_enters (h : d.Enters path base) : d.createDirs path = (.ok (), d) := by
  rw [createDirs, if_neg (by simpa using h.nul)]
  exact createFrom_of_walkFrom h.walkFrom h.isDir

/-- What can be created is there or is not found. -/
theorem walkFrom_of_creatable (h : d.createFrom loc parts = (.ok (), made))
    (hloc : d.node? loc = some .dir) :
    (∃ base, d.walkFrom loc parts = .ok base ∧ ∀ content, d.node? base ≠ some (.file content)) ∨
      d.walkFrom loc parts = .error .notFound := by
  induction parts generalizing loc with
  | nil => exact Or.inl ⟨loc, rfl, by simp [hloc]⟩
  | cons part parts ih =>
    obtain ⟨next, hstep, hrest⟩ := createFrom_cons_eq_ok_iff.mp h
    have hwalk : d.walkFrom loc (part :: parts) = d.walkFrom next parts := by
      rw [walkFrom, hloc, hstep]
      rfl
    rw [hwalk]
    rcases hrest with ⟨hdir, hrest⟩ | ⟨hnone, -⟩
    · exact ih hrest hdir
    · cases parts with
      | nil => exact Or.inl ⟨next, rfl, by simp [hnone]⟩
      | cons part parts =>
        rw [walkFrom, hnone]
        exact Or.inr rfl

/-! ### The names in a directory -/

/-- The names of what stands directly in a directory. -/
def childNames (d : Disk) (base : Location) : List String :=
  d.nodes.filterMap fun e => nameIn? base e.1

theorem names_of_walk (h : d.walk path = .ok base) (hbase : d.node? base = some .dir) :
    d.names path = .ok (d.childNames base) := by
  rw [Disk.names, h]
  simp only [bind, Except.bind, hbase]
  rfl

theorem enters_or_names_of_creatable (h : d.createDirs path = (.ok (), made)) :
    (path ≠ "" ∧ ∃ base, d.Enters path base) ∨ d.names path = .error .notFound := by
  by_cases hpath : path = ""
  · refine Or.inr ?_
    rw [Disk.names, Disk.walk, if_pos hpath]
    rfl
  · rw [createDirs] at h
    split at h
    · cases h
    · next hnul =>
      have hwalk : d.walk path = d.walkFrom [] (Path.parts path) := by
        rw [Disk.walk, if_neg hpath, if_neg hnul]
      rcases walkFrom_of_creatable h rfl with ⟨base, hbase, hfile⟩ | hnone
      · cases hnode : d.node? base with
        | none =>
          refine Or.inr ?_
          rw [Disk.names, hwalk, hbase]
          simp only [bind, Except.bind, hnode]
        | some node =>
          cases node with
          | dir => exact Or.inl ⟨hpath, base, by simpa using hnul, hbase, hnode⟩
          | file content => exact absurd hnode (hfile content)
      · refine Or.inr ?_
        rw [Disk.names, hwalk, hnone]
        rfl

theorem nameIn?_eq_some_iff : nameIn? base loc = some name ↔ loc = base ++ [name] := by
  rw [nameIn?]
  cases hlast : loc.getLast? with
  | none =>
    have hnil : loc = [] := by simpa using hlast
    simp [hnil]
  | some last =>
    obtain ⟨front, rfl⟩ := List.getLast?_eq_some_iff.mp hlast
    simp [and_comm]

theorem mem_childNames : name ∈ d.childNames base ↔ (d.node? (base ++ [name])).isSome := by
  rw [childNames, List.mem_filterMap, node?, if_neg (by simp), List.lookup_isSome_iff]
  refine exists_congr fun e => and_congr_right fun _ => ?_
  rw [nameIn?_eq_some_iff, beq_iff_eq, eq_comm]

/-! ### Well-formed disks -/

/-- Every location stands once, and the names on the way to it are such as files have. -/
structure WellFormed (d : Disk) : Prop where
  nodup : (d.nodes.map (·.1)).Nodup
  names : ∀ e ∈ d.nodes, ∀ name ∈ e.1, Path.IsFileName name

instance (d : Disk) : Decidable d.WellFormed :=
  decidable_of_iff
    ((d.nodes.map (·.1)).Nodup ∧ ∀ e ∈ d.nodes, ∀ name ∈ e.1, Path.IsFileName name)
    ⟨fun ⟨nodup, names⟩ => ⟨nodup, names⟩, fun ⟨nodup, names⟩ => ⟨nodup, names⟩⟩

theorem wellFormed_empty : WellFormed ⟨[]⟩ := ⟨List.nodup_nil, by simp⟩

theorem nodup_childNames (h : d.WellFormed) (base : Location) : (d.childNames base).Nodup := by
  have hkeys : d.childNames base = (d.nodes.map (·.1)).filterMap (nameIn? base) := by
    rw [childNames, List.filterMap_map]
    rfl
  rw [hkeys]
  refine List.Nodup.filterMap (fun loc loc' name hloc hloc' => ?_) h.nodup
  rw [nameIn?_eq_some_iff.mp hloc, nameIn?_eq_some_iff.mp hloc']

theorem isFileName_of_mem_childNames (h : d.WellFormed) (hname : name ∈ d.childNames base) :
    Path.IsFileName name := by
  obtain ⟨e, he, hin⟩ := List.mem_filterMap.mp hname
  exact h.names e he name (by simp [nameIn?_eq_some_iff.mp hin])

theorem WellFormed.of_map_fst_eq {d' : Disk} (h : d.WellFormed)
    (hkeys : d'.nodes.map (·.1) = d.nodes.map (·.1)) : d'.WellFormed := by
  refine ⟨hkeys ▸ h.nodup, fun e he => ?_⟩
  have hkey : e.1 ∈ d.nodes.map (·.1) := hkeys ▸ List.mem_map_of_mem he
  obtain ⟨old, hold, hsame⟩ := List.mem_map.mp hkey
  exact hsame ▸ h.names old hold

theorem WellFormed.put (h : d.WellFormed) (hloc : ∀ name ∈ loc, Path.IsFileName name)
    (node : Node) : (d.put loc node).WellFormed := by
  rw [Disk.put]
  split
  · next hnone =>
    have hnew : loc ∉ d.nodes.map (·.1) := lookup_eq_none_iff_not_mem.mp hnone
    refine ⟨?_, ?_⟩
    · rw [List.map_append, List.map_singleton, List.nodup_append_comm, List.singleton_append,
        List.nodup_cons]
      exact ⟨hnew, h.nodup⟩
    · intro e he
      rcases List.mem_append.mp he with he | he
      · exact h.names e he
      · rw [List.mem_singleton.mp he]
        exact hloc
  · refine h.of_map_fst_eq ?_
    rw [List.map_map]
    refine List.map_congr_left fun e _ => ?_
    dsimp only [Function.comp]
    split <;> rfl

/-- A part of a path leads on by a name that a file can have. -/
theorem isFileName_of_step {part : String} (hslash : '/' ∉ part.toList)
    (hnul : '\x00' ∉ part.toList) (hloc : ∀ name ∈ loc, Path.IsFileName name) {next : Location}
    (h : step loc part = .ok next) : ∀ name ∈ next, Path.IsFileName name := by
  rw [step] at h
  split at h
  · exact Except.ok.inj h ▸ hloc
  · next hblank =>
    split at h
    · rw [← Except.ok.inj h]
      exact fun name hname => hloc name (List.dropLast_subset loc hname)
    · next hdots =>
      split at h
      · cases h
      · next hshort =>
        obtain ⟨hempty, hdot⟩ := not_or.mp hblank
        rw [← Except.ok.inj h]
        intro name hname
        rcases List.mem_append.mp hname with hname | hname
        · exact hloc name hname
        · rw [List.mem_singleton.mp hname]
          exact ⟨⟨hslash, hempty, hdot, hdots⟩, hnul, Nat.le_of_not_lt hshort⟩

theorem not_mem_of_mem_parts (hnul : '\x00' ∉ path.toList) :
    ∀ part ∈ Path.parts path, '/' ∉ part.toList ∧ '\x00' ∉ part.toList := by
  intro part hpart
  obtain ⟨piece, hpiece, rfl⟩ := List.mem_map.mp hpart
  rw [String.toList_ofList]
  exact ⟨Text.not_mem_of_mem_split hpiece, fun hmem => hnul (Text.mem_of_mem_split hpiece hmem)⟩

theorem isFileName_of_walkFrom
    (hparts : ∀ part ∈ parts, '/' ∉ part.toList ∧ '\x00' ∉ part.toList)
    (hloc : ∀ name ∈ loc, Path.IsFileName name) (h : d.walkFrom loc parts = .ok base) :
    ∀ name ∈ base, Path.IsFileName name := by
  induction parts generalizing loc with
  | nil => exact Except.ok.inj h ▸ hloc
  | cons part parts ih =>
    obtain ⟨⟨hslash, hnul⟩, hparts⟩ := List.forall_mem_cons.mp hparts
    obtain ⟨-, next, hstep, hrest⟩ := walkFrom_cons_eq_ok_iff.mp h
    exact ih hparts (isFileName_of_step hslash hnul hloc hstep) hrest

theorem Enters.isFileName (h : d.Enters path base) : ∀ name ∈ base, Path.IsFileName name :=
  isFileName_of_walkFrom (not_mem_of_mem_parts h.nul) (by simp) h.walkFrom

theorem wellFormed_createFrom (hd : d.WellFormed)
    (hparts : ∀ part ∈ parts, '/' ∉ part.toList ∧ '\x00' ∉ part.toList)
    (hloc : ∀ name ∈ loc, Path.IsFileName name)
    (h : d.createFrom loc parts = (.ok (), made)) : made.WellFormed := by
  induction parts generalizing d loc with
  | nil =>
    obtain ⟨-, rfl⟩ := Prod.mk.inj h
    exact hd
  | cons part parts ih =>
    obtain ⟨⟨hslash, hnul⟩, hparts⟩ := List.forall_mem_cons.mp hparts
    obtain ⟨next, hstep, hrest⟩ := createFrom_cons_eq_ok_iff.mp h
    have hnext := isFileName_of_step hslash hnul hloc hstep
    rcases hrest with ⟨-, hrest⟩ | ⟨-, hrest⟩
    · exact ih hd hparts hnext hrest
    · exact ih (hd.put hnext .dir) hparts hnext hrest

theorem WellFormed.createDirs (hd : d.WellFormed) (h : d.createDirs path = (.ok (), made)) :
    made.WellFormed := by
  rw [Disk.createDirs] at h
  split at h
  · cases h
  · next hnul =>
    exact wellFormed_createFrom hd (not_mem_of_mem_parts (by simpa using hnul)) (by simp) h

/-! ### Children of a directory -/

/-- Why there cannot be a text of a name in a directory. -/
inductive Refuses (d : Disk) (base : Location) (name : String) : DiskError → Prop
  | nul (h : '\x00' ∈ name.toList) : d.Refuses base name .nulInName
  | long (hnul : '\x00' ∉ name.toList) (h : maxNameBytes < name.utf8ByteSize) :
      d.Refuses base name .nameTooLong
  | dir (hname : Path.IsFileName name) (h : d.node? (base ++ [name]) = some .dir) :
      d.Refuses base name .isADirectory
  | bytes (hname : Path.IsFileName name) {bs : List Nat}
      (h : d.node? (base ++ [name]) = some (.file (.bytes bs))) : d.Refuses base name .notText

/-- Where a file can have the name and there is no directory of it, only a file that is no text
refuses one. -/
theorem Refuses.notText {reason : DiskError} (h : d.Refuses base name reason)
    (hname : Path.IsFileName name) (hplace : d.node? (base ++ [name]) ≠ some .dir) :
    reason = .notText ∧ ∃ bs, d.node? (base ++ [name]) = some (.file (.bytes bs)) := by
  cases h with
  | nul hnul => exact absurd hnul hname.nul
  | long _ hlong => exact absurd hname.short (Nat.not_le.mpr hlong)
  | dir _ hdir => exact absurd hdir hplace
  | bytes _ hbytes => exact ⟨rfl, _, hbytes⟩

theorem Enters.walk_join (h : d.Enters dir base) (hname : Path.IsName name) :
    d.walk (Path.join dir name) =
      if '\x00' ∈ name.toList then .error .nulInName else step base name := by
  have hpath : '\x00' ∈ (Path.join dir name).toList ↔ '\x00' ∈ name.toList := by
    rw [Path.mem_join_iff hname.slash (by decide)]
    exact or_iff_right h.nul
  rw [Disk.walk, if_neg (Path.join_ne_empty hname)]
  by_cases hnul : '\x00' ∈ name.toList
  · rw [if_pos (by simpa using hpath.mpr hnul), if_pos hnul]
  · obtain ⟨front, last, hdir, hlast, hjoin⟩ := Path.parts_join dir hname.slash
    have hfront : d.walkFrom [] front = .ok base := by
      have hwalk := h.walkFrom
      rw [hdir, walkFrom_append] at hwalk
      cases hmid : d.walkFrom [] front with
      | error e =>
        rw [hmid] at hwalk
        cases hwalk
      | ok mid =>
        rw [hmid] at hwalk
        rcases hlast with rfl | rfl
        · exact hwalk
        · obtain ⟨-, next, hstep, hnext⟩ := walkFrom_cons_eq_ok_iff.mp hwalk
          cases hstep
          exact hnext
    have hlead : d.walkFrom base [name] = step base name := by
      rw [Disk.walkFrom, h.isDir]
      exact bind_pure (step base name)
    rw [if_neg (by simpa using mt hpath.mp hnul), if_neg hnul, hjoin, walkFrom_append, hfront]
    exact hlead

theorem Enters.walk_join_of_isFileName (h : d.Enters dir base) (hname : Path.IsFileName name) :
    d.walk (Path.join dir name) = .ok (base ++ [name]) := by
  rw [h.walk_join hname.toIsName, if_neg hname.nul, step_of_isName hname.toIsName,
    if_neg (Nat.not_lt.mpr hname.short)]

/-- What is read of a name in a directory: nothing for a reason, nothing as there is none, or a
text. -/
theorem Enters.read_join_cases (h : d.Enters dir base) (hname : Path.IsName name) :
    (∃ reason, d.Refuses base name reason ∧ reason ≠ .notFound ∧
        d.read (Path.join dir name) = .error reason) ∨
      Path.IsFileName name ∧
        (d.node? (base ++ [name]) = none ∧ d.read (Path.join dir name) = .error .notFound ∨
          ∃ text, d.node? (base ++ [name]) = some (.file (.text text)) ∧
            d.read (Path.join dir name) = .ok text) := by
  by_cases hnul : '\x00' ∈ name.toList
  · refine Or.inl ⟨_, .nul hnul, by decide, ?_⟩
    rw [read, h.walk_join hname, if_pos hnul]
    rfl
  by_cases hlong : maxNameBytes < name.utf8ByteSize
  · refine Or.inl ⟨_, .long hnul hlong, by decide, ?_⟩
    rw [read, h.walk_join hname, if_neg hnul, step_of_isName hname, if_pos hlong]
    rfl
  have hfile : Path.IsFileName name := ⟨hname, hnul, Nat.le_of_not_lt hlong⟩
  rw [read, h.walk_join_of_isFileName hfile]
  simp only [bind, Except.bind]
  cases hnode : d.node? (base ++ [name]) with
  | none => exact Or.inr ⟨hfile, Or.inl ⟨rfl, rfl⟩⟩
  | some node =>
    cases node with
    | dir => exact Or.inl ⟨_, .dir hfile hnode, by decide, rfl⟩
    | file content =>
      cases content with
      | text text => exact Or.inr ⟨hfile, Or.inr ⟨text, rfl, rfl⟩⟩
      | bytes bs => exact Or.inl ⟨_, .bytes hfile hnode, by decide, rfl⟩

theorem Enters.read_join_of_text (h : d.Enters dir base) (hname : Path.IsFileName name)
    {text : String} (hnode : d.node? (base ++ [name]) = some (.file (.text text))) :
    d.read (Path.join dir name) = .ok text := by
  rw [read, h.walk_join_of_isFileName hname]
  simp only [bind, Except.bind, hnode]

theorem Enters.write_join (h : d.Enters dir base) (hname : Path.IsFileName name)
    (hplace : d.node? (base ++ [name]) ≠ some .dir) (text : String) :
    d.write (Path.join dir name) text = .ok (d.put (base ++ [name]) (.file (.text text))) := by
  rw [write, writeContent, h.walk_join_of_isFileName hname]
  simp only [bind, Except.bind]

theorem Enters.isFile_join_iff (h : d.Enters dir base) (hname : Path.IsFileName name) :
    d.isFile (Path.join dir name) ↔ ∃ content, d.node? (base ++ [name]) = some (.file content) := by
  have hfind : d.find? (Path.join dir name) = d.node? (base ++ [name]) := by
    rw [find?, h.walk_join_of_isFileName hname]
    rfl
  rw [isFile, isPresent, isDirectory, hfind]
  cases d.node? (base ++ [name]) with
  | none => simp
  | some node =>
    cases node with
    | dir => simp
    | file content => simp

end Disk

end SchemaGate
