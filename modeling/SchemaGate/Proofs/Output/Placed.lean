import SchemaGate.Output
import SchemaGate.Proofs.Disk.Directories

/-!
# Files are placed

A file is placed in a directory by looking at what stands there: it refuses the text for a reason
and stays, or holds the text afterwards, and the status tells which of three things it was before
(`place_cases`). Files of different names do not disturb one another, so that they are all placed,
or those before the first that is refused (`placeAll_cases`). A file that holds its text already is
left alone (`placeAll_of_held`).
-/

namespace SchemaGate

/-- What a status tells of what stood before in the place of a text. -/
inductive FileStatus.Tells (text : String) : FileStatus → Option Disk.Node → Prop
  | created : Tells text .created none
  | unchanged : Tells text .unchanged (some (.file (.text text)))
  | updated {old : String} (h : old ≠ text) : Tells text .updated (some (.file (.text old)))

/-- A directory has received files: it holds their texts, and nothing else has changed. -/
structure Disk.Receives (base : Disk.Location) (files : TextFiles) (before after : Disk) :
    Prop where
  held : ∀ f ∈ files, after.node? (base ++ [f.1]) = some (.file (.text f.2))
  others : Disk.ChangesOnly (fun loc => ∃ f ∈ files, loc = base ++ [f.1]) before after

namespace Disk

variable {base : Location} {files : TextFiles} {before mid after : Disk}

theorem Receives.of_cons {file : String × String} (hnew : file.1 ∉ files.map (·.1))
    (hfile : Receives base [file] before mid) (hfiles : Receives base files mid after) :
    Receives base (file :: files) before after := by
  refine ⟨List.forall_mem_cons.mpr ⟨?_, hfiles.held⟩, fun loc hloc => ?_⟩
  · rw [hfiles.others _ ?_]
    · exact hfile.held file List.mem_cons_self
    · rintro ⟨f, hf, hsame⟩
      have hname : file.1 = f.1 := by simpa using hsame
      exact hnew (hname ▸ List.mem_map_of_mem hf)
  · rw [hfiles.others loc fun ⟨f, hf, hsame⟩ => hloc ⟨f, List.mem_cons_of_mem _ hf, hsame⟩]
    refine hfile.others loc fun ⟨f, hf, hsame⟩ => hloc ⟨f, ?_, hsame⟩
    exact List.mem_singleton.mp hf ▸ List.mem_cons_self

/-- A directory stays one where no file is to stand in its place. -/
theorem Receives.keeps (h : Receives base files before after)
    (hplaces : ∀ f ∈ files, before.node? (base ++ [f.1]) ≠ some .dir) {loc : Location}
    (hloc : before.node? loc = some .dir) : after.node? loc = some .dir := by
  rw [h.others loc ?_, hloc]
  rintro ⟨f, hf, rfl⟩
  exact hplaces f hf hloc

theorem Refuses.of_same {d d' : Disk} {name : String} {reason : DiskError}
    (hsame : d'.node? (base ++ [name]) = d.node? (base ++ [name]))
    (h : d.Refuses base name reason) : d'.Refuses base name reason := by
  cases h with
  | nul h => exact .nul h
  | long hnul h => exact .long hnul h
  | dir hname h => exact .dir hname (hsame.trans h)
  | bytes hname h => exact .bytes hname (hsame.trans h)

end Disk

namespace FileStatus

variable {status : FileStatus} {text : String} {d : Disk} {base : Disk.Location} {name : String}

theorem Tells.ne_dir {node : Option Disk.Node} (h : status.Tells text node) : node ≠ some .dir := by
  cases h <;> simp

/-- A place that a status tells of has not refused the text. -/
theorem Tells.not_refuses (h : status.Tells text (d.node? (base ++ [name])))
    (hname : Path.IsFileName name) (reason : DiskError) : ¬ d.Refuses base name reason := by
  intro hrefuses
  obtain ⟨-, bs, hbytes⟩ := hrefuses.notText hname h.ne_dir
  rw [hbytes] at h
  cases h

end FileStatus

namespace OutputDirectory

open Disk

variable {o : OutputDirectory} {d before after made : Disk} {base : Location}
  {dir name text : String} {files : TextFiles}

/-! ### One file -/

section

variable {path existing : String}

theorem writeFile_of_write (h : d.write path text = .ok after) :
    (writeFile path text : StateM Disk _) d = (.ok (), after) := by
  simp only [writeFile, bind, StateT.bind, Storage.write, h]
  rfl

theorem place_of_error {reason : DiskError} (h : d.read path = .error reason)
    (hreason : reason ≠ .notFound) :
    (place path text : StateM Disk _) d = (.error (.existing path reason), d) := by
  simp only [place, bind, StateT.bind, Storage.read, h]
  rfl

theorem place_of_same (h : d.read path = .ok text) :
    (place path text : StateM Disk _) d = (.ok .unchanged, d) := by
  simp only [place, bind, StateT.bind, Storage.read, h, if_true]
  rfl

theorem place_of_other (h : d.read path = .ok existing) (hother : existing ≠ text)
    (hwrite : d.write path text = .ok after) :
    (place path text : StateM Disk _) d = (.ok .updated, after) := by
  simp only [place, bind, StateT.bind, Storage.read, h, if_neg hother, writeFile_of_write hwrite]
  rfl

theorem place_of_notFound (h : d.read path = .error .notFound)
    (hwrite : d.write path text = .ok after) :
    (place path text : StateM Disk _) d = (.ok .created, after) := by
  simp only [place, bind, StateT.bind, Storage.read, h, writeFile_of_write hwrite]
  rfl

end

theorem receives_put (name text : String) (d : Disk) :
    Receives base [(name, text)] d (d.put (base ++ [name]) (.file (.text text))) := by
  refine ⟨fun f hf => ?_, fun loc hloc => ?_⟩
  · rw [List.mem_singleton.mp hf]
    exact node?_put_self (by simp) _
  · exact node?_put_of_ne (fun hsame => hloc ⟨_, List.mem_singleton_self _, hsame⟩) _

/-- A text is refused by its place, which leaves the disk as it is, or it is there afterwards. -/
theorem place_cases (hd : d.WellFormed) (h : d.Enters dir base) (hname : Path.IsName name)
    (text : String) :
    (∃ reason, d.Refuses base name reason ∧ (place (Path.join dir name) text : StateM Disk _) d =
        (.error (.existing (Path.join dir name) reason), d)) ∨
      ∃ status after, (place (Path.join dir name) text : StateM Disk _) d = (.ok status, after) ∧
        Path.IsFileName name ∧ status.Tells text (d.node? (base ++ [name])) ∧
        Receives base [(name, text)] d after ∧ after.WellFormed := by
  rcases h.read_join_cases hname with ⟨reason, hrefuses, hfound, hread⟩ | ⟨hfile, hread⟩
  · exact Or.inl ⟨reason, hrefuses, place_of_error hread hfound⟩
  refine Or.inr ?_
  have hput : (d.put (base ++ [name]) (.file (.text text))).WellFormed :=
    hd.put (by simpa [or_imp, forall_and] using ⟨h.isFileName, hfile⟩) _
  rcases hread with ⟨hnode, hread⟩ | ⟨existing, hnode, hread⟩
  · have hwrite := h.write_join hfile (by simp [hnode]) text
    exact ⟨_, _, place_of_notFound hread hwrite, hfile, hnode ▸ .created,
      receives_put name text d, hput⟩
  · by_cases hsame : existing = text
    · subst hsame
      refine ⟨_, _, place_of_same hread, hfile, hnode ▸ .unchanged, ⟨?_, .refl _ d⟩, hd⟩
      exact fun f hf => List.mem_singleton.mp hf ▸ hnode
    · have hwrite := h.write_join hfile (by simp [hnode]) text
      exact ⟨_, _, place_of_other hread hsame hwrite, hfile, hnode ▸ .updated hsame,
        receives_put name text d, hput⟩

/-! ### All files -/

/-- What is reported of a file of the directory. -/
structure Tells (o : OutputDirectory) (base : Location) (before : Disk) (file : String × String)
    (out : OutputFile) : Prop where
  filename : out.filename = file.1
  path : out.path = Path.join o.dir file.1
  text : out.text = file.2
  status : out.status.Tells file.2 (before.node? (base ++ [file.1]))

theorem placeAll_of_error {e : WriteError} {file : String × String}
    (h : (place (Path.join o.dir file.1) file.2 : StateM Disk _) d = (.error e, after)) :
    (o.placeAll (file :: files) : StateM Disk _) d = (.error e, after) := by
  simp only [placeAll, planned, bind, StateT.bind, h]
  rfl

theorem placeAll_of_ok {status : FileStatus} {file : String × String}
    (h : (place (Path.join o.dir file.1) file.2 : StateM Disk _) d = (.ok status, after)) :
    (o.placeAll (file :: files) : StateM Disk _) d =
      let (result, final) := (o.placeAll files : StateM Disk _) after
      (result.map ({ o.planned file with status } :: ·), final) := by
  simp only [placeAll, planned, bind, StateT.bind, h]
  rfl

/-- The files are placed one by one: all of them, or those before the first whose place refuses its
text. The disk that is looked at is the one that a longer run began on. -/
theorem placeAll_cases (hnodup : (files.map (·.1)).Nodup) (hnames : ∀ f ∈ files, Path.IsName f.1)
    (hsame : ∀ f ∈ files, d.node? (base ++ [f.1]) = before.node? (base ++ [f.1]))
    (hd : d.WellFormed) (h : d.Enters o.dir base) :
    (∃ outs after, (o.placeAll files : StateM Disk _) d = (.ok outs, after) ∧
        (∀ f ∈ files, Path.IsFileName f.1) ∧ List.Forall₂ (o.Tells base before) files outs ∧
        Receives base files d after ∧ after.WellFormed ∧ after.Enters o.dir base) ∨
      ∃ earlier f later reason after, files = earlier ++ f :: later ∧
        (∀ g ∈ earlier, ∀ reason, ¬ before.Refuses base g.1 reason) ∧
        before.Refuses base f.1 reason ∧
        (o.placeAll files : StateM Disk _) d =
          (.error (.existing (Path.join o.dir f.1) reason), after) ∧
        Receives base earlier d after := by
  induction files generalizing d with
  | nil => exact Or.inl ⟨[], d, rfl, by simp, .nil, ⟨by simp, .refl _ d⟩, hd, h⟩
  | cons file files ih =>
    obtain ⟨hnew, hnodup⟩ := List.nodup_cons.mp hnodup
    obtain ⟨hname, hnames⟩ := List.forall_mem_cons.mp hnames
    obtain ⟨hplace, hsame⟩ := List.forall_mem_cons.mp hsame
    rcases place_cases hd h hname file.2 with
      ⟨reason, hrefuses, hrun⟩ | ⟨status, mid, hrun, hfile, htells, hreceives, hmid⟩
    · exact Or.inr ⟨[], file, files, reason, d, rfl, by simp, hrefuses.of_same hplace.symm,
        placeAll_of_error hrun, ⟨by simp, .refl _ d⟩⟩
    · have henters : mid.Enters o.dir base := by
        refine h.of_keeps fun loc => hreceives.keeps ?_
        simpa using htells.ne_dir
      have hothers : ∀ f ∈ files, mid.node? (base ++ [f.1]) = before.node? (base ++ [f.1]) := by
        intro f hf
        rw [hreceives.others _ ?_, hsame f hf]
        rintro ⟨g, hg, hloc⟩
        have hfirst : f.1 = file.1 := by simpa [List.mem_singleton.mp hg] using hloc
        exact hnew (List.mem_map.mpr ⟨f, hf, hfirst⟩)
      rw [hplace] at htells
      rw [placeAll_of_ok hrun]
      rcases ih hnodup hnames hothers hmid henters with
        ⟨outs, after, hrest, hfiles, hall, hreceived, hafter, hentered⟩ |
        ⟨earlier, f, later, reason, after, rfl, hearlier, hrefuses, hrest, hreceived⟩
      · refine Or.inl ⟨_, after, by rw [hrest]; rfl, List.forall_mem_cons.mpr ⟨hfile, hfiles⟩,
          .cons ⟨rfl, rfl, rfl, htells⟩ hall, hreceives.of_cons hnew hreceived, hafter, hentered⟩
      · refine Or.inr ⟨file :: earlier, f, later, reason, after, rfl, ?_, hrefuses,
          by rw [hrest]; rfl, hreceives.of_cons ?_ hreceived⟩
        · exact List.forall_mem_cons.mpr ⟨htells.not_refuses hfile, hearlier⟩
        · exact fun hmem => hnew (by simp [hmem])

/-- Files that are there already are looked at and nothing more. -/
theorem placeAll_of_held (hnames : ∀ f ∈ files, Path.IsFileName f.1) (h : d.Enters o.dir base)
    (hheld : ∀ f ∈ files, d.node? (base ++ [f.1]) = some (.file (.text f.2))) :
    (o.placeAll files : StateM Disk _) d =
      (.ok (files.map fun f => { o.planned f with status := .unchanged }), d) := by
  induction files with
  | nil => rfl
  | cons file files ih =>
    obtain ⟨hname, hnames⟩ := List.forall_mem_cons.mp hnames
    obtain ⟨hfile, hheld⟩ := List.forall_mem_cons.mp hheld
    rw [placeAll_of_ok (place_of_same (h.read_join_of_text hname hfile)), ih hnames hheld]
    rfl

end OutputDirectory

end SchemaGate
