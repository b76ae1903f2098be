import Mathlib.Data.List.Sort
import SchemaGate.Proofs.Output.Placed
import SchemaGate.Proofs.Render.Outputs
import SchemaGate.Proofs.Text.Bytes

/-!
# What is written

What a run makes of a directory, whatever stood in it before. Either all files are written, and
then the report tells of each what it was before and of the others which are stale, and a second run
finds nothing to do (`Written`), or those before the first in whose place there is a file that is no
text (`StoppedAt`). The scan for stale files sees the files that were just written and passes over
them, as they are rendered (`exists_staleFiles`).
-/

namespace SchemaGate

namespace OutputDirectory

open Disk

variable {o : OutputDirectory} {d made : Disk} {base : Location} {rendered : TextFiles}

/-! ### Stale files -/

/-- The paths of the schema files in the directory that are not among the rendered ones, in order.
Where its path leads to no directory there are none; the empty path leads to none. -/
structure StaleIn (o : OutputDirectory) (rendered : TextFiles) (d : Disk) (paths : List String) :
    Prop where
  ascending : paths.Pairwise (· < ·)
  mem_iff : ∀ path, path ∈ paths ↔ ∃ base name content, d.walk o.dir = .ok base ∧
    d.node? base = some .dir ∧ d.node? (base ++ [name]) = some (.file content) ∧
    Path.HasExtension name o.extension ∧ name ∉ rendered.map (·.1) ∧ path = Path.join o.dir name

theorem filePaths_eq (o : OutputDirectory) (names : List String) (d : Disk) :
    (o.filePaths names : StateM Disk _) d =
      ((names.map (Path.join o.dir)).filter (d.isFile ·), d) := by
  induction names with
  | nil => rfl
  | cons name names ih =>
    simp only [filePaths, bind, StateT.bind, Storage.isFile, ih, List.map_cons]
    cases hfile : d.isFile (Path.join o.dir name) with
    | false =>
      rw [List.filter_cons_of_neg (by simp [hfile])]
      rfl
    | true =>
      rw [List.filter_cons_of_pos (by simp [hfile])]
      rfl

theorem staleFiles_of_notFound (h : d.names o.dir = .error .notFound) (rendered : TextFiles) :
    (o.staleFiles rendered : StateM Disk _) d = (.ok [], d) := by
  simp only [staleFiles, bind, StateT.bind, Storage.names, h]
  rfl

/-- The files of the directory that have the extension and are not rendered. -/
def strays (o : OutputDirectory) (rendered : TextFiles) (d : Disk) (names : List String) :
    List String :=
  ((names.filter fun name => o.hasExtension name && (rendered.get? name).isNone).map
    (Path.join o.dir)).filter (d.isFile ·)

theorem staleFiles_of_names {names : List String} (h : d.names o.dir = .ok names)
    (rendered : TextFiles) :
    (o.staleFiles rendered : StateM Disk _) d =
      (.ok ((o.strays rendered d names).mergeSort fun a b => decide (a ≤ b)), d) := by
  simp only [staleFiles, bind, StateT.bind, Storage.names, h, filePaths_eq]
  rfl

theorem get?_isNone_iff {name : String} :
    (rendered.get? name).isNone ↔ name ∉ rendered.map (·.1) := by
  rw [Option.isNone_iff_eq_none, TextFiles.get?, lookup_eq_none_iff_not_mem]

theorem mem_strays (hd : d.WellFormed) (h : d.Enters o.dir base) {path : String} :
    path ∈ o.strays rendered d (d.childNames base) ↔ ∃ name content,
      d.node? (base ++ [name]) = some (.file content) ∧ Path.HasExtension name o.extension ∧
        name ∉ rendered.map (·.1) ∧ path = Path.join o.dir name := by
  simp only [strays, List.mem_filter, List.mem_map, Bool.and_eq_true, hasExtension, beq_iff_eq,
    Path.extension?_eq_some_iff, get?_isNone_iff]
  constructor
  · rintro ⟨⟨name, ⟨hname, hextension, hnew⟩, rfl⟩, hfile⟩
    obtain ⟨content, hnode⟩ :=
      (h.isFile_join_iff (isFileName_of_mem_childNames hd hname)).mp hfile
    exact ⟨name, content, hnode, hextension, hnew, rfl⟩
  · rintro ⟨name, content, hnode, hextension, hnew, rfl⟩
    have hname : name ∈ d.childNames base := mem_childNames.mpr (by simp [hnode])
    exact ⟨⟨name, ⟨hname, hextension, hnew⟩, rfl⟩,
      (h.isFile_join_iff (isFileName_of_mem_childNames hd hname)).mpr ⟨content, hnode⟩⟩

theorem nodup_strays (hd : d.WellFormed) : (o.strays rendered d (d.childNames base)).Nodup := by
  refine ((nodup_childNames hd base).filter _ |>.map_on ?_).filter _
  intro name hname other hother h
  exact Path.join_injective
    (isFileName_of_mem_childNames hd (List.mem_filter.mp hname).1).slash
    (isFileName_of_mem_childNames hd (List.mem_filter.mp hother).1).slash h

theorem exists_staleFiles (hd : d.WellFormed) (h : d.createDirs o.dir = (.ok (), made))
    (rendered : TextFiles) : ∃ paths, (o.staleFiles rendered : StateM Disk _) d = (.ok paths, d) ∧
      o.StaleIn rendered d paths := by
  rcases enters_or_names_of_creatable h with ⟨hdir, base, henters⟩ | hnames
  · have hwalk := henters.walk hdir
    refine ⟨_, staleFiles_of_names (names_of_walk hwalk henters.isDir) rendered, ?_, fun path => ?_⟩
    · have hsorted : ((o.strays rendered d (d.childNames base)).mergeSort
          fun a b => decide (a ≤ b)).SortedLE := List.sortedLE_mergeSort
      have hnodup := (List.mergeSort_perm (o.strays rendered d (d.childNames base))
        fun a b => decide (a ≤ b)).nodup_iff.mpr (nodup_strays hd)
      exact (hsorted.sortedLT_of_nodup hnodup).pairwise
    · rw [List.mem_mergeSort, mem_strays hd henters]
      constructor
      · rintro ⟨name, content, hstale⟩
        exact ⟨base, name, content, hwalk, henters.isDir, hstale⟩
      · rintro ⟨base', name, content, hbase, -, hstale⟩
        obtain rfl : base = base' := Except.ok.inj (hwalk.symm.trans hbase)
        exact ⟨name, content, hstale⟩
  · refine ⟨[], staleFiles_of_notFound hnames rendered, List.Pairwise.nil, fun path => ?_⟩
    refine iff_of_false List.not_mem_nil ?_
    rintro ⟨base, name, content, hwalk, hdir, -⟩
    rw [names_of_walk hwalk hdir] at hnames
    cases hnames

/-! ### The runs -/

section

variable {files : TextFiles} {outs : List OutputFile} {paths : List String} {after : Disk}

theorem write_of_placed (hmade : d.createDirs o.dir = (.ok (), made))
    (hplaced : (o.placeAll files : StateM Disk _) made = (.ok outs, after))
    (hstale : (o.staleFiles files : StateM Disk _) after = (.ok paths, after)) :
    (o.write files : StateM Disk _) d = (.ok ⟨outs, paths⟩, after) := by
  simp only [write, reportOn, bind, StateT.bind, Storage.createDirs, hmade, hplaced, hstale]
  rfl

theorem write_of_refused {e : WriteError} (hmade : d.createDirs o.dir = (.ok (), made))
    (hplaced : (o.placeAll files : StateM Disk _) made = (.error e, after)) :
    (o.write files : StateM Disk _) d = (.error e, after) := by
  simp only [write, bind, StateT.bind, Storage.createDirs, hmade, hplaced]
  rfl

end

/-- All files are written: each is reported with what stood in its place, the directory holds them,
the others in it are reported as stale, and writing them once more does nothing. -/
structure Written (o : OutputDirectory) (base : Location) (files : TextFiles) (before after : Disk)
    (report : OutputReport) : Prop where
  told : List.Forall₂ (o.Tells base before) files report.files
  received : Receives base files before after
  stale : o.StaleIn files after report.stale
  again : (o.write files : StateM Disk _) after =
    (.ok ⟨files.map fun f => { o.planned f with status := .unchanged }, report.stale⟩, after)

theorem write_cases {files : TextFiles} (hd : d.WellFormed)
    (hmade : d.createDirs o.dir = (.ok (), made)) (hbase : made.Enters o.dir base)
    (hnodup : (files.map (·.1)).Nodup) (hnames : ∀ f ∈ files, Path.IsName f.1) :
    (∃ report after, (o.write files : StateM Disk _) d = (.ok report, after) ∧
        o.Written base files made after report ∧ after.WellFormed ∧ after.Enters o.dir base) ∨
      ∃ earlier f later reason after, files = earlier ++ f :: later ∧
        (∀ g ∈ earlier, ∀ reason, ¬ made.Refuses base g.1 reason) ∧
        made.Refuses base f.1 reason ∧
        (o.write files : StateM Disk _) d =
          (.error (.existing (Path.join o.dir f.1) reason), after) ∧
        Receives base earlier made after := by
  rcases placeAll_cases hnodup hnames (fun _ _ => rfl) (hd.createDirs hmade) hbase with
    ⟨outs, after, hplaced, hfiles, htold, hreceived, hafter, hentered⟩ |
    ⟨earlier, f, later, reason, after, hsplit, hearlier, hrefuses, hplaced, hreceived⟩
  · have hthere := createDirs_of_enters hentered
    obtain ⟨paths, hstale, hpaths⟩ := exists_staleFiles hafter hthere files
    have hagain := placeAll_of_held hfiles hentered hreceived.held
    exact Or.inl ⟨⟨outs, paths⟩, after, write_of_placed hmade hplaced hstale,
      ⟨htold, hreceived, hpaths, write_of_placed hthere hagain hstale⟩, hafter, hentered⟩
  · exact Or.inr ⟨earlier, f, later, reason, after, hsplit, hearlier, hrefuses,
      write_of_refused hmade hplaced, hreceived⟩

theorem exists_made_of_write {o : OutputDirectory} {files : TextFiles}
    {d after : Disk} {report : OutputReport}
    (h : (o.write files : StateM Disk _) d = (.ok report, after)) :
    ∃ made, d.createDirs o.dir = (.ok (), made) := by
  rcases hmade : d.createDirs o.dir with ⟨_ | _, made⟩
  · simp only [write, bind, StateT.bind, Storage.createDirs, hmade] at h
    cases h
  · exact ⟨made, rfl⟩

/-- After a run that succeeds the directory is there and holds the files. -/
theorem written_of_write {o : OutputDirectory} {files : TextFiles}
    {d after : Disk} {report : OutputReport} (hd : d.WellFormed)
    (hnodup : (files.map (·.1)).Nodup) (hnames : ∀ f ∈ files, Path.IsName f.1)
    (h : (o.write files : StateM Disk _) d = (.ok report, after)) :
    ∃ made base, d.createDirs o.dir = (.ok (), made) ∧ made.Enters o.dir base ∧
      o.Written base files made after report ∧ after.WellFormed ∧ after.Enters o.dir base := by
  obtain ⟨made, hmade⟩ := exists_made_of_write h
  obtain ⟨base, hbase⟩ := exists_enters_of_createDirs hmade
  rcases write_cases hd hmade hbase hnodup hnames with
    ⟨report', after', hrun, hwritten, hafter, hentered⟩ | ⟨_, _, _, _, _, -, -, -, hrun, -⟩
  · obtain ⟨hreport, rfl⟩ := Prod.mk.inj (hrun.symm.trans h)
    obtain rfl := Except.ok.inj hreport
    exact ⟨made, base, hmade, hbase, hwritten, hafter, hentered⟩
  · cases hrun.symm.trans h

end OutputDirectory

end SchemaGate
