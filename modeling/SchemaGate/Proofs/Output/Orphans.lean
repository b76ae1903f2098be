import SchemaGate.Proofs.Output.Confined
import SchemaGate.Proofs.Output.Written

/-!
# Orphaned files

A file that one rendering has left in the directory and the next does not bring is recognised by
its extension. Components' files have the one that is set, and the header has its own whatever is
set, so that an orphaned header is reported only where the two are one (`orphan_stale_iff`). In the
directory of the empty path nothing is reported, as that path cannot be listed.
-/

namespace SchemaGate

/-- The directory that the settings name. -/
def Settings.directory (s : Settings) : OutputDirectory := ⟨s.output.dir, s.output.extension⟩

open Disk OutputDirectory

theorem hasExtension_datasourceFilename {extension : String} :
    Path.HasExtension datasourceFilename extension ↔ extension = "prisma" := by
  have hheader : Path.extension? datasourceFilename = some "prisma" := by decide
  rw [← Path.extension?_eq_some_iff, hheader, Option.some.injEq, eq_comm]

/-- A file that is handed out has the extension that is set, but for a header that has another. -/
theorem hasExtension_iff_of_mem_outputs {s : Settings} {components : List Component}
    (whole : Accepted ⟨components, []⟩)
    (hcomponents : ∀ c ∈ components, Path.HasExtension c.filename s.output.extension)
    {name : String} (hname : name ∈ (s.outputs whole).map (·.1)) :
    Path.HasExtension name s.output.extension ↔
      (name = datasourceFilename → s.output.extension = "prisma") := by
  constructor
  · rintro hextension rfl
    exact hasExtension_datasourceFilename.mp hextension
  · intro hheader
    rcases (Settings.mem_names_outputs s whole).mp hname with hfile | hset
    · obtain ⟨c, hc, rfl⟩ := List.mem_map.mp hfile
      exact hcomponents c hc
    · have hsame : name = datasourceFilename := by
        rw [Settings.headerEntries] at hset
        split at hset
        · exact List.mem_singleton.mp hset
        · cases hset
      exact hsame ▸ hasExtension_datasourceFilename.mpr (hheader hsame)

/-- A file of the directory that is not among the rendered ones is stale where it has the
extension. -/
theorem OutputDirectory.StaleIn.join_mem_iff {o : OutputDirectory} {rendered : TextFiles}
    {d : Disk} {base : Location} {paths : List String} (h : o.StaleIn rendered d paths)
    (hd : d.WellFormed) (hbase : d.Enters o.dir base) {name : String} {content : Content}
    (hname : '/' ∉ name.toList) (hnode : d.node? (base ++ [name]) = some (.file content))
    (hnew : name ∉ rendered.map (·.1)) :
    Path.join o.dir name ∈ paths ↔ o.dir ≠ "" ∧ Path.HasExtension name o.extension := by
  rw [h.mem_iff]
  constructor
  · rintro ⟨base', name', content', hwalk, -, hnode', hextension, -, hpath⟩
    have hchild : name' ∈ d.childNames base' := mem_childNames.mpr (by simp [hnode'])
    obtain rfl := Path.join_injective hname (isFileName_of_mem_childNames hd hchild).slash hpath
    refine ⟨?_, hextension⟩
    intro hdir
    rw [hdir, walk, if_pos rfl] at hwalk
    cases hwalk
  · rintro ⟨hdir, hextension⟩
    exact ⟨base, name, content, hbase.walk hdir, hbase.isDir, hnode, hextension, hnew, rfl⟩

/-- Of the files that one successful run has written and the next does not bring, exactly those are
reported as stale that have the extension, which are all but the header where the extension is
another than the header's; and none in the directory of the empty path, which cannot be listed. -/
theorem orphan_stale_iff {s t : Settings} {components components' : List Component}
    {whole : Accepted ⟨components, []⟩} {whole' : Accepted ⟨components', []⟩} {d d₁ d₂ : Disk}
    {first second : OutputReport} (hd : d.WellFormed) (hsame : t.directory = s.directory)
    (hshape : ∀ c ∈ components ++ components',
      Text.isComponentFilename c.filename ∧ Path.HasExtension c.filename s.output.extension)
    (hfirst : (s.directory.write (s.outputs whole) : StateM Disk _) d = (.ok first, d₁))
    (hsecond : (t.directory.write (t.outputs whole') : StateM Disk _) d₁ = (.ok second, d₂))
    {name : String} (hname : name ∈ (s.outputs whole).map (·.1))
    (horphan : name ∉ (t.outputs whole').map (·.1)) :
    Path.join s.output.dir name ∈ second.stale ↔
      s.output.dir ≠ "" ∧ (name = datasourceFilename → s.output.extension = "prisma") := by
  obtain ⟨hcomponents, hcomponents'⟩ := List.forall_mem_append.mp hshape
  have hnamed : (s.outputs whole).WellNamed :=
    (wellNamed_outputs_iff s whole).mpr fun c hc => Or.inr (hcomponents c hc).1
  have hnamed' : (t.outputs whole').WellNamed :=
    (wellNamed_outputs_iff t whole').mpr fun c hc => Or.inr (hcomponents' c hc).1
  obtain ⟨made, base, -, hmade, hwritten, hd₁, hbase⟩ := written_of_write hd
    (Settings.ascending_outputs s whole).nodup (fun f hf => hnamed.isName hf) hfirst
  rw [hsame] at hsecond
  obtain ⟨made', base', hcreated, hmade', hwritten', hd₂, hbase'⟩ := written_of_write hd₁
    (Settings.ascending_outputs t whole').nodup (fun f hf => hnamed'.isName hf) hsecond
  -- the directory is there, so that the second run begins on the disk that the first has left
  obtain rfl : d₁ = made' :=
    (Prod.mk.inj ((createDirs_of_enters hbase).symm.trans hcreated)).2
  obtain rfl : base = base' := Except.ok.inj (hbase.leadsTo.symm.trans hbase'.leadsTo)
  obtain ⟨f, hf, rfl⟩ := List.mem_map.mp hname
  have hkept : d₂.node? (base ++ [f.1]) = some (.file (.text f.2)) := by
    rw [hwritten'.received.others _ ?_, hwritten.received.held f hf]
    rintro ⟨g, hg, hloc⟩
    have hother : g.1 = f.1 := by simpa using hloc.symm
    exact horphan (List.mem_map.mpr ⟨g, hg, hother⟩)
  have hstale := hwritten'.stale.join_mem_iff hd₂ hbase' (hnamed.isName hf).slash hkept horphan
  have hextension := hasExtension_iff_of_mem_outputs whole (fun c hc => (hcomponents c hc).2) hname
  exact hstale.trans (and_congr_right fun _ => hextension)

/-- The users under the name that another plan gives their file. -/
def renamedComponent : Component := { userComponent with filename := "schema-02-users.prisma" }

def userWhole : Accepted ⟨[userComponent], []⟩ where
  application := ⟨[.ofComponent userComponent [.minimal "user"]]⟩
  no_violations := by decide +kernel

def renamedWhole : Accepted ⟨[renamedComponent], []⟩ where
  application := ⟨[.ofComponent renamedComponent [.minimal "user"]]⟩
  no_violations := by decide +kernel

theorem OutputDirectory.exists_report {o : OutputDirectory} {files : TextFiles} {d : Disk}
    (h : ((o.write files : StateM Disk _) d).1.isOk) :
    ∃ report after, (o.write files : StateM Disk _) d = (.ok report, after) := by
  rcases hrun : (o.write files : StateM Disk _) d with ⟨_ | report, after⟩
  · simp [hrun, Except.isOk, Except.toBool] at h
  · exact ⟨report, after, rfl⟩

/-- After a second run under another plan and without a header, the header and the file of the first
plan are reported. -/
theorem orphan_stale_renamed :
    ∃ first second d₁ d₂,
      ((Settings.directory {}).write (Settings.outputs {} userWhole) : StateM Disk _) ⟨[]⟩ =
        (.ok first, d₁) ∧
      ((Settings.directory {}).write
          (Settings.outputs { output := { datasource := false } } renamedWhole) : StateM Disk _) d₁ =
        (.ok second, d₂) ∧
      ∀ name ∈ [datasourceFilename, userComponent.filename],
        Path.join "./prisma" name ∈ second.stale := by
  have hfirst : (((Settings.directory {}).write (Settings.outputs {} userWhole) : StateM Disk _)
      ⟨[]⟩).1.isOk := by decide +kernel
  have hsecond : (((Settings.directory {}).write
      (Settings.outputs { output := { datasource := false } } renamedWhole) : StateM Disk _)
        (((Settings.directory {}).write (Settings.outputs {} userWhole) : StateM Disk _)
          ⟨[]⟩).2).1.isOk := by decide +kernel
  obtain ⟨first, d₁, hrun⟩ := exists_report hfirst
  rw [hrun] at hsecond
  obtain ⟨second, d₂, hrun'⟩ := exists_report hsecond
  have hshape : ∀ c ∈ [userComponent] ++ [renamedComponent],
      Text.isComponentFilename c.filename ∧ Path.HasExtension c.filename "prisma" := by
    simp only [← Path.extension?_eq_some_iff]
    decide +kernel
  have hwritten : ∀ name ∈ [datasourceFilename, userComponent.filename],
      name ∈ (Settings.outputs {} userWhole).map (·.1) ∧
        name ∉ (Settings.outputs { output := { datasource := false } } renamedWhole).map (·.1) := by
    decide +kernel
  refine ⟨first, second, d₁, d₂, hrun, hrun', fun name hname => ?_⟩
  obtain ⟨hin, hout⟩ := hwritten name hname
  exact (orphan_stale_iff (s := {}) (t := { output := { datasource := false } }) wellFormed_empty
    rfl hshape hrun hrun' hin hout).mpr ⟨by decide, fun _ => rfl⟩

/-- The users in a file with another extension than the header's. -/
def sqlComponent : Component := { userComponent with filename := "schema-01-users.sql" }

def sqlWhole : Accepted ⟨[sqlComponent], []⟩ where
  application := ⟨[.ofComponent sqlComponent [.minimal "user"]]⟩
  no_violations := by decide +kernel

/-- The settings of files with that extension, with the header or without it. -/
def sqlSettings (datasource : Bool) : Settings := { output := { extension := "sql", datasource } }

/-- A header that is no longer wanted stays beside files with another extension and is not
reported. -/
theorem orphaned_header_unreported :
    (∀ datasource, (sqlSettings datasource).check) ∧
      (∀ c ∈ [sqlComponent], Text.isComponentFilename c.filename ∧
        Path.extension? c.filename = some "sql") ∧
      ∃ first second d₁ d₂,
        ((sqlSettings true).directory.write ((sqlSettings true).outputs sqlWhole) :
          StateM Disk _) ⟨[]⟩ = (.ok first, d₁) ∧
        ((sqlSettings false).directory.write ((sqlSettings false).outputs sqlWhole) :
          StateM Disk _) d₁ = (.ok second, d₂) ∧
        datasourceFilename ∈ ((sqlSettings true).outputs sqlWhole).map (·.1) ∧
        datasourceFilename ∉ ((sqlSettings false).outputs sqlWhole).map (·.1) ∧
        Path.join "./prisma" datasourceFilename ∉ second.stale := by
  have hfirst : (((sqlSettings true).directory.write ((sqlSettings true).outputs sqlWhole) :
      StateM Disk _) ⟨[]⟩).1.isOk := by decide +kernel
  have hstale : (((sqlSettings false).directory.write ((sqlSettings false).outputs sqlWhole) :
      StateM Disk _) (((sqlSettings true).directory.write ((sqlSettings true).outputs sqlWhole) :
        StateM Disk _) ⟨[]⟩).2).1.toOption.map (·.stale) = some [] := by decide +kernel
  obtain ⟨first, d₁, hrun⟩ := exists_report hfirst
  rw [hrun] at hstale
  rcases hrun' : ((sqlSettings false).directory.write ((sqlSettings false).outputs sqlWhole) :
      StateM Disk _) d₁ with ⟨_ | second, d₂⟩
  · simp [hrun', Except.toOption] at hstale
  · have hnone : second.stale = [] := by simpa [hrun', Except.toOption] using hstale
    exact ⟨by decide, by decide +kernel, first, second, d₁, d₂, hrun, hrun', by decide +kernel,
      by decide +kernel, by simp [hnone]⟩

end SchemaGate
