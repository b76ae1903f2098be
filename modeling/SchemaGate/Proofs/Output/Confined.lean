import SchemaGate.Output
import SchemaGate.Proofs.Disk.Places
import SchemaGate.Proofs.Render.Outputs
import SchemaGate.Proofs.Validation.Isolation

/-!
# Output stays in its directory

Texts whose names are those of the header and of components' files are written to children of the
output directory, and nothing else on the disk changes but for directories that are created. What a
generation hands out has such names; what the rendering of an application hands out has them exactly
where its components do, which it does not check (`output_confined`).
-/

namespace SchemaGate

/-- The names are those of the header and of components' files. -/
def TextFiles.WellNamed (files : TextFiles) : Prop :=
  ∀ f ∈ files, f.1 = datasourceFilename ∨ Text.isComponentFilename f.1

instance (files : TextFiles) : Decidable files.WellNamed :=
  inferInstanceAs (Decidable (∀ f ∈ files, f.1 = datasourceFilename ∨ Text.isComponentFilename f.1))

theorem TextFiles.WellNamed.isName {files : TextFiles} (h : files.WellNamed)
    {f : String × String} (hf : f ∈ files) : Path.IsName f.1 := by
  rcases h f hf with hheader | hcomponent
  · rw [hheader]
    exact ⟨by decide, by decide, by decide, by decide⟩
  · exact Path.isName_of_isComponentFilename hcomponent

/-! ### Writing -/

namespace OutputDirectory

open Disk

/-- The locations of the directory's children of some names. -/
def Child (o : OutputDirectory) (names : List String) (loc : Location) : Prop :=
  ∃ base, LeadsTo o.dir base ∧ ∃ name ∈ names, loc = base ++ [name]

variable {places : Location → Prop}

theorem touchesOnly_place (path text : String) :
    TouchesOnly (LeadsTo path) (place path text : StateM Disk _) := by
  have hwrite : TouchesOnly (LeadsTo path) (writeFile path text : StateM Disk _) :=
    (TouchesOnly.write path text).bind fun _ => .pure _
  refine (TouchesOnly.read path).bind fun result => ?_
  split
  · split
    · exact .pure _
    · exact hwrite.bind fun _ => .pure _
  · exact hwrite.bind fun _ => .pure _
  · exact .pure _

theorem touchesOnly_placeAll (o : OutputDirectory) {files : TextFiles}
    (h : ∀ f ∈ files, Path.IsName f.1) :
    TouchesOnly (o.Child (files.map (·.1))) (o.placeAll files : StateM Disk _) := by
  induction files with
  | nil => exact .pure _
  | cons file files ih =>
    obtain ⟨hfile, hfiles⟩ := List.forall_mem_cons.mp h
    have hplace : TouchesOnly (o.Child ((file :: files).map (·.1)))
        (place (Path.join o.dir file.1) file.2 : StateM Disk _) := by
      refine (touchesOnly_place _ _).mono fun loc hloc => ?_
      obtain ⟨base, hbase, rfl⟩ := leadsTo_join hfile hloc
      exact ⟨base, hbase, file.1, List.mem_cons_self, rfl⟩
    have hrest : TouchesOnly (o.Child ((file :: files).map (·.1)))
        (o.placeAll files : StateM Disk _) := by
      refine (ih hfiles).mono ?_
      rintro loc ⟨base, hbase, name, hname, hloc⟩
      exact ⟨base, hbase, name, List.mem_cons_of_mem _ hname, hloc⟩
    refine hplace.bind fun result => ?_
    split
    · exact .pure _
    · exact hrest.bind fun _ => .pure _

theorem touchesOnly_filePaths (o : OutputDirectory) (names : List String) :
    TouchesOnly places (o.filePaths names : StateM Disk _) := by
  induction names with
  | nil => exact .pure _
  | cons name names ih =>
    exact (TouchesOnly.isFile _).bind fun _ => ih.bind fun _ => .pure _

/-- A report is made by looking at the disk only. -/
theorem touchesOnly_reportOn (o : OutputDirectory) (rendered : TextFiles)
    (files : List OutputFile) : TouchesOnly places (o.reportOn rendered files : StateM Disk _) := by
  have hstale : TouchesOnly places (o.staleFiles rendered : StateM Disk _) := by
    refine (TouchesOnly.names _).bind fun result => ?_
    split
    · exact (touchesOnly_filePaths o _).bind fun _ => .pure _
    · exact .pure _
    · exact .pure _
  exact hstale.bind fun _ => .pure _

/-- From one disk to another children of the directory may change; elsewhere only directories are
new. -/
def ChangesChildren (o : OutputDirectory) (names : List String) (d d' : Disk) : Prop :=
  ∀ loc, ¬ o.Child names loc →
    d'.node? loc = d.node? loc ∨ d.node? loc = none ∧ d'.node? loc = some .dir

theorem changesChildren_write (o : OutputDirectory) {files : TextFiles}
    (h : ∀ f ∈ files, Path.IsName f.1) (d : Disk) :
    o.ChangesChildren (files.map (·.1)) d ((o.write files : StateM Disk _) d).2 := by
  intro loc hloc
  refine TouchesOnly.behind (gainsDirectories_createDirs o.dir) (fun created => ?_) d hloc
  split
  · exact .pure _
  · refine (touchesOnly_placeAll o h).bind fun placed => ?_
    split
    · exact .pure _
    · exact touchesOnly_reportOn o files _

end OutputDirectory

/-! ### The names that are handed out -/

theorem wellNamed_outputs_iff {components : List Component} (s : Settings)
    (whole : Accepted ⟨components, []⟩) :
    (s.outputs whole).WellNamed ↔
      ∀ c ∈ components, c.filename = datasourceFilename ∨ Text.isComponentFilename c.filename := by
  constructor
  · intro h c hc
    have hname : c.filename ∈ (s.outputs whole).map (·.1) :=
      (Settings.mem_names_outputs s whole).mpr (Or.inl (List.mem_map_of_mem hc))
    obtain ⟨f, hf, hsame⟩ := List.mem_map.mp hname
    rw [← hsame]
    exact h f hf
  · intro h f hf
    rcases (Settings.mem_names_outputs s whole).mp (List.mem_map_of_mem hf) with hfile | hheader
    · obtain ⟨c, hc, hsame⟩ := List.mem_map.mp hfile
      rw [← hsame]
      exact h c hc
    · rw [Settings.headerEntries] at hheader
      split at hheader
      · exact Or.inl (List.mem_singleton.mp hheader)
      · cases hheader

theorem checkComponents_of_generate {σ : Type} {s : Settings} {producer : Producer σ}
    {context : String} {components : List Component} {state : σ}
    {report : GenerationReport components}
    (h : s.generate producer context components state = .ok report) :
    checkComponents components none = .ok () := by
  rw [Settings.generate] at h
  cases hcheck : checkComponents components none with
  | error e =>
    rw [hcheck] at h
    cases h
  | ok _ => rfl

theorem exists_accepted_of_outputOf {s : Settings} {components : List Component}
    {report : GenerationReport components} {out : TextFiles} (h : s.outputOf report = .ok out) :
    ∃ whole : Accepted ⟨components, []⟩, out = s.outputs whole := by
  rw [Settings.outputOf] at h
  split at h
  · cases h
  · next whole _ => exact ⟨whole, (Except.ok.inj h).symm⟩
  · cases h

/-- What a generation hands out has the names of components' files and of the header. What the
rendering of an application hands out has them exactly where the components have. Texts of such names
are written to children of the output directory, and a dry run writes none. -/
theorem output_confined (s : Settings) (components : List Component) :
    (∀ app out, s.render app components = .ok out →
      (out.WellNamed ↔
        ∀ c ∈ components, c.filename = datasourceFilename ∨ Text.isComponentFilename c.filename)) ∧
    (∀ (σ : Type) (producer : Producer σ) context state report out,
      s.generate producer context components state = .ok report → s.outputOf report = .ok out →
        out.WellNamed) ∧
    ∀ (o : OutputDirectory) (out : TextFiles) (d : Disk), out.WellNamed →
      o.ChangesChildren (out.map (·.1)) d ((o.write out : StateM Disk _) d).2 ∧
        ∀ loc, ((o.dryRun out : StateM Disk _) d).2.node? loc = d.node? loc := by
  refine ⟨?_, ?_, ?_⟩
  · intro app out h
    obtain ⟨whole, -, rfl⟩ := Settings.exists_accepted_of_render h
    exact wellNamed_outputs_iff s whole
  · intro σ producer context state report out hgenerate hout
    obtain ⟨whole, rfl⟩ := exists_accepted_of_outputOf hout
    have hvalid := (Plan.checkErrors_eq_nil_iff.mp (Plan.check_eq_ok_iff.mp
      (Plan.check_of_checkComponents (checkComponents_of_generate hgenerate)))).1
    exact (wellNamed_outputs_iff s whole).mpr fun c hc => Or.inr (hvalid c hc)
  · intro o out d hnamed
    have hlook : Disk.TouchesOnly (fun _ => False) (o.dryRun out : StateM Disk _) :=
      o.touchesOnly_reportOn out _
    exact ⟨o.changesChildren_write (fun f hf => hnamed.isName hf) d,
      fun loc => hlook d loc not_false⟩

/-- A producer that answers with the users. -/
def userProducer : Producer Unit where
  answer _ _ := (.after 0 (.candidate [.minimal "user"]), ())

/-- A generation and the rendering of its application hand out the same two texts, which are written
to children of the directory on any disk. -/
theorem output_confined_user :
    ∃ report out, Settings.generate {} userProducer "" [userComponent] () = .ok report ∧
      Settings.outputOf {} report = .ok out ∧
      Settings.render {} ⟨[.ofComponent userComponent [.minimal "user"]]⟩ [userComponent] =
        .ok out ∧
      out.map (·.1) = [datasourceFilename, userComponent.filename] ∧ out.WellNamed ∧
      (∀ c ∈ [userComponent],
        c.filename = datasourceFilename ∨ Text.isComponentFilename c.filename) ∧
      ∀ d, (OutputDirectory.mk "a/../schema" "prisma").ChangesChildren
        [datasourceFilename, userComponent.filename] d
        (((OutputDirectory.mk "a/../schema" "prisma").write out : StateM Disk _) d).2 := by
  have hsame : ((Settings.generate {} userProducer "" [userComponent] ()).bind
        (Settings.outputOf {})).toOption =
      (Settings.render {} ⟨[.ofComponent userComponent [.minimal "user"]]⟩
        [userComponent]).toOption := by decide +kernel
  have hnames : (Settings.render {} ⟨[.ofComponent userComponent [.minimal "user"]]⟩
        [userComponent]).toOption.map (·.map (·.1)) =
      some [datasourceFilename, userComponent.filename] := by decide +kernel
  cases hrender : Settings.render {} ⟨[.ofComponent userComponent [.minimal "user"]]⟩
      [userComponent] with
  | error e => simp [hrender, Except.toOption] at hnames
  | ok out =>
    cases hgenerate : Settings.generate {} userProducer "" [userComponent] () with
    | error e => simp [hrender, hgenerate, Except.bind, Except.toOption] at hsame
    | ok report =>
      have hout : Settings.outputOf {} report = .ok out := by
        cases hreport : Settings.outputOf {} report <;>
          simp_all [Except.bind, Except.toOption]
      replace hnames : out.map (·.1) = [datasourceFilename, userComponent.filename] := by
        simpa [hrender, Except.toOption] using hnames
      obtain ⟨hrendered, hgenerated, hwritten⟩ := output_confined {} [userComponent]
      have hnamed : out.WellNamed := hgenerated _ _ _ _ _ _ hgenerate hout
      refine ⟨report, out, rfl, hout, rfl, hnames, hnamed, (hrendered _ _ hrender).mp hnamed, ?_⟩
      intro d
      rw [← hnames]
      exact (hwritten _ out d hnamed).1

/-- A component whose file belongs beside the output directory. -/
def strayComponent : Component :=
  { filename := "../notes.prisma", domain := "Users", tables := ["user"] }

def strayApplication : Application := ⟨[.ofComponent strayComponent [.minimal "user"]]⟩

/-- What is rendered of that component is written over a file beside the output directory. -/
theorem render_escapes_directory :
    ∃ out, Settings.render {} strayApplication [strayComponent] = .ok out ∧ ¬ out.WellNamed ∧
      ∃ d : Disk, d.read "notes.prisma" = .ok "keep" ∧
        (((OutputDirectory.mk "schema" "prisma").write out : StateM Disk _) d).2.read
          "notes.prisma" ≠ .ok "keep" := by
  have hescapes : (Settings.render {} strayApplication [strayComponent]).toOption.any (fun out =>
      decide (¬ TextFiles.WellNamed out) &&
        decide ((((OutputDirectory.mk "schema" "prisma").write out : StateM Disk _)
          ⟨[(["notes.prisma"], .file (.text "keep"))]⟩).2.read "notes.prisma" ≠ .ok "keep")) =
      true := by decide +kernel
  cases h : Settings.render {} strayApplication [strayComponent] with
  | error e => simp [h, Except.toOption] at hescapes
  | ok out =>
    rw [h] at hescapes
    obtain ⟨hnamed, hwritten⟩ := Bool.and_eq_true_iff.mp hescapes
    exact ⟨out, rfl, of_decide_eq_true hnamed, _, by decide +kernel, of_decide_eq_true hwritten⟩

end SchemaGate
