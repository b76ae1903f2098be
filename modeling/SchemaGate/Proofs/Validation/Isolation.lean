import SchemaGate.Generation
import SchemaGate.Proofs.Paired
import SchemaGate.Proofs.Plan.Partition
import SchemaGate.Proofs.Validation.Acceptance
import SchemaGate.Workflow

/-!
# One file by itself and among all

A component's file is judged twice: by itself, with the tables of the other components as targets,
and as part of the whole application. The first judgment refuses nothing that the second accepts
(`isolated_isOk_of_whole`), since with the other files every rule loses only relations and names,
and a target in another file is a table of the component that owns the file.

The other way round the whole can only show what no file shows by itself: properties that clash on a
model that other files point at, and relations of the same two models that are held in two files
(`kind_of_assembled_violation`). Distinct filenames and tables make every other rule of the whole
one of its files.
-/

namespace SchemaGate

variable {components : List Component} {app : Application}

/-- What a component's file is judged against by itself. -/
abbrev isolatedScope (components : List Component) (c : Component) : Scope :=
  ⟨[c], othersOf c components⟩

theorem mem_othersOf {c d : Component} :
    d ∈ othersOf c components ↔ d ∈ components ∧ d.filename ≠ c.filename := by
  simp [othersOf]

/-! ### Two components whose models point at each other -/

def userComponent : Component :=
  { filename := "schema-01-users.prisma", domain := "Users", tables := ["user"] }

def teamComponent : Component :=
  { filename := "schema-02-teams.prisma", domain := "Teams", tables := ["team"] }

/-- The file of a component with one model, which points at `target` under a label. -/
def pointingFile (c : Component) (name target : String) (label : Option String) : SchemaFile :=
  let relation : Relation := { name := target, target, mapping := label }
  .ofComponent c [{ Model.minimal name with foreign := [{ name := target ++ "_id", relation }] }]

/-- Each of two files points at the other. -/
def mutualFiles (userLabel teamLabel : Option String) : List SchemaFile :=
  [pointingFile userComponent "user" "team" userLabel,
    pointingFile teamComponent "team" "user" teamLabel]

/-! ### From the whole to one file -/

/-- The file under a component's filename is its own. -/
theorem Corresponds.realizes {known : List Component} (h : Corresponds components known app)
    {c : Component} (hc : c ∈ components) {file : SchemaFile} (hfile : file ∈ app.files)
    (hname : file.filename = c.filename) : file.Realizes c := by
  obtain ⟨other, hother, hrealizes⟩ := h.realized c hc
  have hsame : file.filename = other.filename := hname.trans hrealizes.filename.symm
  obtain rfl := List.inj_on_of_nodup_map h.filenames_nodup hfile hother hsame
  exact hrealizes

/-- A target in the whole is a model of the file or a table of another component. -/
theorem Conforms.target_isolated (h : Conforms ⟨components, []⟩ app) {c : Component}
    {file : SchemaFile} (hfile : file ∈ app.files) (hname : file.filename = c.filename)
    {f : Foreign} (hf : f ∈ app.foreigns) :
    f.target ∈ (isolatedScope components c).targets ⟨[file]⟩ := by
  have htarget : f.target ∈ app.modelNames := by
    simpa [Scope.targets] using h.targets f hf
  obtain ⟨home, hhome, hmodel⟩ := Application.mem_modelNames.mp htarget
  obtain ⟨owner, howner, hplanned⟩ := h.corresponds.planned home hhome
  have howner : owner ∈ components := by simpa [Scope.known] using howner
  by_cases hsame : owner.filename = c.filename
  · have hhere : home.filename = file.filename := by rw [← hplanned, hsame, hname]
    obtain rfl := List.inj_on_of_nodup_map h.corresponds.filenames_nodup hhome hfile hhere
    exact List.mem_append_left _ (Application.mem_modelNames.mpr ⟨home, by simp, hmodel⟩)
  · have hrealizes := h.corresponds.realizes howner hhome hplanned.symm
    exact List.mem_append_right _ (List.mem_flatMap.mpr
      ⟨owner, mem_othersOf.mpr ⟨howner, hsame⟩, (hrealizes.tables _).mp hmodel⟩)

theorem Conforms.isolated (h : Conforms ⟨components, []⟩ app) {c : Component}
    (hc : c ∈ components) {file : SchemaFile} (hfile : file ∈ app.files)
    (hname : file.filename = c.filename) :
    Conforms (isolatedScope components c) ⟨[file]⟩ := by
  have hsub : (⟨[file]⟩ : Application).foreigns.Sublist app.foreigns :=
    Application.foreigns_sublist (List.singleton_sublist.mpr hfile)
  have hmodels : ∀ model ∈ (⟨[file]⟩ : Application).models, model ∈ app.models := by
    intro model hmodel
    obtain ⟨home, hhome, hmem⟩ := Application.mem_models.mp hmodel
    obtain rfl := List.mem_singleton.mp hhome
    exact Application.mem_models.mpr ⟨home, hfile, hmem⟩
  have hnames : (⟨[file]⟩ : Application).modelNames.Sublist app.modelNames := by
    rw [Application.modelNames_eq_flatMap, Application.modelNames_eq_flatMap]
    exact (List.singleton_sublist.mpr hfile).flatMap _
  exact
    { corresponds :=
        { filenames_nodup := List.nodup_singleton _
          models_ne_nil := by simpa using h.corresponds.models_ne_nil file hfile
          planned := by simp [Scope.known, hname]
          realized := by simpa using h.corresponds.realizes hc hfile hname }
      models :=
        { nodup := h.models.nodup.sublist hnames
          identifiers := fun name hmem => h.models.identifiers name (hnames.subset hmem) }
      properties := fun model hmem => (h.properties model (hmodels model hmem)).mono hsub
      targets := fun f hf => h.target_isolated hfile hname (hsub.subset hf)
      labels := h.labels.mono hsub
      indexes := fun model hmem => h.indexes model (hmodels model hmem) }

/-- A component's file in an accepted whole is accepted by itself. -/
theorem isolated_isOk_of_whole (hwhole : (Scope.validate ⟨components, []⟩ app).isOk) :
    ∀ c ∈ components, ∃ file, app.file? c.filename = some file ∧
      (Scope.validate ⟨[c], othersOf c components⟩ ⟨[file]⟩).isOk := by
  intro c hc
  have h : Conforms ⟨components, []⟩ app := Scope.validate_isOk_iff_conforms.mp hwhole
  obtain ⟨file, hfile, hrealizes⟩ := h.corresponds.realized c hc
  refine ⟨file, ?_, ?_⟩
  · rw [← hrealizes.filename]
    exact Application.file?_of_nodup h.corresponds.filenames_nodup hfile
  · exact Scope.validate_isOk_iff_conforms.mpr (h.isolated hc hfile hrealizes.filename)

theorem isolated_isOk_of_whole_mutual :
    (Scope.validate ⟨[userComponent, teamComponent], []⟩
      ⟨mutualFiles (some "member") (some "lead")⟩).isOk ∧
    ∀ c ∈ [userComponent, teamComponent],
      ∃ file, (⟨mutualFiles (some "member") (some "lead")⟩ : Application).file? c.filename =
        some file ∧
        (Scope.validate ⟨[c], othersOf c [userComponent, teamComponent]⟩ ⟨[file]⟩).isOk := by
  have hwhole : (Scope.validate ⟨[userComponent, teamComponent], []⟩
      ⟨mutualFiles (some "member") (some "lead")⟩).isOk := by decide +kernel
  exact ⟨hwhole, isolated_isOk_of_whole hwhole⟩

/-! ### From each file to the whole -/

theorem Conforms.realizes_of_isolated {c : Component} {file : SchemaFile}
    (h : Conforms (isolatedScope components c) ⟨[file]⟩) : file.Realizes c := by
  obtain ⟨other, hother, hrealizes⟩ := h.corresponds.realized c (by simp)
  obtain rfl := List.mem_singleton.mp hother
  exact hrealizes

theorem map_filename_of_realizes {files : List SchemaFile}
    (h : List.Forall₂ (fun c file => file.Realizes c) components files) :
    files.map (·.filename) = components.map (·.filename) := by
  induction h with
  | nil => rfl
  | cons hrealizes _ ih => rw [List.map_cons, List.map_cons, hrealizes.filename, ih]

section Assembled

variable {files : List SchemaFile}
  (hfilenames : (components.map (·.filename)).Nodup)
  (htables : (Plan.ownedTables components).Nodup)
  (hfiles : List.Forall₂ (fun c file => Conforms (isolatedScope components c) ⟨[file]⟩)
    components files)

include hfilenames hfiles in
theorem corresponds_assembled : Corresponds components components ⟨files⟩ := by
  have hrealizes : List.Forall₂ (fun c file => file.Realizes c) components files :=
    hfiles.imp fun _ _ h => h.realizes_of_isolated
  refine ⟨?_, fun file hfile => ?_, fun file hfile => ?_, forall₂_mem_left hrealizes⟩
  · rwa [map_filename_of_realizes hrealizes]
  · obtain ⟨c, -, h⟩ := forall₂_mem_right hfiles file hfile
    exact h.corresponds.models_ne_nil file (by simp)
  · obtain ⟨c, hc, h⟩ := forall₂_mem_right hrealizes file hfile
    exact ⟨c, hc, h.filename.symm⟩

include hfilenames htables hfiles in
/-- Files of components that share no table share no model name. -/
theorem modelsNamed_assembled : ModelsNamed ⟨files⟩ := by
  have hcorresponds := corresponds_assembled hfilenames hfiles
  have hown : ∀ file ∈ files, ModelsNamed ⟨[file]⟩ := fun file hfile =>
    let ⟨_, _, h⟩ := forall₂_mem_right hfiles file hfile
    h.models
  refine ⟨?_, fun name hname => ?_⟩
  · rw [Application.modelNames_eq_flatMap, List.nodup_flatMap]
    refine ⟨fun file hfile => ?_, ?_⟩
    · simpa [Application.modelNames_eq_flatMap] using (hown file hfile).nodup
    · have hdistinct := List.pairwise_map.mp hcorresponds.filenames_nodup
      refine hdistinct.imp_of_mem fun {file other} hfile hother hne name hname hname' => hne ?_
      obtain ⟨c, hc, h⟩ := forall₂_mem_right hfiles file hfile
      obtain ⟨d, hd, h'⟩ := forall₂_mem_right hfiles other hother
      have hrealizes := h.realizes_of_isolated
      have hrealizes' := h'.realizes_of_isolated
      have hsame : c = d := Plan.eq_of_mem_tables htables hc hd
        ((hrealizes.tables name).mp hname) ((hrealizes'.tables name).mp hname')
      rw [hrealizes.filename, hrealizes'.filename, hsame]
  · obtain ⟨file, hfile, hmem⟩ := Application.mem_modelNames.mp hname
    exact (hown file hfile).identifiers name
      (Application.mem_modelNames.mpr ⟨file, by simp, hmem⟩)

include hfilenames hfiles in
theorem target_assembled {file : SchemaFile} (hfile : file ∈ files) {f : Foreign}
    (hf : f ∈ (⟨[file]⟩ : Application).foreigns) :
    f.target ∈ (⟨files⟩ : Application).modelNames := by
  obtain ⟨c, -, h⟩ := forall₂_mem_right hfiles file hfile
  rcases List.mem_append.mp (h.targets f hf) with hhere | helsewhere
  · obtain ⟨home, hhome, hmem⟩ := Application.mem_modelNames.mp hhere
    obtain rfl := List.mem_singleton.mp hhome
    exact Application.mem_modelNames.mpr ⟨home, hfile, hmem⟩
  · obtain ⟨d, hd, htable⟩ := List.mem_flatMap.mp helsewhere
    obtain ⟨home, hhome, hrealizes⟩ :=
      (corresponds_assembled hfilenames hfiles).realized d (mem_othersOf.mp hd).1
    exact Application.mem_modelNames.mpr ⟨home, hhome, (hrealizes.tables _).mpr htable⟩

include hfilenames hfiles in
/-- Of one model in the whole, nothing but repeated properties is reported. -/
theorem duplicate_of_mem_modelViolations {file : SchemaFile} (hfile : file ∈ files)
    {model : Model} (hmodel : model ∈ file.models) {v : Violation}
    (hv : v ∈ Scope.modelViolations ⟨components, []⟩ ⟨files⟩ file model) :
    v.kind = .duplicateField ∧
      ∃ f ∈ (⟨files⟩ : Application).foreigns, v.path = .ofForeign f := by
  have hdecl : (file, model) ∈ (⟨files⟩ : Application).declarations :=
    Application.mem_declarations.mpr ⟨hfile, hmodel⟩
  have hdecl' : (file, model) ∈ (⟨[file]⟩ : Application).declarations :=
    Application.mem_declarations.mpr ⟨by simp, hmodel⟩
  obtain ⟨c, -, h⟩ := forall₂_mem_right hfiles file hfile
  obtain ⟨-, hidentifiers⟩ := Validation.modelsNamed_iff.mp h.models
  have hnamed := Application.forall_models_iff.mp h.properties (file, model) hdecl'
  have hindexes := Application.forall_models_iff.mp h.indexes (file, model) hdecl'
  obtain ⟨hcolumns, -, -⟩ := Validation.nodup_properties_iff.mp hnamed.nodup
  have hfields : ∀ field ∈ model.foreign, field.relation.WellNamed ∧
      field.relation.target ∈ Scope.targets ⟨components, []⟩ ⟨files⟩ := by
    intro field hfield
    refine ⟨hnamed.relations field hfield, List.mem_append_left _ ?_⟩
    exact target_assembled hfilenames hfiles hfile (f := ⟨file, model, field⟩)
      (Application.mem_foreigns.mpr ⟨hdecl', hfield⟩)
  rw [Scope.modelViolations, hidentifiers (file, model) hdecl',
    Validation.columnViolations_eq_nil_iff.mpr ⟨hnamed.identifiers, hcolumns⟩,
    (Validation.indexViolations_eq_nil_iff hnamed.identifiers hcolumns).mpr hindexes,
    List.append_nil, List.nil_append, List.nil_append] at hv
  rcases List.mem_append.mp hv with hv | hv
  · obtain ⟨hkind, field, hfield, hpath⟩ :=
      Validation.duplicate_of_mem_relationViolations hfields hv
    exact ⟨hkind, _, Application.mem_foreigns.mpr ⟨hdecl, hfield⟩, hpath⟩
  · exact Validation.duplicate_of_mem_backRelationViolations hv

include hfilenames htables hfiles in
/-- In the whole, nothing but repeated properties and ambiguous relations is reported. -/
theorem kind_of_mem_violations_assembled {v : Violation}
    (hv : v ∈ Scope.violations ⟨components, []⟩ ⟨files⟩) :
    (v.kind = .duplicateField ∨ v.kind = .ambiguousRelation) ∧
      ∃ f ∈ (⟨files⟩ : Application).foreigns, v.path = .ofForeign f := by
  obtain ⟨hfileChecks, hcomponents, hstray⟩ :=
    Validation.corresponds_iff.mp (corresponds_assembled hfilenames hfiles)
  obtain ⟨hnames, -⟩ := Validation.modelsNamed_iff.mp
    (modelsNamed_assembled hfilenames htables hfiles)
  have hknown : Scope.known ⟨components, []⟩ = components := List.append_nil components
  rw [Scope.violations, hknown, hfileChecks, List.flatMap_eq_nil_iff.mpr hcomponents, hstray,
    hnames, List.nil_append, List.nil_append, List.nil_append, List.nil_append] at hv
  rcases List.mem_append.mp hv with hv | hv
  · obtain ⟨⟨file, model⟩, hdecl, hv⟩ := List.mem_flatMap.mp hv
    obtain ⟨hfile, hmodel⟩ := Application.mem_declarations.mp hdecl
    obtain ⟨hkind, hpath⟩ := duplicate_of_mem_modelViolations hfilenames hfiles hfile hmodel hv
    exact ⟨Or.inl hkind, hpath⟩
  · obtain ⟨hkind, hpath⟩ := Validation.ambiguous_of_mem_ambiguityViolations hv
    exact ⟨Or.inr hkind, hpath⟩

end Assembled

/-- Components that pass the check of a plan share neither a filename nor a table. -/
theorem nodup_of_checkComponents (h : checkComponents components none = .ok ()) :
    (components.map (·.filename)).Nodup ∧ (Plan.ownedTables components).Nodup := by
  obtain ⟨-, hfilenames, -, hpartitions⟩ :=
    Plan.checkErrors_eq_nil_iff.mp (Plan.check_eq_ok_iff.mp (Plan.check_of_checkComponents h))
  have htables := hpartitions.nodup
  rw [Plan.flatMap_tables_componentGroup] at htables
  exact ⟨hfilenames, htables⟩

/-- What the whole shows beyond its files: with components that pass the check of a plan and files
that are each accepted by themselves, only properties that clash and relations that cannot be told
apart are reported, each at a file of one of the components. -/
theorem kind_of_assembled_violation {files : List SchemaFile}
    (hcomponents : checkComponents components none = .ok ())
    (hfiles : List.Forall₂ (fun c file =>
      (Scope.validate ⟨[c], othersOf c components⟩ ⟨[file]⟩).isOk) components files)
    {violations : List Violation}
    (hrejected : Scope.validate ⟨components, []⟩ ⟨files⟩ = .error violations) :
    ∀ v ∈ violations, (v.kind = .duplicateField ∨ v.kind = .ambiguousRelation) ∧
      ∃ c ∈ components, v.path.file = some c.filename := by
  obtain ⟨hfilenames, htables⟩ := nodup_of_checkComponents hcomponents
  have hconform : List.Forall₂ (fun c file => Conforms (isolatedScope components c) ⟨[file]⟩)
      components files := hfiles.imp fun _ _ h => Scope.validate_isOk_iff_conforms.mp h
  have hviolations : Scope.violations ⟨components, []⟩ ⟨files⟩ = violations := by
    rw [Scope.validate] at hrejected
    split at hrejected
    · cases hrejected
    · exact Except.error.inj hrejected
  intro v hv
  obtain ⟨hkind, f, hf, hpath⟩ :=
    kind_of_mem_violations_assembled hfilenames htables hconform (hviolations ▸ hv)
  refine ⟨hkind, ?_⟩
  obtain ⟨hdecl, -⟩ := Application.mem_foreigns.mp hf
  obtain ⟨hfile, -⟩ := Application.mem_declarations.mp hdecl
  obtain ⟨c, hc, hconforms⟩ := forall₂_mem_right hconform f.file hfile
  refine ⟨c, hc, ?_⟩
  rw [hpath, ← hconforms.realizes_of_isolated.filename]
  rfl

/-- Without labels each of the two files is accepted, and the whole is not. -/
theorem kind_of_assembled_violation_mutual :
    ∃ violations, Scope.validate ⟨[userComponent, teamComponent], []⟩ ⟨mutualFiles none none⟩ =
        .error violations ∧ violations.length = 4 ∧
      ∀ v ∈ violations, (v.kind = .duplicateField ∨ v.kind = .ambiguousRelation) ∧
        ∃ c ∈ [userComponent, teamComponent], v.path.file = some c.filename := by
  have hcomponents : checkComponents [userComponent, teamComponent] none = .ok () := by
    decide +kernel
  have hfiles : List.Forall₂ (fun c file =>
      (Scope.validate ⟨[c], othersOf c [userComponent, teamComponent]⟩ ⟨[file]⟩).isOk)
      [userComponent, teamComponent] (mutualFiles none none) :=
    .cons (by decide +kernel) (.cons (by decide +kernel) .nil)
  refine ⟨_, rfl, by decide +kernel, ?_⟩
  exact kind_of_assembled_violation hcomponents hfiles rfl

end SchemaGate
