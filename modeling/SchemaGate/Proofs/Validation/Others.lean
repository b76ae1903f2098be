import SchemaGate.Proofs.Validation.Relations

/-!
# More components delivered elsewhere

What is known of components delivered elsewhere bears on two checks: a relation may point at one of
their tables, and a file may be one of theirs. A finding keeps a violation together with the
relation or the file that it is about, so that it can be told which components would mend it. With
more components delivered elsewhere, the findings that they mend are gone, and all others are
reported as before and in the order from before (`violations_of_more_others`).
-/

namespace SchemaGate

open Validation

/-! ### Violations and what they are about -/

/-- The kind and the path of a violation: all but what is said of it. -/
def Violation.place (v : Violation) : Violation.Kind × Violation.Path := (v.kind, v.path)

/-- What is reported of a file that belongs to no component. -/
def strayViolation (file : SchemaFile) : Violation :=
  { kind := .unexpectedFile, path := .ofFile file,
    message := s!"file '{file.filename}' does not belong to any component" }

/-- A violation, with what it is about where a component delivered elsewhere could mend it. -/
inductive Finding where
  /-- The relation points at no model that is known. -/
  | dangling (f : Foreign)
  /-- The file belongs to no component that is known. -/
  | stray (file : SchemaFile)
  /-- No component delivered elsewhere could mend this. -/
  | lasting (v : Violation)

namespace Finding

def violation : Finding → Violation
  | dangling f => danglingViolation f
  | stray file => strayViolation file
  | lasting v => v

/-- The relation that a target is missing for. -/
def relation? : Finding → Option Foreign
  | dangling f => some f
  | _ => none

/-- The file that a component is missing for. -/
def file? : Finding → Option SchemaFile
  | stray file => some file
  | _ => none

/-- One of the components brings what is missing: the target of the relation, or the component of
the file. -/
def MendedBy (components : List Component) : Finding → Prop
  | dangling f => ∃ c ∈ components, f.target ∈ c.tables
  | stray file => ∃ c ∈ components, c.filename = file.filename
  | lasting _ => False

instance (components : List Component) : DecidablePred (MendedBy components)
  | dangling f => inferInstanceAs (Decidable (∃ c ∈ components, f.target ∈ c.tables))
  | stray file => inferInstanceAs (Decidable (∃ c ∈ components, c.filename = file.filename))
  | lasting _ => inferInstanceAs (Decidable False)

end Finding

namespace Scope

/-- The violations of the relations that a model holds, with what they are about. -/
def relationFindings (s : Scope) (app : Application) (file : SchemaFile) (model : Model) :
    List Finding :=
  (withEarlier model.foreign).flatMap fun (earlier, field) =>
    let f : Foreign := ⟨file, model, field⟩
    (labelShapeViolations f ++
      relationNameViolations (model.columnNames ++ earlier.map (·.relation.name)) f).map .lasting ++
      if s.Dangles app f then [.dangling f] else []

/-- The violations of one model, with what they are about. -/
def modelFindings (s : Scope) (app : Application) (file : SchemaFile) (model : Model) :
    List Finding :=
  (identifierViolations file model ++ columnViolations file model).map .lasting ++
    s.relationFindings app file model ++
    (backRelationViolations app model ++ indexViolations file model).map .lasting

/-- The files that belong to no component. -/
def strayFiles (s : Scope) (app : Application) : List SchemaFile :=
  app.files.filter fun file => ∀ c ∈ s.known, c.filename ≠ file.filename

/-- All violations, with what they are about. -/
def findings (s : Scope) (app : Application) : List Finding :=
  (fileViolations app ++ s.components.flatMap (componentViolations s.known app)).map .lasting ++
    (s.strayFiles app).map .stray ++
    (modelNameViolations app).map .lasting ++
    app.declarations.flatMap (fun (file, model) => s.modelFindings app file model) ++
    (ambiguityViolations app).map .lasting

end Scope

/-! ### The findings are the report -/

section

variable {s : Scope} {app : Application} {file : SchemaFile} {model : Model}

theorem map_violation_lasting (vs : List Violation) :
    (vs.map Finding.lasting).map Finding.violation = vs := by
  rw [List.map_map]
  exact List.map_id vs

theorem map_violation_relationFindings :
    (s.relationFindings app file model).map Finding.violation =
      relationViolations (s.targets app) file model := by
  rw [Scope.relationFindings, relationViolations, List.map_flatMap]
  refine List.flatMap_congr fun p _ => ?_
  dsimp only
  rw [List.map_append, map_violation_lasting, targetViolations_eq]
  split <;> rfl

theorem map_violation_modelFindings :
    (s.modelFindings app file model).map Finding.violation = s.modelViolations app file model := by
  rw [Scope.modelFindings, List.map_append, List.map_append, map_violation_lasting,
    map_violation_relationFindings, map_violation_lasting, Scope.modelViolations]
  simp only [List.append_assoc]

theorem map_violation_strayFiles :
    ((s.strayFiles app).map Finding.stray).map Finding.violation =
      strayFileViolations s.known app := by
  have hfiles : s.strayFiles app =
      app.files.filter fun file => !s.known.any (·.filename == file.filename) := by
    refine List.filter_congr fun file _ => ?_
    rw [Bool.eq_iff_iff]
    simp
  rw [List.map_map, hfiles, strayFileViolations]
  rfl

/-- Without what they are about, the findings are the violations. -/
theorem map_violation_findings (s : Scope) (app : Application) :
    (s.findings app).map Finding.violation = s.violations app := by
  have hmodels : ∀ d : SchemaFile × Model, (s.modelFindings app d.1 d.2).map Finding.violation =
      s.modelViolations app d.1 d.2 := fun d => map_violation_modelFindings
  simp only [Scope.findings, List.map_append, List.map_flatMap, map_violation_lasting,
    map_violation_strayFiles, hmodels, Scope.violations]

/-! ### What the findings are about -/

theorem filterMap_lasting {β : Type} {read : Finding → Option β} (h : ∀ v, read (.lasting v) = none)
    (vs : List Violation) : (vs.map Finding.lasting).filterMap read = [] := by
  rw [List.filterMap_eq_nil_iff]
  intro finding hfinding
  obtain ⟨v, -, rfl⟩ := List.mem_map.mp hfinding
  exact h v

/-- The relations that are found to dangle, in their order. -/
theorem filterMap_relation?_findings (s : Scope) (app : Application) :
    (s.findings app).filterMap Finding.relation? = app.foreigns.filter (s.Dangles app) := by
  have hlasting := @filterMap_lasting _ Finding.relation? fun _ => rfl
  have hstray : ((s.strayFiles app).map Finding.stray).filterMap Finding.relation? = [] := by
    rw [List.filterMap_map]
    exact List.filterMap_eq_nil_iff.mpr fun _ _ => rfl
  have hheld : ∀ d : SchemaFile × Model,
      (s.modelFindings app d.1 d.2).filterMap Finding.relation? =
        (d.2.foreign.map (Foreign.mk d.1 d.2 ·)).filter (s.Dangles app) := by
    intro d
    have hone : ∀ f : Foreign,
        (if s.Dangles app f then [Finding.dangling f] else []).filterMap Finding.relation? =
          if s.Dangles app f then [f] else [] := by
      intro f
      split <;> rfl
    rw [Scope.modelFindings, List.filterMap_append, List.filterMap_append, hlasting, hlasting,
      List.nil_append, List.append_nil, Scope.relationFindings, List.filterMap_flatMap]
    simp only [List.filterMap_append, hlasting, hone, List.nil_append]
    rw [flatMap_withEarlier_snd fun field =>
      if s.Dangles app ⟨d.1, d.2, field⟩ then [Foreign.mk d.1 d.2 field] else []]
    rw [flatMap_ite_eq_map_filter, List.filter_map]
    rfl
  rw [Scope.findings, Application.foreigns, List.filter_flatMap]
  simp only [List.filterMap_append, List.filterMap_flatMap, hlasting, hstray, hheld,
    List.nil_append, List.append_nil]

/-- The files that are found to belong to no component, in their order. -/
theorem filterMap_file?_findings (s : Scope) (app : Application) :
    (s.findings app).filterMap Finding.file? = s.strayFiles app := by
  have hlasting := @filterMap_lasting _ Finding.file? fun _ => rfl
  have hstray : ((s.strayFiles app).map Finding.stray).filterMap Finding.file? =
      s.strayFiles app := by
    rw [List.filterMap_map]
    exact List.filterMap_some
  have hheld : ∀ d : SchemaFile × Model,
      (s.modelFindings app d.1 d.2).filterMap Finding.file? = [] := by
    intro d
    have hone : ∀ f : Foreign,
        (if s.Dangles app f then [Finding.dangling f] else []).filterMap Finding.file? = [] := by
      intro f
      split <;> rfl
    rw [Scope.modelFindings, List.filterMap_append, List.filterMap_append, hlasting, hlasting,
      List.nil_append, List.append_nil, Scope.relationFindings, List.filterMap_flatMap]
    simp only [List.filterMap_append, hlasting, hone, List.append_nil]
    exact List.flatMap_eq_nil_iff.mpr fun _ _ => rfl
  have hmodels : (app.declarations.flatMap fun d => s.modelFindings app d.1 d.2).filterMap
      Finding.file? = [] := by
    rw [List.filterMap_flatMap]
    exact List.flatMap_eq_nil_iff.mpr fun d _ => hheld d
  simp only [Scope.findings, List.filterMap_append, hlasting, hstray, hmodels, List.nil_append,
    List.append_nil]

/-- The kinds of violations that a component delivered elsewhere could mend. -/
def mendableKinds : List Violation.Kind := [.danglingRelation, .unexpectedFile]

theorem not_mendable_of_mem {kind : Violation.Kind} {kinds : List Violation.Kind}
    (hkind : kind ∈ kinds) (h : ∀ k ∈ kinds, k ∉ mendableKinds) : kind ∉ mendableKinds :=
  h kind hkind

theorem kind_of_lasting_mem_modelFindings {v : Violation}
    (h : .lasting v ∈ s.modelFindings app file model) : v.kind ∉ mendableKinds := by
  simp only [Scope.modelFindings, Scope.relationFindings, indexViolations, List.mem_append,
    List.mem_map, List.mem_flatMap, Finding.lasting.injEq, exists_eq_right] at h
  rcases h with ((h | h) | ⟨⟨earlier, field⟩, -, (h | h) | h⟩) | h | h | h
  · exact not_mendable_of_mem (List.mem_singleton.mpr (kind_of_mem_identifierViolations h))
      (by decide)
  · exact not_mendable_of_mem (kind_of_mem_columnViolations h) (by decide)
  · exact not_mendable_of_mem (List.mem_singleton.mpr (kind_of_mem_labelShapeViolations h))
      (by decide)
  · exact not_mendable_of_mem (List.mem_singleton.mpr (kind_of_mem_relationNameViolations h))
      (by decide)
  · split at h <;> simp at h
  · exact not_mendable_of_mem (List.mem_singleton.mpr (kind_of_mem_backRelationViolations h))
      (by decide)
  · exact not_mendable_of_mem (kind_of_mem_columnIndexViolations h) (by decide)
  · exact not_mendable_of_mem (kind_of_mem_textIndexViolations h) (by decide)

/-- What no component could mend is of another kind. -/
theorem kind_of_lasting_mem_findings {v : Violation} (h : .lasting v ∈ s.findings app) :
    v.kind ∉ mendableKinds := by
  simp only [Scope.findings, List.mem_append, List.mem_map, List.mem_flatMap,
    Finding.lasting.injEq, exists_eq_right, reduceCtorEq, and_false, exists_false, or_false] at h
  rcases h with (((h | ⟨c, -, h⟩) | h) | ⟨d, -, h⟩) | h
  · exact not_mendable_of_mem (List.mem_pair.mpr (kind_of_mem_fileViolations h)) (by decide)
  · exact not_mendable_of_mem (kind_of_mem_componentViolations h) (by decide)
  · exact not_mendable_of_mem (List.mem_singleton.mpr (kind_of_mem_modelNameViolations h))
      (by decide)
  · exact kind_of_lasting_mem_modelFindings h
  · exact not_mendable_of_mem (List.mem_singleton.mpr (kind_of_mem_ambiguityViolations h))
      (by decide)

end

/-! ### More components -/

section

variable {components others more : List Component} {app : Application}

theorem filter_lasting (vs : List Violation) :
    ((vs.map Finding.lasting).filter fun finding => ¬ finding.MendedBy more) =
      vs.map Finding.lasting := by
  rw [List.filter_eq_self]
  intro finding hfinding
  obtain ⟨v, -, rfl⟩ := List.mem_map.mp hfinding
  rfl

theorem dangles_append_iff {f : Foreign} :
    Scope.Dangles ⟨components, others ++ more⟩ app f ↔
      Scope.Dangles ⟨components, others⟩ app f ∧ ¬ (Finding.dangling f).MendedBy more := by
  simp only [Scope.Dangles, Finding.MendedBy, List.forall_mem_append, not_exists, not_and]
  exact and_assoc.symm

theorem strayFiles_append :
    (Scope.strayFiles ⟨components, others ++ more⟩ app).map Finding.stray =
      ((Scope.strayFiles ⟨components, others⟩ app).map Finding.stray).filter fun finding =>
        ¬ finding.MendedBy more := by
  rw [List.filter_map, Scope.strayFiles, Scope.strayFiles, List.filter_filter]
  congr 1
  refine List.filter_congr fun file _ => ?_
  rw [Bool.eq_iff_iff]
  simp only [Scope.known, Finding.MendedBy, List.forall_mem_append, Function.comp_apply,
    decide_eq_true_eq, Bool.and_eq_true, not_exists, not_and]
  tauto

theorem modelFindings_append (file : SchemaFile) (model : Model) :
    Scope.modelFindings ⟨components, others ++ more⟩ app file model =
      (Scope.modelFindings ⟨components, others⟩ app file model).filter fun finding =>
        ¬ finding.MendedBy more := by
  have hone : ∀ f : Foreign,
      (if Scope.Dangles ⟨components, others ++ more⟩ app f then [Finding.dangling f] else []) =
        (if Scope.Dangles ⟨components, others⟩ app f then [Finding.dangling f] else []).filter
          fun finding => ¬ finding.MendedBy more := by
    intro f
    by_cases hdangles : Scope.Dangles ⟨components, others⟩ app f <;>
      by_cases hmended : (Finding.dangling f).MendedBy more <;>
        simp [dangles_append_iff, hdangles, hmended]
  simp only [Scope.modelFindings, Scope.relationFindings, List.filter_append, List.filter_flatMap,
    filter_lasting, hone]

/-- The owner of a model plays no part in whether and where the model is reported. -/
theorem map_place_componentViolations (known known' : List Component) (c : Component) :
    (componentViolations known app c).map Violation.place =
      (componentViolations known' app c).map Violation.place := by
  unfold componentViolations
  cases app.file? c.filename with
  | none => rfl
  | some file =>
    have hplaces : (unexpectedModelViolations known c file).map Violation.place =
        (unexpectedModelViolations known' c file).map Violation.place := by
      simp only [unexpectedModelViolations, List.map_map]
      rfl
    simp only [List.map_append, hplaces]

/-- With more components the findings that they mend are gone, but for what is said of owners. -/
theorem map_place_findings_append :
    (Scope.findings ⟨components, others ++ more⟩ app).map (·.violation.place) =
      ((Scope.findings ⟨components, others⟩ app).filter fun finding =>
        ¬ finding.MendedBy more).map (·.violation.place) := by
  have hlasting : ∀ vs : List Violation,
      (vs.map Finding.lasting).map (·.violation.place) = vs.map Violation.place := by
    intro vs
    rw [List.map_map]
    rfl
  have howners : (components.flatMap fun c =>
      (componentViolations (Scope.known ⟨components, others ++ more⟩) app c).map Violation.place) =
      components.flatMap fun c =>
        (componentViolations (Scope.known ⟨components, others⟩) app c).map Violation.place :=
    List.flatMap_congr fun c _ => map_place_componentViolations _ _ c
  simp only [Scope.findings, List.filter_append, List.filter_flatMap, filter_lasting,
    strayFiles_append, modelFindings_append, List.map_append, List.map_flatMap, hlasting, howners]

end

/-- The violations that are reported with more components delivered elsewhere are, by kind and path,
those that were reported without them, in their order, but for two sorts that are gone: dangling
relations whose target is a table of the components that came, and unexpected files that belong to
one of these. -/
theorem violations_of_more_others (components others more : List Component) (app : Application) :
    let findings := Scope.findings ⟨components, others⟩ app
    (findings.map (·.violation) = Scope.violations ⟨components, others⟩ app ∧
      findings.filterMap Finding.relation? =
        app.foreigns.filter (Scope.Dangles ⟨components, others⟩ app) ∧
      findings.filterMap Finding.file? =
        (app.files.filter fun file => ∀ c ∈ components ++ others, c.filename ≠ file.filename) ∧
      ∀ v, .lasting v ∈ findings → v.kind ≠ .danglingRelation ∧ v.kind ≠ .unexpectedFile) ∧
    (Scope.violations ⟨components, others ++ more⟩ app).map (fun v => (v.kind, v.path)) =
      (findings.filter fun finding => ¬ finding.MendedBy more).map fun finding =>
        (finding.violation.kind, finding.violation.path) := by
  intro findings
  refine ⟨⟨map_violation_findings _ app, filterMap_relation?_findings _ app,
    filterMap_file?_findings _ app, fun v hv => ?_⟩, ?_⟩
  · have hkind := kind_of_lasting_mem_findings hv
    simpa [mendableKinds] using hkind
  · rw [← map_violation_findings, List.map_map]
    exact map_place_findings_append

/-- Once the teams are known, their file is expected and the users' relation has its target. What is
missing for the notes and for the ghost stays where it was reported. -/
theorem violations_of_more_others_arriving :
    let app : Application := ⟨[pointingFile userComponent "user" "team" none,
      pointingFile teamComponent "member" "ghost" none,
      { filename := "schema-03-notes.prisma", domain := "Notes", models := [.minimal "note"] }]⟩
    let kindAndFile (v : Violation) := (v.kind, v.path.file)
    (Scope.violations ⟨[userComponent], []⟩ app).map kindAndFile =
      [(.unexpectedFile, some "schema-02-teams.prisma"),
        (.unexpectedFile, some "schema-03-notes.prisma"),
        (.danglingRelation, some "schema-01-users.prisma"),
        (.danglingRelation, some "schema-02-teams.prisma")] ∧
    (Scope.violations ⟨[userComponent], [teamComponent]⟩ app).map kindAndFile =
      [(.unexpectedFile, some "schema-03-notes.prisma"),
        (.danglingRelation, some "schema-02-teams.prisma")] := by
  intro app kindAndFile
  have hmore : (Scope.violations ⟨[userComponent], [teamComponent]⟩ app).map
      (fun v => (v.kind, v.path)) = _ :=
    (violations_of_more_others [userComponent] [] [teamComponent] app).2
  refine ⟨by decide +kernel, ?_⟩
  calc (Scope.violations ⟨[userComponent], [teamComponent]⟩ app).map kindAndFile
      = ((Scope.violations ⟨[userComponent], [teamComponent]⟩ app).map
          fun v => (v.kind, v.path)).map fun place => (place.1, place.2.file) := by
        rw [List.map_map]
        rfl
    _ = _ := by
        rw [hmore]
        decide +kernel

end SchemaGate
