import SchemaGate.Proofs.Schema.Rearranged
import SchemaGate.Proofs.Validation.Acceptance
import SchemaGate.Proofs.Validation.Findings
import SchemaGate.Proofs.Validation.Isolation

/-!
# Validation in another order

What is blamed depends on the order of declaration: of two models with one name the later is
reported, of two properties the one that is walked to last, and of a name with several owners the
first. How much is reported does not. Where filenames are distinct, files, models and components in
any other order make a report with as many violations of each kind (`violations_rearranged`), so
that files can be assembled in any order.

The checks are compared one by one by the kinds that they report (`SameKinds`). Those that look at
what was declared earlier report one violation for each name too many, however the names stand.
-/

namespace SchemaGate

open Validation

/-- The same components in any order. -/
structure Scope.Rearranges (s s' : Scope) : Prop where
  components : s.components.Perm s'.components
  others : s.others.Perm s'.others

theorem Scope.Rearranges.known {s s' : Scope} (h : s.Rearranges s') : s.known.Perm s'.known :=
  h.components.append h.others

namespace Validation

/-- There are as many violations of each kind. -/
def SameKinds (vs ws : List Violation) : Prop := (vs.map (·.kind)).Perm (ws.map (·.kind))

namespace SameKinds

variable {vs vs' ws ws' : List Violation}

theorem append (h : SameKinds vs ws) (h' : SameKinds vs' ws') :
    SameKinds (vs ++ vs') (ws ++ ws') := by
  rw [SameKinds, List.map_append, List.map_append]
  exact List.Perm.append h h'

theorem flatMap {α : Type} {l k : List α} {f g : α → List Violation} (h : l.Perm k)
    (hfg : ∀ a, SameKinds (f a) (g a)) : SameKinds (l.flatMap f) (k.flatMap g) := by
  rw [SameKinds, List.map_flatMap, List.map_flatMap]
  exact h.flatMap fun a _ => hfg a

/-- Checks of one kind are compared by how much they report. -/
theorem of_length {kind : Violation.Kind} (hvs : ∀ v ∈ vs, v.kind = kind)
    (hws : ∀ w ∈ ws, w.kind = kind) (h : vs.length = ws.length) : SameKinds vs ws := by
  rw [SameKinds, List.map_eq_replicate_iff.mpr hvs, List.map_eq_replicate_iff.mpr hws, h]

theorem countP_kind (h : SameKinds vs ws) (kind : Violation.Kind) :
    vs.countP (·.kind = kind) = ws.countP (·.kind = kind) := by
  have hcount : ∀ us : List Violation,
      us.countP (·.kind = kind) = (us.map (·.kind)).countP (· = kind) := by
    intro us
    rw [List.countP_map]
    rfl
  rw [hcount, hcount]
  exact h.countP_eq _

theorem eq_nil_iff (h : SameKinds vs ws) : vs = [] ↔ ws = [] := by
  have hlength : vs.length = ws.length := by simpa using h.length_eq
  rw [← List.length_eq_zero_iff, hlength, List.length_eq_zero_iff]

end SameKinds

/-- A check that finds at most one fault of an element, by what was declared earlier, finds as many
as there are elements with it. -/
theorem length_flatMap_withEarlier {α : Type} {l : List α} {f : List α × α → List Violation}
    {q : List α × α → Prop} [DecidablePred q]
    (h : ∀ earlier a, (f (earlier, a)).length = if q (earlier, a) then 1 else 0) :
    ((withEarlier l).flatMap f).length = (withEarlier l).countP fun p => q p := by
  have hall : ∀ vs : List Violation, vs.countP (fun _ => true) = vs.length := by
    intro vs
    simp
  rw [← hall]
  refine countP_flatMap_of_forall fun p _ => ?_
  rw [hall, h]
  simp

end Validation

/-! ### The checks on one model -/

section

variable (file file' : SchemaFile) (model : Model)

theorem sameKinds_identifierViolations :
    SameKinds (identifierViolations file model) (identifierViolations file' model) := by
  unfold identifierViolations
  split <;> exact .refl _

theorem sameKinds_columnViolations :
    SameKinds (columnViolations file model) (columnViolations file' model) := by
  refine .flatMap (.refl _) fun ⟨earlier, name⟩ => ?_
  refine .append ?_ ?_ <;> split <;> exact .refl _

theorem sameKinds_relationViolations {targets targets' : List String}
    (h : ∀ name, name ∈ targets ↔ name ∈ targets') :
    SameKinds (relationViolations targets file model)
      (relationViolations targets' file' model) := by
  refine .flatMap (.refl _) fun ⟨earlier, field⟩ => ?_
  refine .append (.append ?_ ?_) ?_
  · rw [SameKinds, labelShapeViolations, labelShapeViolations, List.map_map, List.map_map]
    exact .refl _
  · unfold relationNameViolations
    dsimp only
    split <;> exact .refl _
  · by_cases htarget : field.relation.target ∈ targets
    · have hnone := targetViolations_eq_nil_iff (f := ⟨file, model, field⟩).mpr htarget
      have hnone' := targetViolations_eq_nil_iff (f := ⟨file', model, field⟩).mpr ((h _).mp htarget)
      rw [hnone, hnone']
      exact .refl _
    · have htarget' : field.relation.target ∉ targets' := fun hmem => htarget ((h _).mpr hmem)
      unfold targetViolations
      rw [if_neg (by simpa [Foreign.target] using htarget),
        if_neg (by simpa [Foreign.target] using htarget')]
      exact .refl _

theorem sameKinds_indexViolations :
    SameKinds (indexViolations file model) (indexViolations file' model) := by
  refine .append ?_ ?_
  · refine .flatMap (.refl _) fun ⟨earlier, index⟩ => ?_
    dsimp only
    split
    · exact .refl _
    · refine .append (.flatMap (.refl _) fun ⟨before, name⟩ => ?_) ?_
      · dsimp only
        repeat' split
        all_goals exact .refl _
      · unfold coverViolations
        split <;> exact .refl _
  · refine .flatMap (.refl _) fun ⟨earlier, label, name⟩ => .append ?_ ?_
    · unfold textColumnViolations
      dsimp only
      repeat' split
      all_goals exact .refl _
    · unfold textCoverViolations
      split <;> exact .refl _

end

/-! ### The checks on names and relations of the whole -/

section

variable {app app' : Application} (h : app.Rearranges app')

include h

theorem sameKinds_modelNameViolations :
    SameKinds (modelNameViolations app) (modelNameViolations app') := by
  have hlength : ∀ app : Application, (modelNameViolations app).length =
      (withEarlier app.declarations).countP fun p =>
        p.2.2.name ∈ p.1.map fun d : SchemaFile × Model => d.2.name := by
    intro app
    refine length_flatMap_withEarlier fun earlier d => ?_
    obtain ⟨file, model⟩ := d
    dsimp only
    cases hfirst : earlier.find? (·.2.name == model.name) with
    | none =>
      have hnew := find?_eq_none_iff_not_mem_map.mp hfirst
      rw [if_neg hnew, List.length_nil]
    | some first =>
      have hold := mem_map_of_find?_eq_some hfirst
      rw [if_pos hold, List.length_singleton]
  refine .of_length (fun _ => kind_of_mem_modelNameViolations)
    (fun _ => kind_of_mem_modelNameViolations) ?_
  have hnames : (app.declarations.map fun d => d.2.name).Perm
      (app'.declarations.map fun d => d.2.name) := by
    rw [Application.map_name_declarations, Application.map_name_declarations]
    exact h.modelNames
  rw [hlength, hlength]
  exact countP_withEarlier_eq_of_perm hnames []

theorem sameKinds_backRelationViolations (model : Model) :
    SameKinds (backRelationViolations app model) (backRelationViolations app' model) := by
  have hlength : ∀ app : Application, (backRelationViolations app model).length =
      (withEarlier (app.foreignsTo model.name)).countP fun p =>
        p.2.oppositeProperty ∈ ownProperties model ++ p.1.map (·.oppositeProperty) := by
    intro app
    refine length_flatMap_withEarlier fun earlier f => ?_
    simp only [List.contains_iff_mem]
    split <;> rfl
  refine .of_length (fun _ => kind_of_mem_backRelationViolations)
    (fun _ => kind_of_mem_backRelationViolations) ?_
  rw [hlength, hlength]
  exact countP_withEarlier_eq_of_perm (h.oppositeProperties model.name) _

end

/-! ### The check on labels -/

/-- The two models that a relation links, with its label. -/
def Foreign.mark (f : Foreign) : Sym2 String × Option String := (f.ends, f.label)

/-- Among relations with these marks, one with this mark has to be told apart and is not. -/
def Indistinct (marks : List (Sym2 String × Option String)) (mark : Sym2 String × Option String) :
    Prop :=
  (1 < marks.countP (·.1 = mark.1) ∨ mark.1.IsDiag) ∧ (mark.2 = none ∨ 1 < marks.count mark)

instance (marks : List (Sym2 String × Option String)) : DecidablePred (Indistinct marks) :=
  fun _ => inferInstanceAs (Decidable (_ ∧ _))

theorem indistinct_iff (app : Application) (f : Foreign) :
    Indistinct (app.foreigns.map Foreign.mark) f.mark ↔ needsLabel app f ∧ lacksOwnLabel app f := by
  have hends : (app.foreigns.map Foreign.mark).countP (·.1 = f.ends) =
      (app.linking f.ends).length := by
    rw [List.countP_map, Application.linking, ← List.countP_eq_length_filter]
    rfl
  have hlabel : (app.foreigns.map Foreign.mark).count f.mark =
      ((app.linking f.ends).map (·.label)).count f.label := by
    rw [List.count, List.count, List.countP_map, List.countP_map, Application.linking,
      List.countP_filter]
    refine List.countP_congr fun g _ => ?_
    simp [Foreign.mark, and_comm]
  have hlacks : lacksOwnLabel app f ↔ f.label = none ∨
      1 < ((app.linking f.ends).map (·.label)).count f.label := by
    rw [← not_iff_not, not_lacksOwnLabel_iff, not_or, Nat.not_lt]
  rw [Indistinct, hlabel, needsLabel_iff, hlacks]
  exact and_congr_left' (or_congr_left (by rw [← hends]; rfl))

theorem length_ambiguityViolations (app : Application) :
    (ambiguityViolations app).length = (app.foreigns.map Foreign.mark).countP fun mark =>
      Indistinct (app.foreigns.map Foreign.mark) mark := by
  rw [ambiguityViolations, List.length_map, ← List.countP_eq_length_filter, List.countP_map]
  refine List.countP_congr fun f _ => ?_
  simp [indistinct_iff]

section

variable {app app' : Application} (h : app.Rearranges app')

include h

theorem sameKinds_ambiguityViolations :
    SameKinds (ambiguityViolations app) (ambiguityViolations app') := by
  have hmarks : (app.foreigns.map Foreign.mark).Perm (app'.foreigns.map Foreign.mark) :=
    h.map_foreigns fun _ _ _ _ => rfl
  have hsame : ∀ mark, Indistinct (app.foreigns.map Foreign.mark) mark ↔
      Indistinct (app'.foreigns.map Foreign.mark) mark := by
    intro mark
    rw [Indistinct, Indistinct, hmarks.countP_eq, hmarks.count_eq]
  refine .of_length (fun _ => kind_of_mem_ambiguityViolations)
    (fun _ => kind_of_mem_ambiguityViolations) ?_
  rw [length_ambiguityViolations, length_ambiguityViolations, hmarks.countP_eq]
  refine List.countP_congr fun mark _ => ?_
  simp [hsame]

/-! ### The checks on files and components -/

variable (hnodup : (app.files.map (·.filename)).Nodup)

omit h in
include hnodup in
/-- Where filenames are distinct, empty files are all that is found of the files. -/
theorem map_kind_fileViolations : (fileViolations app).map (·.kind) =
    app.files.flatMap fun file => if file.models.isEmpty then [.emptyFile] else [] := by
  rw [← flatMap_withEarlier_snd, fileViolations, List.map_flatMap]
  refine List.flatMap_congr ?_
  rintro ⟨earlier, file⟩ hmem
  have hnew : file.filename ∉ earlier.map (·.filename) :=
    (nodup_map_iff_withEarlier _ _).mp hnodup _ hmem
  have hnone : ¬ earlier.any (·.filename == file.filename) := by simpa using hnew
  dsimp only
  rw [if_neg hnone, List.nil_append]
  split <;> rfl

include hnodup in
theorem sameKinds_fileViolations : SameKinds (fileViolations app) (fileViolations app') := by
  rw [SameKinds, map_kind_fileViolations hnodup,
    map_kind_fileViolations (h.filenames.nodup_iff.mp hnodup)]
  refine h.flatMap_files fun file file' hfile => ?_
  rw [hfile.models.isEmpty_eq]

include hnodup in
theorem sameKinds_componentViolations (known known' : List Component) (c : Component) :
    SameKinds (componentViolations known app c) (componentViolations known' app' c) := by
  have hfound := h.file? hnodup c.filename
  unfold componentViolations
  generalize app.file? c.filename = found at hfound ⊢
  generalize app'.file? c.filename = found' at hfound ⊢
  cases hfound with
  | none => exact .refl _
  | some hfile =>
    refine .append (.append ?_ ?_) ?_
    · unfold labelViolations
      rw [hfile.domain]
      split <;> exact .refl _
    · refine .of_length (fun _ => kind_of_mem_missingModelViolations)
        (fun _ => kind_of_mem_missingModelViolations) ?_
      rw [missingModelViolations, missingModelViolations, List.length_map, List.length_map]
      congr 1
      refine List.filter_congr fun table _ => ?_
      have hmem := hfile.mem_modelNames table
      simp [hmem]
    · refine .of_length (fun _ => kind_of_mem_unexpectedModelViolations)
        (fun _ => kind_of_mem_unexpectedModelViolations) ?_
      rw [unexpectedModelViolations, unexpectedModelViolations, List.length_map, List.length_map]
      exact (hfile.models.filter _).length_eq

theorem sameKinds_strayFileViolations {known known' : List Component}
    (hknown : known.Perm known') :
    SameKinds (strayFileViolations known app) (strayFileViolations known' app') := by
  have hkinds : ∀ (known : List Component) (app : Application),
      (strayFileViolations known app).map (·.kind) = app.files.flatMap fun file =>
        if file.filename ∉ known.map (·.filename) then [.unexpectedFile] else [] := by
    intro known app
    rw [flatMap_ite_eq_map_filter, strayFileViolations, List.map_map]
    refine congrArg _ (List.filter_congr fun file _ => ?_)
    rw [Bool.eq_iff_iff]
    simp
  rw [SameKinds, hkinds, hkinds]
  refine h.flatMap_files fun file file' hfile => ?_
  have hplanned : file.filename ∈ known.map (·.filename) ↔
      file'.filename ∈ known'.map (·.filename) := by
    rw [hfile.filename]
    exact (hknown.map _).mem_iff
  simp only [hplanned]
  exact .refl _

end

/-! ### The whole report -/

section

variable {s s' : Scope} {app app' : Application} (hs : s.Rearranges s') (h : app.Rearranges app')

include hs h

theorem mem_targets_rearranged (name : String) : name ∈ s.targets app ↔ name ∈ s'.targets app' :=
  (h.modelNames.append (hs.others.flatMap_right _)).mem_iff

theorem sameKinds_modelViolations (file file' : SchemaFile) (model : Model) :
    SameKinds (s.modelViolations app file model) (s'.modelViolations app' file' model) := by
  refine .append (.append (.append (.append ?_ ?_) ?_) ?_) ?_
  · exact sameKinds_identifierViolations file file' model
  · exact sameKinds_columnViolations file file' model
  · exact sameKinds_relationViolations file file' model (mem_targets_rearranged hs h)
  · exact sameKinds_backRelationViolations h model
  · exact sameKinds_indexViolations file file' model

theorem sameKinds_violations (hnodup : (app.files.map (·.filename)).Nodup) :
    SameKinds (s.violations app) (s'.violations app') := by
  have hmodels : SameKinds
      (app.declarations.flatMap fun d => s.modelViolations app d.1 d.2)
      (app'.declarations.flatMap fun d => s'.modelViolations app' d.1 d.2) := by
    rw [SameKinds, List.map_flatMap, List.map_flatMap]
    exact h.flatMap_declarations (sameKinds_modelViolations hs h)
  refine .append (.append (.append (.append (.append ?_ ?_) ?_) ?_) hmodels) ?_
  · exact sameKinds_fileViolations h hnodup
  · exact .flatMap hs.components fun c => sameKinds_componentViolations h hnodup _ _ c
  · exact sameKinds_strayFileViolations h hs.known
  · exact sameKinds_modelNameViolations h
  · exact sameKinds_ambiguityViolations h

end

/-- In any other order of the files, of the models in each, and of the components, where filenames
are distinct, there are as many violations of each kind, and so the application is accepted in any
order or in none. -/
theorem violations_rearranged {s s' : Scope} {app app' : Application} (hs : s.Rearranges s')
    (happ : app.Rearranges app') (hnodup : (app.files.map (·.filename)).Nodup) :
    (∀ kind, (s.violations app).countP (·.kind = kind) =
      (s'.violations app').countP (·.kind = kind)) ∧
    ((s.validate app).isOk ↔ (s'.validate app').isOk) := by
  have hkinds := sameKinds_violations hs happ hnodup
  refine ⟨hkinds.countP_kind, ?_⟩
  rw [Scope.validate_isOk_iff, Scope.validate_isOk_iff]
  exact hkinds.eq_nil_iff

/-- Two files define one model. The file that comes second is blamed, and as much is reported. -/
theorem violations_rearranged_swapped :
    let users : SchemaFile := pointingFile userComponent "user" "team" none
    let teams : SchemaFile := .ofComponent teamComponent [.minimal "team", .minimal "user"]
    let teams' : SchemaFile := .ofComponent teamComponent [.minimal "user", .minimal "team"]
    let s : Scope := ⟨[userComponent, teamComponent], []⟩
    let s' : Scope := ⟨[teamComponent, userComponent], []⟩
    let blamed (vs : List Violation) := (ofKind .duplicateModel vs).map (·.path.file)
    s.Rearranges s' ∧ Application.Rearranges ⟨[users, teams]⟩ ⟨[teams', users]⟩ ∧
      ([users, teams].map (·.filename)).Nodup ∧
      blamed (s.violations ⟨[users, teams]⟩) = [some "schema-02-teams.prisma"] ∧
      blamed (s'.violations ⟨[teams', users]⟩) = [some "schema-01-users.prisma"] ∧
      (∀ kind, (s.violations ⟨[users, teams]⟩).countP (·.kind = kind) =
        (s'.violations ⟨[teams', users]⟩).countP (·.kind = kind)) ∧
      ((s.validate ⟨[users, teams]⟩).isOk ↔ (s'.validate ⟨[teams', users]⟩).isOk) := by
  intro users teams teams' s s' blamed
  have hs : s.Rearranges s' := ⟨.swap _ _ _, .nil⟩
  have hteams : teams.Rearranges teams' := ⟨rfl, rfl, .swap _ _ _⟩
  have hfiles : List.Forall₂ SchemaFile.Rearranges [teams, users] [teams', users] :=
    .cons hteams (.cons ⟨rfl, rfl, .refl _⟩ .nil)
  have happ : Application.Rearranges ⟨[users, teams]⟩ ⟨[teams', users]⟩ :=
    ⟨[teams, users], .swap _ _ _, hfiles⟩
  have hnodup : ([users, teams].map (·.filename)).Nodup := by decide
  exact ⟨hs, happ, hnodup, by decide +kernel, by decide +kernel,
    violations_rearranged hs happ hnodup⟩

end SchemaGate
