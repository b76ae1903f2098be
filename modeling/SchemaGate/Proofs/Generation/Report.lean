import SchemaGate.Proofs.Generation.Attempts
import SchemaGate.Proofs.Validation.Acceptance
import SchemaGate.Workflow

/-!
# What a report says

A report is in one of three states: some component has no file; all have one and the whole is
accepted; or all have one, the whole is rejected, and the components that its violations name have
used all their attempts. In each state a file is what its component asks for and is accepted by
itself (`report_of_generateAll`), and what is written or reported follows the state.
-/

namespace SchemaGate

variable {components : List Component}

/-- A file of a component carries its filename and domain label and is accepted by itself. -/
structure FitsPlan (components : List Component) (c : Component) (file : SchemaFile) : Prop where
  filename : file.filename = c.filename
  domain : file.domain = c.domain
  isolated : (Scope.validate ⟨[c], othersOf c components⟩ ⟨[file]⟩).isOk

namespace GenerationReport

/-- Some component has no file, and nothing is said of a whole. -/
structure Incomplete (report : GenerationReport components) : Prop where
  failed : ∃ o ∈ report.outcomes, ∃ e, o.2 = .error e
  application : report.application? = none
  violations : report.violations? = none
  output : ∀ options, report.output? options = none

/-- The files of all components, in their order, are an accepted whole. -/
structure Complete (report : GenerationReport components) (whole : Accepted ⟨components, []⟩) :
    Prop where
  files : report.outcomes.map (·.2) = whole.application.files.map .ok
  application : report.application? = some whole
  violations : report.violations? = none
  output : ∀ options, report.output? options = some (whole.render options)

/-- The files of all components, in their order, are rejected together, and the requests for every
component that is named have reached the last attempt. -/
structure Refused (policy : RetryPolicy) (asked : List Asked) (report : GenerationReport components)
    (violations : List Violation) : Prop where
  files : ∃ files, report.outcomes.map (·.2) = files.map .ok ∧
    Scope.validate ⟨components, []⟩ ⟨files⟩ = .error violations
  ne_nil : violations ≠ []
  exhausted : ∀ position c, components[position]? = some c →
    (∃ v ∈ violations, v.path.file = some c.filename) →
      (requestsAt position asked).map (·.request.attempt) = List.range' 1 policy.maxAttempts
  application : report.application? = none
  violations : report.violations? = some violations
  output : ∀ options, report.output? options = none

/-- What a report and the requests behind it say in each state. -/
def Says (policy : RetryPolicy) (asked : List Asked) (report : GenerationReport components) :
    Assembly ⟨components, []⟩ → Prop
  | .incomplete => report.Incomplete
  | .accepted whole => report.Complete whole
  | .rejected violations => report.Refused policy asked violations

/-- What is written for a report, or said instead, follows its state: files come from an accepted
whole only, violations from a rejected one, and a failure from components that have no file. -/
def Follows (policy : RetryPolicy) (asked : List Asked) (report : GenerationReport components)
    (s : Settings) : Except CommandError TextFiles → Prop
  | .ok files => ∃ whole, report.Says policy asked (.accepted whole) ∧ files = s.outputs whole
  | .error (.validation violations) => report.Says policy asked (.rejected violations)
  | .error (.generation failed _) => report.Says policy asked .incomplete ∧ failed ≠ []
  | .error _ => False

/-- The whole and the violations of a report tell its state. -/
theorem Says.parts {policy : RetryPolicy} {asked : List Asked}
    {report : GenerationReport components} {state : Assembly ⟨components, []⟩}
    (h : report.Says policy asked state) :
    (report.application?, report.violations?) = match state with
      | .incomplete => (none, none)
      | .accepted whole => (some whole, none)
      | .rejected violations => (none, some violations) := by
  cases state with
  | incomplete => rw [Incomplete.application h, Incomplete.violations h]
  | accepted whole => rw [Complete.application h, Complete.violations h]
  | rejected violations => rw [Refused.application h, Refused.violations h]

theorem Says.unique {policy : RetryPolicy} {asked : List Asked}
    {report : GenerationReport components} {state other : Assembly ⟨components, []⟩}
    (h : report.Says policy asked state) (h' : report.Says policy asked other) : state = other := by
  have hparts := h.parts.symm.trans h'.parts
  cases state <;> cases other <;> simp_all

end GenerationReport

/-! ### Files of ended tasks -/

theorem assembled?_cons (t : Task) (tasks : List Task) :
    assembled? (t :: tasks) = match t.outcome with
      | .ok d => (assembled? tasks).map (d.file :: ·)
      | .error _ => none := by
  rw [assembled?, List.mapM_cons]
  cases t.outcome with
  | error e => rfl
  | ok d =>
    change Option.bind (assembled? tasks) _ = _
    cases assembled? tasks <;> rfl

/-- Where files are put together, each task has delivered its own. -/
theorem exists_deliveries_of_assembled? {tasks : List Task} {files : List SchemaFile}
    (h : assembled? tasks = some files) :
    ∃ deliveries : List Delivery, tasks.map (·.outcome) = deliveries.map .ok ∧
      deliveries.map (·.file) = files := by
  induction tasks generalizing files with
  | nil =>
    obtain rfl : [] = files := Option.some.inj h
    exact ⟨[], rfl, rfl⟩
  | cons t tasks ih =>
    rw [assembled?_cons] at h
    cases houtcome : t.outcome with
    | error e => simp [houtcome] at h
    | ok d =>
      rw [houtcome] at h
      obtain ⟨rest, hrest, rfl⟩ := Option.map_eq_some_iff.mp h
      obtain ⟨deliveries, houtcomes, rfl⟩ := ih hrest
      exact ⟨d :: deliveries, by rw [List.map_cons, houtcome, houtcomes, List.map_cons], rfl⟩

theorem outcomes_of_assembled? {tasks : List Task} {files : List SchemaFile}
    (h : assembled? tasks = some files) :
    tasks.map (fun t => t.outcome.map (·.file)) = files.map .ok := by
  obtain ⟨deliveries, houtcomes, rfl⟩ := exists_deliveries_of_assembled? h
  have hfiles := congrArg (List.map (·.map (·.file))) houtcomes
  simp only [List.map_map] at hfiles ⊢
  exact hfiles

theorem exists_failed_of_assembled? {tasks : List Task} (h : assembled? tasks = none) :
    ∃ t ∈ tasks, ∃ e, t.outcome = .error e := by
  induction tasks with
  | nil => cases h
  | cons t tasks ih =>
    rw [assembled?_cons] at h
    cases houtcome : t.outcome with
    | error e => exact ⟨t, List.mem_cons_self, e, houtcome⟩
    | ok d =>
      rw [houtcome] at h
      obtain ⟨u, hu, hfailed⟩ := ih (Option.map_eq_none_iff.mp h)
      exact ⟨u, List.mem_cons_of_mem _ hu, hfailed⟩

theorem exists_delivery_of_assembled? {tasks : List Task} {files : List SchemaFile}
    (h : assembled? tasks = some files) {t : Task} (ht : t ∈ tasks) : ∃ d, t.outcome = .ok d := by
  have houtcomes := outcomes_of_assembled? h
  have hmem : t.outcome.map (·.file) ∈ files.map Except.ok := by
    rw [← houtcomes]
    exact List.mem_map_of_mem ht
  obtain ⟨file, -, hfile⟩ := List.mem_map.mp hmem
  cases houtcome : t.outcome with
  | ok d => exact ⟨d, rfl⟩
  | error e =>
    rw [houtcome] at hfile
    cases hfile

theorem file_mem_of_assembled? {tasks : List Task} {files : List SchemaFile}
    (h : assembled? tasks = some files) {t : Task} (ht : t ∈ tasks) {d : Delivery}
    (hd : t.outcome = .ok d) : d.file ∈ files := by
  have hmem : t.outcome.map (·.file) ∈ files.map Except.ok := by
    rw [← outcomes_of_assembled? h]
    exact List.mem_map_of_mem ht
  obtain ⟨file, hfile, hok⟩ := List.mem_map.mp hmem
  rw [hd] at hok
  obtain rfl : file = d.file := Except.ok.inj hok
  exact hfile

/-! ### Every file fits the plan -/

/-- A task knows the other components, and what it delivers was accepted by itself. -/
structure Task.Delivers (components : List Component) (t : Task) : Prop where
  others : t.others = othersOf t.target components
  file : ∀ d, t.outcome = .ok d → ∃ models, d.file = .ofComponent t.target models ∧
    isolatedViolations t.target t.others models = []

theorem delivers_invariant {policy : RetryPolicy} {context : String} :
    TaskInvariant policy context components fun _ t _ => t.Delivers components where
  start := by
    intro _ target _
    exact ⟨rfl, by simp [startTask, Task.outcome]⟩
  reply := by
    intro _ t attempt feedback due response _ _ h
    refine ⟨h.others, fun d hd => ?_⟩
    obtain ⟨v, hjudged, hnext⟩ := t.exists_judged_next policy attempt feedback due response
    simp only [Task.outcome, hnext] at hd
    generalize (settle policy.timeoutMs response).2 = reply at hjudged
    cases hjudged with
    | delivered haccepted =>
      obtain rfl := Except.ok.inj hd
      exact ⟨_, rfl, haccepted⟩
    | _ => cases hd
  retry := by
    intro _ violations time t u _ hretried h
    cases hretried with
    | left => exact h
    | again _ _ _ => exact ⟨h.others, by simp [Task.outcome]⟩

theorem Task.Delivers.fitsPlan {t : Task} (h : t.Delivers components) {d : Delivery}
    (hd : t.outcome = .ok d) : FitsPlan components t.target d.file := by
  obtain ⟨models, hfile, haccepted⟩ := h.file d hd
  rw [h.others] at haccepted
  rw [hfile]
  exact ⟨rfl, rfl, Scope.validate_isOk_iff.mpr haccepted⟩

/-! ### The state of the report -/

theorem GenerationReport.Says.follows_outputOf {policy : RetryPolicy} {asked : List Asked}
    {report : GenerationReport components} (h : report.Says policy asked report.assembly)
    (s : Settings) : report.Follows policy asked s (s.outputOf report) := by
  unfold Settings.outputOf
  cases hassembly : report.assembly with
  | incomplete =>
    rw [hassembly] at h
    obtain ⟨⟨c, _⟩, ho, e, rfl⟩ := h.failed
    have hmem : e ∈ report.failures := List.mem_filterMap.mpr ⟨_, ho, rfl⟩
    exact ⟨h, List.ne_nil_of_mem (List.mem_map_of_mem hmem)⟩
  | accepted whole => exact ⟨whole, hassembly ▸ h, rfl⟩
  | rejected violations =>
    rw [hassembly] at h
    exact h

section

variable {σ : Type} {producer : Producer σ} {policy : RetryPolicy} {context : String}
  {final : Progress σ}

theorem map_snd_outcomes_reportOf (final : Progress σ) :
    (reportOf components final).outcomes.map (·.2) =
      final.tasks.map fun t => t.outcome.map (·.file) := by
  rw [reportOf, List.map_map]
  rfl

theorem fitsPlan_of_mem_outcomes
    (hdelivers : final.Each components fun _ t _ => t.Delivers components)
    {o : Component × Except GenerationError SchemaFile}
    (ho : o ∈ (reportOf components final).outcomes) {file : SchemaFile} (hfile : o.2 = .ok file) :
    FitsPlan components o.1 file := by
  obtain ⟨t, ht, rfl⟩ := List.mem_map.mp ho
  obtain ⟨position, hposition⟩ := List.getElem?_of_mem ht
  cases houtcome : t.outcome with
  | error e =>
    rw [houtcome] at hfile
    cases hfile
  | ok d =>
    rw [houtcome] at hfile
    obtain rfl := Except.ok.inj hfile
    exact (hdelivers.tasks position t hposition).fitsPlan houtcome

theorem maxAttempts_le_of_nextRound {violations : List Violation}
    (hend : nextRound producer policy context components final = none)
    (hverdict : verdict components final = .rejected violations) {t : Task} (ht : t ∈ final.tasks)
    {d : Delivery} (hdelivered : t.outcome = .ok d)
    (hnamed : ∃ v ∈ violations, v.path.file = some t.target.filename) :
    policy.maxAttempts ≤ d.attempts := by
  have hstop : ∀ t ∈ planRetries policy violations (roundEnd final.tasks) [] final.tasks,
      t.due? = none := by
    simp only [nextRound, retries?, hverdict, Option.map_eq_none_iff] at hend
    split at hend
    · cases hend
    · next hnone =>
      intro u hu
      by_contra hsome
      exact hnone ⟨u, hu, Option.isSome_iff_ne_none.mpr hsome⟩
  obtain ⟨v, hv, hfile⟩ := hnamed
  refine maxAttempts_le_of_planRetries hstop ht hdelivered ?_ (by simp)
  exact List.ne_nil_of_mem (List.mem_filter.mpr ⟨hv, by simp [hfile]⟩)

variable (hcounted : final.Each components (Task.Counted policy.maxAttempts components))

include hcounted

theorem map_fst_outcomes_reportOf :
    (reportOf components final).outcomes.map (·.1) = components := by
  have htargets : (reportOf components final).outcomes.map (·.1) = final.tasks.map (·.target) := by
    rw [reportOf, List.map_map]
    rfl
  rw [htargets, hcounted.targets]

variable (hended : ∀ t ∈ final.tasks, t.due? = none)
  (hend : nextRound producer policy context components final = none)

include hended hend

/-- The components that violations name have made requests up to the last attempt. -/
theorem exhausted_of_rejected {violations : List Violation}
    (hverdict : verdict components final = .rejected violations) {files : List SchemaFile}
    (hfiles : assembled? final.tasks = some files) {position : Nat} {c : Component}
    (hc : components[position]? = some c)
    (hnamed : ∃ v ∈ violations, v.path.file = some c.filename) :
    (requestsAt position final.asked).map (·.request.attempt) =
      List.range' 1 policy.maxAttempts := by
  have hposition : position < final.tasks.length :=
    hcounted.length ▸ (List.getElem?_eq_some_iff.mp hc).1
  have ht : final.tasks[position]? = some final.tasks[position] :=
    List.getElem?_eq_getElem hposition
  have hmem := List.mem_of_getElem? ht
  have htask := hcounted.tasks position _ ht
  obtain rfl : c = final.tasks[position].target := Option.some.inj (hc.symm.trans htask.target)
  obtain ⟨d, hdelivered⟩ := exists_delivery_of_assembled? hfiles hmem
  obtain ⟨used, -, hle, hrequests, -, hused⟩ := htask.of_ended (hended _ hmem)
  have hlast := maxAttempts_le_of_nextRound hend hverdict hmem hdelivered hnamed
  have hall : used = policy.maxAttempts := Nat.le_antisymm hle (hused d hdelivered ▸ hlast)
  rw [hrequests, hall]

theorem says_reportOf :
    (reportOf components final).Says policy final.asked (verdict components final) := by
  have hspec := verdict_spec components final
  have hresults : (reportOf components final).outcomes.map (·.2) =
      final.tasks.map fun t => t.outcome.map (·.file) := map_snd_outcomes_reportOf final
  unfold reportOf at hresults ⊢
  cases hverdict : verdict components final with
  | incomplete =>
    rw [hverdict] at hspec
    obtain ⟨t, ht, e, hfailed⟩ := exists_failed_of_assembled? hspec
    refine ⟨⟨_, List.mem_map_of_mem ht, e, ?_⟩, rfl, rfl, fun _ => rfl⟩
    rw [hfailed]
    rfl
  | accepted whole =>
    rw [hverdict] at hspec
    obtain ⟨files, hfiles, hvalidate⟩ := hspec
    refine ⟨?_, rfl, rfl, fun _ => rfl⟩
    rw [hresults, outcomes_of_assembled? hfiles, Scope.application_of_validate hvalidate]
  | rejected violations =>
    rw [hverdict] at hspec
    obtain ⟨files, hfiles, hvalidate⟩ := hspec
    refine ⟨⟨files, ?_, hvalidate⟩, (Scope.violations_of_validate hvalidate).2, ?_, rfl, rfl,
      fun _ => rfl⟩
    · rw [hresults, outcomes_of_assembled? hfiles]
    · exact fun _ _ => exhausted_of_rejected hcounted hended hend hverdict hfiles

end

/-- A report is in exactly one state, with an outcome for each component of the plan in its order
and files that fit the plan, and what is written follows from the state. -/
theorem report_of_generateAll {σ : Type} (producer : Producer σ) (policy : RetryPolicy)
    (context : String) (components : List Component) (state : σ) :
    let (report, asked) := generateAll producer policy context components state
    (∃! state, report.Says policy asked state) ∧
      report.outcomes.map (·.1) = components ∧
      (∀ o ∈ report.outcomes, ∀ file, o.2 = .ok file → FitsPlan components o.1 file) ∧
      ∀ s : Settings, report.Follows policy asked s (s.outputOf report) := by
  obtain ⟨n, final, hrounds, -, hend, hreport⟩ :=
    exists_rounds_generateAll producer policy context components state
  have hcounted : final.Each components (Task.Counted policy.maxAttempts components) :=
    counted_invariant.rounds hrounds (counted_invariant.firstRound state)
  have hdelivers : final.Each components fun _ t _ => t.Delivers components :=
    delivers_invariant.rounds hrounds (delivers_invariant.firstRound state)
  have hsays := says_reportOf hcounted (due?_of_rounds hrounds) hend
  rw [hreport]
  exact ⟨⟨_, hsays, fun other hother => hother.unique hsays⟩, map_fst_outcomes_reportOf hcounted,
    fun _ ho _ hfile => fitsPlan_of_mem_outcomes hdelivers ho hfile,
    GenerationReport.Says.follows_outputOf hsays⟩

end SchemaGate
