import SchemaGate.Proofs.Generation.Report
import SchemaGate.Proofs.Paired
import SchemaGate.Proofs.Validation.Isolation

/-!
# Generation from recorded candidates

A producer that replays gives a component the same candidate at every attempt. So whatever the
policy, a task that has ended has the file of its recorded candidate where that is accepted by
itself, and no file elsewhere (`Task.Replayed`), and further rounds change nothing about that. What
is written then is what rendering these files together writes (`replay_eq`). A file that is accepted
as part of the whole is accepted by itself, so that generating from recordings and rendering the
application put together from them by hand are the same (`replay_ok_iff_render`).
-/

namespace SchemaGate

variable {components : List Component} {recordings : Recordings}

/-! ### What is recorded -/

/-- The models recorded for a component, where its recording is a candidate. -/
def Recordings.models? (recordings : Recordings) (c : Component) : Option (List Model) :=
  (recordings.lookup c.filename).bind Candidate.parse?

/-- The file recorded for a component of a plan, where it is accepted by itself. -/
def Recordings.file? (recordings : Recordings) (components : List Component) (c : Component) :
    Option SchemaFile :=
  (recordings.models? c).bind fun models =>
    if isolatedViolations c (othersOf c components) models = [] then
      some (.ofComponent c models)
    else none

theorem Recordings.file?_eq_some_iff {c : Component} {file : SchemaFile} :
    recordings.file? components c = some file ↔ ∃ models, recordings.models? c = some models ∧
      isolatedViolations c (othersOf c components) models = [] ∧
      file = .ofComponent c models := by
  rw [file?, Option.bind_eq_some_iff]
  refine exists_congr fun models => and_congr_right fun _ => ?_
  split
  · next h => simp [h, eq_comm]
  · next h => simp [h]

/-- The reply to every attempt is the candidate recorded, or an error where there is none. -/
theorem reply_cases (recordings : Recordings) (policy : RetryPolicy) (state : Unit)
    (request : Request) :
    let response := ((Producer.replay recordings).answer state request).1
    (∃ models, recordings.models? request.target = some models ∧
        (settle policy.timeoutMs response).2 = .candidate models) ∨
      recordings.models? request.target = none ∧
        ∃ e, (settle policy.timeoutMs response).2 = .error e := by
  simp only [Producer.replay, settle, Nat.zero_le, if_true, Recordings.models?]
  cases recordings.lookup request.target.filename with
  | none => exact Or.inr ⟨rfl, _, rfl⟩
  | some text =>
    simp only [Option.bind_some, Reply.ofText]
    cases Candidate.parse? text with
    | none => exact Or.inr ⟨rfl, _, rfl⟩
    | some models => exact Or.inl ⟨models, rfl, rfl⟩

/-! ### Every task -/

/-- A task that has ended has the file recorded for its component, or an error that names it. -/
structure Task.Replayed (recordings : Recordings) (components : List Component) (t : Task) :
    Prop where
  others : t.others = othersOf t.target components
  file : t.due? = none →
    t.outcome.toOption.map (·.file) = recordings.file? components t.target
  component : ∀ e, t.outcome = .error e → e.component = t.target.filename

theorem Task.Replayed.asking {t : Task} (h : t.others = othersOf t.target components)
    (attempt : Nat) (feedback : List Violation) (due : Nat) :
    Task.Replayed recordings components { t with phase := .asking attempt feedback due } :=
  ⟨h, by simp [Task.due?], by simp [Task.outcome, GenerationError.component]⟩

theorem Task.Replayed.next {t : Task} (h : t.Replayed recordings components)
    (policy : RetryPolicy) (context : String) (state : Unit) (attempt : Nat)
    (feedback : List Violation) (due : Nat) :
    Task.Replayed recordings components { t with
      phase := t.next policy attempt feedback due
        ((Producer.replay recordings).answer state (t.request context attempt feedback)).1 } := by
  have hreply := reply_cases recordings policy state (t.request context attempt feedback)
  obtain ⟨v, hjudged, hnext⟩ := t.exists_judged_next policy attempt feedback due
    ((Producer.replay recordings).answer state (t.request context attempt feedback)).1
  rw [hnext]
  simp only [Task.request] at hreply hjudged
  generalize (settle policy.timeoutMs _).2 = reply at hreply hjudged
  rcases hreply with ⟨models, hmodels, rfl⟩ | ⟨hmodels, e, rfl⟩
  · have hfile : recordings.file? components t.target =
        if isolatedViolations t.target t.others models = [] then
          some (.ofComponent t.target models) else none := by
      rw [Recordings.file?, hmodels, h.others]
      rfl
    cases hjudged with
    | rejected hviolations hleft => exact .asking h.others ..
    | delivered haccepted =>
      refine ⟨h.others, fun _ => ?_, by simp [Task.outcome]⟩
      rw [hfile, if_pos haccepted]
      rfl
    | exhausted hviolations hlast =>
      refine ⟨h.others, fun _ => ?_, by simp [Task.outcome, GenerationError.component]⟩
      rw [hfile, if_neg hviolations]
      rfl
  · have hfile : recordings.file? components t.target = none := by
      rw [Recordings.file?, hmodels]
      rfl
    cases hjudged with
    | retried hretryable hleft => exact .asking h.others ..
    | failed hfinal =>
      refine ⟨h.others, fun _ => ?_, by simp [Task.outcome, GenerationError.component]⟩
      rw [hfile]
      rfl

section

variable {policy : RetryPolicy} {context : String} {p q : Progress Unit}

theorem replayed_step {position : Nat}
    (hstep : step (.replay recordings) policy context p position = some q)
    (h : ∀ t ∈ p.tasks, t.Replayed recordings components) :
    ∀ t ∈ q.tasks, t.Replayed recordings components := by
  obtain ⟨t, attempt, feedback, due, ht, -, rfl⟩ := step_cases hstep
  intro u hu
  rcases List.mem_or_eq_of_mem_set hu with hu | rfl
  · exact h u hu
  · exact (h t (List.mem_of_getElem? ht)).next policy context p.state attempt feedback due

theorem replayed_run {schedule : Schedule} (h : ∀ t ∈ p.tasks, t.Replayed recordings components) :
    ∀ t ∈ (run (.replay recordings) policy context schedule p).tasks,
      t.Replayed recordings components :=
  run_invariant (P := fun p => ∀ t ∈ p.tasks, t.Replayed recordings components)
    (fun _ _ _ hstep => replayed_step hstep) h

/-- Further rounds end with the files and errors of the first. -/
theorem replayed_rounds {n : Nat}
    (hrounds : Rounds (.replay recordings) policy context components n p q)
    (h : ∀ t ∈ p.tasks, t.Replayed recordings components) :
    ∀ t ∈ q.tasks, t.Replayed recordings components := by
  refine hrounds.invariant (P := fun p => ∀ t ∈ p.tasks, t.Replayed recordings components)
    (fun p violations h => replayed_run fun u hu => ?_) h
  obtain ⟨t, ht, hretried⟩ := forall₂_mem_right
    (forall₂_planRetries policy violations (roundEnd p.tasks) [] p.tasks) u hu
  cases hretried with
  | left => exact h _ ht
  | again _ _ _ => exact .asking (h t ht).others ..

theorem replayed_firstRound :
    ∀ t ∈ (firstRound (.replay recordings) policy context components ()).tasks,
      t.Replayed recordings components := by
  refine replayed_run fun t ht => ?_
  obtain ⟨target, -, rfl⟩ := List.mem_map.mp ht
  exact .asking (t := startTask components 0 target) rfl ..

end

/-! ### The files together -/

theorem assembled?_eq_mapM {tasks : List Task} {f : Component → Option SchemaFile}
    (h : ∀ t ∈ tasks, t.outcome.toOption.map (·.file) = f t.target) :
    assembled? tasks = (tasks.map (·.target)).mapM f := by
  induction tasks with
  | nil => rfl
  | cons t tasks ih =>
    obtain ⟨ht, htasks⟩ := List.forall_mem_cons.mp h
    have hrest : tasks.mapM (fun t => t.outcome.toOption.map (·.file)) =
        (tasks.map (·.target)).mapM f := ih htasks
    rw [assembled?, List.map_cons, List.mapM_cons, List.mapM_cons, ht, hrest]

/-- What is written for the files recorded, or said instead: the components that have none, or what
rendering the files together says. -/
def Recordings.result (recordings : Recordings) (s : Settings) (components : List Component) :
    Except CommandError TextFiles :=
  match components.mapM (recordings.file? components) with
  | some files => s.render ⟨files⟩ components
  | none =>
    let failed := components.filter fun c => (recordings.file? components c).isNone
    .error (.generation (failed.map (·.filename)) components.length)

theorem map_component_failures (assembly : Assembly ⟨components, []⟩) {tasks : List Task}
    (hreplayed : ∀ t ∈ tasks, t.Replayed recordings components)
    (hended : ∀ t ∈ tasks, t.due? = none) :
    (GenerationReport.failures ⟨tasks.map fun t => (t.target, t.outcome.map (·.file)),
      assembly⟩).map (·.component) = ((tasks.map (·.target)).filter fun c =>
        (recordings.file? components c).isNone).map (·.filename) := by
  unfold GenerationReport.failures
  induction tasks with
  | nil => rfl
  | cons t tasks ih =>
    obtain ⟨ht, htasks⟩ := List.forall_mem_cons.mp hreplayed
    obtain ⟨htend, htasksEnd⟩ := List.forall_mem_cons.mp hended
    have hrest := ih htasks htasksEnd
    have hfile := ht.file htend
    dsimp only at hrest ⊢
    rw [List.map_cons, List.map_cons]
    cases houtcome : t.outcome with
    | ok d =>
      rw [houtcome] at hfile
      have hsome : recordings.file? components t.target = some d.file := hfile.symm
      rw [List.filter_cons_of_neg (by simp [hsome]), ← hrest]
      rfl
    | error e =>
      rw [houtcome] at hfile
      have hnone : recordings.file? components t.target = none := hfile.symm
      rw [List.filter_cons_of_pos (by simp [hnone]), List.map_cons, ← hrest,
        ← ht.component e houtcome]
      rfl

theorem outputOf_reportOf {final : Progress Unit} (s : Settings)
    (htargets : final.tasks.map (·.target) = components)
    (hreplayed : ∀ t ∈ final.tasks, t.Replayed recordings components)
    (hended : ∀ t ∈ final.tasks, t.due? = none) :
    s.outputOf (reportOf components final) = recordings.result s components := by
  have hassembled : assembled? final.tasks =
      (final.tasks.map (·.target)).mapM (recordings.file? components) :=
    assembled?_eq_mapM fun t ht => (hreplayed t ht).file (hended t ht)
  have hspec := verdict_spec components final
  have hfailures := map_component_failures (verdict components final) hreplayed hended
  rw [htargets] at hassembled hfailures
  unfold Settings.outputOf Recordings.result reportOf
  dsimp only
  rw [← hassembled, hfailures]
  cases hverdict : verdict components final with
  | incomplete =>
    rw [hverdict] at hspec
    rw [hspec, List.length_map, ← List.length_map (f := (·.target)), htargets]
  | accepted whole =>
    rw [hverdict] at hspec
    obtain ⟨files, hfiles, hvalidate⟩ := hspec
    simp only [hfiles, Settings.render, hvalidate]
  | rejected violations =>
    rw [hverdict] at hspec
    obtain ⟨files, hfiles, hvalidate⟩ := hspec
    simp only [hfiles, Settings.render, hvalidate]

/-! ### Generating and rendering -/

/-- Generation from recorded candidates: what is written, or why nothing is. -/
def Settings.replay (s : Settings) (recordings : Recordings) (context : String)
    (components : List Component) : Except CommandError TextFiles := do
  let report ← s.generate (.replay recordings) context components ()
  s.outputOf report

/-- What comes of recorded candidates depends neither on the policy nor on the context. -/
theorem replay_eq {s : Settings} {policy : RetryPolicy} (recordings : Recordings) (context : String)
    (hcomponents : checkComponents components none = .ok ()) (hpolicy : s.policy = .ok policy) :
    s.replay recordings context components = recordings.result s components := by
  obtain ⟨n, final, hrounds, -, -, hreport⟩ :=
    exists_rounds_generateAll (.replay recordings) policy context components ()
  have hcounted : final.Each components (Task.Counted policy.maxAttempts components) :=
    counted_invariant.rounds hrounds (counted_invariant.firstRound ())
  have hgenerate : s.generate (.replay recordings) context components () =
      .ok (reportOf components final) := by
    rw [Settings.generate, hcomponents, hpolicy]
    change Except.ok (generateAll (.replay recordings) policy context components ()).1 = _
    rw [hreport]
  rw [Settings.replay, hgenerate]
  exact outputOf_reportOf s hcounted.targets (replayed_rounds hrounds replayed_firstRound)
    (due?_of_rounds hrounds)

/-- The application of the candidates of components, put together in their order. -/
def handAssembled (components : List Component) (candidates : List (List Model)) : Application :=
  ⟨List.zipWith .ofComponent components candidates⟩

theorem forall₂_file?_iff {plan : List Component} {files : List SchemaFile} :
    List.Forall₂ (fun c file => recordings.file? components c = some file) plan files ↔
      ∃ candidates, List.Forall₂ (fun c models => recordings.models? c = some models ∧
          isolatedViolations c (othersOf c components) models = []) plan candidates ∧
        files = List.zipWith .ofComponent plan candidates := by
  induction plan generalizing files with
  | nil => simp
  | cons c plan ih =>
    rw [List.forall₂_cons_left_iff]
    constructor
    · rintro ⟨file, rest, hfile, hrest, rfl⟩
      obtain ⟨models, hmodels, haccepted, rfl⟩ := Recordings.file?_eq_some_iff.mp hfile
      obtain ⟨candidates, hcandidates, rfl⟩ := ih.mp hrest
      exact ⟨models :: candidates, .cons ⟨hmodels, haccepted⟩ hcandidates, rfl⟩
    · rintro ⟨_, hcandidates, rfl⟩
      cases hcandidates with
      | @cons _ models _ candidates h hrest =>
        exact ⟨.ofComponent c models, _, Recordings.file?_eq_some_iff.mpr ⟨models, h.1, h.2, rfl⟩,
          ih.mpr ⟨candidates, hrest, rfl⟩, rfl⟩

/-- Where every component has a candidate that is accepted by itself, they are rendered together. -/
theorem result_of_accepted {candidates : List (List Model)}
    (h : List.Forall₂ (fun c models => recordings.models? c = some models ∧
      isolatedViolations c (othersOf c components) models = []) components candidates)
    (s : Settings) :
    recordings.result s components = s.render (handAssembled components candidates) components := by
  have hfiles : components.mapM (recordings.file? components) =
      some (List.zipWith .ofComponent components candidates) :=
    mapM_eq_some_iff_forall₂.mpr (forall₂_file?_iff.mpr ⟨candidates, h, rfl⟩)
  simp only [Recordings.result, hfiles, handAssembled]

theorem Settings.validate_isOk_of_render {s : Settings} {app : Application} {out : TextFiles}
    (h : s.render app components = .ok out) : (Scope.validate ⟨components, []⟩ app).isOk := by
  rw [render] at h
  split at h
  · next hvalidate => simp [hvalidate, Except.isOk, Except.toBool]
  · cases h

/-- In an application put together by hand that is accepted, every candidate is accepted by
itself. -/
theorem isolated_of_handAssembled {candidates : List (List Model)}
    (hmodels : List.Forall₂ (fun c models => recordings.models? c = some models)
      components candidates)
    (haccepted : (Scope.validate ⟨components, []⟩ (handAssembled components candidates)).isOk) :
    List.Forall₂ (fun c models => recordings.models? c = some models ∧
      isolatedViolations c (othersOf c components) models = []) components candidates := by
  have hconforms := Scope.validate_isOk_iff_conforms.mp haccepted
  refine List.forall₂_iff_get.mpr ⟨hmodels.length_eq, fun i hi hj => ⟨hmodels.get hi hj, ?_⟩⟩
  have hfile : SchemaFile.ofComponent (components.get ⟨i, hi⟩) (candidates.get ⟨i, hj⟩) ∈
      (handAssembled components candidates).files := by
    refine List.mem_of_getElem? (i := i) ?_
    simp [handAssembled, hi, hj]
  exact Scope.violations_eq_nil_iff.mpr (hconforms.isolated (List.get_mem ..) hfile rfl)

/-- Generating from recorded candidates is rendering the application put together from them by hand,
with the same files; where each candidate is accepted by itself and that application is not, its
violations are reported. How many attempts are allowed makes no difference. -/
theorem replay_ok_iff_render {s : Settings} {policy : RetryPolicy} (recordings : Recordings)
    (context : String) (hcomponents : checkComponents components none = .ok ())
    (hpolicy : s.policy = .ok policy) :
    (∀ out, s.replay recordings context components = .ok out ↔
      ∃ candidates, List.Forall₂ (fun c models => recordings.models? c = some models)
          components candidates ∧
        s.render (handAssembled components candidates) components = .ok out) ∧
    (∀ candidates e, List.Forall₂ (fun c models => recordings.models? c = some models ∧
          (Scope.validate ⟨[c], othersOf c components⟩ ⟨[.ofComponent c models]⟩).isOk)
        components candidates →
      s.render (handAssembled components candidates) components = .error e →
        ∃ violations, e = .validation violations ∧
          s.replay recordings context components = .error (.validation violations)) ∧
    ∀ maxAttempts otherPolicy,
      let other := { s with generation := { s.generation with maxAttempts } }
      other.policy = .ok otherPolicy →
        other.replay recordings context components = s.replay recordings context components := by
  rw [replay_eq recordings context hcomponents hpolicy]
  refine ⟨fun out => ⟨fun h => ?_, ?_⟩, fun candidates e hcandidates hrender => ?_,
    fun _ _ hother => replay_eq recordings context hcomponents hother⟩
  · unfold Recordings.result at h
    split at h
    · next files hfiles =>
      obtain ⟨candidates, hcandidates, rfl⟩ :=
        forall₂_file?_iff.mp (mapM_eq_some_iff_forall₂.mp hfiles)
      exact ⟨candidates, hcandidates.imp fun _ _ h => h.1, h⟩
    · cases h
  · rintro ⟨candidates, hmodels, hrender⟩
    have haccepted := Settings.validate_isOk_of_render hrender
    rw [result_of_accepted (isolated_of_handAssembled hmodels haccepted), hrender]
  · have haccepted := hcandidates.imp fun _ _ h => And.imp_right Scope.validate_isOk_iff.mp h
    rw [result_of_accepted haccepted, hrender]
    rw [Settings.render] at hrender
    split at hrender
    · cases hrender
    · exact ⟨_, (Except.error.inj hrender).symm, by rw [← hrender]⟩

/-- The text of one model that points at another. -/
def recordedModel (name target : String) : String :=
  "\x7b\"name\":\"" ++ name ++ "\",\"primaryField\":\x7b\"name\":\"id\"," ++
    "\"description\":\"Primary Key.\"\x7d,\"foreignFields\":[\x7b\"name\":\"" ++ target ++
    "_id\",\"relation\":\x7b\"name\":\"" ++ target ++ "\",\"targetModel\":\"" ++ target ++
    "\"\x7d\x7d]\x7d"

/-- Recordings for the two components whose models point at each other, one in either form. -/
def mutualRecordings : Recordings :=
  [(userComponent.filename, "[" ++ recordedModel "user" "team" ++ "]"),
    (teamComponent.filename, "\x7b\"models\":[" ++ recordedModel "team" "user" ++ "]\x7d")]

/-- Each of the two candidates is accepted by itself, and the violations of both are reported. -/
theorem replay_ok_iff_render_mutual :
    checkComponents [userComponent, teamComponent] none = .ok () ∧
      ({} : Settings).policy = .ok {} ∧
      ∃ violations, violations ≠ [] ∧
        ({} : Settings).replay mutualRecordings "" [userComponent, teamComponent] =
          .error (.validation violations) := by
  have hcomponents : checkComponents [userComponent, teamComponent] none = .ok () := by
    decide +kernel
  have hpolicy : ({} : Settings).policy = .ok {} := rfl
  obtain ⟨-, hrejected, -⟩ := replay_ok_iff_render mutualRecordings "" hcomponents hpolicy
  have hcandidates : List.Forall₂ (fun c models => mutualRecordings.models? c = some models ∧
      (Scope.validate ⟨[c], othersOf c [userComponent, teamComponent]⟩
        ⟨[.ofComponent c models]⟩).isOk) [userComponent, teamComponent]
      ((mutualFiles none none).map (·.models)) :=
    .cons (by decide +kernel) (.cons (by decide +kernel) .nil)
  have hviolations : Scope.violations ⟨[userComponent, teamComponent], []⟩
      ⟨mutualFiles none none⟩ ≠ [] := by decide +kernel
  have hrender : ({} : Settings).render ⟨mutualFiles none none⟩ [userComponent, teamComponent] =
      .error (.validation (Scope.violations ⟨[userComponent, teamComponent], []⟩
        ⟨mutualFiles none none⟩)) := by
    rw [Settings.render, Scope.validate, dif_neg hviolations]
  obtain ⟨violations, hsame, hreplay⟩ := hrejected _ _ hcandidates hrender
  exact ⟨hcomponents, hpolicy, violations, CommandError.validation.inj hsame ▸ hviolations, hreplay⟩

end SchemaGate
