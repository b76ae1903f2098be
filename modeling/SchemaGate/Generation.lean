import SchemaGate.Generation.Round
import SchemaGate.Render

/-!
# Generation

Every component of a plan is asked for until its candidate is accepted by itself or its attempts run
out. The accepted files are put together and validated as a whole; the components that the
violations name are asked again within the attempts they have left, round after round.

* `generateComponent`, one component by itself
* `planRetries`, the feedback of a rejected whole
* `generateAll`, all rounds, with the report and every request made
-/

namespace SchemaGate

/-! ## One component -/

/-- The components with another filename than the target's. -/
def othersOf (target : Component) (components : List Component) : List Component :=
  components.filter (·.filename ≠ target.filename)

/-- The task that starts on a component at a time. -/
def startTask (components : List Component) (time : Nat) (target : Component) : Task :=
  { target, others := othersOf target components, phase := .asking 1 [] time }

/-- Asks for one component of a plan: what came of it, and the requests made. -/
def generateComponent {σ : Type} (producer : Producer σ) (policy : RetryPolicy) (context : String)
    (components : List Component) (target : Component) (state : σ) : Outcome × List Asked :=
  let start : Progress σ := { tasks := [startTask components 0 target], state }
  let final := run producer policy context byClock start
  (((final.tasks.head?.map (·.outcome)).getD (.error (.cancelled target.filename))), final.asked)

/-! ## The whole -/

/-- What became of the files put together. -/
inductive Assembly (scope : Scope) where
  /-- Some component has no file. -/
  | incomplete
  /-- The whole is accepted. -/
  | accepted (whole : Accepted scope)
  /-- The whole breaks rules, and no component that could mend them has attempts left. -/
  | rejected (violations : List Violation)

/-- The files of tasks that all have one, in the order of the tasks. -/
def assembled? (tasks : List Task) : Option (List SchemaFile) :=
  tasks.mapM fun t => t.outcome.toOption.map (·.file)

/-- The violations that name a file. -/
def violationsAt (filename : String) (violations : List Violation) : List Violation :=
  violations.filter (·.path.file == some filename)

/-- The tasks of the next round. A component with a file that violations name is asked again with
those, after the retry delay, where it has attempts left; of several with one filename the first is.
Every other task is left as it ended. `taken` are the filenames asked again so far. -/
def planRetries (policy : RetryPolicy) (violations : List Violation) (time : Nat) :
    List String → List Task → List Task
  | _, [] => []
  | taken, t :: tasks =>
    match t.outcome, violationsAt t.target.filename violations with
    | .ok d, feedback@(_ :: _) =>
      if d.attempts < policy.maxAttempts && !taken.contains t.target.filename then
        { t with phase := .asking (d.attempts + 1) feedback (time + policy.retryDelayMs) } ::
          planRetries policy violations time (t.target.filename :: taken) tasks
      else t :: planRetries policy violations time taken tasks
    | _, _ => t :: planRetries policy violations time taken tasks

/-- The time at which the last of the tasks ended. -/
def roundEnd (tasks : List Task) : Nat := (tasks.map (·.time)).foldl max 0

/-- Asking again uses no attempts by itself. -/
theorem totalBudget_planRetries (policy : RetryPolicy) (violations : List Violation) (time : Nat)
    (taken : List String) (tasks : List Task) :
    totalBudget policy.maxAttempts (planRetries policy violations time taken tasks) =
      totalBudget policy.maxAttempts tasks := by
  induction tasks generalizing taken with
  | nil => rfl
  | cons t tasks ih =>
    unfold planRetries
    split
    · next d _ _ ho _ =>
      split
      · next ha =>
        simp only [Bool.and_eq_true, decide_eq_true_eq] at ha
        have ht : t.budget policy.maxAttempts = policy.maxAttempts - d.attempts := by
          unfold Task.outcome at ho
          split at ho
          · next hp => simp [Task.budget, hp, ho]
          · simp at ho
        simp only [totalBudget, ih, ht]
        simp only [Task.budget]
        omega
      · simp [totalBudget, ih]
    · simp [totalBudget, ih]

/-! ## All rounds -/

section

variable {σ : Type} (producer : Producer σ) (policy : RetryPolicy) (context : String)
  (components : List Component)

/-- What the files of ended tasks make together, after as many further rounds as can mend it. -/
def assemble (p : Progress σ) : Assembly ⟨components, []⟩ × Progress σ :=
  match assembled? p.tasks with
  | none => (.incomplete, p)
  | some files =>
    match Scope.validate ⟨components, []⟩ ⟨files⟩ with
    | .ok whole => (.accepted whole, p)
    | .error violations =>
      let retries := planRetries policy violations (roundEnd p.tasks) [] p.tasks
      if _h : ∃ t ∈ retries, t.due?.isSome then
        assemble (run producer policy context byClock { p with tasks := retries })
      else (.rejected violations, p)
termination_by totalBudget policy.maxAttempts p.tasks
decreasing_by
  have hlt := totalBudget_run_lt producer policy context (p := { p with tasks := retries }) _h
  rwa [totalBudget_planRetries] at hlt

/-- What came of each component of a plan and of the whole. -/
structure GenerationReport (components : List Component) where
  /-- The outcome of each component, in the order of the plan. -/
  outcomes : List (Component × Except GenerationError SchemaFile)
  assembly : Assembly ⟨components, []⟩

/-- Asks for every component of a plan: the report, and the requests made. -/
def generateAll (state : σ) : GenerationReport components × List Asked :=
  let start : Progress σ := { tasks := components.map (startTask components 0), state }
  let (assembly, final) :=
    assemble producer policy context components (run producer policy context byClock start)
  ({ outcomes := final.tasks.map fun t => (t.target, t.outcome.map (·.file)), assembly },
    final.asked)

end

namespace GenerationReport

variable {components : List Component}

/-- The errors of the components that have no file. -/
def failures (r : GenerationReport components) : List GenerationError :=
  r.outcomes.filterMap fun (_, outcome) => match outcome with
    | .error e => some e
    | .ok _ => none

def application? (r : GenerationReport components) : Option (Accepted ⟨components, []⟩) :=
  match r.assembly with
  | .accepted whole => some whole
  | _ => none

def violations? (r : GenerationReport components) : Option (List Violation) :=
  match r.assembly with
  | .rejected violations => some violations
  | _ => none

def output? (options : RenderOptions) (r : GenerationReport components) : Option TextFiles :=
  r.application?.map (·.render options)

end GenerationReport

end SchemaGate
