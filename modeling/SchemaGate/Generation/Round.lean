import SchemaGate.Generation.Attempt

/-!
# Rounds

The components of a round are worked on at the same time. Each has a task that asks, waits for the
reply, and asks again; between the tasks only the producer's state is shared. Time is virtual and
counted in milliseconds, and a step takes none.

* `Task`, a component with what it waits for or what came of it
* `stepTask`, one call to the producer for a task
* `run`, steps in the order of a schedule until every task has ended
* `byClock`, the schedule that always takes the task due first
-/

namespace SchemaGate

/-- What a task waits for, or what came of it. -/
inductive Phase where
  /-- It asks for this attempt when it is due. -/
  | asking (attempt : Nat) (feedback : List Violation) (due : Nat)
  /-- It ended at this time. -/
  | ended (outcome : Outcome) (time : Nat)

/-- A component at work. -/
structure Task where
  target : Component
  others : List Component
  phase : Phase

/-- A request as it was made, by the task at a position. -/
structure Asked where
  position : Nat
  request : Request
  atMs : Nat
  deriving DecidableEq, Repr, Inhabited

namespace Task

/-- What came of a task. One that has not ended counts as cancelled. -/
def outcome (t : Task) : Outcome :=
  match t.phase with
  | .ended outcome _ => outcome
  | .asking .. => .error (.cancelled t.target.filename)

/-- When a task is due, while it has not ended. -/
def due? (t : Task) : Option Nat :=
  match t.phase with
  | .asking _ _ due => some due
  | .ended .. => none

/-- The time that a task has come to. -/
def time (t : Task) : Nat :=
  match t.phase with
  | .asking _ _ due => due
  | .ended _ time => time

/-- The attempts that are left, as far as this task may still use them up: an accepted file may have
to be mended later. -/
def budget (maxAttempts : Nat) (t : Task) : Nat :=
  match t.phase with
  | .asking attempt _ _ => maxAttempts - attempt + 1
  | .ended (.ok d) _ => maxAttempts - d.attempts
  | .ended (.error _) _ => 0

end Task

/-! ## One step -/

section

variable {σ : Type} (producer : Producer σ) (policy : RetryPolicy) (context : String)

/-- The request of a task for an attempt. -/
def Task.request (t : Task) (attempt : Nat) (feedback : List Violation) : Request :=
  { target := t.target, others := t.others, context, attempt, feedback }

/-- The phase of a task after the reply to an attempt that was asked for when `due`. -/
def Task.next (t : Task) (attempt : Nat) (feedback : List Violation) (due : Nat)
    (response : Response) : Phase :=
  let (elapsed, reply) := settle policy.timeoutMs response
  match judge policy.maxAttempts t.target t.others attempt feedback reply with
  | .again feedback => .asking (attempt + 1) feedback (due + elapsed + policy.retryDelayMs)
  | .done outcome => .ended outcome (due + elapsed)

/-- The tasks, the producer's state and the requests made so far. -/
structure Progress (σ : Type) where
  tasks : List Task
  state : σ
  asked : List Asked := []

/-- One call to the producer for the task at a position, where that task has not ended. -/
def step (p : Progress σ) (position : Nat) : Option (Progress σ) :=
  match p.tasks[position]? with
  | some t => match t.phase with
    | .asking attempt feedback due =>
      let request := t.request context attempt feedback
      let (response, state) := producer.answer p.state request
      let next := { t with phase := t.next policy attempt feedback due response }
      some { tasks := p.tasks.set position next
             state
             asked := p.asked ++ [⟨position, request, due⟩] }
    | .ended .. => none
  | none => none

/-! ## All steps -/

/-- The attempts that the tasks of a round may still use up together. -/
def totalBudget (maxAttempts : Nat) : List Task → Nat
  | [] => 0
  | t :: tasks => t.budget maxAttempts + totalBudget maxAttempts tasks

theorem budget_next_lt (t : Task) {attempt : Nat} {feedback : List Violation} {due : Nat}
    (h : t.phase = .asking attempt feedback due) (response : Response) :
    Task.budget policy.maxAttempts { t with phase := t.next policy attempt feedback due response } <
      t.budget policy.maxAttempts := by
  simp only [Task.next, Task.budget, h]
  generalize (settle policy.timeoutMs response).2 = reply
  cases reply with
  | panic => simp [judge]
  | error e =>
    simp only [judge]
    by_cases he : e.isRetryable && attempt < policy.maxAttempts
    · simp only [he, if_true]
      simp only [Bool.and_eq_true, decide_eq_true_eq] at he
      omega
    · simp [he]
  | candidate models =>
    simp only [judge]
    cases isolatedViolations t.target t.others models with
    | nil => simp only; omega
    | cons v vs =>
      simp only
      by_cases ha : attempt < policy.maxAttempts
      · simp only [ha, if_true]
        omega
      · simp [ha]

theorem totalBudget_set_lt {maxAttempts position : Nat} {tasks : List Task} {t u : Task}
    (ht : tasks[position]? = some t) (hu : u.budget maxAttempts < t.budget maxAttempts) :
    totalBudget maxAttempts (tasks.set position u) < totalBudget maxAttempts tasks := by
  induction tasks generalizing position with
  | nil => simp at ht
  | cons a tasks ih =>
    cases position with
    | zero =>
      obtain rfl : a = t := by simpa using ht
      simp [totalBudget, hu]
    | succ position =>
      have hrest : totalBudget maxAttempts (tasks.set position u) < totalBudget maxAttempts tasks :=
        ih (by simpa using ht)
      simpa [totalBudget] using hrest

theorem totalBudget_step_lt {p q : Progress σ} {position : Nat}
    (h : step producer policy context p position = some q) :
    totalBudget policy.maxAttempts q.tasks < totalBudget policy.maxAttempts p.tasks := by
  unfold step at h
  split at h
  · next t ht =>
    split at h
    · next hp =>
      obtain rfl := Option.some.inj h
      exact totalBudget_set_lt ht (budget_next_lt policy t hp _)
    · simp at h
  · simp at h

/-- Which task takes the next step. -/
abbrev Schedule := List Task → Option Nat

/-- Steps in the order of a schedule, until it names no task that can take one. -/
def run (schedule : Schedule) (p : Progress σ) : Progress σ :=
  match _h : (schedule p.tasks).bind (step producer policy context p) with
  | none => p
  | some q => run schedule q
termination_by totalBudget policy.maxAttempts p.tasks
decreasing_by
  obtain ⟨position, -, hq⟩ := Option.bind_eq_some_iff.1 _h
  exact totalBudget_step_lt producer policy context hq

theorem totalBudget_run_le (schedule : Schedule) (p : Progress σ) :
    totalBudget policy.maxAttempts (run producer policy context schedule p).tasks ≤
      totalBudget policy.maxAttempts p.tasks := by
  fun_induction run producer policy context schedule p with
  | case1 p h => exact Nat.le_refl _
  | case2 p q h ih =>
    obtain ⟨position, -, hq⟩ := Option.bind_eq_some_iff.1 h
    exact Nat.le_trans ih (Nat.le_of_lt (totalBudget_step_lt producer policy context hq))

end

/-! ## The clock -/

/-- The position of the task that is due first, and when; the first one of several. -/
def earliest : List Task → Option (Nat × Nat)
  | [] => none
  | t :: ts =>
    match t.due?, earliest ts with
    | none, rest => rest.map fun (position, due) => (position + 1, due)
    | some due, none => some (0, due)
    | some due, some (position, later) =>
      if due ≤ later then some (0, due) else some (position + 1, later)

/-- The schedule of the clock: the task due first takes the next step. -/
def byClock : Schedule := fun tasks => (earliest tasks).map (·.1)

theorem earliest_eq_none_iff {tasks : List Task} :
    earliest tasks = none ↔ ∀ t ∈ tasks, t.due? = none := by
  induction tasks with
  | nil => simp [earliest]
  | cons t tasks ih =>
    simp only [earliest, List.mem_cons, forall_eq_or_imp]
    cases ht : t.due? with
    | none => simp [ih]
    | some due =>
      cases he : earliest tasks with
      | none => simp
      | some later =>
        simp only [reduceCtorEq, false_and, iff_false]
        split <;> simp

theorem earliest_spec {tasks : List Task} {position due : Nat}
    (h : earliest tasks = some (position, due)) :
    ∃ t, tasks[position]? = some t ∧ t.due? = some due := by
  induction tasks generalizing position with
  | nil => simp [earliest] at h
  | cons t tasks ih =>
    simp only [earliest] at h
    cases ht : t.due? with
    | none =>
      simp only [ht, Option.map_eq_some_iff, Prod.mk.injEq, Prod.exists] at h
      obtain ⟨place, later, he, rfl, rfl⟩ := h
      simpa using ih he
    | some first =>
      cases he : earliest tasks with
      | none =>
        simp only [ht, he, Option.some.injEq, Prod.mk.injEq] at h
        obtain ⟨rfl, rfl⟩ := h
        exact ⟨t, rfl, ht⟩
      | some pair =>
        obtain ⟨place, later⟩ := pair
        simp only [ht, he] at h
        split at h
        · obtain ⟨rfl, rfl⟩ := Prod.mk.inj (Option.some.inj h)
          exact ⟨t, rfl, ht⟩
        · obtain ⟨rfl, rfl⟩ := Prod.mk.inj (Option.some.inj h)
          simpa using ih he

/-- A round in which some task asks uses up attempts. -/
theorem totalBudget_run_lt {σ : Type} (producer : Producer σ) (policy : RetryPolicy)
    (context : String) {p : Progress σ} (h : ∃ t ∈ p.tasks, t.due?.isSome) :
    totalBudget policy.maxAttempts (run producer policy context byClock p).tasks <
      totalBudget policy.maxAttempts p.tasks := by
  cases he : earliest p.tasks with
  | none =>
    obtain ⟨t, ht, hd⟩ := h
    rw [earliest_eq_none_iff] at he
    simp [he t ht] at hd
  | some pair =>
    obtain ⟨position, due⟩ := pair
    obtain ⟨t, ht, hd⟩ := earliest_spec he
    rw [run]
    split
    · next hstep =>
      simp only [byClock, he, Option.map_some, Option.bind_some, step, ht] at hstep
      cases hp : t.phase with
      | asking => simp [hp] at hstep
      | ended => simp [Task.due?, hp] at hd
    · next q hq =>
      obtain ⟨_, -, hq⟩ := Option.bind_eq_some_iff.1 hq
      exact Nat.lt_of_le_of_lt (totalBudget_run_le producer policy context byClock q)
        (totalBudget_step_lt producer policy context hq)

end SchemaGate
