import Mathlib.Data.List.Forall2
import SchemaGate.Generation

/-!
# Steps and rounds

What can follow a reply (`judge_cases`), what a step changes (`step_cases`), and what a further
round starts from (`forall₂_planRetries`). What every step keeps is kept by a round, in any order of
its steps (`run_invariant`); what a further round keeps is kept to the end (`Rounds.invariant`),
which is a progress that nothing follows, reached after finitely many rounds
(`exists_rounds_assemble`).
-/

namespace SchemaGate

/-! ### One step -/

/-- What a reply to an attempt leads to. -/
inductive Judged (maxAttempts : Nat) (target : Component) (others : List Component) (attempt : Nat)
    (feedback : List Violation) : Reply → Verdict → Prop
  | retried {e : ProducerError} (hretryable : e.isRetryable) (hleft : attempt < maxAttempts) :
    Judged maxAttempts target others attempt feedback (.error e) (.again feedback)
  | rejected {models : List Model} (hviolations : isolatedViolations target others models ≠ [])
      (hleft : attempt < maxAttempts) :
    Judged maxAttempts target others attempt feedback (.candidate models)
      (.again (isolatedViolations target others models))
  | delivered {models : List Model} (haccepted : isolatedViolations target others models = []) :
    Judged maxAttempts target others attempt feedback (.candidate models)
      (.done (.ok ⟨.ofComponent target models, attempt⟩))
  | failed {e : ProducerError} (hfinal : e.isRetryable → maxAttempts ≤ attempt) :
    Judged maxAttempts target others attempt feedback (.error e)
      (.done (.error (.producer target.filename attempt e)))
  | exhausted {models : List Model} (hviolations : isolatedViolations target others models ≠ [])
      (hlast : maxAttempts ≤ attempt) :
    Judged maxAttempts target others attempt feedback (.candidate models)
      (.done (.error (.exhausted target.filename maxAttempts
        (isolatedViolations target others models))))
  | cancelled :
    Judged maxAttempts target others attempt feedback .panic
      (.done (.error (.cancelled target.filename)))

theorem judge_cases (maxAttempts : Nat) (target : Component) (others : List Component)
    (attempt : Nat) (feedback : List Violation) (reply : Reply) :
    Judged maxAttempts target others attempt feedback reply
      (judge maxAttempts target others attempt feedback reply) := by
  cases reply with
  | panic => exact .cancelled
  | error e =>
    rw [judge]
    split
    · next h =>
      simp only [Bool.and_eq_true, decide_eq_true_eq] at h
      exact .retried h.1 h.2
    · next h =>
      simp only [Bool.and_eq_true, decide_eq_true_eq, not_and, Nat.not_lt] at h
      exact .failed h
  | candidate models =>
    rw [judge]
    split
    · next h => exact .delivered h
    · next h =>
      split
      · next hleft => exact .rejected h hleft
      · next hlast => exact .exhausted h (Nat.not_lt.mp hlast)

/-- A task goes on as its reply was judged. -/
theorem Task.exists_judged_next (policy : RetryPolicy) (t : Task) (attempt : Nat)
    (feedback : List Violation) (due : Nat) (response : Response) :
    ∃ v, Judged policy.maxAttempts t.target t.others attempt feedback
        (settle policy.timeoutMs response).2 v ∧
      t.next policy attempt feedback due response = match v with
        | .again feedback => .asking (attempt + 1) feedback
            (due + (settle policy.timeoutMs response).1 + policy.retryDelayMs)
        | .done outcome => .ended outcome (due + (settle policy.timeoutMs response).1) :=
  ⟨_, judge_cases .., rfl⟩

section

variable {σ : Type} {producer : Producer σ} {policy : RetryPolicy} {context : String}
  {p q : Progress σ}

theorem step_cases {position : Nat} (h : step producer policy context p position = some q) :
    ∃ t attempt feedback due, p.tasks[position]? = some t ∧
      t.phase = .asking attempt feedback due ∧
      q = { tasks := p.tasks.set position { t with
              phase := t.next policy attempt feedback due
                (producer.answer p.state (t.request context attempt feedback)).1 }
            state := (producer.answer p.state (t.request context attempt feedback)).2
            asked := p.asked ++ [⟨position, t.request context attempt feedback, due⟩] } := by
  unfold step at h
  split at h
  · next t ht =>
    split at h
    · next attempt feedback due hphase =>
      exact ⟨t, attempt, feedback, due, ht, hphase, (Option.some.inj h).symm⟩
    · cases h
  · cases h

/-! ### One round -/

theorem run_invariant {P : Progress σ → Prop} {schedule : Schedule}
    (hstep : ∀ p position q, step producer policy context p position = some q → P p → P q)
    (h : P p) : P (run producer policy context schedule p) := by
  fun_induction run producer policy context schedule p with
  | case1 p _ => exact h
  | case2 p q hq ih =>
    obtain ⟨position, -, hq⟩ := Option.bind_eq_some_iff.mp hq
    exact ih (hstep p position q hq h)

theorem step_of_earliest {position due : Nat} (h : earliest p.tasks = some (position, due)) :
    (step producer policy context p position).isSome := by
  obtain ⟨t, ht, hdue⟩ := earliest_spec h
  unfold step
  rw [ht]
  cases hphase : t.phase with
  | asking => simp [hphase]
  | ended => simp [Task.due?, hphase] at hdue

/-- By the clock a round goes on until every task has ended. -/
theorem due?_of_mem_run {t : Task} (ht : t ∈ (run producer policy context byClock p).tasks) :
    t.due? = none := by
  fun_induction run producer policy context byClock p with
  | case1 p hstop =>
    cases hearliest : earliest p.tasks with
    | none => exact earliest_eq_none_iff.mp hearliest t ht
    | some place =>
      have hstep : (step producer policy context p place.1).isSome := step_of_earliest hearliest
      simp [byClock, hearliest] at hstop
      simp [hstop] at hstep
  | case2 p q hq ih => exact ih ht

end

/-! ### Between rounds -/

theorem phase_of_outcome {t : Task} {d : Delivery} (h : t.outcome = .ok d) :
    ∃ time, t.phase = .ended (.ok d) time := by
  unfold Task.outcome at h
  split at h
  · next outcome time hphase => exact ⟨time, by rw [hphase, h]⟩
  · cases h

/-- What becomes of a task where the whole is rejected: it is left as it ended, or it asks again
with the violations that name its file. -/
inductive Retried (policy : RetryPolicy) (violations : List Violation) (time : Nat) (t : Task) :
    Task → Prop
  | left : Retried policy violations time t t
  | again {d : Delivery} (hdelivered : t.outcome = .ok d)
      (hnamed : violationsAt t.target.filename violations ≠ [])
      (hattempts : d.attempts < policy.maxAttempts) :
    Retried policy violations time t { t with
      phase := .asking (d.attempts + 1) (violationsAt t.target.filename violations)
        (time + policy.retryDelayMs) }

theorem forall₂_planRetries (policy : RetryPolicy) (violations : List Violation) (time : Nat)
    (taken : List String) (tasks : List Task) :
    List.Forall₂ (Retried policy violations time) tasks
      (planRetries policy violations time taken tasks) := by
  induction tasks generalizing taken with
  | nil => exact .nil
  | cons t tasks ih =>
    unfold planRetries
    split
    · next d v vs hdelivered hnamed =>
      split
      · next hattempts =>
        simp only [Bool.and_eq_true, decide_eq_true_eq] at hattempts
        have hne : violationsAt t.target.filename violations ≠ [] := by simp [hnamed]
        rw [← hnamed]
        exact .cons (.again hdelivered hne hattempts.1) (ih _)
      · exact .cons .left (ih _)
    · exact .cons .left (ih _)

/-- Where no task asks again, those whose files violations name have no attempts left. -/
theorem maxAttempts_le_of_planRetries {policy : RetryPolicy} {violations : List Violation}
    {time : Nat} {taken : List String} {tasks : List Task}
    (h : ∀ t ∈ planRetries policy violations time taken tasks, t.due? = none) {t : Task}
    (ht : t ∈ tasks) {d : Delivery} (hdelivered : t.outcome = .ok d)
    (hnamed : violationsAt t.target.filename violations ≠ [])
    (hnew : t.target.filename ∉ taken) : policy.maxAttempts ≤ d.attempts := by
  -- `taken` grows only behind a task that asks again, so it is the same all along
  induction tasks with
  | nil => cases ht
  | cons u tasks ih =>
    unfold planRetries at h
    split at h
    · next e v vs hu _ =>
      split at h
      · exact absurd (h _ List.mem_cons_self) (by simp [Task.due?])
      · next hstop =>
        rcases List.mem_cons.mp ht with rfl | ht
        · obtain rfl : d = e := Except.ok.inj (hdelivered.symm.trans hu)
          simp only [Bool.and_eq_true, decide_eq_true_eq, Bool.not_eq_true', List.contains_eq_mem,
            decide_eq_false_iff_not, not_and, Decidable.not_not] at hstop
          by_contra hlt
          exact hnew (hstop (Nat.not_le.mp hlt))
        · exact ih (fun t ht => h t (List.mem_cons_of_mem _ ht)) ht
    · next hother =>
      rcases List.mem_cons.mp ht with rfl | ht
      · obtain ⟨v, vs, hviolations⟩ := List.exists_cons_of_ne_nil hnamed
        exact absurd hviolations (hother d v vs hdelivered)
      · exact ih (fun t ht => h t (List.mem_cons_of_mem _ ht)) ht

section

variable {σ : Type} (producer : Producer σ) (policy : RetryPolicy) (context : String)
  (components : List Component)

/-- What the files of a progress make together. -/
def verdict (p : Progress σ) : Assembly ⟨components, []⟩ :=
  match assembled? p.tasks with
  | none => .incomplete
  | some files =>
    match Scope.validate ⟨components, []⟩ ⟨files⟩ with
    | .ok whole => .accepted whole
    | .error violations => .rejected violations

/-- Where a verdict comes from. -/
theorem verdict_spec (p : Progress σ) :
    match verdict components p with
    | .incomplete => assembled? p.tasks = none
    | .accepted whole => ∃ files, assembled? p.tasks = some files ∧
        Scope.validate ⟨components, []⟩ ⟨files⟩ = .ok whole
    | .rejected violations => ∃ files, assembled? p.tasks = some files ∧
        Scope.validate ⟨components, []⟩ ⟨files⟩ = .error violations := by
  unfold verdict
  cases hfiles : assembled? p.tasks with
  | none => rfl
  | some files =>
    dsimp only
    cases hvalidate : Scope.validate ⟨components, []⟩ ⟨files⟩ with
    | ok whole => exact ⟨files, rfl, hvalidate⟩
    | error violations => exact ⟨files, rfl, hvalidate⟩

/-- The report of a progress as it stands. -/
def reportOf (p : Progress σ) : GenerationReport components where
  outcomes := p.tasks.map fun t => (t.target, t.outcome.map (·.file))
  assembly := verdict components p

/-- The tasks of a further round, where the whole is rejected and one of them can ask again. -/
def retries? (p : Progress σ) : Option (List Task) :=
  match verdict components p with
  | .rejected violations =>
    let retries := planRetries policy violations (roundEnd p.tasks) [] p.tasks
    if ∃ t ∈ retries, t.due?.isSome then some retries else none
  | _ => none

/-- The progress after a further round. -/
def nextRound (p : Progress σ) : Option (Progress σ) :=
  (retries? policy components p).map fun retries =>
    run producer policy context byClock { p with tasks := retries }

/-- From one progress to another in a number of further rounds. -/
inductive Rounds : Nat → Progress σ → Progress σ → Prop
  | nil (p : Progress σ) : Rounds 0 p p
  | cons {n : Nat} {p q r : Progress σ}
      (hfirst : nextRound producer policy context components p = some q) (hrest : Rounds n q r) :
    Rounds (n + 1) p r

theorem assemble_eq (p : Progress σ) :
    assemble producer policy context components p =
      match nextRound producer policy context components p with
      | none => (verdict components p, p)
      | some q => assemble producer policy context components q := by
  rw [assemble]
  unfold nextRound retries? verdict
  cases assembled? p.tasks with
  | none => rfl
  | some files =>
    dsimp only
    cases Scope.validate ⟨components, []⟩ ⟨files⟩ with
    | ok whole => rfl
    | error violations =>
      dsimp only
      split <;> rfl

variable {producer policy context components}

theorem exists_planRetries_of_nextRound {p q : Progress σ}
    (h : nextRound producer policy context components p = some q) :
    ∃ violations, verdict components p = .rejected violations ∧
      let retries := planRetries policy violations (roundEnd p.tasks) [] p.tasks
      (∃ t ∈ retries, t.due?.isSome) ∧
        q = run producer policy context byClock { p with tasks := retries } := by
  obtain ⟨retries, hretries, rfl⟩ := Option.map_eq_some_iff.mp h
  unfold retries? at hretries
  split at hretries
  · next violations hverdict =>
    dsimp only at hretries
    split at hretries
    · next hsome =>
      obtain rfl := Option.some.inj hretries
      exact ⟨violations, hverdict, hsome, rfl⟩
    · cases hretries
  · cases hretries

theorem totalBudget_nextRound_lt {p q : Progress σ}
    (h : nextRound producer policy context components p = some q) :
    totalBudget policy.maxAttempts q.tasks < totalBudget policy.maxAttempts p.tasks := by
  obtain ⟨violations, -, hsome, rfl⟩ := exists_planRetries_of_nextRound h
  have hlt := totalBudget_run_lt producer policy context
    (p := { p with tasks := planRetries policy violations (roundEnd p.tasks) [] p.tasks }) hsome
  rwa [totalBudget_planRetries] at hlt

/-- Further rounds come to an end, and the whole is judged by where they end. -/
theorem exists_rounds_assemble (p : Progress σ) :
    ∃ n q, Rounds producer policy context components n p q ∧
      n ≤ totalBudget policy.maxAttempts p.tasks ∧
      nextRound producer policy context components q = none ∧
      assemble producer policy context components p = (verdict components q, q) := by
  -- every further round leaves less of the budget
  induction hbudget : totalBudget policy.maxAttempts p.tasks using Nat.strongRecOn
    generalizing p with
  | _ budget ih =>
    cases hnext : nextRound producer policy context components p with
    | none =>
      refine ⟨0, p, .nil p, Nat.zero_le _, hnext, ?_⟩
      rw [assemble_eq, hnext]
    | some r =>
      have hlt := totalBudget_nextRound_lt hnext
      obtain ⟨n, q, hrounds, hn, hend, hassemble⟩ := ih _ (hbudget ▸ hlt) r rfl
      refine ⟨n + 1, q, .cons hnext hrounds, by omega, hend, ?_⟩
      rw [assemble_eq, hnext]
      exact hassemble

/-- What is kept from a rejected whole to the end of the next round is kept to the end. -/
theorem Rounds.invariant {P : Progress σ → Prop}
    (hround : ∀ p violations, P p → P (run producer policy context byClock
      { p with tasks := planRetries policy violations (roundEnd p.tasks) [] p.tasks }))
    {n : Nat} {p q : Progress σ} (h : Rounds producer policy context components n p q)
    (hp : P p) : P q := by
  induction h with
  | nil p => exact hp
  | cons hfirst _ ih =>
    obtain ⟨violations, -, -, rfl⟩ := exists_planRetries_of_nextRound hfirst
    exact ih (hround _ violations hp)

end

end SchemaGate
