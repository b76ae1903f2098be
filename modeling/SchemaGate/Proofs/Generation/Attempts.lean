import SchemaGate.Proofs.Generation.Tasks

/-!
# Attempts are counted without a gap

However often the whole is rejected and a component asked again, the requests for a component carry
the attempt numbers from one on, each once and in order, and never more than the policy allows: a
task that asks asks for the attempt behind those it has used, and a file remembers the attempts it
took (`Phase.Used`). Every further round uses up attempts, of which at most all but the first of
each component are left after the first round (`attempts_of_generateAll`).
-/

namespace SchemaGate

/-- The attempts that a task has used when it is in a phase. -/
def Phase.Used (maxAttempts used : Nat) : Phase → Prop
  | .asking attempt _ _ => attempt = used + 1 ∧ used < maxAttempts
  | .ended (.ok d) _ => d.attempts = used ∧ 1 ≤ used ∧ used ≤ maxAttempts
  | .ended (.error _) _ => 1 ≤ used ∧ used ≤ maxAttempts

/-- A task works on the component at its position, and its requests are those for the attempts it
has used. -/
structure Task.Counted (maxAttempts : Nat) (components : List Component) (position : Nat) (t : Task)
    (requests : List Asked) : Prop where
  target : components[position]? = some t.target
  asked : ∀ a ∈ requests, a.request.target = t.target
  attempts : ∃ used, t.phase.Used maxAttempts used ∧
    requests.map (·.request.attempt) = List.range' 1 used

variable {policy : RetryPolicy} {context : String} {components : List Component}

theorem used_next {t : Task} {attempt used : Nat} {feedback : List Violation} {due : Nat}
    (hattempt : attempt = used + 1) (hleft : used < policy.maxAttempts) (response : Response) :
    (t.next policy attempt feedback due response).Used policy.maxAttempts (used + 1) := by
  obtain ⟨v, hjudged, hnext⟩ := t.exists_judged_next policy attempt feedback due response
  rw [hnext]
  generalize (settle policy.timeoutMs response).2 = reply at hjudged
  cases hjudged with
  | retried _ hagain => exact ⟨by omega, by omega⟩
  | rejected _ hagain => exact ⟨by omega, by omega⟩
  | delivered _ => exact ⟨hattempt, by omega, by omega⟩
  | failed _ => exact ⟨by omega, by omega⟩
  | exhausted _ _ => exact ⟨by omega, by omega⟩
  | cancelled => exact ⟨by omega, by omega⟩

theorem counted_invariant :
    TaskInvariant policy context components (Task.Counted policy.maxAttempts components) where
  start := by
    intro position target htarget
    exact ⟨htarget, by simp, 0, ⟨rfl, policy.one_le_maxAttempts⟩, rfl⟩
  reply := by
    intro position t attempt feedback due response requests hphase h
    obtain ⟨used, hused, hrequests⟩ := h.attempts
    rw [hphase] at hused
    obtain ⟨hattempt, hleft⟩ := hused
    refine ⟨h.target, ?_, used + 1, used_next hattempt hleft response, ?_⟩
    · rw [List.forall_mem_append]
      exact ⟨h.asked, by simp [Task.request]⟩
    · rw [List.map_append, hrequests, List.range'_concat, Nat.one_mul, Nat.add_comm 1, ← hattempt]
      rfl
  retry := by
    intro position violations time t u requests hretried h
    cases hretried with
    | left => exact h
    | again hdelivered _ hleft =>
      obtain ⟨ended, hphase⟩ := phase_of_outcome hdelivered
      obtain ⟨used, hused, hrequests⟩ := h.attempts
      rw [hphase] at hused
      obtain ⟨rfl, -, -⟩ := hused
      exact ⟨h.target, h.asked, _, ⟨rfl, hleft⟩, hrequests⟩

/-- The tasks are those of the components, in their order. -/
theorem Progress.Each.targets {σ : Type} {p : Progress σ} {maxAttempts : Nat}
    (h : p.Each components (Task.Counted maxAttempts components)) :
    p.tasks.map (·.target) = components := by
  refine List.ext_getElem? fun position => ?_
  rw [List.getElem?_map]
  cases ht : p.tasks[position]? with
  | some t => exact ((h.tasks position t ht).target).symm
  | none =>
    rw [List.getElem?_eq_none_iff, h.length] at ht
    exact (List.getElem?_eq_none ht).symm

/-- A task that has ended has used an attempt, and no more than there are. -/
theorem Task.Counted.of_ended {position : Nat} {t : Task} {requests : List Asked}
    (h : t.Counted policy.maxAttempts components position requests) (hended : t.due? = none) :
    ∃ used, 1 ≤ used ∧ used ≤ policy.maxAttempts ∧
      requests.map (·.request.attempt) = List.range' 1 used ∧
      t.budget policy.maxAttempts ≤ policy.maxAttempts - 1 ∧
      ∀ d, t.outcome = .ok d → d.attempts = used := by
  obtain ⟨used, hused, hrequests⟩ := h.attempts
  cases hphase : t.phase with
  | asking => simp [Task.due?, hphase] at hended
  | ended outcome time =>
    rw [hphase] at hused
    cases outcome with
    | error e =>
      obtain ⟨hpos, hle⟩ := hused
      exact ⟨used, hpos, hle, hrequests, by simp [Task.budget, hphase],
        by simp [Task.outcome, hphase]⟩
    | ok d =>
      obtain ⟨hd, hpos, hle⟩ := hused
      refine ⟨used, hpos, hle, hrequests, ?_, ?_⟩
      · simp only [Task.budget, hphase]
        omega
      · simp only [Task.outcome, hphase, Except.ok.injEq]
        rintro _ rfl
        exact hd

theorem totalBudget_le {maxAttempts bound : Nat} {tasks : List Task}
    (h : ∀ t ∈ tasks, t.budget maxAttempts ≤ bound) :
    totalBudget maxAttempts tasks ≤ tasks.length * bound := by
  induction tasks with
  | nil => simp [totalBudget]
  | cons t tasks ih =>
    obtain ⟨ht, htasks⟩ := List.forall_mem_cons.mp h
    have hrest := ih htasks
    rw [totalBudget, List.length_cons, Nat.succ_mul]
    omega

/-- Generation ends after finitely many rounds, and the requests for the component at each position
carry the attempts from one up to some number that the policy allows. -/
theorem attempts_of_generateAll {σ : Type} (producer : Producer σ) (policy : RetryPolicy)
    (context : String) (components : List Component) (state : σ) :
    ∃ n final, Rounds producer policy context components n
        (firstRound producer policy context components state) final ∧
      n ≤ components.length * (policy.maxAttempts - 1) ∧
      nextRound producer policy context components final = none ∧
      (generateAll producer policy context components state).2 = final.asked ∧
      (∀ a ∈ final.asked, components[a.position]? = some a.request.target) ∧
      ∀ position < components.length, ∃ k, 1 ≤ k ∧ k ≤ policy.maxAttempts ∧
        (requestsAt position final.asked).map (·.request.attempt) = List.range' 1 k := by
  obtain ⟨n, final, hrounds, hn, hend, hreport⟩ :=
    exists_rounds_generateAll producer policy context components state
  have hfirst : (firstRound producer policy context components state).Each components
      (Task.Counted policy.maxAttempts components) := counted_invariant.firstRound state
  have hfinal := counted_invariant.rounds hrounds hfirst
  refine ⟨n, final, hrounds, Nat.le_trans hn ?_, hend, by rw [hreport], ?_, ?_⟩
  · rw [← hfirst.length]
    refine totalBudget_le fun t ht => ?_
    obtain ⟨position, hposition⟩ := List.getElem?_of_mem ht
    obtain ⟨_, -, -, -, hbudget, -⟩ :=
      (hfirst.tasks position t hposition).of_ended (due?_of_mem_run ht)
    exact hbudget
  · intro a ha
    have hlt : a.position < final.tasks.length := hfinal.length ▸ hfinal.asked a ha
    have hcounted := hfinal.tasks _ _ (List.getElem?_eq_getElem hlt)
    rw [hcounted.target, hcounted.asked a (List.mem_filter.mpr ⟨ha, by simp⟩)]
  · intro position hposition
    have hlt : position < final.tasks.length := hfinal.length ▸ hposition
    obtain ⟨used, hpos, hle, hrequests, -⟩ :=
      (hfinal.tasks _ _ (List.getElem?_eq_getElem hlt)).of_ended
        (due?_of_rounds hrounds _ (List.getElem_mem hlt))
    exact ⟨used, hpos, hle, hrequests⟩

end SchemaGate
