import SchemaGate.Proofs.Generation.Steps
import SchemaGate.Proofs.Paired

/-!
# What holds of every task

A step changes one task and adds one request to those it made, and a further round starts with
every task as it ended or asking again. So what holds of a task and its requests when it starts,
and is kept by a reply and by asking again, holds of every task when the whole is judged
(`TaskInvariant.exists_final`), whatever the other tasks do.
-/

namespace SchemaGate

/-- The requests of the task at a position, in the order in which they were made. -/
def requestsAt (position : Nat) (asked : List Asked) : List Asked :=
  asked.filter (·.position = position)

/-- What holds of the task at a position and the requests it made, from its start on. -/
structure TaskInvariant (policy : RetryPolicy) (context : String) (components : List Component)
    (Q : Nat → Task → List Asked → Prop) : Prop where
  start : ∀ position target, components[position]? = some target →
    Q position (startTask components 0 target) []
  reply : ∀ position t attempt feedback due response requests,
    t.phase = .asking attempt feedback due → Q position t requests →
      Q position { t with phase := t.next policy attempt feedback due response }
        (requests ++ [⟨position, t.request context attempt feedback, due⟩])
  retry : ∀ position violations time t u requests, Retried policy violations time t u →
    Q position t requests → Q position u requests

/-- Every component has a task, of which `Q` holds, and all requests were made by these tasks. -/
structure Progress.Each {σ : Type} (components : List Component)
    (Q : Nat → Task → List Asked → Prop) (p : Progress σ) : Prop where
  length : p.tasks.length = components.length
  tasks : ∀ position t, p.tasks[position]? = some t → Q position t (requestsAt position p.asked)
  asked : ∀ a ∈ p.asked, a.position < components.length

section

variable {σ : Type} {producer : Producer σ} {policy : RetryPolicy} {context : String}
  {components : List Component} {Q : Nat → Task → List Asked → Prop}

namespace Progress.Each

variable {p q : Progress σ}

theorem start (hQ : TaskInvariant policy context components Q) (state : σ) :
    Each components Q { tasks := components.map (startTask components 0), state } where
  length := List.length_map _
  tasks := by
    intro position t ht
    rw [List.getElem?_map, Option.map_eq_some_iff] at ht
    obtain ⟨target, htarget, rfl⟩ := ht
    exact hQ.start position target htarget
  asked := by simp

theorem step (hQ : TaskInvariant policy context components Q) {position : Nat}
    (hstep : SchemaGate.step producer policy context p position = some q)
    (h : p.Each components Q) : q.Each components Q := by
  obtain ⟨t, attempt, feedback, due, ht, hphase, rfl⟩ := step_cases hstep
  have hposition : position < p.tasks.length := (List.getElem?_eq_some_iff.mp ht).1
  refine ⟨(List.length_set ..).trans h.length, fun place u hu => ?_, fun a ha => ?_⟩
  · dsimp only at hu ⊢
    rw [List.getElem?_set] at hu
    rw [requestsAt, List.filter_append]
    by_cases hplace : position = place
    -- the task that took the step, with one more request
    · subst hplace
      rw [if_pos rfl, if_pos hposition] at hu
      obtain rfl := Option.some.inj hu
      rw [List.filter_cons_of_pos (by simp), List.filter_nil]
      exact hQ.reply _ _ _ _ _ _ _ hphase (h.tasks position t ht)
    -- any other task, whose requests are as they were
    · rw [if_neg hplace] at hu
      rw [List.filter_cons_of_neg (by simpa using hplace), List.filter_nil, List.append_nil]
      exact h.tasks place u hu
  · rcases List.mem_append.mp ha with ha | ha
    · exact h.asked a ha
    · rw [List.mem_singleton.mp ha, ← h.length]
      exact hposition

theorem run (hQ : TaskInvariant policy context components Q) {schedule : Schedule}
    (h : p.Each components Q) :
    (SchemaGate.run producer policy context schedule p).Each components Q :=
  run_invariant (fun _ _ _ hstep h => h.step hQ hstep) h

theorem retry (hQ : TaskInvariant policy context components Q) {violations : List Violation}
    {time : Nat} {tasks : List Task}
    (htasks : List.Forall₂ (Retried policy violations time) p.tasks tasks)
    (h : p.Each components Q) : Each components Q { p with tasks } where
  length := htasks.length_eq.symm.trans h.length
  tasks := by
    intro position u hu
    obtain ⟨t, ht, hretried⟩ := forall₂_getElem? htasks hu
    exact hQ.retry _ _ _ _ _ _ hretried (h.tasks position t ht)
  asked := h.asked

end Progress.Each

/-- The progress after the first round. -/
def firstRound (producer : Producer σ) (policy : RetryPolicy) (context : String)
    (components : List Component) (state : σ) : Progress σ :=
  run producer policy context byClock
    { tasks := components.map (startTask components 0), state }

/-- What holds of each task holds at the end of the first round and of those that follow. -/
theorem TaskInvariant.firstRound (hQ : TaskInvariant policy context components Q) (state : σ) :
    (firstRound producer policy context components state).Each components Q :=
  (Progress.Each.start hQ state).run hQ

theorem TaskInvariant.rounds (hQ : TaskInvariant policy context components Q) {n : Nat}
    {p q : Progress σ} (hrounds : Rounds producer policy context components n p q)
    (h : p.Each components Q) : q.Each components Q := by
  refine hrounds.invariant (P := fun p => p.Each components Q) (fun p violations h => ?_) h
  exact (h.retry hQ (forall₂_planRetries policy violations (roundEnd p.tasks) [] p.tasks)).run hQ

/-- When the whole is judged every task has ended. -/
theorem due?_of_rounds {state : σ} {n : Nat} {q : Progress σ}
    (hrounds : Rounds producer policy context components n
      (firstRound producer policy context components state) q) : ∀ t ∈ q.tasks, t.due? = none :=
  hrounds.invariant (P := fun p => ∀ t ∈ p.tasks, t.due? = none)
    (fun _ _ _ _ ht => due?_of_mem_run ht) fun _ ht => due?_of_mem_run ht

/-- The report is that of the progress that the rounds end in. -/
theorem exists_rounds_generateAll (producer : Producer σ) (policy : RetryPolicy) (context : String)
    (components : List Component) (state : σ) :
    ∃ n final, Rounds producer policy context components n
        (firstRound producer policy context components state) final ∧
      n ≤ totalBudget policy.maxAttempts
        (firstRound producer policy context components state).tasks ∧
      nextRound producer policy context components final = none ∧
      generateAll producer policy context components state =
        (reportOf components final, final.asked) := by
  obtain ⟨n, final, hrounds, hn, hend, hassemble⟩ := exists_rounds_assemble
    (firstRound producer policy context components state)
  refine ⟨n, final, hrounds, hn, hend, ?_⟩
  unfold firstRound at hassemble
  rw [generateAll, hassemble]
  rfl

end

end SchemaGate
