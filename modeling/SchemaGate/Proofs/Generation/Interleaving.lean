import Mathlib.Logic.Relation
import SchemaGate.Proofs.Generation.Report
import SchemaGate.Proofs.Validation.Isolation

/-!
# Tasks do not disturb each other

In a round the tasks take their steps in some order and share nothing but the producer. Where the
producer answers the requests for a component by what they say alone, the task of that component
goes through the phases that these answers lead to (`Task.Advances`), in whatever order the others
take their steps and whatever they are told, and each phase leaves one way to go. So a round that has
ended has at its position what comes of the component asked for alone (`outcome_of_interleaved`).
-/

open Relation (ReflTransGen)

namespace SchemaGate

/-! ### A round in any order -/

section

variable {σ : Type}

/-- The tasks of a first round before any of them has asked. -/
def freshRound (components : List Component) (state : σ) : Progress σ :=
  { tasks := components.map (startTask components 0), state }

/-- One progress is reached from another by steps of its tasks, in any order. -/
def Interleaved (producer : Producer σ) (policy : RetryPolicy) (context : String) :
    Progress σ → Progress σ → Prop :=
  ReflTransGen fun p q => ∃ position, step producer policy context p position = some q

/-- Every task has ended. -/
def Progress.Ended (p : Progress σ) : Prop := ∀ t ∈ p.tasks, t.due? = none

/-- What a producer does with a request for a component is a function of the request. -/
def Producer.Answers (producer : Producer σ) (c : Component) (response : Request → Response) :
    Prop :=
  ∀ state request, request.target = c → (producer.answer state request).1 = response request

variable {producer : Producer σ} {policy : RetryPolicy} {context : String}

theorem interleaved_run (schedule : Schedule) (p : Progress σ) :
    Interleaved producer policy context p (run producer policy context schedule p) :=
  run_invariant (P := Interleaved producer policy context p)
    (fun _ position _ hstep h => h.tail ⟨position, hstep⟩) ReflTransGen.refl

theorem ended_run (p : Progress σ) : (run producer policy context byClock p).Ended :=
  fun _ => due?_of_mem_run

end

/-! ### One task -/

/-- A task goes on with the answer to its request. -/
def Task.Advances (policy : RetryPolicy) (context : String) (response : Request → Response)
    (t u : Task) : Prop :=
  ∃ attempt feedback due, t.phase = .asking attempt feedback due ∧
    u = { t with phase := t.next policy attempt feedback due
                  (response (t.request context attempt feedback)) }

section

variable {policy : RetryPolicy} {context : String} {response : Request → Response} {t u v : Task}

theorem rightUnique_advances : Relator.RightUnique (Task.Advances policy context response) := by
  rintro t u v ⟨attempt, feedback, due, hphase, rfl⟩ ⟨attempt', feedback', due', hphase', rfl⟩
  obtain ⟨rfl, rfl, rfl⟩ := Phase.asking.inj (hphase.symm.trans hphase')
  rfl

theorem not_advances_of_ended (h : t.due? = none) : ¬ t.Advances policy context response u := by
  rintro ⟨attempt, feedback, due, hphase, -⟩
  simp [Task.due?, hphase] at h

/-- From one task there is one end. -/
theorem eq_of_advances (hu : ReflTransGen (Task.Advances policy context response) t u)
    (hv : ReflTransGen (Task.Advances policy context response) t v) (hended : u.due? = none)
    (hended' : v.due? = none) : u = v := by
  have hstay : ∀ {s s' : Task}, ReflTransGen (Task.Advances policy context response) s s' →
      s.due? = none → s = s' := by
    intro s s' hs hdue
    rcases hs.cases_head with rfl | ⟨_, hnext, -⟩
    · rfl
    · exact absurd hnext (not_advances_of_ended hdue)
  rcases ReflTransGen.total_of_right_unique rightUnique_advances hu hv with huv | hvu
  · exact hstay huv hended
  · exact (hstay hvu hended').symm

end

/-! ### A task among others -/

section

variable {σ : Type} {producer : Producer σ} {policy : RetryPolicy} {context : String}
  {response : Request → Response} {c : Component} {p q : Progress σ} {position : Nat} {t : Task}

/-- In any order of the steps, a task advances by the answers to its own requests. -/
theorem advances_of_interleaved (hanswers : producer.Answers c response)
    (ht : p.tasks[position]? = some t) (htarget : t.target = c)
    (h : Interleaved producer policy context p q) :
    ∃ u, q.tasks[position]? = some u ∧ u.target = c ∧
      ReflTransGen (Task.Advances policy context response) t u := by
  induction h with
  | refl => exact ⟨t, ht, htarget, .refl⟩
  | @tail q r _ hstep ih =>
    obtain ⟨u, hu, hsame, hadvances⟩ := ih
    obtain ⟨place, hstep⟩ := hstep
    obtain ⟨w, attempt, feedback, due, hw, hphase, rfl⟩ := step_cases hstep
    by_cases hplace : place = position
    -- its own step, on the answer to its own request
    · subst hplace
      obtain rfl : w = u := Option.some.inj (hw.symm.trans hu)
      have hanswer := hanswers q.state (w.request context attempt feedback) hsame
      have hlt : place < q.tasks.length := (List.getElem?_eq_some_iff.mp hw).1
      refine ⟨_, List.getElem?_set_self hlt, hsame,
        hadvances.tail ⟨attempt, feedback, due, hphase, ?_⟩⟩
      rw [hanswer]
    -- a step of another task
    · refine ⟨u, ?_, hsame, hadvances⟩
      rw [← hu]
      exact List.getElem?_set_ne hplace

/-- Where a round has ended, each of its tasks has advanced to its end. -/
theorem exists_end_of_interleaved {components : List Component} {state : σ}
    (hanswers : producer.Answers c response) (hc : components[position]? = some c)
    (h : Interleaved producer policy context (freshRound components state) q) (hended : q.Ended) :
    ∃ u, q.tasks[position]? = some u ∧ u.target = c ∧ u.due? = none ∧
      ReflTransGen (Task.Advances policy context response) (startTask components 0 c) u := by
  have hstart : (freshRound components state).tasks[position]? = some (startTask components 0 c) := by
    rw [freshRound, List.getElem?_map, hc]
    rfl
  obtain ⟨u, hu, htarget, hadvances⟩ := advances_of_interleaved hanswers hstart rfl h
  exact ⟨u, hu, htarget, hended u (List.mem_of_getElem? hu), hadvances⟩

/-- A component asked for alone has the task that it has in a round. -/
theorem exists_end_of_generateComponent (hanswers : producer.Answers c response)
    (policy : RetryPolicy) (context : String) (components : List Component) (state : σ) :
    ∃ u, u.due? = none ∧
      ReflTransGen (Task.Advances policy context response) (startTask components 0 c) u ∧
      (generateComponent producer policy context components c state).1 = u.outcome := by
  let start : Progress σ := { tasks := [startTask components 0 c], state }
  have hrun : Interleaved producer policy context start (run producer policy context byClock start) :=
    interleaved_run byClock start
  have hstart : start.tasks[0]? = some (startTask components 0 c) := rfl
  obtain ⟨u, hu, -, hadvances⟩ := advances_of_interleaved hanswers hstart rfl hrun
  refine ⟨u, ended_run start u (List.mem_of_getElem? hu), hadvances, ?_⟩
  rw [← List.head?_eq_getElem?] at hu
  simp only [generateComponent]
  rw [hu]
  rfl

end

/-! ### Rounds that fail -/

/-- Where a component has failed there is no further round. -/
theorem assemble_of_failed {σ : Type} (producer : Producer σ) (policy : RetryPolicy)
    (context : String) (components : List Component) {p : Progress σ}
    (hfailed : ∃ t ∈ p.tasks, ∃ e, t.outcome = .error e) :
    assemble producer policy context components p = (.incomplete, p) := by
  have hnone : assembled? p.tasks = none := by
    obtain ⟨t, ht, e, he⟩ := hfailed
    by_contra hsome
    obtain ⟨files, hfiles⟩ := Option.ne_none_iff_exists'.mp hsome
    obtain ⟨d, hd⟩ := exists_delivery_of_assembled? hfiles ht
    rw [hd] at he
    cases he
  rw [assemble]
  split
  · rfl
  · next hfiles =>
    rw [hnone] at hfiles
    cases hfiles

theorem outcomes_reportOf_getElem? {σ : Type} {components : List Component} {p : Progress σ}
    {position : Nat} {t : Task} (ht : p.tasks[position]? = some t) :
    (reportOf components p).outcomes[position]? = some (t.target, t.outcome.map (·.file)) := by
  rw [reportOf, List.getElem?_map, ht]
  rfl

/-- In whatever order its tasks take their steps a first round goes on to an end, and once it has
ended this is the outcome at a position. -/
def RoundSettles {σ : Type} (producer : Producer σ) (policy : RetryPolicy) (context : String)
    (components : List Component) (state : σ) (position : Nat) (outcome : Outcome) : Prop :=
  ∀ q, Interleaved producer policy context (freshRound components state) q →
    (∃ r, Interleaved producer policy context q r ∧ r.Ended) ∧
      (q.Ended → (q.tasks[position]?).map (·.outcome) = some outcome)

section

variable {σ : Type} {producer : Producer σ} {response : Request → Response} {c : Component}
  {components : List Component} {position : Nat}

/-- A round settles on the end that a task of its component advances to. -/
theorem roundSettles_of_advances (hanswers : producer.Answers c response)
    (hc : components[position]? = some c) {policy : RetryPolicy} {context : String} {u : Task}
    (hended : u.due? = none)
    (hadvances : ReflTransGen (Task.Advances policy context response)
      (startTask components 0 c) u) (state : σ) :
    RoundSettles producer policy context components state position u.outcome := by
  refine fun q hq => ⟨⟨_, interleaved_run byClock q, ended_run q⟩, fun hqEnded => ?_⟩
  obtain ⟨v, hv, -, hvEnded, hvAdvances⟩ := exists_end_of_interleaved hanswers hc hq hqEnded
  rw [hv, eq_of_advances hadvances hvAdvances hended hvEnded]
  rfl

/-- A round that has ended reports what comes of its component asked for alone. -/
theorem outcomes_reportOf_of_interleaved (hanswers : producer.Answers c response)
    (hc : components[position]? = some c) {policy : RetryPolicy} {context : String} {state : σ}
    {q : Progress σ} (hq : Interleaved producer policy context (freshRound components state) q)
    (hended : q.Ended) (alone : σ) :
    (reportOf components q).outcomes[position]? = some (c,
      (generateComponent producer policy context components c alone).1.map (·.file)) := by
  obtain ⟨u, hu, htarget, huEnded, huAdvances⟩ := exists_end_of_interleaved hanswers hc hq hended
  obtain ⟨v, hvEnded, hvAdvances, houtcome⟩ :=
    exists_end_of_generateComponent hanswers policy context components alone
  obtain rfl := eq_of_advances huAdvances hvAdvances huEnded hvEnded
  rw [outcomes_reportOf_getElem? hu, htarget, houtcome]

end

/-- Components do not interfere within a round. Two producers that answer the requests for a
component alike, by a function of the request, leave the same outcome at its position, whatever they
do with other requests and in whatever order the tasks take their steps. Where some component fails
in the first round generation ends there, and what is reported at that position is what comes of the
component asked for alone. -/
theorem outcome_of_interleaved {components : List Component} {position : Nat} {c : Component}
    (hc : components[position]? = some c) (policy : RetryPolicy) (context : String)
    {response : Request → Response} {σ τ : Type} {producer : Producer σ} {other : Producer τ}
    (h : producer.Answers c response) (h' : other.Answers c response) (state : σ) (state' : τ) :
    (∃ outcome, RoundSettles producer policy context components state position outcome ∧
      RoundSettles other policy context components state' position outcome) ∧
    (∀ q, Interleaved producer policy context (freshRound components state) q → q.Ended →
      (∃ t ∈ q.tasks, ∃ e, t.outcome = .error e) → ∀ alone,
        assemble producer policy context components q = (.incomplete, q) ∧
        (reportOf components q).outcomes[position]? = some (c,
          (generateComponent producer policy context components c alone).1.map (·.file))) ∧
    ((∃ t ∈ (firstRound producer policy context components state).tasks, ∃ e,
        t.outcome = .error e) → ∀ alone,
      (generateAll producer policy context components state).1.outcomes[position]? = some (c,
        (generateComponent producer policy context components c alone).1.map (·.file))) := by
  refine ⟨?_, fun q hq hended hfailed alone => ⟨?_, ?_⟩, fun hfailed alone => ?_⟩
  · obtain ⟨u, hended, hadvances, -⟩ :=
      exists_end_of_generateComponent h policy context components state
    exact ⟨u.outcome, roundSettles_of_advances h hc hended hadvances state,
      roundSettles_of_advances h' hc hended hadvances state'⟩
  · exact assemble_of_failed producer policy context components hfailed
  · exact outcomes_reportOf_of_interleaved h hc hq hended alone
  · have hround : Interleaved producer policy context (freshRound components state)
        (firstRound producer policy context components state) := interleaved_run byClock _
    have hended : (firstRound producer policy context components state).Ended := ended_run _
    have hassemble := assemble_of_failed producer policy context components hfailed
    have hreport : (generateAll producer policy context components state).1.outcomes =
        (reportOf components (firstRound producer policy context components state)).outcomes := by
      unfold firstRound at hassemble ⊢
      rw [generateAll, hassemble]
      rfl
    rw [hreport, outcomes_reportOf_of_interleaved h hc hround hended alone]

/-- What the users' task is told: nothing in time at first, and then a candidate. -/
def lateAnswer (request : Request) : Response :=
  if request.attempt = 1 then .never
  else .after 5 (.candidate (pointingFile userComponent "user" "team" none).models)

/-- The producer that answers late for the users, and does elsewhere as it is told. -/
def lateProducer (elsewhere : Response) : Producer Unit where
  answer _ request :=
    (if request.target = userComponent then lateAnswer request else elsewhere, ())

/-- The users have the same outcome whether the teams' task is cancelled or refused, and it is the
one that they have alone. -/
theorem outcome_of_interleaved_late :
    [userComponent, teamComponent][0]? = some userComponent ∧
    (∀ elsewhere, (lateProducer elsewhere).Answers userComponent lateAnswer) ∧
    (∃ outcome,
      RoundSettles (lateProducer (.after 9 .panic)) {} "" [userComponent, teamComponent] () 0
        outcome ∧
      RoundSettles (lateProducer (.after 0 (.error (.rejected "no")))) {} ""
        [userComponent, teamComponent] () 0 outcome) ∧
    (generateAll (lateProducer (.after 9 .panic)) {} "" [userComponent, teamComponent]
        ()).1.outcomes[0]? = some (userComponent,
      (generateComponent (lateProducer (.after 9 .panic)) {} "" [userComponent, teamComponent]
        userComponent ()).1.map (·.file)) := by
  have hanswers : ∀ elsewhere, (lateProducer elsewhere).Answers userComponent lateAnswer := by
    intro elsewhere _ request htarget
    exact if_pos htarget
  have hfailed : ((firstRound (lateProducer (.after 9 .panic)) {} ""
      [userComponent, teamComponent] ()).tasks.any fun t => !t.outcome.isOk) = true := by
    decide +kernel
  have hposition : [userComponent, teamComponent][0]? = some userComponent := rfl
  obtain ⟨hsame, -, halone⟩ := outcome_of_interleaved hposition {} ""
    (hanswers (.after 9 .panic)) (hanswers (.after 0 (.error (.rejected "no")))) () ()
  refine ⟨hposition, hanswers, hsame, halone ?_ ()⟩
  obtain ⟨t, ht, hnot⟩ := List.any_eq_true.mp hfailed
  cases houtcome : t.outcome with
  | ok d => simp [houtcome, Except.isOk, Except.toBool] at hnot
  | error e => exact ⟨t, ht, e, houtcome⟩

end SchemaGate
