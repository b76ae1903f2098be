import Mathlib.Data.List.Nodup
import SchemaGate.Proofs.Generation.Interleaving

/-!
# Where feedback comes from

A run is told by its events: the requests with the replies that came in time, and the wholes that
were rejected (`History`, which leaves the order of the tasks' steps open). Every request carries the
violations of the most recent candidate for its component: those it has by itself, or where it has
none those that the last rejected whole shows at the component's file (`Feedback`). What failed in
between leaves no trace, and there is no feedback before the first candidate
(`feedback_of_generateAll`).

The invariant is on the tasks (`Task.Fed`): one that asks holds the feedback of the events so far,
and one that has delivered remembers the candidate that came last. A further round turns the second
into the first.
-/

namespace SchemaGate

/-- What happens in a run. -/
inductive Event where
  /-- A request, with what came of it in the time allowed. -/
  | answered (asked : Asked) (reply : Reply)
  /-- The files of all components together were rejected, and some component is asked again. -/
  | rejected (files : List SchemaFile)

/-! ### What events tell of a component -/

/-- The request of an event. -/
def Event.asked? : Event → Option Asked
  | answered asked _ => some asked
  | rejected _ => none

/-- A request for a component, with what came of it. -/
def Event.answer? (c : Component) : Event → Option (Asked × Reply)
  | answered asked reply => if asked.request.target = c then some (asked, reply) else none
  | rejected _ => none

/-- The candidate that a request for a component was answered with. -/
def Event.candidate? (c : Component) : Event → Option (List Model)
  | answered asked (.candidate models) => if asked.request.target = c then some models else none
  | _ => none

/-- The files that were rejected together. -/
def Event.whole? : Event → Option (List SchemaFile)
  | rejected files => some files
  | answered .. => none

/-- The last request for a component and what came of it. -/
def latestAnswer? (c : Component) (events : List Event) : Option (Asked × Reply) :=
  (events.filterMap (Event.answer? c)).getLast?

/-- The most recent candidate for a component. -/
def latestCandidate? (c : Component) (events : List Event) : Option (List Model) :=
  (events.filterMap (Event.candidate? c)).getLast?

/-- The files that were last rejected together. -/
def latestWhole? (events : List Event) : Option (List SchemaFile) :=
  (events.filterMap Event.whole?).getLast?

/-- The violations of the most recent candidate for a component. -/
inductive Feedback (components : List Component) (c : Component) (events : List Event) :
    List Violation → Prop
  /-- There has been no candidate. -/
  | absent (hnone : latestCandidate? c events = none) : Feedback components c events []
  /-- The candidate was rejected by itself. -/
  | isolated {models : List Model} (hcandidate : latestCandidate? c events = some models)
      (hrejected : isolatedViolations c (othersOf c components) models ≠ []) :
    Feedback components c events (isolatedViolations c (othersOf c components) models)
  /-- The candidate was accepted by itself, and the last whole, which it is part of, shows violations
  at its file. -/
  | assembled {models : List Model} {files : List SchemaFile}
      (hcandidate : latestCandidate? c events = some models)
      (haccepted : isolatedViolations c (othersOf c components) models = [])
      (hwhole : latestWhole? events = some files) (hpart : .ofComponent c models ∈ files)
      (hnamed : violationsAt c.filename (Scope.violations ⟨components, []⟩ ⟨files⟩) ≠ []) :
    Feedback components c events
      (violationsAt c.filename (Scope.violations ⟨components, []⟩ ⟨files⟩))

section

variable {components : List Component} {c : Component} {events : List Event}

theorem Feedback.eq_nil_iff {violations : List Violation}
    (h : Feedback components c events violations) :
    violations = [] ↔ latestCandidate? c events = none := by
  cases h with
  | absent hnone => simp [hnone]
  | isolated hcandidate hrejected => simp [hcandidate, hrejected]
  | assembled hcandidate _ _ _ hnamed => simp [hcandidate, hnamed]

/-- Feedback is told by the last candidate and the last whole. -/
theorem Feedback.congr {violations : List Violation} (h : Feedback components c events violations)
    {others : List Event} (hcandidate : latestCandidate? c others = latestCandidate? c events)
    (hwhole : latestWhole? others = latestWhole? events) :
    Feedback components c others violations := by
  cases h with
  | absent hnone => exact .absent (hcandidate.trans hnone)
  | isolated hsome hrejected => exact .isolated (hcandidate.trans hsome) hrejected
  | assembled hsome haccepted hfiles hpart hnamed =>
    exact .assembled (hcandidate.trans hsome) haccepted (hwhole.trans hfiles) hpart hnamed

theorem getLast?_filterMap_append_of_none {β : Type} {read : Event → Option β} {e : Event}
    (h : read e = none) :
    ((events ++ [e]).filterMap read).getLast? = (events.filterMap read).getLast? := by
  rw [List.filterMap_append, List.filterMap_cons_none h, List.filterMap_nil, List.append_nil]

theorem getLast?_filterMap_append_of_some {β : Type} {read : Event → Option β} {e : Event} {b : β}
    (h : read e = some b) : ((events ++ [e]).filterMap read).getLast? = some b := by
  rw [List.filterMap_append, List.filterMap_cons_some h, List.filterMap_nil, List.getLast?_concat]

end

/-! ### The events of a run -/

section

variable {σ : Type} (producer : Producer σ) (policy : RetryPolicy) (context : String)
  (components : List Component) (state : σ)

/-- The events up to a progress. Steps are taken in any order; a further round starts where the files
of all components are rejected together and one of them can be asked again. -/
inductive History : List Event → Progress σ → Prop
  | start : History [] (freshRound components state)
  | answer {events : List Event} {p q : Progress σ} {position : Nat} {asked : Asked}
      (hbefore : History events p) (hstep : step producer policy context p position = some q)
      (hasked : q.asked = p.asked ++ [asked]) :
    History (events ++ [.answered asked
      (settle policy.timeoutMs (producer.answer p.state asked.request).1).2]) q
  | retry {events : List Event} {p : Progress σ} {files : List SchemaFile} {tasks : List Task}
      (hbefore : History events p) (hfiles : assembled? p.tasks = some files)
      (hretries : retries? policy components p = some tasks) :
    History (events ++ [.rejected files]) { p with tasks }

variable {producer policy context components state} {p : Progress σ}

/-- A run of steps has a history, which tells its requests. -/
theorem exists_history_run (schedule : Schedule)
    (h : ∃ events, History producer policy context components state events p ∧
      p.asked = events.filterMap Event.asked?) :
    ∃ events, History producer policy context components state events
        (run producer policy context schedule p) ∧
      (run producer policy context schedule p).asked = events.filterMap Event.asked? := by
  refine run_invariant (P := fun p => ∃ events,
    History producer policy context components state events p ∧
      p.asked = events.filterMap Event.asked?) ?_ h
  rintro p position q hstep ⟨events, hhistory, hasked⟩
  obtain ⟨t, attempt, feedback, due, -, -, rfl⟩ := step_cases hstep
  refine ⟨_, hhistory.answer hstep rfl, ?_⟩
  rw [List.filterMap_append, ← hasked]
  rfl

theorem files_of_retries? {tasks : List Task} (h : retries? policy components p = some tasks) :
    ∃ files violations, assembled? p.tasks = some files ∧
      Scope.violations ⟨components, []⟩ ⟨files⟩ = violations ∧
      tasks = planRetries policy violations (roundEnd p.tasks) [] p.tasks := by
  have hspec := verdict_spec components p
  unfold retries? at h
  split at h
  · next violations hverdict =>
    rw [hverdict] at hspec
    obtain ⟨files, hfiles, hvalidate⟩ := hspec
    dsimp only at h
    split at h
    · exact ⟨files, violations, hfiles, (Scope.violations_of_validate hvalidate).1,
        (Option.some.inj h).symm⟩
    · cases h
  · cases h

theorem exists_history_rounds {n : Nat} {q : Progress σ}
    (hrounds : Rounds producer policy context components n p q)
    (h : ∃ events, History producer policy context components state events p ∧
      p.asked = events.filterMap Event.asked?) :
    ∃ events, History producer policy context components state events q ∧
      q.asked = events.filterMap Event.asked? := by
  induction hrounds with
  | nil p => exact h
  | cons hfirst _ ih =>
    obtain ⟨tasks, hretries, rfl⟩ := Option.map_eq_some_iff.mp hfirst
    obtain ⟨events, hhistory, hasked⟩ := h
    obtain ⟨files, -, hfiles, -⟩ := files_of_retries? hretries
    refine ih (exists_history_run byClock ⟨_, hhistory.retry hfiles hretries, ?_⟩)
    rw [List.filterMap_append, ← hasked]
    exact (List.append_nil _).symm

end

/-! ### What tasks remember -/

/-- A task that asks holds the feedback of the events so far, which a failure leaves as it was, and
one that has delivered remembers the candidate that came last. -/
structure Task.Fed (components : List Component) (events : List Event) (t : Task) : Prop where
  others : t.others = othersOf t.target components
  asking : ∀ attempt feedback due, t.phase = .asking attempt feedback due →
    Feedback components t.target events feedback ∧
      ∀ b e, latestAnswer? t.target events = some (b, .error e) → feedback = b.request.feedback
  delivered : ∀ d, t.outcome = .ok d → ∃ b models,
    latestAnswer? t.target events = some (b, .candidate models) ∧
      latestCandidate? t.target events = some models ∧
      d.file = .ofComponent t.target models ∧
      isolatedViolations t.target (othersOf t.target components) models = []

/-- A request holds the feedback of the events before it, as that stood before a failure. -/
def Asked.Fed (components : List Component) (before : List Event) (a : Asked) : Prop :=
  Feedback components a.request.target before a.request.feedback ∧
    ∀ b e, latestAnswer? a.request.target before = some (b, .error e) →
      a.request.feedback = b.request.feedback

variable {components : List Component} {events : List Event}

/-- What happens to others leaves a task as it is. -/
theorem Task.Fed.other {t : Task} (h : t.Fed components events) {a : Asked} {reply : Reply}
    (hother : a.request.target ≠ t.target) : t.Fed components (events ++ [.answered a reply]) := by
  have hcandidate : latestCandidate? t.target (events ++ [.answered a reply]) =
      latestCandidate? t.target events := by
    refine getLast?_filterMap_append_of_none ?_
    cases reply <;> simp [Event.candidate?, hother]
  have hanswer : latestAnswer? t.target (events ++ [.answered a reply]) =
      latestAnswer? t.target events :=
    getLast?_filterMap_append_of_none (by simp [Event.answer?, hother])
  have hwhole : latestWhole? (events ++ [.answered a reply]) = latestWhole? events :=
    getLast?_filterMap_append_of_none rfl
  refine ⟨h.others, fun attempt feedback due hphase => ?_, fun d hd => ?_⟩
  · obtain ⟨hfeedback, hsteady⟩ := h.asking attempt feedback due hphase
    exact ⟨hfeedback.congr hcandidate hwhole, hanswer ▸ hsteady⟩
  · rw [hanswer, hcandidate]
    exact h.delivered d hd

/-- A reply leaves a task with the feedback of the candidate it brings, or else with what it had. -/
theorem Task.Fed.reply {t : Task} (h : t.Fed components events) {policy : RetryPolicy} {attempt : Nat}
    {feedback : List Violation} {due : Nat} (hphase : t.phase = .asking attempt feedback due)
    {a : Asked} (htarget : a.request.target = t.target) (hfeedback : a.request.feedback = feedback)
    (response : Response) :
    Task.Fed components
      (events ++ [.answered a (settle policy.timeoutMs response).2])
      { t with phase := t.next policy attempt feedback due response } := by
  obtain ⟨hfed, -⟩ := h.asking attempt feedback due hphase
  obtain ⟨v, hjudged, hnext⟩ := t.exists_judged_next policy attempt feedback due response
  rw [hnext]
  generalize (settle policy.timeoutMs response).2 = reply at hjudged ⊢
  have hanswer : latestAnswer? t.target (events ++ [.answered a reply]) = some (a, reply) :=
    getLast?_filterMap_append_of_some (if_pos htarget)
  have hwhole : latestWhole? (events ++ [.answered a reply]) = latestWhole? events :=
    getLast?_filterMap_append_of_none rfl
  have hcandidate : ∀ models, reply = .candidate models →
      latestCandidate? t.target (events ++ [.answered a reply]) = some models := by
    rintro models rfl
    exact getLast?_filterMap_append_of_some (if_pos htarget)
  cases hjudged with
  | @retried e _ _ =>
    have hsame : latestCandidate? t.target (events ++ [.answered a (.error e)]) =
        latestCandidate? t.target events := getLast?_filterMap_append_of_none rfl
    refine ⟨h.others, fun _ _ _ hasking => ?_, by simp [Task.outcome]⟩
    obtain ⟨-, rfl, -⟩ := Phase.asking.inj hasking
    refine ⟨hfed.congr hsame hwhole, fun b _ hlatest => ?_⟩
    obtain ⟨rfl, -⟩ := Prod.mk.inj (Option.some.inj (hanswer.symm.trans hlatest))
    exact hfeedback.symm
  | @rejected models hviolations _ =>
    refine ⟨h.others, fun _ _ _ hasking => ?_, by simp [Task.outcome]⟩
    obtain ⟨-, rfl, -⟩ := Phase.asking.inj hasking
    rw [h.others] at hviolations ⊢
    refine ⟨.isolated (hcandidate models rfl) hviolations, fun b _ hlatest => ?_⟩
    cases hanswer.symm.trans hlatest
  | @delivered models haccepted =>
    refine ⟨h.others, by simp, fun d hd => ?_⟩
    obtain rfl := Except.ok.inj hd
    exact ⟨a, models, hanswer, hcandidate models rfl, rfl, h.others ▸ haccepted⟩
  | failed _ => exact ⟨h.others, by simp, by simp [Task.outcome]⟩
  | exhausted _ _ => exact ⟨h.others, by simp, by simp [Task.outcome]⟩
  | cancelled => exact ⟨h.others, by simp, by simp [Task.outcome]⟩

/-- Where the whole is rejected, a task that is asked again has the violations at its file. -/
theorem Task.Fed.retry {t u : Task} (h : t.Fed components events) {policy : RetryPolicy}
    {files : List SchemaFile} {time : Nat}
    (hpart : ∀ d, t.outcome = .ok d → d.file ∈ files) (hdelivered : ∃ d, t.outcome = .ok d)
    (hretried : Retried policy (Scope.violations ⟨components, []⟩ ⟨files⟩) time t u) :
    u.Fed components (events ++ [.rejected files]) := by
  have hanswer : ∀ c, latestAnswer? c (events ++ [.rejected files]) = latestAnswer? c events :=
    fun _ => getLast?_filterMap_append_of_none rfl
  have hcandidate : ∀ c, latestCandidate? c (events ++ [.rejected files]) =
      latestCandidate? c events := fun _ => getLast?_filterMap_append_of_none rfl
  have hwhole : latestWhole? (events ++ [.rejected files]) = some files :=
    getLast?_filterMap_append_of_some rfl
  cases hretried with
  | left =>
    refine ⟨h.others, fun attempt feedback due hphase => ?_, fun d hd => ?_⟩
    · obtain ⟨d, hd⟩ := hdelivered
      simp [Task.outcome, hphase] at hd
    · rw [hanswer, hcandidate]
      exact h.delivered d hd
  | @again d hd hnamed _ =>
    obtain ⟨b, models, hlatest, hmodels, hfile, haccepted⟩ := h.delivered d hd
    refine ⟨h.others, fun _ _ _ hasking => ?_, by simp [Task.outcome]⟩
    obtain ⟨-, rfl, -⟩ := Phase.asking.inj hasking
    refine ⟨.assembled ((hcandidate _).trans hmodels) haccepted hwhole (hfile ▸ hpart d hd) hnamed,
      fun b' e herror => ?_⟩
    rw [hanswer, hlatest] at herror
    cases herror

/-! ### Every event of a history -/

/-- Every task remembers what it is fed with, and so did those that made the requests. -/
structure Progress.Fed {σ : Type} (components : List Component) (events : List Event)
    (p : Progress σ) : Prop where
  tasks : ∀ (position : Nat) (t : Task), p.tasks[position]? = some t →
    components[position]? = some t.target ∧ t.Fed components events
  requests : ∀ x ∈ withEarlier events, ∀ a reply, x.2 = .answered a reply → a.Fed components x.1

section

variable {σ : Type} {producer : Producer σ} {policy : RetryPolicy} {context : String} {state : σ}
  {p q : Progress σ}

theorem fed_freshRound : (freshRound components state).Fed components [] where
  tasks := by
    intro position t ht
    rw [freshRound, List.getElem?_map, Option.map_eq_some_iff] at ht
    obtain ⟨target, htarget, rfl⟩ := ht
    refine ⟨htarget, rfl, fun _ _ _ hasking => ?_, by simp [Task.outcome, startTask]⟩
    obtain ⟨-, rfl, -⟩ := Phase.asking.inj hasking
    exact ⟨.absent rfl, by simp [latestAnswer?]⟩
  requests := by simp [withEarlier]

/-- Distinct filenames tell the tasks of a progress apart by their components. -/
theorem target_ne_of_position_ne (hnames : (components.map (·.filename)).Nodup) {i j : Nat}
    {c d : Component} (hc : components[i]? = some c) (hd : components[j]? = some d) (hne : i ≠ j) :
    c ≠ d := by
  rintro rfl
  obtain ⟨hi, hci⟩ := List.getElem?_eq_some_iff.mp hc
  obtain ⟨hj, hcj⟩ := List.getElem?_eq_some_iff.mp hd
  exact hne ((hnames.of_map _).getElem_inj_iff.mp (hci.trans hcj.symm))

theorem Progress.Fed.answer (hnames : (components.map (·.filename)).Nodup) {position : Nat}
    {asked : Asked} (h : p.Fed components events)
    (hstep : step producer policy context p position = some q)
    (hasked : q.asked = p.asked ++ [asked]) :
    q.Fed components (events ++ [.answered asked
      (settle policy.timeoutMs (producer.answer p.state asked.request).1).2]) := by
  obtain ⟨t, attempt, feedback, due, ht, hphase, rfl⟩ := step_cases hstep
  obtain rfl : _ = asked := List.singleton_inj.mp (List.append_cancel_left hasked)
  obtain ⟨htarget, hfed⟩ := h.tasks position t ht
  refine ⟨fun place u hu => ?_, fun x hx => ?_⟩
  · dsimp only at hu
    rw [List.getElem?_set] at hu
    by_cases hplace : position = place
    · subst hplace
      rw [if_pos rfl, if_pos (List.getElem?_eq_some_iff.mp ht).1] at hu
      obtain rfl := Option.some.inj hu
      exact ⟨htarget, hfed.reply hphase rfl rfl _⟩
    · rw [if_neg hplace] at hu
      obtain ⟨hother, hfed'⟩ := h.tasks place u hu
      exact ⟨hother, hfed'.other (target_ne_of_position_ne hnames htarget hother hplace)⟩
  · rw [withEarlier_append, List.mem_append] at hx
    rcases hx with hx | hx
    · exact h.requests x hx
    · simp only [withEarlier, List.map_cons, List.map_nil, List.append_nil,
        List.mem_singleton] at hx
      subst hx
      rintro a reply hevent
      obtain ⟨rfl, -⟩ := Event.answered.inj hevent
      exact hfed.asking attempt feedback due hphase

theorem Progress.Fed.retry {files : List SchemaFile} {tasks : List Task}
    (h : p.Fed components events) (hfiles : assembled? p.tasks = some files)
    (hretries : retries? policy components p = some tasks) :
    Progress.Fed components (events ++ [.rejected files]) { p with tasks } := by
  obtain ⟨files', violations, hfiles', rfl, rfl⟩ := files_of_retries? hretries
  obtain rfl := Option.some.inj (hfiles.symm.trans hfiles')
  refine ⟨fun position u hu => ?_, fun x hx => ?_⟩
  · obtain ⟨t, ht, hretried⟩ := forall₂_getElem? (forall₂_planRetries policy
      (Scope.violations ⟨components, []⟩ ⟨files⟩) (roundEnd p.tasks) [] p.tasks) hu
    obtain ⟨htarget, hfed⟩ := h.tasks position t ht
    have hmem := List.mem_of_getElem? ht
    have hsame : u.target = t.target := by cases hretried <;> rfl
    exact ⟨hsame ▸ htarget, hfed.retry (fun d hd => file_mem_of_assembled? hfiles hmem hd)
      (exists_delivery_of_assembled? hfiles hmem) hretried⟩
  · rw [withEarlier_append, List.mem_append] at hx
    rcases hx with hx | hx
    · exact h.requests x hx
    · simp only [withEarlier, List.map_cons, List.map_nil, List.mem_singleton] at hx
      subst hx
      rintro a reply hevent
      cases hevent

/-- What every event of a history tells. -/
theorem fed_of_history (hnames : (components.map (·.filename)).Nodup)
    (h : History producer policy context components state events p) : p.Fed components events := by
  induction h with
  | start => exact fed_freshRound
  | answer _ hstep hasked ih => exact ih.answer hnames hstep hasked
  | retry _ hfiles hretries ih => exact ih.retry hfiles hretries

end

/-- Every request carries the violations of the most recent candidate for its component, none exactly
before the first candidate, and what the request before it carried where that one failed. -/
def FeedsBack (components : List Component) (events : List Event) : Prop :=
  ∀ before a reply after, events = before ++ .answered a reply :: after →
    Feedback components a.request.target before a.request.feedback ∧
      (a.request.feedback = [] ↔ latestCandidate? a.request.target before = none) ∧
      ∀ b e, latestAnswer? a.request.target before = some (b, .error e) →
        a.request.feedback = b.request.feedback

/-- With distinct filenames, at every request of a run, in whatever order its steps are taken, the
feedback is that of the most recent candidate for the component; and the requests of a generation
are those of such a run. -/
theorem feedback_of_generateAll {σ : Type} (producer : Producer σ) (policy : RetryPolicy)
    (context : String) {components : List Component}
    (hnames : (components.map (·.filename)).Nodup) (state : σ) :
    (∀ events p, History producer policy context components state events p →
      FeedsBack components events) ∧
    ∃ events final, History producer policy context components state events final ∧
      (generateAll producer policy context components state).2 =
        events.filterMap Event.asked? := by
  constructor
  · intro events p h before a reply after hevents
    have hmem : (before, Event.answered a reply) ∈ withEarlier events :=
      mem_withEarlier.mpr ⟨after, hevents⟩
    obtain ⟨hfeedback, hsteady⟩ := (fed_of_history hnames h).requests _ hmem a reply rfl
    exact ⟨hfeedback, hfeedback.eq_nil_iff, hsteady⟩
  · obtain ⟨_, final, hrounds, -, -, hreport⟩ :=
      exists_rounds_generateAll producer policy context components state
    have hfirst : ∃ events, History producer policy context components state events
        (firstRound producer policy context components state) ∧
        (firstRound producer policy context components state).asked =
          events.filterMap Event.asked? :=
      exists_history_run byClock ⟨[], .start, rfl⟩
    obtain ⟨events, hhistory, hasked⟩ := exists_history_rounds hrounds hfirst
    refine ⟨events, final, hhistory, ?_⟩
    rw [hreport]
    exact hasked

/-- The producer whose candidates point at each other without labels, but for a second attempt that
it does not answer. -/
def forgetfulProducer : Producer Unit where
  answer _ request :=
    let file := if request.target = userComponent then pointingFile userComponent "user" "team" none
      else pointingFile teamComponent "team" "user" none
    (if request.attempt = 2 then .never else .after 0 (.candidate file.models), ())

/-- Both candidates are accepted by themselves and rejected together, and neither the timeout nor the
next round makes the producer forget the two violations at each of them. -/
theorem feedback_of_generateAll_forgetful :
    ([userComponent, teamComponent].map (·.filename)).Nodup ∧
    (generateAll forgetfulProducer {} "" [userComponent, teamComponent] ()).2.map
        (fun a => (a.request.attempt, a.request.feedback.length)) =
      [(1, 0), (1, 0), (2, 2), (2, 2), (3, 2), (3, 2)] ∧
    ∃ events final, History forgetfulProducer {} "" [userComponent, teamComponent] () events final ∧
      FeedsBack [userComponent, teamComponent] events ∧
      (generateAll forgetfulProducer {} "" [userComponent, teamComponent] ()).2 =
        events.filterMap Event.asked? := by
  have hnames : ([userComponent, teamComponent].map (·.filename)).Nodup := by decide
  obtain ⟨hfeeds, events, final, hhistory, hasked⟩ :=
    feedback_of_generateAll forgetfulProducer {} "" hnames ()
  exact ⟨hnames, by decide +kernel, events, final, hhistory, hfeeds events final hhistory, hasked⟩

end SchemaGate
