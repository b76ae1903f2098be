import SchemaGate.Proofs.Generation.Interleaving
import SchemaGate.Proofs.Paired
import SchemaGate.Proofs.Validation.Paths

/-!
# Where violations of the whole are sent

Where all components have delivered and the whole is rejected, every violation names the file of one
component. The components that are asked again are those that violations name and that have attempts
left; each is told all violations that name its file and goes on behind the attempts that its file
took. The others have no part in the next round and keep what they delivered (`violations_routed`).
-/

namespace SchemaGate

/-- Every component has delivered a file of its filename. -/
structure Progress.AllDelivered {σ : Type} (components : List Component)
    (deliveries : List Delivery) (p : Progress σ) : Prop where
  targets : p.tasks.map (·.target) = components
  outcomes : p.tasks.map (·.outcome) = deliveries.map .ok
  filenames : deliveries.map (·.file.filename) = components.map (·.filename)

/-- A component that is asked again: where it stands, for which attempt, and what it is told. -/
structure Resumption where
  position : Nat
  attempt : Nat
  feedback : List Violation

/-- What a task is asked again, where it asks. -/
def Task.resumption? (position : Nat) (t : Task) : Option Resumption :=
  match t.phase with
  | .asking attempt feedback _ => some ⟨position, attempt, feedback⟩
  | .ended .. => none

/-- The components that are asked again by tasks that have not ended. -/
def resumptions (tasks : List Task) : List Resumption :=
  tasks.zipIdx.filterMap fun (t, position) => t.resumption? position

/-- Violations name the file of a component, and there are attempts left to mend it. -/
def Mendable (policy : RetryPolicy) (violations : List Violation) (c : Component) (d : Delivery) :
    Prop :=
  (∃ v ∈ violations, v.path.file = some c.filename) ∧ d.attempts < policy.maxAttempts

instance (policy : RetryPolicy) (violations : List Violation) (c : Component) (d : Delivery) :
    Decidable (Mendable policy violations c d) :=
  inferInstanceAs (Decidable (_ ∧ _))

/-! ### Which tasks ask again -/

section

variable {policy : RetryPolicy} {violations : List Violation} {time : Nat}

/-- What becomes of a task whose filename no other has. -/
def Task.retried (policy : RetryPolicy) (violations : List Violation) (time : Nat) (t : Task) :
    Task :=
  match t.outcome with
  | .ok d =>
    if Mendable policy violations t.target d then
      { t with phase := .asking (d.attempts + 1)
                (violations.filter (·.path.file = some t.target.filename))
                (time + policy.retryDelayMs) }
    else t
  | .error _ => t

theorem violationsAt_eq (filename : String) (violations : List Violation) :
    violationsAt filename violations = violations.filter (·.path.file = some filename) :=
  List.filter_congr fun v _ => beq_eq_decide v.path.file (some filename)

theorem violationsAt_ne_nil_iff {filename : String} :
    violationsAt filename violations ≠ [] ↔ ∃ v ∈ violations, v.path.file = some filename := by
  simp [violationsAt]

theorem retried_of_mendable {t : Task} {d : Delivery} (houtcome : t.outcome = .ok d)
    (h : Mendable policy violations t.target d) :
    t.retried policy violations time = { t with
      phase := .asking (d.attempts + 1) (violations.filter (·.path.file = some t.target.filename))
        (time + policy.retryDelayMs) } := by
  rw [Task.retried, houtcome]
  exact if_pos h

theorem retried_of_not_mendable {t : Task} {d : Delivery} (houtcome : t.outcome = .ok d)
    (h : ¬ Mendable policy violations t.target d) : t.retried policy violations time = t := by
  rw [Task.retried, houtcome]
  exact if_neg h

/-- With distinct filenames each task is looked at by itself. -/
theorem planRetries_eq_map {taken : List String} {tasks : List Task}
    (hnames : (taken ++ tasks.map (·.target.filename)).Nodup) :
    planRetries policy violations time taken tasks =
      tasks.map (Task.retried policy violations time) := by
  induction tasks generalizing taken with
  | nil => rfl
  | cons t tasks ih =>
    have hmiddle : (t.target.filename :: taken ++ tasks.map (·.target.filename)).Nodup :=
      List.nodup_middle.mp hnames
    obtain ⟨hnew, hrest⟩ := List.nodup_cons.mp hmiddle
    have hnew : t.target.filename ∉ taken := fun h => hnew (List.mem_append_left _ h)
    rw [List.map_cons]
    unfold planRetries
    split
    · next d v vs hdelivered hnamed =>
      have hnamed' := violationsAt_ne_nil_iff.mp (hnamed ▸ List.cons_ne_nil v vs)
      split
      · next hattempts =>
        simp only [Bool.and_eq_true, decide_eq_true_eq] at hattempts
        rw [retried_of_mendable hdelivered ⟨hnamed', hattempts.1⟩, ← violationsAt_eq, hnamed,
          ih hmiddle]
      · next hstop =>
        have hleft : ¬ Mendable policy violations t.target d := fun h => hstop (by simp [h.2, hnew])
        rw [retried_of_not_mendable hdelivered hleft, ih hrest]
    · next hother =>
      have hleft : t.retried policy violations time = t := by
        cases houtcome : t.outcome with
        | error e => rw [Task.retried, houtcome]
        | ok d =>
          refine retried_of_not_mendable houtcome fun h => ?_
          obtain ⟨v, vs, hnamed⟩ := List.exists_cons_of_ne_nil (violationsAt_ne_nil_iff.mpr h.1)
          exact hother d v vs houtcome hnamed
      rw [hleft, ih hrest]

theorem resumption?_retried {t : Task} {d : Delivery} (houtcome : t.outcome = .ok d)
    (position : Nat) :
    (t.retried policy violations time).resumption? position =
      if Mendable policy violations t.target d then
        some ⟨position, d.attempts + 1, violations.filter (·.path.file = some t.target.filename)⟩
      else none := by
  by_cases h : Mendable policy violations t.target d
  · rw [retried_of_mendable houtcome h, if_pos h]
    rfl
  · obtain ⟨ended, hphase⟩ := phase_of_outcome houtcome
    rw [retried_of_not_mendable houtcome h, if_neg h, Task.resumption?, hphase]

/-- Of tasks that have delivered, those that can be mended ask again, in their order. -/
theorem resumptions_map_retried {tasks : List Task} {results : List (Component × Delivery)}
    (h : List.Forall₂ (fun t r => t.target = r.1 ∧ t.outcome = .ok r.2) tasks results) (n : Nat) :
    ((tasks.map (Task.retried policy violations time)).zipIdx n).filterMap
        (fun (t, position) => t.resumption? position) =
      ((results.zipIdx n).filter fun ((c, d), _) => Mendable policy violations c d).map
        fun ((c, d), position) =>
          ⟨position, d.attempts + 1, violations.filter (·.path.file = some c.filename)⟩ := by
  induction h generalizing n with
  | nil => rfl
  | @cons t r tasks results hhead _ ih =>
    obtain ⟨c, d⟩ := r
    obtain ⟨rfl, houtcome⟩ := hhead
    have hhead : (t.retried policy violations time).resumption? n = _ :=
      resumption?_retried houtcome n
    simp only [List.map_cons, List.zipIdx_cons, List.filterMap_cons, List.filter_cons, ih]
    by_cases hmendable : Mendable policy violations t.target d
    · simp [hhead, hmendable]
    · simp [hhead, hmendable]

end

namespace Progress.AllDelivered

variable {σ : Type} {components : List Component} {deliveries : List Delivery} {p : Progress σ}

theorem outcome_ok (h : p.AllDelivered components deliveries) :
    List.Forall₂ (fun t d => t.outcome = .ok d) p.tasks deliveries :=
  map_eq_map_iff_forall₂.mp h.outcomes

/-- The tasks with their components and what these delivered. -/
theorem results (h : p.AllDelivered components deliveries) :
    List.Forall₂ (fun t r => t.target = r.1 ∧ t.outcome = .ok r.2) p.tasks
      (components.zip deliveries) := by
  obtain rfl := h.targets
  have houtcomes := h.outcome_ok
  clear h
  generalize p.tasks = tasks at houtcomes
  induction houtcomes with
  | nil => exact .nil
  | cons houtcome _ ih => exact .cons ⟨rfl, houtcome⟩ ih

theorem assembled? (h : p.AllDelivered components deliveries) :
    SchemaGate.assembled? p.tasks = some (deliveries.map (·.file)) := by
  refine mapM_eq_some_iff_forall₂.mpr (List.forall₂_map_right_iff.mpr (h.outcome_ok.imp ?_))
  intro t d houtcome
  rw [houtcome]
  rfl

end Progress.AllDelivered

/-- Whenever files are put together in a run, all components have delivered, and it is their files
that are. -/
theorem exists_allDelivered_of_rounds {σ : Type} {producer : Producer σ} {policy : RetryPolicy}
    {context : String} {components : List Component} {state : σ} {n : Nat} {q : Progress σ}
    (hrounds : Rounds producer policy context components n
      (firstRound producer policy context components state) q)
    {files : List SchemaFile} (hfiles : assembled? q.tasks = some files) :
    ∃ deliveries, q.AllDelivered components deliveries ∧ deliveries.map (·.file) = files := by
  have hcounted := counted_invariant.rounds hrounds (counted_invariant.firstRound state)
  have hdelivers := delivers_invariant.rounds hrounds (delivers_invariant.firstRound state)
  obtain ⟨deliveries, houtcomes, hsame⟩ := exists_deliveries_of_assembled? hfiles
  refine ⟨deliveries, ⟨hcounted.targets, houtcomes, ?_⟩, hsame⟩
  have hfits : ∀ t ∈ q.tasks, t.Delivers components := by
    intro t ht
    obtain ⟨position, hposition⟩ := List.getElem?_of_mem ht
    exact hdelivers.tasks position t hposition
  have hpaired := (List.forall₂_and_left ..).mpr ⟨hfits, map_eq_map_iff_forall₂.mp houtcomes⟩
  rw [← hcounted.targets, List.map_map, eq_comm, map_eq_map_iff_forall₂]
  exact hpaired.imp fun t d ⟨hfit, houtcome⟩ => (hfit.fitsPlan houtcome).filename.symm

/-! ### What is left alone -/

section

variable {σ : Type} {producer : Producer σ} {policy : RetryPolicy} {context : String}
  {p q : Progress σ} {position : Nat} {t : Task}

/-- A task that has ended stays as it is and makes no request, in whatever order the others take
their steps. -/
theorem left_of_interleaved (h : Interleaved producer policy context p q)
    (ht : p.tasks[position]? = some t) (hended : t.due? = none) :
    q.tasks[position]? = some t ∧ requestsAt position q.asked = requestsAt position p.asked := by
  induction h with
  | refl => exact ⟨ht, rfl⟩
  | tail _ hstep ih =>
    obtain ⟨place, hstep⟩ := hstep
    obtain ⟨u, attempt, feedback, due, hu, hphase, rfl⟩ := step_cases hstep
    obtain ⟨hsame, hasked⟩ := ih
    have hplace : place ≠ position := by
      rintro rfl
      obtain rfl := Option.some.inj (hu.symm.trans hsame)
      simp [Task.due?, hphase] at hended
    refine ⟨(List.getElem?_set_ne hplace).trans hsame, ?_⟩
    rw [requestsAt, List.filter_append, List.filter_cons_of_neg (by simpa using hplace),
      List.filter_nil, List.append_nil]
    exact hasked

end

theorem resumptions_eq_nil_iff {tasks : List Task} :
    resumptions tasks = [] ↔ ¬ ∃ t ∈ tasks, t.due?.isSome := by
  have hnone : ∀ (t : Task) position, t.resumption? position = none ↔ ¬ t.due?.isSome := by
    intro t position
    unfold Task.resumption? Task.due?
    cases t.phase <;> simp
  rw [resumptions, List.filterMap_eq_nil_iff]
  simp only [hnone, not_exists, not_and]
  constructor
  · intro h t ht
    obtain ⟨position, hposition⟩ := List.mem_iff_getElem?.mp ht
    exact h (t, position) (List.mem_zipIdx_iff_getElem?.mpr hposition)
  · rintro h ⟨t, position⟩ hmem
    exact h t (List.mem_of_getElem? (List.mem_zipIdx_iff_getElem?.mp hmem))

/-! ### A rejected whole -/

section

variable {σ : Type} {components : List Component} {deliveries : List Delivery} {p : Progress σ}
  {violations : List Violation}

/-- A violation of the whole names the file of one component. -/
theorem existsUnique_component_of_mem (hnames : (components.map (·.filename)).Nodup)
    (hfilenames : deliveries.map (·.file.filename) = components.map (·.filename)) {v : Violation}
    (hv : v ∈ Scope.violations ⟨components, []⟩ ⟨deliveries.map (·.file)⟩) :
    ∃! c, c ∈ components ∧ v.path.file = some c.filename := by
  have hnamed : ∃ c ∈ components, v.path.file = some c.filename := by
    rcases Scope.file_of_mem_violations hv with ⟨file, hfile, hname⟩ | hnamed
    · obtain ⟨d, hd, rfl⟩ := List.mem_map.mp hfile
      have hmem : d.file.filename ∈ components.map (·.filename) :=
        hfilenames ▸ List.mem_map_of_mem hd
      obtain ⟨c, hc, hsame⟩ := List.mem_map.mp hmem
      exact ⟨c, hc, hsame ▸ hname⟩
    · exact hnamed
  obtain ⟨c, hc, hname⟩ := hnamed
  refine ⟨c, ⟨hc, hname⟩, fun c' ⟨hc', hname'⟩ => ?_⟩
  exact List.inj_on_of_nodup_map hnames hc' hc (Option.some.inj (hname'.symm.trans hname))

namespace Progress.AllDelivered

variable {policy : RetryPolicy} {time : Nat} (hnames : (components.map (·.filename)).Nodup)
  (h : p.AllDelivered components deliveries)

include hnames h

theorem planRetries_eq : planRetries policy violations time [] p.tasks =
    p.tasks.map (Task.retried policy violations time) := by
  refine planRetries_eq_map ?_
  obtain rfl := h.targets
  rwa [List.map_map] at hnames

theorem resumptions_planRetries :
    resumptions (planRetries policy violations time [] p.tasks) =
      ((components.zip deliveries).zipIdx.filter fun ((c, d), _) =>
        Mendable policy violations c d).map fun ((c, d), position) =>
          ⟨position, d.attempts + 1, violations.filter (·.path.file = some c.filename)⟩ := by
  rw [h.planRetries_eq hnames]
  exact resumptions_map_retried h.results 0

/-- Where a component stands that is not asked again, its task is left as it ended. -/
theorem getElem?_planRetries_of_not_mem {position : Nat} {d : Delivery}
    (hd : deliveries[position]? = some d)
    (hleft : position ∉ (resumptions (planRetries policy violations time [] p.tasks)).map
      (·.position)) :
    ∃ t, (planRetries policy violations time [] p.tasks)[position]? = some t ∧
      t.outcome = .ok d := by
  obtain ⟨t, ht, houtcome⟩ := forall₂_getElem? h.outcome_ok hd
  refine ⟨t, ?_, houtcome⟩
  have hunmendable : ¬ Mendable policy violations t.target d := by
    intro hmendable
    have hc : components[position]? = some t.target := by
      rw [← h.targets, List.getElem?_map, ht]
      rfl
    have hmem : ((t.target, d), position) ∈ (components.zip deliveries).zipIdx :=
      List.mem_zipIdx_iff_getElem?.mpr (List.getElem?_zip_eq_some.mpr ⟨hc, hd⟩)
    rw [h.resumptions_planRetries hnames, List.map_map] at hleft
    exact hleft (List.mem_map.mpr ⟨((t.target, d), position),
      List.mem_filter.mpr ⟨hmem, decide_eq_true hmendable⟩, rfl⟩)
  rw [h.planRetries_eq hnames, List.getElem?_map, ht, Option.map_some,
    retried_of_not_mendable houtcome hunmendable]

end Progress.AllDelivered

/-- There is a next round where some component is asked again. -/
theorem nextRound_of_rejected {producer : Producer σ} {policy : RetryPolicy} {context : String}
    (h : p.AllDelivered components deliveries)
    (hrejected : Scope.validate ⟨components, []⟩ ⟨deliveries.map (·.file)⟩ = .error violations) :
    let retries := planRetries policy violations (roundEnd p.tasks) [] p.tasks
    nextRound producer policy context components p =
      if resumptions retries = [] then none
      else some (run producer policy context byClock { p with tasks := retries }) := by
  have hverdict : verdict components p = .rejected violations := by
    rw [verdict, h.assembled?]
    dsimp only
    rw [hrejected]
  simp only [nextRound, retries?, hverdict, resumptions_eq_nil_iff]
  by_cases hsome : ∃ t ∈ planRetries policy violations (roundEnd p.tasks) [] p.tasks, t.due?.isSome
  · rw [if_pos hsome, if_neg (not_not.mpr hsome), Option.map_some]
  · rw [if_neg hsome, if_pos hsome, Option.map_none]

end

/-- Where all components have delivered, their filenames are distinct, and the whole is rejected,
every violation names the file of exactly one component. Those components are asked again that
violations name and that have attempts left, in their order, each for the attempt behind those its
file took and with all violations that name its file, in their order. There is a next round where
there are such components; in it the others make no request and keep their files and attempts, in
whatever order steps are taken. -/
theorem violations_routed {σ : Type} (producer : Producer σ) (policy : RetryPolicy)
    (context : String) {components : List Component} {deliveries : List Delivery} {p : Progress σ}
    (hnames : (components.map (·.filename)).Nodup) (hdelivered : p.AllDelivered components deliveries)
    {violations : List Violation}
    (hrejected : Scope.validate ⟨components, []⟩ ⟨deliveries.map (·.file)⟩ = .error violations) :
    let retries := planRetries policy violations (roundEnd p.tasks) [] p.tasks
    (∀ v ∈ violations, ∃! c, c ∈ components ∧ v.path.file = some c.filename) ∧
    resumptions retries = (((components.zip deliveries).zipIdx.filter fun ((c, d), _) =>
      (∃ v ∈ violations, v.path.file = some c.filename) ∧ d.attempts < policy.maxAttempts).map
        fun ((c, d), position) =>
          ⟨position, d.attempts + 1, violations.filter (·.path.file = some c.filename)⟩) ∧
    nextRound producer policy context components p =
      (if resumptions retries = [] then none
      else some (run producer policy context byClock { p with tasks := retries })) ∧
    ∀ q, Interleaved producer policy context { p with tasks := retries } q →
      ∀ position d, deliveries[position]? = some d →
        position ∉ (resumptions retries).map (·.position) →
          (q.tasks[position]?).map (·.outcome) = some (.ok d) ∧
            requestsAt position q.asked = requestsAt position p.asked := by
  intro retries
  obtain ⟨hviolations, -⟩ := Scope.violations_of_validate hrejected
  refine ⟨fun v hv => ?_, hdelivered.resumptions_planRetries hnames,
    nextRound_of_rejected hdelivered hrejected, fun q hq position d hd hleft => ?_⟩
  · exact existsUnique_component_of_mem hnames hdelivered.filenames (hviolations ▸ hv)
  · obtain ⟨t, ht, houtcome⟩ := hdelivered.getElem?_planRetries_of_not_mem hnames hd hleft
    obtain ⟨ended, hphase⟩ := phase_of_outcome houtcome
    obtain ⟨hsame, hasked⟩ := left_of_interleaved hq ht (by rw [Task.due?, hphase])
    refine ⟨?_, hasked⟩
    rw [hsame, Option.map_some, houtcome]

/-- What the users delivered at the last attempt, and the teams at the first one. -/
def unevenDeliveries : List Delivery :=
  [⟨pointingFile userComponent "user" "team" none, 3⟩,
    ⟨pointingFile teamComponent "team" "user" none, 1⟩]

/-- The tasks that have ended with these. -/
def unevenProgress : Progress Unit where
  tasks := List.zipWith
    (fun c d => { startTask [userComponent, teamComponent] 0 c with phase := .ended (.ok d) 7 })
    [userComponent, teamComponent] unevenDeliveries
  state := ()

/-- Two violations name the file of each, and the teams alone are asked again, with theirs and for
the second attempt. The users keep their file and its three attempts. -/
theorem violations_routed_uneven :
    ([userComponent, teamComponent].map (·.filename)).Nodup ∧
    unevenProgress.AllDelivered [userComponent, teamComponent] unevenDeliveries ∧
    ∃ violations, Scope.validate ⟨[userComponent, teamComponent], []⟩
        ⟨unevenDeliveries.map (·.file)⟩ = .error violations ∧
      (∀ v ∈ violations, ∃! c, c ∈ [userComponent, teamComponent] ∧
        v.path.file = some c.filename) ∧
      let retries := planRetries {} violations (roundEnd unevenProgress.tasks) [] unevenProgress.tasks
      (resumptions retries).map (fun r => (r.position, r.attempt, r.feedback.length)) =
        [(1, 2, 2)] ∧
      ∀ q, Interleaved (lateProducer .never) {} "" { unevenProgress with tasks := retries } q →
        (q.tasks[0]?).map (·.outcome) =
          some (.ok ⟨pointingFile userComponent "user" "team" none, 3⟩) := by
  have hnames : ([userComponent, teamComponent].map (·.filename)).Nodup := by decide
  have hdelivered : unevenProgress.AllDelivered [userComponent, teamComponent] unevenDeliveries :=
    ⟨rfl, rfl, rfl⟩
  have hrejected : Scope.validate ⟨[userComponent, teamComponent], []⟩
      ⟨unevenDeliveries.map (·.file)⟩ = .error (Scope.violations
        ⟨[userComponent, teamComponent], []⟩ ⟨unevenDeliveries.map (·.file)⟩) :=
    dif_neg (by decide +kernel)
  obtain ⟨hnamed, hasked, -, hkept⟩ :=
    violations_routed (lateProducer .never) {} "" hnames hdelivered hrejected
  refine ⟨hnames, hdelivered, _, hrejected, hnamed, ?_, fun q hq => ?_⟩
  · rw [hasked]
    decide +kernel
  · refine (hkept q hq 0 _ rfl ?_).1
    rw [hasked]
    decide +kernel

end SchemaGate
