import ConstraintGraph.CommandLine.Perform
import ConstraintGraph.Proofs.Evaluation.Totals

/-!
Crashes of a job. Only the log can break a job off, so a job is first followed without a log, where
it ends with a product or with a failure that is reported, and then the log is added to its outcome.
-/

namespace ConstraintGraph.CommandLine

def Failure.isReported : Failure → Bool
  | .noService | .crashed => false
  | _ => true

def Product.overflows : Product → Bool
  | .results v _ => v.total?.isNone
  | .plan _ _ _ | .scope _ _ _ | .graph _ _ => false

/-- Only results have a total, and they have none where their violations do not fit in a word. -/
theorem Product.overflows_iff {p : Product} :
    p.overflows = true ↔ ∃ v limit, p = .results v limit ∧ 2 ^ 64 ≤ v.violationCount := by
  cases p with
  | results v limit =>
    rw [overflows, Option.isNone_iff_eq_none, Results.total?_eq_none_iff]
    constructor
    · intro hcount
      exact ⟨v, limit, rfl, hcount⟩
    · rintro ⟨v', limit', heq, hcount⟩
      obtain ⟨rfl, -⟩ := Product.results.inj heq
      exact hcount
  | _ => exact iff_of_false nofun (by rintro ⟨v, limit, heq, -⟩; cases heq)

def Ends {α : Type} (P : α → Prop) : Except Failure α → Prop
  | .ok a => P a
  | .error f => f.isReported = true

namespace Ends

variable {ε α β : Type} {P P' : α → Prop} {Q : β → Prop}

theorem mono {x : Except Failure α} (h : Ends P x) (hP : ∀ a, P a → P' a) : Ends P' x := by
  cases x with
  | error f => exact h
  | ok a => exact hP a h

theorem bind {x : Except Failure α} {f : α → Except Failure β} (hx : Ends P x)
    (hf : ∀ a, P a → Ends Q (f a)) : Ends Q (x >>= f) := by
  cases x with
  | error e => exact hx
  | ok a => exact hf a hx

theorem mapError {f : ε → Failure} (hf : ∀ e, (f e).isReported = true) (x : Except ε α) :
    Ends (fun _ => True) (x.mapError f) := by
  cases x with
  | error e => exact hf e
  | ok a => trivial

end Ends

namespace Outcome

variable {o : Outcome}

def logged (o : Outcome) : Outcome :=
  match o.result with
  | .ok p => if p.overflows then { o with result := .error .crashed } else o
  | .error _ => o

theorem logged_of_overflows {p : Product} (h : p.overflows = true) (posts : List Post) :
    logged ⟨.ok p, posts⟩ = ⟨.error .crashed, posts⟩ := if_pos h

theorem logged_of_fits {p : Product} (h : ¬ p.overflows = true) (posts : List Post) :
    logged ⟨.ok p, posts⟩ = ⟨.ok p, posts⟩ := if_neg h

theorem logged_of_ends (h : Ends (fun p : Product => p.overflows = false) o.result) :
    o.logged = o := by
  obtain ⟨result, posts⟩ := o
  cases result with
  | error f => rfl
  | ok p => exact logged_of_fits (ne_true_of_eq_false h) posts

theorem logged_eq_self (h : o.logged.result ≠ .error .crashed) : o.logged = o := by
  obtain ⟨result, posts⟩ := o
  cases result with
  | error f => rfl
  | ok p =>
    refine logged_of_fits (fun hover => h ?_) posts
    rw [logged_of_overflows hover]

/-- An outcome crashes for being logged exactly if its total overflows. -/
theorem result_logged_eq_crashed_iff (h : o.result ≠ .error .crashed) :
    o.logged.result = .error .crashed ↔ ∃ p, o.result = .ok p ∧ p.overflows = true := by
  obtain ⟨result, posts⟩ := o
  constructor
  · intro hcrash
    cases result with
    | error f =>
      exact absurd hcrash h
    | ok p =>
      refine ⟨p, rfl, by_contra fun hfits => ?_⟩
      rw [logged_of_fits hfits] at hcrash
      cases hcrash
  · rintro ⟨p, rfl, hover⟩
    rw [logged_of_overflows hover]

end Outcome

namespace Host

variable (h : Host)

/-- An answer that passes the checks is concluded with its results, unless they are logged and have
no total. -/
theorem conclude_eq (logs : Bool) (plan : Plan) (answer : Answer) (limit : Nat) :
    conclude logs plan answer limit =
      match plan.resultsOf answer with
      | .ok v =>
        if logs = true ∧ 2 ^ 64 ≤ v.violationCount then .error .crashed else .ok (.results v limit)
      | .error e => .error (.evaluation e) := by
  obtain ⟨last, heq⟩ := (Session.fresh logs).exists_evaluate_eq rfl plan answer
  unfold conclude
  rw [heq]
  cases plan.resultsOf answer with
  | error e => rfl
  | ok v =>
    have hlogs : (Session.fresh logs).logs = logs := rfl
    simp only [Except.map, Session.outcome_eq, hlogs]
    by_cases hcrash : logs = true ∧ 2 ^ 64 ≤ v.violationCount
    · rw [if_pos hcrash, if_pos hcrash]
    · rw [if_neg hcrash, if_neg hcrash]

theorem conclude_quiet (plan : Plan) (answer : Answer) (limit : Nat) :
    conclude false plan answer limit =
      match plan.resultsOf answer with
      | .ok v => .ok (.results v limit)
      | .error e => .error (.evaluation e) := by
  rw [conclude_eq]
  cases plan.resultsOf answer with
  | error e => rfl
  | ok v => exact if_neg fun hcrash => nomatch hcrash.1

theorem ends_conclude (plan : Plan) (answer : Answer) (limit : Nat) :
    Ends (fun _ => True) (conclude false plan answer limit) := by
  rw [conclude_quiet]
  cases plan.resultsOf answer with
  | error e => rfl
  | ok v => trivial

/-- The log only adds the total. -/
theorem conclude_logged (plan : Plan) (answer : Answer) (limit : Nat) (posts : List Post) :
    (⟨conclude true plan answer limit, posts⟩ : Outcome) =
      Outcome.logged ⟨conclude false plan answer limit, posts⟩ := by
  rw [conclude_eq, conclude_quiet]
  cases plan.resultsOf answer with
  | error e => rfl
  | ok v =>
    simp only [true_and, ← Results.total?_eq_none_iff, ← Option.isNone_iff_eq_none]
    show (⟨if v.total?.isNone then _ else _, posts⟩ : Outcome) = if v.total?.isNone then _ else _
    split <;> rfl

theorem ends_content (role : FileRole) (path : String) :
    Ends (fun _ => True) (h.content role path) := by
  unfold content
  split
  · trivial
  all_goals rfl

theorem ends_load {α : Type} (role : FileRole) (path : String) (read : Decoder α) :
    Ends (fun _ => True) (h.load role path read) :=
  (h.ends_content role path).bind fun _ _ => .mapError (fun _ => rfl) _

theorem ends_loadGraph (path : String) : Ends (fun _ => True) (h.loadGraph path) :=
  h.ends_load .graph path Graph.ofJson

theorem ends_loadResponse (path : String) : Ends (fun _ => True) (h.loadResponse path) :=
  (h.ends_content .response path).bind fun _ _ => .mapError (fun _ => rfl) _

theorem ends_compile (graph : String) : Ends (fun p => p.overflows = false) (h.compile graph) :=
  (h.ends_loadGraph graph).bind fun _ _ =>
    (Ends.mapError (fun _ => rfl) _).bind fun _ _ => rfl

theorem ends_scope (graph node : String) (kind : Option VariableKind) :
    Ends (fun p => p.overflows = false) (h.scope graph node kind) := by
  refine (h.ends_loadGraph graph).bind fun g _ => ?_
  split <;> rfl

theorem ends_replay (commands : String) (graph : Option String) :
    Ends (fun p => p.overflows = false) (h.replay commands graph) := by
  refine (h.ends_load .commands commands (Json.asList Command.ofJson)).bind fun cs _ => ?_
  have hreplay (g : Graph) : Ends (fun p => p.overflows = false)
      ((g.replay cs).mapError .rejected >>= fun g => .ok (Product.graph cs.length g)) :=
    (Ends.mapError (fun _ => rfl) _).bind fun _ _ => rfl
  cases graph with
  | none => exact hreplay Graph.empty
  | some path => exact (h.ends_loadGraph path).bind fun g _ => hreplay g

/-- Whatever is read or comes back, an evaluation that is not logged ends with a product or a
failure that is reported. -/
theorem ends_evaluate (graph : String) (e : RemoteEvaluator) (response : Option String)
    (limit : Nat) : Ends (fun _ => True) (h.evaluate false graph e response limit).result := by
  have hplan : Ends (fun _ => True) (do (← h.loadGraph graph).plan.mapError .uncompilable) :=
    (h.ends_loadGraph graph).bind fun _ _ => .mapError (fun _ => rfl) _
  unfold evaluate
  split
  · rename_i failure heq
    rw [heq] at hplan
    exact hplan
  · cases response with
    | none => exact ends_conclude _ _ limit
    | some path => exact (h.ends_loadResponse path).bind fun _ _ => ends_conclude _ _ limit

/-- The log is added to the outcome of an evaluation after the results are there. -/
theorem evaluate_logged (graph : String) (e : RemoteEvaluator) (response : Option String)
    (limit : Nat) :
    h.evaluate true graph e response limit =
      (h.evaluate false graph e response limit).logged := by
  unfold evaluate
  split
  · rfl
  · rename_i plan _
    cases response with
    | none => exact conclude_logged plan _ limit _
    | some path =>
      show Outcome.silent (h.evaluateSaved true plan path limit) =
        (Outcome.silent (h.evaluateSaved false plan path limit)).logged
      unfold evaluateSaved
      cases h.loadResponse path with
      | error failure => rfl
      | ok r => exact conclude_logged plan _ limit []

/-- Without a log a job other than the service ends with a product, or with a failure that is
reported. -/
theorem ends_doJob (s : Settings) {job : Job} (hjob : ∀ port, job ≠ .serve port) :
    Ends (fun _ => True) (h.doJob s false job).result := by
  cases job with
  | compile graph => exact (h.ends_compile graph).mono fun _ _ => trivial
  | scope graph node kind => exact (h.ends_scope graph node kind).mono fun _ _ => trivial
  | replay commands graph => exact (h.ends_replay commands graph).mono fun _ _ => trivial
  | evaluate graph evaluator response limit => exact h.ends_evaluate graph _ response limit
  | serve port => exact absurd rfl (hjob port)

/-- No job crashes without a log. -/
theorem doJob_ne_crashed (s : Settings) (job : Job) :
    (h.doJob s false job).result ≠ .error .crashed := by
  intro hcrash
  by_cases hjob : ∀ port, job ≠ .serve port
  · have hends := h.ends_doJob s hjob
    rw [hcrash] at hends
    cases hends
  · -- The service is not there to crash.
    obtain ⟨port, rfl⟩ := not_forall_not.1 hjob
    cases hcrash

/-- A log changes an outcome only where there is no total. -/
theorem doJob_logged (s : Settings) (job : Job) :
    h.doJob s true job = (h.doJob s false job).logged := by
  cases job with
  | compile graph => exact (Outcome.logged_of_ends (h.ends_compile graph)).symm
  | scope graph node kind => exact (Outcome.logged_of_ends (h.ends_scope graph node kind)).symm
  | replay commands graph => exact (Outcome.logged_of_ends (h.ends_replay commands graph)).symm
  | evaluate graph evaluator response limit => exact h.evaluate_logged graph _ response limit
  | serve port => rfl

/-- A job crashes exactly if there is a log and the job has results without a total for it. -/
theorem doJob_eq_crashed_iff (s : Settings) (logs : Bool) (job : Job) :
    (h.doJob s logs job).result = .error .crashed ↔
      logs = true ∧ ∃ p, (h.doJob s false job).result = .ok p ∧ p.overflows = true := by
  cases logs with
  | false => exact iff_of_false (h.doJob_ne_crashed s job) fun hcrash => nomatch hcrash.1
  | true =>
    rw [doJob_logged, Outcome.result_logged_eq_crashed_iff (h.doJob_ne_crashed s job)]
    exact (and_iff_right rfl).symm

/-- Without a crash a log changes nothing. -/
theorem doJob_eq_of_ne_crashed {s : Settings} {logs : Bool} {job : Job}
    (hcrash : (h.doJob s logs job).result ≠ .error .crashed) :
    h.doJob s logs job = h.doJob s false job := by
  cases logs with
  | false => rfl
  | true =>
    rw [doJob_logged] at hcrash ⊢
    exact Outcome.logged_eq_self hcrash

end Host
end ConstraintGraph.CommandLine
