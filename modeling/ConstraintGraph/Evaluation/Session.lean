import ConstraintGraph.Results

/-!
Evaluation sessions. A session keeps the current results and lets one evaluation run at a time;
clearing it makes answers that are still outstanding stale. It is given as a machine whose steps are
what may happen between two points at which an evaluation waits: it is asked for, the evaluator
answers, the caller takes the answer up, stores the results, or goes away, and the session is
cleared. Where it is logged what was stored, the total of the violations is computed after the
store; one that does not fit in a word breaks the program off there.

The flag that keeps evaluations apart has two holders, the caller and the evaluator's work. A caller
that goes away does not stop the work, so the flag is taken down when the second holder is done.
-/

namespace ConstraintGraph

inductive EvaluationError where
  | inProgress
  | transport (evaluator detail : String)
  | malformed (fault : ResponseError)
  | lengthMismatch (expected actual : Nat)
deriving DecidableEq, Repr, Inhabited

inductive Outcome where
  -- The response was checked, and these are the current results now.
  | applied (results : Results)
  -- The session was cleared in the meantime, and the response is dropped.
  | stale
  -- These are the current results now, but the program broke off at their total.
  | crashed (results : Results)
deriving DecidableEq, Inhabited

abbrev Answer := Except EvaluationError Json

inductive Stage where
  -- The evaluator works on the plan.
  | asking
  -- The evaluator is done and its answer waits to be taken up.
  | answered (answer : Answer)
  -- The response was checked and its results wait to be stored.
  | storing (results : Results)

structure Call where
  plan : Plan
  -- The generation of the session when the evaluation was asked for.
  generation : UInt64
  -- Someone still waits for the outcome.
  awaited : Bool
  stage : Stage

structure Session where
  -- The flag that keeps evaluations apart.
  inFlight : Bool
  generation : UInt64
  current : Option Results
  -- The evaluations that raised the flag, in that order.
  calls : List Call
  -- Results that are stored are told to the log, with their total.
  logs : Bool

/-- What may happen to a session. An evaluation is named by its place among those that raised the
flag. -/
inductive Action where
  | evaluate (plan : Plan)
  | answer (call : Nat) (answer : Answer)
  | resume (call : Nat)
  | store (call : Nat)
  | cancel (call : Nat)
  | clear

abbrev Verdict := Except EvaluationError Outcome

def EvaluationError.message : EvaluationError → String
  | .inProgress => "evaluation failed: an evaluation is already in progress"
  | .transport evaluator detail => s!"evaluation failed: {evaluator} transport error: {detail}"
  | .malformed fault => s!"evaluation failed: malformed response: {fault.message}"
  | .lengthMismatch expected actual =>
    s!"evaluation failed: expected {expected} results, got {actual}"

namespace Call

def isAsking (c : Call) : Bool :=
  match c.stage with
  | .asking => true
  | .answered _ | .storing _ => false

def holdsFlag (c : Call) : Bool := c.awaited || c.isAsking

def leave (c : Call) : Call := { c with awaited := false }

end Call

def Results.ofAnswer (plan : Plan) (raw : Json) : Except EvaluationError Results := do
  let response ← (Response.read raw).mapError .malformed
  if response.results.length ≠ plan.length then
    .error (.lengthMismatch plan.length response.results.length)
  return .ofResponse plan response

namespace Session

def fresh (logs : Bool) : Session := ⟨false, 0, none, [], logs⟩

def setCall (s : Session) (i : Nat) (old new : Call) : Session :=
  { s with
    calls := s.calls.set i new
    -- The flag goes down with its last holder.
    inFlight := if old.holdsFlag && !new.holdsFlag then false else s.inFlight }

def begin (s : Session) (plan : Plan) : Session × Option Verdict :=
  if s.inFlight then (s, some (.error .inProgress))
  else
    ({ s with inFlight := true, calls := s.calls ++ [⟨plan, s.generation, true, .asking⟩] }, none)

def takeUp (s : Session) (i : Nat) (c : Call) (answer : Answer) : Session × Option Verdict :=
  match answer with
  | .error e => (s.setCall i c c.leave, some (.error e))
  | .ok raw =>
    -- A clear that came in the meantime makes any answer stale, whatever the checks would say.
    if s.generation ≠ c.generation then (s.setCall i c c.leave, some (.ok .stale))
    else
      match Results.ofAnswer c.plan raw with
      | .error e => (s.setCall i c c.leave, some (.error e))
      | .ok results => (s.setCall i c { c with stage := .storing results }, none)

/-- How an evaluation ends that has stored its results. Their total is computed for the log alone,
and only if the log takes it. -/
def outcome (s : Session) (results : Results) : Outcome :=
  if s.logs && results.total?.isNone then .crashed results else .applied results

def storeResults (s : Session) (i : Nat) (c : Call) (results : Results) :
    Session × Option Verdict :=
  -- A clear may have come since the checks.
  if s.generation ≠ c.generation then (s.setCall i c c.leave, some (.ok .stale))
  else ({ s.setCall i c c.leave with current := some results }, some (.ok (s.outcome results)))

/-- One step, with the verdict that it returns to a caller. An action that is not possible now has
no step. -/
def step (s : Session) : Action → Option (Session × Option Verdict)
  | .evaluate plan => some (s.begin plan)
  | .answer i answer => do
    let c ← s.calls[i]?
    match c.stage with
    | .asking => some (s.setCall i c { c with stage := .answered answer }, none)
    | .answered _ | .storing _ => none
  | .resume i => do
    let c ← s.calls[i]?
    match c.awaited, c.stage with
    | true, .answered answer => some (s.takeUp i c answer)
    | _, _ => none
  | .store i => do
    let c ← s.calls[i]?
    match c.awaited, c.stage with
    | true, .storing results => some (s.storeResults i c results)
    | _, _ => none
  | .cancel i => do
    let c ← s.calls[i]?
    if c.awaited then some (s.setCall i c c.leave, none) else none
  | .clear => some ({ s with generation := s.generation + 1, current := none }, none)

def runActions (s : Session) (actions : List Action) : Session × Option Verdict :=
  actions.foldl
    (fun (s, verdict) a =>
      match s.step a with
      | some (s, some v) => (s, some v)
      | some (s, none) => (s, verdict)
      -- What is not possible now is passed over.
      | none => (s, verdict))
    (s, none)

def finish (s : Session) (call : Nat) (answer : Answer) : Session × Option Verdict :=
  s.runActions [.answer call answer, .resume call, .store call]

def evaluate (s : Session) (plan : Plan) (answer : Answer) : Session × Verdict :=
  match s.begin plan with
  | (s, some verdict) => (s, verdict)
  | (s, none) =>
    -- The evaluation that was just begun is the last one, and it comes to a verdict.
    let (s, verdict) := s.finish (s.calls.length - 1) answer
    (s, verdict.getD (.error .inProgress))

def clear (s : Session) : Session := (s.runActions [.clear]).1

end Session
end ConstraintGraph
