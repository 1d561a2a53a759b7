import ConstraintGraph.Evaluation.Session
import ConstraintGraph.Json.Writer

namespace ConstraintGraph

structure StaticEvaluator where
  canned : Json

namespace StaticEvaluator

def name : String := "static"

def ofResponse (r : Response) : StaticEvaluator := ⟨r.toJson⟩

def empty : StaticEvaluator := ⟨.null⟩

def answer (e : StaticEvaluator) (plan : Plan) : Answer :=
  -- A `null` stands for a result of no situations for every step.
  if e.canned = .null then .ok (Response.zero plan.length).toJson else .ok e.canned

end StaticEvaluator

inductive Delivery where
  | unreachable
  | replied (status : Nat) (body : String)
deriving DecidableEq, Repr, Inhabited

structure RemoteEvaluator where
  base : String

namespace RemoteEvaluator

def name : String := "http"

def path : String := "ocel/check-constraints"

def endpoint (e : RemoteEvaluator) : String :=
  -- Slashes at the end of the base do not count.
  String.ofList (e.base.toList.reverse.dropWhile (· == '/')).reverse ++ "/" ++ path

def request (plan : Plan) : String := (plan.toJson).normalize.compact

-- What went wrong is worded by the network.
def failure : EvaluationError := .transport name "<detail>"

def answer : Delivery → Answer
  | .unreachable => .error failure
  | .replied status body =>
    if 400 ≤ status then .error failure
    else
      match Json.ofText? body with
      | some j => .ok j
      | none => .error failure

end RemoteEvaluator
end ConstraintGraph
