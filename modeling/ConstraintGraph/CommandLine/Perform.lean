import ConstraintGraph.CommandLine.Invocation
import ConstraintGraph.CommandLine.Outcome
import ConstraintGraph.Evaluation.Evaluator
import ConstraintGraph.LogFilter

namespace ConstraintGraph.CommandLine

inductive FileEntry where
  | absent
  | unreadable
  | text (content : String)
deriving DecidableEq, Repr, Inhabited

structure Host where
  file : String → FileEntry
  environment : String → Option String
  deliver : String → String → Delivery

structure Post where
  address : String
  body : String
deriving DecidableEq, Repr, Inhabited

structure Outcome where
  result : Except Failure Product
  posts : List Post

namespace Outcome

def silent (result : Except Failure Product) : Outcome := ⟨result, []⟩

end Outcome

namespace Host

def content (h : Host) (role : FileRole) (path : String) : Except Failure String :=
  match h.file path with
  | .text content => .ok content
  | .absent | .unreadable => .error (.noFile role path)

def load {α : Type} (h : Host) (role : FileRole) (path : String) (read : Decoder α) :
    Except Failure α := do
  (read.runText (← h.content role path)).mapError (.badFile role path)

def loadGraph (h : Host) (path : String) : Except Failure Graph := h.load .graph path Graph.ofJson

def loadResponse (h : Host) (path : String) : Except Failure Response := do
  (Response.ofText (← h.content .response path)).mapError (.badResponse path)

def settingsIn (h : Host) (path : String) : Except SettingsError Settings :=
  match h.file path with
  | .text content =>
    match Settings.ofText? content with
    | some s => .ok s
    | none => .error (.unparsable path)
  | .absent | .unreadable => .error (.unreadable path)

def settings (h : Host) (path? : Option String) : Except SettingsError Settings := do
  let fromFile ←
    match path? with
    | some path => h.settingsIn path
    | none =>
      -- A file that is named has to be there, the default one need not be.
      if h.file Settings.defaultFile = .absent then .ok Settings.default
      else h.settingsIn Settings.defaultFile
  fromFile.override h.environment

def compile (h : Host) (graph : String) : Except Failure Product := do
  let c := (← h.loadGraph graph).compile
  let plan ← c.plan.mapError .uncompilable
  return .plan c.order c.warnings plan

def scope (h : Host) (graph node : String) (kind : Option VariableKind) :
    Except Failure Product := do
  let g ← h.loadGraph graph
  if !g.hasNode node then .error (.unknownNode node graph)
  return .scope node ((kind.map fun k => [k]).getD VariableKind.all) (g.scope node)

def replay (h : Host) (commands : String) (graph : Option String) : Except Failure Product := do
  let cs ← h.load .commands commands (Json.asList Command.ofJson)
  let g ←
    match graph with
    | some path => h.loadGraph path
    | none => .ok Graph.empty
  let g ← (g.replay cs).mapError .rejected
  return .graph cs.length g

def conclude (logs : Bool) (plan : Plan) (answer : Answer) (limit : Nat) :
    Except Failure Product :=
  match ((Session.fresh logs).evaluate plan answer).2 with
  | .ok (.applied results) => .ok (.results results limit)
  | .ok .stale => .error .discarded
  | .ok (.crashed _) => .error .crashed
  | .error e => .error (.evaluation e)

def evaluateSaved (h : Host) (logs : Bool) (plan : Plan) (response : String) (limit : Nat) :
    Except Failure Product := do
  let r ← h.loadResponse response
  conclude logs plan ((StaticEvaluator.ofResponse r).answer plan) limit

def evaluateRemotely (h : Host) (logs : Bool) (plan : Plan) (e : RemoteEvaluator) (limit : Nat) :
    Outcome :=
  let post : Post := ⟨e.endpoint, RemoteEvaluator.request plan⟩
  ⟨conclude logs plan (RemoteEvaluator.answer (h.deliver post.address post.body)) limit, [post]⟩

def evaluate (h : Host) (logs : Bool) (graph : String) (e : RemoteEvaluator)
    (response : Option String) (limit : Nat) : Outcome :=
  match (do (← h.loadGraph graph).plan.mapError .uncompilable) with
  | .error failure => .silent (.error failure)
  | .ok plan =>
    match response with
    | some path => .silent (h.evaluateSaved logs plan path limit)
    | none => h.evaluateRemotely logs plan e limit

def doJob (h : Host) (s : Settings) (logs : Bool) : Job → Outcome
  | .compile graph => .silent (h.compile graph)
  | .scope graph node kind => .silent (h.scope graph node kind)
  | .replay commands graph => .silent (h.replay commands graph)
  | .evaluate graph evaluator response limit =>
    h.evaluate logs graph ⟨evaluator.getD s.evaluator.url⟩ response limit
  | .serve _ => .silent (.error .noService)

/-- The log filter in effect, of which a quiet invocation has one of its own. -/
def logFilter (s : Settings) (quiet : Bool) : String := if quiet then "error" else s.log.level

def perform (h : Host) (i : Invocation) : Outcome :=
  match h.settings i.settings with
  | .error e => .silent (.error (.settings e))
  | .ok s =>
    -- A filter that is not valid keeps the job from being done.
    let filter := logFilter s i.quiet
    if LogFilter.isValid filter then h.doJob s (LogFilter.logs filter .stored) i.job
    else .silent (.error (.logFilter filter))

end Host
end ConstraintGraph.CommandLine
