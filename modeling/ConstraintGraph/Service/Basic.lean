import ConstraintGraph.Compilation
import ConstraintGraph.Edit.Apply
import ConstraintGraph.Evaluation.Evaluator
import ConstraintGraph.Settings
import ConstraintGraph.Service.Message

/-!
The service holds one graph, which requests edit, compile and evaluate. It is a function from its
state and a request to its next state and a reply, and a request is taken up when the one before it
has been answered. The network is given as a function from the body that is posted to the evaluator
to what becomes of it.
-/

namespace ConstraintGraph

structure Service where
  graph : Graph
  session : Session

structure Exchange where
  service : Service
  reply : Reply
  posts : List String

namespace Service

def fresh (logs : Bool) : Service := ⟨Graph.empty, Session.fresh logs⟩

def answer (s : Service) (reply : Reply) : Exchange := ⟨s, reply, []⟩

def invalid (what : String) (fault : DecodeError) : Reply :=
  .error 400 (s!"invalid {what}: " ++ fault.message?.getD "<detail>")

def health : Reply :=
  .ok (.object [("status", .string "ok"), ("version", .string Program.version),
    ("evaluator", .string RemoteEvaluator.name)])

def putGraph (s : Service) (r : Request) : Exchange :=
  match r.json with
  | .error reply => s.answer reply
  | .ok body =>
    match Decoder.run Graph.ofJson body with
    | .error fault => s.answer (invalid "graph" fault)
    | .ok graph =>
      match s.graph.apply (.replaceGraph graph) with
      | .error e => s.answer (.error 422 e.message)
      | .ok graph => answer { s with graph } (.ok graph.toJson)

def commandsOf (body : Json) : Except Reply (List Command) :=
  match body with
  | .array items =>
    (items.mapM (Decoder.run Command.ofJson)).mapError (invalid "commands")
  | j => ((Decoder.run Command.ofJson j).map fun c => [c]).mapError (invalid "command")

def postCommands (s : Service) (r : Request) : Exchange :=
  match r.json >>= commandsOf with
  | .error reply => s.answer reply
  | .ok commands =>
    match s.graph.replay commands with
    -- Nothing stays of the commands before the one that is refused.
    | .error e =>
      s.answer ⟨422, some (.object [("error", .string e.error.message), ("index", .int e.index)])⟩
    | .ok graph =>
      answer { s with graph }
        (.ok (.object [("applied", .int commands.length), ("graph", graph.toJson)]))

def compilation (g : Graph) : Reply :=
  let c := g.compile
  let plan? := c.plan.toOption
  .ok (.object [("ok", .bool plan?.isSome), ("order", Json.ofStrings c.order),
    ("plan", Json.ofOption Plan.toJson plan?),
    ("diagnostics", .array (c.diagnostics.map Diagnostic.toJson))])

def kindsOf (query : List (String × String)) : Except Reply (List VariableKind) :=
  match query.filter (·.1 == "kind") with
  | [] => .ok VariableKind.all
  | [(_, text)] =>
    match VariableKind.ofText? text with
    | some kind => .ok [kind]
    | none => .error (.error 400 (VariableKind.unknownMessage text))
  | _ :: _ :: _ => .error (.bare 400)

def scope (g : Graph) (id : List Char) (query : List (String × String)) : Reply :=
  match Target.pathText? id with
  | none => .bare 400
  | some id =>
    match kindsOf query with
    | .error reply => reply
    | .ok kinds =>
      if !g.hasNode id then .error 404 s!"node '{id}' not found"
      else
        let scope := g.scope id
        .ok (.object (("node", .string id) :: kinds.map fun kind =>
          (kind.name, .array ((scope.ofKind kind).map fun index => .int index.toNat))))

def verdictReply : Verdict → Reply
  | .ok (.applied results) =>
    .ok (.object [("status", .string "applied"), ("summary", .string results.summary),
      ("results", results.toJson)])
  | .ok .stale => .ok (.object [("status", .string "stale")])
  -- A crash takes the connection down, and not the service.
  | .ok (.crashed _) => .unsent
  | .error e =>
    match e with
    | .inProgress => .error 409 e.message
    | .transport _ _ => .error 502 e.message
    | .malformed _ => .error 502 e.message
    | .lengthMismatch _ _ => .error 502 e.message

/-- Compiles the graph and has its plan evaluated. -/
def evaluate (deliver : String → Delivery) (s : Service) : Exchange :=
  match s.graph.plan with
  | .error e =>
    s.answer ⟨422, some (.object [("error", .string e.message),
      ("diagnostics", .array (e.diagnostics.map Diagnostic.toJson))])⟩
  | .ok plan =>
    let body := RemoteEvaluator.request plan
    let (session, verdict) := s.session.evaluate plan (RemoteEvaluator.answer (deliver body))
    -- Nothing is posted while another evaluation is in flight.
    ⟨{ s with session }, verdictReply verdict, if s.session.inFlight then [] else [body]⟩

def evaluation (s : Session) : Reply :=
  .ok (.object [("evaluating", .bool s.inFlight), ("generation", .int s.generation.toNat),
    ("results", Json.ofOption Results.toJson s.current)])

def clear (s : Service) : Exchange :=
  let session := s.session.clear
  answer { s with session }
    (.ok (.object [("status", .string "cleared"), ("generation", .int session.generation.toNat)]))

def dispatch (deliver : String → Delivery) (s : Service) (r : Request) (target : Target)
    (route : Route) (method : String) : Exchange :=
  match route, method with
  | .health, "GET" => s.answer health
  | .graph, "GET" => s.answer (.ok s.graph.toJson)
  | .graph, "PUT" => s.putGraph r
  | .commands, "POST" => s.postCommands r
  | .compile, "GET" => s.answer (compilation s.graph)
  | .scope id, "GET" => s.answer (scope s.graph id target.query)
  | .evaluate, "POST" => s.evaluate deliver
  | .evaluation, "GET" => s.answer (evaluation s.session)
  | .evaluation, "DELETE" => s.clear
  | _, _ => s.answer (.bare 405)

def route (deliver : String → Delivery) (s : Service) (r : Request) (method : String) : Exchange :=
  let target := Target.ofText r.target
  match Route.ofPath? target.path with
  | some route => s.dispatch deliver r target route method
  | none => s.answer (.error 404 "not found")

def handle (deliver : String → Delivery) (s : Service) (r : Request) : Exchange :=
  -- This is granted everywhere, on no route as well.
  if r.method = "OPTIONS" then s.answer (.bare 200)
  else if r.method = "HEAD" then
    let e := s.route deliver r "GET"
    { e with reply := e.reply.headOnly }
  else s.route deliver r r.method

/-- Takes up requests one after the other, and keeps the replies and the posts. The evaluator's
deliveries may change from one request to the next. -/
def run (s : Service) : List (Request × (String → Delivery)) → Service × List Exchange
  | [] => (s, [])
  | (r, deliver) :: rest =>
    let e := s.handle deliver r
    let (last, es) := run e.service rest
    (last, e :: es)

end Service
end ConstraintGraph
