import ConstraintGraph.Proofs.CommandLine.Verdicts
import ConstraintGraph.Proofs.Evaluation.Attribution
import ConstraintGraph.Proofs.Reading.Plans
import ConstraintGraph.Proofs.Service.Effects

namespace ConstraintGraph

def Json.Lists (j : Json) (key : String) (texts : List String) : Prop :=
  ∃ items, j = .array items ∧ items.map (·.get? key) = texts.map fun text => some (.string text)

def Reply.member? (r : Reply) (key : String) : Option Json := r.body.bind (·.get? key)

/-- No other member stands in the way where keys do not come twice. -/
theorem Json.get?_eq_some_of_mem {ms : List (String × Json)} {key : String} {j : Json}
    (hms : (ms.map Prod.fst).Nodup) (hmem : (key, j) ∈ ms) :
    (Json.object ms).get? key = some j := by
  -- The look-up goes from the last member to the first.
  have hreverse : (ms.reverse.map Prod.fst).Nodup := by
    rw [List.map_reverse, List.nodup_reverse]
    exact hms
  rw [get?, find?_eq_some_of_nodup hreverse (List.mem_reverse.2 hmem)]
  rfl

theorem PlanEntry.get?_id (e : PlanEntry) : e.toJson.get? "id" = some (.string e.id) :=
  Json.get?_eq_some_of_mem e.nodup_keys_members (List.mem_cons_self ..)

theorem Plan.lists_id (p : Plan) :
    (Json.array (p.entries.map PlanEntry.toJson)).Lists "id" p.nodeIds := by
  refine ⟨_, rfl, ?_⟩
  rw [nodeIds, List.map_map, List.map_map]
  exact List.map_congr_left fun e _ => e.get?_id

theorem Results.lists_nodeId (view : Results) :
    (Json.array (view.results.map fun r =>
      .object (("nodeId", .string r.node) :: r.result.members))).Lists "nodeId"
        (view.results.map (·.node)) := by
  refine ⟨_, rfl, ?_⟩
  rw [List.map_map, List.map_map]
  rfl

/-- Results that pass the checks are labelled with the steps, in order. -/
theorem Plan.nodes_of_resultsOf {plan : Plan} {answer : Answer} {view : Results}
    (hids : plan.nodeIds.Nodup) (h : plan.resultsOf answer = .ok view) :
    view.results.map (·.node) = plan.nodeIds := by
  cases answer with
  | error fault => cases h
  | ok raw =>
    obtain ⟨r, -, hlabels⟩ := (Results.ofAnswer_eq_ok_iff_labels hids).1 h
    exact hlabels.nodes_eq

/-- The bodies that are posted to have a graph evaluated, by the service as by the command line. -/
def Graph.posts (g : Graph) : List String := (g.plan.toOption.map RemoteEvaluator.request).toList

theorem Graph.diagnostics_of_plan {g : Graph} {e : CompileError} (h : g.plan = .error e) :
    e.diagnostics = g.compile.diagnostics := by
  unfold plan Compilation.plan at h
  split at h
  · obtain rfl := Except.error.inj h
    rfl
  · cases h

namespace CommandLine.Host

variable {h : Host} {g : Graph} {path : String}

theorem posts_evaluate (logs : Bool) (e : RemoteEvaluator) (limit : Nat)
    (hgraph : h.loadGraph path = .ok g) :
    (h.evaluate logs path e none limit).posts.map (·.body) = g.posts := by
  unfold evaluate
  rw [hgraph]
  cases hplan : g.plan with
  | error fault =>
    rw [Graph.posts, hplan]
    simp only [bind, Except.bind, hplan, Except.mapError]
    rfl
  | ok plan =>
    rw [Graph.posts, hplan]
    simp only [bind, Except.bind, hplan, Except.mapError]
    rfl

end CommandLine.Host

/-- An evaluation is refused with the diagnostics that were shown, and nothing is done. -/
structure Exchange.Refuses (e : Exchange) (s : Service) (shown : Reply) : Prop where
  status_eq : e.reply.status = 422
  diagnostics : ∃ diagnostics, shown.member? "diagnostics" = some diagnostics ∧
    e.reply.member? "diagnostics" = some diagnostics
  posts_eq : e.posts = []
  service_eq : e.service = s

/-- The plan that was shown is posted once, and results that are applied name its steps in order. -/
structure Exchange.Evaluates (e : Exchange) (plan : Json) : Prop where
  posts_eq : e.posts = [plan.normalize.compact]
  labels : e.reply.member? "status" = some (.string "applied") →
    ∃ ids steps results rows, plan.get? "nodesOrder" = some steps ∧ steps.Lists "id" ids ∧
      e.reply.member? "results" = some results ∧ results.get? "results" = some rows ∧
      rows.Lists "nodeId" ids

namespace Service

variable {deliver : String → Delivery} {s : Service} {plan : Plan}

theorem member?_compilation (g : Graph) :
    (compilation g).member? "ok" = some (.bool g.plan.toOption.isSome) ∧
      (compilation g).member? "plan" = some (Json.ofOption Plan.toJson g.plan.toOption) ∧
      (compilation g).member? "diagnostics" =
        some (.array (g.compile.diagnostics.map Diagnostic.toJson)) :=
  ⟨rfl, rfl, rfl⟩

/-- Only an outcome with stored results is told as applied. -/
theorem verdict_of_applied {v : Verdict}
    (h : (verdictReply v).member? "status" = some (.string "applied")) :
    ∃ view, v = .ok (.applied view) := by
  cases v with
  | error e =>
    have hnone : ∀ status message, (Reply.error status message).member? "status" = none :=
      fun _ _ => rfl
    cases e <;> exact absurd ((hnone _ _).symm.trans h) nofun
  | ok outcome =>
    cases outcome with
    | applied view => exact ⟨view, rfl⟩
    | stale => exact absurd h (by decide)
    | crashed => exact absurd h nofun

/-- A service that is not busy posts the plan of its graph, or nothing if there is none. -/
theorem posts_evaluate (deliver : String → Delivery) (down : s.session.inFlight = false) :
    (s.evaluate deliver).posts = s.graph.posts := by
  rw [Graph.posts]
  cases hplan : s.graph.plan with
  | error e =>
    rw [evaluate, hplan]
    rfl
  | ok plan =>
    obtain ⟨last, heq⟩ := exists_evaluate_eq deliver hplan down
    rw [heq]
    rfl

/-- A graph that does not compile is refused with what the compile route shows. -/
theorem evaluate_refuses {e : CompileError} (hplan : s.graph.plan = .error e) :
    (s.evaluate deliver).Refuses s (compilation s.graph) := by
  obtain ⟨-, -, hdiagnostics⟩ := member?_compilation s.graph
  rw [evaluate, hplan]
  refine ⟨rfl, ⟨_, hdiagnostics, ?_⟩, rfl, rfl⟩
  rw [← Graph.diagnostics_of_plan hplan]
  rfl

/-- A graph that compiles has the plan evaluated that the compile route shows. -/
theorem evaluate_evaluates (hplan : s.graph.plan = .ok plan) (down : s.session.inFlight = false) :
    (s.evaluate deliver).Evaluates plan.toJson := by
  obtain ⟨last, heq⟩ := exists_evaluate_eq deliver hplan down
  rw [heq]
  refine ⟨rfl, fun happlied => ?_⟩
  generalize RemoteEvaluator.answer (deliver (RemoteEvaluator.request plan)) = answer at happlied ⊢
  obtain ⟨view, hverdict⟩ := verdict_of_applied happlied
  -- An answer that does not pass the checks is not told as applied.
  cases hresults : plan.resultsOf answer with
  | error fault =>
    rw [hresults] at hverdict
    cases hverdict
  | ok results =>
    rw [hresults] at hverdict
    have houtcome : s.session.outcome results = .applied view := Except.ok.inj hverdict
    have hstored := s.session.stored?_outcome results
    rw [houtcome] at hstored
    obtain rfl : view = results := Option.some.inj hstored
    simp only [Except.map, houtcome]
    have hnodes : view.results.map (·.node) = plan.nodeIds :=
      Plan.nodes_of_resultsOf (Graph.nodup_nodeIds hplan) hresults
    exact ⟨plan.nodeIds, _, view.toJson, _, rfl, plan.lists_id, rfl, rfl,
      hnodes ▸ view.lists_nodeId⟩

/-- In every state without an evaluation in flight, whatever the evaluator answers: a graph that the
compile route shows not to compile is not evaluated, and of one that compiles the plan that is shown
is evaluated. The command line posts the same for the graph in a file. -/
theorem evaluates_what_compile_shows (deliver : String → Delivery) {s : Service}
    {look ask : Request} (down : s.session.inFlight = false) (hlook : look.Asks "GET" .compile)
    (hask : ask.Asks "POST" .evaluate) :
    (∃ ok, (s.handle deliver look).reply.member? "ok" = some (.bool ok) ∧
      (ok = false → (s.handle deliver ask).Refuses s (s.handle deliver look).reply) ∧
      (ok = true → ∃ plan, (s.handle deliver look).reply.member? "plan" = some plan ∧
        (s.handle deliver ask).Evaluates plan)) ∧
    ∀ (h : CommandLine.Host) (i : CommandLine.Invocation) settings path evaluator limit,
      i.job = .evaluate path evaluator none limit → h.settings i.settings = .ok settings →
      LogFilter.isValid (CommandLine.Host.logFilter settings i.quiet) = true →
      h.loadGraph path = .ok s.graph →
        (h.perform i).posts.map (·.body) = (s.handle deliver ask).posts := by
  have hshown : s.handle deliver look = s.answer (compilation s.graph) :=
    handle_of_asks deliver s hlook (by decide) (by decide)
  have hevaluate : s.handle deliver ask = s.evaluate deliver :=
    handle_of_asks deliver s hask (by decide) (by decide)
  rw [hshown, hevaluate]
  -- Both routes ask for the plan of the graph, and so does the command line.
  constructor
  · obtain ⟨hok, hplan?, -⟩ := member?_compilation s.graph
    cases hplan : s.graph.plan with
    | error e =>
      rw [hplan] at hok
      exact ⟨false, hok, fun _ => evaluate_refuses hplan, nofun⟩
    | ok plan =>
      rw [hplan] at hok hplan?
      exact ⟨true, hok, nofun, fun _ => ⟨plan.toJson, hplan?, evaluate_evaluates hplan down⟩⟩
  · intro h i settings path evaluator limit hjob hsettings hfilter hgraph
    rw [posts_evaluate deliver down, CommandLine.Host.perform_eq_doJob hsettings hfilter, hjob]
    exact CommandLine.Host.posts_evaluate _ _ limit hgraph

/-- A graph of one node compiles and is evaluated, by the service and from a file; with the node
twice in it the graph does not compile. -/
theorem evaluates_what_compile_shows_repeated_node :
    ∃ (good bad : Service) (deliver : String → Delivery) (look ask : Request)
      (h : CommandLine.Host) (i : CommandLine.Invocation) (plan : Json),
      good.graph.nodes.map (·.id) = ["pay"] ∧ bad.graph.nodes.map (·.id) = ["pay", "pay"] ∧
      i.job = .evaluate "graph" none none 5 ∧ h.loadGraph "graph" = .ok good.graph ∧
      (bad.handle deliver look).reply.member? "ok" = some (.bool false) ∧
      (bad.handle deliver ask).Refuses bad (bad.handle deliver look).reply ∧
      (good.handle deliver look).reply.member? "plan" = some plan ∧
      (good.handle deliver ask).Evaluates plan ∧
      (good.handle deliver ask).reply.member? "status" = some (.string "applied") ∧
      (h.perform i).posts.map (·.body) = [plan.normalize.compact] := by
  let pay : Node :=
    ⟨"pay", .event { EventNode.empty with objectVariables := .ofList [(0, ∅)] compare }⟩
  let good : Service := ⟨⟨[pay], []⟩, .fresh true⟩
  let bad : Service := ⟨⟨[pay, pay], []⟩, ⟨false, 1, some ⟨[], ["e"], []⟩, [], true⟩⟩
  let response : Json := .object [("evaluationResults", .array
    [.object [("situationCount", .int 2), ("situationViolatedCount", .int 1)]])]
  let deliver : String → Delivery := fun _ => .replied 200 response.compact
  let look : Request := ⟨"GET", "/graph/compile", none, ""⟩
  let ask : Request := ⟨"POST", "/evaluate", none, ""⟩
  let h : CommandLine.Host :=
    ⟨fun path => if path = "graph" then .text good.graph.toJson.compact else .absent,
      fun _ => none, fun _ _ => .unreachable⟩
  let i : CommandLine.Invocation := ⟨.text, false, none, .evaluate "graph" none none 5⟩
  have hlook : look.Asks "GET" .compile := ⟨rfl, by decide +kernel⟩
  have hask : ask.Asks "POST" .evaluate := ⟨rfl, by decide +kernel⟩
  have hload : h.loadGraph "graph" = .ok good.graph := by decide +kernel
  have hsettings : h.settings none = .ok Settings.default := by decide +kernel
  have hfilter : LogFilter.isValid (CommandLine.Host.logFilter Settings.default false) = true := by
    decide +kernel
  have hgood : (good.handle deliver look).reply.member? "ok" = some (.bool true) := by
    decide +kernel
  have hbad : (bad.handle deliver look).reply.member? "ok" = some (.bool false) := by
    decide +kernel
  -- The theorem at both services: one with a plan and one without.
  obtain ⟨⟨ok, hok, -, hevaluates⟩, hposts⟩ :=
    evaluates_what_compile_shows deliver (s := good) rfl hlook hask
  obtain ⟨⟨ok', hok', hrefuses, -⟩, -⟩ :=
    evaluates_what_compile_shows deliver (s := bad) rfl hlook hask
  obtain rfl : true = ok := Json.bool.inj (Option.some.inj (hgood.symm.trans hok))
  obtain rfl : false = ok' := Json.bool.inj (Option.some.inj (hbad.symm.trans hok'))
  obtain ⟨plan, hplan, hevaluates⟩ := hevaluates rfl
  exact ⟨good, bad, deliver, look, ask, h, i, plan, rfl, rfl, rfl, hload, hbad, hrefuses rfl, hplan,
    hevaluates, by decide +kernel,
    (hposts h i Settings.default "graph" none 5 rfl hsettings hfilter hload).trans
      hevaluates.posts_eq⟩

end Service
end ConstraintGraph
