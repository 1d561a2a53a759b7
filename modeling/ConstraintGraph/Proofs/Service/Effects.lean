import ConstraintGraph.Proofs.Evaluation.Interleavings
import ConstraintGraph.Proofs.Evaluation.Uninterrupted
import ConstraintGraph.Service.Basic

namespace ConstraintGraph

def Request.route? (r : Request) : Option Route := Route.ofPath? (Target.ofText r.target).path

def Request.Asks (r : Request) (method : String) (route : Route) : Prop :=
  r.method = method ∧ r.route? = some route

theorem Request.Asks.unique {r : Request} {m m' : String} {route route' : Route}
    (h : r.Asks m route) (h' : r.Asks m' route') : m = m' ∧ route = route' :=
  ⟨h.1.symm.trans h'.1, Option.some.inj (h.2.symm.trans h'.2)⟩

namespace Service

variable {deliver : String → Delivery} {s : Service} {r : Request}

/-- A body that is refused before the handlers is answered with an error. -/
theorem json_error_status {reply : Reply} (h : r.json = .error reply) : 400 ≤ reply.status := by
  unfold Request.json at h
  split at h
  · cases h
    decide
  split at h
  · cases h
    decide
  · cases hbody : Json.ofText? r.body with
    | none =>
      rw [hbody] at h
      cases h
      decide
    | some j =>
      rw [hbody] at h
      cases h

theorem commandsOf_error_status {body : Json} {reply : Reply}
    (h : commandsOf body = .error reply) : 400 ≤ reply.status := by
  -- A batch and a single command are refused alike, in other words.
  have hmap : ∀ (what : String) (found : Except DecodeError (List Command)),
      found.mapError (invalid what) = .error reply → 400 ≤ reply.status := by
    intro what found herror
    cases found with
    | error fault =>
      obtain rfl := Except.error.inj herror
      exact Nat.le_refl 400
    | ok commands => cases herror
  unfold commandsOf at h
  split at h
  · exact hmap _ _ h
  · exact hmap _ _ h

theorem read_commands_error_status {reply : Reply} (h : r.json >>= commandsOf = .error reply) :
    400 ≤ reply.status := by
  cases hjson : r.json with
  | error refusal =>
    rw [hjson] at h
    obtain rfl := Except.error.inj h
    exact json_error_status hjson
  | ok body =>
    rw [hjson] at h
    exact commandsOf_error_status h

theorem verdictReply_error_status (e : EvaluationError) :
    400 ≤ (verdictReply (.error e)).status := by
  cases e with
  | inProgress => exact (by decide : 400 ≤ 409)
  | _ => exact (by decide : 400 ≤ 502)

/-- Results that were stored are told with a `200`, or not at all. -/
theorem verdictReply_outcome (session : Session) (view : Results) :
    (verdictReply (.ok (session.outcome view))).status = 200 ∨
      verdictReply (.ok (session.outcome view)) = .unsent := by
  unfold Session.outcome
  split
  · exact Or.inr rfl
  · exact Or.inl rfl

/-- What becomes of a request: what it does to the service, the reply, and what is posted to the
evaluator. -/
inductive Effect (deliver : String → Delivery) (s : Service) (r : Request) : Exchange → Prop
  | refuse {reply : Reply} (status : 400 ≤ reply.status) : Effect deliver s r (s.answer reply)
  -- A request that can change nothing.
  | look {reply : Reply} (method : r.method ∈ ["GET", "HEAD", "OPTIONS"]) :
    Effect deliver s r (s.answer reply)
  | replace {body : Json} {graph : Graph} (asks : r.Asks "PUT" .graph) (json : r.json = .ok body)
    (reads : Decoder.run Graph.ofJson body = .ok graph) :
    Effect deliver s r ⟨{ s with graph := graph }, .ok graph.toJson, []⟩
  | edit {commands : List Command} {graph : Graph} {body : Json} (asks : r.Asks "POST" .commands)
    (reads : r.json >>= commandsOf = .ok commands) (replay : s.graph.replay commands = .ok graph) :
    Effect deliver s r ⟨{ s with graph := graph }, .ok body, []⟩
  | evaluate {plan : Plan} {last : Call} (asks : r.Asks "POST" .evaluate)
    (compiles : s.graph.plan = .ok plan) (down : s.session.inFlight = false)
    {results : Except EvaluationError Results}
    (answered : plan.resultsOf (RemoteEvaluator.answer
      (deliver (RemoteEvaluator.request plan))) = results) :
    Effect deliver s r
      ⟨{ s with session := { s.session with
          current := results.toOption.or s.session.current
          calls := s.session.calls ++ [last] } },
        verdictReply (results.map s.session.outcome), [RemoteEvaluator.request plan]⟩
  | clear {body : Json} (asks : r.Asks "DELETE" .evaluation) :
    Effect deliver s r
      ⟨{ s with session := { s.session with
          generation := s.session.generation + 1, current := none } }, .ok body, []⟩

/-- A graph that is put in place need not have a plan, only be readable. -/
theorem putGraph_effect (asks : r.Asks "PUT" .graph) : Effect deliver s r (s.putGraph r) := by
  unfold putGraph
  cases hjson : r.json with
  | error reply => exact .refuse (json_error_status hjson)
  | ok body =>
    cases hreads : Decoder.run Graph.ofJson body with
    | error fault =>
      simp only [hreads]
      exact .refuse (Nat.le_refl 400)
    | ok graph =>
      simp only [hreads]
      exact .replace asks hjson hreads

theorem postCommands_effect (asks : r.Asks "POST" .commands) :
    Effect deliver s r (s.postCommands r) := by
  unfold postCommands
  cases hreads : r.json >>= commandsOf with
  | error reply => exact .refuse (read_commands_error_status hreads)
  | ok commands =>
    cases hreplay : s.graph.replay commands with
    | error e =>
      simp only [hreplay]
      exact .refuse (by decide : 400 ≤ 422)
    | ok graph =>
      simp only [hreplay]
      exact .edit asks hreads hreplay

/-- With no evaluation in flight the plan is posted once, and the answer decides everything else. -/
theorem exists_evaluate_eq {plan : Plan} (deliver : String → Delivery)
    (compiles : s.graph.plan = .ok plan) (down : s.session.inFlight = false) :
    ∃ last, s.evaluate deliver =
      ⟨{ s with session := { s.session with
          current := (plan.resultsOf (RemoteEvaluator.answer
            (deliver (RemoteEvaluator.request plan)))).toOption.or s.session.current
          calls := s.session.calls ++ [last] } },
        verdictReply ((plan.resultsOf (RemoteEvaluator.answer
          (deliver (RemoteEvaluator.request plan)))).map s.session.outcome),
        [RemoteEvaluator.request plan]⟩ := by
  obtain ⟨last, heq⟩ := s.session.exists_evaluate_eq down plan
    (RemoteEvaluator.answer (deliver (RemoteEvaluator.request plan)))
  refine ⟨last, ?_⟩
  unfold evaluate
  rw [compiles]
  simp only [heq, down, Bool.false_eq_true, if_false]

/-- An evaluation never touches the graph. -/
theorem evaluate_effect (asks : r.Asks "POST" .evaluate) :
    Effect deliver s r (s.evaluate deliver) := by
  -- The graph is compiled first, so one without a plan is refused also while the flag is up.
  cases hplan : s.graph.plan with
  | error e =>
    unfold evaluate
    rw [hplan]
    exact .refuse (by decide : 400 ≤ 422)
  | ok plan =>
    cases hflag : s.session.inFlight with
    | true =>
      unfold evaluate
      rw [hplan]
      simp only [Session.evaluate_of_inFlight hflag, hflag, if_true]
      exact .refuse (verdictReply_error_status .inProgress)
    | false =>
      obtain ⟨last, heq⟩ := exists_evaluate_eq deliver hplan hflag
      rw [heq]
      exact .evaluate asks hplan hflag rfl

theorem route_eq (deliver : String → Delivery) (s : Service) (r : Request) (method : String) :
    s.route deliver r method =
      match r.route? with
      | some route => s.dispatch deliver r (Target.ofText r.target) route method
      | none => s.answer (.error 404 "not found") :=
  rfl

/-- What a request asks for is what it gets, unless the method is one that is there everywhere. -/
theorem handle_of_asks {method : String} {route : Route} (deliver : String → Delivery) (s : Service)
    (asks : r.Asks method route) (hoptions : method ≠ "OPTIONS") (hhead : method ≠ "HEAD") :
    s.handle deliver r = s.dispatch deliver r (Target.ofText r.target) route method := by
  obtain ⟨rfl, hroute⟩ := asks
  unfold handle
  rw [if_neg hoptions, if_neg hhead, route_eq, hroute]

/-- What is asked for with `GET` is only looked at. -/
theorem exists_route_get (deliver : String → Delivery) (s : Service) (r : Request) :
    ∃ reply, s.route deliver r "GET" = s.answer reply := by
  rw [route_eq]
  cases r.route? with
  | none => exact ⟨_, rfl⟩
  | some route => cases route <;> exact ⟨_, rfl⟩

/-- Each route has one of the six effects. -/
theorem route_effect (deliver : String → Delivery) (s : Service) (r : Request) :
    Effect deliver s r (s.route deliver r r.method) := by
  rw [route_eq]
  cases hroute : r.route? with
  | none => exact .refuse (by decide : 400 ≤ 404)
  | some route =>
    have hlook : ∀ reply : Reply, r.method = "GET" → Effect deliver s r (s.answer reply) :=
      fun reply hmethod => .look (hmethod ▸ List.mem_cons_self)
    simp only [dispatch]
    -- The cases are the rows of the table, and a last one for all that is not in it.
    split
    · exact hlook _ ‹_›
    · exact hlook _ ‹_›
    · exact putGraph_effect ⟨‹_›, hroute⟩
    · exact postCommands_effect ⟨‹_›, hroute⟩
    · exact hlook _ ‹_›
    · exact hlook _ ‹_›
    · exact evaluate_effect ⟨‹_›, hroute⟩
    · exact hlook _ ‹_›
    · exact .clear ⟨‹_›, hroute⟩
    · exact .refuse (by decide : 400 ≤ 405)

/-- Every request comes to one of the six effects. -/
theorem handle_effect (deliver : String → Delivery) (s : Service) (r : Request) :
    Effect deliver s r (s.handle deliver r) := by
  unfold handle
  by_cases hoptions : r.method = "OPTIONS"
  · rw [if_pos hoptions]
    exact .look (by simp [hoptions])
  · rw [if_neg hoptions]
    by_cases hhead : r.method = "HEAD"
    · -- It is routed as a `GET`, whatever the method of the request.
      obtain ⟨reply, heq⟩ := exists_route_get deliver s r
      rw [if_pos hhead, heq]
      exact .look (by simp [hhead])
    · rw [if_neg hhead]
      exact route_effect deliver s r

/-- What clients see of the service is the same. -/
structure Unchanged (s s' : Service) : Prop where
  graph_eq : s'.graph = s.graph
  current_eq : s'.session.current = s.session.current
  generation_eq : s'.session.generation = s.session.generation

theorem Unchanged.refl (s : Service) : s.Unchanged s := ⟨rfl, rfl, rfl⟩

variable {e : Exchange}

/-- What is refused changes nothing. -/
theorem Effect.unchanged_of_status (he : Effect deliver s r e) (hstatus : 400 ≤ e.reply.status) :
    s.Unchanged e.service := by
  have hok : ∀ body, ¬ 400 ≤ (Reply.ok body).status := fun body => (by decide : ¬ 400 ≤ 200)
  cases he with
  | refuse => exact .refl s
  | look => exact .refl s
  | replace => exact absurd hstatus (hok _)
  | edit => exact absurd hstatus (hok _)
  | clear => exact absurd hstatus (hok _)
  | @evaluate plan last _ _ _ results =>
    cases results with
    | error fault => exact ⟨rfl, rfl, rfl⟩
    | ok view =>
      have hstatus : 400 ≤ (verdictReply (.ok (s.session.outcome view))).status := hstatus
      -- Results that were stored are told as such, or nothing is sent.
      rcases verdictReply_outcome s.session view with htold | hunsent
      · rw [htold] at hstatus
        exact absurd hstatus (by decide)
      · rw [hunsent] at hstatus
        exact absurd hstatus (by decide)

/-- To ask for something changes nothing. -/
theorem Effect.unchanged_of_get (he : Effect deliver s r e) (hget : r.method = "GET") :
    s.Unchanged e.service := by
  have hother : ∀ {method route}, r.Asks method route → method = "GET" :=
    fun asks => asks.1.symm.trans hget
  cases he with
  | refuse => exact .refl s
  | look => exact .refl s
  | replace asks => exact absurd (hother asks) (by decide)
  | edit asks => exact absurd (hother asks) (by decide)
  | evaluate asks => exact absurd (hother asks) (by decide)
  | clear asks => exact absurd (hother asks) (by decide)

/-- Only these two requests change the graph. -/
theorem Effect.asks_of_graph_ne (he : Effect deliver s r e) (hne : e.service.graph ≠ s.graph) :
    r.Asks "PUT" .graph ∨ r.Asks "POST" .commands := by
  cases he with
  | replace asks => exact Or.inl asks
  | edit asks => exact Or.inr asks
  | _ => exact absurd rfl hne

/-- Only these two requests change the results. -/
theorem Effect.asks_of_current_ne (he : Effect deliver s r e)
    (hne : e.service.session.current ≠ s.session.current) :
    r.Asks "POST" .evaluate ∨ r.Asks "DELETE" .evaluation := by
  cases he with
  | evaluate asks => exact Or.inl asks
  | clear asks => exact Or.inr asks
  | _ => exact absurd rfl hne

/-- Only a clear advances the generation. -/
theorem Effect.asks_of_generation_ne (he : Effect deliver s r e)
    (hne : e.service.session.generation ≠ s.session.generation) : r.Asks "DELETE" .evaluation := by
  cases he with
  | clear asks => exact asks
  | _ => exact absurd rfl hne

/-- In whatever state the service is, a request that is answered with an error leaves graph, results
and generation as they are, and so does every `GET`; graph, results and generation are changed only
by the requests that are there for it. Where other requests come in between, the same holds of each
step of an evaluation: only the one that is answered with the results, or not at all, changes
them. -/
theorem changes_of_handle (deliver : String → Delivery) (s : Service) (r : Request) :
    (400 ≤ (s.handle deliver r).reply.status → s.Unchanged (s.handle deliver r).service) ∧
    (r.method = "GET" → s.Unchanged (s.handle deliver r).service) ∧
    ((s.handle deliver r).service.graph ≠ s.graph →
      r.Asks "PUT" .graph ∨ r.Asks "POST" .commands) ∧
    ((s.handle deliver r).service.session.current ≠ s.session.current →
      r.Asks "POST" .evaluate ∨ r.Asks "DELETE" .evaluation) ∧
    ((s.handle deliver r).service.session.generation ≠ s.session.generation →
      r.Asks "DELETE" .evaluation) ∧
    ∀ a session v, s.session.step a = some (session, v) → a ≠ .clear →
      session.generation = s.session.generation ∧
      (session.current ≠ s.session.current →
        ∃ results, session.current = some results ∧ (v = some (.ok (.applied results)) ∧
            (verdictReply (.ok (.applied results))).status = 200 ∨
          v = some (.ok (.crashed results)) ∧
            verdictReply (.ok (.crashed results)) = .unsent)) := by
  have heffect := handle_effect deliver s r
  refine ⟨heffect.unchanged_of_status, heffect.unchanged_of_get, heffect.asks_of_graph_ne,
    heffect.asks_of_current_ne, heffect.asks_of_generation_ne, ?_⟩
  intro a session v hstep hclear
  have htransition := Session.transition_of_step hstep
  refine ⟨htransition.generation_eq hclear, fun hne => ?_⟩
  -- A step that changes the results stores some.
  cases hstored : Session.Event.stored? (a, v) with
  | none => exact absurd (htransition.current_eq hclear hstored) hne
  | some stored =>
    obtain ⟨i, results⟩ := stored
    obtain ⟨-, hcurrent, -⟩ := htransition.of_stored? hstored
    obtain ⟨outcome, hevent, hresults⟩ := Session.Event.exists_of_stored? hstored
    obtain rfl : v = some (.ok outcome) := congrArg Prod.snd hevent
    refine ⟨results, hcurrent, ?_⟩
    cases outcome with
    | applied =>
      obtain rfl := Option.some.inj hresults
      exact Or.inl ⟨rfl, rfl⟩
    | stale => cases hresults
    | crashed =>
      obtain rfl := Option.some.inj hresults
      exact Or.inr ⟨rfl, rfl⟩

/-- While the results of another client wait to be stored: a batch of which the second command is
refused, a look at the results, an edit, a clear, and the storing itself. -/
theorem changes_of_handle_while_storing :
    ∃ (s : Service) (deliver : String → Delivery) (batch look edit clear : Request)
      (view : Results),
      s.graph.nodes.map (·.id) = ["a"] ∧ s.session.current = some ⟨[], [], []⟩ ∧
      batch.body = (Json.array [.object [("command", .string "deleteNode"), ("id", .string "a")],
        .object [("command", .string "deleteNode"), ("id", .string "b")]]).compact ∧
      (s.handle deliver batch).reply.status = 422 ∧ s.Unchanged (s.handle deliver batch).service ∧
      look.method = "GET" ∧ s.Unchanged (s.handle deliver look).service ∧
      (s.handle deliver edit).service.graph = .empty ∧ edit.Asks "POST" .commands ∧
      (s.handle deliver clear).service.session.current = none ∧
      (s.handle deliver clear).service.session.generation = 3 ∧
      clear.method = "DELETE" ∧ clear.route? = some .evaluation ∧
      ∃ session, s.session.step (.store 0) = some (session, some (.ok (.applied view))) ∧
        session.current = some view ∧ session.generation = 2 := by
  let view : Results := ⟨[], ["e"], []⟩
  let s : Service := ⟨⟨[⟨"a", .gate .and⟩], []⟩,
    ⟨true, 2, some ⟨[], [], []⟩, [⟨⟨[], []⟩, 2, true, .storing view⟩], true⟩⟩
  let deliver : String → Delivery := fun _ => .unreachable
  let delete (id : String) : Json := .object [("command", .string "deleteNode"), ("id", .string id)]
  let post (body : Json) : Request :=
    ⟨"POST", "/graph/commands", some "application/json", body.compact⟩
  let batch : Request := post (.array [delete "a", delete "b"])
  let look : Request := ⟨"GET", "/evaluation", none, ""⟩
  let edit : Request := post (delete "a")
  let clear : Request := ⟨"DELETE", "/evaluation", none, ""⟩
  obtain ⟨hrefused, -, -, -, -, hsteps⟩ := changes_of_handle deliver s batch
  obtain ⟨-, hlooked, -⟩ := changes_of_handle deliver s look
  obtain ⟨-, -, hedited, -⟩ := changes_of_handle deliver s edit
  obtain ⟨-, -, -, hdropped, hadvanced, -⟩ := changes_of_handle deliver s clear
  have hstatus : (s.handle deliver batch).reply.status = 422 := by decide +kernel
  have hgraph : (s.handle deliver edit).service.graph = .empty := by decide +kernel
  have hcurrent : (s.handle deliver clear).service.session.current = none := by decide +kernel
  have hgeneration : (s.handle deliver clear).service.session.generation = 3 := by decide +kernel
  have hstep : s.session.step (.store 0) = some (_, some (.ok (.applied view))) := rfl
  refine ⟨s, deliver, batch, look, edit, clear, view, rfl, rfl, rfl, hstatus,
    hrefused (hstatus ▸ by decide), rfl, hlooked rfl, hgraph, ?_, hcurrent, hgeneration, ?_, ?_, _,
    hstep, rfl, (hsteps _ _ _ hstep nofun).1⟩
  · -- Of the two requests that edit only one is a `POST`.
    rcases hedited (hgraph ▸ by decide) with hput | hpost
    · exact absurd hput.1 (by decide)
    · exact hpost
  · exact (hadvanced (hgeneration ▸ by decide)).1
  · rcases hdropped (hcurrent ▸ nofun) with hpost | hdelete
    · exact absurd hpost.1 (by decide)
    · exact hdelete.2

end Service
end ConstraintGraph
