import ConstraintGraph.Proofs.Edit.Replays
import ConstraintGraph.Proofs.Reading.Values
import ConstraintGraph.Proofs.Service.Effects

namespace ConstraintGraph

/-- The commands that a body writes: those of the items of an array, or a single one. -/
inductive Command.Written : Json → List Command → Prop
  | batch {items : List Json} {commands : List Command}
    (each : List.Forall₂ (fun item c => Command.ofJson.run item = .ok c) items commands) :
    Written (.array items) commands
  | single {body : Json} {c : Command} (one : ∀ items, body ≠ .array items)
    (reads : Command.ofJson.run body = .ok c) : Written body [c]

def Request.Edits (r : Request) : Prop := r.Asks "PUT" .graph ∨ r.Asks "POST" .commands

inductive Request.Acknowledged (r : Request) (reply : Reply) : List Command → Prop
  | graph {body : Json} {graph : Graph} (asks : r.Asks "PUT" .graph) (ok : reply.status = 200)
    (json : r.json = .ok body) (reads : Graph.ofJson.run body = .ok graph) :
    Acknowledged r reply [.replaceGraph graph]
  | commands {body : Json} {commands : List Command} (asks : r.Asks "POST" .commands)
    (ok : reply.status = 200) (json : r.json = .ok body) (written : Command.Written body commands) :
    Acknowledged r reply commands
  | nothing (apart : reply.status = 200 → ¬ r.Edits) : Acknowledged r reply []

theorem mapError_eq_ok_iff {α ε ε' : Type} {f : ε → ε'} {x : Except ε α} {a : α} :
    x.mapError f = .ok a ↔ x = .ok a := by
  cases x <;> simp [Except.mapError]

namespace Service

variable {deliver : String → Delivery} {s : Service} {r : Request} {commands : List Command}
  {e : Exchange}

/-- Commands are read from a body exactly if the body writes them. -/
theorem commandsOf_eq_ok_iff {body : Json} :
    commandsOf body = .ok commands ↔ Command.Written body commands := by
  -- An array is never read as a single command, even if it could be.
  unfold commandsOf
  split
  · rename_i items
    rw [mapError_eq_ok_iff, Json.mapM_eq_ok_iff]
    constructor
    · exact .batch
    · rintro (⟨each⟩ | ⟨one, -⟩)
      · exact each
      · exact absurd rfl (one items)
  · rename_i hone
    rw [mapError_eq_ok_iff]
    constructor
    · intro h
      cases hreads : Command.ofJson.run body with
      | error fault =>
        rw [hreads] at h
        cases h
      | ok c =>
        rw [hreads] at h
        cases h
        exact .single hone hreads
    · rintro (_ | ⟨-, reads⟩)
      · exact absurd rfl (hone _)
      · rw [reads]
        rfl

/-- A request that edits and is answered with `200` did what it asked for. -/
theorem Effect.replaced_or_edited (he : Effect deliver s r e) (hok : e.reply.status = 200)
    (hedits : r.Edits) :
    (∃ body, r.Asks "PUT" .graph ∧ r.json = .ok body ∧
      Graph.ofJson.run body = .ok e.service.graph) ∨
    ∃ body commands, r.Asks "POST" .commands ∧ r.json = .ok body ∧
      Command.Written body commands ∧ s.graph.replay commands = .ok e.service.graph := by
  -- What asks for something else does not edit.
  have hother : ∀ {method route}, r.Asks method route → (method, route) ≠ ("PUT", .graph) →
      (method, route) ≠ ("POST", .commands) → False := by
    intro method route asks hput hpost
    rcases hedits with h | h
    · exact hput (Prod.ext_iff.2 (asks.unique h))
    · exact hpost (Prod.ext_iff.2 (asks.unique h))
  cases he with
  | @refuse reply status =>
    have hstatus : reply.status = 200 := hok
    omega
  | look method =>
    -- Neither of the two methods that edit is one that only looks.
    rcases hedits with h | h
    · rw [h.1] at method
      exact absurd method (by decide)
    · rw [h.1] at method
      exact absurd method (by decide)
  | @replace body _ asks json reads => exact Or.inl ⟨body, asks, json, reads⟩
  | @edit commands _ _ asks reads replay =>
    cases hjson : r.json with
    | error refusal =>
      rw [hjson] at reads
      cases reads
    | ok body =>
      rw [hjson] at reads
      exact Or.inr ⟨body, commands, asks, rfl, commandsOf_eq_ok_iff.1 reads, replay⟩
  | evaluate asks => exact (hother asks (by decide) (by decide)).elim
  | clear asks => exact (hother asks (by decide) (by decide)).elim

theorem Effect.graph_eq (he : Effect deliver s r e) (hapart : e.reply.status = 200 → ¬ r.Edits) :
    e.service.graph = s.graph := by
  cases he with
  | replace asks => exact absurd (Or.inl asks) (hapart rfl)
  | edit asks => exact absurd (Or.inr asks) (hapart rfl)
  | _ => rfl

/-- Every reply says which commands it acknowledges. -/
theorem Effect.exists_acknowledged (he : Effect deliver s r e) :
    ∃ commands, r.Acknowledged e.reply commands := by
  by_cases hedits : e.reply.status = 200 → ¬ r.Edits
  · exact ⟨[], .nothing hedits⟩
  · obtain ⟨hok, hedits⟩ := Classical.not_imp.1 hedits
    rcases he.replaced_or_edited hok (not_not.1 hedits) with
      ⟨_, asks, json, reads⟩ | ⟨_, commands, asks, json, written, -⟩
    · exact ⟨_, .graph asks hok json reads⟩
    · exact ⟨commands, .commands asks hok json written⟩

/-- The acknowledged commands lead from the graph before the request to the one after it. -/
theorem Effect.replay_of_acknowledged (he : Effect deliver s r e)
    (hack : r.Acknowledged e.reply commands) : s.graph.replay commands = .ok e.service.graph := by
  cases hack with
  | @graph body graph asks ok json reads =>
    rcases he.replaced_or_edited ok (Or.inl asks) with ⟨_, -, hjson, hreads⟩ | ⟨_, _, hasks, -⟩
    · obtain rfl := Except.ok.inj (json.symm.trans hjson)
      have hgraph : graph = e.service.graph := Except.ok.inj (reads.symm.trans hreads)
      rw [hgraph]
      rfl
    · exact absurd (asks.unique hasks).1 (by decide)
  | commands asks ok json written =>
    rcases he.replaced_or_edited ok (Or.inr asks) with
      ⟨_, hasks, -⟩ | ⟨_, _, -, hjson, hwritten, hreplay⟩
    · exact absurd (asks.unique hasks).1 (by decide)
    · obtain rfl := Except.ok.inj (json.symm.trans hjson)
      -- A body writes one list of commands only.
      have hread := commandsOf_eq_ok_iff.2 written
      have hread' := commandsOf_eq_ok_iff.2 hwritten
      rw [Except.ok.inj (hread.symm.trans hread'), hreplay]
  | nothing apart => rw [he.graph_eq apart, Graph.replay, Graph.replayFrom]

def transcript (s : Service) (requests : List (Request × (String → Delivery))) :
    List (Request × Reply) :=
  (requests.map (·.1)).zip ((s.run requests).2.map (·.reply))

def Acknowledges (s : Service) (requests : List (Request × (String → Delivery)))
    (acknowledged : List (List Command)) : Prop :=
  List.Forall₂ (fun p commands => p.1.Acknowledged p.2 commands) (s.transcript requests)
    acknowledged

theorem transcript_cons (requests : List (Request × (String → Delivery))) :
    s.transcript ((r, deliver) :: requests) =
      (r, (s.handle deliver r).reply) :: (s.handle deliver r).service.transcript requests :=
  rfl

/-- Every history acknowledges something, if only nothing at all. -/
theorem exists_acknowledges (s : Service) (requests : List (Request × (String → Delivery))) :
    ∃ acknowledged, s.Acknowledges requests acknowledged := by
  -- The service that takes up the other requests is the one after the first.
  induction requests generalizing s with
  | nil => exact ⟨[], .nil⟩
  | cons first requests ih =>
    obtain ⟨r, deliver⟩ := first
    obtain ⟨commands, hfirst⟩ := (handle_effect deliver s r).exists_acknowledged
    obtain ⟨rest, hrest⟩ := ih (s.handle deliver r).service
    exact ⟨commands :: rest, .cons hfirst hrest⟩

/-- By induction on the requests: the graph is where the acknowledged commands lead. -/
theorem Acknowledges.replay_eq {requests : List (Request × (String → Delivery))}
    {acknowledged : List (List Command)} (hacks : s.Acknowledges requests acknowledged) :
    s.graph.replay acknowledged.flatten = .ok (s.run requests).1.graph := by
  -- By induction on the requests: the commands of the first one lead to the graph at which the
  -- commands of the others start, and two replays in a row are one.
  induction requests generalizing s acknowledged with
  | nil =>
    obtain rfl : acknowledged = [] := List.forall₂_nil_left_iff.1 hacks
    rfl
  | cons first requests ih =>
    obtain ⟨r, deliver⟩ := first
    rw [Acknowledges, transcript_cons] at hacks
    obtain ⟨commands, rest, hfirst, hrest, rfl⟩ := List.forall₂_cons_left_iff.1 hacks
    have hstep : s.graph.replay commands = .ok (s.handle deliver r).service.graph :=
      (handle_effect deliver s r).replay_of_acknowledged hfirst
    rw [List.flatten_cons]
    exact Graph.replay_append hstep (ih hrest)

/-- Whatever requests a fresh service takes up, it acknowledges commands with its replies, and all
of them one after the other lead from the empty graph to the graph that it then shows. -/
theorem graph_eq_replay_acknowledged (logs : Bool)
    (requests : List (Request × (String → Delivery))) :
    (∃ acknowledged, (fresh logs).Acknowledges requests acknowledged) ∧
    ∀ acknowledged, (fresh logs).Acknowledges requests acknowledged →
      ∃ graph, Graph.empty.replay acknowledged.flatten = .ok graph ∧
        ∀ deliver (r : Request), r.Asks "GET" .graph →
          (((fresh logs).run requests).1.handle deliver r).reply = .ok graph.toJson := by
  refine ⟨exists_acknowledges (fresh logs) requests, fun acknowledged hacks => ?_⟩
  refine ⟨((fresh logs).run requests).1.graph, hacks.replay_eq, ?_⟩
  intro deliver r asks
  rw [handle_of_asks deliver _ asks (by decide) (by decide)]
  rfl

/-- A single command, a batch that is refused at its second command, a graph, and another batch. -/
theorem graph_eq_replay_acknowledged_refused_batch :
    ∃ (requests : List (Request × (String → Delivery))) (acknowledged : List (List Command))
      (look : Request),
      (fresh true).Acknowledges requests acknowledged ∧
      ((fresh true).transcript requests).map (·.2.status) = [200, 422, 200, 200] ∧
      acknowledged.flatten = [.addNode ⟨"a", .gate .and⟩, .replaceGraph ⟨[⟨"b", .gate .or⟩], []⟩,
        .addNode ⟨"a", .gate .and⟩, .deleteNode "b"] ∧
      look.Asks "GET" .graph ∧ ∃ graph, Graph.empty.replay acknowledged.flatten = .ok graph ∧
        graph.nodes = [⟨"a", .gate .and⟩] ∧
        (((fresh true).run requests).1.handle (fun _ => .unreachable) look).reply =
          .ok graph.toJson := by
  let a : Node := ⟨"a", .gate .and⟩
  let b : Node := ⟨"b", .gate .or⟩
  let add (node : Node) : Json := .object [("command", .string "addNode"), ("node", node.toJson)]
  let delete (id : String) : Json := .object [("command", .string "deleteNode"), ("id", .string id)]
  let ask (method target : String) (body : Json) : Request × (String → Delivery) :=
    (⟨method, target, some "application/json", body.compact⟩, fun _ => .unreachable)
  let requests := [ask "POST" "/graph/commands" (add a),
    ask "POST" "/graph/commands" (.array [add b, delete "c"]),
    ask "PUT" "/graph" (Graph.toJson ⟨[b], []⟩),
    ask "POST" "/graph/commands" (.array [add a, delete "b"])]
  let look : Request := ⟨"GET", "/graph", none, ""⟩
  have hstatuses : ((fresh true).transcript requests).map (·.2.status) = [200, 422, 200, 200] := by
    decide +kernel
  obtain ⟨hsingle, hrest⟩ := List.cons.inj hstatuses
  obtain ⟨hrefused, hrest⟩ := List.cons.inj hrest
  obtain ⟨hput, hrest⟩ := List.cons.inj hrest
  obtain ⟨hbatch, -⟩ := List.cons.inj hrest
  have hadd : Command.ofJson.run (add a).normalize = .ok (.addNode a) := by decide +kernel
  have hdelete : Command.ofJson.run (delete "b").normalize = .ok (.deleteNode "b") := by
    decide +kernel
  have hgraph : Graph.ofJson.run (Graph.toJson ⟨[b], []⟩).normalize = .ok ⟨[b], []⟩ := by
    decide +kernel
  have hsingleBody : (ask "POST" "/graph/commands" (add a)).1.json = .ok (add a).normalize := by
    decide +kernel
  have hputBody : (ask "PUT" "/graph" (Graph.toJson ⟨[b], []⟩)).1.json =
      .ok (Graph.toJson ⟨[b], []⟩).normalize := by
    decide +kernel
  have hbatchBody : (ask "POST" "/graph/commands" (.array [add a, delete "b"])).1.json =
      .ok (.array [(add a).normalize, (delete "b").normalize]) := by
    decide +kernel
  have hcommands : Route.ofPath? (Target.ofText "/graph/commands").path = some .commands := by
    decide +kernel
  have hroute : Route.ofPath? (Target.ofText "/graph").path = some .graph := by decide +kernel
  have hone : ∀ items, (add a).normalize ≠ .array items := nofun
  have hack : (fresh true).Acknowledges requests
      [[.addNode a], [], [.replaceGraph ⟨[b], []⟩], [.addNode a, .deleteNode "b"]] := by
    refine .cons (.commands ⟨rfl, hcommands⟩ hsingle hsingleBody (.single hone hadd)) ?_
    -- The batch is refused for its second command and acknowledges none.
    refine .cons (.nothing fun hok => ?_) ?_
    · exact absurd (hrefused.symm.trans hok) (by decide)
    refine .cons (.graph ⟨rfl, hroute⟩ hput hputBody hgraph) ?_
    exact .cons (.commands ⟨rfl, hcommands⟩ hbatch hbatchBody
      (.batch (.cons hadd (.cons hdelete .nil)))) .nil
  have hreplay : Graph.empty.replay [.addNode a, .replaceGraph ⟨[b], []⟩, .addNode a,
      .deleteNode "b"] = .ok ⟨[a], []⟩ := by
    decide +kernel
  obtain ⟨graph, hled, hshown⟩ := (graph_eq_replay_acknowledged true requests).2 _ hack
  obtain rfl : graph = ⟨[a], []⟩ := Except.ok.inj (hled.symm.trans hreplay)
  exact ⟨requests, _, look, hack, hstatuses, rfl, ⟨rfl, hroute⟩, _, hled, rfl,
    hshown _ look ⟨rfl, hroute⟩⟩

end Service
end ConstraintGraph
