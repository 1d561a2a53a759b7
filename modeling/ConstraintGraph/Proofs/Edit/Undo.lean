import ConstraintGraph.Proofs.Edit.Fields
import ConstraintGraph.Proofs.Edit.WellBuilt

namespace ConstraintGraph

namespace Node

variable {node node' node'' : Node} {u u' : NodeUpdate} {v : Variable}
  {types : Std.ExtTreeSet String compare}

/-- An update that puts back what stood in the field restores the node, if the table of qualified
counts is not concerned. -/
theorem Sets.undo (h : node.Sets u node') (h' : node'.Sets u' node'') (hfield : u'.field = u.field)
    (hvalue : node.get u'.field = some u'.value)
    (hu : ∀ qualifier value, u ≠ .qualifiedCount qualifier value)
    (hu' : ∀ qualifier value, u' ≠ .qualifiedCount qualifier value) : node'' = node := by
  have hget : ∀ f, node''.get f = node.get f := by
    intro f
    by_cases hf : f = u'.field
    · subst hf
      exact h'.get_field.trans hvalue.symm
    · exact (h'.get_other f hf).trans (h.get_other f (hfield ▸ hf))
  exact eq_of_get (h'.id_eq.trans h.id_eq) hget
    ((h'.counts?_eq_none_iff hu').trans (h.counts?_eq_none_iff hu))

/-- A variable can be added where the node does not introduce it. -/
theorem exists_update_addVariable_iff :
    (∃ node', node.update (.addVariable v types) = .ok node') ↔
      node.get (.variable v) = some none := by
  obtain ⟨id, body⟩ := node
  cases body with
  | gate kind =>
    constructor
    · rintro ⟨node', h⟩
      cases h
    · intro h
      cases h
  | event data =>
    have hcontains : (data.table v.kind).contains v.index = (data.table v.kind)[v.index]?.isSome :=
      Std.ExtTreeMap.contains_eq_isSome_getElem?
    show _ ↔ some (data.table v.kind)[v.index]? = some none
    cases hentry : (data.table v.kind)[v.index]? with
    | none =>
      rw [hentry, Option.isSome_none] at hcontains
      exact iff_of_true (by simp [update, EventNode.update, hcontains, Except.map]) rfl
    | some old =>
      rw [hentry, Option.isSome_some] at hcontains
      have hthere : some (some old) ≠ some none := by simp
      exact iff_of_false (by simp [update, EventNode.update, hcontains, Except.map]) hthere

/-- A variable can be removed where the node introduces it. -/
theorem exists_update_removeVariable_iff :
    (∃ node', node.update (.removeVariable v) = .ok node') ↔
      ∃ types, node.get (.variable v) = some (some types) := by
  obtain ⟨id, body⟩ := node
  cases body with
  | gate kind =>
    constructor
    · rintro ⟨node', h⟩
      cases h
    · rintro ⟨types, h⟩
      cases h
  | event data =>
    have hcontains : (data.table v.kind).contains v.index = (data.table v.kind)[v.index]?.isSome :=
      Std.ExtTreeMap.contains_eq_isSome_getElem?
    show _ ↔ ∃ types, some (data.table v.kind)[v.index]? = some (some types)
    cases hentry : (data.table v.kind)[v.index]? with
    | none =>
      rw [hentry, Option.isSome_none] at hcontains
      have habsent : ¬ ∃ types : Std.ExtTreeSet String compare, some none = some (some types) := by
        simp
      exact iff_of_false (by simp [update, EventNode.update, hcontains, Except.map]) habsent
    | some types =>
      rw [hentry, Option.isSome_some] at hcontains
      exact iff_of_true (by simp [update, EventNode.update, hcontains, Except.map]) ⟨types, rfl⟩

theorem update_removeVariable_of_added (h : node.update (.addVariable v types) = .ok node') :
    node'.update (.removeVariable v) = .ok node := by
  have hsets := sets_of_update h
  have habsent : node.get (.variable v) = some none := exists_update_addVariable_iff.1 ⟨node', h⟩
  obtain ⟨node'', h'⟩ := exists_update_removeVariable_iff.2 ⟨types, hsets.get_field⟩
  rw [h', hsets.undo (sets_of_update h') rfl habsent nofun nofun]

theorem update_addVariable_of_removed (h : node.update (.removeVariable v) = .ok node')
    (htypes : node.get (.variable v) = some (some types)) :
    node'.update (.addVariable v types) = .ok node := by
  have hsets := sets_of_update h
  obtain ⟨node'', h'⟩ := exists_update_addVariable_iff.2 hsets.get_field
  rw [h', hsets.undo (sets_of_update h') rfl htypes nofun nofun]

end Node

namespace Graph

variable {g g' : Graph} {e : Edge} {node : Node} {id : String} {v : Variable}
  {types : Std.ExtTreeSet String compare}

/-- A new edge has an id that no other one has. -/
theorem id_ne_of_addEdge (h : g.apply (.addEdge e) = .ok g') : ∀ f ∈ g.edges, f.id ≠ e.id := by
  intro f hf hid
  obtain ⟨hcheck, -⟩ := apply_addEdge h
  obtain ⟨_, _, sourceHandle, targetHandle, hadmits⟩ := checkConnection_eq_ok_iff.1 hcheck
  have hduplicate : g.hasDuplicate e sourceHandle targetHandle = true :=
    List.any_eq_true.2 ⟨f, hf, by simp [hid]⟩
  rw [hadmits.fresh] at hduplicate
  cases hduplicate

/-- The id of the new edge is its own, so its deletion takes out no other. -/
theorem deleteEdge_of_added (h : g.apply (.addEdge e) = .ok g') :
    g'.apply (.deleteEdge e.id) = .ok g := by
  have hkept : g.edges.filter (·.id != e.id) = g.edges :=
    List.filter_eq_self.2 fun f hf => bne_iff_ne.2 (id_ne_of_addEdge h f hf)
  obtain ⟨-, rfl⟩ := apply_addEdge h
  have hthere : (edge? { g with edges := g.edges ++ [{ e with data := some e.constraint }] }
      e.id).isSome = true := by
    simp [edge?]
  rw [apply, if_pos hthere, List.filter_append, hkept]
  simp

/-- The deletion of a new node takes the edges with it that named the node before it was there. -/
theorem deleteNode_of_added_iff (h : g.apply (.addNode node) = .ok g') :
    g'.apply (.deleteNode node.id) = .ok g ↔
      ∀ e ∈ g.edges, e.source ≠ node.id ∧ e.target ≠ node.id := by
  obtain ⟨hnew, rfl⟩ := apply_addNode h
  have hkept : g.nodes.filter (·.id != node.id) = g.nodes := by
    refine List.filter_eq_self.2 fun other hother => bne_iff_ne.2 fun hid => ?_
    rw [hasNode_iff.2 ⟨other, hother, hid⟩] at hnew
    cases hnew
  have hthere : hasNode { g with nodes := g.nodes ++ [node] } node.id = true :=
    hasNode_iff.2 ⟨node, by simp, rfl⟩
  rw [apply, if_pos hthere, List.filter_append, hkept]
  obtain ⟨nodes, edges⟩ := g
  simp

/-- In a graph that commands have built up no edge names a node that is yet to be added. -/
theorem IsWellBuilt.ends_ne_of_addNode (hg : g.IsWellBuilt) (h : g.apply (.addNode node) = .ok g') :
    ∀ e ∈ g.edges, e.source ≠ node.id ∧ e.target ≠ node.id := by
  obtain ⟨hnew, -⟩ := apply_addNode h
  intro e he
  obtain ⟨-, hsource, htarget⟩ := isLinked_iff.1 (hg.linked e he)
  constructor
  · intro hid
    rw [hid, hnew] at hsource
    cases hsource
  · intro hid
    rw [hid, hnew] at htarget
    cases htarget

/-- A variable that was added can be removed without a trace. -/
theorem removeVariable_of_added (h : g.apply (.updateNode id (.addVariable v types)) = .ok g') :
    g'.apply (.updateNode id (.removeVariable v)) = .ok g := by
  obtain ⟨hnodes, hedges⟩ := apply_updateNode_iff.1 h
  have hback := hnodes.symm fun _ _ hupdate hid => (Node.update_eq_ok hupdate).1.trans hid
  refine apply_updateNode_iff.2 ⟨hback.imp (fun _ => Iff.rfl) fun y x hupdate => ?_, hedges.symm⟩
  exact Node.update_removeVariable_of_added hupdate

/-- Which types a variable had is to be seen at the first node of the id. -/
theorem addVariable_of_removed (h : g.apply (.updateNode id (.removeVariable v)) = .ok g') :
    ∃ node types, g.node? id = some node ∧ node.get (.variable v) = some (some types) ∧
      g'.apply (.updateNode id (.addVariable v types)) = .ok g := by
  obtain ⟨⟨before, x, y, rest, hxs, hbefore, hx, hupdate, hys⟩, hedges⟩ := apply_updateNode_iff.1 h
  obtain ⟨types, htypes⟩ := Node.exists_update_removeVariable_iff.1 ⟨y, hupdate⟩
  have hnode : g.node? id = some x :=
    List.find?_eq_some_iff_append.2 ⟨by simpa using hx, before, rest, hxs, by simpa using hbefore⟩
  have hback : y.update (.addVariable v types) = .ok x :=
    Node.update_addVariable_of_removed hupdate htypes
  have hid : y.id = id := (Node.update_eq_ok hupdate).1.trans hx
  exact ⟨x, types, hnode, htypes, apply_updateNode_iff.2
    ⟨⟨before, y, x, rest, hys, hbefore, hid, hback, hxs⟩, hedges.symm⟩⟩

/-- A new edge and a new variable can be deleted again, and a deleted variable can be added again
with the types that it had, and the graph is as it was. So it is after the deletion of a new node if
no edge names the node, which is always so in a graph that commands have built up. -/
theorem apply_undone (g : Graph) :
    (∀ e g', g.apply (.addEdge e) = .ok g' → g'.apply (.deleteEdge e.id) = .ok g) ∧
      (∀ node g', g.apply (.addNode node) = .ok g' →
        (g'.apply (.deleteNode node.id) = .ok g ↔
          ∀ e ∈ g.edges, e.source ≠ node.id ∧ e.target ≠ node.id)) ∧
      (∀ commands : List Command, (∀ c ∈ commands, c.replaces = false) →
        g = Graph.empty.afterAll commands → ∀ node g', g.apply (.addNode node) = .ok g' →
          (∀ e ∈ g.edges, e.source ≠ node.id ∧ e.target ≠ node.id) ∧
            g'.apply (.deleteNode node.id) = .ok g) ∧
      (∀ id v types g', g.apply (.updateNode id (.addVariable v types)) = .ok g' →
        g'.apply (.updateNode id (.removeVariable v)) = .ok g) ∧
      ∀ id v g', g.apply (.updateNode id (.removeVariable v)) = .ok g' →
        ∃ node types, g.node? id = some node ∧ node.get (.variable v) = some (some types) ∧
          g'.apply (.updateNode id (.addVariable v types)) = .ok g := by
  refine ⟨fun e g' h => deleteEdge_of_added h, fun node g' h => deleteNode_of_added_iff h, ?_,
    fun id v types g' h => removeVariable_of_added h, fun id v g' h => addVariable_of_removed h⟩
  intro commands hcommands hg node g' h
  have hbuilt : g.IsWellBuilt := hg ▸ IsWellBuilt.afterAll hcommands
  -- A new id has no edges, since those of a built-up graph are linked.
  have hends := hbuilt.ends_ne_of_addNode h
  exact ⟨hends, (deleteNode_of_added_iff h).2 hends⟩

/-- The new node has the id of one that was deleted, whose edge went with it. -/
theorem apply_undone_afterAll :
    let commands : List Command := [.addNode ⟨"pay", .event EventNode.empty⟩,
      .addNode ⟨"ship", .event EventNode.empty⟩, .addEdge (.link "pay" "ship"), .deleteNode "ship"]
    let g := Graph.empty.afterAll commands
    let g' : Graph := ⟨g.nodes ++ [⟨"ship", .gate .not⟩], []⟩
    (∀ c ∈ commands, c.replaces = false) ∧ g.apply (.addNode ⟨"ship", .gate .not⟩) = .ok g' ∧
      g'.apply (.deleteNode "ship") = .ok g := by
  intro commands g g'
  have hcommands : ∀ c ∈ commands, c.replaces = false := by simp [commands, Command.replaces]
  have hadd : g.apply (.addNode ⟨"ship", .gate .not⟩) = .ok g' := by decide +kernel
  exact ⟨hcommands, hadd, ((apply_undone g).2.2.1 commands hcommands rfl _ _ hadd).2⟩

end Graph
end ConstraintGraph
