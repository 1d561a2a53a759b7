import ConstraintGraph.Proofs.Edit.WellBuilt

namespace ConstraintGraph

open Relation

def Command.completes : Command → Bool
  | .addNode _ => true
  | .updateEdge _ _ => true
  | _ => false

/-- A cycle in a relation that gained arcs runs through one of them. -/
theorem exists_gained_arc_of_cycle {α : Type} {r r' : α → α → Prop} (hr : ∀ v, ¬ TransGen r v v)
    {v : α} (hv : TransGen r' v v) : ∃ a b, r' a b ∧ ¬ r a b ∧ ReflTransGen r' b a := by
  by_contra hnone
  have hkept : ∀ a b, r' a b → ReflTransGen r' b a → r a b := by
    intro a b hab hback
    by_contra hnew
    exact hnone ⟨a, b, hab, hnew, hback⟩
  -- From each place of the cycle the rest of it leads back, so all its arcs are old ones.
  have hpath : ∀ w, TransGen r' v w → ReflTransGen r' w v → TransGen r v w := by
    intro w h
    induction h with
    | single h =>
      intro hback
      exact .single (hkept _ _ h hback)
    | tail hvb hbc ih =>
      intro hback
      have hbefore := ih (hback.head hbc)
      exact hbefore.tail (hkept _ _ hbc (hback.trans hvb.to_reflTransGen))
  exact hr v (hpath v hv .refl)

namespace Graph

variable {g g' : Graph} {c : Command} {e : Edge} {p : Plan}

/-- An edge that carried no dependency, at the same place in both graphs, carries one now and closes
a cycle of linked edges. -/
def ClosesKept (g g' : Graph) : Prop :=
  ∃ (i : Nat) (e e' : Edge), g.edges[i]? = some e ∧ g'.edges[i]? = some e' ∧ e'.bare = e.bare ∧
    g.isLinked e = false ∧ g'.isLinked e' = true ∧ ReflTransGen g'.Link e'.target e'.source

theorem map_id_updateFirst {id : String} {u : NodeUpdate} {nodes nodes' : List Node}
    (h : updateFirst (·.id == id) (.unknownNode id) (·.update u) nodes = .ok nodes') :
    nodes'.map (·.id) = nodes.map (·.id) :=
  map_updateFirst (fun _ _ hupdate => (Node.update_eq_ok hupdate).1) h

/-- What commands do to edges. They complete those that there are, add one that passed the
connection check, or take edges and nodes away. -/
theorem edges_of_apply (hc : c.replaces = false) (h : g.apply c = .ok g') :
    (c.completes = true ∧ g'.edges.map Edge.bare = g.edges.map Edge.bare) ∨
      c.completes = false ∧ ((∃ e, g.checkConnection e = .ok () ∧ g' = g.withEdge e) ∨
        (∀ e ∈ g'.edges, e ∈ g.edges) ∧ ∀ id, g'.hasNode id = true → g.hasNode id = true) := by
  cases c with
  | addNode node =>
    obtain ⟨-, rfl⟩ := apply_addNode h
    exact Or.inl ⟨rfl, rfl⟩
  | addEdge e =>
    obtain ⟨hcheck, rfl⟩ := apply_addEdge h
    exact Or.inr ⟨rfl, Or.inl ⟨e, hcheck, rfl⟩⟩
  | deleteNode id =>
    obtain rfl := apply_deleteNode h
    refine Or.inr ⟨rfl, Or.inr ⟨fun e he => List.mem_of_mem_filter he, fun id' hid => ?_⟩⟩
    obtain ⟨node, hnode, hid⟩ := hasNode_iff.1 hid
    exact hasNode_iff.2 ⟨node, List.mem_of_mem_filter hnode, hid⟩
  | deleteEdge id =>
    obtain rfl := apply_deleteEdge h
    exact Or.inr ⟨rfl, Or.inr ⟨fun e he => List.mem_of_mem_filter he, fun _ hid => hid⟩⟩
  | updateNode id u =>
    obtain ⟨nodes, hnodes, rfl⟩ := apply_updateNode h
    refine Or.inr ⟨rfl, Or.inr ⟨fun e he => he, fun id' hid => ?_⟩⟩
    rw [hasNode_iff_mem] at hid ⊢
    rwa [← map_id_updateFirst hnodes]
  | updateEdge id u =>
    obtain ⟨edges, hedges, rfl⟩ := apply_updateEdge h
    refine Or.inl ⟨rfl, map_updateFirst (fun e e' hupdate => ?_) hedges⟩
    obtain ⟨data, rfl⟩ := Edge.update_eq_ok hupdate
    rfl
  | replaceGraph graph => simp [Command.replaces] at hc

/-- Node ids stay unique, also in a graph that was loaded. -/
theorem nodeIds_nodup_apply (hn : (g.nodes.map (·.id)).Nodup) (hc : c.replaces = false)
    (h : g.apply c = .ok g') : (g'.nodes.map (·.id)).Nodup := by
  cases c with
  | addNode node =>
    obtain ⟨hnew, rfl⟩ := apply_addNode h
    have hfresh : node.id ∉ g.nodes.map (·.id) := by
      rw [← hasNode_iff_mem, hnew]
      exact Bool.false_ne_true
    rw [List.map_append, List.map_singleton, ← List.concat_eq_append]
    exact hn.concat hfresh
  | addEdge e =>
    obtain ⟨-, rfl⟩ := apply_addEdge h
    exact hn
  | deleteNode id =>
    obtain rfl := apply_deleteNode h
    exact hn.sublist (List.filter_sublist.map _)
  | deleteEdge id =>
    obtain rfl := apply_deleteEdge h
    exact hn
  | updateNode id u =>
    obtain ⟨nodes, hnodes, rfl⟩ := apply_updateNode h
    rwa [map_id_updateFirst hnodes]
  | updateEdge id u =>
    obtain ⟨edges, -, rfl⟩ := apply_updateEdge h
    exact hn
  | replaceGraph graph => simp [Command.replaces] at hc

theorem link_withEdge {u v : String} (h : (g.withEdge e).Link u v) :
    g.Link u v ∨ u = e.source ∧ v = e.target := by
  obtain ⟨f, hf, hs, ht⟩ := h
  obtain ⟨hmem, hlinked⟩ := List.mem_filter.1 hf
  rcases List.mem_append.1 hmem with hmem | hmem
  · exact Or.inl ⟨f, List.mem_filter.2 ⟨hmem, hlinked⟩, hs, ht⟩
  · rw [List.mem_singleton.1 hmem] at hs ht
    exact Or.inr ⟨hs.symm, ht.symm⟩

/-- The check of a new edge looks at more edges than those that carry a dependency. -/
theorem IsAcyclic.withEdge (hg : g.IsAcyclic) (hcheck : g.checkConnection e = .ok ()) :
    (g.withEdge e).IsAcyclic := by
  obtain ⟨_, _, _, _, hadmits⟩ := checkConnection_eq_ok_iff.1 hcheck
  intro v hv
  -- A cycle would come back from the target of the new edge, where the check had looked.
  have hback : ReflTransGen g.Link e.target e.source :=
    (exists_cycle_insert_iff hg).1 ⟨v, TransGen.mono (fun _ _ => link_withEdge) v v hv⟩
  have hleads : ReflTransGen g.Leads e.target e.source :=
    ReflTransGen.mono (fun _ _ => leads_of_link) _ _ hback
  have hcloses := closesCycle_iff.2 hleads
  rw [hadmits.acyclic] at hcloses
  cases hcloses

/-- A command that completes no edge keeps the linked edges acyclic. -/
theorem IsAcyclic.apply (hg : g.IsAcyclic) (hc : c.replaces = false) (hk : c.completes = false)
    (h : g.apply c = .ok g') : g'.IsAcyclic := by
  rcases edges_of_apply hc h with ⟨hk', -⟩ | ⟨-, ⟨e, hcheck, rfl⟩ | ⟨hedges, hnodes⟩⟩
  · rw [hk] at hk'
    cases hk'
  · exact hg.withEdge hcheck
  · -- An edge that is linked afterwards is an old one between nodes that were there.
    have hlink : ∀ u v, g'.Link u v → g.Link u v := by
      rintro u v ⟨e, he, hs, ht⟩
      obtain ⟨hmem, hcomplete, hsource, htarget⟩ := mem_linkedEdges.1 he
      exact ⟨e, mem_linkedEdges.2
        ⟨hedges e hmem, hcomplete, hnodes _ hsource, hnodes _ htarget⟩, hs, ht⟩
    exact fun v hv => hg v (TransGen.mono hlink v v hv)

/-- Where edges are completed, a cycle can only come from an edge that was kept without carrying a
dependency. -/
theorem isAcyclic_iff_not_closesKept (hg : g.IsAcyclic)
    (hbare : g'.edges.map Edge.bare = g.edges.map Edge.bare) :
    g'.IsAcyclic ↔ ¬ g.ClosesKept g' := by
  constructor
  · rintro hacyclic ⟨i, e, e', -, he', -, -, hlinked, hback⟩
    have hlink : g'.Link e'.source e'.target :=
      ⟨e', List.mem_filter.2 ⟨List.mem_of_getElem? he', hlinked⟩, rfl, rfl⟩
    exact hacyclic e'.source (.head' hlink hback)
  · intro hnone v hv
    obtain ⟨_, _, ⟨e', he', rfl, rfl⟩, hnew, hback⟩ := exists_gained_arc_of_cycle hg hv
    obtain ⟨hmem', hlinked'⟩ := List.mem_filter.1 he'
    obtain ⟨i, hi'⟩ := List.mem_iff_getElem?.1 hmem'
    -- The edge stood at the same place before, and was not linked there.
    have hi : (g.edges[i]?).map Edge.bare = some e'.bare := by
      rw [← List.getElem?_map, ← hbare, List.getElem?_map, hi', Option.map_some]
    obtain ⟨e, hi, hsame⟩ := Option.map_eq_some_iff.1 hi
    obtain ⟨-, hs, ht, -⟩ := Edge.bare_eq_iff.1 hsame
    have hunlinked : g.isLinked e = false := by
      rw [← Bool.not_eq_true]
      intro hlinked
      exact hnew ⟨e, List.mem_filter.2 ⟨List.mem_of_getElem? hi, hlinked⟩, hs, ht⟩
    exact hnone ⟨i, e, e', hi, hi', hsame.symm, hunlinked, hlinked', hback⟩

/-- Where all edges together are free of loops every command keeps them so. -/
theorem IsLoopFree.apply (hg : g.IsLoopFree) (hc : c.replaces = false)
    (h : g.apply c = .ok g') : g'.IsLoopFree := by
  rcases edges_of_apply hc h with ⟨-, hbare⟩ | ⟨-, ⟨e, hcheck, rfl⟩ | ⟨hedges, -⟩⟩
  · -- What completes an edge moves none of its ends, and loops do not depend on the rest.
    refine hg.mono fun e' he' => ?_
    obtain ⟨e, he, hs, ht, -⟩ := exists_edge_of_bare hbare he'
    exact ⟨e, he, hs, ht⟩
  · obtain ⟨_, _, _, _, hadmits⟩ := checkConnection_eq_ok_iff.1 hcheck
    exact hg.withEdge_iff.2 hadmits.acyclic
  · exact hg.mono fun e he => ⟨e, hedges e he, rfl, rfl⟩

/-- An accepted command, other than one that replaces the graph, leaves a graph with a plan if there
was one, except when it completes an edge which then closes a cycle. Where all edges, linked or not,
are free of loops, they stay so, and there always is a plan. -/
theorem exists_plan_apply_iff (hp : g.plan = .ok p) (hc : c.replaces = false)
    (h : g.apply c = .ok g') :
    ((∃ p', g'.plan = .ok p') ↔ ¬(c.completes = true ∧ g.ClosesKept g')) ∧
      (g.IsLoopFree → g'.IsLoopFree ∧ ∃ p', g'.plan = .ok p') := by
  obtain ⟨hnodup, hacyclic⟩ := hasErrors_compile_eq_false_iff.1 (exists_plan_iff.1 ⟨p, hp⟩)
  have hnodup' := nodeIds_nodup_apply hnodup hc h
  -- Ids stay unique, so only a cycle can take the plan away.
  have hplan : (∃ p', g'.plan = .ok p') ↔ g'.IsAcyclic := by
    rw [exists_plan_iff, hasErrors_compile_eq_false_iff, and_iff_right hnodup']
  have hacyclic' : g'.IsAcyclic ↔ ¬(c.completes = true ∧ g.ClosesKept g') := by
    rcases edges_of_apply hc h with ⟨hk, hbare⟩ | ⟨hk, -⟩
    · rw [isAcyclic_iff_not_closesKept hacyclic hbare, and_iff_right hk]
    · have hnone : ¬(c.completes = true ∧ g.ClosesKept g') := by
        rintro ⟨hk', -⟩
        rw [hk] at hk'
        cases hk'
      exact iff_of_true (hacyclic.apply hc hk h) hnone
  refine ⟨hplan.trans hacyclic', fun hloops => ?_⟩
  have hloops' : g'.IsLoopFree := hloops.apply hc h
  exact ⟨hloops', hplan.2 hloops'.isAcyclic⟩

/-- The edge of a node that was missing is linked when the node is added, and closes no cycle. -/
theorem exists_plan_apply_iff_dangling :
    let g : Graph := ⟨[⟨"b", .event EventNode.empty⟩], [.link "a" "b"]⟩
    let c : Command := .addNode ⟨"a", .event EventNode.empty⟩
    ∃ p g', g.plan = .ok p ∧ c.replaces = false ∧ g.apply c = .ok g' ∧ g'.linkedEdges.length = 1 ∧
      ∃ p', g'.plan = .ok p' := by
  intro g c
  have hloops : g.IsLoopFree := by
    intro v hv
    -- The only edge leaves `a` and enters `b`.
    obtain ⟨_, ⟨e, he, rfl, -⟩, -⟩ := TransGen.head'_iff.1 hv
    obtain ⟨_, -, ⟨f, hf, -, hback⟩⟩ := TransGen.tail'_iff.1 hv
    obtain rfl := List.mem_singleton.1 he
    obtain rfl := List.mem_singleton.1 hf
    exact absurd hback (by decide)
  have herrors := hasErrors_compile_eq_false_iff.2 ⟨by decide, hloops.isAcyclic⟩
  obtain ⟨p, hp⟩ := exists_plan_iff.2 herrors
  have hc : c.replaces = false := rfl
  have happly :
      g.apply c = .ok { g with nodes := g.nodes ++ [⟨"a", .event EventNode.empty⟩] } := rfl
  exact ⟨p, _, hp, hc, happly, by decide, ((exists_plan_apply_iff hp hc happly).2 hloops).2⟩

/-- Commands that complete an edge can leave a graph without a plan: one that gives an edge its
data, and one that adds the node of a loop. -/
theorem plan_lost_by_completion :
    (let g : Graph := ⟨[⟨"a", .event EventNode.empty⟩, ⟨"b", .event EventNode.empty⟩],
        [.link "a" "b", { Edge.link "b" "a" with data := none }]⟩
      let c : Command := .updateEdge "b-source|||a-target" (.color "#ff0000")
      (∃ p, g.plan = .ok p) ∧ c.replaces = false ∧
        ∃ g', g.apply c = .ok g' ∧ ¬ ∃ p, g'.plan = .ok p) ∧
    (let g : Graph := ⟨[], [.link "a" "a"]⟩
      let c : Command := .addNode ⟨"a", .event EventNode.empty⟩
      (∃ p, g.plan = .ok p) ∧ c.replaces = false ∧
        ∃ g', g.apply c = .ok g' ∧ ¬ ∃ p, g'.plan = .ok p) := by
  -- Blocked nodes can be computed, cycles cannot.
  have hplan : ∀ g : Graph, (∃ p, g.plan = .ok p) ↔
      (g.nodes.map (·.id)).Nodup ∧ g.dependencies.blocked = [] := by
    intro g
    rw [exists_plan_iff, hasErrors_compile_eq_false_iff, blocked_dependencies_eq_nil_iff]
  constructor
  · intro g c
    refine ⟨(hplan g).2 (by decide), rfl, _, rfl, ?_⟩
    rw [hplan]
    decide
  · intro g c
    refine ⟨(hplan g).2 (by decide), rfl, _, rfl, ?_⟩
    rw [hplan]
    decide

end Graph
end ConstraintGraph
