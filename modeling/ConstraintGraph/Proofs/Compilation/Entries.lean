import ConstraintGraph.Proofs.Compilation.Order
import ConstraintGraph.Proofs.Compilation.Scopes

namespace ConstraintGraph

theorem find?_eq_some_of_nodup {α β : Type} [BEq β] [LawfulBEq β] {f : α → β} {l : List α}
    (hl : (l.map f).Nodup) {a : α} (ha : a ∈ l) : l.find? (fun b => f b == f a) = some a := by
  cases hfound : l.find? (fun b => f b == f a) with
  | none =>
    have hnone := List.find?_eq_none.1 hfound a ha
    exact absurd (beq_self_eq_true (f a)) hnone
  | some b =>
    have hsame : f b = f a := by simpa using List.find?_some hfound
    rw [List.inj_on_of_nodup_map hl (List.mem_of_find?_eq_some hfound) ha hsame]

def Plan.entry? (p : Plan) (id : String) : Option PlanEntry := p.entries.find? (·.id == id)

namespace Graph

variable {g : Graph} {p : Plan} {t : PlanEntry} {id : String}

/-- A plan is what compilation without errors comes to. -/
theorem plan_eq_ok (hp : g.plan = .ok p) :
    g.compile.hasErrors = false ∧ p.declarations = g.order.flatMap g.declarationsAt ∧
      p.entries = g.order.filterMap (g.entry? g.lineage) := by
  have herrors : g.compile.hasErrors = false := exists_plan_iff.1 ⟨p, hp⟩
  have hdiagnostics : (g.findings.map Diagnostic.of).any Diagnostic.isError = false := herrors
  unfold plan Compilation.plan at hp
  rw [herrors, if_neg Bool.false_ne_true] at hp
  obtain rfl := Except.ok.inj hp
  refine ⟨herrors, rfl, ?_⟩
  simp only [compile, hdiagnostics, Bool.false_eq_true, if_false]

/-- Nodes with an empty scope have no step in the plan. -/
theorem entry?_eq_some_iff :
    g.entry? g.lineage id = some t ↔ ∃ node, g.node? id = some node ∧
      (g.scope id).isEmpty = false ∧
      t = ⟨id, node.label, g.parentsOf id, g.childrenOf id, g.scope id, .ofNode node⟩ := by
  show ((g.node? id).bind fun node => if (g.scope id).isEmpty then none else
    some (⟨id, node.label, g.parentsOf id, g.childrenOf id, g.scope id, .ofNode node⟩ :
      PlanEntry)) = some t ↔ _
  rw [Option.bind_eq_some_iff]
  refine exists_congr fun node => and_congr_right fun _ => ?_
  cases (g.scope id).isEmpty <;> simp [eq_comm]

theorem entry?_eq_none (hempty : (g.scope id).isEmpty = true) : g.entry? g.lineage id = none := by
  refine Option.eq_none_iff_forall_ne_some.2 fun t ht => ?_
  obtain ⟨-, -, hne, -⟩ := entry?_eq_some_iff.1 ht
  rw [hempty] at hne
  cases hne

theorem id_eq_of_entry (h : g.entry? g.lineage id = some t) : t.id = id := by
  obtain ⟨node, -, -, rfl⟩ := entry?_eq_some_iff.1 h
  rfl

/-- All nodes of a graph with a plan are in the order. -/
theorem mem_order_of_plan (hp : g.plan = .ok p) : id ∈ g.order ↔ g.hasNode id = true := by
  obtain ⟨-, hacyclic⟩ := hasErrors_compile_eq_false_iff.1 (plan_eq_ok hp).1
  rw [mem_order_iff, and_iff_left (isAcyclic_iff.1 hacyclic id)]

/-- A step is what the graph gives for its id. -/
theorem mem_entries_iff (hp : g.plan = .ok p) :
    t ∈ p.entries ↔ g.entry? g.lineage t.id = some t := by
  rw [(plan_eq_ok hp).2.2, List.mem_filterMap]
  constructor
  · rintro ⟨id, -, h⟩
    rwa [id_eq_of_entry h]
  · intro h
    obtain ⟨node, hnode, -⟩ := entry?_eq_some_iff.1 h
    refine ⟨t.id, (mem_order_of_plan hp).2 ?_, h⟩
    rw [hasNode, hnode]
    rfl

theorem eq_of_mem_entries (hp : g.plan = .ok p) (ht : t ∈ p.entries) :
    ∃ node, g.node? t.id = some node ∧
      t = ⟨t.id, node.label, g.parentsOf t.id, g.childrenOf t.id, g.scope t.id, .ofNode node⟩ := by
  obtain ⟨node, hnode, -, heq⟩ := entry?_eq_some_iff.1 ((mem_entries_iff hp).1 ht)
  exact ⟨node, hnode, heq⟩

theorem parents_of_mem_entries (hp : g.plan = .ok p) (ht : t ∈ p.entries) :
    t.parents = g.parentsOf t.id := by
  obtain ⟨node, -, heq⟩ := eq_of_mem_entries hp ht
  rw [heq]

theorem children_of_mem_entries (hp : g.plan = .ok p) (ht : t ∈ p.entries) :
    t.children = g.childrenOf t.id := by
  obtain ⟨node, -, heq⟩ := eq_of_mem_entries hp ht
  rw [heq]

theorem scope_of_mem_entries (hp : g.plan = .ok p) (ht : t ∈ p.entries) :
    t.scope = g.scope t.id := by
  obtain ⟨node, -, heq⟩ := eq_of_mem_entries hp ht
  rw [heq]

/-- The steps are the ids of the order at which some variable is in scope. -/
theorem nodeIds_eq (hp : g.plan = .ok p) :
    p.nodeIds = g.order.filter fun id => !(g.scope id).isEmpty := by
  -- The order has nodes only, so the scope alone decides which of them are steps.
  have hid : ∀ id ∈ g.order, (g.entry? g.lineage id).map (·.id) =
      Option.guard (fun id => !(g.scope id).isEmpty) id := by
    intro id hid
    obtain ⟨node, hnode⟩ := Option.isSome_iff_exists.1 ((mem_order_of_plan hp).1 hid)
    cases hempty : (g.scope id).isEmpty with
    | true =>
      rw [entry?_eq_none hempty]
      simp [Option.guard, hempty]
    | false =>
      rw [entry?_eq_some_iff.2 ⟨node, hnode, hempty, rfl⟩]
      simp [Option.guard, hempty]
  rw [Plan.nodeIds, (plan_eq_ok hp).2.2, List.map_filterMap, List.filterMap_congr hid,
    List.filterMap_eq_filter]

theorem nodup_nodeIds (hp : g.plan = .ok p) : p.nodeIds.Nodup := by
  rw [nodeIds_eq hp]
  exact g.nodup_order.filter _

/-- The steps are the nodes at which some variable is in scope. -/
theorem mem_nodeIds_iff (hp : g.plan = .ok p) :
    id ∈ p.nodeIds ↔ g.hasNode id = true ∧ (g.scope id).isEmpty = false := by
  rw [nodeIds_eq hp, List.mem_filter, mem_order_of_plan hp, Bool.not_eq_true']

/-- A step is found in the plan exactly when the graph gives one. -/
theorem entry?_plan (hp : g.plan = .ok p) (id : String) :
    p.entry? id = g.entry? g.lineage id := by
  cases hentry : g.entry? g.lineage id with
  | some t =>
    obtain rfl := id_eq_of_entry hentry
    exact find?_eq_some_of_nodup (nodup_nodeIds hp) ((mem_entries_iff hp).2 hentry)
  | none =>
    refine List.find?_eq_none.2 fun t ht hid => ?_
    rw [beq_iff_eq] at hid
    rw [mem_entries_iff hp, hid, hentry] at ht
    cases ht

theorem neighbor?_of_isLinked {e : Edge} (he : g.isLinked e = true) :
    g.neighbor? e id = some ⟨.ofConstraint e.constraint, id, (g.node? id).bind (·.label)⟩ := by
  have hcomplete := (isLinked_iff.1 he).1
  simp only [Edge.isComplete, Bool.and_eq_true] at hcomplete
  obtain ⟨data, hdata⟩ := Option.isSome_iff_exists.1 hcomplete.2
  simp [neighbor?, Edge.constraint, hdata]

theorem filterMap_neighbor? (g : Graph) (q : Edge → Bool) (far : Edge → String) :
    ((g.edges.filter fun e => q e && g.isLinked e).filterMap fun e => g.neighbor? e (far e)) =
      (g.edges.filter fun e => q e && g.isLinked e).map fun e =>
        ⟨.ofConstraint e.constraint, far e, (g.node? (far e)).bind (·.label)⟩ := by
  rw [← List.filterMap_eq_map]
  refine List.filterMap_congr fun e he => ?_
  have hlinked := (List.mem_filter.1 he).2
  rw [Bool.and_eq_true] at hlinked
  exact neighbor?_of_isLinked hlinked.2

theorem parentsOf_eq (g : Graph) (id : String) :
    g.parentsOf id = (g.edges.filter fun e => e.target == id && g.isLinked e).map fun e =>
      ⟨.ofConstraint e.constraint, e.source, (g.node? e.source).bind (·.label)⟩ :=
  g.filterMap_neighbor? (·.target == id) (·.source)

theorem childrenOf_eq (g : Graph) (id : String) :
    g.childrenOf id = (g.edges.filter fun e => e.source == id && g.isLinked e).map fun e =>
      ⟨.ofConstraint e.constraint, e.target, (g.node? e.target).bind (·.label)⟩ :=
  g.filterMap_neighbor? (·.source == id) (·.target)

/-- The first of the neighbours from which edges come is the first parent. -/
theorem head?_parentsOf (g : Graph) (id : String) :
    (g.parentsOf id).head?.map (·.id) = g.firstParent? id := by
  rw [parentsOf_eq, List.head?_map, List.head?_filter, Option.map_map]
  rfl

theorem link_of_mem_parentsOf {n : Neighbor} (hn : n ∈ g.parentsOf id) : g.Link n.id id := by
  rw [parentsOf_eq] at hn
  obtain ⟨e, he, rfl⟩ := List.mem_map.1 hn
  obtain ⟨hmem, he⟩ := List.mem_filter.1 he
  rw [Bool.and_eq_true, beq_iff_eq] at he
  exact ⟨e, List.mem_filter.2 ⟨hmem, he.2⟩, rfl, he.1⟩

end Graph
end ConstraintGraph
