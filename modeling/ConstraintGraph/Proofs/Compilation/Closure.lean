import ConstraintGraph.Proofs.Compilation.Neighbors

/-!
Which neighbours of the steps are steps themselves. Neighbours come from all linked edges, but a
node is a step only when some variable is in scope there, and it has its scope from the nodes on its
chain of first parents alone. So a plan can name a node that it leaves out, and the main statement
says exactly when it does.
-/

namespace ConstraintGraph

def Plan.IsClosed (p : Plan) : Prop :=
  ∀ t ∈ p.entries, ∀ n ∈ t.parents ++ t.children, n.id ∈ p.nodeIds

namespace Graph

open Relation

/-- Following first parents from `id` leads to a node that introduces a variable. -/
def HasScope (g : Graph) (id : String) : Prop := ∃ x v, g.Ascends id x ∧ g.Introduces x v

variable {g : Graph} {p : Plan} {t : PlanEntry} {n : Neighbor} {id : String} {node : Node}

theorem hasScope_iff_isEmpty : g.HasScope id ↔ (g.scope id).isEmpty = false := by
  rw [Scope.isEmpty_eq_false_iff, HasScope, exists_comm]
  simp only [mem_scope_iff]

/-- A node has its scope from itself or from its first parent. -/
theorem hasScope_iff_introduces_or :
    g.HasScope id ↔ (∃ v, g.Introduces id v) ∨
      ∃ parent, g.firstParent? id = some parent ∧ g.HasScope parent := by
  constructor
  · rintro ⟨x, v, hx, hv⟩
    rcases ReflTransGen.cases_head hx with rfl | ⟨parent, hparent, hx⟩
    · exact Or.inl ⟨v, hv⟩
    · exact Or.inr ⟨parent, hparent, x, v, hx, hv⟩
  · rintro (⟨v, hv⟩ | ⟨parent, hparent, x, v, hx, hv⟩)
    · exact ⟨id, v, .refl, hv⟩
    · exact ⟨x, v, .head hparent hx, hv⟩

theorem HasScope.hasNode (h : g.HasScope id) : g.hasNode id = true := by
  rcases hasScope_iff_introduces_or.1 h with ⟨v, node, hnode, -⟩ | ⟨parent, hparent, -⟩
  · rw [Graph.hasNode, hnode]
    rfl
  · obtain ⟨e, he, -, rfl⟩ := link_of_firstParent? hparent
    exact (mem_linkedEdges.1 he).2.2.2

theorem mem_nodeIds_iff_hasScope (hp : g.plan = .ok p) : id ∈ p.nodeIds ↔ g.HasScope id := by
  rw [mem_nodeIds_iff hp, ← hasScope_iff_isEmpty]
  exact and_iff_right_of_imp HasScope.hasNode

/-- A gate introduces nothing, so it has the scope of its first parent or none. -/
theorem hasScope_gate_iff (hnode : g.node? id = some node) (hgate : node.event? = none) :
    g.HasScope id ↔ ∃ parent, g.firstParent? id = some parent ∧ g.HasScope parent := by
  rw [hasScope_iff_introduces_or, or_iff_right]
  rintro ⟨v, node', hnode', hv⟩
  obtain rfl := Option.some.inj (hnode.symm.trans hnode')
  rw [Node.introduces, hgate] at hv
  cases hv

theorem mem_map_id_parents (hp : g.plan = .ok p) (ht : t ∈ p.entries) :
    id ∈ t.parents.map (·.id) ↔ g.Link id t.id := by
  rw [map_eq_of_forall₂ (fun n e hshows => hshows.id_eq) (forall₂_parents hp ht)]
  simp only [List.mem_map, List.mem_filter, beq_iff_eq, Link, and_assoc, and_comm]

theorem mem_map_id_children (hp : g.plan = .ok p) (ht : t ∈ p.entries) :
    id ∈ t.children.map (·.id) ↔ g.Link t.id id := by
  rw [map_eq_of_forall₂ (fun n e hshows => hshows.id_eq) (forall₂_children hp ht)]
  simp only [List.mem_map, List.mem_filter, beq_iff_eq, Link, and_assoc]

/-- The neighbours of a step are those that linked edges join with it. -/
theorem mem_map_id_neighbors (hp : g.plan = .ok p) (ht : t ∈ p.entries) :
    id ∈ (t.parents ++ t.children).map (·.id) ↔ g.Link id t.id ∨ g.Link t.id id := by
  rw [List.map_append, List.mem_append, mem_map_id_parents hp ht, mem_map_id_children hp ht]

theorem mem_order_of_neighbor (hp : g.plan = .ok p) (ht : t ∈ p.entries)
    (hn : n ∈ t.parents ++ t.children) : n.id ∈ g.order := by
  have hlink := (mem_map_id_neighbors hp ht).1 (List.mem_map_of_mem hn)
  rw [mem_order_of_plan hp]
  rcases hlink with ⟨e, he, hsource, -⟩ | ⟨e, he, -, htarget⟩
  · rw [← hsource]
    exact (mem_linkedEdges.1 he).2.2.1
  · rw [← htarget]
    exact (mem_linkedEdges.1 he).2.2.2

/-- A plan names none but its own steps exactly if linked edges join nodes with a scope among each
other and nodes without one. -/
theorem isClosed_iff (hp : g.plan = .ok p) :
    p.IsClosed ↔ ∀ u v, g.Link u v → (g.HasScope u ↔ g.HasScope v) := by
  constructor
  · intro hclosed u v hlink
    -- A step takes the other end of each of its edges along.
    have hstep : ∀ a b, g.Link b a ∨ g.Link a b → a ∈ p.nodeIds → b ∈ p.nodeIds := by
      intro a b hlink ha
      obtain ⟨t, ht, rfl⟩ := List.mem_map.1 ha
      obtain ⟨n, hn, rfl⟩ := List.mem_map.1 ((mem_map_id_neighbors hp ht).2 hlink)
      exact hclosed t ht n hn
    rw [← mem_nodeIds_iff_hasScope hp, ← mem_nodeIds_iff_hasScope hp]
    exact ⟨hstep u v (Or.inr hlink), hstep v u (Or.inl hlink)⟩
  · intro hscope t ht n hn
    have hstep : g.HasScope t.id :=
      (mem_nodeIds_iff_hasScope hp).1 (List.mem_map_of_mem ht)
    rw [mem_nodeIds_iff_hasScope hp]
    rcases (mem_map_id_neighbors hp ht).1 (List.mem_map_of_mem hn) with hlink | hlink
    · exact (hscope _ _ hlink).2 hstep
    · exact (hscope _ _ hlink).1 hstep

/-- Where a plan exists first parents stand earlier in the order, so following them comes to an
end. -/
theorem exists_ascends_root (hp : g.plan = .ok p) (hnode : g.hasNode id = true) :
    ∃ x, g.Ascends id x ∧ g.hasNode x = true ∧ g.firstParent? x = none := by
  induction hpos : g.order.idxOf id using Nat.strong_induction_on generalizing id with
  | _ pos ih =>
    cases hparent : g.firstParent? id with
    | none => exact ⟨id, .refl, hnode, hparent⟩
    | some parent =>
      obtain ⟨e, he, rfl, rfl⟩ := link_of_firstParent? hparent
      have htarget : e.target ∈ g.order := (mem_order_of_plan hp).2 hnode
      have hlt := (source_before_target he htarget).2
      rw [hpos] at hlt
      obtain ⟨x, hx, hroot⟩ := ih _ hlt (mem_linkedEdges.1 he).2.2.1 rfl
      exact ⟨x, .head hparent hx, hroot⟩

/-- It is enough that every node without a parent introduces a variable. -/
theorem isClosed_of_roots (hp : g.plan = .ok p)
    (hroots : ∀ id, g.hasNode id = true → g.firstParent? id = none → ∃ v, g.Introduces id v) :
    p.IsClosed := by
  have hscope : ∀ id, g.hasNode id = true → g.HasScope id := by
    intro id hnode
    obtain ⟨x, hx, hroot, hparent⟩ := exists_ascends_root hp hnode
    obtain ⟨v, hv⟩ := hroots x hroot hparent
    exact ⟨x, v, hx, hv⟩
  refine (isClosed_iff hp).2 fun u v hlink => ?_
  obtain ⟨e, he, rfl, rfl⟩ := hlink
  obtain ⟨-, -, hsource, htarget⟩ := mem_linkedEdges.1 he
  exact iff_of_true (hscope _ hsource) (hscope _ htarget)

/-- A plan names nodes of the order only, and leaves out those without a variable in scope. So a
child is a step when the step that names it is its first parent, a gate is one exactly when its
first parent is, and the plan is closed exactly when no linked edge joins a node with a scope and
one without. It is closed where every node that no linked edge enters introduces a variable. -/
theorem neighbors_of_plan (hp : g.plan = .ok p) :
    (∀ id, id ∈ p.nodeIds ↔ g.HasScope id) ∧
      (∀ t ∈ p.entries, ∀ n ∈ t.parents ++ t.children, n.id ∈ g.compile.order) ∧
      (∀ t ∈ p.entries, ∀ n ∈ t.children, g.firstParent? n.id = some t.id → n.id ∈ p.nodeIds) ∧
      (∀ id node, g.node? id = some node → node.event? = none →
        (id ∈ p.nodeIds ↔ ∃ parent, g.firstParent? id = some parent ∧ parent ∈ p.nodeIds)) ∧
      (p.IsClosed ↔ ∀ u v, g.Link u v → (g.HasScope u ↔ g.HasScope v)) ∧
      ((∀ id, g.hasNode id = true → g.firstParent? id = none → ∃ v, g.Introduces id v) →
        p.IsClosed) := by
  have hsteps : ∀ id, id ∈ p.nodeIds ↔ g.HasScope id := fun id => mem_nodeIds_iff_hasScope hp
  refine ⟨hsteps, fun t ht n hn => mem_order_of_neighbor hp ht hn, ?_, ?_, isClosed_iff hp,
    isClosed_of_roots hp⟩
  · intro t ht n _ hparent
    have hstep := (hsteps t.id).1 (List.mem_map_of_mem ht)
    -- A child inherits the scope of its first parent.
    exact (hsteps n.id).2 (hasScope_iff_introduces_or.2 (Or.inr ⟨t.id, hparent, hstep⟩))
  · intro id node hnode hgate
    simp only [hsteps]
    exact hasScope_gate_iff hnode hgate

/-- A gate and the event behind it have their scope from the event that starts the chain. -/
theorem neighbors_of_plan_gate :
    let place : Node := ⟨"place", .event { EventNode.empty with
      objectVariables := .ofList [(0, ∅)] compare }⟩
    let g : Graph := ⟨[⟨"pay", .event EventNode.empty⟩, ⟨"not", .gate .not⟩, place],
      [.link "place" "not", .link "not" "pay"]⟩
    ∃ p, g.plan = .ok p ∧ p.IsClosed ∧ "not" ∈ p.nodeIds := by
  intro place g
  obtain ⟨p, hp⟩ := exists_plan_iff.2 (show g.compile.hasErrors = false by decide +kernel)
  obtain ⟨hsteps, -, -, hgates, -, hclosed⟩ := neighbors_of_plan hp
  have hplace : g.Introduces "place" (.object 0) := ⟨place, rfl, by decide +kernel⟩
  have hstep : "place" ∈ p.nodeIds := (hsteps "place").2 ⟨"place", _, .refl, hplace⟩
  refine ⟨p, hp, hclosed fun id hnode hparent => ?_, (hgates "not" _ rfl rfl).2 ⟨_, rfl, hstep⟩⟩
  obtain ⟨node, hmem, rfl⟩ := hasNode_iff.1 hnode
  have hroot : ∀ node ∈ g.nodes, g.firstParent? node.id = none → node.id = "place" := by
    decide +kernel
  rw [hroot node hmem hparent]
  exact ⟨_, hplace⟩

/-- An or over two events that have variables of their own. Both name it as their parent, and it is
left out of the plan. -/
theorem gate_left_out :
    let event : UInt32 → NodeBody := fun i => .event { EventNode.empty with
      objectVariables := .ofList [(i, ∅)] compare }
    let g : Graph := ⟨[⟨"either", .gate .or⟩, ⟨"pay", event 0⟩, ⟨"cancel", event 1⟩],
      [.between "either" "either-left-source" "pay" "pay-target",
        .between "either" "either-right-source" "cancel" "cancel-target"]⟩
    ∃ p, g.plan = .ok p ∧ "either" ∉ p.nodeIds ∧
      (∀ id ∈ ["pay", "cancel"], ∃ t ∈ p.entries, t.id = id ∧ "either" ∈ t.parents.map (·.id)) ∧
      ¬ p.IsClosed := by
  intro event g
  have hacyclic : g.IsAcyclic := blocked_dependencies_eq_nil_iff.1 (by decide)
  obtain ⟨p, hp⟩ := exists_plan_iff.2 (hasErrors_compile_eq_false_iff.2 ⟨by decide, hacyclic⟩)
  -- The gate has no parent to inherit from, and introduces nothing.
  have hgate : "either" ∉ p.nodeIds := by
    rw [mem_nodeIds_iff hp]
    decide +kernel
  have hlink : ∀ id ∈ ["pay", "cancel"], g.hasNode id = true ∧ (g.scope id).isEmpty = false ∧
      ∃ e ∈ g.linkedEdges, e.source = "either" ∧ e.target = id := by
    decide +kernel
  have hparents : ∀ id ∈ ["pay", "cancel"], ∃ t ∈ p.entries,
      t.id = id ∧ "either" ∈ t.parents.map (·.id) := by
    intro id hid
    obtain ⟨hnode, hscope, hlink⟩ := hlink id hid
    obtain ⟨t, ht, rfl⟩ := List.mem_map.1 ((mem_nodeIds_iff hp).2 ⟨hnode, hscope⟩)
    exact ⟨t, ht, rfl, (mem_map_id_parents hp ht).2 hlink⟩
  refine ⟨p, hp, hgate, hparents, fun hclosed => hgate ?_⟩
  obtain ⟨t, ht, -, hnames⟩ := hparents "pay" List.mem_cons_self
  obtain ⟨n, hn, hid⟩ := List.mem_map.1 hnames
  rw [← hid]
  exact hclosed t ht n (List.mem_append_left _ hn)

end Graph
end ConstraintGraph
