import ConstraintGraph.Proofs.Compilation.Neighbors

namespace ConstraintGraph

/-- The edges join the same ids and ask the same of the target. Their ids, their handles and their
colors may differ. -/
structure Edge.Agrees (e f : Edge) : Prop where
  source_eq : e.source = f.source
  target_eq : e.target = f.target
  type_eq : e.constraint.type = f.constraint.type
  time_eq : e.constraint.time = f.constraint.time

theorem Edge.Agrees.connection_eq {e f : Edge} (h : e.Agrees f) :
    Connection.ofConstraint e.constraint = .ofConstraint f.constraint := by
  rw [Connection.ofConstraint, Connection.ofConstraint, h.type_eq, h.time_eq]

namespace Graph

/-- The graphs have the same nodes, and their linked edges agree in order. -/
structure Agrees (g g' : Graph) : Prop where
  nodes_eq : g.nodes = g'.nodes
  linkedEdges : List.Forall₂ Edge.Agrees g.linkedEdges g'.linkedEdges

variable {g g' : Graph}

namespace Agrees

theorem node?_eq (h : g.Agrees g') : g.node? = g'.node? := by
  funext id
  rw [node?, node?, h.nodes_eq]

theorem distinctNodes_eq (h : g.Agrees g') : g.distinctNodes = g'.distinctNodes := by
  rw [distinctNodes, distinctNodes, h.nodes_eq]

theorem dependencies_eq (h : g.Agrees g') : g.dependencies = g'.dependencies := by
  have harcs : (g.linkedEdges.map fun e => (e.source, e.target)) =
      g'.linkedEdges.map fun e => (e.source, e.target) :=
    map_eq_of_forall₂ (fun e f hef => Prod.ext hef.source_eq hef.target_eq) h.linkedEdges
  rw [dependencies, dependencies, h.distinctNodes_eq, harcs]

theorem map_neighbor_eq (h : g.Agrees g') {q : Edge → Bool} {far : Edge → String}
    (hsame : ∀ e f, e.Agrees f → q e = q f ∧ far e = far f) :
    ((g.linkedEdges.filter q).map fun e =>
        (⟨.ofConstraint e.constraint, far e, (g.node? (far e)).bind (·.label)⟩ : Neighbor)) =
      (g'.linkedEdges.filter q).map fun e =>
        ⟨.ofConstraint e.constraint, far e, (g'.node? (far e)).bind (·.label)⟩ := by
  refine map_filter_eq_of_forall₂ (fun e f hef => ?_) h.linkedEdges
  obtain ⟨hq, hfar⟩ := hsame e f hef
  exact ⟨hq, by rw [hfar, hef.connection_eq, h.node?_eq]⟩

theorem parentsOf_eq (h : g.Agrees g') : g.parentsOf = g'.parentsOf := by
  funext id
  rw [Graph.parentsOf_eq, Graph.parentsOf_eq, ← filter_linkedEdges, ← filter_linkedEdges]
  exact h.map_neighbor_eq fun e f hef => ⟨by rw [hef.target_eq], hef.source_eq⟩

theorem childrenOf_eq (h : g.Agrees g') : g.childrenOf = g'.childrenOf := by
  funext id
  rw [Graph.childrenOf_eq, Graph.childrenOf_eq, ← filter_linkedEdges, ← filter_linkedEdges]
  exact h.map_neighbor_eq fun e f hef => ⟨by rw [hef.source_eq], hef.target_eq⟩

theorem firstParent?_eq (h : g.Agrees g') : g.firstParent? = g'.firstParent? := by
  funext id
  -- The search runs over all edges, yet what it finds is the first of the parents.
  rw [← head?_parentsOf, ← head?_parentsOf, h.parentsOf_eq]

theorem lineage_eq (h : g.Agrees g') : g.lineage = g'.lineage := by
  rw [lineage, lineage, h.nodes_eq, h.firstParent?_eq]

theorem entry?_eq (h : g.Agrees g') : g.entry? = g'.entry? := by
  funext l id
  unfold entry?
  rw [h.node?_eq, h.parentsOf_eq, h.childrenOf_eq]

/-- Graphs that agree have the same findings but for the skipped edges. -/
theorem findings_eq (h : g.Agrees g') :
    g.findings.filter (!·.isSkip) = g'.findings.filter (!·.isSkip) := by
  have hrepeated : g.repeatedIds = g'.repeatedIds := by
    rw [repeatedIds, repeatedIds, h.nodes_eq]
  rw [filter_not_isSkip_findings, filter_not_isSkip_findings, hrepeated, h.dependencies_eq,
    h.distinctNodes_eq, h.lineage_eq]

theorem hasErrors_eq (h : g.Agrees g') : g.compile.hasErrors = g'.compile.hasErrors := by
  -- Errors are about repeated ids, which are up to the nodes, and cycles of the dependencies.
  have hiff : g.compile.hasErrors = false ↔ g'.compile.hasErrors = false := by
    rw [hasErrors_compile_eq_false_iff, hasErrors_compile_eq_false_iff,
      ← blocked_dependencies_eq_nil_iff, ← blocked_dependencies_eq_nil_iff, h.dependencies_eq,
      h.nodes_eq]
  rw [Bool.eq_iff_iff, ← not_iff_not, Bool.not_eq_true, Bool.not_eq_true]
  exact hiff

theorem order_eq (h : g.Agrees g') : g.order = g'.order := by
  rw [order, order, h.dependencies_eq]

theorem entries_eq (h : g.Agrees g') : g.compile.entries = g'.compile.entries := by
  show (if g.compile.hasErrors then [] else g.order.filterMap (g.entry? g.lineage)) =
    if g'.compile.hasErrors then [] else g'.order.filterMap (g'.entry? g'.lineage)
  rw [h.hasErrors_eq, h.order_eq, h.entry?_eq, h.lineage_eq]

theorem declarations_eq (h : g.Agrees g') :
    g.compile.declarations = g'.compile.declarations := by
  have hdeclares : g.declarationsAt = g'.declarationsAt := by
    funext id
    rw [declarationsAt, declarationsAt, h.node?_eq]
  show g.order.flatMap g.declarationsAt = g'.order.flatMap g'.declarationsAt
  rw [h.order_eq, hdeclares]

theorem diagnostics_eq (h : g.Agrees g') :
    g.compile.diagnostics.filter (!·.finding.isSkip) =
      g'.compile.diagnostics.filter (!·.finding.isSkip) := by
  have hfilter : ∀ k : Graph, k.compile.diagnostics.filter (!·.finding.isSkip) =
      (k.findings.filter (!·.isSkip)).map Diagnostic.of := fun k => List.filter_map
  rw [hfilter, hfilter, h.findings_eq]

/-- Graphs that agree have the same plan, if one of them has any. -/
theorem plan_eq_ok_iff (h : g.Agrees g') (p : Plan) : g.plan = .ok p ↔ g'.plan = .ok p := by
  unfold plan Compilation.plan
  rw [h.hasErrors_eq, h.declarations_eq, h.entries_eq]
  split
  · exact iff_of_false nofun nofun
  · exact Iff.rfl

end Agrees

/-- Graphs that agree compile alike. They have the same order, steps and declarations, the same
diagnostics in the same order but for the skipped edges, and so the same plan or none; and the same
variables are in scope in both at every id. Edges that are not linked therefore have no influence,
wherever they stand, and neither have the ids, the handles and the colors of those that are. -/
theorem compile_agrees (h : g.Agrees g') :
    g.compile.order = g'.compile.order ∧
      g.compile.entries = g'.compile.entries ∧
      g.compile.declarations = g'.compile.declarations ∧
      g.compile.diagnostics.filter (!·.finding.isSkip) =
        g'.compile.diagnostics.filter (!·.finding.isSkip) ∧
      (∀ p, g.plan = .ok p ↔ g'.plan = .ok p) ∧
      ∀ id kind, (g.scope id).ofKind kind = (g'.scope id).ofKind kind := by
  refine ⟨h.order_eq, h.entries_eq, h.declarations_eq, h.diagnostics_eq, h.plan_eq_ok_iff, ?_⟩
  intro id kind
  rw [scope, scope, h.lineage_eq]

/-- The second graph has the edge of the first under another id, between other handles and in
another color, behind one that leads nowhere and before a loop without data. -/
theorem compile_agrees_skipped :
    let nodes : List Node := [⟨"pay", .event EventNode.empty⟩,
      ⟨"place", .event { EventNode.empty with objectVariables := .ofList [(0, ∅)] compare }⟩]
    let drawn : Edge := ⟨"1", "place", "pay", some "out", some "in",
      some ⟨.response, .anyTime, "#000000"⟩⟩
    let g : Graph := ⟨nodes, [.link "place" "pay"]⟩
    let g' : Graph := ⟨nodes, [.link "nowhere" "pay", drawn,
      { Edge.link "pay" "pay" with data := none }]⟩
    g.compile.diagnostics ≠ g'.compile.diagnostics ∧
      (∃ p, g.plan = .ok p ∧ g'.plan = .ok p) ∧ (g'.scope "pay").ofKind .object = [0] := by
  intro nodes drawn g g'
  have hlinked : g.linkedEdges = [.link "place" "pay"] ∧ g'.linkedEdges = [drawn] := by
    decide +kernel
  have hagrees : g.Agrees g' := by
    refine ⟨rfl, ?_⟩
    rw [hlinked.1, hlinked.2]
    exact .cons ⟨rfl, rfl, rfl, rfl⟩ .nil
  obtain ⟨-, -, -, -, hplan, hscope⟩ := compile_agrees hagrees
  obtain ⟨p, hp⟩ := exists_plan_iff.2 (show g.compile.hasErrors = false by decide +kernel)
  have hparent : (g.scope "pay").ofKind .object = [0] := by decide +kernel
  exact ⟨by decide +kernel, ⟨p, hp, (hplan p).1 hp⟩, (hscope "pay" .object).symm.trans hparent⟩

end Graph
end ConstraintGraph
