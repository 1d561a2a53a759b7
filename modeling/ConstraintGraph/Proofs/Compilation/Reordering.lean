import ConstraintGraph.Proofs.Compilation.Neighbors

namespace ConstraintGraph

theorem find?_eq_of_perm {α β : Type} [BEq β] [LawfulBEq β] {f : α → β} {l l' : List α}
    (hperm : l.Perm l') (hl : (l.map f).Nodup) (b : β) :
    l.find? (fun a => f a == b) = l'.find? (fun a => f a == b) := by
  have hl' : (l'.map f).Nodup := (hperm.map f).nodup_iff.1 hl
  cases hfound : l.find? (fun a => f a == b) with
  | some a =>
    have hb : f a = b := by simpa using List.find?_some hfound
    have ha : a ∈ l' := hperm.mem_iff.1 (List.mem_of_find?_eq_some hfound)
    rw [← hb, find?_eq_some_of_nodup hl' ha]
  | none =>
    have hnone := List.find?_eq_none.1 hfound
    exact (List.find?_eq_none.2 fun a ha => hnone a (hperm.mem_iff.2 ha)).symm

/-- The findings are errors of one kind that name the same ids, in whatever order. -/
inductive Finding.NamesAlike : Finding → Finding → Prop
  | cycle {ids ids' : List String} (h : ids.Perm ids') : NamesAlike (.cycle ids) (.cycle ids')
  | unreachable {ids ids' : List String} (h : ids.Perm ids') :
    NamesAlike (.unreachable ids) (.unreachable ids')

namespace Graph

section Parts

variable (g : Graph)

theorem distinctNodes_eq_nodes (hids : (g.nodes.map (·.id)).Nodup) : g.distinctNodes = g.nodes := by
  unfold distinctNodes
  induction hnodes : g.nodes using List.reverseRecOn generalizing g with
  | nil => rfl
  | append_singleton nodes node ih =>
    rw [hnodes, List.map_append, List.nodup_append] at hids
    have hkept := ih ⟨nodes, g.edges⟩ hids.1 rfl
    have hnew : (nodes.any (·.id == node.id)) = false := by
      rw [List.any_eq_false]
      intro other hother hid
      rw [beq_iff_eq] at hid
      exact hids.2.2 _ (List.mem_map_of_mem hother) _ (List.mem_singleton_self _) hid
    rw [List.foldl_concat, hkept, hnew, if_neg Bool.false_ne_true]

/-- The findings of a severity, part by part: those of the order and the repeated ids are errors,
the others warnings. -/
theorem filter_severity_findings (p : Severity → Bool) :
    g.findings.filter (p ·.severity) =
      (if p .error then g.repeatedIds.map .duplicateNode else []) ++
        (if p .warning then g.skippedEdges else []) ++
        (if p .error then orderFindings g.dependencies else []) ++
        if p .warning then g.distinctNodes.flatMap (outOfScope g.lineage) else [] := by
  -- Each part of the findings has one severity.
  have hpart : ∀ (s : Severity) (l : List Finding), (∀ f ∈ l, f.severity = s) →
      l.filter (p ·.severity) = if p s then l else [] := by
    intro s l hl
    split
    · exact List.filter_eq_self.2 fun f hf => by rwa [hl f hf]
    · exact List.filter_eq_nil_iff.2 fun f hf => by rwa [hl f hf]
  have hrepeated : ∀ f ∈ g.repeatedIds.map Finding.duplicateNode, f.severity = .error := by
    intro f hf
    obtain ⟨id, -, rfl⟩ := List.mem_map.1 hf
    rfl
  have hskipped : ∀ f ∈ g.skippedEdges, f.severity = .warning := by
    intro f hf
    obtain ⟨e, -, -, rfl⟩ := mem_skippedEdges.1 hf
    rfl
  have horder : ∀ f ∈ orderFindings g.dependencies, f.severity = .error := by
    intro f hf
    obtain ⟨-, rfl | rfl⟩ := mem_orderFindings.1 hf <;> rfl
  have hscope : ∀ f ∈ g.distinctNodes.flatMap (outOfScope g.lineage), f.severity = .warning := by
    intro f hf
    obtain ⟨node, -, hf⟩ := List.mem_flatMap.1 hf
    obtain ⟨v, rfl⟩ := mem_outOfScope hf
    rfl
  unfold findings
  rw [List.filter_append, List.filter_append, List.filter_append, hpart _ _ hrepeated,
    hpart _ _ hskipped, hpart _ _ horder, hpart _ _ hscope]

theorem warnings_compile :
    g.compile.warnings =
      (g.skippedEdges ++ g.distinctNodes.flatMap (outOfScope g.lineage)).map Diagnostic.of := by
  have hfilter : g.findings.filter (fun f => !(f.severity == .error)) =
      g.skippedEdges ++ g.distinctNodes.flatMap (outOfScope g.lineage) := by
    simpa using g.filter_severity_findings fun s => !(s == .error)
  rw [← hfilter]
  exact List.filter_map

theorem errors_compile :
    g.compile.errors = (g.repeatedIds.map Finding.duplicateNode ++
      orderFindings g.dependencies).map Diagnostic.of := by
  have hfilter : g.findings.filter (·.severity == .error) =
      g.repeatedIds.map Finding.duplicateNode ++ orderFindings g.dependencies := by
    simpa using g.filter_severity_findings (· == .error)
  rw [← hfilter]
  exact List.filter_map

theorem filter_isSkip_diagnostics :
    g.compile.diagnostics.filter (·.finding.isSkip) = g.skippedEdges.map Diagnostic.of := by
  rw [← filter_isSkip_findings]
  exact List.filter_map

theorem eq_of_plan {g : Graph} {p : Plan} (hp : g.plan = .ok p) :
    p = ⟨g.compile.declarations, g.compile.entries⟩ := by
  unfold plan Compilation.plan at hp
  split at hp
  · cases hp
  · exact (Except.ok.inj hp).symm

end Parts

/-- The graphs have the same edges, and the same nodes in whatever order, each under an id of its
own. -/
structure Reorders (g g' : Graph) : Prop where
  nodup : (g.nodes.map (·.id)).Nodup
  nodes_perm : g.nodes.Perm g'.nodes
  edges_eq : g.edges = g'.edges

namespace Reorders

variable {g g' : Graph}

theorem symm (h : g.Reorders g') : g'.Reorders g where
  nodup := (h.nodes_perm.map (·.id)).nodup_iff.1 h.nodup
  nodes_perm := h.nodes_perm.symm
  edges_eq := h.edges_eq.symm

theorem node?_eq (h : g.Reorders g') : g.node? = g'.node? := by
  funext id
  exact find?_eq_of_perm h.nodes_perm h.nodup id

theorem isLinked_eq (h : g.Reorders g') : g.isLinked = g'.isLinked := by
  funext e
  rw [isLinked, isLinked, hasNode, hasNode, hasNode, hasNode, h.node?_eq]

theorem linkedEdges_eq (h : g.Reorders g') : g.linkedEdges = g'.linkedEdges := by
  rw [linkedEdges, linkedEdges, h.isLinked_eq, h.edges_eq]

theorem skippedEdges_eq (h : g.Reorders g') : g.skippedEdges = g'.skippedEdges := by
  rw [skippedEdges, skippedEdges, h.isLinked_eq, h.edges_eq]

theorem firstParent?_eq (h : g.Reorders g') : g.firstParent? = g'.firstParent? := by
  funext id
  rw [firstParent?, firstParent?, h.isLinked_eq, h.edges_eq]

theorem link_eq (h : g.Reorders g') : g.Link = g'.Link := by
  funext u v
  rw [Link, Link, h.linkedEdges_eq]

/-- Chains follow edges alone, so the order of the nodes does not come in. -/
theorem chainFrom_eq (h : g.Reorders g') (fuel : Nat) (visited : List String) (id : String) :
    g.lineage.chainFrom fuel visited id = g'.lineage.chainFrom fuel visited id := by
  induction fuel generalizing visited id with
  | zero => rfl
  | succ fuel ih =>
    rw [chainFrom_succ, chainFrom_succ, h.node?_eq, h.firstParent?_eq]
    simp only [ih]

/-- A chain is as long as the nodes allow, whatever their order. -/
theorem lineage_scope_eq (h : g.Reorders g') : g.lineage.scope = g'.lineage.scope := by
  have hlength : g.lineage.length = g'.lineage.length := by
    rw [lineage, lineage, List.length_map, List.length_map, h.nodes_perm.length_eq]
  funext id
  have hchain : g.lineage.chain id = g'.lineage.chain id := by
    rw [Lineage.chain, Lineage.chain, hlength, h.chainFrom_eq]
  rw [Lineage.scope, Lineage.scope, hchain]

theorem isBehindCycle_eq (h : g.Reorders g') : g.IsBehindCycle = g'.IsBehindCycle := by
  funext id
  rw [IsBehindCycle, IsBehindCycle, h.link_eq]

/-- The order has the same members, since it leaves out what is behind a cycle of linked edges. -/
theorem order_perm (h : g.Reorders g') : g.order.Perm g'.order := by
  refine (List.perm_ext_iff_of_nodup g.nodup_order g'.nodup_order).2 fun id => ?_
  rw [mem_order_iff, mem_order_iff, hasNode, hasNode, h.node?_eq, h.isBehindCycle_eq]

theorem entry?_eq (h : g.Reorders g') : g.entry? g.lineage = g'.entry? g'.lineage := by
  have hparents : g.parentsOf = g'.parentsOf := by
    funext id
    rw [Graph.parentsOf_eq, Graph.parentsOf_eq, h.isLinked_eq, h.edges_eq, h.node?_eq]
  have hchildren : g.childrenOf = g'.childrenOf := by
    funext id
    rw [Graph.childrenOf_eq, Graph.childrenOf_eq, h.isLinked_eq, h.edges_eq, h.node?_eq]
  funext id
  unfold entry?
  rw [h.node?_eq, h.lineage_scope_eq, hparents, hchildren]

theorem hasErrors_eq (h : g.Reorders g') : g.compile.hasErrors = g'.compile.hasErrors := by
  have hiff : g.compile.hasErrors = false ↔ g'.compile.hasErrors = false := by
    rw [hasErrors_compile_eq_false_iff, hasErrors_compile_eq_false_iff, IsAcyclic, IsAcyclic,
      h.link_eq, and_iff_right h.nodup, and_iff_right h.symm.nodup]
  rw [Bool.eq_iff_iff, ← not_iff_not, Bool.not_eq_true, Bool.not_eq_true]
  exact hiff

theorem entries_perm (h : g.Reorders g') : g.compile.entries.Perm g'.compile.entries := by
  show (if g.compile.hasErrors then [] else g.order.filterMap (g.entry? g.lineage)).Perm
    (if g'.compile.hasErrors then [] else g'.order.filterMap (g'.entry? g'.lineage))
  rw [h.hasErrors_eq, h.entry?_eq]
  split
  · exact .nil
  · exact h.order_perm.filterMap _

theorem declarations_perm (h : g.Reorders g') :
    g.compile.declarations.Perm g'.compile.declarations := by
  have hdeclares : g.declarationsAt = g'.declarationsAt := by
    funext id
    rw [declarationsAt, declarationsAt, h.node?_eq]
  show (g.order.flatMap g.declarationsAt).Perm (g'.order.flatMap g'.declarationsAt)
  rw [hdeclares]
  exact h.order_perm.flatMap_right _

theorem warnings_perm (h : g.Reorders g') : g.compile.warnings.Perm g'.compile.warnings := by
  have hscope : outOfScope g.lineage = outOfScope g'.lineage := by
    funext node
    unfold outOfScope
    rw [h.lineage_scope_eq]
  rw [warnings_compile, warnings_compile, h.skippedEdges_eq, hscope,
    distinctNodes_eq_nodes g h.nodup, distinctNodes_eq_nodes g' h.symm.nodup]
  exact ((h.nodes_perm.flatMap_right _).append_left _).map _

theorem blocked_perm (h : g.Reorders g') :
    g.dependencies.blocked.Perm g'.dependencies.blocked := by
  rw [blocked_dependencies, blocked_dependencies, idsBehindCycles, idsBehindCycles,
    eraseDups_of_nodup h.nodup, eraseDups_of_nodup h.symm.nodup, h.isBehindCycle_eq]
  exact (h.nodes_perm.map _).filter _

/-- Errors come in one order on both sides, and only the ids in one of them may have changed places.
-/
theorem errors_alike (h : g.Reorders g') :
    List.Forall₂ (fun d d' => d.finding.NamesAlike d'.finding)
      g.compile.errors g'.compile.errors := by
  -- Ids are unique, so that all errors are about the order.
  have hfindings : ∀ k : Graph, (k.nodes.map (·.id)).Nodup →
      k.compile.errors = (orderFindings k.dependencies).map Diagnostic.of := by
    intro k hids
    rw [errors_compile, repeatedIds_eq_nil_iff.2 hids, List.map_nil, List.nil_append]
  have hperm := h.blocked_perm
  rw [hfindings g h.nodup, hfindings g' h.symm.nodup, orderFindings_eq g.dependencies_wellFormed,
    orderFindings_eq g'.dependencies_wellFormed]
  by_cases hnil : g.dependencies.blocked = []
  · have hnil' : g'.dependencies.blocked = [] := List.nil_perm.1 (hnil ▸ hperm)
    rw [if_pos hnil, if_pos hnil']
    exact .nil
  · have hnil' : g'.dependencies.blocked ≠ [] := fun h' => hnil (List.perm_nil.1 (h' ▸ hperm))
    rw [if_neg hnil, if_neg hnil']
    exact .cons (.cycle hperm) (.cons (.unreachable hperm) .nil)

end Reorders

variable {g g' : Graph}

/-- The order in which nodes are added shows in the order of what comes out and in nothing else.
Both graphs have a plan or neither has one, the plans have the same steps and declarations, and in
any case the evaluation orders are of the same ids, the warnings are the same, the skipped edges
even in their order, and the errors correspond one by one and name the same ids. -/
theorem compile_reorders (h : g.Reorders g') :
    ((∃ p, g.plan = .ok p) ↔ ∃ p', g'.plan = .ok p') ∧
      (∀ p p', g.plan = .ok p → g'.plan = .ok p' →
        p.entries.Perm p'.entries ∧ p.declarations.Perm p'.declarations) ∧
      g.compile.order.Perm g'.compile.order ∧
      g.compile.warnings.Perm g'.compile.warnings ∧
      g.compile.diagnostics.filter (·.finding.isSkip) =
        g'.compile.diagnostics.filter (·.finding.isSkip) ∧
      List.Forall₂ (fun d d' => d.finding.NamesAlike d'.finding)
        g.compile.errors g'.compile.errors ∧
      ∀ id kind, (g.scope id).ofKind kind = (g'.scope id).ofKind kind := by
  refine ⟨?_, ?_, h.order_perm, h.warnings_perm, ?_, h.errors_alike, ?_⟩
  · rw [exists_plan_iff, exists_plan_iff, h.hasErrors_eq]
  · intro p p' hp hp'
    rw [eq_of_plan hp, eq_of_plan hp']
    exact ⟨h.entries_perm, h.declarations_perm⟩
  · rw [filter_isSkip_diagnostics, filter_isSkip_diagnostics, h.skippedEdges_eq]
  · intro id kind
    rw [scope, scope, h.lineage_scope_eq]

/-- Two nodes without edges trade places in the order. The third one is placed behind its child and
still comes before it. -/
theorem compile_reorders_untouched :
    let event : String → UInt32 → Node := fun id i => ⟨id, .event { EventNode.empty with
      objectVariables := .ofList [(i, ∅)] compare }⟩
    let pay : Node := ⟨"pay", .event EventNode.empty⟩
    let edges : List Edge := [.link "pay" "nowhere", .link "place" "pay"]
    let g : Graph := ⟨[event "cancel" 1, event "place" 0, event "refund" 2, pay], edges⟩
    let g' : Graph := ⟨[event "refund" 2, pay, event "cancel" 1, event "place" 0], edges⟩
    g.compile.order ≠ g'.compile.order ∧
      (∃ p p', g.plan = .ok p ∧ g'.plan = .ok p' ∧ p.entries.Perm p'.entries ∧
        p.declarations.Perm p'.declarations) ∧
      (g'.scope "pay").ofKind .object = [0] := by
  intro event pay edges g g'
  have hnodes : (g.nodes.take 2 ++ g.nodes.drop 2).Perm (g.nodes.drop 2 ++ g.nodes.take 2) :=
    List.perm_append_comm
  have hreorders : g.Reorders g' := ⟨by decide, hnodes, rfl⟩
  obtain ⟨hplan, hparts, -, -, -, -, hscope⟩ := compile_reorders hreorders
  obtain ⟨p, hp⟩ := exists_plan_iff.2 (show g.compile.hasErrors = false by decide +kernel)
  obtain ⟨p', hp'⟩ := hplan.1 ⟨p, hp⟩
  have hpay : (g.scope "pay").ofKind .object = [0] := by decide +kernel
  exact ⟨by decide +kernel, ⟨p, p', hp, hp', hparts p p' hp hp'⟩,
    (hscope "pay" .object).symm.trans hpay⟩

end Graph
end ConstraintGraph
