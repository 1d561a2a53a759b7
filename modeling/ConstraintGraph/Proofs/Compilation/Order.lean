import ConstraintGraph.Proofs.Compilation.Errors

namespace ConstraintGraph.Graph

open Dependencies

variable {g : Graph}

def isTouched (g : Graph) (v : String) : Bool :=
  g.linkedEdges.any fun e => e.source == v || e.target == v

/-- A linked edge touches a node from one of its two sides. -/
theorem isTouched_eq (v : String) :
    g.isTouched v = (g.dependencies.hasParent v || g.dependencies.hasChild v) := by
  rw [Bool.eq_iff_iff, Bool.or_eq_true, hasParent_iff, hasChild_iff, arc_dependencies]
  simp only [isTouched, Link, List.any_eq_true, Bool.or_eq_true, beq_iff_eq]
  constructor
  · rintro ⟨e, he, hs | ht⟩
    · exact Or.inr ⟨e.target, e, he, hs, rfl⟩
    · exact Or.inl ⟨e.source, e, he, rfl, ht⟩
  · rintro (⟨u, e, he, -, ht⟩ | ⟨u, e, he, hs, -⟩)
    · exact ⟨e, he, Or.inr ht⟩
    · exact ⟨e, he, Or.inl hs⟩

theorem isolated_dependencies (g : Graph) :
    g.dependencies.isolated =
      (g.nodes.map (·.id)).eraseDups.filter fun v => !g.isTouched v := by
  unfold isolated
  rw [vertices_dependencies]
  refine List.filter_congr fun v _ => ?_
  rw [isTouched_eq, Bool.not_or]

theorem isTouched_of_mem_priorityOrder {v : String} (hv : v ∈ g.dependencies.priorityOrder) :
    g.isTouched v = true := by
  rw [isTouched_eq, Bool.or_eq_true]
  exact ((mem_priorityOrder_iff g.dependencies_wellFormed).1 hv).2

/-- The order leaves out exactly the nodes on a cycle or behind one. -/
theorem mem_order_iff {v : String} :
    v ∈ g.order ↔ g.hasNode v = true ∧ ¬ g.IsBehindCycle v := by
  have hd := g.dependencies_wellFormed
  have hgrounded := grounded_dependencies (g := g) (v := v)
  show v ∈ g.dependencies.isolated ++ g.dependencies.priorityOrder ↔ _
  rw [List.mem_append, isolated_dependencies, List.mem_filter, ← vertices_dependencies,
    mem_vertices_dependencies, mem_priorityOrder_iff hd, ← Bool.or_eq_true, ← isTouched_eq,
    hgrounded]
  constructor
  · rintro (⟨hnode, hfree⟩ | ⟨hcycle, htouched⟩)
    · refine ⟨hnode, fun h => ?_⟩
      -- A node behind a cycle has a parent, so it is not one that no edge touches.
      obtain ⟨u, hu⟩ := (behindCycle_dependencies.2 h).exists_arc
      have hparent := hasParent_iff.2 ⟨u, hu⟩
      simp [isTouched_eq, hparent] at hfree
    · refine ⟨?_, hcycle⟩
      simp only [isTouched, List.any_eq_true, Bool.or_eq_true, beq_iff_eq] at htouched
      obtain ⟨e, he, rfl | rfl⟩ := htouched
      · exact (mem_linkedEdges.1 he).2.2.1
      · exact (mem_linkedEdges.1 he).2.2.2
  · rintro ⟨hnode, hcycle⟩
    by_cases h : g.isTouched v = true
    · exact Or.inr ⟨hcycle, h⟩
    · exact Or.inl ⟨hnode, by simpa using h⟩

theorem nodup_order (g : Graph) : g.order.Nodup := by
  refine List.nodup_append.2 ⟨?_, g.dependencies.emission_invariant.nodup, ?_⟩
  · exact g.dependencies_wellFormed.nodup.filter _
  · rintro v hv _ hw rfl
    rw [isolated_dependencies, List.mem_filter, isTouched_of_mem_priorityOrder hw] at hv
    simp at hv

/-- Every linked edge to a node in the order leads there from one before it. -/
theorem source_before_target {e : Edge} (he : e ∈ g.linkedEdges) (ht : e.target ∈ g.order) :
    e.source ∈ g.order ∧ g.order.idxOf e.source < g.order.idxOf e.target := by
  have hinv := g.dependencies.emission_invariant
  have harc : g.dependencies.Arc e.source e.target := by
    rw [arc_dependencies]
    exact ⟨e, he, rfl, rfl⟩
  have hfree : ∀ v, g.isTouched v = true → v ∉ g.dependencies.isolated := by
    intro v hv h
    rw [isolated_dependencies, List.mem_filter, hv] at h
    simp at h
  have hs : g.isTouched e.source = true := by
    rw [isTouched_eq, hasChild_iff.2 ⟨e.target, harc⟩, Bool.or_true]
  have ht' : g.isTouched e.target = true := by
    rw [isTouched_eq, hasParent_iff.2 ⟨e.source, harc⟩, Bool.true_or]
  have htarget : e.target ∈ g.dependencies.priorityOrder :=
    (List.mem_append.1 ht).resolve_left (hfree _ ht')
  refine ⟨List.mem_append_right _ (hinv.ordered.mem_of_arc htarget harc), ?_⟩
  -- Both stand behind the nodes that no linked edge touches.
  have hlt := hinv.ordered.idxOf_lt hinv.nodup htarget harc
  show (g.dependencies.isolated ++ g.dependencies.emission.order).idxOf e.source <
    (g.dependencies.isolated ++ g.dependencies.emission.order).idxOf e.target
  rw [List.idxOf_append_of_notMem (hfree _ hs), List.idxOf_append_of_notMem (hfree _ ht')]
  omega

/-- A graph has a plan exactly when no two nodes share an id and the linked edges have no directed
cycle. The order is then one of all node ids: it starts with the nodes that no linked edge touches,
in the order of the nodes, and has the source of every linked edge before its target. -/
theorem exists_plan_iff_and_order (g : Graph) :
    ((∃ p, g.plan = .ok p) ↔ (g.nodes.map (·.id)).Nodup ∧ g.IsAcyclic) ∧
      ∀ p, g.plan = .ok p →
        g.compile.order.Perm (g.nodes.map (·.id)) ∧
        (∃ rest, g.compile.order = (g.nodes.map (·.id)).filter (fun v => !g.isTouched v) ++ rest ∧
          ∀ v ∈ rest, g.isTouched v = true) ∧
        ∀ e ∈ g.linkedEdges,
          g.compile.order.idxOf e.source < g.compile.order.idxOf e.target := by
  have hiff : (∃ p, g.plan = .ok p) ↔ (g.nodes.map (·.id)).Nodup ∧ g.IsAcyclic :=
    exists_plan_iff.trans hasErrors_compile_eq_false_iff
  refine ⟨hiff, fun p hp => ?_⟩
  obtain ⟨hnodup, hacyclic⟩ := hiff.1 ⟨p, hp⟩
  have hmem : ∀ v, v ∈ g.order ↔ v ∈ g.nodes.map (·.id) := by
    intro v
    rw [mem_order_iff, and_iff_left (isAcyclic_iff.1 hacyclic v), hasNode_iff, List.mem_map]
  -- Two lists without repeats and with the same members.
  refine ⟨(List.perm_ext_iff_of_nodup g.nodup_order hnodup).2 hmem, ?_, ?_⟩
  · refine ⟨g.dependencies.priorityOrder, ?_, fun v hv => isTouched_of_mem_priorityOrder hv⟩
    show g.dependencies.isolated ++ _ = _
    rw [isolated_dependencies, eraseDups_of_nodup hnodup]
  · intro e he
    have htarget := (mem_linkedEdges.1 he).2.2.2
    rw [hasNode_iff, ← List.mem_map] at htarget
    exact (source_before_target he ((hmem _).2 htarget)).2

open scoped Classical in
noncomputable def idsBehindCycles (g : Graph) : List String :=
  (g.nodes.map (·.id)).eraseDups.filter fun v => decide (g.IsBehindCycle v)

theorem blocked_dependencies (g : Graph) : g.dependencies.blocked = g.idsBehindCycles := by
  have hmem := fun v => mem_blocked_iff g.dependencies_wellFormed (v := v)
  unfold blocked at hmem ⊢
  rw [idsBehindCycles, ← vertices_dependencies]
  refine List.filter_congr fun v hv => ?_
  have hv' := hmem v
  rw [List.mem_filter, grounded_dependencies, not_not] at hv'
  rw [Bool.eq_iff_iff]
  simpa only [hv, true_and, decide_eq_true_eq] using hv'

/-- Emission and countdown leave the same nodes behind, namely those on a cycle of linked edges or
behind one. They are reported as a cycle and as unreachable, or there are none and neither is
reported; all other nodes are ordered. A stuck emission is always one that the countdown finds. -/
theorem left_behind_agree (g : Graph) :
    (∀ v, (∃ u, g.Link u v) ∧ v ∉ g.dependencies.priorityOrder ↔ g.IsBehindCycle v) ∧
    (∀ v, v ∈ g.dependencies.blocked ↔ g.IsBehindCycle v) ∧
    (∀ ids, Diagnostic.of (.cycle ids) ∈ g.compile.diagnostics ↔
      g.idsBehindCycles ≠ [] ∧ ids = g.idsBehindCycles) ∧
    (∀ ids, Diagnostic.of (.unreachable ids) ∈ g.compile.diagnostics ↔
      g.idsBehindCycles ≠ [] ∧ ids = g.idsBehindCycles) ∧
    g.compile.order.Nodup ∧
    (∀ v, v ∈ g.compile.order ↔ g.hasNode v = true ∧ ¬ g.IsBehindCycle v) ∧
    (∀ e ∈ g.linkedEdges, e.target ∈ g.compile.order → e.source ∈ g.compile.order ∧
      g.compile.order.idxOf e.source < g.compile.order.idxOf e.target) ∧
    (g.dependencies.emission.isStuck = true → g.dependencies.blocked ≠ []) := by
  have hd := g.dependencies_wellFormed
  refine ⟨?_, ?_, ?_, ?_, g.nodup_order, fun v => mem_order_iff,
    fun e he => source_before_target he, blocked_ne_nil_of_isStuck hd⟩
  · intro v
    rw [mem_priorityOrder_iff hd, grounded_dependencies, ← arc_dependencies, ← hasParent_iff]
    constructor
    · -- Emission leaves out what is not grounded; the countdown blocks the same.
      rintro ⟨hp, hnot⟩
      by_contra hg
      exact hnot ⟨hg, Or.inl hp⟩
    · intro hg
      refine ⟨hasParent_iff.2 (behindCycle_dependencies.2 hg).exists_arc, fun h => h.1 hg⟩
  · intro v
    rw [mem_blocked_iff hd, grounded_dependencies, not_not, mem_vertices_dependencies]
    exact and_iff_right_of_imp IsBehindCycle.hasNode
  · intro ids
    rw [mem_diagnostics, cycle_mem_findings, blocked_dependencies]
  · intro ids
    rw [mem_diagnostics, unreachable_mem_findings, blocked_dependencies]

end ConstraintGraph.Graph
