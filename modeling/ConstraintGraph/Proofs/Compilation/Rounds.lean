import ConstraintGraph.Proofs.Compilation.Greedy
import ConstraintGraph.Proofs.Dependency.Rounds

namespace ConstraintGraph.Graph

open Dependencies

def roots (g : Graph) : List String :=
  (g.nodes.map (·.id)).eraseDups.filter fun v =>
    g.linkedEdges.all (·.target ≠ v) && g.linkedEdges.any (·.source = v)

def IsDiscovered (g : Graph) (order : List String) (v : String) : Prop :=
  v ∈ g.roots ∨ ∃ u ∈ order, g.Link u v

theorem discovered_dependencies {g : Graph} {s : Emission String} {v : String} :
    s.Discovered g.dependencies v ↔ g.IsDiscovered s.order v := by
  rw [Emission.Discovered, arc_dependencies, roots_dependencies]
  rfl

/-- The ordering of every graph by priority comes to an end. There are at most as many rounds as
roots and linked edges, one that finds the queue stuck included. Before each of them and after the
last one, the queue is sorted by descending number of linked edges that enter a node, and every
discovered node that has not been emitted is in it. In the end every such node waits for a parent
that has not been emitted either. -/
theorem rounds_leave_nothing_ready (g : Graph) :
    let d := g.dependencies
    let last := d.emission
    (∃ n, d.afterRounds n = some last ∧ d.afterRounds (n + 1) = none ∧
      n + last.isStuck.toNat ≤ g.roots.length + g.linkedEdges.length) ∧
    (∀ n s, d.afterRounds n = some s →
      (s.queued.Pairwise fun u v =>
        g.linkedEdges.countP (·.target = v) ≤ g.linkedEdges.countP (·.target = u)) ∧
      ∀ v, v ∉ s.order → g.IsDiscovered s.order v → v ∈ s.queued) ∧
    ∀ v, v ∉ last.order → g.IsDiscovered last.order v → ∃ u, g.Link u v ∧ u ∉ last.order := by
  intro d last
  refine ⟨?_, fun n s hs => ⟨?_, fun v hnew hv => ?_⟩, fun v hnew hv => ?_⟩
  · obtain ⟨n, hlast, hend⟩ := d.exists_afterRounds_emission
    refine ⟨n, hlast, hend, ?_⟩
    have hroots : d.roots.length = g.roots.length := congrArg List.length g.roots_dependencies
    have harcs : d.arcs.length = g.linkedEdges.length := List.length_map _
    -- Every round takes one from what is left of the budget.
    have hbudget : n + last.budget d = d.roots.length + d.arcs.length := budget_afterRounds hlast
    have hstuck : last.isStuck.toNat ≤ last.budget d := isStuck_toNat_le_budget last d
    omega
  · have hsorted := pairwise_queued hs
    simpa only [d, rank_dependencies] using hsorted
  · have hinv := afterRounds_invariant hs
    exact ((hinv.discovered v).2 (discovered_dependencies.2 hv)).resolve_left hnew
  · by_contra hnone
    -- With all its parents emitted it would have been ready.
    refine hnew (mem_priorityOrder_of_discovered (discovered_dependencies.2 hv) fun u hu => ?_)
    rw [arc_dependencies] at hu
    exact by_contra fun hnot => hnone ⟨u, hu, hnot⟩

end ConstraintGraph.Graph
