import ConstraintGraph.Proofs.Compilation.Links

namespace ConstraintGraph.Graph

open Dependencies

/-- How many parents of a node are not in the list, parallel edges counted. -/
theorem countP_parents_dependencies (g : Graph) (v : String) (done : List String) :
    (g.dependencies.parents v).countP (· ∉ done) =
      g.linkedEdges.countP fun e => e.target = v ∧ e.source ∉ done := by
  rw [parents, dependencies, List.filter_map, List.map_map, List.countP_map, List.countP_filter]
  refine List.countP_congr fun e _ => ?_
  simp [and_comm]

/-- The countdown of every graph, before each release and after the last one. Every node counts the
linked edges that enter it from nodes without a turn so far. In a turn, each linked edge that leaves
the node finds a positive count at its target when it takes one off. The nodes that had a turn and
those that are ready list everything that was ever ready, and list no node twice, so that there are
at most as many turns as nodes. After that many nothing is ready and the countdown is over. -/
theorem countdown_stays_positive (g : Graph) (n : Nat) :
    let d := g.dependencies
    let s := d.releaseAll n d.startCountdown
    let done := d.released n d.startCountdown
    (∀ c, g.hasNode c = true →
      s.count c = g.linkedEdges.countP fun e => e.target = c ∧ e.source ∉ done) ∧
    (∀ v ready, s.ready = v :: ready →
      ∀ before e behind, g.linkedEdges.filter (·.source = v) = before ++ e :: behind →
        0 < ((before.map (·.target)).foldl Countdown.decrement ⟨s.waiting, ready⟩).count e.target) ∧
    (done ++ s.ready).Nodup ∧
    (∀ v ∈ done ++ s.ready, g.hasNode v = true) ∧
    done ++ s.ready <+:
      d.released (n + 1) d.startCountdown ++ (d.releaseAll (n + 1) d.startCountdown).ready ∧
    (s.ready ≠ [] → done.length = n) ∧
    done.length ≤ (g.nodes.map (·.id)).eraseDups.length ∧
    ((g.nodes.map (·.id)).eraseDups.length ≤ n → s.ready = [] ∧ s = d.countdown) := by
  intro d s done
  have hd : d.WellFormed := g.dependencies_wellFormed
  have hs : s.Invariant d done [] := releaseAll_invariant hd n
  have hvertices : d.vertices.length = (g.nodes.map (·.id)).eraseDups.length := by
    rw [vertices_dependencies]
  refine ⟨fun c hc => ?_, ?_, hs.nodup, ?_, prefix_released n d.startCountdown, length_released n,
    ?_, fun hn => ?_⟩
  · rw [hs.count_eq c (mem_vertices_dependencies.2 hc), List.count_nil, Nat.add_zero]
    exact g.countP_parents_dependencies c done
  · intro v ready hready before e behind hedges
    -- The arc to `e.target` is still pending when those before it are settled.
    have hpop := hs.pop hready
    have hchildren : d.children v = before.map (·.target) ++ e.target :: behind.map (·.target) := by
      rw [g.children_dependencies, hedges, List.map_append, List.map_cons]
    have hmem : ∀ w ∈ d.children v, w ∈ d.vertices := fun w hw => hd.target_mem (mem_children.1 hw)
    rw [hchildren] at hpop hmem
    have hrest := hpop.foldl_decrement fun w hw => hmem w (List.mem_append_left _ hw)
    exact hrest.count_pos (hmem e.target (by simp))
  · intro v hv
    exact mem_vertices_dependencies.1 ((hs.mem_iff v).1 hv).1
  · -- What had a turn lists no vertex twice.
    have hlength := hs.length_le
    rw [List.length_append, hvertices] at hlength
    omega
  · have hlast : s = d.countdown := releaseAll_eq_countdown hd (hvertices ▸ hn)
    exact ⟨hlast ▸ ready_countdown hd, hlast⟩

end ConstraintGraph.Graph
