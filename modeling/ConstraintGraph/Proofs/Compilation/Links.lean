import ConstraintGraph.Compilation
import ConstraintGraph.Proofs.Dependency.Countdown
import ConstraintGraph.Proofs.Dependency.Emission

/-!
Graphs as dependencies. The vertices are the node ids where each comes first, the arcs are the
linked edges, and together they are well formed, so that what holds of paths and cycles of
dependencies holds of paths and cycles of linked edges.
-/

namespace ConstraintGraph

section FirstOccurrences

variable {α : Type} [DecidableEq α]

theorem eraseDups_concat (l : List α) (a : α) :
    (l ++ [a]).eraseDups = if a ∈ l then l.eraseDups else l.eraseDups ++ [a] := by
  by_cases ha : a ∈ l <;> simp [List.eraseDups_append, List.removeAll, List.eraseDups_cons, ha]

theorem nodup_eraseDups (l : List α) : l.eraseDups.Nodup := by
  induction l using List.reverseRecOn with
  | nil => exact List.nodup_nil
  | append_singleton l a ih =>
    rw [eraseDups_concat]
    split
    · exact ih
    · rename_i ha
      rw [← List.concat_eq_append]
      exact ih.concat (by rwa [List.mem_eraseDups])

theorem eraseDups_of_nodup {l : List α} (hl : l.Nodup) : l.eraseDups = l := by
  induction l using List.reverseRecOn with
  | nil => rfl
  | append_singleton l a ih =>
    rw [List.nodup_append] at hl
    have ha : a ∉ l := fun h => hl.2.2 a h a (List.mem_singleton_self a) rfl
    rw [eraseDups_concat, if_neg ha, ih hl.1]

end FirstOccurrences

namespace Graph

open Relation

def Link (g : Graph) (u v : String) : Prop := ∃ e ∈ g.linkedEdges, e.source = u ∧ e.target = v

/-- No path of linked edges leads from a node back to it. A loop is such a path. -/
def IsAcyclic (g : Graph) : Prop := ∀ v, ¬ TransGen g.Link v v

def IsBehindCycle (g : Graph) (v : String) : Prop :=
  ∃ c, TransGen g.Link c c ∧ ReflTransGen g.Link c v

theorem hasNode_iff {g : Graph} {id : String} :
    g.hasNode id = true ↔ ∃ node ∈ g.nodes, node.id = id := by
  simp [hasNode, node?]

theorem node?_eq_some {g : Graph} {id : String} {node : Node} (h : g.node? id = some node) :
    node ∈ g.nodes ∧ node.id = id :=
  ⟨List.mem_of_find?_eq_some h, by simpa using List.find?_some h⟩

theorem isLinked_iff {g : Graph} {e : Edge} :
    g.isLinked e = true ↔ e.isComplete = true ∧ g.hasNode e.source = true ∧
      g.hasNode e.target = true := by
  simp [isLinked, and_assoc]

theorem mem_linkedEdges {g : Graph} {e : Edge} :
    e ∈ g.linkedEdges ↔ e ∈ g.edges ∧ e.isComplete = true ∧
      g.hasNode e.source = true ∧ g.hasNode e.target = true := by
  simp [linkedEdges, isLinked, and_assoc]

/-- The vertices are the ids of the nodes, each once, at its first place. -/
theorem vertices_dependencies (g : Graph) :
    g.dependencies.vertices = (g.nodes.map (·.id)).eraseDups := by
  show g.distinctNodes.map (·.id) = _
  unfold distinctNodes
  induction g.nodes using List.reverseRecOn with
  | nil => rfl
  | append_singleton nodes node ih =>
    rw [List.foldl_concat, List.map_append, List.map_singleton, eraseDups_concat, ← ih]
    have hkept : ∀ kept : List Node,
        (kept.any (·.id == node.id)) = true ↔ node.id ∈ kept.map (·.id) := by
      simp only [List.any_eq_true, beq_iff_eq, List.mem_map, implies_true]
    -- The last node is kept unless its id is there already.
    by_cases h : node.id ∈ nodes.map (·.id)
    · rw [if_pos h, if_pos]
      rwa [hkept, ih, List.mem_eraseDups]
    · rw [if_neg h, if_neg, List.map_append, List.map_singleton]
      rwa [hkept, ih, List.mem_eraseDups]

theorem mem_vertices_dependencies {g : Graph} {id : String} :
    id ∈ g.dependencies.vertices ↔ g.hasNode id = true := by
  rw [vertices_dependencies, List.mem_eraseDups, List.mem_map, hasNode_iff]

theorem arc_dependencies (g : Graph) : g.dependencies.Arc = g.Link := by
  funext u v
  simp [Dependencies.Arc, dependencies, Link]

theorem children_dependencies (g : Graph) (v : String) :
    g.dependencies.children v = (g.linkedEdges.filter (·.source = v)).map (·.target) := by
  rw [Dependencies.children, dependencies, List.filter_map, List.map_map]
  rfl

/-- Every node id is a vertex once, and linked edges join node ids. -/
theorem dependencies_wellFormed (g : Graph) : g.dependencies.WellFormed where
  nodup := by
    rw [vertices_dependencies]
    exact nodup_eraseDups _
  source_mem := by
    intro u v h
    rw [arc_dependencies] at h
    obtain ⟨e, he, rfl, -⟩ := h
    exact mem_vertices_dependencies.2 (mem_linkedEdges.1 he).2.2.1
  target_mem := by
    intro u v h
    rw [arc_dependencies] at h
    obtain ⟨e, he, -, rfl⟩ := h
    exact mem_vertices_dependencies.2 (mem_linkedEdges.1 he).2.2.2

/-- What is behind a cycle of arcs is behind a cycle of linked edges. -/
theorem behindCycle_dependencies {g : Graph} {v : String} :
    g.dependencies.BehindCycle v ↔ g.IsBehindCycle v := by
  simp only [Dependencies.BehindCycle, Dependencies.OnCycle, arc_dependencies, IsBehindCycle]

theorem grounded_dependencies {g : Graph} {v : String} :
    g.dependencies.Grounded v ↔ ¬ g.IsBehindCycle v := by
  rw [← behindCycle_dependencies, ← Dependencies.not_grounded_iff g.dependencies_wellFormed,
    not_not]

/-- Without a cycle nothing is behind one. -/
theorem isAcyclic_iff {g : Graph} : g.IsAcyclic ↔ ∀ v, ¬ g.IsBehindCycle v :=
  ⟨fun h _ ⟨c, hc, _⟩ => h c hc, fun h v hv => h v ⟨v, hv, .refl⟩⟩

theorem IsBehindCycle.hasNode {g : Graph} {v : String} (h : g.IsBehindCycle v) :
    g.hasNode v = true := by
  obtain ⟨u, hu⟩ := (behindCycle_dependencies.2 h).exists_arc
  exact mem_vertices_dependencies.1 (g.dependencies_wellFormed.target_mem hu)

end Graph
end ConstraintGraph
