import ConstraintGraph.Proofs.Compilation.Order
import ConstraintGraph.Proofs.Dependency.Greedy

namespace ConstraintGraph.Graph

open Dependencies

variable {g : Graph} {v : String}

/-- Ids in the order in which they are discovered when the nodes of `order` come one after another:
the nodes that linked edges leave and none enters, in the order of the nodes, and then, for every
node that comes, the targets of the linked edges that leave it. -/
def discoveries (g : Graph) (order : List String) : List String :=
  (g.nodes.map (·.id)).eraseDups.filter
      (fun v => g.linkedEdges.all (·.target ≠ v) && g.linkedEdges.any (·.source = v)) ++
    order.flatMap fun u => (g.linkedEdges.filter (·.source = u)).map (·.target)

def isDue (g : Graph) (order : List String) (v : String) : Bool :=
  v ∉ order ∧ ∀ e ∈ g.linkedEdges, e.target = v → e.source ∈ order

/-- Of the discovered nodes that are due, one with most linked edges that enter it, parallel ones
counted; of several such nodes the one that was discovered first. -/
def next? (g : Graph) (order : List String) : Option String :=
  ((g.discoveries order).filter (g.isDue order)).argmax fun v =>
    g.linkedEdges.countP (·.target = v)

/-- The order in which always the next node comes, until there is none. -/
structure IsGreedy (g : Graph) (order : List String) : Prop where
  chosen : ∀ before v behind, order = before ++ v :: behind → g.next? before = some v
  finished : g.next? order = none

theorem rank_dependencies (g : Graph) (v : String) :
    g.dependencies.rank v = g.linkedEdges.countP (·.target = v) := by
  rw [rank, parents, List.length_map, ← List.countP_eq_length_filter]
  exact List.countP_map

theorem roots_dependencies (g : Graph) :
    g.dependencies.roots = (g.nodes.map (·.id)).eraseDups.filter
      (fun v => g.linkedEdges.all (·.target ≠ v) && g.linkedEdges.any (·.source = v)) := by
  rw [roots, vertices_dependencies]
  refine List.filter_congr fun v _ => ?_
  simp only [hasParent, hasChild, dependencies, List.any_map, List.not_any_eq_all_not]
  simp [Function.comp_def]

theorem discoveries_dependencies (g : Graph) (order : List String) :
    g.dependencies.discoveries order = g.discoveries order := by
  have hchildren : g.dependencies.children =
      fun u => (g.linkedEdges.filter (·.source = u)).map (·.target) :=
    funext g.children_dependencies
  rw [Dependencies.discoveries, roots_dependencies, hchildren]
  rfl

theorem isDue_dependencies (g : Graph) (order : List String) :
    g.dependencies.isDue order = g.isDue order := by
  funext v
  rw [Bool.eq_iff_iff, isDue_iff, isDue, decide_eq_true_iff]
  refine and_congr_right fun _ => ?_
  simp only [mem_parents, arc_dependencies, Link]
  constructor
  · exact fun h e he ht => h e.source ⟨e, he, rfl, ht⟩
  · rintro h _ ⟨e, he, rfl, ht⟩
    exact h e he ht

theorem next?_dependencies (g : Graph) (order : List String) :
    g.dependencies.next? order = g.next? order := by
  have hrank : g.dependencies.rank = fun v => g.linkedEdges.countP (·.target = v) :=
    funext g.rank_dependencies
  rw [Dependencies.next?, discoveries_dependencies, isDue_dependencies, hrank]
  rfl

/-- The order of the dependencies is the one told by nodes and linked edges. -/
theorem isGreedy_dependencies {order : List String} :
    g.dependencies.IsGreedy order ↔ g.IsGreedy order := by
  constructor
  · intro h
    refine ⟨fun before v behind horder => ?_, ?_⟩
    · rw [← next?_dependencies, h.chosen before v behind horder]
    · rw [← next?_dependencies, h.finished]
  · intro h
    refine ⟨fun before v behind horder => ?_, ?_⟩
    · rw [next?_dependencies, h.chosen before v behind horder]
    · rw [next?_dependencies, h.finished]

/-- On every graph the order of evaluation has the nodes that no linked edge touches, in the order
of the nodes, and behind them the others in the greedy order, of which there is only one. -/
theorem order_eq_untouched_append_greedy (g : Graph) :
    ∃ rest, g.compile.order =
        (g.nodes.map (·.id)).eraseDups.filter (fun v => !g.isTouched v) ++ rest ∧
      g.IsGreedy rest ∧ ∀ other, g.IsGreedy other → other = rest := by
  have hgreedy := g.dependencies.isGreedy_priorityOrder
  refine ⟨g.dependencies.priorityOrder, ?_, isGreedy_dependencies.1 hgreedy, fun other hother => ?_⟩
  · show g.dependencies.isolated ++ _ = _
    rw [isolated_dependencies]
  · exact (isGreedy_dependencies.2 hother).eq hgreedy

end ConstraintGraph.Graph
