import ConstraintGraph.Proofs.Compilation.Declarations
import ConstraintGraph.Proofs.Edit.Loops

namespace ConstraintGraph.Graph

open Relation

variable {g : Graph} {id x : String} {v : Variable} {kind : VariableKind} {i : UInt32}

/-- A gate introduces nothing. -/
theorem introduces_iff :
    g.Introduces id v ↔
      ∃ node data, g.node? id = some node ∧ node.event? = some data ∧
        v.index ∈ data.table v.kind := by
  refine exists_congr fun node => ?_
  rw [exists_and_left]
  refine and_congr_right fun _ => ?_
  cases hevent : node.event? with
  | none => simp [Node.introduces, hevent]
  | some data =>
    simp only [Node.introduces, hevent, Option.some.injEq, exists_eq_left']
    exact Std.ExtTreeMap.mem_keys

theorem Introduces.hasNode (h : g.Introduces id v) : g.hasNode id = true := by
  obtain ⟨node, hnode, -⟩ := h
  rw [Graph.hasNode, hnode]
  rfl

theorem Ascends.eq_or_mem_ancestors (h : g.Ascends id x) : x = id ∨ x ∈ g.ancestors id := by
  -- A first parent is the source of an edge, so the chain is a path of edges read backwards.
  have hstep : ∀ parent child, g.firstParent? child = some parent → g.Leads parent child :=
    fun _ _ hparent => leads_of_link (link_of_firstParent? hparent)
  have hpath : ReflTransGen g.Leads x id := ReflTransGen.mono hstep x id (reflTransGen_swap.1 h)
  rcases reflTransGen_iff_eq_or_transGen.1 hpath with heq | hpath
  · exact Or.inl heq.symm
  · exact Or.inr (mem_ancestors_iff.2 hpath)

theorem mem_ofKind_scope :
    i ∈ (g.scope id).ofKind kind ↔ ∃ x, g.Ascends id x ∧ g.Introduces x ⟨kind, i⟩ := by
  rw [← mem_scope_iff, Scope.mem_toList]

/-- In scope at a node is what it introduces and what is in scope at its first parent, also on a
cycle. -/
theorem mem_ofKind_scope_iff_introduces_or :
    i ∈ (g.scope id).ofKind kind ↔ g.Introduces id ⟨kind, i⟩ ∨
      ∃ parent, g.firstParent? id = some parent ∧ i ∈ (g.scope parent).ofKind kind := by
  have hrec : ⟨kind, i⟩ ∈ (g.scope id).toList ↔ g.Introduces id ⟨kind, i⟩ ∨
      ∃ parent, g.firstParent? id = some parent ∧ ⟨kind, i⟩ ∈ (g.scope parent).toList :=
    mem_scope_iff_introduces_or
  simpa only [Scope.mem_toList] using hrec

theorem ofKind_scope_eq_nil (hid : g.hasNode id = false) : (g.scope id).ofKind kind = [] := by
  have hnode : g.node? id = none := by simpa [Graph.hasNode] using hid
  refine List.eq_nil_iff_forall_not_mem.2 fun i hi => ?_
  rcases mem_ofKind_scope_iff_introduces_or.1 hi with hintroduces | ⟨parent, hparent, -⟩
  · rw [hintroduces.hasNode] at hid
    cases hid
  · rw [firstParent?_eq_none hnode] at hparent
    cases hparent

/-- On every graph the indices in scope at an id ascend, and they are those that the event nodes on
its chain of first parents introduce. An id that is no node has none; otherwise they are the node's
own and those in scope at its first parent. None comes from elsewhere than the node and its
ancestors. -/
theorem scope_along_chain (g : Graph) (id : String) (kind : VariableKind) :
    ((g.scope id).ofKind kind).Pairwise (· < ·) ∧
      (∀ i, i ∈ (g.scope id).ofKind kind ↔
        ∃ x node data, g.Ascends id x ∧ g.node? x = some node ∧ node.event? = some data ∧
          i ∈ data.table kind) ∧
      (∀ i, i ∈ (g.scope id).ofKind kind ↔ g.Introduces id ⟨kind, i⟩ ∨
        ∃ parent, g.firstParent? id = some parent ∧ i ∈ (g.scope parent).ofKind kind) ∧
      (g.hasNode id = false → (g.scope id).ofKind kind = []) ∧
      ∀ i ∈ (g.scope id).ofKind kind,
        ∃ x, (x = id ∨ x ∈ g.ancestors id) ∧ g.Introduces x ⟨kind, i⟩ := by
  refine ⟨pairwise_scope g id kind, fun i => ?_, fun i => mem_ofKind_scope_iff_introduces_or,
    ofKind_scope_eq_nil, fun i hi => ?_⟩
  · rw [mem_ofKind_scope]
    simp only [introduces_iff, exists_and_left]
  · obtain ⟨x, hx, hintroduces⟩ := mem_ofKind_scope.1 hi
    exact ⟨x, hx.eq_or_mem_ancestors, hintroduces⟩

/-- The chain of `pay` runs into a cycle of two other nodes and finds what both introduce. -/
theorem scope_along_chain_into_cycle :
    ∃ g : Graph, g.firstParent? "pay" = some "pack" ∧ g.firstParent? "pack" = some "ship" ∧
      g.firstParent? "ship" = some "pack" ∧ (g.scope "pay").ofKind .object = [0, 1, 2] ∧
      ∀ i, i ∈ (g.scope "pay").ofKind .object ↔ g.Introduces "pay" ⟨.object, i⟩ ∨
        ∃ parent, g.firstParent? "pay" = some parent ∧ i ∈ (g.scope parent).ofKind .object := by
  let introducing (id : String) (i : UInt32) : Node :=
    ⟨id, .event { EventNode.empty with objectVariables := .ofList [(i, ∅)] compare }⟩
  let g : Graph :=
    ⟨[introducing "pay" 0, introducing "ship" 2, introducing "pack" 1],
      [.link "pack" "pay", .link "ship" "pack", .link "pack" "ship"]⟩
  exact ⟨g, by decide +kernel, by decide +kernel, by decide +kernel, by decide +kernel,
    (scope_along_chain g "pay" .object).2.2.1⟩

end ConstraintGraph.Graph
