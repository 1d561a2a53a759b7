import ConstraintGraph.Proofs.Compilation.Links

namespace ConstraintGraph

open Relation

theorem mem_introducedBy {nodes : List Node} {kind : VariableKind} {i : UInt32} :
    i ∈ introducedBy nodes kind ↔ ∃ node ∈ nodes, i ∈ node.introduces kind := by
  rw [introducedBy, Std.ExtTreeSet.mem_toList, Std.ExtTreeSet.mem_ofList, List.contains_iff_mem,
    List.mem_flatMap]

theorem pairwise_introducedBy (nodes : List Node) (kind : VariableKind) :
    (introducedBy nodes kind).Pairwise (· < ·) := by
  have hordered : (introducedBy nodes kind).Pairwise fun i j => compare i j = .lt :=
    Std.ExtTreeSet.ordered_toList
  exact hordered.imp Std.compare_eq_lt.1

namespace Scope

theorem mem_toList {s : Scope} {v : Variable} : v ∈ s.toList ↔ v.index ∈ s.ofKind v.kind := by
  obtain ⟨kind, i⟩ := v
  cases kind <;> simp [toList, Variable.event, Variable.object, ofKind]

theorem isEmpty_eq_false_iff {s : Scope} : s.isEmpty = false ↔ ∃ v, v ∈ s.toList := by
  obtain ⟨event, object⟩ := s
  cases event <;> cases object <;> simp [isEmpty, toList]

end Scope

namespace Graph

variable {g : Graph} {id parent x : String} {node : Node}

theorem link_of_firstParent? (h : g.firstParent? id = some parent) : g.Link parent id := by
  obtain ⟨e, he, rfl⟩ := Option.map_eq_some_iff.1 h
  have hfound := List.find?_some he
  rw [Bool.and_eq_true, beq_iff_eq] at hfound
  refine ⟨e, ?_, rfl, hfound.1⟩
  exact mem_linkedEdges.2 ⟨List.mem_of_find?_eq_some he, isLinked_iff.1 hfound.2⟩

theorem firstParent?_eq_none (h : g.node? id = none) : g.firstParent? id = none := by
  cases hparent : g.firstParent? id with
  | none => rfl
  | some parent =>
    obtain ⟨e, he, -, rfl⟩ := link_of_firstParent? hparent
    have hnode := (mem_linkedEdges.1 he).2.2.2
    rw [hasNode, h] at hnode
    cases hnode

def Ascends (g : Graph) (id x : String) : Prop :=
  ReflTransGen (fun child parent => g.firstParent? child = some parent) id x

theorem chainFrom_succ (g : Graph) (fuel : Nat) (visited : List String) (id : String) :
    g.lineage.chainFrom (fuel + 1) visited id =
      if id ∈ visited then []
      else
        match g.node? id, g.firstParent? id with
        | none, _ => []
        | some node, none => [node]
        | some node, some parent => node :: g.lineage.chainFrom fuel (id :: visited) parent := by
  rw [Lineage.chainFrom, descent?_lineage]
  cases g.node? id <;> cases g.firstParent? id <;> rfl

/-- What is in the chain is reached by first parents, also where the chain ends in a cycle. -/
theorem exists_of_mem_chainFrom {fuel : Nat} {visited : List String}
    (h : node ∈ g.lineage.chainFrom fuel visited id) :
    ∃ x, g.Ascends id x ∧ g.node? x = some node := by
  induction fuel generalizing visited id with
  | zero => cases h
  | succ fuel ih =>
    rw [chainFrom_succ] at h
    split at h
    · cases h
    · split at h
      · cases h
      · -- The chain ends here: no parent.
        rename_i found hfound _
        obtain rfl := List.mem_singleton.1 h
        exact ⟨id, .refl, hfound⟩
      · rename_i found parent hfound hparent
        rcases List.mem_cons.1 h with rfl | h
        · exact ⟨id, .refl, hfound⟩
        · obtain ⟨x, hx, hnode⟩ := ih h
          exact ⟨x, .head hparent hx, hnode⟩

/-- Nothing leads out of ids whose first parents are all among them. -/
theorem Ascends.mem_of_closed {ids : List String} (hx : g.Ascends id x) (hid : id ∈ ids)
    (hclosed : ∀ v ∈ ids, ∀ w, g.firstParent? v = some w → w ∈ ids) : x ∈ ids := by
  induction hx with
  | refl => exact hid
  | tail _ hparent ih => exact hclosed _ ih _ hparent

theorem countP_notMem_cons_lt {visited : List String} (hnode : g.node? id = some node)
    (hid : id ∉ visited) :
    (g.nodes.map (·.id)).countP (· ∉ id :: visited) <
      (g.nodes.map (·.id)).countP (· ∉ visited) := by
  have hpos : 0 < (g.nodes.map (·.id)).count id := by
    obtain ⟨hmem, rfl⟩ := node?_eq_some hnode
    exact List.count_pos_iff.2 (List.mem_map_of_mem hmem)
  have hsame : (g.nodes.map (·.id)).countP (· ∉ id :: visited) =
      (g.nodes.map (·.id)).countP (· ∉ visited ++ [id]) := by
    refine List.countP_congr fun v _ => ?_
    simp [and_comm]
  have hcount := Dependencies.countP_notMem_concat (g.nodes.map (·.id)) hid
  omega

/-- The walk finds all of an ascent that it has not passed, when its fuel covers the nodes that it
has not passed and the first parents of those that it has lead to them or to where it is. -/
theorem mem_chainFrom {fuel : Nat} {visited : List String}
    (hfuel : (g.nodes.map (·.id)).countP (· ∉ visited) ≤ fuel)
    (hvisited : ∀ v ∈ visited, ∀ w, g.firstParent? v = some w → w ∈ id :: visited)
    (hx : g.Ascends id x) (hnode : g.node? x = some node) :
    x ∈ visited ∨ node ∈ g.lineage.chainFrom fuel visited id := by
  induction fuel generalizing visited id with
  | zero =>
    -- Without fuel all nodes have been passed.
    have hzero := List.countP_eq_zero.1 (Nat.le_zero.1 hfuel)
    obtain ⟨hmem, rfl⟩ := node?_eq_some hnode
    have hpassed := hzero node.id (List.mem_map_of_mem hmem)
    exact Or.inl (by simpa using hpassed)
  | succ fuel ih =>
    rw [chainFrom_succ]
    by_cases hid : id ∈ visited
    · -- The walk is back at an id that it has passed.
      refine Or.inl (hx.mem_of_closed hid fun v hv w hw => ?_)
      rcases List.mem_cons.1 (hvisited v hv w hw) with rfl | h
      · exact hid
      · exact h
    · rw [if_neg hid]
      rcases ReflTransGen.cases_head hx with rfl | ⟨parent, hparent, hx⟩
      · refine Or.inr ?_
        cases hfirst : g.firstParent? id with
        | none =>
          simp only [hnode]
          exact List.mem_singleton_self _
        | some parent =>
          simp only [hnode]
          exact List.mem_cons_self
      · cases hfound : g.node? id with
        | none =>
          rw [firstParent?_eq_none hfound] at hparent
          cases hparent
        | some found =>
          have hpasses : (g.nodes.map (·.id)).countP (· ∉ id :: visited) ≤ fuel :=
            Nat.le_of_lt_succ (Nat.lt_of_lt_of_le (countP_notMem_cons_lt hfound hid) hfuel)
          have hclosed : ∀ v ∈ id :: visited, ∀ w, g.firstParent? v = some w →
              w ∈ parent :: id :: visited := by
            intro v hv w hw
            rcases List.mem_cons.1 hv with rfl | hv
            · rw [hparent] at hw
              obtain rfl := Option.some.inj hw
              exact List.mem_cons_self
            · exact List.mem_cons_of_mem _ (hvisited v hv w hw)
          simp only [hparent]
          -- What the rest of the walk has passed is this node or was passed before.
          rcases ih hpasses hclosed hx with h | h
          · rcases List.mem_cons.1 h with rfl | h
            · rw [hnode] at hfound
              obtain rfl := Option.some.inj hfound
              exact Or.inr List.mem_cons_self
            · exact Or.inl h
          · exact Or.inr (List.mem_cons_of_mem _ h)

/-- The chain of a node has the nodes that following first parents reaches. -/
theorem mem_chain_iff : node ∈ g.chain id ↔ ∃ x, g.Ascends id x ∧ g.node? x = some node := by
  constructor
  · exact exists_of_mem_chainFrom
  · rintro ⟨x, hx, hnode⟩
    have hfuel : (g.nodes.map (·.id)).countP (· ∉ ([] : List String)) ≤ g.lineage.length := by
      rw [lineage, List.length_map, ← List.length_map (f := fun node : Node => node.id)]
      exact List.countP_le_length
    refine (mem_chainFrom hfuel ?_ hx hnode).resolve_left List.not_mem_nil
    intro v hv
    cases hv

def Introduces (g : Graph) (id : String) (v : Variable) : Prop :=
  ∃ node, g.node? id = some node ∧ v.index ∈ node.introduces v.kind

/-- In scope is what is introduced where first parents lead, the node itself included. -/
theorem mem_scope_iff {v : Variable} :
    v ∈ (g.scope id).toList ↔ ∃ x, g.Ascends id x ∧ g.Introduces x v := by
  have hkind : (g.scope id).ofKind v.kind = introducedBy (g.chain id) v.kind := by
    obtain ⟨kind, i⟩ := v
    cases kind <;> rfl
  rw [Scope.mem_toList, hkind, mem_introducedBy]
  constructor
  · rintro ⟨node, hnode, hi⟩
    obtain ⟨x, hx, hfound⟩ := mem_chain_iff.1 hnode
    exact ⟨x, hx, node, hfound, hi⟩
  · rintro ⟨x, hx, node, hfound, hi⟩
    exact ⟨node, mem_chain_iff.2 ⟨x, hx, hfound⟩, hi⟩

/-- A variable is in scope where it is introduced and where it is in scope at the first parent. -/
theorem mem_scope_iff_introduces_or {v : Variable} :
    v ∈ (g.scope id).toList ↔ g.Introduces id v ∨
      ∃ parent, g.firstParent? id = some parent ∧ v ∈ (g.scope parent).toList := by
  rw [mem_scope_iff]
  constructor
  · rintro ⟨x, hx, hv⟩
    rcases ReflTransGen.cases_head hx with rfl | ⟨parent, hparent, hx⟩
    · exact Or.inl hv
    · exact Or.inr ⟨parent, hparent, mem_scope_iff.2 ⟨x, hx, hv⟩⟩
  · rintro (hv | ⟨parent, hparent, hv⟩)
    · exact ⟨id, .refl, hv⟩
    · obtain ⟨x, hx, hv⟩ := mem_scope_iff.1 hv
      exact ⟨x, .head hparent hx, hv⟩

end Graph
end ConstraintGraph
