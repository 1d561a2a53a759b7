import ConstraintGraph.Proofs.Compilation.Entries

/-!
Declarations and scopes of a plan. A step's scope is what the plan declares for its id together with
the scope of the step that its first parent is, so the scopes follow from the rest of the plan. The
declarations come in the order of the steps.
-/

namespace ConstraintGraph

def Variable.Before (v w : Variable) : Prop :=
  v.kind = .event ∧ w.kind = .object ∨ v.kind = w.kind ∧ v.index < w.index

theorem Variable.Before.ne {v w : Variable} (h : v.Before w) : v ≠ w := by
  rintro rfl
  rcases h with ⟨hevent, hobject⟩ | ⟨-, hlt⟩
  · rw [hevent] at hobject
    cases hobject
  · exact UInt32.lt_irrefl _ hlt

namespace Plan

def Declares (p : Plan) (id : String) (v : Variable) : Prop :=
  ∃ d ∈ p.declarations, d.node = id ∧ d.var = v

/-- The variables in scope at the step of the first parent; none when there is no parent or when it
is no step. -/
def inherited (p : Plan) (t : PlanEntry) : List Variable :=
  match t.parents.head?.bind fun n => p.entry? n.id with
  | some parent => parent.scope.toList
  | none => []

def Precedes (p : Plan) (d d' : Declaration) : Prop :=
  p.nodeIds.idxOf d.node < p.nodeIds.idxOf d'.node ∨ d.node = d'.node ∧ d.var.Before d'.var

theorem Precedes.ne {p : Plan} {d d' : Declaration} (h : p.Precedes d d') :
    (d.node, d.var) ≠ (d'.node, d'.var) := by
  intro hsame
  obtain ⟨hnode, hvar⟩ := Prod.mk.inj hsame
  rcases h with hlt | ⟨-, hbefore⟩
  · rw [hnode] at hlt
    exact Nat.lt_irrefl _ hlt
  · exact hbefore.ne hvar

end Plan

section Positions

variable {α : Type} [BEq α] [LawfulBEq α] {l : List α}

theorem pairwise_idxOf (hl : l.Nodup) : l.Pairwise fun a b => l.idxOf a < l.idxOf b := by
  rw [List.pairwise_iff_getElem]
  intro i j hi hj hij
  rwa [hl.idxOf_getElem, hl.idxOf_getElem]

/-- Taking elements out keeps the order of the others. -/
theorem idxOf_filter_lt {q : α → Bool} (hl : l.Nodup) {a b : α} (ha : a ∈ l.filter q)
    (hlt : l.idxOf a < l.idxOf b) : (l.filter q).idxOf a < (l.filter q).idxOf b := by
  have hpairwise : (l.filter q).Pairwise fun a b => l.idxOf a < l.idxOf b :=
    (pairwise_idxOf hl).filter q
  have hal := List.idxOf_lt_length_of_mem ha
  -- If `b` came first in the filtered list it would come first in the whole.
  by_contra hge
  have hge := Nat.not_lt.1 hge
  have hbl : (l.filter q).idxOf b < (l.filter q).length := Nat.lt_of_le_of_lt hge hal
  rcases Nat.lt_or_eq_of_le hge with hback | hsame
  · have hcontra := List.pairwise_iff_getElem.1 hpairwise _ _ hbl hal hback
    rw [List.getElem_idxOf, List.getElem_idxOf] at hcontra
    omega
  · have hab : a = b := by
      rw [← List.getElem_idxOf hal, ← List.getElem_idxOf hbl]
      simp only [hsame]
    rw [hab] at hlt
    exact Nat.lt_irrefl _ hlt

end Positions

/-- Elements that give nothing can be taken out before. -/
theorem flatMap_filter_eq {α β : Type} {l : List α} {q : α → Bool} {f : α → List β}
    (hf : ∀ a ∈ l, q a = false → f a = []) : (l.filter q).flatMap f = l.flatMap f := by
  induction l with
  | nil => rfl
  | cons a l ih =>
    have ih := ih fun b hb => hf b (List.mem_cons_of_mem _ hb)
    cases hq : q a with
    | true => rw [List.filter_cons_of_pos hq, List.flatMap_cons, List.flatMap_cons, ih]
    | false =>
      rw [List.filter_cons_of_neg (by simp [hq]), List.flatMap_cons, hf a List.mem_cons_self hq, ih]
      rfl

namespace Graph

variable {g : Graph} {p : Plan} {t : PlanEntry} {id : String} {node : Node} {d : Declaration}
  {v : Variable}

theorem mem_declarationsOf (hd : d ∈ declarationsOf node) :
    d.node = node.id ∧ d.var.index ∈ node.introduces d.var.kind := by
  unfold declarationsOf at hd
  split at hd
  · cases hd
  · rename_i data hdata
    obtain ⟨kind, -, hd⟩ := List.mem_flatMap.1 hd
    obtain ⟨⟨index, types⟩, hmem, rfl⟩ := List.mem_map.1 hd
    refine ⟨rfl, ?_⟩
    have hkey : index ∈ (data.table kind).keys := by
      rw [← Std.ExtTreeMap.map_fst_toList_eq_keys]
      exact List.mem_map_of_mem hmem
    simp only [Node.introduces, hdata, VariableTable.indices]
    exact hkey

theorem exists_declarationsOf (hv : v.index ∈ node.introduces v.kind) :
    ∃ d ∈ declarationsOf node, d.var = v := by
  obtain ⟨kind, index⟩ := v
  unfold Node.introduces at hv
  split at hv
  · rename_i data hdata
    rw [VariableTable.indices, ← Std.ExtTreeMap.map_fst_toList_eq_keys] at hv
    obtain ⟨⟨index', types⟩, hmem, rfl⟩ := List.mem_map.1 hv
    refine ⟨⟨⟨kind, index'⟩, types, node.id⟩, ?_, rfl⟩
    simp only [declarationsOf, hdata]
    refine List.mem_flatMap.2 ⟨kind, ?_, List.mem_map.2 ⟨(index', types), hmem, rfl⟩⟩
    cases kind <;> simp [VariableKind.all]
  · cases hv

/-- A node declares its event variables before its object variables, each kind by index. -/
theorem pairwise_declarationsOf (node : Node) :
    (declarationsOf node).Pairwise fun d d' => d.node = d'.node ∧ d.var.Before d'.var := by
  unfold declarationsOf
  split
  · exact .nil
  · rename_i data _
    rw [List.pairwise_flatMap]
    refine ⟨fun kind _ => ?_, ?_⟩
    · -- Of one kind they follow the keys of the table, and events stand before objects.
      rw [List.pairwise_map]
      have hkeys : (data.table kind).toList.Pairwise fun a b => compare a.1 b.1 = .lt :=
        Std.ExtTreeMap.ordered_keys_toList
      exact hkeys.imp fun hlt => ⟨rfl, Or.inr ⟨rfl, Std.compare_eq_lt.1 hlt⟩⟩
    · have hkinds : VariableKind.all.Pairwise fun a b => a = .event ∧ b = .object := by
        simp [VariableKind.all]
      refine hkinds.imp ?_
      rintro _ _ ⟨rfl, rfl⟩ d hd d' hd'
      obtain ⟨_, -, rfl⟩ := List.mem_map.1 hd
      obtain ⟨_, -, rfl⟩ := List.mem_map.1 hd'
      exact ⟨rfl, Or.inl ⟨rfl, rfl⟩⟩

theorem mem_declarationsAt (hd : d ∈ g.declarationsAt id) :
    d.node = id ∧ g.Introduces id d.var := by
  unfold declarationsAt at hd
  cases hnode : g.node? id with
  | none => simp [hnode] at hd
  | some node =>
    have hd : d ∈ declarationsOf node := by simpa [hnode] using hd
    obtain ⟨hid, hv⟩ := mem_declarationsOf hd
    exact ⟨hid.trans (node?_eq_some hnode).2, node, hnode, hv⟩

theorem pairwise_declarationsAt (g : Graph) (id : String) :
    (g.declarationsAt id).Pairwise fun d d' => d.node = d'.node ∧ d.var.Before d'.var := by
  unfold declarationsAt
  cases g.node? id with
  | none => exact .nil
  | some node => exact pairwise_declarationsOf node

theorem Introduces.mem_nodeIds (hv : g.Introduces id v) (hp : g.plan = .ok p) :
    id ∈ p.nodeIds := by
  have hscope : v ∈ (g.scope id).toList := mem_scope_iff_introduces_or.2 (Or.inl hv)
  obtain ⟨node, hnode, -⟩ := hv
  refine (mem_nodeIds_iff hp).2 ⟨?_, Scope.isEmpty_eq_false_iff.2 ⟨v, hscope⟩⟩
  rw [hasNode, hnode]
  rfl

/-- The nodes that are no steps declare nothing. -/
theorem declarations_eq (hp : g.plan = .ok p) :
    p.declarations = p.nodeIds.flatMap g.declarationsAt := by
  rw [(plan_eq_ok hp).2.1, nodeIds_eq hp]
  refine (flatMap_filter_eq fun id hid hempty => ?_).symm
  refine List.eq_nil_iff_forall_not_mem.2 fun d hd => ?_
  have hstep := (mem_declarationsAt hd).2.mem_nodeIds hp
  rw [mem_nodeIds_iff hp] at hstep
  rw [hstep.2] at hempty
  cases hempty

theorem mem_declarations (hp : g.plan = .ok p) (hd : d ∈ p.declarations) :
    g.Introduces d.node d.var := by
  rw [declarations_eq hp] at hd
  obtain ⟨id, -, hd⟩ := List.mem_flatMap.1 hd
  obtain ⟨rfl, hv⟩ := mem_declarationsAt hd
  exact hv

/-- A plan declares for an id what the first node of the id introduces. -/
theorem declares_iff (hp : g.plan = .ok p) : p.Declares id v ↔ g.Introduces id v := by
  constructor
  · rintro ⟨d, hd, rfl, rfl⟩
    exact mem_declarations hp hd
  · intro hv
    have hstep := hv.mem_nodeIds hp
    obtain ⟨node, hnode, hv⟩ := hv
    obtain ⟨d, hd, rfl⟩ := exists_declarationsOf hv
    have hat : d ∈ g.declarationsAt id := by simpa [declarationsAt, hnode] using hd
    refine ⟨d, ?_, (mem_declarationsAt hat).1, rfl⟩
    rw [declarations_eq hp]
    exact List.mem_flatMap.2 ⟨id, hstep, hat⟩

theorem pairwise_declarations (hp : g.plan = .ok p) : p.declarations.Pairwise p.Precedes := by
  rw [declarations_eq hp, List.pairwise_flatMap]
  constructor
  · intro id _
    exact (pairwise_declarationsAt g id).imp Or.inr
  · refine (pairwise_idxOf (nodup_nodeIds hp)).imp ?_
    intro id id' hlt d hd d' hd'
    refine Or.inl ?_
    rwa [(mem_declarationsAt hd).1, (mem_declarationsAt hd').1]

/-- What a step inherits is in scope at the first parent of its node. -/
theorem mem_inherited (hp : g.plan = .ok p) (ht : t ∈ p.entries) :
    v ∈ p.inherited t ↔
      ∃ parent, g.firstParent? t.id = some parent ∧ v ∈ (g.scope parent).toList := by
  rw [Plan.inherited, parents_of_mem_entries hp ht, ← head?_parentsOf]
  cases hhead : (g.parentsOf t.id).head? with
  | none => simp
  | some n =>
    have hlink := link_of_mem_parentsOf (List.mem_of_mem_head? hhead)
    obtain ⟨e, he, hsource, -⟩ := hlink
    obtain ⟨node, hnode⟩ := Option.isSome_iff_exists.1 (mem_linkedEdges.1 he).2.2.1
    rw [hsource] at hnode
    simp only [Option.bind_some, entry?_plan hp, Option.map_some, Option.some.injEq,
      exists_eq_left']
    cases hempty : (g.scope n.id).isEmpty with
    | true =>
      -- A parent without a scope is no step, and has nothing to pass on.
      rw [entry?_eq_none hempty]
      refine iff_of_false List.not_mem_nil fun hv => ?_
      rw [Scope.isEmpty_eq_false_iff.2 ⟨v, hv⟩] at hempty
      cases hempty
    | false => rw [entry?_eq_some_iff.2 ⟨node, hnode, hempty, rfl⟩]

/-- The parents of a step that are steps come before it. -/
theorem idxOf_parent_lt (hp : g.plan = .ok p) (ht : t ∈ p.entries) {n : Neighbor}
    (hn : n ∈ t.parents) (hstep : n.id ∈ p.nodeIds) :
    p.nodeIds.idxOf n.id < p.nodeIds.idxOf t.id := by
  rw [parents_of_mem_entries hp ht] at hn
  obtain ⟨e, he, hsource, htarget⟩ := link_of_mem_parentsOf hn
  have hmem : e.target ∈ g.order := (mem_order_of_plan hp).2 (mem_linkedEdges.1 he).2.2.2
  have hlt := (source_before_target he hmem).2
  rw [hsource, htarget] at hlt
  rw [nodeIds_eq hp] at hstep ⊢
  exact idxOf_filter_lt g.nodup_order hstep hlt

theorem pairwise_scope (g : Graph) (id : String) (kind : VariableKind) :
    ((g.scope id).ofKind kind).Pairwise (· < ·) := by
  cases kind with
  | event => exact pairwise_introducedBy _ _
  | object => exact pairwise_introducedBy _ _

/-- The scopes of a plan follow from its other parts. The steps are the ids of the order where some
variable is in scope; what is in scope at a step is what is declared for it and what is in scope at
the step that is its first parent, which comes before it. The declarations are of what the nodes
introduce; they belong to steps, follow the order of the steps and, for each, that of the variables,
and do not repeat. -/
theorem scopes_of_plan (hp : g.plan = .ok p) :
    p.nodeIds = g.compile.order.filter (fun id => !(g.scope id).isEmpty) ∧
      (∀ t ∈ p.entries, (∀ kind, (t.scope.ofKind kind).Pairwise (· < ·)) ∧
        (∀ v, v ∈ t.scope.toList ↔ p.Declares t.id v ∨ v ∈ p.inherited t) ∧
        ∀ n ∈ t.parents, n.id ∈ p.nodeIds → p.nodeIds.idxOf n.id < p.nodeIds.idxOf t.id) ∧
      (∀ id v, p.Declares id v ↔ g.Introduces id v) ∧
      (∀ d ∈ p.declarations, d.node ∈ p.nodeIds) ∧
      p.declarations.Pairwise p.Precedes ∧
      (p.declarations.map fun d => (d.node, d.var)).Nodup := by
  have hpairwise := pairwise_declarations hp
  refine ⟨nodeIds_eq hp, ?_, fun id v => declares_iff hp, ?_, hpairwise, ?_⟩
  · intro t ht
    have hscope := scope_of_mem_entries hp ht
    refine ⟨?_, ?_, fun n => idxOf_parent_lt hp ht⟩
    · intro kind
      rw [hscope]
      exact pairwise_scope g t.id kind
    · intro v
      rw [hscope, mem_scope_iff_introduces_or, declares_iff hp, mem_inherited hp ht]
  · intro d hd
    exact (mem_declarations hp hd).mem_nodeIds hp
  · exact List.pairwise_map.2 (hpairwise.imp Plan.Precedes.ne)

/-- A gate passes the scope of its parent on, past an edge without a source, and one without a
parent is no step. -/
theorem scopes_of_plan_gate :
    ∃ p, Graph.plan
        ⟨[⟨"alone", .gate .or⟩,
          ⟨"pay", .event { EventNode.empty with objectVariables := .ofList [(1, ∅)] compare }⟩,
          ⟨"not", .gate .not⟩,
          ⟨"place", .event { EventNode.empty with objectVariables := .ofList [(0, ∅)] compare }⟩],
        [.link "nowhere" "pay", .link "place" "not", .link "not" "pay"]⟩ = .ok p ∧
      p.nodeIds = ["place", "not", "pay"] ∧
      ∀ t ∈ p.entries, ∀ v, v ∈ t.scope.toList ↔ p.Declares t.id v ∨ v ∈ p.inherited t := by
  obtain ⟨p, hp⟩ := exists_plan_iff.2 (show Compilation.hasErrors (Graph.compile
    ⟨[⟨"alone", .gate .or⟩,
      ⟨"pay", .event { EventNode.empty with objectVariables := .ofList [(1, ∅)] compare }⟩,
      ⟨"not", .gate .not⟩,
      ⟨"place", .event { EventNode.empty with objectVariables := .ofList [(0, ∅)] compare }⟩],
    [.link "nowhere" "pay", .link "place" "not", .link "not" "pay"]⟩) = false by decide +kernel)
  obtain ⟨hids, hentries, -⟩ := scopes_of_plan hp
  exact ⟨p, hp, hids.trans (by decide +kernel), fun t ht => (hentries t ht).2.1⟩

end Graph
end ConstraintGraph
