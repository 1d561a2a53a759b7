import ConstraintGraph.Proofs.Edit.WellBuilt

namespace ConstraintGraph

open Relation

/-- What a slot of a gate with two of them puts between the id and the end of a handle. -/
def sides : List String := ["-left", "-right"]

def ExtendsBySide (a b : String) : Prop := ∃ side ∈ sides, a = b ++ side

instance (a b : String) : Decidable (ExtendsBySide a b) :=
  inferInstanceAs (Decidable (∃ side ∈ sides, a = b ++ side))

theorem append_left_ne_append_right (a b : String) : a ++ "-left" ≠ b ++ "-right" := by
  intro h
  -- The last letters are the same, those before them are not.
  have hreverse := congrArg (fun text => text.toList.reverse) h
  simp at hreverse

theorem append_side_inj {a b s t : String} (hs : s ∈ sides) (ht : t ∈ sides)
    (h : a ++ s = b ++ t) : a = b := by
  simp only [sides, List.mem_cons, List.not_mem_nil, or_false] at hs ht
  rcases hs with rfl | rfl <;> rcases ht with rfl | rfl
  · exact (String.append_left_inj _).1 h
  · exact absurd h (append_left_ne_append_right a b)
  · exact absurd h.symm (append_left_ne_append_right b a)
  · exact (String.append_left_inj _).1 h

/-- Where two ids with sides behind them are one text, the ids are the same or one is the other with
a side. -/
theorem append_eq_append_cases {a b s t : String} (hs : s = "" ∨ s ∈ sides)
    (ht : t = "" ∨ t ∈ sides) (h : a ++ s = b ++ t) :
    a = b ∨ ExtendsBySide a b ∨ ExtendsBySide b a := by
  rcases hs with rfl | hs
  · rw [String.append_empty] at h
    rcases ht with rfl | ht
    · rw [String.append_empty] at h
      exact Or.inl h
    · exact Or.inr (Or.inl ⟨t, ht, h⟩)
  · rcases ht with rfl | ht
    · rw [String.append_empty] at h
      exact Or.inr (Or.inr ⟨s, hs, h.symm⟩)
    · exact Or.inl (append_side_inj hs ht h)

namespace Node

variable {m n node : Node} {handle : String}

/-- A source handle is the id of its node with a side, or with none, in the middle. -/
theorem exists_side (h : handle ∈ node.sourceHandles) :
    ∃ side, (side = "" ∨ side ∈ sides) ∧ handle = node.id ++ side ++ "-source" := by
  -- All slots end alike, and what is before that is a side or nothing.
  have hslots : ∀ slot ∈ node.slots, ∃ side, (side = "" ∨ side ∈ sides) ∧
      "-" ++ slot = side ++ "-source" := by
    unfold slots
    cases node.body with
    | event data => simp
    | gate kind => cases kind <;> simp [GateKind.slots, sides]
  obtain ⟨slot, hslot, rfl⟩ := List.mem_map.1 h
  obtain ⟨side, hside, heq⟩ := hslots slot hslot
  refine ⟨side, hside, ?_⟩
  rw [String.append_assoc, heq, String.append_assoc]

/-- Nodes that have a source handle in common have the same id, or one id is the other with a side.
-/
theorem id_eq_or_extendsBySide (hm : handle ∈ m.sourceHandles) (hn : handle ∈ n.sourceHandles) :
    m.id = n.id ∨ ExtendsBySide m.id n.id ∨ ExtendsBySide n.id m.id := by
  obtain ⟨s, hs, rfl⟩ := exists_side hm
  obtain ⟨t, ht, heq⟩ := exists_side hn
  exact append_eq_append_cases hs ht ((String.append_left_inj _).1 heq)

theorem id_eq_of_targetHandle_eq (h : m.targetHandle = n.targetHandle) : m.id = n.id :=
  (String.append_left_inj _).1 h

end Node

namespace Graph

variable {g : Graph} {e f : Edge} {source target : Node} {sourceHandle targetHandle : String}

/-- The conditions on an edge between two handles, its nodes and its handles, under which it may be
added. Edges of other nodes do not matter, unless they form a path from its target to its source. -/
structure Permits (g : Graph) (e : Edge) (source target : Node)
    (sourceHandle targetHandle : String) : Prop
    extends Attaches g e source target sourceHandle targetHandle where
  id_fresh : ∀ f ∈ g.edges, f.id ≠ e.id
  not_parallel : ∀ f ∈ g.edges, ¬(f.source = e.source ∧ f.sourceHandle = e.sourceHandle ∧
    f.target = e.target ∧ f.targetHandle = e.targetHandle)
  target_ne : e.target ≠ e.source
  not_ancestor : ¬ TransGen g.Leads e.target e.source
  slot_free : source.isGate = true → ∀ f ∈ g.edges, f.source = e.source →
    f.sourceHandle ≠ e.sourceHandle
  entry_free : target.isGate = true → ∀ f ∈ g.edges, f.target ≠ e.target

/-- The edge joins handles of two nodes of the graph, is new, closes no cycle, and takes no slot of
a gate that is in use. -/
def IsLegal (g : Graph) (e : Edge) : Prop :=
  ∃ source target sourceHandle targetHandle, g.Permits e source target sourceHandle targetHandle

/-- An edge of another node has a source handle of the same name. It counts when it has the same
target, as the same connection, and when the source is a gate, as taking its slot. -/
def Clashes (g : Graph) (e : Edge) : Prop :=
  ∃ f ∈ g.edges, f.source ≠ e.source ∧ f.sourceHandle = e.sourceHandle ∧
    (f.target = e.target ∨ ∃ node, g.node? e.source = some node ∧ node.isGate = true)

namespace IsWellBuilt

theorem targetHandle_eq_iff (hg : g.IsWellBuilt) (hf : f ∈ g.edges) :
    f.targetHandle = some target.targetHandle ↔ f.target = target.id := by
  obtain ⟨node, hnode, hid⟩ := hasNode_iff.1 (isLinked_iff.1 (hg.linked f hf)).2.2
  rw [hg.targetHandle_eq f hf node hnode hid, Option.some.injEq, ← hid]
  constructor
  · exact Node.id_eq_of_targetHandle_eq
  · intro h
    rw [Node.targetHandle, h, Node.targetHandle]

/-- What the check admits is permitted, and no other node has the handle. -/
theorem permits_of_admits (hg : g.IsWellBuilt)
    (h : g.Admits e source target sourceHandle targetHandle) :
    g.Permits e source target sourceHandle targetHandle ∧ ¬ g.Clashes e := by
  have htid := (node?_eq_some h.target_eq).2
  have hfresh : ∀ f ∈ g.edges, f.id ≠ e.id ∧
      (f.sourceHandle = some sourceHandle → f.targetHandle ≠ some targetHandle) := by
    simpa [hasDuplicate] using h.fresh
  have hparallel : ∀ f ∈ g.edges, ¬(f.source = e.source ∧ f.sourceHandle = e.sourceHandle ∧
      f.target = e.target ∧ f.targetHandle = e.targetHandle) := by
    rintro f hf ⟨-, hs, -, ht⟩
    exact (hfresh f hf).2 (hs.trans h.sourceHandle_eq) (ht.trans h.targetHandle_eq)
  have hback : ¬ ReflTransGen g.Leads e.target e.source := by
    rw [← closesCycle_iff, h.acyclic]
    exact Bool.false_ne_true
  rw [reflTransGen_iff_eq_or_transGen, not_or] at hback
  have hslot : source.isGate = true → ∀ f ∈ g.edges, f.sourceHandle ≠ e.sourceHandle := by
    intro hgate f hf hs
    exact h.slot_free hgate f hf (hs.trans h.sourceHandle_eq)
  have hentry : target.isGate = true → ∀ f ∈ g.edges, f.target ≠ e.target := by
    intro hgate f hf ht
    exact h.entry_free hgate f hf (ht.trans htid.symm)
  have hclash : ¬ g.Clashes e := by
    rintro ⟨f, hf, -, hs, ht | ⟨node, hnode, hgate⟩⟩
    · -- With the same target the names of both handles agree, as for a duplicate.
      refine (hfresh f hf).2 (hs.trans h.sourceHandle_eq) ?_
      rw [h.targetHandle_own, hg.targetHandle_eq_iff hf, ht, htid]
    · rw [h.source_eq, Option.some.injEq] at hnode
      exact hslot (hnode ▸ hgate) f hf hs
  have hattaches : g.Attaches e source target sourceHandle targetHandle :=
    ⟨h.source_eq, h.target_eq, h.sourceHandle_eq, h.targetHandle_eq, h.sourceHandle_mem,
      h.targetHandle_own⟩
  exact ⟨⟨hattaches, fun f hf => (hfresh f hf).1, hparallel, fun hsame => hback.1 hsame.symm,
    hback.2, fun hgate f hf _ => hslot hgate f hf, hentry⟩, hclash⟩

/-- What is permitted is admitted, unless another node has the handle. -/
theorem admits_of_permits (hg : g.IsWellBuilt)
    (h : g.Permits e source target sourceHandle targetHandle) (hclash : ¬ g.Clashes e) :
    g.Admits e source target sourceHandle targetHandle := by
  have htid := (node?_eq_some h.target_eq).2
  -- Edges of the same source are harmless by what makes `e` legal, those of others by not clashing.
  have hduplicate : ∀ f ∈ g.edges, f.sourceHandle = some sourceHandle →
      f.targetHandle ≠ some targetHandle := by
    intro f hf hs ht
    have htarget : f.target = e.target := by
      rw [h.targetHandle_own, hg.targetHandle_eq_iff hf, htid] at ht
      exact ht
    have hs' : f.sourceHandle = e.sourceHandle := hs.trans h.sourceHandle_eq.symm
    by_cases hsource : f.source = e.source
    · exact h.not_parallel f hf ⟨hsource, hs', htarget, ht.trans h.targetHandle_eq.symm⟩
    · exact hclash ⟨f, hf, hsource, hs', Or.inl htarget⟩
  have hslot : source.isGate = true → ∀ f ∈ g.edges, f.sourceHandle ≠ some sourceHandle := by
    intro hgate f hf hs
    have hs' : f.sourceHandle = e.sourceHandle := hs.trans h.sourceHandle_eq.symm
    by_cases hsource : f.source = e.source
    · exact h.slot_free hgate f hf hsource hs'
    · exact hclash ⟨f, hf, hsource, hs', Or.inr ⟨source, h.source_eq, hgate⟩⟩
  have hacyclic : g.closesCycle e.source e.target = false := by
    rw [← Bool.not_eq_true, closesCycle_iff, reflTransGen_iff_eq_or_transGen, not_or]
    exact ⟨fun hsame => h.target_ne hsame.symm, h.not_ancestor⟩
  have hfresh : g.hasDuplicate e sourceHandle targetHandle = false := by
    simp only [hasDuplicate, List.any_eq_false, Bool.or_eq_true, Bool.and_eq_true, beq_iff_eq,
      not_or, not_and]
    exact fun f hf => ⟨h.id_fresh f hf, hduplicate f hf⟩
  have hentry : target.isGate = true → ∀ f ∈ g.edges, f.target ≠ target.id := by
    intro hgate f hf ht
    exact h.entry_free hgate f hf (ht.trans htid)
  exact ⟨h.source_eq, h.target_eq, h.sourceHandle_eq, h.targetHandle_eq, h.sourceHandle_mem,
    h.targetHandle_own, hfresh, hacyclic, hslot, hentry⟩

/-- In a graph that was built up the check passes exactly for legal edges that no edge of another
node stands in the way of. -/
theorem checkConnection_iff (hg : g.IsWellBuilt) :
    g.checkConnection e = .ok () ↔ g.IsLegal e ∧ ¬ g.Clashes e := by
  rw [checkConnection_eq_ok_iff]
  constructor
  · rintro ⟨source, target, sourceHandle, targetHandle, h⟩
    obtain ⟨hpermits, hclash⟩ := hg.permits_of_admits h
    exact ⟨⟨source, target, sourceHandle, targetHandle, hpermits⟩, hclash⟩
  · rintro ⟨⟨source, target, sourceHandle, targetHandle, h⟩, hclash⟩
    exact ⟨source, target, sourceHandle, targetHandle, hg.admits_of_permits h hclash⟩

/-- Legal edges clash only where a node has the id of another one with a side. -/
theorem exists_extendsBySide_of_clashes (hg : g.IsWellBuilt) (hlegal : g.IsLegal e)
    (hclash : g.Clashes e) : ∃ m ∈ g.nodes, ∃ n ∈ g.nodes, ExtendsBySide m.id n.id := by
  obtain ⟨source, _, sourceHandle, _, h⟩ := hlegal
  obtain ⟨f, hf, hne, hs, -⟩ := hclash
  obtain ⟨hsource, hsid⟩ := node?_eq_some h.source_eq
  obtain ⟨node, hnode, hid⟩ := hasNode_iff.1 (isLinked_iff.1 (hg.linked f hf)).2.1
  obtain ⟨handle, hhandle, hsome⟩ := hg.sourceHandle_mem f hf node hnode hid
  have hsame : handle = sourceHandle := by
    rw [hs, h.sourceHandle_eq, Option.some.injEq] at hsome
    exact hsome.symm
  -- The edge that clashes leaves another node, so the two ids differ.
  rcases Node.id_eq_or_extendsBySide (hsame ▸ hhandle) h.sourceHandle_mem with heq | hext | hext
  · exact absurd (hid.symm.trans (heq.trans hsid)) hne
  · exact ⟨node, hnode, source, hsource, hext⟩
  · exact ⟨source, hsource, node, hnode, hext⟩

end IsWellBuilt

/-- In a graph that commands built up, the connection check accepts exactly the legal edges whose
source handle no edge of another node makes seem taken. Where no node has the id of another one with
a side of a gate, it accepts exactly the legal edges. -/
theorem checkConnection_afterAll_iff (commands : List Command)
    (hcommands : ∀ c ∈ commands, c.replaces = false) (e : Edge) :
    ((Graph.empty.afterAll commands).checkConnection e = .ok () ↔
      (Graph.empty.afterAll commands).IsLegal e ∧ ¬ (Graph.empty.afterAll commands).Clashes e) ∧
    ((∀ m ∈ (Graph.empty.afterAll commands).nodes, ∀ n ∈ (Graph.empty.afterAll commands).nodes,
        ¬ ExtendsBySide m.id n.id) →
      ((Graph.empty.afterAll commands).checkConnection e = .ok () ↔
        (Graph.empty.afterAll commands).IsLegal e)) := by
  have hg := IsWellBuilt.afterAll hcommands
  refine ⟨hg.checkConnection_iff, fun hids => hg.checkConnection_iff.trans ?_⟩
  refine and_iff_left_of_imp fun hlegal hclash => ?_
  obtain ⟨m, hm, n, hn, hext⟩ := hg.exists_extendsBySide_of_clashes hlegal hclash
  exact hids m hm n hn hext

/-- The second slot of a gate, towards the node that the first one leads to. -/
theorem checkConnection_afterAll_iff_gate :
    let commands : List Command := [.addNode ⟨"g", .gate .and⟩, .addNode ⟨"b", .gate .not⟩,
      .addNode ⟨"c", .event EventNode.empty⟩,
      .addEdge (.between "g" "g-left-source" "c" "c-target")]
    let e : Edge := .between "g" "g-right-source" "c" "c-target"
    (∀ c ∈ commands, c.replaces = false) ∧ (Graph.empty.afterAll commands).edges.length = 1 ∧
      (Graph.empty.afterAll commands).IsLegal e ∧
      (Graph.empty.afterAll commands).checkConnection e = .ok () := by
  intro commands e
  have hcommands : ∀ c ∈ commands, c.replaces = false := by simp [commands, Command.replaces]
  have hcheck : (Graph.empty.afterAll commands).checkConnection e = .ok () := by decide
  obtain ⟨-, hiff⟩ := checkConnection_afterAll_iff commands hcommands e
  exact ⟨hcommands, by decide, (hiff (by decide)).1 hcheck, hcheck⟩

/-- A slot of the gate `g` that no edge uses counts as occupied by an edge of the node `g-left`, so
the check refuses an edge that is legal. -/
theorem slot_occupied_by_other_node :
    let commands : List Command := [.addNode ⟨"g", .gate .and⟩,
      .addNode ⟨"g-left", .event EventNode.empty⟩, .addNode ⟨"b", .event EventNode.empty⟩,
      .addNode ⟨"c", .event EventNode.empty⟩, .addEdge (.link "g-left" "b")]
    let e : Edge := .between "g" "g-left-source" "c" "c-target"
    (∀ c ∈ commands, c.replaces = false) ∧ (Graph.empty.afterAll commands).IsLegal e ∧
      (∀ f ∈ (Graph.empty.afterAll commands).edges, f.source ≠ "g") ∧
      (Graph.empty.afterAll commands).checkConnection e =
        .error (.slotOccupied "g" "g-left-source") := by
  intro commands e
  have hcommands : ∀ c ∈ commands, c.replaces = false := by simp [commands, Command.replaces]
  -- The handle is one of the gate and, by its text, the only one of the event node.
  have hattaches : (Graph.empty.afterAll commands).Attaches e ⟨"g", .gate .and⟩
      ⟨"c", .event EventNode.empty⟩ "g-left-source" "c-target" :=
    ⟨rfl, rfl, rfl, rfl, by decide, by decide⟩
  have hancestor : ¬ TransGen (Graph.empty.afterAll commands).Leads "c" "g" := by
    rw [← mem_ancestors_iff]
    decide
  have hpermits : (Graph.empty.afterAll commands).Permits e ⟨"g", .gate .and⟩
      ⟨"c", .event EventNode.empty⟩ "g-left-source" "c-target" :=
    ⟨hattaches, by decide, by decide, by decide, hancestor, by decide, by decide⟩
  exact ⟨hcommands, ⟨_, _, _, _, hpermits⟩, by decide, by decide⟩

end Graph
end ConstraintGraph
