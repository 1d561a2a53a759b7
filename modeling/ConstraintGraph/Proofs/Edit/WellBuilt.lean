import ConstraintGraph.Proofs.Edit.Loops

namespace ConstraintGraph

open Relation

/-- What edges see of a node. -/
structure Anchors where
  id : String
  isGate : Bool
  sourceHandles : List String

def Node.anchors (node : Node) : Anchors := ⟨node.id, node.isGate, node.sourceHandles⟩

def Edge.bare (e : Edge) : Edge := { e with data := none }

theorem Node.anchors_eq_iff {node node' : Node} :
    node.anchors = node'.anchors ↔ node.id = node'.id ∧ node.isGate = node'.isGate ∧
      node.sourceHandles = node'.sourceHandles := by
  simp [Node.anchors]

theorem Edge.bare_eq_iff {e e' : Edge} :
    e.bare = e'.bare ↔ e.id = e'.id ∧ e.source = e'.source ∧ e.target = e'.target ∧
      e.sourceHandle = e'.sourceHandle ∧ e.targetHandle = e'.targetHandle := by
  simp [Edge.bare]

/-- One more element is one too many only when it is counted like one that was there. -/
theorem countP_concat_le_one {α : Type} {p : α → Bool} {l : List α} {a : α} (hl : l.countP p ≤ 1)
    (ha : p a = true → ∀ b ∈ l, p b = false) : (l ++ [a]).countP p ≤ 1 := by
  rw [List.countP_append, List.countP_singleton]
  by_cases hpa : p a = true
  · have hzero : l.countP p = 0 := List.countP_eq_zero.2 fun b hb => by simp [ha hpa b hb]
    rw [if_pos hpa]
    omega
  · rw [if_neg hpa]
    omega

section SameAnchors

variable {nodes nodes' : List Node} {edges edges' : List Edge}

theorem exists_node_of_anchors (hn : nodes'.map Node.anchors = nodes.map Node.anchors)
    {node' : Node} (h : node' ∈ nodes') :
    ∃ node ∈ nodes, node.id = node'.id ∧ node.isGate = node'.isGate ∧
      node.sourceHandles = node'.sourceHandles := by
  obtain ⟨node, hmem, h⟩ := List.mem_map.1 (hn ▸ List.mem_map_of_mem h)
  exact ⟨node, hmem, Node.anchors_eq_iff.1 h⟩

theorem exists_edge_of_bare (he : edges'.map Edge.bare = edges.map Edge.bare) {e' : Edge}
    (h : e' ∈ edges') : ∃ e ∈ edges, e.source = e'.source ∧ e.target = e'.target ∧
      e.sourceHandle = e'.sourceHandle ∧ e.targetHandle = e'.targetHandle := by
  obtain ⟨e, hmem, h⟩ := List.mem_map.1 (he ▸ List.mem_map_of_mem h)
  exact ⟨e, hmem, (Edge.bare_eq_iff.1 h).2⟩

/-- What does not depend on the data of edges is the same for edges that differ in data alone. -/
theorem map_eq_of_bare (he : edges'.map Edge.bare = edges.map Edge.bare) {β : Type} (f : Edge → β)
    (hf : ∀ e, f e.bare = f e) : edges'.map f = edges.map f := by
  have hmap := congrArg (List.map f) he
  simpa only [List.map_map, Function.comp_def, hf] using hmap

end SameAnchors

namespace Graph

/-- What commands keep of a graph that they have built up. -/
structure IsWellBuilt (g : Graph) : Prop where
  nodeIds_nodup : (g.nodes.map (·.id)).Nodup
  edgeIds_nodup : (g.edges.map (·.id)).Nodup
  linked : ∀ e ∈ g.edges, g.isLinked e = true
  sourceHandle_mem : ∀ e ∈ g.edges, ∀ node ∈ g.nodes, node.id = e.source →
    ∃ handle ∈ node.sourceHandles, e.sourceHandle = some handle
  targetHandle_eq : ∀ e ∈ g.edges, ∀ node ∈ g.nodes, node.id = e.target →
    e.targetHandle = some node.targetHandle
  handles_nodup : (g.edges.map fun e => (e.sourceHandle, e.targetHandle)).Nodup
  acyclic : ∀ v, ¬ TransGen g.Leads v v
  entered_once : ∀ node ∈ g.nodes, node.isGate = true →
    g.edges.countP (fun e => e.target == node.id) ≤ 1
  -- At most one edge leaves a gate at each of its handles.
  left_once : ∀ node ∈ g.nodes, node.isGate = true → ∀ handle,
    g.edges.countP (fun e => e.source == node.id && e.sourceHandle == some handle) ≤ 1

variable {g g' : Graph}

theorem hasNode_iff_mem {id : String} : g.hasNode id = true ↔ id ∈ g.nodes.map (·.id) := by
  rw [hasNode_iff, List.mem_map]

namespace IsWellBuilt

theorem data_isSome (hg : g.IsWellBuilt) {e : Edge} (he : e ∈ g.edges) : e.data.isSome = true := by
  have hcomplete := (isLinked_iff.1 (hg.linked e he)).1
  simp only [Edge.isComplete, Bool.and_eq_true] at hcomplete
  exact hcomplete.2

theorem empty : Graph.empty.IsWellBuilt := by
  refine ⟨List.nodup_nil, List.nodup_nil, ?_, ?_, ?_, List.nodup_nil, ?_, ?_, ?_⟩
  · simp [Graph.empty]
  · simp [Graph.empty]
  · simp [Graph.empty]
  · intro v h
    obtain ⟨u, ⟨e, he, -⟩, -⟩ := TransGen.head'_iff.1 h
    simp [Graph.empty] at he
  · simp [Graph.empty]
  · simp [Graph.empty]

/-- Deletions keep a graph well built when they leave both ends to every edge. -/
theorem of_sublist (hg : g.IsWellBuilt) (hn : g'.nodes.Sublist g.nodes)
    (he : g'.edges.Sublist g.edges) (hlinked : ∀ e ∈ g'.edges, g'.isLinked e = true) :
    g'.IsWellBuilt where
  nodeIds_nodup := hg.nodeIds_nodup.sublist (hn.map _)
  edgeIds_nodup := hg.edgeIds_nodup.sublist (he.map _)
  linked := hlinked
  sourceHandle_mem e hmem node hnode :=
    hg.sourceHandle_mem e (he.subset hmem) node (hn.subset hnode)
  targetHandle_eq e hmem node hnode :=
    hg.targetHandle_eq e (he.subset hmem) node (hn.subset hnode)
  handles_nodup := hg.handles_nodup.sublist (he.map _)
  acyclic := IsLoopFree.mono hg.acyclic fun e hmem => ⟨e, he.subset hmem, rfl, rfl⟩
  entered_once node hnode hgate :=
    (he.countP_le).trans (hg.entered_once node (hn.subset hnode) hgate)
  left_once node hnode hgate handle :=
    (he.countP_le).trans (hg.left_once node (hn.subset hnode) hgate handle)

/-- A change that edges do not see of nodes, and of edges nothing but the data, keeps a graph well
built as long as no edge loses its data. -/
theorem of_anchors (hg : g.IsWellBuilt) (hn : g'.nodes.map Node.anchors = g.nodes.map Node.anchors)
    (he : g'.edges.map Edge.bare = g.edges.map Edge.bare)
    (hdata : ∀ e ∈ g'.edges, e.data.isSome = true) : g'.IsWellBuilt := by
  have hids : g'.nodes.map (·.id) = g.nodes.map (·.id) := by
    simpa [Function.comp_def, Node.anchors] using congrArg (List.map Anchors.id) hn
  -- What edges are counted by does not depend on their data.
  have hcount : ∀ p : Edge → Bool, (∀ e, p e.bare = p e) →
      g'.edges.countP p = g.edges.countP p := by
    intro p hp
    have hmap := congrArg (List.countP id) (map_eq_of_bare he p hp)
    rwa [List.countP_map, List.countP_map] at hmap
  refine ⟨hids ▸ hg.nodeIds_nodup, ?_, ?_, ?_, ?_, ?_, ?_, ?_, ?_⟩
  · rw [map_eq_of_bare he (·.id) fun _ => rfl]
    exact hg.edgeIds_nodup
  · intro e' he'
    obtain ⟨e, hmem, hs, ht, hsh, hth⟩ := exists_edge_of_bare he he'
    obtain ⟨hcomplete, hends⟩ := isLinked_iff.1 (hg.linked e hmem)
    rw [isLinked_iff, hasNode_iff_mem, hasNode_iff_mem, hids, ← hs, ← ht, ← hasNode_iff_mem,
      ← hasNode_iff_mem]
    refine ⟨?_, hends⟩
    simp only [Edge.isComplete, Bool.and_eq_true] at hcomplete ⊢
    exact ⟨⟨hsh ▸ hcomplete.1.1, hth ▸ hcomplete.1.2⟩, hdata e' he'⟩
  · intro e' he' node' hnode' hid
    obtain ⟨e, hmem, hs, -, hsh, -⟩ := exists_edge_of_bare he he'
    obtain ⟨node, hmem', hid', -, hhandles⟩ := exists_node_of_anchors hn hnode'
    have h := hg.sourceHandle_mem e hmem node hmem' (by rw [hid', hid, hs])
    rwa [hhandles, hsh] at h
  · intro e' he' node' hnode' hid
    obtain ⟨e, hmem, -, ht, -, hth⟩ := exists_edge_of_bare he he'
    obtain ⟨node, hmem', hid', -, -⟩ := exists_node_of_anchors hn hnode'
    have h := hg.targetHandle_eq e hmem node hmem' (by rw [hid', hid, ht])
    rwa [hth, Node.targetHandle, hid'] at h
  · rw [map_eq_of_bare he (fun e => (e.sourceHandle, e.targetHandle)) fun _ => rfl]
    exact hg.handles_nodup
  · refine IsLoopFree.mono hg.acyclic fun e' he' => ?_
    obtain ⟨e, hmem, hs, ht, -⟩ := exists_edge_of_bare he he'
    exact ⟨e, hmem, hs, ht⟩
  · intro node' hnode' hgate
    obtain ⟨node, hmem, hid, hgate', -⟩ := exists_node_of_anchors hn hnode'
    rw [hcount _ fun _ => rfl, ← hid]
    exact hg.entered_once node hmem (hgate'.trans hgate)
  · intro node' hnode' hgate handle
    obtain ⟨node, hmem, hid, hgate', -⟩ := exists_node_of_anchors hn hnode'
    rw [hcount _ fun _ => rfl, ← hid]
    exact hg.left_once node hmem (hgate'.trans hgate) handle

/-- No edge touches a node whose id is new, since every edge is linked. -/
theorem addNode (hg : g.IsWellBuilt) {node : Node} (hnew : g.hasNode node.id = false) :
    IsWellBuilt { g with nodes := g.nodes ++ [node] } := by
  have hfresh : node.id ∉ g.nodes.map (·.id) := by
    rw [← hasNode_iff_mem, hnew]
    exact Bool.false_ne_true
  -- No edge touches the new node, since the ends of all edges were nodes before.
  have hsource : ∀ e ∈ g.edges, node.id ≠ e.source := fun e he h =>
    hfresh (h ▸ hasNode_iff_mem.1 (isLinked_iff.1 (hg.linked e he)).2.1)
  have htarget : ∀ e ∈ g.edges, node.id ≠ e.target := fun e he h =>
    hfresh (h ▸ hasNode_iff_mem.1 (isLinked_iff.1 (hg.linked e he)).2.2)
  have hcases : ∀ {node'}, node' ∈ g.nodes ++ [node] → node' ∈ g.nodes ∨ node' = node := by
    simp
  refine ⟨?_, hg.edgeIds_nodup, ?_, ?_, ?_, hg.handles_nodup, ?_, ?_, ?_⟩
  · rw [List.map_append, List.map_singleton, ← List.concat_eq_append]
    exact hg.nodeIds_nodup.concat hfresh
  · intro e he
    have h := isLinked_iff.1 (hg.linked e he)
    rw [isLinked_iff, hasNode_iff_mem, hasNode_iff_mem, List.map_append]
    exact ⟨h.1, List.mem_append_left _ (hasNode_iff_mem.1 h.2.1),
      List.mem_append_left _ (hasNode_iff_mem.1 h.2.2)⟩
  · intro e he node' hnode' hid
    rcases hcases hnode' with h | rfl
    · exact hg.sourceHandle_mem e he node' h hid
    · exact absurd hid (hsource e he)
  · intro e he node' hnode' hid
    rcases hcases hnode' with h | rfl
    · exact hg.targetHandle_eq e he node' h hid
    · exact absurd hid (htarget e he)
  · exact hg.acyclic
  · intro node' hnode' hgate
    rcases hcases hnode' with h | rfl
    · exact hg.entered_once node' h hgate
    · refine (List.countP_eq_zero.2 fun e he => ?_).trans_le (Nat.zero_le 1)
      simpa using (htarget e he).symm
  · intro node' hnode' hgate handle
    rcases hcases hnode' with h | rfl
    · exact hg.left_once node' h hgate handle
    · refine (List.countP_eq_zero.2 fun e he => ?_).trans_le (Nat.zero_le 1)
      simp [(hsource e he).symm]

theorem eq_of_id_eq (hg : g.IsWellBuilt) {node node' : Node} (h : node ∈ g.nodes)
    (h' : node' ∈ g.nodes) (hid : node.id = node'.id) : node = node' :=
  List.inj_on_of_nodup_map hg.nodeIds_nodup h h' hid

/-- The connection check is what keeps a graph well built. -/
theorem addEdge (hg : g.IsWellBuilt) {e : Edge} (hcheck : g.checkConnection e = .ok ()) :
    IsWellBuilt { g with edges := g.edges ++ [{ e with data := some e.constraint }] } := by
  obtain ⟨source, target, sourceHandle, targetHandle, h⟩ := checkConnection_eq_ok_iff.1 hcheck
  obtain ⟨hsource, hsid⟩ := node?_eq_some h.source_eq
  obtain ⟨htarget, htid⟩ := node?_eq_some h.target_eq
  have hfresh : ∀ f ∈ g.edges, f.id ≠ e.id ∧
      (f.sourceHandle = some sourceHandle → f.targetHandle ≠ some targetHandle) := by
    simpa [hasDuplicate] using h.fresh
  have hcases : ∀ {f}, f ∈ g.edges ++ [{ e with data := some e.constraint }] →
      f ∈ g.edges ∨ f = { e with data := some e.constraint } := by
    simp
  -- The one condition that is about the graph as a whole.
  have hloops : (g.withEdge e).IsLoopFree := (IsLoopFree.withEdge_iff hg.acyclic).2 h.acyclic
  refine ⟨hg.nodeIds_nodup, ?_, ?_, ?_, ?_, ?_, hloops, ?_, ?_⟩
  · rw [List.map_append, List.map_singleton, ← List.concat_eq_append]
    refine hg.edgeIds_nodup.concat fun hmem => ?_
    obtain ⟨f, hf, hid⟩ := List.mem_map.1 hmem
    exact (hfresh f hf).1 hid
  · intro f hf
    rcases hcases hf with hf | rfl
    · exact hg.linked f hf
    · have hs : g.hasNode e.source = true := hasNode_iff.2 ⟨source, hsource, hsid⟩
      have ht : g.hasNode e.target = true := hasNode_iff.2 ⟨target, htarget, htid⟩
      exact isLinked_iff.2
        ⟨by simp [Edge.isComplete, h.sourceHandle_eq, h.targetHandle_eq], hs, ht⟩
  · intro f hf node hnode hid
    rcases hcases hf with hf | rfl
    · exact hg.sourceHandle_mem f hf node hnode hid
    · obtain rfl := hg.eq_of_id_eq hnode hsource (hid.trans hsid.symm)
      exact ⟨sourceHandle, h.sourceHandle_mem, h.sourceHandle_eq⟩
  · intro f hf node hnode hid
    rcases hcases hf with hf | rfl
    · exact hg.targetHandle_eq f hf node hnode hid
    · obtain rfl := hg.eq_of_id_eq hnode htarget (hid.trans htid.symm)
      exact h.targetHandle_own ▸ h.targetHandle_eq
  · rw [List.map_append, List.map_singleton, ← List.concat_eq_append]
    refine hg.handles_nodup.concat fun hmem => ?_
    obtain ⟨f, hf, hhandles⟩ := List.mem_map.1 hmem
    rw [h.sourceHandle_eq, h.targetHandle_eq, Prod.mk.injEq] at hhandles
    exact (hfresh f hf).2 hhandles.1 hhandles.2
  · intro node hnode hgate
    refine countP_concat_le_one (hg.entered_once node hnode hgate) fun hid f hf => ?_
    -- The check looked at the first node of the id. Ids are unique, so it is this one.
    obtain rfl := hg.eq_of_id_eq hnode htarget ((beq_iff_eq.1 hid).symm.trans htid.symm)
    simpa using h.entry_free hgate f hf
  · intro node hnode hgate handle
    refine countP_concat_le_one (hg.left_once node hnode hgate handle) fun hleaves f hf => ?_
    rw [Bool.and_eq_true, beq_iff_eq, beq_iff_eq, h.sourceHandle_eq, Option.some.injEq] at hleaves
    obtain ⟨hid, rfl⟩ := hleaves
    obtain rfl := hg.eq_of_id_eq hnode hsource (hid.symm.trans hsid.symm)
    simp [h.slot_free hgate f hf]

/-- The edges of a node go with it, so the others stay linked. -/
theorem deleteNode (hg : g.IsWellBuilt) (id : String) :
    IsWellBuilt ⟨g.nodes.filter (·.id != id),
      g.edges.filter fun e => e.source != id && e.target != id⟩ := by
  refine hg.of_sublist List.filter_sublist List.filter_sublist ?_
  intro e he
  obtain ⟨hmem, hends⟩ := List.mem_filter.1 he
  simp only [Bool.and_eq_true, bne_iff_ne] at hends
  obtain ⟨hcomplete, hs, ht⟩ := isLinked_iff.1 (hg.linked e hmem)
  obtain ⟨source, hsource, hsid⟩ := hasNode_iff.1 hs
  obtain ⟨target, htarget, htid⟩ := hasNode_iff.1 ht
  -- The edges of the deleted node went with it, so the ends of those left were not deleted.
  refine isLinked_iff.2 ⟨hcomplete, hasNode_iff.2 ⟨source, ?_, hsid⟩,
    hasNode_iff.2 ⟨target, ?_, htid⟩⟩
  · exact List.mem_filter.2 ⟨hsource, by simpa [hsid] using hends.1⟩
  · exact List.mem_filter.2 ⟨htarget, by simpa [htid] using hends.2⟩

theorem deleteEdge (hg : g.IsWellBuilt) (id : String) :
    IsWellBuilt { g with edges := g.edges.filter (·.id != id) } :=
  hg.of_sublist (List.Sublist.refl _) List.filter_sublist fun e he =>
    hg.linked e (List.mem_of_mem_filter he)

theorem updateNode (hg : g.IsWellBuilt) {id : String} {u : NodeUpdate} {nodes : List Node}
    (h : updateFirst (·.id == id) (.unknownNode id) (·.update u) g.nodes = .ok nodes) :
    IsWellBuilt { g with nodes := nodes } := by
  refine hg.of_anchors (map_updateFirst ?_ h) rfl ?_
  · intro node node' hupdate
    obtain ⟨hid, hgate, hslots⟩ := Node.update_eq_ok hupdate
    refine Node.anchors_eq_iff.2 ⟨hid, hgate, ?_⟩
    rw [Node.sourceHandles, Node.sourceHandles, hid, hslots]
  · intro e he
    exact hg.data_isSome he

theorem updateEdge (hg : g.IsWellBuilt) {id : String} {u : EdgeUpdate} {edges : List Edge}
    (h : updateFirst (·.id == id) (.unknownEdge id) (·.update u) g.edges = .ok edges) :
    IsWellBuilt { g with edges := edges } := by
  refine hg.of_anchors rfl (map_updateFirst ?_ h) ?_
  · intro e e' hupdate
    obtain ⟨data, rfl⟩ := Edge.update_eq_ok hupdate
    rfl
  · intro e' he'
    rcases mem_updateFirst h he' with he | ⟨e, -, hupdate⟩
    · exact hg.data_isSome he
    · obtain ⟨data, rfl⟩ := Edge.update_eq_ok hupdate
      rfl

/-- An accepted command that does not replace the graph keeps it well built. -/
theorem apply (hg : g.IsWellBuilt) {c : Command} (hc : c.replaces = false)
    (h : g.apply c = .ok g') : g'.IsWellBuilt := by
  cases c with
  | addNode node =>
    obtain ⟨hnew, rfl⟩ := apply_addNode h
    exact hg.addNode hnew
  | addEdge e =>
    obtain ⟨hcheck, rfl⟩ := apply_addEdge h
    exact hg.addEdge hcheck
  | deleteNode id =>
    obtain rfl := apply_deleteNode h
    exact hg.deleteNode id
  | deleteEdge id =>
    obtain rfl := apply_deleteEdge h
    exact hg.deleteEdge id
  | updateNode id u =>
    obtain ⟨nodes, hnodes, rfl⟩ := apply_updateNode h
    exact hg.updateNode hnodes
  | updateEdge id u =>
    obtain ⟨edges, hedges, rfl⟩ := apply_updateEdge h
    exact hg.updateEdge hedges
  | replaceGraph graph => simp [Command.replaces] at hc

theorem afterAll {commands : List Command} (hcommands : ∀ c ∈ commands, c.replaces = false) :
    (Graph.empty.afterAll commands).IsWellBuilt :=
  afterAll_induction (fun _ _ _ hc h hok => h.apply hc hok) IsWellBuilt.empty hcommands

/-- A graph that is well built compiles without errors. -/
theorem hasErrors_compile (hg : g.IsWellBuilt) : g.compile.hasErrors = false :=
  hasErrors_compile_eq_false_iff.2 ⟨hg.nodeIds_nodup, IsLoopFree.isAcyclic hg.acyclic⟩

/-- In a graph that is well built no edge is skipped. -/
theorem finding_ne_skippedEdge (hg : g.IsWellBuilt) {d : Diagnostic}
    (hd : d ∈ g.compile.diagnostics) (edge : String) (reason : SkipReason) :
    d.finding ≠ .skippedEdge edge reason := by
  intro hskip
  obtain ⟨f, hf, rfl⟩ := List.mem_map.1 hd
  obtain rfl : f = .skippedEdge edge reason := hskip
  rcases mem_findings hf with ⟨_, _, h⟩ | h | h | ⟨_, _, h⟩
  · cases h
  · -- Skipped edges are those that are not linked, and there are none.
    obtain ⟨e, he, hlinked, -⟩ := mem_skippedEdges.1 h
    rw [hg.linked e he] at hlinked
    cases hlinked
  · rcases (mem_orderFindings.1 h).2 with h | h <;> cases h
  · cases h

end IsWellBuilt

/-- Every graph that commands build up from the empty one is well built, and compiles to a plan
with no edge left out. -/
theorem isWellBuilt_afterAll (commands : List Command)
    (hcommands : ∀ c ∈ commands, c.replaces = false) :
    (Graph.empty.afterAll commands).IsWellBuilt ∧
      (Graph.empty.afterAll commands).compile.hasErrors = false ∧
      (∀ d ∈ (Graph.empty.afterAll commands).compile.diagnostics, ∀ edge reason,
        d.finding ≠ .skippedEdge edge reason) ∧
      ∃ p, (Graph.empty.afterAll commands).plan = .ok p := by
  have hg : (Graph.empty.afterAll commands).IsWellBuilt :=
    afterAll_induction (fun _ _ _ hc h hok => h.apply hc hok) IsWellBuilt.empty hcommands
  exact ⟨hg, hg.hasErrors_compile, fun d hd => hg.finding_ne_skippedEdge hd,
    exists_plan_iff.2 hg.hasErrors_compile⟩

/-- Two gates of which one is deleted and added again, with an id taken twice, a slot that changes
its gate and an edge back that is refused. -/
theorem isWellBuilt_afterAll_gate :
    let commands : List Command := [.addNode ⟨"a", .gate .and⟩, .addNode ⟨"b", .gate .not⟩,
      .addEdge (.between "a" "a-left-source" "b" "b-target"), .addNode ⟨"b", .gate .or⟩,
      .deleteNode "b", .updateNode "a" (.gateKind .or), .addNode ⟨"b", .gate .not⟩,
      .addEdge (.between "a" "a-right-source" "b" "b-target"), .addEdge (.link "b" "a")]
    (∀ c ∈ commands, c.replaces = false) ∧
      (Graph.empty.afterAll commands).edges.map (·.id) = ["a-right-source|||b-target"] ∧
      (Graph.empty.afterAll commands).IsWellBuilt ∧
      ∃ p, (Graph.empty.afterAll commands).plan = .ok p := by
  intro commands
  have hcommands : ∀ c ∈ commands, c.replaces = false := by simp [commands, Command.replaces]
  obtain ⟨hbuilt, -, -, hplan⟩ := isWellBuilt_afterAll commands hcommands
  exact ⟨hcommands, by decide, hbuilt, hplan⟩

end Graph
end ConstraintGraph
