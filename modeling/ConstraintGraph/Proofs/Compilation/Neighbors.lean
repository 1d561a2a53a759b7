import ConstraintGraph.Proofs.Compilation.Entries
import Mathlib.Data.List.Forall2

namespace ConstraintGraph

def Finding.isSkip : Finding → Bool
  | .skippedEdge _ _ => true
  | _ => false

theorem map_eq_of_forall₂ {α β γ : Type} {r : α → β → Prop} {f : α → γ} {h : β → γ}
    (hsame : ∀ a b, r a b → f a = h b) {as : List α} {bs : List β} (hr : List.Forall₂ r as bs) :
    as.map f = bs.map h := by
  rw [← List.forall₂_eq_eq_eq, List.forall₂_map_left_iff, List.forall₂_map_right_iff]
  exact hr.imp hsame

theorem map_filter_eq_of_forall₂ {α β γ : Type} {r : α → β → Prop} {p : α → Bool} {q : β → Bool}
    {f : α → γ} {h : β → γ} (hsame : ∀ a b, r a b → p a = q b ∧ f a = h b) {as : List α}
    {bs : List β} (hr : List.Forall₂ r as bs) : (as.filter p).map f = (bs.filter q).map h := by
  induction hr with
  | nil => rfl
  | @cons a b as bs hab _ ih =>
    obtain ⟨hpq, hfh⟩ := hsame a b hab
    rw [List.filter_cons, List.filter_cons, hpq]
    split
    · rw [List.map_cons, List.map_cons, hfh, ih]
    · exact ih

namespace Graph

/-- Why an edge of a graph carries no dependency. The reasons exclude each other: missing data count
only where both handles are there, and the ends only where the edge is complete. -/
inductive Lacks (g : Graph) (e : Edge) : SkipReason → Prop
  | handle (h : e.sourceHandle = none ∨ e.targetHandle = none) : Lacks g e .missingHandle
  | data (hs : e.sourceHandle ≠ none) (ht : e.targetHandle ≠ none) (h : e.data = none) :
    Lacks g e .missingData
  | endpoint (h : e.isComplete = true)
    (hends : g.hasNode e.source = false ∨ g.hasNode e.target = false) : Lacks g e .unknownEndpoint

/-- The neighbour is the node `id` as an edge with its data shows it at its other end. -/
structure Shows (g : Graph) (e : Edge) (id : String) (n : Neighbor) : Prop where
  connection_eq : ∃ data, e.data = some data ∧ n.connection = .ofConstraint data
  id_eq : n.id = id
  eventType_eq : ∃ node, g.node? id = some node ∧ n.eventType = node.label

variable {g : Graph} {p : Plan} {t : PlanEntry} {e : Edge} {id : String} {reason : SkipReason}

theorem Lacks.isLinked (h : g.Lacks e reason) : g.isLinked e = false := by
  rw [← Bool.not_eq_true, isLinked_iff]
  rintro ⟨hcomplete, hsource, htarget⟩
  simp only [Edge.isComplete, Bool.and_eq_true] at hcomplete
  cases h with
  | handle h => rcases h with h | h <;> simp [h] at hcomplete
  | data _ _ h => simp [h] at hcomplete
  | endpoint _ hends => simp [hsource, htarget] at hends

/-- The reason that is reported for a skipped edge is what the edge lacks. -/
theorem lacks_skipReason (h : g.isLinked e = false) : g.Lacks e (skipReason e) := by
  unfold skipReason
  split
  · rename_i hhandle
    exact .handle (by simpa using hhandle)
  · rename_i hhandle
    have hs : e.sourceHandle ≠ none := fun hs => hhandle (by simp [hs])
    have ht : e.targetHandle ≠ none := fun ht => hhandle (by simp [ht])
    split
    · rename_i hdata
      exact .data hs ht (by simpa using hdata)
    · rename_i hdata
      -- Nothing is missing, so it is an end that keeps the edge from being linked.
      have hcomplete : e.isComplete = true := by
        simp only [Edge.isComplete, Bool.and_eq_true, Option.isSome_iff_ne_none]
        exact ⟨⟨hs, ht⟩, fun h => hdata (by simp [h])⟩
      have hends : ¬(g.hasNode e.source = true ∧ g.hasNode e.target = true) := by
        intro hends
        rw [isLinked_iff.2 ⟨hcomplete, hends⟩] at h
        cases h
      exact .endpoint hcomplete (by simpa [← Bool.not_eq_true, imp_iff_not_or] using hends)

theorem isSkip_of_mem_skippedEdges {f : Finding} (hf : f ∈ g.skippedEdges) : f.isSkip = true := by
  obtain ⟨e, -, -, rfl⟩ := mem_skippedEdges.1 hf
  rfl

theorem isSkip_of_mem_repeatedIds {f : Finding} (hf : f ∈ g.repeatedIds.map .duplicateNode) :
    f.isSkip = false := by
  obtain ⟨id, -, rfl⟩ := List.mem_map.1 hf
  rfl

theorem isSkip_of_mem_orderFindings {f : Finding} (hf : f ∈ orderFindings g.dependencies) :
    f.isSkip = false := by
  obtain ⟨-, rfl | rfl⟩ := mem_orderFindings.1 hf <;> rfl

theorem isSkip_of_mem_outOfScope {f : Finding} {l : Lineage} {nodes : List Node}
    (hf : f ∈ nodes.flatMap (outOfScope l)) : f.isSkip = false := by
  obtain ⟨node, -, hf⟩ := List.mem_flatMap.1 hf
  obtain ⟨v, rfl⟩ := mem_outOfScope hf
  rfl

/-- Skipped edges are found at one place only, and there in their order. -/
theorem filter_isSkip_findings (g : Graph) : g.findings.filter Finding.isSkip = g.skippedEdges := by
  have hskipped : g.skippedEdges.filter Finding.isSkip = g.skippedEdges :=
    List.filter_eq_self.2 fun f hf => isSkip_of_mem_skippedEdges hf
  have hrepeated : (g.repeatedIds.map Finding.duplicateNode).filter Finding.isSkip = [] :=
    List.filter_eq_nil_iff.2 fun f hf => Bool.eq_false_iff.1 (isSkip_of_mem_repeatedIds hf)
  have horder : (orderFindings g.dependencies).filter Finding.isSkip = [] :=
    List.filter_eq_nil_iff.2 fun f hf => Bool.eq_false_iff.1 (isSkip_of_mem_orderFindings hf)
  have hscope : (g.distinctNodes.flatMap (outOfScope g.lineage)).filter Finding.isSkip = [] :=
    List.filter_eq_nil_iff.2 fun f hf => Bool.eq_false_iff.1 (isSkip_of_mem_outOfScope hf)
  unfold findings
  rw [List.filter_append, List.filter_append, List.filter_append, hrepeated, hskipped, horder,
    hscope, List.nil_append, List.append_nil, List.append_nil]

/-- The findings other than skipped edges depend on the edges through the dependencies and the
lineage alone. -/
theorem filter_not_isSkip_findings (g : Graph) :
    g.findings.filter (!·.isSkip) = g.repeatedIds.map .duplicateNode ++
      orderFindings g.dependencies ++ g.distinctNodes.flatMap (outOfScope g.lineage) := by
  have hkeep : ∀ l : List Finding, (∀ f ∈ l, f.isSkip = false) → l.filter (!·.isSkip) = l :=
    fun l hl => List.filter_eq_self.2 fun f hf => by rw [hl f hf, Bool.not_false]
  have hskipped : g.skippedEdges.filter (!·.isSkip) = [] :=
    List.filter_eq_nil_iff.2 fun f hf => by simp [isSkip_of_mem_skippedEdges hf]
  unfold findings
  rw [List.filter_append, List.filter_append, List.filter_append, hskipped,
    hkeep _ fun f hf => isSkip_of_mem_repeatedIds hf,
    hkeep _ fun f hf => isSkip_of_mem_orderFindings hf,
    hkeep _ fun f hf => isSkip_of_mem_outOfScope hf, List.append_nil]

/-- Edges that are not linked and warnings about them go side by side, in one order. -/
theorem forall₂_skipped (g : Graph) :
    List.Forall₂ (fun d e => ∃ reason, g.Lacks e reason ∧ d = .of (.skippedEdge e.id reason))
      (g.compile.diagnostics.filter (·.finding.isSkip))
      (g.edges.filter fun e => !g.isLinked e) := by
  have hfilter : g.compile.diagnostics.filter (·.finding.isSkip) =
      (g.edges.filter fun e => !g.isLinked e).map fun e =>
        Diagnostic.of (.skippedEdge e.id (skipReason e)) := by
    show (g.findings.map Diagnostic.of).filter (·.finding.isSkip) = _
    -- A diagnostic keeps its finding, so the findings can be filtered first.
    rw [List.filter_map, Function.comp_def]
    show (g.findings.filter Finding.isSkip).map Diagnostic.of = _
    rw [filter_isSkip_findings, skippedEdges, List.map_map, Function.comp_def]
  rw [hfilter, List.forall₂_map_left_iff, List.forall₂_same]
  intro e he
  have hunlinked : g.isLinked e = false := by simpa using (List.mem_filter.1 he).2
  exact ⟨skipReason e, lacks_skipReason hunlinked, rfl⟩

theorem forall₂_neighbors {edges : List Edge} {far : Edge → String}
    (h : ∀ e ∈ edges, g.isLinked e = true ∧ g.hasNode (far e) = true) :
    List.Forall₂ (fun n e => g.Shows e (far e) n)
      (edges.filterMap fun e => g.neighbor? e (far e)) edges := by
  induction edges with
  | nil => exact .nil
  | cons e edges ih =>
    obtain ⟨hlinked, hfar⟩ := h e List.mem_cons_self
    obtain ⟨node, hnode⟩ := Option.isSome_iff_exists.1 hfar
    have hcomplete := (isLinked_iff.1 hlinked).1
    simp only [Edge.isComplete, Bool.and_eq_true] at hcomplete
    obtain ⟨data, hdata⟩ := Option.isSome_iff_exists.1 hcomplete.2
    -- A linked edge has data and known ends, so `filterMap` leaves none out.
    have hneighbor : g.neighbor? e (far e) = some ⟨.ofConstraint data, far e, node.label⟩ := by
      simp [neighbor?, hdata, hnode]
    simp only [List.filterMap_cons, hneighbor]
    exact .cons ⟨⟨data, hdata, rfl⟩, rfl, node, hnode, rfl⟩
      (ih fun e he => h e (List.mem_cons_of_mem _ he))

theorem filter_linkedEdges (g : Graph) (q : Edge → Bool) :
    g.linkedEdges.filter q = g.edges.filter fun e => q e && g.isLinked e :=
  List.filter_filter

theorem forall₂_parents (hp : g.plan = .ok p) (ht : t ∈ p.entries) :
    List.Forall₂ (fun n e => g.Shows e e.source n) t.parents
      (g.linkedEdges.filter (·.target == t.id)) := by
  rw [parents_of_mem_entries hp ht, parentsOf, ← filter_linkedEdges]
  refine forall₂_neighbors fun e he => ?_
  have hmem := List.mem_of_mem_filter he
  exact ⟨(List.mem_filter.1 hmem).2, (mem_linkedEdges.1 hmem).2.2.1⟩

theorem forall₂_children (hp : g.plan = .ok p) (ht : t ∈ p.entries) :
    List.Forall₂ (fun n e => g.Shows e e.target n) t.children
      (g.linkedEdges.filter (·.source == t.id)) := by
  rw [children_of_mem_entries hp ht, childrenOf, ← filter_linkedEdges]
  refine forall₂_neighbors fun e he => ?_
  have hmem := List.mem_of_mem_filter he
  exact ⟨(List.mem_filter.1 hmem).2, (mem_linkedEdges.1 hmem).2.2.2⟩

theorem map_connection_filter {far : Edge → String} {neighbors : List Neighbor} {edges : List Edge}
    (h : List.Forall₂ (fun n e => g.Shows e (far e) n) neighbors edges) (id : String) :
    (neighbors.filter (·.id == id)).map (·.connection) =
      (edges.filter (far · == id)).map (.ofConstraint ·.constraint) := by
  refine map_filter_eq_of_forall₂ (fun n e hshows => ?_) h
  obtain ⟨data, hdata, hconnection⟩ := hshows.connection_eq
  have hid : (n.id == id) = (far e == id) := by rw [hshows.id_eq]
  have hsame : n.connection = .ofConstraint e.constraint := by
    rw [hconnection, Edge.constraint, hdata]
    rfl
  exact ⟨hid, hsame⟩

/-- Two steps see the edges between them alike. -/
theorem connections_agree (hp : g.plan = .ok p) {a b : PlanEntry} (ha : a ∈ p.entries)
    (hb : b ∈ p.entries) :
    (a.children.filter (·.id == b.id)).map (·.connection) =
      (b.parents.filter (·.id == a.id)).map (·.connection) := by
  -- Both sides are the connections of the linked edges from `a` to `b`.
  rw [map_connection_filter (forall₂_children hp ha), map_connection_filter (forall₂_parents hp hb),
    List.filter_filter, List.filter_filter]
  simp only [Bool.and_comm]

/-- Compilation accounts for every edge once, in the order of the edges. The edges that are not
linked are reported as skipped, each with what it lacks, and no others are. In a plan the parents of
a step are what the linked edges to it show of their sources, and its children are what those from
it show of their targets; so two steps have the same connections between them. -/
theorem edges_of_compile (g : Graph) :
    (∀ e, g.isLinked e = false ↔ ∃ reason, g.Lacks e reason) ∧
      List.Forall₂ (fun d e => ∃ reason, g.Lacks e reason ∧ d = .of (.skippedEdge e.id reason))
        (g.compile.diagnostics.filter (·.finding.isSkip))
        (g.edges.filter fun e => !g.isLinked e) ∧
      ∀ p, g.plan = .ok p →
        (∀ t ∈ p.entries,
          List.Forall₂ (fun n e => g.Shows e e.source n) t.parents
            (g.linkedEdges.filter (·.target == t.id)) ∧
          List.Forall₂ (fun n e => g.Shows e e.target n) t.children
            (g.linkedEdges.filter (·.source == t.id))) ∧
        ∀ a ∈ p.entries, ∀ b ∈ p.entries,
          (a.children.filter (·.id == b.id)).map (·.connection) =
            (b.parents.filter (·.id == a.id)).map (·.connection) := by
  refine ⟨fun e => ⟨fun h => ⟨_, lacks_skipReason h⟩, ?_⟩, g.forall₂_skipped, fun p hp => ⟨?_, ?_⟩⟩
  · rintro ⟨reason, h⟩
    exact h.isLinked
  · intro t ht
    exact ⟨forall₂_parents hp ht, forall₂_children hp ht⟩
  · intro a ha b hb
    exact connections_agree hp ha hb

/-- Two slots of a gate lead to one node, and two edges between them are skipped. -/
theorem edges_of_compile_gate :
    let g : Graph :=
      ⟨[⟨"pay", .event EventNode.empty⟩, ⟨"and", .gate .and⟩,
        ⟨"place", .event { EventNode.empty with objectVariables := .ofList [(0, ∅)] compare }⟩],
      [.link "place" "and", { Edge.link "and" "pay" with data := none },
        .between "and" "and-left-source" "pay" "pay-target", .link "pay" "nowhere",
        .between "and" "and-right-source" "pay" "pay-target"]⟩
    (g.compile.diagnostics.filter (·.finding.isSkip)).length = 2 ∧
      ∃ p, g.plan = .ok p ∧ (∃ t ∈ p.entries, t.id = "pay" ∧ t.parents.length = 2) ∧
        ∀ a ∈ p.entries, ∀ b ∈ p.entries,
          (a.children.filter (·.id == b.id)).map (·.connection) =
            (b.parents.filter (·.id == a.id)).map (·.connection) := by
  intro g
  obtain ⟨-, hskipped, hplan⟩ := edges_of_compile g
  -- Edge by edge: linked, without data, linked, dangling, linked.
  have hacyclic : g.IsAcyclic := blocked_dependencies_eq_nil_iff.1 (by decide)
  have herrors := hasErrors_compile_eq_false_iff.2 ⟨by decide, hacyclic⟩
  obtain ⟨p, hp⟩ := exists_plan_iff.2 herrors
  obtain ⟨hentries, hagree⟩ := hplan p hp
  have hstep : "pay" ∈ p.nodeIds := (mem_nodeIds_iff hp).2 (by decide +kernel)
  obtain ⟨t, ht, hid⟩ := List.mem_map.1 hstep
  refine ⟨?_, p, hp, ⟨t, ht, hid, ?_⟩, hagree⟩
  · rw [hskipped.length_eq]
    decide
  · rw [(hentries t ht).1.length_eq, hid]
    decide

end Graph
end ConstraintGraph
