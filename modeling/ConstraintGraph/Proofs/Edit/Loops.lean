import ConstraintGraph.Proofs.Compilation.Errors
import ConstraintGraph.Proofs.Edit.Ancestors
import ConstraintGraph.Proofs.Edit.Effects

namespace ConstraintGraph

open Relation

section Insertion

variable {α : Type} {r : α → α → Prop} {s t : α}

/-- A path through one more arc either does without it or runs up to it and on from it. -/
theorem transGen_insert {a b : α} (h : TransGen (fun u v => r u v ∨ u = s ∧ v = t) a b) :
    TransGen r a b ∨ ReflTransGen r a s ∧ ReflTransGen r t b := by
  induction h with
  | single h =>
    rcases h with h | ⟨rfl, rfl⟩
    · exact Or.inl (.single h)
    · exact Or.inr ⟨.refl, .refl⟩
  | tail _ h ih =>
    rcases h with h | ⟨rfl, rfl⟩
    · exact ih.imp (·.tail h) fun ⟨hs, ht⟩ => ⟨hs, ht.tail h⟩
    · exact ih.elim (fun hs => Or.inr ⟨hs.to_reflTransGen, .refl⟩) fun ⟨hs, _⟩ => Or.inr ⟨hs, .refl⟩

/-- One more arc closes a cycle exactly when a path leads from its target back to its source. -/
theorem exists_cycle_insert_iff (hr : ∀ v, ¬ TransGen r v v) :
    (∃ v, TransGen (fun u v => r u v ∨ u = s ∧ v = t) v v) ↔ ReflTransGen r t s := by
  constructor
  · rintro ⟨v, hv⟩
    rcases transGen_insert hv with h | ⟨hto, hfrom⟩
    · exact absurd h (hr v)
    · exact hfrom.trans hto
  · intro h
    have hback : ReflTransGen (fun u v => r u v ∨ u = s ∧ v = t) t s :=
      ReflTransGen.mono (fun _ _ => Or.inl) _ _ h
    exact ⟨t, .tail' hback (Or.inr ⟨rfl, rfl⟩)⟩

end Insertion

namespace Graph

variable {g g' : Graph} {e : Edge} {source target : Node} {sourceHandle targetHandle : String}

def IsLoopFree (g : Graph) : Prop := ∀ v, ¬ TransGen g.Leads v v

def withEdge (g : Graph) (e : Edge) : Graph :=
  { g with edges := g.edges ++ [{ e with data := some e.constraint }] }

theorem leads_of_link {u v : String} (h : g.Link u v) : g.Leads u v := by
  obtain ⟨e, he, hs, ht⟩ := h
  exact ⟨e, (mem_linkedEdges.1 he).1, hs, ht⟩

theorem link_eq_leads (hlinked : ∀ e ∈ g.edges, g.isLinked e = true) : g.Link = g.Leads := by
  funext u v
  refine propext ⟨leads_of_link, ?_⟩
  rintro ⟨e, he, hs, ht⟩
  exact ⟨e, List.mem_filter.2 ⟨he, hlinked e he⟩, hs, ht⟩

theorem IsLoopFree.isAcyclic (hg : g.IsLoopFree) : g.IsAcyclic := fun v hv =>
  hg v (TransGen.mono (fun _ _ => leads_of_link) v v hv)

theorem IsLoopFree.mono (hg : g.IsLoopFree)
    (h : ∀ e' ∈ g'.edges, ∃ e ∈ g.edges, e.source = e'.source ∧ e.target = e'.target) :
    g'.IsLoopFree := by
  have hleads : ∀ u v, g'.Leads u v → g.Leads u v := by
    rintro u v ⟨e', he', rfl, rfl⟩
    exact h e' he'
  exact fun v hv => hg v (TransGen.mono hleads v v hv)

/-- A new edge adds one step from its source to its target. -/
theorem leads_withEdge (g : Graph) (e : Edge) :
    (g.withEdge e).Leads = fun u v => g.Leads u v ∨ u = e.source ∧ v = e.target := by
  funext u v
  simp only [Leads, withEdge, List.mem_append, List.mem_singleton, eq_iff_iff]
  constructor
  · rintro ⟨f, hf | rfl, hs, ht⟩
    · exact Or.inl ⟨f, hf, hs, ht⟩
    · exact Or.inr ⟨hs.symm, ht.symm⟩
  · rintro (⟨f, hf, hs, ht⟩ | ⟨rfl, rfl⟩)
    · exact ⟨f, Or.inl hf, hs, ht⟩
    · exact ⟨_, Or.inr rfl, rfl, rfl⟩

/-- The search finds the source exactly where a path leads to it from the target. -/
theorem closesCycle_iff {u v : String} :
    g.closesCycle u v = true ↔ ReflTransGen g.Leads v u := by
  rw [reflTransGen_iff_eq_or_transGen]
  simp [closesCycle, mem_ancestors_iff]

/-- A new edge keeps a graph free of loops exactly if the search finds none. -/
theorem IsLoopFree.withEdge_iff (hg : g.IsLoopFree) :
    (g.withEdge e).IsLoopFree ↔ g.closesCycle e.source e.target = false := by
  rw [IsLoopFree, ← not_exists, leads_withEdge, exists_cycle_insert_iff hg, ← closesCycle_iff,
    Bool.not_eq_true]

/-- A cycle is reported exactly where the linked edges have one. -/
theorem exists_cycle_diagnostic_iff :
    (∃ d ∈ g.compile.diagnostics, ∃ ids, d.finding = .cycle ids) ↔ ¬ g.IsAcyclic := by
  rw [← blocked_dependencies_eq_nil_iff]
  constructor
  · rintro ⟨d, hd, ids, hcycle⟩
    obtain ⟨f, hf, rfl⟩ := List.mem_map.1 hd
    obtain rfl : f = .cycle ids := hcycle
    exact (cycle_mem_findings.1 hf).1
  · intro hblocked
    exact ⟨_, mem_diagnostics.2 (cycle_mem_findings.2 ⟨hblocked, rfl⟩), _, rfl⟩

/-- An edge from a handle of one node to the handle of another, with the nodes and the handles. -/
structure Attaches (g : Graph) (e : Edge) (source target : Node)
    (sourceHandle targetHandle : String) : Prop where
  source_eq : g.node? e.source = some source
  target_eq : g.node? e.target = some target
  sourceHandle_eq : e.sourceHandle = some sourceHandle
  targetHandle_eq : e.targetHandle = some targetHandle
  sourceHandle_mem : sourceHandle ∈ source.sourceHandles
  targetHandle_own : targetHandle = target.targetHandle

namespace Attaches

theorem isLinked_withEdge (h : g.Attaches e source target sourceHandle targetHandle) :
    (g.withEdge e).isLinked { e with data := some e.constraint } = true := by
  have hsource : g.hasNode e.source = true := by rw [hasNode, h.source_eq]; rfl
  have htarget : g.hasNode e.target = true := by rw [hasNode, h.target_eq]; rfl
  refine isLinked_iff.2 ⟨?_, hsource, htarget⟩
  simp [Edge.isComplete, h.sourceHandle_eq, h.targetHandle_eq]

/-- Of an edge that passes the checks before it, the loop test sees only the two ends. -/
theorem exists_wouldCreateCycle_iff (h : g.Attaches e source target sourceHandle targetHandle)
    (hfresh : g.hasDuplicate e sourceHandle targetHandle = false) :
    (∃ u v, g.checkConnection e = .error (.wouldCreateCycle u v)) ↔
      g.closesCycle e.source e.target = true := by
  have hmem := h.sourceHandle_mem
  have hown := h.targetHandle_own
  -- Everything before the loop test is passed by what `e` attaches to.
  simp only [checkConnection, h.source_eq, h.target_eq, h.sourceHandle_eq, h.targetHandle_eq,
    Option.elim_some, bind, Except.bind, hmem, hown.symm, hfresh, not_true_eq_false, ne_eq,
    if_false, Bool.false_eq_true]
  cases g.closesCycle e.source e.target with
  | true => simp
  | false =>
    -- What is left are the tests of the slots, whose refusals are different ones.
    simp only [Bool.false_eq_true, if_false, iff_false, not_exists]
    intro u v
    split
    · simp
    · split <;> simp

end Attaches

/-- The check of a new edge and the compilation of the graph with it agree on cycles. All edges of
the graph are linked and have no cycle, and the new one attaches to handles of two nodes and is no
duplicate. Then the check refuses it as closing a cycle exactly when compilation reports one after
it is added. -/
theorem wouldCreateCycle_iff_cycle_found (hlinked : ∀ f ∈ g.edges, g.isLinked f = true)
    (hacyclic : g.IsAcyclic) (hattaches : g.Attaches e source target sourceHandle targetHandle)
    (hfresh : g.hasDuplicate e sourceHandle targetHandle = false) :
    (∃ u v, g.checkConnection e = .error (.wouldCreateCycle u v)) ↔
      ∃ d ∈ (g.withEdge e).compile.diagnostics, ∃ ids, d.finding = .cycle ids := by
  have hloops : g.IsLoopFree := by
    rwa [IsLoopFree, ← link_eq_leads hlinked]
  have hlinked' : ∀ f ∈ (g.withEdge e).edges, (g.withEdge e).isLinked f = true := by
    intro f hf
    rcases List.mem_append.1 hf with hf | hf
    · exact hlinked f hf
    · rw [List.mem_singleton.1 hf]
      exact hattaches.isLinked_withEdge
  -- Where all edges are linked, cycles and loops are the same.
  have hsame : (g.withEdge e).IsAcyclic ↔ (g.withEdge e).IsLoopFree := by
    rw [IsAcyclic, IsLoopFree, link_eq_leads hlinked']
  calc (∃ u v, g.checkConnection e = .error (.wouldCreateCycle u v))
      ↔ g.closesCycle e.source e.target = true := hattaches.exists_wouldCreateCycle_iff hfresh
    _ ↔ ¬ (g.withEdge e).IsLoopFree := by rw [hloops.withEdge_iff, Bool.not_eq_false]
    _ ↔ ¬ (g.withEdge e).IsAcyclic := by rw [hsame]
    _ ↔ _ := exists_cycle_diagnostic_iff.symm

/-- An edge without data back to the first of two nodes. -/
theorem wouldCreateCycle_iff_cycle_found_back :
    let g : Graph := ⟨[⟨"a", .gate .not⟩, ⟨"b", .gate .not⟩], [.link "a" "b"]⟩
    let e : Edge := { Edge.link "b" "a" with data := none }
    g.checkConnection e = .error (.wouldCreateCycle "b" "a") ∧
      ∃ d ∈ (g.withEdge e).compile.diagnostics, ∃ ids, d.finding = .cycle ids := by
  intro g e
  have hacyclic : g.IsAcyclic := blocked_dependencies_eq_nil_iff.1 (by decide)
  have hattaches : g.Attaches e ⟨"b", .gate .not⟩ ⟨"a", .gate .not⟩ "b-source" "a-target" :=
    ⟨by decide, by decide, by decide, by decide, by decide, by decide⟩
  have hcheck : g.checkConnection e = .error (.wouldCreateCycle "b" "a") := by decide
  exact ⟨hcheck, (wouldCreateCycle_iff_cycle_found (by decide) hacyclic hattaches (by decide)).1
    ⟨_, _, hcheck⟩⟩

end Graph
end ConstraintGraph
