import ConstraintGraph.Proofs.Compilation.Inheritance
import ConstraintGraph.Proofs.Compilation.Reordering

namespace ConstraintGraph

def Finding.isOutOfScope : Finding → Bool
  | .outOfScope _ _ => true
  | _ => false

section FirstOccurrences

variable {α : Type} [DecidableEq α]

theorem foldl_eq_eraseDups (l : List α) :
    l.foldl (fun seen a => if a ∈ seen then seen else seen ++ [a]) [] = l.eraseDups := by
  induction l using List.reverseRecOn with
  | nil => rfl
  | append_singleton l a ih =>
    rw [List.foldl_concat, ih, eraseDups_concat]
    simp only [List.mem_eraseDups]

/-- What remains without repetitions stands in the order in which it came first. -/
theorem pairwise_idxOf_eraseDups (l : List α) :
    l.eraseDups.Pairwise fun a b => l.idxOf a < l.idxOf b := by
  induction l using List.reverseRecOn with
  | nil => exact .nil
  | append_singleton l a ih =>
    have hold : ∀ b ∈ l, (l ++ [a]).idxOf b = l.idxOf b := fun b hb => List.idxOf_append_of_mem hb
    have hkept : l.eraseDups.Pairwise fun b c => (l ++ [a]).idxOf b < (l ++ [a]).idxOf c := by
      refine ih.imp_of_mem fun hb hc hlt => ?_
      rwa [hold _ (List.mem_eraseDups.1 hb), hold _ (List.mem_eraseDups.1 hc)]
    rw [eraseDups_concat]
    split
    · exact hkept
    · rename_i ha
      refine List.pairwise_append.2 ⟨hkept, List.pairwise_singleton _ _, fun b hb c hc => ?_⟩
      -- The new element comes first at the end, behind everything before it.
      obtain rfl := List.mem_singleton.1 hc
      have hb : b ∈ l := List.mem_eraseDups.1 hb
      have hlt : l.idxOf b < l.length := List.idxOf_lt_length_of_mem hb
      have hlast : (l ++ [c]).idxOf c = l.length := by
        rw [List.idxOf_append_of_notMem ha]
        simp
      rwa [hold b hb, hlast]

end FirstOccurrences

namespace Graph

variable {g : Graph} {id : String} {node : Node} {v : Variable}

/-- The variables that the node `id` mentions in its filters and then in its constraints, as often
as it does. -/
def mentionedAt (g : Graph) (id : String) : List Variable :=
  match (g.node? id).bind Node.event? with
  | some data => (data.filters ++ data.constraints).flatMap Predicate.mentioned
  | none => []

/-- The first node `id` mentions the variable, and no node on its chain of first parents, itself
included, introduces it. -/
structure Misses (g : Graph) (id : String) (v : Variable) : Prop where
  mentions : ∃ node data, g.node? id = some node ∧ node.event? = some data ∧
    ∃ p ∈ data.filters ++ data.constraints, v ∈ p.mentioned
  not_introduced : ∀ x, g.Ascends id x → ¬ g.Introduces x v

def MentionedBefore (g : Graph) (a b : String × Variable) : Prop :=
  (g.nodes.map (·.id)).idxOf a.1 < (g.nodes.map (·.id)).idxOf b.1 ∨
    a.1 = b.1 ∧ (g.mentionedAt a.1).idxOf a.2 < (g.mentionedAt a.1).idxOf b.2

theorem MentionedBefore.ne {a b : String × Variable} (h : g.MentionedBefore a b) : a ≠ b := by
  rintro rfl
  rcases h with h | ⟨-, h⟩ <;> exact Nat.lt_irrefl _ h

/-- The variables that the node `id` mentions out of scope, in the order of the first mentions. -/
def missingAt (g : Graph) (id : String) : List Variable :=
  (g.mentionedAt id).eraseDups.filter fun v => !(g.scope id).contains v

def missing (g : Graph) : List (String × Variable) :=
  (g.nodes.map (·.id)).eraseDups.flatMap fun id => (g.missingAt id).map fun v => (id, v)

theorem mem_mentionedAt :
    v ∈ g.mentionedAt id ↔ ∃ node data, g.node? id = some node ∧ node.event? = some data ∧
      ∃ p ∈ data.filters ++ data.constraints, v ∈ p.mentioned := by
  unfold mentionedAt
  cases hnode : g.node? id with
  | none => simp
  | some node =>
    cases hevent : node.event? with
    | none => simp [hevent]
    | some data => simp only [Option.bind_some, hevent, List.mem_flatMap, Option.some.injEq,
        exists_eq_left', exists_and_left]

theorem contains_scope_iff : (g.scope id).contains v = true ↔ v ∈ (g.scope id).toList := by
  rw [Scope.mem_toList, Scope.contains, List.contains_iff_mem]

theorem mem_missingAt : v ∈ g.missingAt id ↔ g.Misses id v := by
  have hscope : (!(g.scope id).contains v) = true ↔ ∀ x, g.Ascends id x → ¬ g.Introduces x v := by
    rw [Bool.not_eq_true', ← Bool.not_eq_true, contains_scope_iff, mem_scope_iff]
    simp only [not_exists, not_and]
  rw [missingAt, List.mem_filter, List.mem_eraseDups, mem_mentionedAt, hscope]
  exact ⟨fun h => ⟨h.1, h.2⟩, fun h => ⟨h.mentions, h.not_introduced⟩⟩

/-- The list holds a variable for a node exactly if the node mentions it out of scope. -/
theorem mem_missing : (id, v) ∈ g.missing ↔ g.Misses id v := by
  rw [← mem_missingAt]
  simp only [missing, List.mem_flatMap, List.mem_map, List.mem_eraseDups, Prod.mk.injEq]
  constructor
  · rintro ⟨id', -, v', hv', rfl, rfl⟩
    exact hv'
  · intro hv
    -- What mentions a variable is a node of the graph.
    obtain ⟨⟨node, -, hnode, -⟩, -⟩ := mem_missingAt.1 hv
    exact ⟨id, ⟨node, node?_eq_some hnode⟩, v, hv, rfl, rfl⟩

/-- Nodes come in their order, and at each node variables in that of their first mention. -/
theorem pairwise_missing (g : Graph) : g.missing.Pairwise g.MentionedBefore := by
  refine List.pairwise_flatMap.2 ⟨fun id _ => ?_, ?_⟩
  · rw [List.pairwise_map]
    have hmentions := pairwise_idxOf_eraseDups (g.mentionedAt id)
    exact (hmentions.filter _).imp fun hlt => Or.inr ⟨rfl, hlt⟩
  · refine (pairwise_idxOf_eraseDups (g.nodes.map (·.id))).imp ?_
    intro id id' hlt a ha b hb
    refine Or.inl ?_
    obtain ⟨v, -, rfl⟩ := List.mem_map.1 ha
    obtain ⟨w, -, rfl⟩ := List.mem_map.1 hb
    exact hlt

theorem nodup_missing (g : Graph) : g.missing.Nodup :=
  g.pairwise_missing.imp MentionedBefore.ne

theorem map_id_distinctNodes (g : Graph) :
    g.distinctNodes.map (·.id) = (g.nodes.map (·.id)).eraseDups :=
  g.vertices_dependencies

/-- A node that is kept is the first one of its id. -/
theorem node?_of_mem_distinctNodes :
    node ∈ g.distinctNodes → g.node? node.id = some node := by
  unfold distinctNodes node?
  induction g.nodes using List.reverseRecOn with
  | nil => exact fun hnode => absurd hnode List.not_mem_nil
  | append_singleton nodes last ih =>
    rw [List.foldl_concat, List.find?_append]
    split
    · intro hnode
      rw [ih hnode, Option.some_or]
    · rename_i hnew
      intro hnode
      rcases List.mem_append.1 hnode with hnode | hnode
      · rw [ih hnode, Option.some_or]
      · obtain rfl := List.mem_singleton.1 hnode
        -- If a node before it had its id, one that was kept would have it as well.
        have hfirst : nodes.find? (·.id == node.id) = none := by
          refine List.find?_eq_none.2 fun other hother hid => hnew ?_
          have hkept : node.id ∈ (Graph.mk nodes g.edges).distinctNodes.map (·.id) := by
            rw [map_id_distinctNodes, List.mem_eraseDups]
            exact List.mem_map.2 ⟨other, hother, beq_iff_eq.1 hid⟩
          obtain ⟨kept, hmem, hid⟩ := List.mem_map.1 hkept
          exact List.any_eq_true.2 ⟨kept, hmem, beq_iff_eq.2 hid⟩
        rw [hfirst, Option.none_or, List.find?_singleton, beq_self_eq_true, if_pos rfl]

/-- What is reported at a node is what it mentions out of scope, each variable once. -/
theorem outOfScope_eq (hnode : g.node? id = some node) :
    outOfScope g.lineage node = (g.missingAt id).map (.outOfScope id) := by
  obtain ⟨-, rfl⟩ := node?_eq_some hnode
  unfold outOfScope missingAt mentionedAt mentions
  rw [hnode, Option.bind_some]
  cases node.event? with
  | none => rfl
  | some data =>
    simp only [foldl_eq_eraseDups]
    rfl

theorem flatMap_outOfScope (g : Graph) :
    g.distinctNodes.flatMap (outOfScope g.lineage) =
      g.missing.map fun m => .outOfScope m.1 m.2 := by
  rw [missing, ← map_id_distinctNodes, List.map_flatMap, List.flatMap_map]
  refine List.flatMap_congr fun node hnode => ?_
  rw [outOfScope_eq (node?_of_mem_distinctNodes hnode), List.map_map]
  rfl

/-- These diagnostics are the list, one for each member, whatever else is reported. -/
theorem filter_isOutOfScope_diagnostics (g : Graph) :
    g.compile.diagnostics.filter (·.finding.isOutOfScope) =
      g.missing.map fun m => .of (.outOfScope m.1 m.2) := by
  have hrepeated : (g.repeatedIds.map Finding.duplicateNode).filter Finding.isOutOfScope = [] := by
    simp [List.filter_eq_nil_iff, Finding.isOutOfScope]
  have hskipped : g.skippedEdges.filter Finding.isOutOfScope = [] := by
    refine List.filter_eq_nil_iff.2 fun f hf => ?_
    obtain ⟨e, -, -, rfl⟩ := mem_skippedEdges.1 hf
    exact Bool.false_ne_true
  have horder : (orderFindings g.dependencies).filter Finding.isOutOfScope = [] := by
    refine List.filter_eq_nil_iff.2 fun f hf => ?_
    obtain ⟨-, rfl | rfl⟩ := mem_orderFindings.1 hf <;> exact Bool.false_ne_true
  have hscope : (g.distinctNodes.flatMap (outOfScope g.lineage)).filter Finding.isOutOfScope =
      g.missing.map fun m => .outOfScope m.1 m.2 := by
    rw [flatMap_outOfScope]
    refine List.filter_eq_self.2 fun f hf => ?_
    obtain ⟨m, -, rfl⟩ := List.mem_map.1 hf
    rfl
  -- A diagnostic keeps its finding, so the findings can be filtered first.
  calc g.compile.diagnostics.filter (·.finding.isOutOfScope)
    _ = (g.findings.filter Finding.isOutOfScope).map Diagnostic.of := List.filter_map
    _ = (g.missing.map fun m => Finding.outOfScope m.1 m.2).map Diagnostic.of := by
      unfold findings
      rw [List.filter_append, List.filter_append, List.filter_append, hrepeated, hskipped, horder,
        hscope]
      rfl
    _ = g.missing.map fun m => .of (.outOfScope m.1 m.2) := List.map_map

/-- A variable is reported exactly if the first node of the id mentions it out of scope. -/
theorem outOfScope_mem_diagnostics :
    Diagnostic.of (.outOfScope id v) ∈ g.compile.diagnostics ↔ g.Misses id v := by
  have hfilter : Diagnostic.of (.outOfScope id v) ∈ g.compile.diagnostics ↔
      Diagnostic.of (.outOfScope id v) ∈
        g.compile.diagnostics.filter (·.finding.isOutOfScope) := by
    rw [List.mem_filter]
    exact (and_iff_left rfl).symm
  rw [hfilter, filter_isOutOfScope_diagnostics, List.mem_map, ← mem_missing]
  constructor
  · rintro ⟨m, hm, heq⟩
    obtain ⟨rfl, rfl⟩ := Finding.outOfScope.inj (congrArg Diagnostic.finding heq)
    exact hm
  · intro hm
    exact ⟨(id, v), hm, rfl⟩

theorem isError_of_isOutOfScope {d : Diagnostic} (hd : d ∈ g.compile.diagnostics)
    (hscope : d.finding.isOutOfScope = true) : d.isError = false := by
  obtain ⟨m, -, rfl⟩ := List.mem_map.1 (filter_isOutOfScope_diagnostics g ▸
    List.mem_filter.2 ⟨hd, hscope⟩)
  rfl

/-- Compilation reports the variables that a node mentions out of scope, each once, ordered by node
and by first mention, also beside errors. Whether there is a plan is up to the other diagnostics. -/
theorem outOfScope_of_compile (g : Graph) :
    (∃ reported : List (String × Variable),
      g.compile.diagnostics.filter (·.finding.isOutOfScope) =
          reported.map (fun r => .of (.outOfScope r.1 r.2)) ∧
        (∀ id v, (id, v) ∈ reported ↔ g.Misses id v) ∧
        reported.Pairwise g.MentionedBefore ∧ reported.Nodup) ∧
      (∀ e, g.plan = .error e →
        ∀ id v, g.Misses id v → .of (.outOfScope id v) ∈ e.diagnostics) ∧
      ((∃ p, g.plan = .ok p) ↔
        ∀ d ∈ g.compile.diagnostics, d.finding.isOutOfScope = false → d.isError = false) := by
  refine ⟨⟨g.missing, g.filter_isOutOfScope_diagnostics, fun id v => mem_missing,
    g.pairwise_missing, g.nodup_missing⟩, ?_, ?_⟩
  · intro e he id v hmisses
    have hdiagnostics : e.diagnostics = g.compile.diagnostics := by
      unfold plan Compilation.plan at he
      split at he
      · obtain rfl := Except.error.inj he
        rfl
      · cases he
    rw [hdiagnostics]
    exact outOfScope_mem_diagnostics.2 hmisses
  · have herrors :
        g.compile.hasErrors = false ↔ ∀ d ∈ g.compile.diagnostics, d.isError = false := by
      simp [Compilation.hasErrors]
    rw [exists_plan_iff, herrors]
    refine forall₂_congr fun d hd => ⟨fun h _ => h, fun h => ?_⟩
    -- A variable out of scope is a warning, so that it never decides.
    cases hscope : d.finding.isOutOfScope with
    | true => exact isError_of_isOutOfScope hd hscope
    | false => exact h hscope

/-- The node that comes first under its id mentions two variables, and both are reported beside the
error that the id is used twice. -/
theorem outOfScope_of_compile_repeated_id :
    let filters : List Predicate := [.eventObject 1 0 none, .distinct (.object 1) (.event 0)]
    let g : Graph := ⟨[⟨"pay", .event { EventNode.empty with filters := filters }⟩,
      ⟨"pay", .gate .not⟩], []⟩
    ∃ e, g.plan = .error e ∧ .of (.outOfScope "pay" (.object 1)) ∈ e.diagnostics ∧
      .of (.outOfScope "pay" (.event 0)) ∈ e.diagnostics := by
  intro filters g
  have herrors : g.compile.hasErrors = true := by decide +kernel
  have hplan : g.plan = .error ⟨g.compile.diagnostics⟩ := by
    rw [plan, Compilation.plan, if_pos herrors]
  -- By first mention, although the kinds are the other way round.
  have hmissing : g.missing = [("pay", .object 1), ("pay", .event 0)] := by decide +kernel
  have hreported := (outOfScope_of_compile g).2.1 _ hplan
  refine ⟨_, hplan, hreported _ _ (mem_missing.1 ?_), hreported _ _ (mem_missing.1 ?_)⟩
  · rw [hmissing]
    exact List.mem_cons_self
  · rw [hmissing]
    exact List.mem_cons_of_mem _ List.mem_cons_self

end Graph
end ConstraintGraph
