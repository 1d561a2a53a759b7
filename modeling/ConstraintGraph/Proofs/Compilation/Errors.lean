import ConstraintGraph.Proofs.Compilation.Links

namespace ConstraintGraph

namespace Dependencies

variable {α : Type} [DecidableEq α] {d : Dependencies α}

/-- The vertices that the emission does not reach are those that are never released. -/
theorem unreached_eq_blocked (hd : d.WellFormed) : d.emission.unreached d = d.blocked := by
  have hunreached := fun v => mem_unreached_iff hd (v := v)
  have hblocked := fun v => mem_blocked_iff hd (v := v)
  unfold Emission.unreached dependents at hunreached ⊢
  unfold blocked at hblocked ⊢
  rw [List.filter_filter] at hunreached ⊢
  refine List.filter_congr fun v hv => ?_
  have hsame := (hunreached v).trans (hblocked v).symm
  rw [List.mem_filter, List.mem_filter] at hsame
  rw [Bool.eq_iff_iff]
  simpa only [hv, true_and] using hsame

theorem blocked_ne_nil_of_isStuck (hd : d.WellFormed) (h : d.emission.isStuck = true) :
    d.blocked ≠ [] := by
  obtain ⟨v, hv, hg⟩ := exists_not_grounded_of_isStuck hd h
  exact List.ne_nil_of_mem ((mem_blocked_iff hd).2 ⟨hv, hg⟩)

end Dependencies

namespace Graph

/-- A cycle and the unreachable nodes are found together, and they are the same nodes. -/
theorem orderFindings_eq {d : Dependencies String} (hd : d.WellFormed) :
    orderFindings d =
      if d.blocked = [] then [] else [.cycle d.blocked, .unreachable d.blocked] := by
  have hstuck := Dependencies.blocked_ne_nil_of_isStuck hd
  simp only [orderFindings, Dependencies.unreached_eq_blocked hd]
  by_cases hnil : d.blocked = []
  · have hfree : d.emission.isStuck = false := by
      by_contra h
      exact hstuck (by simpa using h) hnil
    simp [hnil, hfree]
  · simp [hnil]

theorem mem_skippedEdges {g : Graph} {f : Finding} :
    f ∈ g.skippedEdges ↔
      ∃ e ∈ g.edges, g.isLinked e = false ∧ f = .skippedEdge e.id (skipReason e) := by
  simp only [skippedEdges, List.mem_map, List.mem_filter, Bool.not_eq_true', and_assoc]
  constructor
  · rintro ⟨e, he, hlinked, rfl⟩
    exact ⟨e, he, hlinked, rfl⟩
  · rintro ⟨e, he, hlinked, rfl⟩
    exact ⟨e, he, hlinked, rfl⟩

theorem mem_outOfScope {l : Lineage} {node : Node} {f : Finding} (hf : f ∈ outOfScope l node) :
    ∃ v, f = .outOfScope node.id v := by
  unfold outOfScope at hf
  split at hf
  · simp at hf
  · obtain ⟨v, -, rfl⟩ := List.mem_map.1 hf
    exact ⟨v, rfl⟩

/-- What can be found in a graph, by the part of the compilation that finds it. -/
theorem mem_findings {g : Graph} {f : Finding} (hf : f ∈ g.findings) :
    (∃ id ∈ g.repeatedIds, f = .duplicateNode id) ∨ f ∈ g.skippedEdges ∨
      f ∈ orderFindings g.dependencies ∨ ∃ id v, f = .outOfScope id v := by
  simp only [findings, List.mem_append, List.mem_map, List.mem_flatMap] at hf
  rcases hf with ((⟨id, hid, rfl⟩ | hf) | hf) | ⟨node, -, hf⟩
  · exact Or.inl ⟨id, hid, rfl⟩
  · exact Or.inr (Or.inl hf)
  · exact Or.inr (Or.inr (Or.inl hf))
  · obtain ⟨v, rfl⟩ := mem_outOfScope hf
    exact Or.inr (Or.inr (Or.inr ⟨node.id, v, rfl⟩))

theorem mem_orderFindings {g : Graph} {f : Finding} :
    f ∈ orderFindings g.dependencies ↔ g.dependencies.blocked ≠ [] ∧
      (f = .cycle g.dependencies.blocked ∨ f = .unreachable g.dependencies.blocked) := by
  rw [orderFindings_eq g.dependencies_wellFormed]
  split <;> simp_all

/-- Apart from repeated ids only the order can be in error. -/
theorem mem_findings_iff_mem_orderFindings {g : Graph} {f : Finding} (hsev : f.severity = .error)
    (hid : ∀ id, f ≠ .duplicateNode id) : f ∈ g.findings ↔ f ∈ orderFindings g.dependencies := by
  constructor
  · intro h
    rcases mem_findings h with ⟨id, _, rfl⟩ | h | h | ⟨_, _, rfl⟩
    · exact absurd rfl (hid id)
    · obtain ⟨_, _, _, rfl⟩ := mem_skippedEdges.1 h
      simp [Finding.severity] at hsev
    · exact h
    · simp [Finding.severity] at hsev
  · intro h
    simp only [findings, List.mem_append]
    exact Or.inl (Or.inr h)

theorem cycle_mem_findings {g : Graph} {ids : List String} :
    Finding.cycle ids ∈ g.findings ↔
      g.dependencies.blocked ≠ [] ∧ ids = g.dependencies.blocked := by
  rw [mem_findings_iff_mem_orderFindings rfl (by simp), mem_orderFindings]
  simp

theorem unreachable_mem_findings {g : Graph} {ids : List String} :
    Finding.unreachable ids ∈ g.findings ↔
      g.dependencies.blocked ≠ [] ∧ ids = g.dependencies.blocked := by
  rw [mem_findings_iff_mem_orderFindings rfl (by simp), mem_orderFindings]
  simp

/-- A graph has repeated ids unless all its ids are different. -/
theorem repeatedIds_eq_nil_iff {g : Graph} :
    g.repeatedIds = [] ↔ (g.nodes.map (·.id)).Nodup := by
  -- The fold carries the ids seen and those repeated, so the induction is for any of them.
  have hfold : ∀ (nodes : List Node) (seen repeated : List String),
      (nodes.foldl (fun (found : List String × List String) node =>
          if node.id ∈ found.1 then (found.1, found.2 ++ [node.id])
          else (node.id :: found.1, found.2)) (seen, repeated)).2 = [] ↔
        repeated = [] ∧ (nodes.map (·.id)).Nodup ∧ ∀ node ∈ nodes, node.id ∉ seen := by
    intro nodes
    induction nodes with
    | nil => simp
    | cons node nodes ih =>
      intro seen repeated
      rw [List.foldl_cons]
      by_cases h : node.id ∈ seen
      · simp [h, ih]
      · simp only [h, if_false]
        rw [ih, List.map_cons, List.nodup_cons, List.forall_mem_cons]
        constructor
        · rintro ⟨hr, hn, hs⟩
          refine ⟨hr, ⟨fun hm => ?_, hn⟩, h, fun m hm hseen => hs m hm (.tail _ hseen)⟩
          obtain ⟨m, hm, he⟩ := List.mem_map.1 hm
          exact hs m hm (he ▸ .head _)
        · rintro ⟨hr, ⟨hne, hn⟩, -, hs⟩
          refine ⟨hr, hn, fun m hm hmem => ?_⟩
          rcases List.mem_cons.1 hmem with he | hseen
          · exact hne (he ▸ List.mem_map_of_mem hm)
          · exact hs m hm hseen
  refine (hfold g.nodes [] []).trans ?_
  simp

theorem mem_diagnostics {g : Graph} {f : Finding} :
    Diagnostic.of f ∈ g.compile.diagnostics ↔ f ∈ g.findings := by
  constructor
  · intro h
    obtain ⟨f', hf', he⟩ := List.mem_map.1 h
    obtain rfl : f' = f := congrArg Diagnostic.finding he
    exact hf'
  · exact List.mem_map_of_mem

theorem hasErrors_compile_iff {g : Graph} :
    g.compile.hasErrors = true ↔ ∃ f ∈ g.findings, f.severity = .error := by
  simp [Compilation.hasErrors, compile, Diagnostic.isError, Diagnostic.of]

theorem blocked_dependencies_eq_nil_iff {g : Graph} :
    g.dependencies.blocked = [] ↔ g.IsAcyclic := by
  rw [isAcyclic_iff, List.eq_nil_iff_forall_not_mem]
  refine forall_congr' fun v => not_congr ?_
  rw [Dependencies.mem_blocked_iff g.dependencies_wellFormed, grounded_dependencies, not_not]
  exact and_iff_right_of_imp fun h => mem_vertices_dependencies.2 h.hasNode

/-- A graph is free of errors when its node ids are distinct and its linked edges acyclic. -/
theorem hasErrors_compile_eq_false_iff {g : Graph} :
    g.compile.hasErrors = false ↔ (g.nodes.map (·.id)).Nodup ∧ g.IsAcyclic := by
  rw [← repeatedIds_eq_nil_iff, ← blocked_dependencies_eq_nil_iff, ← Bool.not_eq_true,
    hasErrors_compile_iff]
  constructor
  · intro h
    refine ⟨?_, ?_⟩
    · refine List.eq_nil_iff_forall_not_mem.2 fun id hid => h ⟨.duplicateNode id, ?_, rfl⟩
      have hmem : Finding.duplicateNode id ∈ g.repeatedIds.map Finding.duplicateNode :=
        List.mem_map_of_mem hid
      simp only [findings, List.mem_append]
      exact Or.inl (Or.inl (Or.inl hmem))
    · by_contra hne
      exact h ⟨.cycle g.dependencies.blocked, cycle_mem_findings.2 ⟨hne, rfl⟩, rfl⟩
  · rintro ⟨hr, hb⟩ ⟨f, hf, hsev⟩
    rcases mem_findings hf with ⟨id, hid, -⟩ | hf | hf | ⟨_, _, rfl⟩
    · simp [hr] at hid
    · obtain ⟨_, _, _, rfl⟩ := mem_skippedEdges.1 hf
      simp [Finding.severity] at hsev
    · exact (mem_orderFindings.1 hf).1 hb
    · simp [Finding.severity] at hsev

/-- A graph has a plan exactly if it compiles without errors. -/
theorem exists_plan_iff {g : Graph} :
    (∃ p, g.plan = .ok p) ↔ g.compile.hasErrors = false := by
  unfold plan Compilation.plan
  split <;> simp_all

end Graph
end ConstraintGraph
