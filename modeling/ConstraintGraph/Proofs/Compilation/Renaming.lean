import ConstraintGraph.Proofs.Compilation.Scopes
import ConstraintGraph.Proofs.Dependency.Renaming

namespace ConstraintGraph

def Node.rename (f : String → String) (node : Node) : Node := { node with id := f node.id }

def Edge.rename (f : String → String) (e : Edge) : Edge :=
  { e with source := f e.source, target := f e.target }

def Graph.rename (f : String → String) (g : Graph) : Graph :=
  ⟨g.nodes.map (.rename f), g.edges.map (.rename f)⟩

def Finding.rename (f : String → String) : Finding → Finding
  | .cycle ids => .cycle (ids.map f)
  | .unreachable ids => .unreachable (ids.map f)
  | .duplicateNode id => .duplicateNode (f id)
  | .skippedEdge id reason => .skippedEdge id reason
  | .outOfScope id v => .outOfScope (f id) v

def Diagnostic.rename (f : String → String) (d : Diagnostic) : Diagnostic :=
  .of (d.finding.rename f)

def Neighbor.rename (f : String → String) (n : Neighbor) : Neighbor := { n with id := f n.id }

def PlanEntry.rename (f : String → String) (t : PlanEntry) : PlanEntry :=
  { t with
    id := f t.id
    parents := t.parents.map (.rename f)
    children := t.children.map (.rename f) }

def Declaration.rename (f : String → String) (d : Declaration) : Declaration :=
  { d with node := f d.node }

def Compilation.rename (f : String → String) (c : Compilation) : Compilation where
  order := c.order.map f
  entries := c.entries.map (.rename f)
  declarations := c.declarations.map (.rename f)
  diagnostics := c.diagnostics.map (.rename f)

@[simp] theorem Finding.severity_rename (f : String → String) (x : Finding) :
    (x.rename f).severity = x.severity := by
  cases x <;> rfl

theorem Diagnostic.isError_rename (f : String → String) {x : Finding} :
    ((of x).rename f).isError = (of x).isError := by
  show ((x.rename f).severity == .error) = (x.severity == .error)
  rw [Finding.severity_rename]

theorem Node.introduces_rename (f : String → String) (node : Node) (kind : VariableKind) :
    (node.rename f).introduces kind = node.introduces kind := rfl

theorem introducedBy_rename (f : String → String) (nodes : List Node) (kind : VariableKind) :
    introducedBy (nodes.map (.rename f)) kind = introducedBy nodes kind := by
  rw [introducedBy, introducedBy, List.flatMap_map]
  simp only [Node.introduces_rename]

namespace Graph

variable {f : String → String} (g : Graph)

/-- What is selected among the edges is renamed with them. -/
theorem filter_edges_rename {p q : Edge → Bool} (hsame : ∀ e : Edge, p (e.rename f) = q e) :
    (g.rename f).edges.filter p = (g.edges.filter q).map (.rename f) := by
  rw [rename, List.filter_map]
  exact congrArg (List.map _) (List.filter_congr fun e _ => hsame e)

section Injective

variable (hf : f.Injective)
include hf

theorem node?_rename (id : String) : (g.rename f).node? (f id) = (g.node? id).map (.rename f) := by
  rw [node?, node?, rename, List.find?_map]
  simp only [Function.comp_def, Node.rename, hf.beq_eq]

theorem hasNode_rename (id : String) : (g.rename f).hasNode (f id) = g.hasNode id := by
  rw [hasNode, hasNode, node?_rename g hf, Option.isSome_map]

theorem isLinked_rename (e : Edge) : (g.rename f).isLinked (e.rename f) = g.isLinked e := by
  unfold isLinked
  rw [Edge.rename, hasNode_rename g hf, hasNode_rename g hf]
  rfl

theorem linkedEdges_rename : (g.rename f).linkedEdges = g.linkedEdges.map (.rename f) :=
  g.filter_edges_rename (g.isLinked_rename hf)

theorem skippedEdges_rename : (g.rename f).skippedEdges = g.skippedEdges.map (.rename f) := by
  unfold skippedEdges
  rw [filter_edges_rename g fun e => congrArg (!·) (isLinked_rename g hf e), List.map_map,
    List.map_map]
  rfl

theorem entering_rename (id : String) (e : Edge) :
    ((e.rename f).target == f id && (g.rename f).isLinked (e.rename f)) =
      (e.target == id && g.isLinked e) := by
  rw [isLinked_rename g hf, Edge.rename, hf.beq_eq]

theorem leaving_rename (id : String) (e : Edge) :
    ((e.rename f).source == f id && (g.rename f).isLinked (e.rename f)) =
      (e.source == id && g.isLinked e) := by
  rw [isLinked_rename g hf, Edge.rename, hf.beq_eq]

theorem firstParent?_rename (id : String) :
    (g.rename f).firstParent? (f id) = (g.firstParent? id).map f := by
  have hfind : (g.rename f).edges.find? (fun e => e.target == f id && (g.rename f).isLinked e) =
      (g.edges.find? fun e => e.target == id && g.isLinked e).map (.rename f) := by
    rw [rename, List.find?_map, Function.comp_def]
    exact congrArg (Option.map _ <| List.find? · g.edges) (funext (entering_rename g hf id))
  rw [firstParent?, firstParent?, hfind, Option.map_map, Option.map_map]
  rfl

/-- The walk along first parents passes the renamed nodes. -/
theorem chainFrom_rename (fuel : Nat) (visited : List String) (id : String) :
    (g.rename f).lineage.chainFrom fuel (visited.map f) (f id) =
      (g.lineage.chainFrom fuel visited id).map (.rename f) := by
  induction fuel generalizing visited id with
  | zero => rfl
  | succ fuel ih =>
    rw [chainFrom_succ, chainFrom_succ, node?_rename g hf, firstParent?_rename g hf]
    -- Injectivity is needed for the ids that have been visited.
    simp only [List.mem_map_of_injective hf]
    split
    · rfl
    · cases g.node? id with
      | none => rfl
      | some node =>
        cases g.firstParent? id with
        | none => rfl
        | some parent => exact congrArg (node.rename f :: ·) (ih (id :: visited) parent)

theorem scope_rename (id : String) : (g.rename f).scope (f id) = g.scope id := by
  have hlength : (g.rename f).lineage.length = g.lineage.length := by
    rw [lineage, lineage, rename, List.length_map, List.length_map, List.length_map]
  have hchain : (g.rename f).lineage.chain (f id) = (g.lineage.chain id).map (.rename f) := by
    rw [Lineage.chain, Lineage.chain, hlength]
    exact chainFrom_rename g hf _ [] id
  rw [scope, scope, Lineage.scope, Lineage.scope, hchain, introducedBy_rename, introducedBy_rename]

theorem distinctNodes_rename : (g.rename f).distinctNodes = g.distinctNodes.map (.rename f) := by
  let keep (kept : List Node) (node : Node) : List Node :=
    if kept.any (·.id == node.id) then kept else kept ++ [node]
  -- Renaming goes through one step of the fold.
  have hkeep : ∀ kept (node : Node),
      keep (kept.map (.rename f)) (node.rename f) = (keep kept node).map (.rename f) := by
    intro kept node
    have hkept : (kept.map (Node.rename f)).any (·.id == (node.rename f).id) =
        kept.any (·.id == node.id) := by
      rw [List.any_map]
      simp only [Function.comp_def, Node.rename, hf.beq_eq]
    simp only [keep, hkept]
    split
    · rfl
    · rw [List.map_append]
      rfl
  calc (g.rename f).distinctNodes
    _ = g.nodes.foldl (fun kept node => keep kept (node.rename f)) [] := List.foldl_map
    _ = (g.nodes.foldl keep []).map (.rename f) :=
      @List.foldl_hom _ _ _ (List.map (Node.rename f)) keep
        (fun kept node => keep kept (node.rename f)) g.nodes [] hkeep

/-- An injective renaming neither merges ids nor splits them. -/
theorem repeatedIds_rename : (g.rename f).repeatedIds = g.repeatedIds.map f := by
  let meet (met : List String × List String) (node : Node) : List String × List String :=
    if node.id ∈ met.1 then (met.1, met.2 ++ [node.id]) else (node.id :: met.1, met.2)
  -- The ids met so far and those met twice are both renamed on the way.
  let both (met : List String × List String) : List String × List String :=
    (met.1.map f, met.2.map f)
  have hmeet : ∀ met node, meet (both met) (node.rename f) = both (meet met node) := by
    intro met node
    have hmem : f node.id ∈ met.1.map f ↔ node.id ∈ met.1 := List.mem_map_of_injective hf
    simp only [meet, both, Node.rename, hmem]
    split
    · rw [List.map_append]
      rfl
    · rfl
  have hmet : g.nodes.foldl (fun met node => meet met (node.rename f)) ([], []) =
      both (g.nodes.foldl meet ([], [])) :=
    @List.foldl_hom _ _ _ both meet (fun met node => meet met (node.rename f)) g.nodes ([], [])
      hmeet
  calc (g.rename f).repeatedIds
    _ = (g.nodes.foldl (fun met node => meet met (node.rename f)) ([], [])).2 :=
      congrArg Prod.snd List.foldl_map
    _ = g.repeatedIds.map f := congrArg Prod.snd hmet

theorem dependencies_rename : (g.rename f).dependencies = g.dependencies.rename f := by
  unfold dependencies Dependencies.rename
  rw [distinctNodes_rename g hf, linkedEdges_rename g hf, List.map_map, List.map_map, List.map_map,
    List.map_map]
  rfl

theorem orderFindings_rename (d : Dependencies String) :
    orderFindings (d.rename f) = (orderFindings d).map (.rename f) := by
  have hunreached := Dependencies.unreached_rename hf d
  rw [← Dependencies.emission_rename hf] at hunreached
  have hstuck : (d.rename f).emission.isStuck = d.emission.isStuck := by
    rw [Dependencies.emission_rename hf, Dependencies.Emission.isStuck,
      Dependencies.Emission.isStuck, Dependencies.Emission.rename, List.isEmpty_map]
  unfold orderFindings
  simp only [hunreached, hstuck, Dependencies.blocked_rename hf, List.isEmpty_map, List.map_append]
  congr 1
  · split
    · split <;> rfl
    · rfl
  · split <;> rfl

theorem outOfScope_rename (node : Node) :
    outOfScope (g.rename f).lineage (node.rename f) =
      (outOfScope g.lineage node).map (.rename f) := by
  have hscope : (g.rename f).lineage.scope (node.rename f).id = g.lineage.scope node.id :=
    scope_rename g hf node.id
  have hevent : (node.rename f).event? = node.event? := rfl
  unfold outOfScope
  rw [hevent, hscope]
  split
  · rfl
  · rw [List.map_map]
    rfl

/-- Every finding names the renamed ids, in the same order. -/
theorem findings_rename : (g.rename f).findings = g.findings.map (.rename f) := by
  have hscope : (g.rename f).distinctNodes.flatMap (outOfScope (g.rename f).lineage) =
      (g.distinctNodes.flatMap (outOfScope g.lineage)).map (.rename f) := by
    rw [distinctNodes_rename g hf, List.flatMap_map, List.map_flatMap]
    simp only [outOfScope_rename g hf]
  have hrepeated : (g.rename f).repeatedIds.map Finding.duplicateNode =
      (g.repeatedIds.map Finding.duplicateNode).map (.rename f) := by
    rw [repeatedIds_rename g hf, List.map_map, List.map_map]
    rfl
  unfold findings
  rw [hrepeated, skippedEdges_rename g hf, dependencies_rename g hf, orderFindings_rename hf,
    hscope, List.map_append, List.map_append, List.map_append]

/-- The order does not depend on what ids look like. -/
theorem order_rename : (g.rename f).order = g.order.map f := by
  show (g.rename f).dependencies.isolated ++ (g.rename f).dependencies.priorityOrder =
    (g.dependencies.isolated ++ g.dependencies.priorityOrder).map f
  rw [dependencies_rename g hf, Dependencies.isolated_rename hf,
    Dependencies.priorityOrder_rename hf, List.map_append]

theorem neighbor?_rename (e : Edge) (id : String) :
    (g.rename f).neighbor? (e.rename f) (f id) = (g.neighbor? e id).map (.rename f) := by
  have hlabel : ((g.rename f).node? (f id)).bind (·.label) = (g.node? id).bind (·.label) := by
    rw [node?_rename g hf, Option.bind_map]
    rfl
  unfold neighbor?
  rw [hlabel, Option.map_map]
  rfl

theorem parentsOf_rename (id : String) :
    (g.rename f).parentsOf (f id) = (g.parentsOf id).map (.rename f) := by
  unfold parentsOf
  rw [filter_edges_rename g (entering_rename g hf id), List.filterMap_map, List.map_filterMap]
  exact congrArg (List.filterMap · _) (funext fun e => neighbor?_rename g hf e e.source)

theorem childrenOf_rename (id : String) :
    (g.rename f).childrenOf (f id) = (g.childrenOf id).map (.rename f) := by
  unfold childrenOf
  rw [filter_edges_rename g (leaving_rename g hf id), List.filterMap_map, List.map_filterMap]
  exact congrArg (List.filterMap · _) (funext fun e => neighbor?_rename g hf e e.target)

theorem entry?_rename (id : String) :
    entry? (g.rename f) (g.rename f).lineage (f id) =
      (g.entry? g.lineage id).map (.rename f) := by
  have hscope : (g.rename f).lineage.scope (f id) = g.lineage.scope id := scope_rename g hf id
  unfold entry?
  rw [node?_rename g hf]
  cases g.node? id with
  | none => rfl
  | some node =>
    simp only [Option.map_some, Option.bind_eq_bind, Option.bind_some, hscope,
      parentsOf_rename g hf, childrenOf_rename g hf]
    split <;> rfl

/-- Variables keep their indices when nodes are renamed. -/
theorem declarationsAt_rename (id : String) :
    (g.rename f).declarationsAt (f id) = (g.declarationsAt id).map (.rename f) := by
  have hnode : ∀ node : Node,
      declarationsOf (node.rename f) = (declarationsOf node).map (.rename f) := by
    intro node
    have hevent : (node.rename f).event? = node.event? := rfl
    unfold declarationsOf
    rw [hevent]
    split
    · rfl
    · simp only [List.map_flatMap, List.map_map]
      rfl
  unfold declarationsAt
  rw [node?_rename g hf]
  cases g.node? id with
  | none => rfl
  | some node => exact hnode node

/-- Node ids are opaque to compilation. When they are renamed by an injective function, what is
compiled is what was compiled before with its ids renamed: the order, the steps with their
neighbours, the declarations and the diagnostics, all in their places. And the scope at an id is the
one it had under its old name. -/
theorem compile_rename :
    (g.rename f).compile = g.compile.rename f ∧
      ∀ id, (g.rename f).scope (f id) = g.scope id := by
  refine ⟨?_, scope_rename g hf⟩
  have horder := order_rename g hf
  have hdiagnostics : (g.rename f).compile.diagnostics = g.compile.diagnostics.map (.rename f) := by
    show (g.rename f).findings.map Diagnostic.of = (g.findings.map Diagnostic.of).map (.rename f)
    rw [findings_rename g hf, List.map_map, List.map_map]
    rfl
  -- Whether there are errors decides between steps and none.
  have herrors : ((g.rename f).findings.map Diagnostic.of).any Diagnostic.isError =
      (g.findings.map Diagnostic.of).any Diagnostic.isError := by
    rw [findings_rename g hf, List.any_map, List.any_map, List.any_map]
    exact congrArg (g.findings.any ·) (funext fun _ => Diagnostic.isError_rename f)
  have hentries : (g.rename f).compile.entries = g.compile.entries.map (.rename f) := by
    unfold compile
    simp only [herrors, horder]
    split
    · rfl
    · rw [List.filterMap_map, List.map_filterMap]
      exact congrArg (List.filterMap · g.order) (funext fun id => entry?_rename g hf id)
  have hdeclarations :
      (g.rename f).compile.declarations = g.compile.declarations.map (.rename f) := by
    show (g.rename f).order.flatMap (g.rename f).declarationsAt =
      (g.order.flatMap g.declarationsAt).map (.rename f)
    rw [horder, List.flatMap_map, List.map_flatMap]
    exact congrArg (List.flatMap · g.order) (funext (declarationsAt_rename g hf))
  exact (Compilation.mk.injEq ..).mpr ⟨horder, hentries, hdeclarations, hdiagnostics⟩

end Injective

/-- Two nodes trade their ids and with them their places in the order: what counts is the edge
between them, and not the alphabet. The object introduced at one id is then in scope at the
other. -/
theorem compile_rename_swapped :
    let pay : Node := ⟨"pay", .event EventNode.empty⟩
    let place : Node := ⟨"place", .event { EventNode.empty with
      objectVariables := .ofList [(0, ∅)] compare }⟩
    let g : Graph := ⟨[place, pay], [.link "pay" "place", .link "pay" "nowhere"]⟩
    let trade : String → String := Equiv.swap "pay" "place"
    g.compile.order = ["pay", "place"] ∧
      (g.rename trade).compile.order = ["place", "pay"] ∧
      (g.rename trade).compile.diagnostics = g.compile.diagnostics ∧
      ((g.rename trade).scope "pay").ofKind .object = [0] := by
  intro pay place g trade
  obtain ⟨hcompile, hscope⟩ := compile_rename g (Equiv.swap "pay" "place").injective
  have hplace : (g.scope "place").ofKind .object = [0] := by decide +kernel
  have horder : g.compile.order = ["pay", "place"] := by decide +kernel
  refine ⟨horder, ?_, ?_, ?_⟩
  · rw [hcompile, Compilation.rename, horder]
    decide
  · rw [hcompile]
    decide +kernel
  · rw [← hplace, ← hscope "place"]
    rfl

end Graph
end ConstraintGraph
