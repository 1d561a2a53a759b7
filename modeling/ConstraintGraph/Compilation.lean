import ConstraintGraph.Dependency.Countdown
import ConstraintGraph.Dependency.PriorityOrder
import ConstraintGraph.Diagnostic
import ConstraintGraph.Plan

/-!
Compilation of a graph: an evaluation order of its nodes, the entries and declarations of a plan,
and diagnostics. A graph compiles to a plan when no diagnostic is an error, that is, when no id is
used twice and the linked edges have no cycle.
-/

namespace ConstraintGraph

structure Compilation where
  order : List String
  entries : List PlanEntry
  declarations : List Declaration
  diagnostics : List Diagnostic
deriving DecidableEq, Inhabited

structure CompileError where
  diagnostics : List Diagnostic
deriving DecidableEq, Inhabited

def CompileError.summary (e : CompileError) : String :=
  String.intercalate "; " ((e.diagnostics.filter Diagnostic.isError).map (·.message))

def CompileError.message (e : CompileError) : String :=
  "invalid requirements: " ++ e.summary

namespace Graph

def distinctNodes (g : Graph) : List Node :=
  g.nodes.foldl (fun kept node => if kept.any (·.id == node.id) then kept else kept ++ [node]) []

def repeatedIds (g : Graph) : List String :=
  (g.nodes.foldl
    (fun (seen, repeated) node =>
      if node.id ∈ seen then (seen, repeated ++ [node.id]) else (node.id :: seen, repeated))
    (([] : List String), ([] : List String))).2

def dependencies (g : Graph) : Dependencies String where
  vertices := g.distinctNodes.map (·.id)
  arcs := g.linkedEdges.map fun e => (e.source, e.target)

def skipReason (e : Edge) : SkipReason :=
  if e.sourceHandle.isNone || e.targetHandle.isNone then .missingHandle
  else if e.data.isNone then .missingData
  else .unknownEndpoint

def skippedEdges (g : Graph) : List Finding :=
  (g.edges.filter fun e => !g.isLinked e).map fun e => .skippedEdge e.id (skipReason e)

def orderFindings (d : Dependencies String) : List Finding :=
  let last := d.emission
  let unreached := last.unreached d
  let blocked := d.blocked
  -- What is never released is named as a cycle, or else what the emission did not reach.
  let cycle := if blocked.isEmpty then unreached else blocked
  (if last.isStuck || !blocked.isEmpty then [.cycle cycle] else []) ++
    (if unreached.isEmpty then [] else [.unreachable unreached])

def mentions (data : EventNode) : List Variable :=
  (data.predicates.flatMap Predicate.mentioned).foldl
    (fun seen v => if v ∈ seen then seen else seen ++ [v]) []

def outOfScope (l : Lineage) (node : Node) : List Finding :=
  match node.event? with
  | none => []
  | some data =>
    let scope := l.scope node.id
    ((mentions data).filter fun v => !scope.contains v).map (.outOfScope node.id)

def findings (g : Graph) : List Finding :=
  g.repeatedIds.map .duplicateNode ++ g.skippedEdges ++ orderFindings g.dependencies ++
    g.distinctNodes.flatMap (outOfScope g.lineage)

def order (g : Graph) : List String :=
  let d := g.dependencies
  d.isolated ++ d.priorityOrder

def neighbor? (g : Graph) (e : Edge) (id : String) : Option Neighbor :=
  e.data.map fun data => ⟨.ofConstraint data, id, (g.node? id).bind (·.label)⟩

def parentsOf (g : Graph) (id : String) : List Neighbor :=
  (g.edges.filter fun e => e.target == id && g.isLinked e).filterMap fun e =>
    g.neighbor? e e.source

def childrenOf (g : Graph) (id : String) : List Neighbor :=
  (g.edges.filter fun e => e.source == id && g.isLinked e).filterMap fun e =>
    g.neighbor? e e.target

def entry? (g : Graph) (l : Lineage) (id : String) : Option PlanEntry := do
  let node ← g.node? id
  let scope := l.scope id
  -- A node with nothing in scope has nothing to evaluate and is no step.
  if scope.isEmpty then none
  else some ⟨id, node.label, g.parentsOf id, g.childrenOf id, scope, .ofNode node⟩

def declarationsOf (node : Node) : List Declaration :=
  match node.event? with
  | none => []
  | some data =>
    VariableKind.all.flatMap fun kind =>
      (data.table kind).toList.map fun (index, types) => ⟨⟨kind, index⟩, types, node.id⟩

def declarationsAt (g : Graph) (id : String) : List Declaration :=
  ((g.node? id).map declarationsOf).getD []

def compile (g : Graph) : Compilation :=
  let order := g.order
  let diagnostics := g.findings.map Diagnostic.of
  { order := order
    -- There are no entries when there is an error, but declarations there are.
    entries :=
      if diagnostics.any Diagnostic.isError then [] else order.filterMap (g.entry? g.lineage)
    declarations := order.flatMap g.declarationsAt
    diagnostics := diagnostics }

end Graph

namespace Compilation

def hasErrors (c : Compilation) : Bool := c.diagnostics.any Diagnostic.isError

def errors (c : Compilation) : List Diagnostic := c.diagnostics.filter Diagnostic.isError

def warnings (c : Compilation) : List Diagnostic := c.diagnostics.filter fun d => !d.isError

def plan (c : Compilation) : Except CompileError Plan :=
  if c.hasErrors then .error ⟨c.diagnostics⟩ else .ok ⟨c.declarations, c.entries⟩

end Compilation

def Graph.plan (g : Graph) : Except CompileError Plan := g.compile.plan

end ConstraintGraph
