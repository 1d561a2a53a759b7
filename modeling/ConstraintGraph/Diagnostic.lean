import ConstraintGraph.Variable

namespace ConstraintGraph

inductive Severity where
  | error
  | warning
deriving DecidableEq, Repr, Inhabited

inductive SkipReason where
  | missingHandle
  | missingData
  | unknownEndpoint
deriving DecidableEq, Repr, Inhabited

inductive Finding where
  | cycle (nodes : List String)
  | unreachable (nodes : List String)
  | duplicateNode (node : String)
  | skippedEdge (edge : String) (reason : SkipReason)
  | outOfScope (node : String) (var : Variable)
deriving DecidableEq, Repr, Inhabited

structure Diagnostic where
  severity : Severity
  finding : Finding
  message : String
deriving DecidableEq, Repr, Inhabited

namespace Severity

def name : Severity → String
  | .error => "error"
  | .warning => "warning"

def ofJson : Decoder Severity := Json.asEnum [("error", .error), ("warning", .warning)]

end Severity

namespace SkipReason

def name : SkipReason → String
  | .missingHandle => "missing_handle"
  | .missingData => "missing_data"
  | .unknownEndpoint => "unknown_endpoint"

def description : SkipReason → String
  | .missingHandle => "no source or target handle"
  | .missingData => "no constraint data"
  | .unknownEndpoint => "an endpoint is not a node of the graph"

def ofJson : Decoder SkipReason :=
  Json.asEnum [("missing_handle", .missingHandle), ("missing_data", .missingData),
    ("unknown_endpoint", .unknownEndpoint)]

end SkipReason

namespace Finding

def severity : Finding → Severity
  | .cycle _ => .error
  | .unreachable _ => .error
  | .duplicateNode _ => .error
  | .skippedEdge _ _ => .warning
  | .outOfScope _ _ => .warning

def message : Finding → String
  | .cycle nodes =>
    "invalid requirements: cycle detected involving " ++ String.intercalate ", " nodes
  | .unreachable nodes => "nodes not reachable from root: " ++ String.intercalate ", " nodes
  | .duplicateNode node => s!"node id '{node}' is used more than once"
  | .skippedEdge edge reason => s!"edge '{edge}' ignored: {reason.description}"
  | .outOfScope node v => s!"node '{node}' references {v.display}, which is not in scope there"

def members : Finding → List (String × Json)
  | .cycle nodes => [("kind", .string "cycle_detected"), ("node_ids", Json.ofStrings nodes)]
  | .unreachable nodes =>
    [("kind", .string "unreachable_nodes"), ("node_ids", Json.ofStrings nodes)]
  | .duplicateNode node => [("kind", .string "duplicate_node"), ("node_id", .string node)]
  | .skippedEdge edge reason =>
    [("kind", .string "skipped_edge"), ("edge_id", .string edge), ("reason", .string reason.name)]
  | .outOfScope node v =>
    [("kind", .string "out_of_scope_variable"), ("node_id", .string node), ("variable", v.toJson)]

def ofRecord (r : Json.Record) : Except DecodeError Finding :=
  r.alternative "kind" [
    { tag := "cycle_detected", required := [], defaulted := []
      content := cycle <$> .field "node_ids" (Json.asList Json.asString) },
    { tag := "unreachable_nodes", required := [], defaulted := []
      content := unreachable <$> .field "node_ids" (Json.asList Json.asString) },
    { tag := "duplicate_node", required := [], defaulted := []
      content := duplicateNode <$> .field "node_id" Json.asString },
    { tag := "skipped_edge", required := [], defaulted := []
      content := skippedEdge <$> .field "edge_id" Json.asString <*>
        .field "reason" SkipReason.ofJson },
    { tag := "out_of_scope_variable", required := [], defaulted := []
      content := outOfScope <$> .field "node_id" Json.asString <*>
        .field "variable" Variable.ofJson }]

end Finding

namespace Diagnostic

def of (finding : Finding) : Diagnostic := ⟨finding.severity, finding, finding.message⟩

def isError (d : Diagnostic) : Bool := d.severity == .error

def display (d : Diagnostic) : String := s!"{d.severity.name}: {d.message}"

def toJson (d : Diagnostic) : Json :=
  .object (("severity", .string d.severity.name) :: d.finding.members ++
    [("message", .string d.message)])

def ofJson : Decoder Diagnostic := fun origin o => do
  let (severity, message, rest) ← Json.asObject
    ((·, ·, ·) <$> .field "severity" Severity.ofJson <*> .field "message" Json.asString <*>
      .others ["severity", "message"]) origin o
  return ⟨severity, ← Finding.ofRecord rest, message⟩

end Diagnostic
end ConstraintGraph
