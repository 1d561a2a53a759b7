import ConstraintGraph.Graph

namespace ConstraintGraph

inductive NodeUpdate where
  | eventType (value : Option String)
  | count (value : Interval)
  | occurrence (value : Option Occurrence)
  | waitingTime (value : Option Interval)
  | qualifiedCount (qualifier : String) (value : Option Interval)
  | addVariable (var : Variable) (types : Std.ExtTreeSet String)
  | removeVariable (var : Variable)
  | filters (value : List Predicate)
  | constraints (value : List Predicate)
  | gateKind (value : GateKind)
deriving DecidableEq, Inhabited

inductive EdgeUpdate where
  | type (value : ConstraintType)
  | time (value : Interval)
  | color (value : String)
deriving DecidableEq, Inhabited

inductive Command where
  | addNode (node : Node)
  | addEdge (edge : Edge)
  | deleteNode (id : String)
  | deleteEdge (id : String)
  | updateNode (id : String) (update : NodeUpdate)
  | updateEdge (id : String) (update : EdgeUpdate)
  | replaceGraph (graph : Graph)
deriving DecidableEq, Inhabited

inductive EditError where
  | duplicateNode (id : String)
  | unknownNode (id : String)
  | duplicateEdge (id : String)
  | unknownEdge (id : String)
  | missingHandle (edge : String)
  | invalidHandle (node handle : String)
  | slotOccupied (node handle : String)
  | wouldCreateCycle (source target : String)
  | notAnEventNode (id : String)
  | notAGate (id : String)
  | incompatibleGate (node : String) (old new : GateKind)
  | duplicateVariable (node : String) (var : Variable)
  | unknownVariable (node : String) (var : Variable)
  | invalidRange (range : Interval)
deriving DecidableEq, Repr, Inhabited

structure ReplayError where
  index : Nat
  error : EditError
deriving DecidableEq, Repr, Inhabited

def EditError.message : EditError → String
  | .duplicateNode id => s!"node '{id}' already exists"
  | .unknownNode id => s!"node '{id}' not found"
  | .duplicateEdge id => s!"edge '{id}' already exists"
  | .unknownEdge id => s!"edge '{id}' not found"
  | .missingHandle id => s!"edge '{id}' needs both a source and a target handle"
  | .invalidHandle node handle => s!"handle '{handle}' does not belong to node '{node}'"
  | .slotOccupied node handle => s!"slot '{handle}' of gate '{node}' is already connected"
  | .wouldCreateCycle source target =>
    s!"invalid connection: loops are forbidden ('{source}' -> '{target}')"
  | .notAnEventNode id => s!"node '{id}' is not an event-type node"
  | .notAGate id => s!"node '{id}' is not a gate"
  | .incompatibleGate node old new =>
    s!"gate '{node}' cannot change from {old.name} to {new.name}"
  | .duplicateVariable node v => s!"{v.display} is already introduced at node '{node}'"
  | .unknownVariable node v => s!"{v.display} is not introduced at node '{node}'"
  | .invalidRange range =>
    s!"invalid range: minimum {range.min.display} exceeds maximum {range.max.display}"

def ReplayError.message (e : ReplayError) : String :=
  s!"command {e.index} rejected: {e.error.message}"

namespace NodeUpdate

def ofJson : Decoder NodeUpdate := Json.asTagged "field" [
  { tag := "eventType", required := ["value"], defaulted := []
    content := eventType <$> .fieldOption "value" Json.asString },
  { tag := "countConstraint", required := ["value"], defaulted := []
    content := count <$> .field "value" (Interval.ofJson .count) },
  { tag := "firstOrLastEventOfType", required := ["value"], defaulted := []
    content := occurrence <$> .fieldOption "value" Occurrence.ofJson },
  { tag := "waitingTimeConstraint", required := ["value"], defaulted := []
    content := waitingTime <$> .fieldOption "value" (Interval.ofJson .seconds) },
  { tag := "qualifiedObjectCount", required := ["qualifier", "value"], defaulted := []
    content := qualifiedCount <$> .field "qualifier" Json.asString <*>
      .fieldOption "value" (Interval.ofJson .count) },
  { tag := "addVariable", required := ["variable"], defaulted := ["types"]
    content := addVariable <$> .field "variable" Variable.ofJson <*>
      .fieldOr "types" ∅ Json.asStringSet },
  { tag := "removeVariable", required := ["variable"], defaulted := []
    content := removeVariable <$> .field "variable" Variable.ofJson },
  { tag := "filters", required := ["value"], defaulted := []
    content := filters <$> .field "value" (Json.asList Predicate.ofJson) },
  { tag := "constraints", required := ["value"], defaulted := []
    content := constraints <$> .field "value" (Json.asList Predicate.ofJson) },
  { tag := "gateKind", required := ["value"], defaulted := []
    content := gateKind <$> .field "value" GateKind.ofJson }]

end NodeUpdate

namespace EdgeUpdate

def ofJson : Decoder EdgeUpdate := Json.asTagged "field" [
  { tag := "constraintType", required := ["value"], defaulted := []
    content := type <$> .field "value" ConstraintType.ofJson },
  { tag := "timeConstraint", required := ["value"], defaulted := []
    content := time <$> .field "value" (Interval.ofJson .seconds) },
  { tag := "color", required := ["value"], defaulted := []
    content := color <$> .field "value" Json.asString }]

end EdgeUpdate

namespace Command

def ofJson : Decoder Command := Json.asTagged "command" [
  { tag := "addNode", required := ["node"], defaulted := []
    content := addNode <$> .field "node" Node.ofJson },
  { tag := "addEdge", required := ["edge"], defaulted := []
    content := addEdge <$> .field "edge" Edge.ofJson },
  { tag := "deleteNode", required := ["id"], defaulted := []
    content := deleteNode <$> .field "id" Json.asString },
  { tag := "deleteEdge", required := ["id"], defaulted := []
    content := deleteEdge <$> .field "id" Json.asString },
  { tag := "updateNode", required := ["id", "update"], defaulted := []
    content := updateNode <$> .field "id" Json.asString <*> .field "update" NodeUpdate.ofJson },
  { tag := "updateEdge", required := ["id", "update"], defaulted := []
    content := updateEdge <$> .field "id" Json.asString <*> .field "update" EdgeUpdate.ofJson },
  { tag := "replaceGraph", required := ["graph"], defaulted := []
    content := replaceGraph <$> .field "graph" Graph.ofJson }]

end Command
end ConstraintGraph
