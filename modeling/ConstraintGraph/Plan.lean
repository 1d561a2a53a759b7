import ConstraintGraph.Scope

namespace ConstraintGraph

structure Connection where
  type : ConstraintType
  time : WireInterval
deriving DecidableEq, Repr, Inhabited

structure Neighbor where
  connection : Connection
  id : String
  eventType : Option String
deriving DecidableEq, Repr, Inhabited

structure EventConstraints where
  count : WireInterval
  occurrence : Option Occurrence
  waitingTime : Option WireInterval
  qualifiedCounts : Option (Std.ExtTreeMap String WireInterval)
  filters : List Predicate
  constraints : List Predicate
deriving DecidableEq, Inhabited

inductive NodeConstraints where
  | event (constraints : EventConstraints)
  | gate (kind : GateKind)
deriving DecidableEq, Inhabited

structure PlanEntry where
  id : String
  eventType : Option String
  parents : List Neighbor
  children : List Neighbor
  scope : Scope
  constraints : NodeConstraints
deriving DecidableEq, Inhabited

structure Declaration where
  var : Variable
  types : Std.ExtTreeSet String
  node : String
deriving DecidableEq, Inhabited

structure Plan where
  declarations : List Declaration
  entries : List PlanEntry
deriving DecidableEq, Inhabited

namespace Connection

def ofConstraint (data : EdgeConstraint) : Connection := ⟨data.type, data.time.toWire⟩

def toJson (c : Connection) : Json :=
  .object [("type", c.type.toJson), ("timeConstraint", c.time.toJson .seconds)]

def ofJson : Decoder Connection := Json.asRecord ["type", "timeConstraint"] <|
  mk <$> .field "type" ConstraintType.ofJson <*>
    .field "timeConstraint" (WireInterval.ofJson .seconds)

end Connection

def eventTypeMember (eventType : Option String) : List (String × Json) :=
  (eventType.map fun t => ("eventType", Json.string t)).toList

namespace Neighbor

def toJson (n : Neighbor) : Json :=
  .object ([("connection", n.connection.toJson), ("id", .string n.id)] ++
    eventTypeMember n.eventType)

def ofJson : Decoder Neighbor := Json.asRecord ["connection", "id", "eventType"] <|
  mk <$> .field "connection" Connection.ofJson <*> .field "id" Json.asString <*>
    .fieldOption "eventType" Json.asString

end Neighbor

namespace EventConstraints

def ofNode (node : EventNode) : EventConstraints where
  count := node.count.toWire
  occurrence := node.occurrence
  waitingTime := node.waitingTime.map Interval.toWire
  qualifiedCounts := node.qualifiedCounts.map fun counts => counts.map fun _ range => range.toWire
  filters := node.filters
  constraints := node.constraints

def members (c : EventConstraints) : List (String × Json) :=
  [("countConstraint", c.count.toJson .count)] ++
  (c.occurrence.map fun o => ("firstOrLastEventOfType", o.toJson)).toList ++
  (c.waitingTime.map fun w => ("waitingTimeConstraint", w.toJson .seconds)).toList ++
  (c.qualifiedCounts.map fun counts => ("numQualifiedObjectsConstraint",
    Json.object (counts.toList.map fun (q, range) => (q, range.toJson .count)))).toList ++
  [("filters", .array (c.filters.map Predicate.toJson)),
    ("constraints", .array (c.constraints.map Predicate.toJson))]

def part : Json.Part EventConstraints :=
  mk <$> .field "countConstraint" (WireInterval.ofJson .count) <*>
    .fieldOption "firstOrLastEventOfType" Occurrence.ofJson <*>
    .fieldOption "waitingTimeConstraint" (WireInterval.ofJson .seconds) <*>
    .fieldOption "numQualifiedObjectsConstraint"
      (Json.asStringMap (WireInterval.ofJson .count)) <*>
    .fieldOr "filters" [] (Json.asList Predicate.ofJson) <*>
    .fieldOr "constraints" [] (Json.asList Predicate.ofJson)

end EventConstraints

namespace NodeConstraints

def ofNode (node : Node) : NodeConstraints :=
  match node.body with
  | .event data => .event (.ofNode data)
  | .gate kind => .gate kind

def members : NodeConstraints → List (String × Json)
  | .event c => ("nodeType", .string "eventType") :: c.members
  | .gate kind => [("nodeType", .string "gate"), ("gateType", kind.toJson)]

def ofRecord (r : Json.Record) : Except DecodeError NodeConstraints :=
  r.alternative "nodeType" [
    { tag := "eventType", required := [], defaulted := []
      content := event <$> EventConstraints.part },
    { tag := "gate", required := [], defaulted := []
      content := gate <$> .field "gateType" GateKind.ofJson }]

def toJson (c : NodeConstraints) : Json := .object c.members

end NodeConstraints

namespace PlanEntry

def toJson (e : PlanEntry) : Json :=
  .object ([("id", Json.string e.id)] ++ eventTypeMember e.eventType ++
    [("parents", .array (e.parents.map Neighbor.toJson)),
      ("children", .array (e.children.map Neighbor.toJson)),
      ("variables", e.scope.toJson)] ++ e.constraints.members)

def ownPart : Json.Part ((NodeConstraints → PlanEntry) × Json.Record) :=
  (fun id eventType parents children scope rest =>
      (mk id eventType parents children scope, rest)) <$>
    .field "id" Json.asString <*> .fieldOption "eventType" Json.asString <*>
    .field "parents" (Json.asList Neighbor.ofJson) <*>
    .field "children" (Json.asList Neighbor.ofJson) <*> .field "variables" Scope.ofJson <*>
    .others ["id", "eventType", "parents", "children", "variables"]

def ofJson : Decoder PlanEntry := fun origin o => do
  let (entry, rest) ← Json.asObject ownPart origin o
  return entry (← NodeConstraints.ofRecord rest)

end PlanEntry

namespace Declaration

def toJson (d : Declaration) : Json :=
  .object [("variable", d.var.toJson), ("types", Json.ofStrings d.types.toList),
    ("nodeId", .string d.node)]

def ofJson : Decoder Declaration := Json.asRecord ["variable", "types", "nodeId"] <|
  mk <$> .field "variable" Variable.ofJson <*> .field "types" Json.asStringSet <*>
    .field "nodeId" Json.asString

end Declaration

namespace Plan

def length (p : Plan) : Nat := p.entries.length

def isEmpty (p : Plan) : Bool := p.entries.isEmpty

def nodeIds (p : Plan) : List String := p.entries.map (·.id)

def toJson (p : Plan) : Json :=
  .object [("variables", .array (p.declarations.map Declaration.toJson)),
    ("nodesOrder", .array (p.entries.map PlanEntry.toJson))]

def ofJson : Decoder Plan := Json.asRecord ["variables", "nodesOrder"] <|
  mk <$> .field "variables" (Json.asList Declaration.ofJson) <*>
    .field "nodesOrder" (Json.asList PlanEntry.ofJson)

end Plan
end ConstraintGraph
