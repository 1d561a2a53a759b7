import ConstraintGraph.Interval
import ConstraintGraph.Predicate

namespace ConstraintGraph

inductive Occurrence where
  | first
  | last
deriving DecidableEq, Repr, Inhabited

inductive GateKind where
  | and
  | or
  | not
deriving DecidableEq, Repr, Inhabited

structure EventNode where
  eventType : Option String
  eventVariables : VariableTable
  objectVariables : VariableTable
  count : Interval
  occurrence : Option Occurrence
  waitingTime : Option Interval
  qualifiedCounts : Option (Std.ExtTreeMap String Interval)
  filters : List Predicate
  constraints : List Predicate
deriving DecidableEq, Inhabited

inductive NodeBody where
  | event (node : EventNode)
  | gate (kind : GateKind)
deriving DecidableEq, Inhabited

structure Node where
  id : String
  body : NodeBody
deriving DecidableEq, Inhabited

namespace Occurrence

def name : Occurrence → String
  | .first => "first"
  | .last => "last"

def toJson (o : Occurrence) : Json := .string o.name

def ofJson : Decoder Occurrence := Json.asEnum [("first", .first), ("last", .last)]

end Occurrence

namespace GateKind

def name : GateKind → String
  | .and => "and"
  | .or => "or"
  | .not => "not"

def toJson (k : GateKind) : Json := .string k.name

def ofJson : Decoder GateKind := Json.asEnum [("and", .and), ("or", .or), ("not", .not)]

def slots : GateKind → List String
  | .not => ["source"]
  | .and => ["left-source", "right-source"]
  | .or => ["left-source", "right-source"]

def canBecome (a b : GateKind) : Bool := a.slots.length == b.slots.length

end GateKind

namespace EventNode

def empty : EventNode where
  eventType := none
  eventVariables := ∅
  objectVariables := ∅
  count := .anyCount
  occurrence := none
  waitingTime := none
  qualifiedCounts := none
  filters := []
  constraints := []

def table (node : EventNode) : VariableKind → VariableTable
  | .event => node.eventVariables
  | .object => node.objectVariables

def withTable (node : EventNode) (kind : VariableKind) (table : VariableTable) : EventNode :=
  match kind with
  | .event => { node with eventVariables := table }
  | .object => { node with objectVariables := table }

def predicates (node : EventNode) : List Predicate := node.filters ++ node.constraints

def qualifiedCountsToJson (counts : Std.ExtTreeMap String Interval) : Json :=
  .object (counts.toList.map fun (qualifier, range) => (qualifier, range.toJson .count))

def members (node : EventNode) : List (String × Json) :=
  (node.eventType.map fun t => ("eventType", Json.string t)).toList ++
  [("newEventVars", node.eventVariables.toJson),
    ("newObjectVars", node.objectVariables.toJson),
    ("countConstraint", node.count.toJson .count)] ++
  (node.occurrence.map fun o => ("firstOrLastEventOfType", o.toJson)).toList ++
  (node.waitingTime.map fun w => ("waitingTimeConstraint", w.toJson .seconds)).toList ++
  (node.qualifiedCounts.map fun c =>
    ("numQualifiedObjectsConstraint", qualifiedCountsToJson c)).toList ++
  [("filters", .array (node.filters.map Predicate.toJson)),
    ("constraints", .array (node.constraints.map Predicate.toJson))]

def part : Json.Part EventNode :=
  mk <$> .fieldOption "eventType" Json.asString <*>
    .fieldOr "newEventVars" ∅ VariableTable.ofJson <*>
    .fieldOr "newObjectVars" ∅ VariableTable.ofJson <*>
    .fieldOr "countConstraint" .anyCount (Interval.ofJson .count) <*>
    .fieldOption "firstOrLastEventOfType" Occurrence.ofJson <*>
    .fieldOption "waitingTimeConstraint" (Interval.ofJson .seconds) <*>
    .fieldOption "numQualifiedObjectsConstraint" (Json.asStringMap (Interval.ofJson .count)) <*>
    .fieldOr "filters" [] (Json.asList Predicate.ofJson) <*>
    .fieldOr "constraints" [] (Json.asList Predicate.ofJson)

end EventNode

namespace Node

def event? (node : Node) : Option EventNode :=
  match node.body with
  | .event data => some data
  | .gate _ => none

def isGate (node : Node) : Bool :=
  match node.body with
  | .event _ => false
  | .gate _ => true

def label (node : Node) : Option String := node.event?.bind (·.eventType)

def targetHandle (node : Node) : String := node.id ++ "-target"

def slots (node : Node) : List String :=
  match node.body with
  | .event _ => ["source"]
  | .gate kind => kind.slots

def sourceHandles (node : Node) : List String :=
  node.slots.map fun slot => node.id ++ "-" ++ slot

def introduces (node : Node) (kind : VariableKind) : List UInt32 :=
  match node.event? with
  | some data => (data.table kind).indices
  | none => []

def toJson (node : Node) : Json :=
  match node.body with
  | .event data =>
    .object (("id", .string node.id) :: ("type", .string "eventType") :: data.members)
  | .gate kind =>
    .object [("id", .string node.id), ("type", .string "gate"), ("gate", kind.toJson)]

def ofJson : Decoder Node := fun origin o => do
  let (id, rest) ←
    Json.asObject (Prod.mk <$> .field "id" Json.asString <*> .others ["id"]) origin o
  let body ← rest.alternative "type" [
    { tag := "eventType", required := [], defaulted := []
      content := NodeBody.event <$> EventNode.part },
    { tag := "gate", required := [], defaulted := []
      content := NodeBody.gate <$> .field "gate" GateKind.ofJson }]
  return ⟨id, body⟩

end Node
end ConstraintGraph
