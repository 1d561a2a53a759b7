import ConstraintGraph.Json.Reader
import ConstraintGraph.Json.Decode
import ConstraintGraph.Text.Basic

namespace ConstraintGraph

abbrev Positions := Std.ExtTreeMap UInt32 UInt64

structure Binding where
  events : Positions
  objects : Positions
deriving DecidableEq, Inhabited

inductive Violation where
  | tooFewEvents (count : UInt64)
  | tooManyEvents (count : UInt64)
  | noChildOfOr
  | leftChildOfAnd
  | rightChildOfAnd
  | bothChildrenOfAnd
  | childOfNot
  | child
  | constraint (index : UInt64)
  | unknownChildren
deriving DecidableEq, Repr, Inhabited

structure Situation where
  binding : Binding
  violation : Option Violation
deriving DecidableEq, Inhabited

structure NodeResult where
  total : UInt64
  violated : UInt64
  situations : List Situation
deriving DecidableEq, Inhabited

structure Response where
  results : List NodeResult
  eventIds : List String
  objectIds : List String
deriving DecidableEq, Inhabited

inductive IdTable where
  | event
  | object
deriving DecidableEq, Repr, Inhabited

inductive ResponseError where
  | notJson
  | notAnObject
  | noResults
  | badData (fault : DecodeError)
  | inconsistentCounts (node violated total : Nat)
  | bindingOutOfRange (node : Nat) (table : IdTable) (index length : Nat)
deriving DecidableEq, Repr, Inhabited

namespace Positions

def toJson (p : Positions) : Json :=
  .object (p.toList.map fun (v, i) => (toString v.toNat, Json.int i.toNat))

def ofJson : Decoder Positions := Json.asIndexMap Json.asUInt64

end Positions

namespace Binding

def isEmpty (b : Binding) : Bool := b.events.isEmpty && b.objects.isEmpty

def toJson (b : Binding) : Json :=
  .object [("eventMap", b.events.toJson), ("objectMap", b.objects.toJson)]

def ofJson : Decoder Binding := Json.asRecord ["eventMap", "objectMap"] <|
  mk <$> .fieldOr "eventMap" ∅ Positions.ofJson <*> .fieldOr "objectMap" ∅ Positions.ofJson

end Binding

namespace Violation

def display : Violation → String
  | .tooFewEvents n => s!"too few matching events ({n.toNat})"
  | .tooManyEvents n => s!"too many matching events ({n.toNat})"
  | .noChildOfOr => "no child of OR satisfied"
  | .leftChildOfAnd => "left child of AND unsatisfied"
  | .rightChildOfAnd => "right child of AND unsatisfied"
  | .bothChildrenOfAnd => "both children of AND unsatisfied"
  | .childOfNot => "child of NOT satisfied"
  | .child => "child not satisfied"
  | .constraint i => s!"constraint {i.toNat} not satisfied"
  | .unknownChildren => "unknown child set"

def toJson : Violation → Json
  | .tooFewEvents n => .object [("TooFewMatchingEvents", .int n.toNat)]
  | .tooManyEvents n => .object [("TooManyMatchingEvents", .int n.toNat)]
  | .noChildOfOr => .string "NoChildrenOfORSatisfied"
  | .leftChildOfAnd => .string "LeftChildOfANDUnsatisfied"
  | .rightChildOfAnd => .string "RightChildOfANDUnsatisfied"
  | .bothChildrenOfAnd => .string "BothChildrenOfANDUnsatisfied"
  | .childOfNot => .string "ChildrenOfNOTSatisfied"
  | .child => .string "ChildNotSatisfied"
  | .constraint i => .object [("ConstraintNotSatisfied", .int i.toNat)]
  | .unknownChildren => .string "UnknownChildSet"

def ofJson : Decoder Violation := Json.asVariant fun name origin o =>
  let number (reason : UInt64 → Violation) := (Json.asUInt64 origin o).map reason
  let plain (reason : Violation) := (Json.asNothing origin o).map fun _ => reason
  match name with
  | "TooFewMatchingEvents" => number .tooFewEvents
  | "TooManyMatchingEvents" => number .tooManyEvents
  | "NoChildrenOfORSatisfied" => plain .noChildOfOr
  | "LeftChildOfANDUnsatisfied" => plain .leftChildOfAnd
  | "RightChildOfANDUnsatisfied" => plain .rightChildOfAnd
  | "BothChildrenOfANDUnsatisfied" => plain .bothChildrenOfAnd
  | "ChildrenOfNOTSatisfied" => plain .childOfNot
  | "ChildNotSatisfied" => plain .child
  | "ConstraintNotSatisfied" => number .constraint
  | "UnknownChildSet" => plain .unknownChildren
  | _ => .error .mismatch

end Violation

namespace Situation

def toJson (s : Situation) : Json :=
  .array [s.binding.toJson, Json.ofOption Violation.toJson s.violation]

def ofJson : Decoder Situation := fun origin o => do
  let (binding, violation) ← Json.asPair Binding.ofJson (Json.asOption Violation.ofJson) origin o
  return ⟨binding, violation⟩

end Situation

namespace NodeResult

def zero : NodeResult := ⟨0, 0, []⟩

def violations (r : NodeResult) : List (Binding × Violation) :=
  r.situations.filterMap fun s => s.violation.map (s.binding, ·)

def members (r : NodeResult) : List (String × Json) :=
  [("situationCount", .int r.total.toNat), ("situationViolatedCount", .int r.violated.toNat),
    ("situations", .array (r.situations.map Situation.toJson))]

def toJson (r : NodeResult) : Json := .object r.members

def ofJson : Decoder NodeResult :=
  Json.asRecord ["situationCount", "situationViolatedCount", "situations"] <|
    mk <$> .field "situationCount" Json.asUInt64 <*>
      .field "situationViolatedCount" Json.asUInt64 <*>
      .fieldOr "situations" [] (Json.asList Situation.ofJson)

end NodeResult

namespace IdTable

def name : IdTable → String
  | .event => "event"
  | .object => "object"

end IdTable

namespace ResponseError

def message : ResponseError → String
  | .notJson => "invalid response: <detail>"
  | .notAnObject => "invalid response: expected a JSON object"
  | .noResults => "response missing required field: 'evaluationResults'"
  | .badData fault => "invalid response: " ++ fault.message?.getD "<detail>"
  | .inconsistentCounts node violated total =>
    s!"result {node}: {violated} violated of {total} situations"
  | .bindingOutOfRange node table index length =>
    s!"result {node}: {table.name} index {index} out of range (table has {length})"

end ResponseError

namespace Response

def zero (n : Nat) : Response := ⟨List.replicate n .zero, [], []⟩

def toJson (r : Response) : Json :=
  .object [("evaluationResults", .array (r.results.map NodeResult.toJson)),
    ("eventIds", Json.ofStrings r.eventIds), ("objectIds", Json.ofStrings r.objectIds)]

def ofJson : Decoder Response :=
  Json.asRecord ["evaluationResults", "eventIds", "objectIds"] <|
    mk <$> .field "evaluationResults" (Json.asList NodeResult.ofJson) <*>
      .fieldOr "eventIds" [] (Json.asList Json.asString) <*>
      .fieldOr "objectIds" [] (Json.asList Json.asString)

def checkPositions (node : Nat) (table : IdTable) (length : Nat) (p : Positions) :
    Except ResponseError Unit :=
  match p.toList.find? fun (_, i) => length ≤ i.toNat with
  | some (_, i) => .error (.bindingOutOfRange node table i.toNat length)
  | none => .ok ()

def checkResult (r : Response) (node : Nat) (result : NodeResult) : Except ResponseError Unit := do
  if result.total < result.violated then
    .error (.inconsistentCounts node result.violated.toNat result.total.toNat)
  result.situations.forM fun s => do
    -- Of several faults in a table the one of the least variable is reported.
    checkPositions node .event r.eventIds.length s.binding.events
    checkPositions node .object r.objectIds.length s.binding.objects

def validate (r : Response) : Except ResponseError Unit :=
  r.results.zipIdx.forM fun (result, node) => r.checkResult node result

def read (j : Json) : Except ResponseError Response := do
  -- Of a repeated key the last value counts, everywhere.
  let j := j.normalize
  match j with
  | .object _ => pure ()
  | _ => .error .notAnObject
  if (j.get? "evaluationResults").isNone then .error .noResults
  let r ← (Decoder.run ofJson j).mapError .badData
  r.validate
  return r

def ofText (text : String) : Except ResponseError Response :=
  match Json.ofText? text with
  | none => .error .notJson
  | some j => read j

end Response
end ConstraintGraph
