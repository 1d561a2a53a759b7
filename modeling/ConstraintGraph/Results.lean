import ConstraintGraph.Plan
import ConstraintGraph.Response

namespace ConstraintGraph

structure LabelledResult where
  node : String
  result : NodeResult
deriving DecidableEq, Inhabited

structure Results where
  results : List LabelledResult
  eventIds : List String
  objectIds : List String
deriving DecidableEq, Inhabited

structure ResolvedBinding where
  events : Std.ExtTreeMap String String
  objects : Std.ExtTreeMap String String
  violation : Option Violation
deriving DecidableEq, Inhabited

def NodeResult.percentage (r : NodeResult) : Binary64 :=
  if r.total = 0 then Binary64.ofInt 0
  else
    let hundred := Binary64.ofInt 100
    let ratio := (Binary64.ofInt r.violated.toNat).div (Binary64.ofInt r.total.toNat)
    -- In percent, rounded to two places.
    ((ratio.mul hundred).mul hundred).round.div hundred

namespace ResolvedBinding

def mapToJson (m : Std.ExtTreeMap String String) : Json :=
  .object (m.toList.map fun (name, id) => (name, .string id))

def toJson (b : ResolvedBinding) : Json :=
  .object [("events", mapToJson b.events), ("objects", mapToJson b.objects),
    ("violation", Json.ofOption Violation.toJson b.violation)]

end ResolvedBinding

namespace Results

def ofResponse (plan : Plan) (r : Response) : Results :=
  -- Where one side is longer the surplus is dropped.
  ⟨List.zipWith LabelledResult.mk plan.nodeIds r.results, r.eventIds, r.objectIds⟩

def get? (v : Results) (id : String) : Option NodeResult :=
  (v.results.find? (·.node == id)).map (·.result)

def checkedAdd? (a b : UInt64) : Option UInt64 :=
  if a.toNat + b.toNat < UInt64.size then some (a + b) else none

/-- The number of violations over all results. Every addition is checked, and there is no total
where one leaves the word. -/
def total? (v : Results) : Option UInt64 :=
  v.results.foldlM (fun sum r => checkedAdd? sum r.result.violated) 0

def summary (v : Results) : String :=
  let totals := v.results.map fun r => toString r.result.total.toNat
  let violated := v.results.map fun r => toString r.result.violated.toNat
  "Situations per step: " ++ String.intercalate ", " totals ++
    "\nViolations per step: " ++ String.intercalate ", " violated

def resolvePositions (kind : VariableKind) (ids : List String) (p : Positions) :
    Std.ExtTreeMap String String :=
  .ofList (p.toList.filterMap fun (v, i) =>
    -- A position past the end is left out.
    ids[i.toNat]?.map fun id => (Variable.display ⟨kind, v⟩, id))

def resolve (v : Results) (b : Binding) (violation : Option Violation) : ResolvedBinding :=
  ⟨resolvePositions .event v.eventIds b.events, resolvePositions .object v.objectIds b.objects,
    violation⟩

def violations (v : Results) (id : String) (limit : Nat) : List ResolvedBinding :=
  match v.get? id with
  | some r => (r.violations.take limit).map fun (b, reason) => v.resolve b (some reason)
  | none => []

def toJson (v : Results) : Json :=
  .object [("results", .array (v.results.map fun r =>
      .object (("nodeId", .string r.node) :: r.result.members))),
    ("eventIds", Json.ofStrings v.eventIds), ("objectIds", Json.ofStrings v.objectIds)]

end Results
end ConstraintGraph
