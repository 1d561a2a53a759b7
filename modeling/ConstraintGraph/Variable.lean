import ConstraintGraph.Json.Decode
import ConstraintGraph.Text.Basic

namespace ConstraintGraph

inductive VariableKind where
  | event
  | object
deriving DecidableEq, Repr, Inhabited

structure Variable where
  kind : VariableKind
  index : UInt32
deriving DecidableEq, Repr, Inhabited

namespace VariableKind

def all : List VariableKind := [.event, .object]

def name : VariableKind → String
  | .event => "event"
  | .object => "object"

def stem : VariableKind → String
  | .event => "ev"
  | .object => "ob"

def ofText? : String → Option VariableKind
  | "event" => some .event
  | "ev" => some .event
  | "object" => some .object
  | "ob" => some .object
  | _ => none

def unknownMessage (text : String) : String :=
  s!"unknown variable kind '{text}'"

end VariableKind

namespace Variable

def event (index : UInt32) : Variable := ⟨.event, index⟩

def object (index : UInt32) : Variable := ⟨.object, index⟩

def display (v : Variable) : String :=
  s!"{v.kind.stem}_{v.index.toNat}"

def toJson (v : Variable) : Json :=
  match v.kind with
  | .event => .object [("Event", .int v.index.toNat)]
  | .object => .object [("Object", .int v.index.toNat)]

def ofJson : Decoder Variable := Json.asVariant fun name origin index =>
  match name with
  | "Event" => (Json.asUInt32 origin index).map event
  | "Object" => (Json.asUInt32 origin index).map object
  | _ => .error .mismatch

end Variable

abbrev VariableTable := Std.ExtTreeMap UInt32 (Std.ExtTreeSet String)

namespace VariableTable

def indices (table : VariableTable) : List UInt32 := table.keys

def toJson (table : VariableTable) : Json :=
  .object (table.toList.map fun (index, types) =>
    (toString index.toNat, Json.ofStrings types.toList))

def index? (key : String) : Option UInt32 := Text.uint32? (Text.trim key)

def ofJson : Decoder VariableTable := fun origin o => do
  let table ← Json.asStringMap Json.asStringSet origin o
  -- Keys are taken in the order of their texts. The first one that is no index is the fault, and of
  -- several that denote one index the last one has its types taken.
  let entries ← table.toList.mapM fun (key, types) =>
    match index? key with
    | some index => .ok (index, types)
    | none => .error (.variableIndex key)
  return .ofList entries

end VariableTable
end ConstraintGraph
