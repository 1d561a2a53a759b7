import ConstraintGraph.Graph

/-!
The variables in scope at a node: those introduced on its chain of first parents, the node
included. The chain ends at a node without a linked parent, at an id that is no node, or before it
would come back to a node that it has passed.

The chains of a graph share links, so every node is put beside its first parent once, in the
lineage of the graph. The main statement `descent?_lineage` says that the lineage and the graph
answer the same.
-/

namespace ConstraintGraph

structure Scope where
  event : List UInt32
  object : List UInt32
deriving DecidableEq, Repr, Inhabited

structure Descent where
  node : Node
  firstParent? : Option String

/-- Nodes with their first parents. Of several nodes with one id the first counts. -/
abbrev Lineage := List Descent

namespace Lineage

def descent? (l : Lineage) (id : String) : Option Descent := l.find? (·.node.id == id)

def chainFrom (l : Lineage) : Nat → List String → String → List Node
  | 0, _, _ => []
  | fuel + 1, visited, id =>
    if id ∈ visited then []
    else
      match l.descent? id with
      | none => []
      | some ⟨node, none⟩ => [node]
      | some ⟨node, some parent⟩ => node :: chainFrom l fuel (id :: visited) parent

/-- The node `id`, its first parent, the first parent of that one, and so on, each once. -/
def chain (l : Lineage) (id : String) : List Node := l.chainFrom l.length [] id

end Lineage

def introducedBy (nodes : List Node) (kind : VariableKind) : List UInt32 :=
  (Std.ExtTreeSet.ofList (nodes.flatMap (·.introduces kind))).toList

def Lineage.scope (l : Lineage) (id : String) : Scope :=
  let chain := l.chain id
  ⟨introducedBy chain .event, introducedBy chain .object⟩

namespace Graph

def lineage (g : Graph) : Lineage := g.nodes.map fun node => ⟨node, g.firstParent? node.id⟩

def chain (g : Graph) (id : String) : List Node := g.lineage.chain id

def scope (g : Graph) (id : String) : Scope := g.lineage.scope id

/-- The lineage of a graph agrees with its look-ups. -/
theorem descent?_lineage (g : Graph) (id : String) :
    g.lineage.descent? id = (g.node? id).map fun node => ⟨node, g.firstParent? id⟩ := by
  unfold lineage Lineage.descent? node?
  rw [List.find?_map, Function.comp_def]
  cases h : g.nodes.find? (·.id == id) with
  | none => rfl
  | some node =>
    have hid : node.id = id := by simpa using List.find?_some h
    simp [hid]

end Graph

namespace Scope

def isEmpty (s : Scope) : Bool := s.event.isEmpty && s.object.isEmpty

def ofKind (s : Scope) : VariableKind → List UInt32
  | .event => s.event
  | .object => s.object

def contains (s : Scope) (v : Variable) : Bool := (s.ofKind v.kind).contains v.index

def toList (s : Scope) : List Variable := s.event.map .event ++ s.object.map .object

def toJson (s : Scope) : Json :=
  .object [("event", .array (s.event.map fun i => .int i.toNat)),
    ("object", .array (s.object.map fun i => .int i.toNat))]

def ofJson : Decoder Scope := Json.asRecord ["event", "object"] <|
  mk <$> .field "event" (Json.asList Json.asUInt32) <*>
    .field "object" (Json.asList Json.asUInt32)

end Scope
end ConstraintGraph
