import ConstraintGraph.Edge
import ConstraintGraph.Node

namespace ConstraintGraph

structure Graph where
  nodes : List Node
  edges : List Edge
deriving DecidableEq, Inhabited

namespace Graph

def empty : Graph := ⟨[], []⟩

def node? (g : Graph) (id : String) : Option Node := g.nodes.find? (·.id == id)

def edge? (g : Graph) (id : String) : Option Edge := g.edges.find? (·.id == id)

def hasNode (g : Graph) (id : String) : Bool := (g.node? id).isSome

def isLinked (g : Graph) (e : Edge) : Bool :=
  e.isComplete && g.hasNode e.source && g.hasNode e.target

def linkedEdges (g : Graph) : List Edge := g.edges.filter g.isLinked

def firstParent? (g : Graph) (id : String) : Option String :=
  (g.edges.find? fun e => e.target == id && g.isLinked e).map (·.source)

/-- A search against the direction of the edges: the ids found so far, and those among them whose
edges have yet to be followed. -/
structure AncestorSearch where
  seen : List String
  stack : List String

def AncestorSearch.visit (s : AncestorSearch) (source : String) : AncestorSearch :=
  if source ∈ s.seen then s else ⟨source :: s.seen, source :: s.stack⟩

def AncestorSearch.step (g : Graph) (s : AncestorSearch) : AncestorSearch :=
  match s.stack with
  | [] => s
  | id :: rest =>
    ((g.edges.filter (·.target == id)).map (·.source)).foldl AncestorSearch.visit ⟨s.seen, rest⟩

def AncestorSearch.run (g : Graph) : Nat → AncestorSearch → AncestorSearch
  | 0, s => s
  | fuel + 1, s => run g fuel (s.step g)

/-- Every id from which `id` is reached by following one edge or more, linked or not. -/
def ancestors (g : Graph) (id : String) : List String :=
  -- Each source comes onto the stack at most once.
  (AncestorSearch.run g (g.edges.length + 1) ⟨[], [id]⟩).seen

def toJson (g : Graph) : Json :=
  .object [("nodes", .array (g.nodes.map Node.toJson)), ("edges", .array (g.edges.map Edge.toJson))]

def ofJson : Decoder Graph := Json.asRecord ["nodes", "edges"] <|
  mk <$> .fieldOr "nodes" [] (Json.asList Node.ofJson) <*>
    .fieldOr "edges" [] (Json.asList Edge.ofJson)

end Graph
end ConstraintGraph
