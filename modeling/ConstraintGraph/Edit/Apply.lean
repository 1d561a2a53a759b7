import ConstraintGraph.Edit.Command

namespace ConstraintGraph

def updateFirst {α ε : Type} (p : α → Bool) (absent : ε) (f : α → Except ε α) :
    List α → Except ε (List α)
  | [] => .error absent
  | x :: xs =>
    if p x then (f x).map (· :: xs) else (updateFirst p absent f xs).map (x :: ·)

def Interval.check (r : Interval) : Except EditError Unit :=
  if r.IsWellFormed then .ok () else .error (.invalidRange r)

def EventNode.update (node : EventNode) (id : String) : NodeUpdate → Except EditError EventNode
  | .eventType value => .ok { node with eventType := value }
  | .count value => value.check.map fun _ => { node with count := value }
  | .occurrence value => .ok { node with occurrence := value }
  | .waitingTime none => .ok { node with waitingTime := none }
  | .waitingTime (some window) => window.check.map fun _ => { node with waitingTime := some window }
  | .qualifiedCount qualifier (some range) =>
    range.check.map fun _ =>
      { node with qualifiedCounts := some ((node.qualifiedCounts.getD ∅).insert qualifier range) }
  | .qualifiedCount qualifier none =>
    match node.qualifiedCounts with
    | none => .ok node
    | some counts =>
      -- The table goes with its last count.
      let left := counts.erase qualifier
      .ok { node with qualifiedCounts := if left.isEmpty then none else some left }
  | .addVariable v types =>
    if (node.table v.kind).contains v.index then .error (.duplicateVariable id v)
    else .ok (node.withTable v.kind ((node.table v.kind).insert v.index types))
  | .removeVariable v =>
    if (node.table v.kind).contains v.index then
      .ok (node.withTable v.kind ((node.table v.kind).erase v.index))
    else .error (.unknownVariable id v)
  | .filters value => .ok { node with filters := value }
  | .constraints value => .ok { node with constraints := value }
  | .gateKind _ => .error (.notAGate id)

def Node.update (node : Node) (update : NodeUpdate) : Except EditError Node :=
  match node.body, update with
  | .gate old, .gateKind new =>
    -- Edges are attached to the slots, which have to stay.
    if old.canBecome new then .ok { node with body := .gate new }
    else .error (.incompatibleGate node.id old new)
  | .gate _, _ => .error (.notAnEventNode node.id)
  | .event data, update =>
    (data.update node.id update).map fun data => { node with body := .event data }

def Edge.update (e : Edge) : EdgeUpdate → Except EditError Edge
  -- Data that are missing are the standard ones first.
  | .type value => .ok { e with data := some { e.constraint with type := value } }
  | .time value =>
    value.check.map fun _ => { e with data := some { e.constraint with time := value } }
  | .color value => .ok { e with data := some { e.constraint with color := value } }

namespace Graph

def hasDuplicate (g : Graph) (e : Edge) (sourceHandle targetHandle : String) : Bool :=
  g.edges.any fun f => f.id == e.id ||
    (f.sourceHandle == some sourceHandle && f.targetHandle == some targetHandle)

def closesCycle (g : Graph) (source target : String) : Bool :=
  -- Edges count here whether or not they carry a dependency.
  source == target || target ∈ g.ancestors source

def checkConnection (g : Graph) (e : Edge) : Except EditError Unit := do
  let source ← (g.node? e.source).elim (.error (.unknownNode e.source)) .ok
  let target ← (g.node? e.target).elim (.error (.unknownNode e.target)) .ok
  match e.sourceHandle, e.targetHandle with
  | some sourceHandle, some targetHandle =>
    if sourceHandle ∉ source.sourceHandles then
      .error (.invalidHandle source.id sourceHandle)
    else if targetHandle ≠ target.targetHandle then
      .error (.invalidHandle target.id targetHandle)
    else if g.hasDuplicate e sourceHandle targetHandle then .error (.duplicateEdge e.id)
    else if g.closesCycle e.source e.target then .error (.wouldCreateCycle e.source e.target)
    -- A slot is known by the name of its handle alone.
    else if source.isGate && g.edges.any (·.sourceHandle == some sourceHandle) then
      .error (.slotOccupied source.id sourceHandle)
    else if target.isGate && g.edges.any (·.target == target.id) then
      .error (.slotOccupied target.id targetHandle)
    else .ok ()
  | _, _ => .error (.missingHandle e.id)

def apply (g : Graph) : Command → Except EditError Graph
  | .addNode node =>
    if g.hasNode node.id then .error (.duplicateNode node.id)
    else .ok { g with nodes := g.nodes ++ [node] }
  | .addEdge e => do
    g.checkConnection e
    return { g with edges := g.edges ++ [{ e with data := some e.constraint }] }
  | .deleteNode id =>
    if g.hasNode id then
      .ok ⟨g.nodes.filter (·.id != id), g.edges.filter fun e => e.source != id && e.target != id⟩
    else .error (.unknownNode id)
  | .deleteEdge id =>
    if (g.edge? id).isSome then .ok { g with edges := g.edges.filter (·.id != id) }
    else .error (.unknownEdge id)
  | .updateNode id update => do
    let nodes ← updateFirst (·.id == id) (.unknownNode id) (·.update update) g.nodes
    return { g with nodes := nodes }
  | .updateEdge id update => do
    let edges ← updateFirst (·.id == id) (.unknownEdge id) (·.update update) g.edges
    return { g with edges := edges }
  | .replaceGraph graph => .ok graph

def replayFrom (index : Nat) (g : Graph) : List Command → Except ReplayError Graph
  | [] => .ok g
  | c :: cs =>
    match g.apply c with
    | .ok g => replayFrom (index + 1) g cs
    | .error e => .error ⟨index, e⟩

def replay (g : Graph) (commands : List Command) : Except ReplayError Graph :=
  g.replayFrom 0 commands

end Graph
end ConstraintGraph
