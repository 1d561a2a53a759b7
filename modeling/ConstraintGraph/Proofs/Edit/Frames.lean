import ConstraintGraph.Proofs.Edit.Fields

namespace ConstraintGraph

namespace Graph

/-- The second graph is the first one after the command: nothing is different but what the command
names. -/
def Changes (g : Graph) (c : Command) (g' : Graph) : Prop :=
  match c with
  | .addNode node => g'.nodes = g.nodes ++ [node] ∧ g'.edges = g.edges
  | .addEdge e => g'.nodes = g.nodes ∧ ∃ stored, g'.edges = g.edges ++ [stored] ∧
      (e.data ≠ none → stored = e) ∧ (e.data = none → stored = { e with data := some .standard })
  | .deleteNode id => g'.nodes = g.nodes.filter (·.id ≠ id) ∧
      g'.edges = g.edges.filter fun e => e.source ≠ id ∧ e.target ≠ id
  | .deleteEdge id => g'.nodes = g.nodes ∧ g'.edges = g.edges.filter (·.id ≠ id)
  | .updateNode id u => ReplacesFirst (·.id = id) (·.Sets u ·) g.nodes g'.nodes ∧ g'.edges = g.edges
  | .updateEdge id u => g'.nodes = g.nodes ∧ ReplacesFirst (·.id = id) (·.Sets u ·) g.edges g'.edges
  | .replaceGraph graph => g' = graph

variable {g g' : Graph} {c : Command} {e : Edge} {id : String}

theorem changes_addEdge (h : g.apply (.addEdge e) = .ok g') : g.Changes (.addEdge e) g' := by
  obtain ⟨-, rfl⟩ := apply_addEdge h
  refine ⟨rfl, _, rfl, fun hdata => ?_, fun hdata => ?_⟩
  · obtain ⟨data, hdata⟩ := Option.ne_none_iff_exists'.1 hdata
    rw [Edge.constraint_eq hdata, ← hdata]
  · rw [Edge.constraint, hdata]
    rfl

theorem changes_deleteNode (h : g.apply (.deleteNode id) = .ok g') :
    g.Changes (.deleteNode id) g' := by
  obtain rfl := apply_deleteNode h
  constructor
  · exact List.filter_congr fun node _ => Bool.eq_iff_iff.2 (by simp)
  · exact List.filter_congr fun e _ => Bool.eq_iff_iff.2 (by simp)

theorem changes_deleteEdge (h : g.apply (.deleteEdge id) = .ok g') :
    g.Changes (.deleteEdge id) g' := by
  obtain rfl := apply_deleteEdge h
  exact ⟨rfl, List.filter_congr fun e _ => Bool.eq_iff_iff.2 (by simp)⟩

theorem changes_updateNode {u : NodeUpdate} (h : g.apply (.updateNode id u) = .ok g') :
    g.Changes (.updateNode id u) g' := by
  obtain ⟨hnodes, hedges⟩ := apply_updateNode_iff.1 h
  exact ⟨hnodes.imp (fun _ => Iff.rfl) fun _ _ hupdate => Node.sets_of_update hupdate, hedges⟩

theorem changes_updateEdge {u : EdgeUpdate} (h : g.apply (.updateEdge id u) = .ok g') :
    g.Changes (.updateEdge id u) g' := by
  obtain ⟨edges, hedges, rfl⟩ := apply_updateEdge h
  have hfirst := updateFirst_eq_ok_iff.1 hedges
  exact ⟨rfl, hfirst.imp (fun _ => beq_iff_eq) fun _ _ hupdate => Edge.sets_of_update hupdate⟩

/-- An accepted command changes in a graph what it names and leaves all else equal and in order, and
a refused one changes nothing. -/
theorem changes_of_apply (g : Graph) (c : Command) :
    (∀ g', g.apply c = .ok g' → g.Changes c g') ∧ ∀ e, g.apply c = .error e → g.after c = g := by
  constructor
  · intro g' h
    cases c with
    | addNode node =>
      obtain ⟨-, rfl⟩ := apply_addNode h
      exact ⟨rfl, rfl⟩
    | addEdge e => exact changes_addEdge h
    | deleteNode id => exact changes_deleteNode h
    | deleteEdge id => exact changes_deleteEdge h
    | updateNode id u => exact changes_updateNode h
    | updateEdge id u => exact changes_updateEdge h
    | replaceGraph graph => exact (Except.ok.inj h).symm
  · intro e h
    rw [after, h]

/-- Of two nodes with one id the first loses its only qualified count, and with it the table. -/
theorem changes_of_apply_drop :
    let counted : Node := ⟨"pay", .event { EventNode.empty with
      qualifiedCounts := some (.ofList [("items", .anyCount)] compare) }⟩
    let g : Graph := ⟨[counted, counted], []⟩
    let g' : Graph := ⟨[⟨"pay", .event EventNode.empty⟩, counted], []⟩
    let c : Command := .updateNode "pay" (.qualifiedCount "items" none)
    g.apply c = .ok g' ∧ g.Changes c g' := by
  intro counted g g' c
  have happly : g.apply c = .ok g' := by decide +kernel
  exact ⟨happly, (changes_of_apply g c).1 g' happly⟩

end Graph
end ConstraintGraph
