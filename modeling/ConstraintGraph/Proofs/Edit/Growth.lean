import ConstraintGraph.Proofs.Compilation.OutOfScope
import ConstraintGraph.Proofs.Edit.Fields
import ConstraintGraph.Proofs.Edit.WellBuilt
import Mathlib.Data.List.Find

namespace ConstraintGraph

open Relation

def Command.adds : Command → Bool
  | .addNode _ | .addEdge _ | .updateNode _ (.addVariable _ _) => true
  | _ => false

namespace Node

variable {node node' : Node} {v : Variable} {types : Std.ExtTreeSet String compare}

theorem mem_introduces_iff {kind : VariableKind} {i : UInt32} :
    i ∈ node.introduces kind ↔ ∃ types, node.get (.variable ⟨kind, i⟩) = some (some types) := by
  obtain ⟨id, body⟩ := node
  cases body with
  | gate kind => exact iff_of_false List.not_mem_nil nofun
  | event data =>
    have hentry : i ∈ data.table kind ↔ ∃ types, (data.table kind)[i]? = some types := by
      rw [← Std.ExtTreeMap.isSome_getElem?_iff_mem, Option.isSome_iff_exists]
    exact Std.ExtTreeMap.mem_keys.trans
      (hentry.trans (exists_congr fun _ => Option.some_inj.symm))

theorem introduces_subset_of_addVariable (h : node.update (.addVariable v types) = .ok node')
    (kind : VariableKind) : node.introduces kind ⊆ node'.introduces kind := by
  have hsets := sets_of_update h
  intro i hi
  obtain ⟨old, hold⟩ := mem_introduces_iff.1 hi
  by_cases hv : NodeField.variable ⟨kind, i⟩ = .variable v
  · obtain rfl : ⟨kind, i⟩ = v := NodeField.variable.inj hv
    exact mem_introduces_iff.2 ⟨types, hsets.get_field⟩
  · exact mem_introduces_iff.2 ⟨old, (hsets.get_other _ hv).trans hold⟩

end Node

namespace Graph

variable {g g' : Graph} {c : Command} {id : String} {v : Variable}

/-- First parents are what they were, where there was one, and what a node introduces it still
does. -/
structure Grows (g g' : Graph) : Prop where
  firstParent? : ∀ id parent, g.firstParent? id = some parent → g'.firstParent? id = some parent
  introduces : ∀ id v, g.Introduces id v → g'.Introduces id v

namespace Grows

theorem ascends (h : g.Grows g') {x : String} (hx : g.Ascends id x) : g'.Ascends id x :=
  ReflTransGen.mono h.firstParent? id x hx

/-- Where a graph grows nothing goes out of scope. -/
theorem scope_subset (h : g.Grows g') (id : String) (kind : VariableKind) :
    (g.scope id).ofKind kind ⊆ (g'.scope id).ofKind kind := by
  intro i hi
  obtain ⟨x, hx, hintroduces⟩ := mem_ofKind_scope.1 hi
  exact mem_ofKind_scope.2 ⟨x, h.ascends hx, h.introduces x _ hintroduces⟩

/-- A variable that was in scope where it is mentioned is so still. -/
theorem misses (h : g.Grows g') (hmentioned : g'.mentionedAt id = g.mentionedAt id)
    (hmisses : g'.Misses id v) : g.Misses id v where
  mentions := mem_mentionedAt.1 (hmentioned ▸ mem_mentionedAt.2 hmisses.mentions)
  not_introduced x hx hv := hmisses.not_introduced x (h.ascends hx) (h.introduces x v hv)

/-- Edges that come behind linked ones leave the first parents as they were. -/
theorem of_nodes (hlinked : ∀ e ∈ g.edges, g.isLinked e = true)
    (hnodes : ∀ id x, g.node? id = some x →
      ∃ y, g'.node? id = some y ∧ ∀ kind, x.introduces kind ⊆ y.introduces kind)
    (hedges : g.edges <+: g'.edges) : g.Grows g' where
  firstParent? id parent hparent := by
    have hnode : ∀ id, g.hasNode id = true → g'.hasNode id = true := by
      intro id hid
      obtain ⟨x, hx⟩ := Option.isSome_iff_exists.1 hid
      obtain ⟨y, hy, -⟩ := hnodes id x hx
      exact Option.isSome_iff_exists.2 ⟨y, hy⟩
    -- No old edge becomes linked, since all of them were, so the search finds what it found.
    have hold : g.edges.find? (fun e => e.target == id && g'.isLinked e) =
        g.edges.find? (fun e => e.target == id && g.isLinked e) := by
      refine List.find?_congr fun e he => ?_
      obtain ⟨hcomplete, hsource, htarget⟩ := isLinked_iff.1 (hlinked e he)
      have hstill : g'.isLinked e = true :=
        isLinked_iff.2 ⟨hcomplete, hnode _ hsource, hnode _ htarget⟩
      rw [hlinked e he, hstill]
    obtain ⟨more, hmore⟩ := hedges
    obtain ⟨e, he, hsource⟩ := Option.map_eq_some_iff.1 hparent
    have hfound : g'.edges.find? (fun e => e.target == id && g'.isLinked e) = some e := by
      rw [← hmore, List.find?_append, hold, he, Option.some_or]
    rw [Graph.firstParent?, hfound, Option.map_some, hsource]
  introduces id v hv := by
    obtain ⟨x, hx, hintroduces⟩ := hv
    obtain ⟨y, hy, hsubset⟩ := hnodes id x hx
    exact ⟨y, hy, hsubset v.kind hintroduces⟩

end Grows

/-- What is mentioned at a node is up to its filters and constraints. -/
theorem mentionedAt_eq_of_get {x y : Node} (hx : g.node? id = some x) (hy : g'.node? id = some y)
    (hfilters : y.get .filters = x.get .filters)
    (hconstraints : y.get .constraints = x.get .constraints) :
    g'.mentionedAt id = g.mentionedAt id := by
  rw [mentionedAt, mentionedAt, hx, hy, Option.bind_some, Option.bind_some]
  obtain ⟨_, body⟩ := x
  obtain ⟨_, body'⟩ := y
  cases body with
  | gate kind =>
    cases body' with
    | gate kind' => rfl
    -- A gate has no filters to be the same.
    | event data' => cases hfilters
  | event data =>
    cases body' with
    | gate kind' => cases hfilters
    | event data' =>
      have hfilters : data'.filters = data.filters := Option.some.inj hfilters
      have hconstraints : data'.constraints = data.constraints := Option.some.inj hconstraints
      show (data'.filters ++ data'.constraints).flatMap _ = _
      rw [hfilters, hconstraints]
      rfl

theorem mentionedAt_congr (h : g'.node? id = g.node? id) :
    g'.mentionedAt id = g.mentionedAt id := by
  rw [mentionedAt, mentionedAt, h]

theorem node?_of_addNode {node : Node} (h : g.apply (.addNode node) = .ok g') :
    (∀ id x, g.node? id = some x → g'.node? id = some x) ∧
      ∀ id, id ≠ node.id → g'.node? id = g.node? id := by
  obtain ⟨-, rfl⟩ := apply_addNode h
  have hlookup : ∀ id, Graph.node? { g with nodes := g.nodes ++ [node] } id =
      (g.node? id).or (if node.id == id then some node else none) := by
    intro id
    rw [node?, List.find?_append, List.find?_singleton]
    rfl
  constructor
  · intro id x hx
    rw [hlookup, hx, Option.some_or]
  · intro id hid
    rw [hlookup, if_neg fun heq => hid (beq_iff_eq.1 heq).symm, Option.or_none]

theorem Grows.of_addNode {node : Node} (hlinked : ∀ e ∈ g.edges, g.isLinked e = true)
    (h : g.apply (.addNode node) = .ok g') : g.Grows g' := by
  obtain ⟨hkept, -⟩ := node?_of_addNode h
  obtain ⟨-, rfl⟩ := apply_addNode h
  exact .of_nodes hlinked (fun id x hx => ⟨x, hkept id x hx, fun _ => List.Subset.refl _⟩)
    (List.prefix_refl _)

/-- The new edge is the last one, so first parents that are there stay. -/
theorem Grows.of_addEdge {e : Edge} (hlinked : ∀ e ∈ g.edges, g.isLinked e = true)
    (h : g.apply (.addEdge e) = .ok g') : g.Grows g' := by
  obtain ⟨-, rfl⟩ := apply_addEdge h
  exact .of_nodes hlinked (fun id x hx => ⟨x, hx, fun _ => List.Subset.refl _⟩)
    (List.prefix_append _ _)

section AddVariable

variable {types : Std.ExtTreeSet String compare}

/-- An added variable joins what the node introduces, and nothing leaves. -/
theorem Grows.of_addVariable (hlinked : ∀ e ∈ g.edges, g.isLinked e = true)
    (h : g.apply (.updateNode id (.addVariable v types)) = .ok g') : g.Grows g' := by
  obtain ⟨x, y, hupdate, hx, hy, hother⟩ := node?_of_updateNode h
  obtain ⟨-, hedges⟩ := apply_updateNode_iff.1 h
  refine .of_nodes hlinked (fun other z hz => ?_) (hedges ▸ List.prefix_refl _)
  by_cases hid : other = id
  · subst hid
    obtain rfl : x = z := Option.some.inj (hx.symm.trans hz)
    exact ⟨y, hy, Node.introduces_subset_of_addVariable hupdate⟩
  · exact ⟨z, (hother other hid).trans hz, fun _ => List.Subset.refl _⟩

/-- To add a variable to a node adds no mention of it. -/
theorem mentionedAt_of_addVariable (h : g.apply (.updateNode id (.addVariable v types)) = .ok g')
    (other : String) : g'.mentionedAt other = g.mentionedAt other := by
  obtain ⟨x, y, hupdate, hx, hy, hother⟩ := node?_of_updateNode h
  have hsets := Node.sets_of_update hupdate
  by_cases hid : other = id
  · subst hid
    have hfilters : y.get .filters = x.get .filters :=
      hsets.get_other .filters NodeField.noConfusion
    have hconstraints : y.get .constraints = x.get .constraints :=
      hsets.get_other .constraints NodeField.noConfusion
    exact mentionedAt_eq_of_get hx hy hfilters hconstraints
  · exact mentionedAt_congr (hother other hid)

end AddVariable

/-- An addition to a graph without loose edges makes it grow. -/
theorem grows_of_adds (hlinked : ∀ e ∈ g.edges, g.isLinked e = true) (hc : c.adds = true)
    (h : g.apply c = .ok g') : g.Grows g' := by
  cases c with
  | addNode node => exact .of_addNode hlinked h
  | addEdge e => exact .of_addEdge hlinked h
  | updateNode id u =>
    cases u with
    | addVariable v types => exact .of_addVariable hlinked h
    | _ => cases hc
  | _ => cases hc

/-- What is mentioned at a node that is not new is what was mentioned there before. -/
theorem mentionedAt_of_adds (hc : c.adds = true) (h : g.apply c = .ok g') (id : String) :
    (∃ node, c = .addNode node ∧ id = node.id) ∨ g'.mentionedAt id = g.mentionedAt id := by
  cases c with
  | addNode node =>
    by_cases hid : id = node.id
    · exact Or.inl ⟨node, rfl, hid⟩
    · exact Or.inr (mentionedAt_congr ((node?_of_addNode h).2 id hid))
  | addEdge e =>
    obtain ⟨-, rfl⟩ := apply_addEdge h
    exact Or.inr (mentionedAt_congr rfl)
  | updateNode target u =>
    cases u with
    | addVariable v types => exact Or.inr (mentionedAt_of_addVariable h id)
    | _ => cases hc
  | _ => cases hc

/-- In a graph that commands have built up, an accepted addition of a node, an edge or a variable
takes no variable out of the scope of any node, and what is reported out of scope was so before, or
is mentioned by the new node. -/
theorem scope_grows {commands : List Command} (hcommands : ∀ c ∈ commands, c.replaces = false)
    (hg : g = Graph.empty.afterAll commands) (hc : c.adds = true) (h : g.apply c = .ok g') :
    (∀ id kind, (g.scope id).ofKind kind ⊆ (g'.scope id).ofKind kind) ∧
      ∀ d ∈ g'.compile.diagnostics, ∀ id v, d.finding = .outOfScope id v →
        d ∈ g.compile.diagnostics ∨ ∃ node, c = .addNode node ∧ id = node.id := by
  have hbuilt : g.IsWellBuilt := hg ▸ IsWellBuilt.afterAll hcommands
  have hgrows : g.Grows g' := grows_of_adds hbuilt.linked hc h
  refine ⟨hgrows.scope_subset, fun d hd id v hfinding => ?_⟩
  obtain ⟨f, -, rfl⟩ := List.mem_map.1 hd
  obtain rfl : f = .outOfScope id v := hfinding
  have hmisses : g'.Misses id v := outOfScope_mem_diagnostics.1 hd
  rcases mentionedAt_of_adds hc h id with hnew | hsame
  · exact Or.inr hnew
  · exact Or.inl (outOfScope_mem_diagnostics.2 (hgrows.misses hsame hmisses))

/-- A variable is added at the first parent of a node that mentions it. The object variable that was
in scope stays, and nothing is reported that was not before. -/
theorem scope_grows_addVariable :
    let introducing : EventNode :=
      { EventNode.empty with objectVariables := .ofList [(0, ∅)] compare }
    let mentioning : EventNode := { EventNode.empty with filters := [.eventObject 1 0 none] }
    let commands : List Command := [.addNode ⟨"pay", .event introducing⟩,
      .addNode ⟨"ship", .event mentioning⟩, .addEdge (.link "pay" "ship")]
    let g := Graph.empty.afterAll commands
    let c : Command := .updateNode "pay" (.addVariable (.event 1) ∅)
    let g' := g.after c
    g.apply c = .ok g' ∧ (g.scope "ship").ofKind .object = [0] ∧
      0 ∈ (g'.scope "ship").ofKind .object ∧
      ∀ id v, .of (.outOfScope id v) ∈ g'.compile.diagnostics →
        .of (.outOfScope id v) ∈ g.compile.diagnostics := by
  intro introducing mentioning commands g c g'
  have hcommands : ∀ c ∈ commands, c.replaces = false := by simp [commands, Command.replaces]
  have happly : g.apply c = .ok g' := by decide +kernel
  have hscope : (g.scope "ship").ofKind .object = [0] := by decide +kernel
  have hold : 0 ∈ (g.scope "ship").ofKind .object := hscope ▸ List.mem_singleton.2 rfl
  obtain ⟨hsubset, hreported⟩ := scope_grows hcommands (rfl : g = _) (rfl : c.adds = true) happly
  refine ⟨happly, hscope, hsubset "ship" .object hold, fun id v hd => ?_⟩
  rcases hreported _ hd id v rfl with hbefore | ⟨node, hnode, -⟩
  · exact hbefore
  · -- No node is added here that could be the new one.
    simp [c] at hnode

end Graph
end ConstraintGraph
