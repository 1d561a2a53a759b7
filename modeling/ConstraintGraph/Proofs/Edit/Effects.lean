import ConstraintGraph.Edit.Apply

namespace ConstraintGraph

def Command.replaces : Command → Bool
  | .replaceGraph _ => true
  | _ => false

theorem ite_error_eq_ok_iff {α ε : Type} {c : Prop} [Decidable c] {e : ε} {r : Except ε α} {a : α} :
    (if c then .error e else r) = .ok a ↔ ¬ c ∧ r = .ok a := by
  by_cases h : c <;> simp [h]

/-- The second list is the first one with another element, related to the one that was there, in the
place of the first element that has the property. -/
def ReplacesFirst {α : Type} (p : α → Prop) (r : α → α → Prop) (xs ys : List α) : Prop :=
  ∃ before x y rest, xs = before ++ x :: rest ∧ (∀ z ∈ before, ¬ p z) ∧ p x ∧ r x y ∧
    ys = before ++ y :: rest

theorem ReplacesFirst.imp {α : Type} {p q : α → Prop} {r r' : α → α → Prop} {xs ys : List α}
    (h : ReplacesFirst p r xs ys) (hp : ∀ x, p x ↔ q x) (hr : ∀ x y, r x y → r' x y) :
    ReplacesFirst q r' xs ys := by
  obtain ⟨before, x, y, rest, hxs, hbefore, hx, hxy, hys⟩ := h
  exact ⟨before, x, y, rest, hxs, fun z hz hq => hbefore z hz ((hp z).2 hq), (hp x).1 hx,
    hr x y hxy, hys⟩

/-- What was replaced can be put back, if the element in its place has the property as well. -/
theorem ReplacesFirst.symm {α : Type} {p : α → Prop} {r : α → α → Prop} {xs ys : List α}
    (h : ReplacesFirst p r xs ys) (hp : ∀ x y, r x y → p x → p y) :
    ReplacesFirst p (fun y x => r x y) ys xs := by
  obtain ⟨before, x, y, rest, hxs, hbefore, hx, hxy, hys⟩ := h
  exact ⟨before, y, x, rest, hys, hbefore, hp x y hxy hx, hxy, hxs⟩

section UpdateFirst

variable {α β ε : Type} {p : α → Bool} {absent : ε} {f : α → Except ε α}

/-- An update succeeds exactly by replacing the first element that it is for. -/
theorem updateFirst_eq_ok_iff {xs ys : List α} :
    updateFirst p absent f xs = .ok ys ↔ ReplacesFirst (p · = true) (f · = .ok ·) xs ys := by
  constructor
  · intro h
    induction xs generalizing ys with
    | nil => cases h
    | cons x xs ih =>
      rw [updateFirst] at h
      by_cases hp : p x = true
      · rw [if_pos hp] at h
        cases hx : f x with
        | error e => simp [hx, Except.map] at h
        | ok y =>
          simp only [hx, Except.map, Except.ok.injEq] at h
          exact ⟨[], x, y, xs, rfl, nofun, hp, hx, h.symm⟩
      · rw [if_neg hp] at h
        cases hxs : updateFirst p absent f xs with
        | error e => simp [hxs, Except.map] at h
        | ok zs =>
          simp only [hxs, Except.map, Except.ok.injEq] at h
          -- The element is not meant and joins those before the one that is.
          obtain ⟨before, x', y, rest, rfl, hbefore, hx', hy, rfl⟩ := ih hxs
          exact ⟨x :: before, x', y, rest, rfl, List.forall_mem_cons.2 ⟨hp, hbefore⟩, hx', hy,
            h.symm⟩
  · rintro ⟨before, x, y, rest, rfl, hbefore, hx, hy, rfl⟩
    induction before with
    | nil => rw [List.nil_append, updateFirst, if_pos hx, hy]; rfl
    | cons z before ih =>
      obtain ⟨hz, hbefore⟩ := List.forall_mem_cons.1 hbefore
      rw [List.cons_append, updateFirst, if_neg hz, ih hbefore]
      rfl

theorem mem_updateFirst {xs ys : List α} (h : updateFirst p absent f xs = .ok ys) {y : α}
    (hy : y ∈ ys) : y ∈ xs ∨ ∃ x ∈ xs, f x = .ok y := by
  obtain ⟨before, x, y', rest, rfl, -, -, hx, rfl⟩ := updateFirst_eq_ok_iff.1 h
  rcases List.mem_append.1 hy with hy | hy
  · exact Or.inl (List.mem_append_left _ hy)
  · rcases List.mem_cons.1 hy with rfl | hy
    · exact Or.inr ⟨x, List.mem_append_right _ List.mem_cons_self, hx⟩
    · exact Or.inl (List.mem_append_right _ (List.mem_cons_of_mem _ hy))

/-- What an update keeps of the element is kept of the list. -/
theorem map_updateFirst {φ : α → β} (hφ : ∀ x y, f x = .ok y → φ y = φ x) {xs ys : List α}
    (h : updateFirst p absent f xs = .ok ys) : ys.map φ = xs.map φ := by
  obtain ⟨before, x, y, rest, rfl, -, -, hx, rfl⟩ := updateFirst_eq_ok_iff.1 h
  rw [List.map_append, List.map_append, List.map_cons, List.map_cons, hφ x y hx]

end UpdateFirst

theorem GateKind.slots_eq_of_canBecome {a b : GateKind} (h : a.canBecome b = true) :
    b.slots = a.slots := by
  cases a <;> cases b <;> simp_all [canBecome, slots]

/-- An update keeps the id of a node, its being a gate, and its slots. -/
theorem Node.update_eq_ok {node node' : Node} {u : NodeUpdate} (h : node.update u = .ok node') :
    node'.id = node.id ∧ node'.isGate = node.isGate ∧ node'.slots = node.slots := by
  obtain ⟨id, body⟩ := node
  cases body with
  | gate kind =>
    cases u with
    | gateKind new =>
      -- A gate becomes only one with the same slots.
      simp only [Node.update] at h
      split at h
      · rename_i hk
        cases h
        exact ⟨rfl, rfl, GateKind.slots_eq_of_canBecome hk⟩
      · simp at h
    | _ => simp [Node.update] at h
  | event data =>
    cases hdata : data.update id u with
    | error e => simp [Node.update, hdata, Except.map] at h
    | ok data' =>
      simp only [Node.update, hdata, Except.map, Except.ok.injEq] at h
      subst h
      exact ⟨rfl, rfl, rfl⟩

theorem Edge.update_eq_ok {e e' : Edge} {u : EdgeUpdate} (h : e.update u = .ok e') :
    ∃ data, e' = { e with data := some data } := by
  cases u with
  | type value => exact ⟨_, (Except.ok.inj h).symm⟩
  | color value => exact ⟨_, (Except.ok.inj h).symm⟩
  | time value =>
    cases hcheck : value.check with
    | error err => simp [Edge.update, hcheck, Except.map] at h
    | ok =>
      simp only [Edge.update, hcheck, Except.map, Except.ok.injEq] at h
      exact ⟨_, h.symm⟩

namespace Graph

variable {g g' : Graph}

theorem apply_addNode {node : Node} (h : g.apply (.addNode node) = .ok g') :
    g.hasNode node.id = false ∧ g' = { g with nodes := g.nodes ++ [node] } := by
  obtain ⟨hnot, hok⟩ := ite_error_eq_ok_iff.1 h
  exact ⟨by simpa using hnot, (Except.ok.inj hok).symm⟩

/-- A new edge has passed the check, and standard data are filled in. -/
theorem apply_addEdge {e : Edge} (h : g.apply (.addEdge e) = .ok g') :
    g.checkConnection e = .ok () ∧
      g' = { g with edges := g.edges ++ [{ e with data := some e.constraint }] } := by
  cases hcheck : g.checkConnection e with
  | error err => simp [apply, hcheck, bind, Except.bind] at h
  | ok =>
    simp only [apply, hcheck, bind, Except.bind, pure, Except.pure, Except.ok.injEq] at h
    exact ⟨rfl, h.symm⟩

/-- With a node go the edges at it. -/
theorem apply_deleteNode {id : String} (h : g.apply (.deleteNode id) = .ok g') :
    g' = ⟨g.nodes.filter (·.id != id),
      g.edges.filter fun e => e.source != id && e.target != id⟩ := by
  simp only [apply] at h
  split at h
  · exact (Except.ok.inj h).symm
  · simp at h

theorem apply_deleteEdge {id : String} (h : g.apply (.deleteEdge id) = .ok g') :
    g' = { g with edges := g.edges.filter (·.id != id) } := by
  simp only [apply] at h
  split at h
  · exact (Except.ok.inj h).symm
  · simp at h

theorem apply_updateNode {id : String} {u : NodeUpdate}
    (h : g.apply (.updateNode id u) = .ok g') :
    ∃ nodes, updateFirst (·.id == id) (.unknownNode id) (·.update u) g.nodes = .ok nodes ∧
      g' = { g with nodes := nodes } := by
  cases hnodes : updateFirst (·.id == id) (.unknownNode id) (·.update u) g.nodes with
  | error err => simp [apply, hnodes, bind, Except.bind] at h
  | ok nodes =>
    simp only [apply, hnodes, bind, Except.bind, pure, Except.pure, Except.ok.injEq] at h
    exact ⟨nodes, rfl, h.symm⟩

theorem apply_updateNode_iff {id : String} {u : NodeUpdate} :
    g.apply (.updateNode id u) = .ok g' ↔
      ReplacesFirst (·.id = id) (·.update u = .ok ·) g.nodes g'.nodes ∧ g'.edges = g.edges := by
  have hid : ∀ node : Node, (node.id == id) = true ↔ node.id = id := fun _ => beq_iff_eq
  constructor
  · intro h
    obtain ⟨nodes, hnodes, rfl⟩ := apply_updateNode h
    exact ⟨(updateFirst_eq_ok_iff.1 hnodes).imp hid fun _ _ hupdate => hupdate, rfl⟩
  · rintro ⟨hnodes, hedges⟩
    have hfirst : updateFirst (·.id == id) (.unknownNode id) (·.update u) g.nodes = .ok g'.nodes :=
      updateFirst_eq_ok_iff.2 (hnodes.imp (fun node => (hid node).symm) fun _ _ hupdate => hupdate)
    simp only [apply, hfirst, bind, Except.bind, pure, Except.pure, ← hedges]

/-- An update changes what is found under its id, and nothing else that is found. -/
theorem node?_of_updateNode {id : String} {u : NodeUpdate}
    (h : g.apply (.updateNode id u) = .ok g') :
    ∃ x y, x.update u = .ok y ∧ g.node? id = some x ∧ g'.node? id = some y ∧
      ∀ other, other ≠ id → g'.node? other = g.node? other := by
  obtain ⟨⟨before, x, y, rest, hxs, hbefore, hx, hupdate, hys⟩, -⟩ := apply_updateNode_iff.1 h
  have hy : y.id = id := (Node.update_eq_ok hupdate).1.trans hx
  -- The update meets the first node of the id, as the look-up does.
  have hfirst : ∀ z : Node, z.id = id →
      (before ++ z :: rest).find? (·.id == id) = some z := fun z hz =>
    List.find?_eq_some_iff_append.2 ⟨beq_iff_eq.2 hz, before, rest, rfl, by simpa using hbefore⟩
  refine ⟨x, y, hupdate, ?_, ?_, fun other hother => ?_⟩
  · rw [node?, hxs, hfirst x hx]
  · rw [node?, hys, hfirst y hy]
  · have hskip : ∀ z : Node, z.id = id → (z :: rest).find? (·.id == other) =
        rest.find? (·.id == other) := fun z hz =>
      List.find?_cons_of_neg (by simpa [hz] using hother.symm)
    rw [node?, node?, hxs, hys, List.find?_append, List.find?_append, hskip x hx, hskip y hy]

theorem apply_updateEdge {id : String} {u : EdgeUpdate}
    (h : g.apply (.updateEdge id u) = .ok g') :
    ∃ edges, updateFirst (·.id == id) (.unknownEdge id) (·.update u) g.edges = .ok edges ∧
      g' = { g with edges := edges } := by
  cases hedges : updateFirst (·.id == id) (.unknownEdge id) (·.update u) g.edges with
  | error err => simp [apply, hedges, bind, Except.bind] at h
  | ok edges =>
    simp only [apply, hedges, bind, Except.bind, pure, Except.pure, Except.ok.injEq] at h
    exact ⟨edges, rfl, h.symm⟩

/-- The conditions of the connection check on an edge, its end nodes and its handles. -/
structure Admits (g : Graph) (e : Edge) (source target : Node)
    (sourceHandle targetHandle : String) : Prop where
  source_eq : g.node? e.source = some source
  target_eq : g.node? e.target = some target
  sourceHandle_eq : e.sourceHandle = some sourceHandle
  targetHandle_eq : e.targetHandle = some targetHandle
  sourceHandle_mem : sourceHandle ∈ source.sourceHandles
  targetHandle_own : targetHandle = target.targetHandle
  fresh : g.hasDuplicate e sourceHandle targetHandle = false
  acyclic : g.closesCycle e.source e.target = false
  slot_free : source.isGate = true → ∀ f ∈ g.edges, f.sourceHandle ≠ some sourceHandle
  entry_free : target.isGate = true → ∀ f ∈ g.edges, f.target ≠ target.id

/-- The check passes exactly if its conditions hold for the nodes and handles that the edge names.
-/
theorem checkConnection_eq_ok_iff {e : Edge} :
    g.checkConnection e = .ok () ↔
      ∃ source target sourceHandle targetHandle,
        g.Admits e source target sourceHandle targetHandle := by
  unfold checkConnection
  constructor
  · intro h
    cases hs : g.node? e.source with
    | none => simp [hs, bind, Except.bind] at h
    | some source =>
      cases ht : g.node? e.target with
      | none => simp [hs, ht, bind, Except.bind] at h
      | some target =>
        simp only [hs, ht, Option.elim_some, bind, Except.bind] at h
        split at h
        · rename_i sourceHandle targetHandle hsh hth
          -- From here on the check is a row of conditions.
          simp only [ite_error_eq_ok_iff] at h
          obtain ⟨hmem, hown, hfresh, hacyclic, hslot, hentry, -⟩ := h
          exact ⟨source, target, sourceHandle, targetHandle, hs, ht, hsh, hth,
            Decidable.not_not.1 hmem, Decidable.not_not.1 hown, by simpa using hfresh,
            by simpa using hacyclic, by simpa using hslot, by simpa using hentry⟩
        · simp at h
  · rintro ⟨source, target, sourceHandle, targetHandle, h⟩
    simp only [h.source_eq, h.target_eq, h.sourceHandle_eq, h.targetHandle_eq, Option.elim_some,
      bind, Except.bind, ite_error_eq_ok_iff]
    exact ⟨Decidable.not_not.2 h.sourceHandle_mem, Decidable.not_not.2 h.targetHandle_own,
      by simp [h.fresh], by simp [h.acyclic], by simpa using h.slot_free,
      by simpa using h.entry_free, trivial⟩

def after (g : Graph) (c : Command) : Graph :=
  match g.apply c with
  | .ok g' => g'
  | .error _ => g

def afterAll (g : Graph) (commands : List Command) : Graph := commands.foldl after g

/-- What accepted commands keep of a graph, a run of commands keeps whether they are accepted or
refused. -/
theorem afterAll_induction {P : Graph → Prop}
    (hstep : ∀ g c g', c.replaces = false → P g → g.apply c = .ok g' → P g') (h : P g)
    {commands : List Command} (hcommands : ∀ c ∈ commands, c.replaces = false) :
    P (g.afterAll commands) := by
  induction commands generalizing g with
  | nil => exact h
  | cons c commands ih =>
    have hafter : P (g.after c) := by
      unfold after
      split
      · rename_i g' hok
        exact hstep g c g' (hcommands c (.head _)) h hok
      · exact h
    exact ih hafter fun c' hc' => hcommands c' (.tail _ hc')

end Graph
end ConstraintGraph
