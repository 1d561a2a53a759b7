import ConstraintGraph.Proofs.Edit.Attempts
import ConstraintGraph.Proofs.Edit.Fields

namespace ConstraintGraph

namespace EventNode

variable {data data' : EventNode} {u : NodeUpdate}

/-- The verdict on an update depends on the field that it addresses. -/
theorem verdict_update_congr (hget : data'.get u.field = data.get u.field) (id : String) :
    verdict (data'.update id u) = verdict (data.update id u) := by
  have hcontains : ∀ v : Variable, data'.get (.variable v) = data.get (.variable v) →
      (data'.table v.kind).contains v.index = (data.table v.kind).contains v.index := by
    intro v hv
    have hentry : (data'.table v.kind)[v.index]? = (data.table v.kind)[v.index]? :=
      Option.some.inj hv
    rw [Std.ExtTreeMap.contains_eq_isSome_getElem?, Std.ExtTreeMap.contains_eq_isSome_getElem?,
      hentry]
  cases u with
  | eventType value | occurrence value | filters value | constraints value => rfl
  | gateKind value => rfl
  | count value => exact verdict_map_eq_map _ _
  | waitingTime value =>
    cases value with
    | none => rfl
    | some window => exact verdict_map_eq_map _ _
  | qualifiedCount qualifier value =>
    cases value with
    | some range => exact verdict_map_eq_map _ _
    | none =>
      -- A drop is never refused.
      have haccepted : ∀ node : EventNode,
          verdict (node.update id (.qualifiedCount qualifier none)) = .ok () := by
        intro node
        simp only [update]
        split <;> rfl
      rw [haccepted, haccepted]
  | addVariable v types =>
    simp only [update, hcontains v hget]
    split <;> rfl
  | removeVariable v =>
    simp only [update, hcontains v hget]
    split <;> rfl

end EventNode

namespace Node

variable {node node' y y' z z' : Node} {u u' : NodeUpdate}

/-- Whether an update is accepted depends only on the id of the node and on the field it is for. -/
theorem verdict_update_congr (hid : node'.id = node.id)
    (hget : node'.get u.field = node.get u.field) :
    verdict (node'.update u) = verdict (node.update u) := by
  obtain ⟨id, body⟩ := node
  obtain ⟨id', body'⟩ := node'
  obtain rfl : id' = id := hid
  cases body with
  | event data =>
    cases body' with
    | event data' =>
      calc verdict (update ⟨id', .event data'⟩ u)
        _ = verdict (data'.update id' u) := verdict_map _
        _ = verdict (data.update id' u) := EventNode.verdict_update_congr hget id'
        _ = verdict (update ⟨id', .event data⟩ u) := (verdict_map _).symm
    -- What an update is for is in nodes of one sort only.
    | gate kind' => cases u <;> cases hget
  | gate kind =>
    cases body' with
    | event data' => cases u <;> cases hget
    | gate kind' =>
      cases u with
      | gateKind new =>
        obtain rfl : kind' = kind := Option.some.inj hget
        rfl
      | _ => rfl

theorem id_attempt (u : NodeUpdate) (node : Node) :
    (attempt (fun n : Node => n.update u) node).id = node.id :=
  attempt_keeps (φ := Node.id) fun _ h => (update_eq_ok h).1

theorem verdict_update_after (hfield : u.field ≠ u'.field) (node : Node) :
    verdict ((attempt (fun n : Node => n.update u') node).update u) = verdict (node.update u) := by
  apply verdict_update_congr (id_attempt u' node)
  exact attempt_keeps (φ := fun n : Node => n.get u.field) fun _ h =>
    (sets_of_update h).get_other u.field hfield

def IsUncounted (node : Node) : Prop :=
  ∀ qualifier range, node.get (.qualifiedCount qualifier) ≠ some (some range)

/-- Without a table no count is set. -/
theorem isUncounted_of_counts? (h : node.counts? = none) : node.IsUncounted := by
  intro qualifier range hget
  obtain ⟨id, body⟩ := node
  cases body with
  | gate kind => cases hget
  | event data =>
    have hnone : data.qualifiedCounts = none := h
    have hentry : data.qualifiedCounts.bind (·[qualifier]?) = some range := Option.some.inj hget
    rw [hnone] at hentry
    cases hentry

theorem IsUncounted.get_eq (h : node.IsUncounted) (hcounts : node.counts? ≠ none)
    (qualifier : String) : node.get (.qualifiedCount qualifier) = some none := by
  obtain ⟨id, body⟩ := node
  cases body with
  | gate kind => exact absurd rfl hcounts
  | event data =>
    cases hentry : data.qualifiedCounts.bind (·[qualifier]?) with
    | none => exact congrArg some hentry
    | some range => exact absurd (congrArg some hentry) (h qualifier range)

/-- There is no table of qualified counts after an update if no qualifier is counted and there was
none before or the update is a drop. -/
theorem Sets.counts?_eq_none_iff_isUncounted (h : node.Sets u node') :
    node'.counts? = none ↔ node'.IsUncounted ∧
      (node.counts? = none ∨ ∃ qualifier, u = .qualifiedCount qualifier none) := by
  constructor
  · intro hnone
    refine ⟨isUncounted_of_counts? hnone, ?_⟩
    -- A table that goes was dropped with its last count.
    by_cases hcounts : node.counts? = none
    · exact Or.inl hcounts
    · exact Or.inr ((h.counts_gone hcounts).1 hnone).1
  · rintro ⟨huncounted, hcause⟩
    by_contra hsome
    by_cases hcounts : node.counts? = none
    · obtain ⟨qualifier, range, rfl⟩ := (h.counts_new hcounts).1 hsome
      exact huncounted qualifier range h.get_field
    · have hdrop : ∃ qualifier, u = .qualifiedCount qualifier none := hcause.resolve_left hcounts
      exact hsome ((h.counts_gone hcounts).2 ⟨hdrop, huncounted.get_eq hsome⟩)

/-- After two updates there is no table of qualified counts exactly if no count is left, and there
was no table before or one of the two dropped a count. Their order does not matter. -/
theorem Sets.counts?_eq_none_iff_of_two (h : node.Sets u y) (h' : y.Sets u' z) :
    z.counts? = none ↔ z.IsUncounted ∧
      (node.counts? = none ∨ (∃ qualifier, u = .qualifiedCount qualifier none) ∨
        ∃ qualifier, u' = .qualifiedCount qualifier none) := by
  rw [h'.counts?_eq_none_iff_isUncounted, h.counts?_eq_none_iff_isUncounted]
  constructor
  · rintro ⟨huncounted, ⟨-, hcounts | hdrop⟩ | hdrop'⟩
    · exact ⟨huncounted, Or.inl hcounts⟩
    · exact ⟨huncounted, Or.inr (Or.inl hdrop)⟩
    · exact ⟨huncounted, Or.inr (Or.inr hdrop')⟩
  · rintro ⟨huncounted, hcause⟩
    refine ⟨huncounted, ?_⟩
    by_cases hdrop' : ∃ qualifier, u' = .qualifiedCount qualifier none
    · exact Or.inr hdrop'
    · -- The second update takes no count away, so none was there before it.
      have hbetween : y.IsUncounted := by
        intro qualifier range hget
        by_cases hfield : NodeField.qualifiedCount qualifier = u'.field
        · cases u' with
          | qualifiedCount other value =>
            cases value with
            | none => exact hdrop' ⟨other, rfl⟩
            | some range' => exact huncounted other range' h'.get_field
          | _ => cases hfield
        · exact huncounted qualifier range ((h'.get_other _ hfield).trans hget)
      refine Or.inl ⟨hbetween, ?_⟩
      rcases hcause with hcounts | hdrop | hother
      · exact Or.inl hcounts
      · exact Or.inr hdrop
      · exact absurd hother hdrop'

/-- What two updates of different fields leave has the same in all fields in either order. -/
theorem Sets.comm (hfield : u.field ≠ u'.field) (hy : node.Sets u y) (hz : y.Sets u' z)
    (hy' : node.Sets u' y') (hz' : y'.Sets u z') : z = z' := by
  have hid : z.id = z'.id :=
    calc z.id
      _ = node.id := hz.id_eq.trans hy.id_eq
      _ = z'.id := (hz'.id_eq.trans hy'.id_eq).symm
  have hget : ∀ f, z.get f = z'.get f := by
    intro f
    by_cases hf : f = u.field
    · subst hf
      calc z.get u.field
        _ = y.get u.field := hz.get_other _ hfield
        _ = some u.value := hy.get_field
        _ = z'.get u.field := hz'.get_field.symm
    · by_cases hf' : f = u'.field
      · subst hf'
        calc z.get u'.field
          _ = some u'.value := hz.get_field
          _ = y'.get u'.field := hy'.get_field.symm
          _ = z'.get u'.field := (hz'.get_other _ hfield.symm).symm
      · calc z.get f
          _ = y.get f := hz.get_other f hf'
          _ = node.get f := hy.get_other f hf
          _ = y'.get f := (hy'.get_other f hf').symm
          _ = z'.get f := (hz'.get_other f hf).symm
  -- The fields do not say whether there is an empty table of qualified counts or none.
  have huncounted : z.IsUncounted ↔ z'.IsUncounted := by
    unfold IsUncounted
    simp only [hget]
  have hcounts : z.counts? = none ↔ z'.counts? = none := by
    rw [hy.counts?_eq_none_iff_of_two hz, hy'.counts?_eq_none_iff_of_two hz', huncounted]
    tauto
  exact eq_of_get hid hget hcounts

/-- Updates of different fields of a node can be interchanged. -/
theorem update_interchange (hfield : u.field ≠ u'.field) (node : Node) :
    Interchange (fun n : Node => n.update u) (fun n => n.update u') node := by
  apply Interchange.of_accepted (verdict_update_after hfield node)
    (verdict_update_after hfield.symm node)
  intro y y' z z' hy hy' hz hz'
  exact Sets.comm hfield (sets_of_update hy) (sets_of_update hz) (sets_of_update hy')
    (sets_of_update hz')

end Node

theorem EdgeConstraint.eq_of_get {data data' : EdgeConstraint}
    (hget : ∀ f, data'.get f = data.get f) : data' = data := by
  have htype : data'.type = data.type := hget .type
  have htime : data'.time = data.time := hget .time
  have hcolor : data'.color = data.color := hget .color
  cases data
  cases data'
  rw [EdgeConstraint.mk.injEq]
  exact ⟨htype, htime, hcolor⟩

namespace Edge

variable {e y y' z z' : Edge} {u u' : EdgeUpdate}

/-- The verdict on an update of an edge does not depend on the edge. -/
theorem verdict_update_eq (u : EdgeUpdate) (e e' : Edge) :
    verdict (e'.update u) = verdict (e.update u) := by
  cases u with
  | type value | color value => rfl
  | time value => exact verdict_map_eq_map _ _

theorem id_attempt (u : EdgeUpdate) (e : Edge) :
    (attempt (fun e : Edge => e.update u) e).id = e.id := by
  refine attempt_keeps (φ := Edge.id) fun e' h => ?_
  obtain ⟨data, rfl⟩ := update_eq_ok h
  rfl

theorem Sets.comm (hfield : u.field ≠ u'.field) (hy : e.Sets u y) (hz : y.Sets u' z)
    (hy' : e.Sets u' y') (hz' : y'.Sets u z') : z = z' := by
  obtain ⟨data, rfl, hdata, hother⟩ := hy
  obtain ⟨last, rfl, hlast, hlastOther⟩ := hz
  obtain ⟨data', rfl, hdata', hother'⟩ := hy'
  obtain ⟨last', rfl, hlast', hlastOther'⟩ := hz'
  have hsame : last = last' := by
    apply EdgeConstraint.eq_of_get
    intro f
    by_cases hf : f = u.field
    · subst hf
      exact ((hlastOther _ hfield).trans hdata).trans hlast'.symm
    · by_cases hf' : f = u'.field
      · subst hf'
        exact hlast.trans ((hlastOther' _ hfield.symm).trans hdata').symm
      · calc last.get f
          _ = data.get f := hlastOther f hf'
          _ = e.constraint.get f := hother f hf
          _ = data'.get f := (hother' f hf').symm
          _ = last'.get f := (hlastOther' f hf).symm
  rw [hsame]

/-- Updates of different fields of an edge can be interchanged, also if it has no data yet. -/
theorem update_interchange (hfield : u.field ≠ u'.field) (e : Edge) :
    Interchange (fun e : Edge => e.update u) (fun e => e.update u') e := by
  apply Interchange.of_accepted (verdict_update_eq u _ _) (verdict_update_eq u' _ _)
  intro y y' z z' hy hy' hz hz'
  exact Sets.comm hfield (sets_of_update hy) (sets_of_update hz) (sets_of_update hy')
    (sets_of_update hz')

end Edge

/-- What an update addresses: a field of a node or of the data of an edge. -/
inductive UpdateTarget where
  | node (id : String) (field : NodeField)
  | edge (id : String) (field : EdgeField)
deriving DecidableEq

def Command.target? : Command → Option UpdateTarget
  | .updateNode id u => some (.node id u.field)
  | .updateEdge id u => some (.edge id u.field)
  | _ => none

namespace Graph

variable {g : Graph} {c d : Command} {s t : UpdateTarget}

theorem after_eq_attempt (g : Graph) (c : Command) :
    g.after c = attempt (fun g : Graph => g.apply c) g := by
  rw [after, attempt]
  cases g.apply c <;> rfl

theorem apply_updateNode_eq (nodes : List Node) (edges : List Edge) (id : String) (u : NodeUpdate) :
    apply ⟨nodes, edges⟩ (.updateNode id u) =
      (updateFirst (·.id == id) (.unknownNode id) (·.update u) nodes).map (⟨·, edges⟩) :=
  rfl

theorem apply_updateEdge_eq (nodes : List Node) (edges : List Edge) (id : String) (u : EdgeUpdate) :
    apply ⟨nodes, edges⟩ (.updateEdge id u) =
      (updateFirst (·.id == id) (.unknownEdge id) (·.update u) edges).map (⟨nodes, ·⟩) :=
  rfl

/-- Two updates of nodes can be interchanged unless they address one field of one node. -/
theorem updateNode_interchange {id id' : String} {u u' : NodeUpdate}
    (hne : id = id' → u.field ≠ u'.field) (g : Graph) :
    Interchange (fun g : Graph => g.apply (.updateNode id u))
      (fun g => g.apply (.updateNode id' u')) g := by
  obtain ⟨nodes, edges⟩ := g
  apply Interchange.whole (ι := fun nodes => Graph.mk nodes edges)
    (fun nodes => apply_updateNode_eq nodes edges id u)
    (fun nodes => apply_updateNode_eq nodes edges id' u')
  -- Different ids are different nodes. In one node the fields differ.
  apply Interchange.updateFirst
  · intro node
    rw [Node.id_attempt]
  · intro node
    rw [Node.id_attempt]
  · intro node hid hid'
    have hsame : id = id' := (beq_iff_eq.1 hid).symm.trans (beq_iff_eq.1 hid')
    exact Node.update_interchange (hne hsame) node

/-- Two updates of edges can be interchanged unless they address one field of one edge. -/
theorem updateEdge_interchange {id id' : String} {u u' : EdgeUpdate}
    (hne : id = id' → u.field ≠ u'.field) (g : Graph) :
    Interchange (fun g : Graph => g.apply (.updateEdge id u))
      (fun g => g.apply (.updateEdge id' u')) g := by
  obtain ⟨nodes, edges⟩ := g
  apply Interchange.whole (ι := fun edges => Graph.mk nodes edges)
    (fun edges => apply_updateEdge_eq nodes edges id u)
    (fun edges => apply_updateEdge_eq nodes edges id' u')
  apply Interchange.updateFirst
  · intro e
    rw [Edge.id_attempt]
  · intro e
    rw [Edge.id_attempt]
  · intro e hid hid'
    have hsame : id = id' := (beq_iff_eq.1 hid).symm.trans (beq_iff_eq.1 hid')
    exact Edge.update_interchange (hne hsame) e

theorem updateNode_updateEdge_interchange (id id' : String) (u : NodeUpdate) (u' : EdgeUpdate)
    (g : Graph) :
    Interchange (fun g : Graph => g.apply (.updateNode id u))
      (fun g => g.apply (.updateEdge id' u')) g := by
  obtain ⟨nodes, edges⟩ := g
  exact Interchange.of_parts (κ := Graph.mk)
    (fun nodes edges => apply_updateNode_eq nodes edges id u)
    (fun nodes edges => apply_updateEdge_eq nodes edges id' u') nodes edges

/-- Updates of different targets can be interchanged. -/
theorem update_interchange (hc : c.target? = some s) (hd : d.target? = some t) (hne : s ≠ t)
    (g : Graph) : Interchange (fun g : Graph => g.apply c) (fun g => g.apply d) g := by
  cases c with
  | updateNode id u =>
    obtain rfl := Option.some.inj hc
    cases d with
    | updateNode id' u' =>
      obtain rfl := Option.some.inj hd
      refine updateNode_interchange (fun hid hfield => hne ?_) g
      rw [hid, hfield]
    | updateEdge id' u' => exact updateNode_updateEdge_interchange id id' u u' g
    | _ => cases hd
  | updateEdge id u =>
    obtain rfl := Option.some.inj hc
    cases d with
    | updateNode id' u' => exact (updateNode_updateEdge_interchange id' id u' u g).symm
    | updateEdge id' u' =>
      obtain rfl := Option.some.inj hd
      refine updateEdge_interchange (fun hid hfield => hne ?_) g
      rw [hid, hfield]
    | _ => cases hd
  | _ => cases hc

/-- Updates of different nodes or edges, or of different fields of one, lead to the same graph in
either order, and in both orders each of them is accepted or is refused for the same reason. -/
theorem updates_commute (hc : c.target? = some s) (hd : d.target? = some t) (hne : s ≠ t)
    (g : Graph) :
    (g.after c).after d = (g.after d).after c ∧
      verdict ((g.after d).apply c) = verdict (g.apply c) ∧
      verdict ((g.after c).apply d) = verdict (g.apply d) := by
  have h := update_interchange hc hd hne g
  simp only [after_eq_attempt]
  exact ⟨h.attempt_comm, h.verdict_left, h.verdict_right⟩

/-- The only qualified count is dropped before another one is set, and the table goes in between, or
after it, and the table stays. -/
theorem updates_commute_drop :
    let c : Command := .updateNode "pay" (.qualifiedCount "items" none)
    let d : Command := .updateNode "pay" (.qualifiedCount "customer" (some .anyCount))
    let counting (counts : Option (Std.ExtTreeMap String Interval)) : Graph :=
      ⟨[⟨"pay", .event { EventNode.empty with qualifiedCounts := counts }⟩], []⟩
    let g := counting (some (.ofList [("items", Interval.anyCount)] compare))
    let last := counting (some (.ofList [("customer", Interval.anyCount)] compare))
    c.target? = some (.node "pay" (.qualifiedCount "items")) ∧
      d.target? = some (.node "pay" (.qualifiedCount "customer")) ∧
      g.after c = counting none ∧ (g.after c).after d = last ∧ (g.after d).after c = last := by
  intro c d counting g last
  have hne : UpdateTarget.node "pay" (.qualifiedCount "items") ≠
      .node "pay" (.qualifiedCount "customer") := by decide
  have hgone : g.after c = counting none := by decide +kernel
  have hset : (counting none).after d = last := by decide +kernel
  have hfirst : (g.after c).after d = last := by rw [hgone, hset]
  exact ⟨rfl, rfl, hgone, hfirst, (updates_commute rfl rfl hne g).1.symm.trans hfirst⟩

end Graph
end ConstraintGraph
