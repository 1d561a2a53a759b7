import ConstraintGraph.Proofs.Compilation.Neighbors
import ConstraintGraph.Proofs.Intervals

namespace ConstraintGraph

/-- The plan has the interval at a step or at a neighbour of one. -/
inductive Plan.Carries (p : Plan) : WireInterval → Prop
  | own {t : PlanEntry} {field : IntervalField} {w : WireInterval} (ht : t ∈ p.entries)
    (hw : t.constraints.interval? field = some w) : Carries p w
  | neighbor {t : PlanEntry} {n : Neighbor} (ht : t ∈ p.entries)
    (hn : n ∈ t.parents ++ t.children) : Carries p n.connection.time

theorem exists_mem_zip_of_forall₂ {α β : Type} {r : α → β → Prop} {as : List α} {bs : List β}
    (h : List.Forall₂ r as bs) {a : α} (ha : a ∈ as) : ∃ b, (a, b) ∈ as.zip bs ∧ r a b := by
  obtain ⟨hlen, hpairs⟩ := List.forall₂_iff_zip.1 h
  rw [← List.map_fst_zip hlen.le] at ha
  obtain ⟨⟨a', b⟩, hab, rfl⟩ := List.mem_map.1 ha
  exact ⟨b, hab, hpairs hab⟩

namespace Graph

/-- The graph has the one interval where the plan has the other: at a node and its step, or at a
linked edge and the neighbour that it gives to a step at one of its ends. -/
inductive Sends (g : Graph) (p : Plan) : Interval → WireInterval → Prop
  | own {t : PlanEntry} {node : Node} {field : IntervalField} {r : Interval} {w : WireInterval}
    (ht : t ∈ p.entries) (hnode : g.node? t.id = some node) (hr : node.interval? field = some r)
    (hw : t.constraints.interval? field = some w) : Sends g p r w
  | parent {t : PlanEntry} {n : Neighbor} {e : Edge} {data : EdgeConstraint} (ht : t ∈ p.entries)
    (hn : (n, e) ∈ t.parents.zip (g.linkedEdges.filter (·.target == t.id)))
    (hdata : e.data = some data) : Sends g p data.time n.connection.time
  | child {t : PlanEntry} {n : Neighbor} {e : Edge} {data : EdgeConstraint} (ht : t ∈ p.entries)
    (hn : (n, e) ∈ t.children.zip (g.linkedEdges.filter (·.source == t.id)))
    (hdata : e.data = some data) : Sends g p data.time n.connection.time

variable {g : Graph} {p : Plan} {t : PlanEntry} {node : Node} {field : IntervalField}
  {r : Interval} {w : WireInterval}

theorem constraints_of_mem_entries (hp : g.plan = .ok p) (ht : t ∈ p.entries)
    (hnode : g.node? t.id = some node) : t.constraints = .ofNode node := by
  obtain ⟨node', hnode', heq⟩ := eq_of_mem_entries hp ht
  have hsame : node' = node := Option.some.inj (hnode'.symm.trans hnode)
  rw [heq, hsame]

theorem Shows.time_eq {e : Edge} {id : String} {n : Neighbor} {data : EdgeConstraint}
    (h : g.Shows e id n) (hdata : e.data = some data) : n.connection.time = data.time.toWire := by
  obtain ⟨data', hdata', hconnection⟩ := h.connection_eq
  have hsame : data' = data := Option.some.inj (hdata'.symm.trans hdata)
  rw [hconnection, hsame]
  rfl

/-- Every interval of a node is sent with its step. -/
theorem sends_of_interval? (hp : g.plan = .ok p) (ht : t ∈ p.entries)
    (hnode : g.node? t.id = some node) (hr : node.interval? field = some r) :
    g.Sends p r r.toWire := by
  refine .own ht hnode hr ?_
  rw [constraints_of_mem_entries hp ht hnode, NodeConstraints.interval?_ofNode, hr]
  rfl

/-- An interval is sent with its infinite bounds replaced, and not changed in any other way. -/
theorem Sends.eq_toWire (h : g.Sends p r w) (hp : g.plan = .ok p) : w = r.toWire := by
  cases h with
  | own ht hnode hr hw =>
    rw [constraints_of_mem_entries hp ht hnode, NodeConstraints.interval?_ofNode, hr] at hw
    exact (Option.some.inj hw).symm
  | parent ht hn hdata =>
    have hshows := (List.forall₂_iff_zip.1 (forall₂_parents hp ht)).2 hn
    exact hshows.time_eq hdata
  | child ht hn hdata =>
    have hshows := (List.forall₂_iff_zip.1 (forall₂_children hp ht)).2 hn
    exact hshows.time_eq hdata

theorem Sends.stores (h : g.Sends p r w) : g.Stores r := by
  have hlinked : ∀ {e : Edge} {q : Edge → Bool}, e ∈ g.linkedEdges.filter q → e ∈ g.edges :=
    fun he => (mem_linkedEdges.1 (List.mem_of_mem_filter he)).1
  cases h with
  | own _ hnode hr _ => exact .node (node?_eq_some hnode).1 hr
  | parent _ hn hdata => exact .edge (hlinked (List.of_mem_zip hn).2) hdata
  | child _ hn hdata => exact .edge (hlinked (List.of_mem_zip hn).2) hdata

theorem Sends.carries (h : g.Sends p r w) : p.Carries w := by
  cases h with
  | own ht _ _ hw => exact .own ht hw
  | parent ht hn _ => exact .neighbor ht (List.mem_append_left _ (List.of_mem_zip hn).1)
  | child ht hn _ => exact .neighbor ht (List.mem_append_right _ (List.of_mem_zip hn).1)

/-- Every interval of a plan comes from one in the graph. -/
theorem exists_sends (hp : g.plan = .ok p) (h : p.Carries w) : ∃ r, g.Sends p r w := by
  cases h with
  | @own t field w ht hw =>
    obtain ⟨node, hnode, -⟩ := eq_of_mem_entries hp ht
    have hfield := hw
    rw [constraints_of_mem_entries hp ht hnode, NodeConstraints.interval?_ofNode] at hfield
    obtain ⟨r, hr, -⟩ := Option.map_eq_some_iff.1 hfield
    exact ⟨r, .own ht hnode hr hw⟩
  | @neighbor t n ht hn =>
    -- Neighbours and linked edges come in pairs, and the edge of a pair has the data.
    rcases List.mem_append.1 hn with hn | hn
    · obtain ⟨e, he, hshows⟩ := exists_mem_zip_of_forall₂ (forall₂_parents hp ht) hn
      obtain ⟨data, hdata, -⟩ := hshows.connection_eq
      exact ⟨data.time, .parent ht he hdata⟩
    · obtain ⟨e, he, hshows⟩ := exists_mem_zip_of_forall₂ (forall₂_children hp ht) hn
      obtain ⟨data, hdata, -⟩ := hshows.connection_eq
      exact ⟨data.time, .child ht he hdata⟩

/-- A plan carries the intervals of its steps and of the linked edges at them, and no others. One
that it carries has bounds which a double keeps exact exactly when those of the graph are infinite
or such integers themselves; and bounds in order stay in order, unless a finite one lies beyond the
integer that stands for an infinity at the other end. So all intervals of a plan are usable where
all finite bounds of the graph are integers that a double keeps exact. -/
theorem bounds_of_plan (hp : g.plan = .ok p) :
    (∀ w, p.Carries w ↔ ∃ r, g.Sends p r w) ∧
      (∀ t ∈ p.entries, ∀ node, g.node? t.id = some node → ∀ field r,
        node.interval? field = some r → g.Sends p r r.toWire) ∧
      (∀ r w, g.Sends p r w → (w.IsSafe ↔ r.IsSafe) ∧
        (r.IsWellFormed → (w.min ≤ w.max ↔ ¬ r.LosesOrder))) ∧
      ((∀ r, g.Stores r → r.IsSafe) → ∀ r w, g.Sends p r w →
        w.IsSafe ∧ (r.IsWellFormed → w.min ≤ w.max)) := by
  have hbounds : ∀ r w, g.Sends p r w → (w.IsSafe ↔ r.IsSafe) ∧
      (r.IsWellFormed → (w.min ≤ w.max ↔ ¬ r.LosesOrder)) := by
    intro r w h
    obtain rfl := h.eq_toWire hp
    exact ⟨Interval.isSafe_toWire_iff, Interval.toWire_min_le_max_iff⟩
  refine ⟨fun w => ⟨exists_sends hp, fun ⟨r, h⟩ => h.carries⟩,
    fun t ht node hnode field r => sends_of_interval? hp ht hnode, hbounds, ?_⟩
  intro hsafe r w h
  have hr := hsafe r h.stores
  obtain ⟨hiff, horder⟩ := hbounds r w h
  exact ⟨hiff.2 hr, fun hwf => (horder hwf).2 hr.not_losesOrder⟩

/-- A count from one on and a time of up to a minute, at a step that has a gate for its child. -/
theorem bounds_of_plan_open :
    let place : Node := ⟨"place", .event { EventNode.empty with
      objectVariables := .ofList [(0, ∅)] compare
      count := ⟨.finite 1, .posInfinity⟩
      waitingTime := some ⟨.negInfinity, .finite 60⟩ }⟩
    let g : Graph := ⟨[place, ⟨"not", .gate .not⟩], [.link "place" "not"]⟩
    ∃ p, g.plan = .ok p ∧ g.Sends p ⟨.finite 1, .posInfinity⟩ ⟨1, 9007199254740991⟩ ∧
      g.Sends p ⟨.negInfinity, .finite 60⟩ ⟨-9007199254740991, 60⟩ ∧
      (∀ r, g.Stores r → r.IsSafe) ∧ ∀ r w, g.Sends p r w → w.IsSafe := by
  intro place g
  obtain ⟨p, hp⟩ := exists_plan_iff.2 (show g.compile.hasErrors = false by decide +kernel)
  have hstep : "place" ∈ p.nodeIds := (mem_nodeIds_iff hp).2 (by decide +kernel)
  obtain ⟨t, ht, hid⟩ := List.mem_map.1 hstep
  have hnode : g.node? t.id = some place := by rw [hid]; rfl
  -- Two intervals of the node, and the default of the edge.
  have hsafe : ∀ r, g.Stores r → r.IsSafe := by
    rintro r (@⟨node, field, _, hmem, hr⟩ | @⟨e, data, hmem, hdata⟩)
    · rcases List.mem_cons.1 hmem with rfl | hmem
      · cases field with
        | count =>
          obtain rfl := Option.some.inj hr
          exact ⟨by decide, trivial⟩
        | waitingTime =>
          obtain rfl := Option.some.inj hr
          exact ⟨trivial, by decide⟩
        | qualifiedCount qualifier => cases hr
      · obtain rfl := List.mem_singleton.1 hmem
        cases hr
    · obtain rfl := List.mem_singleton.1 hmem
      obtain rfl := Option.some.inj hdata
      exact ⟨trivial, trivial⟩
  obtain ⟨-, hsends, -, husable⟩ := bounds_of_plan hp
  exact ⟨p, hp, hsends t ht place hnode .count _ rfl, hsends t ht place hnode .waitingTime _ rfl,
    hsafe, fun r w h => (husable hsafe r w h).1⟩

/-- A count from the first integer on that is too large for a double is in order and is sent out of
order, with a bound that a double does not keep. -/
theorem bound_beyond_safe :
    let pay : Node := ⟨"pay", .event { EventNode.empty with
      objectVariables := .ofList [(0, ∅)] compare
      count := ⟨.finite 9007199254740992, .posInfinity⟩ }⟩
    let g : Graph := ⟨[pay], []⟩
    let r : Interval := ⟨.finite 9007199254740992, .posInfinity⟩
    let w : WireInterval := ⟨9007199254740992, 9007199254740991⟩
    ∃ p, g.plan = .ok p ∧ p.Carries w ∧ g.Sends p r w ∧ r.IsWellFormed ∧ ¬ w.IsSafe ∧
      ¬ w.min ≤ w.max := by
  intro pay g r w
  obtain ⟨p, hp⟩ := exists_plan_iff.2 (show g.compile.hasErrors = false by decide +kernel)
  have hstep : "pay" ∈ p.nodeIds := (mem_nodeIds_iff hp).2 (by decide +kernel)
  obtain ⟨t, ht, hid⟩ := List.mem_map.1 hstep
  have hnode : g.node? t.id = some pay := by rw [hid]; rfl
  have hr : pay.interval? .count = some r := rfl
  have hsends : g.Sends p r w := sends_of_interval? hp ht hnode hr
  have hunsafe : ¬ w.IsSafe := fun h => absurd h.min_safe.2 (by decide)
  exact ⟨p, hp, hsends.carries, hsends, by decide, hunsafe, by decide⟩

end Graph
end ConstraintGraph
