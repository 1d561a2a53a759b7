import ConstraintGraph.Proofs.Edit.Effects
import ConstraintGraph.Proofs.Intervals
import Mathlib.Data.List.Basic
import Mathlib.Data.List.Induction

namespace ConstraintGraph

/-- The intervals that come with what a command adds as a whole. -/
inductive Command.Brings : Command → Interval → Prop
  | addNode {node : Node} {field : IntervalField} {r : Interval}
    (hr : node.interval? field = some r) : Brings (.addNode node) r
  | addEdge {e : Edge} {data : EdgeConstraint} (hdata : e.data = some data) :
    Brings (.addEdge e) data.time
  | replaceGraph {graph : Graph} {r : Interval} (hr : graph.Stores r) :
    Brings (.replaceGraph graph) r

theorem Interval.map_check_eq_ok_iff {α : Type} {r : Interval} {a b : α} :
    (r.check.map fun _ => a) = .ok b ↔ r.IsWellFormed ∧ a = b := by
  unfold check
  by_cases h : r.IsWellFormed <;> simp [h, Except.map]

namespace EventNode

variable {data data' : EventNode} {id : String} {u : NodeUpdate} {field : IntervalField}
  {r : Interval}

theorem interval?_withTable (kind : VariableKind) (table : VariableTable) :
    (data.withTable kind table).interval? field = data.interval? field := by
  cases kind <;> cases field <;> rfl

/-- To drop the count of a qualifier sets no interval. -/
theorem interval?_dropQualifier {qualifier : String}
    (h : data.update id (.qualifiedCount qualifier none) = .ok data')
    (hr : data'.interval? field = some r) : data.interval? field = some r := by
  cases hcounts : data.qualifiedCounts with
  | none =>
    simp only [update, hcounts, Except.ok.injEq] at h
    rwa [h]
  | some counts =>
    simp only [update, hcounts, Except.ok.injEq] at h
    subst h
    cases field with
    | count => exact hr
    | waitingTime => exact hr
    | qualifiedCount other =>
      simp only [interval?, hcounts, Option.bind_some] at hr ⊢
      split at hr
      · cases hr
      · rw [Option.bind_some, Std.ExtTreeMap.getElem?_erase] at hr
        split at hr
        · cases hr
        · exact hr

/-- An update sets well-formed intervals only. -/
theorem interval?_update (h : data.update id u = .ok data') (hr : data'.interval? field = some r) :
    data.interval? field = some r ∨ r.IsWellFormed := by
  cases u with
  | count value =>
    obtain ⟨hvalue, rfl⟩ := Interval.map_check_eq_ok_iff.1 h
    cases field with
    | count =>
      obtain rfl := Option.some.inj hr
      exact Or.inr hvalue
    | waitingTime => exact Or.inl hr
    | qualifiedCount other => exact Or.inl hr
  | waitingTime value =>
    cases value with
    | none =>
      obtain rfl := Except.ok.inj h
      cases field with
      | count => exact Or.inl hr
      | waitingTime => cases hr
      | qualifiedCount other => exact Or.inl hr
    | some window =>
      obtain ⟨hwindow, rfl⟩ := Interval.map_check_eq_ok_iff.1 h
      cases field with
      | count => exact Or.inl hr
      | waitingTime =>
        obtain rfl := Option.some.inj hr
        exact Or.inr hwindow
      | qualifiedCount other => exact Or.inl hr
  | qualifiedCount qualifier value =>
    cases value with
    | none => exact Or.inl (interval?_dropQualifier h hr)
    | some range =>
      obtain ⟨hrange, rfl⟩ := Interval.map_check_eq_ok_iff.1 h
      cases field with
      | count => exact Or.inl hr
      | waitingTime => exact Or.inl hr
      | qualifiedCount other =>
        simp only [interval?, Option.bind_some, Std.ExtTreeMap.getElem?_insert] at hr ⊢
        split at hr
        · obtain rfl := Option.some.inj hr
          exact Or.inr hrange
        · -- Another qualifier has what it had, and nothing where there were no counts.
          cases hcounts : data.qualifiedCounts with
          | none => simp [hcounts] at hr
          | some counts => exact Or.inl (by simpa [hcounts] using hr)
  | addVariable v types =>
    obtain ⟨-, hok⟩ := ite_error_eq_ok_iff.1 h
    obtain rfl := Except.ok.inj hok
    exact Or.inl (by rwa [interval?_withTable] at hr)
  | removeVariable v =>
    simp only [update] at h
    split at h
    · obtain rfl := Except.ok.inj h
      exact Or.inl (by rwa [interval?_withTable] at hr)
    · cases h
  | eventType value | occurrence value | filters value | constraints value =>
    obtain rfl := Except.ok.inj h
    cases field <;> exact Or.inl hr
  | gateKind value => cases h

end EventNode

/-- An update of a node brings in no interval that is not well formed. -/
theorem Node.interval?_update {node node' : Node} {u : NodeUpdate} {field : IntervalField}
    {r : Interval} (h : node.update u = .ok node') (hr : node'.interval? field = some r) :
    node.interval? field = some r ∨ r.IsWellFormed := by
  obtain ⟨id, body⟩ := node
  cases body with
  | gate kind =>
    -- A gate stays one, and has no intervals.
    have hgate := (Node.update_eq_ok h).2.1
    obtain ⟨id', body'⟩ := node'
    cases body' with
    | gate kind' => cases hr
    | event data' => cases hgate
  | event data =>
    cases hdata : data.update id u with
    | error e => simp [Node.update, hdata, Except.map] at h
    | ok data' =>
      simp only [Node.update, hdata, Except.map, Except.ok.injEq] at h
      subst h
      exact EventNode.interval?_update hdata hr

namespace Edge

variable {e e' : Edge} {u : EdgeUpdate}

theorem constraint_eq {data : EdgeConstraint} (hdata : e.data = some data) :
    e.constraint = data := by
  rw [constraint, hdata]
  rfl

/-- An edge without data is taken to ask for no particular time. -/
theorem constraint_time_cases (e : Edge) :
    (∃ data, e.data = some data ∧ data.time = e.constraint.time) ∨
      e.constraint.time.IsWellFormed := by
  cases hdata : e.data with
  | none =>
    have hstandard : e.constraint = .standard := by rw [constraint, hdata]; rfl
    rw [hstandard]
    exact Or.inr (by decide)
  | some data => exact Or.inl ⟨data, rfl, by rw [constraint_eq hdata]⟩

/-- An update of an edge brings in no time that is not well formed. -/
theorem time_update {data' : EdgeConstraint} (h : e.update u = .ok e')
    (hdata' : e'.data = some data') :
    (∃ data, e.data = some data ∧ data.time = data'.time) ∨ data'.time.IsWellFormed := by
  cases u with
  | type value =>
    obtain rfl := Except.ok.inj h
    obtain rfl := Option.some.inj hdata'
    exact e.constraint_time_cases
  | time value =>
    obtain ⟨hvalue, rfl⟩ := Interval.map_check_eq_ok_iff.1 h
    obtain rfl := Option.some.inj hdata'
    exact Or.inr hvalue
  | color value =>
    obtain rfl := Except.ok.inj h
    obtain rfl := Option.some.inj hdata'
    exact e.constraint_time_cases

end Edge

namespace Graph

variable {g g' : Graph} {c : Command} {r : Interval}

/-- The intervals after an accepted command were there before, came with what it adds, or are well
formed. -/
theorem stores_of_apply (h : g.apply c = .ok g') (hr : g'.Stores r) :
    g.Stores r ∨ c.Brings r ∨ r.IsWellFormed := by
  cases c with
  | addNode node =>
    obtain ⟨-, rfl⟩ := apply_addNode h
    rcases hr with ⟨hnode, hr⟩ | ⟨he, hdata⟩
    · rcases List.mem_append.1 hnode with hnode | hnode
      · exact Or.inl (.node hnode hr)
      · rw [List.mem_singleton.1 hnode] at hr
        exact Or.inr (Or.inl (.addNode hr))
    · exact Or.inl (.edge he hdata)
  | addEdge e =>
    obtain ⟨-, rfl⟩ := apply_addEdge h
    rcases hr with ⟨hnode, hr⟩ | ⟨he, hdata⟩
    · exact Or.inl (.node hnode hr)
    · rcases List.mem_append.1 he with he | he
      · exact Or.inl (.edge he hdata)
      · obtain rfl := List.mem_singleton.1 he
        obtain rfl := Option.some.inj hdata
        -- The edge is stored with its own data or with the default, which is well formed.
        rcases e.constraint_time_cases with ⟨data, hdata, htime⟩ | hwf
        · exact Or.inr (Or.inl (htime ▸ .addEdge hdata))
        · exact Or.inr (Or.inr hwf)
  | deleteNode id =>
    obtain rfl := apply_deleteNode h
    rcases hr with ⟨hnode, hr⟩ | ⟨he, hdata⟩
    · exact Or.inl (.node (List.mem_of_mem_filter hnode) hr)
    · exact Or.inl (.edge (List.mem_of_mem_filter he) hdata)
  | deleteEdge id =>
    obtain rfl := apply_deleteEdge h
    rcases hr with ⟨hnode, hr⟩ | ⟨he, hdata⟩
    · exact Or.inl (.node hnode hr)
    · exact Or.inl (.edge (List.mem_of_mem_filter he) hdata)
  | updateNode id u =>
    -- Updates check the interval that they set.
    obtain ⟨nodes, hnodes, rfl⟩ := apply_updateNode h
    rcases hr with ⟨hnode, hr⟩ | ⟨he, hdata⟩
    · rcases mem_updateFirst hnodes hnode with hnode | ⟨node, hnode, hupdate⟩
      · exact Or.inl (.node hnode hr)
      · rcases Node.interval?_update hupdate hr with hr | hwf
        · exact Or.inl (.node hnode hr)
        · exact Or.inr (Or.inr hwf)
    · exact Or.inl (.edge he hdata)
  | updateEdge id u =>
    obtain ⟨edges, hedges, rfl⟩ := apply_updateEdge h
    rcases hr with ⟨hnode, hr⟩ | ⟨he, hdata⟩
    · exact Or.inl (.node hnode hr)
    · rcases mem_updateFirst hedges he with he | ⟨e, he, hupdate⟩
      · exact Or.inl (.edge he hdata)
      · rcases Edge.time_update hupdate hdata with ⟨data, hdata, htime⟩ | hwf
        · exact Or.inl (htime ▸ .edge he hdata)
        · exact Or.inr (Or.inr hwf)
  | replaceGraph graph =>
    obtain rfl := Except.ok.inj h
    exact Or.inr (Or.inl (.replaceGraph hr))

/-- What an accepted command brings is stored as it is. -/
theorem stores_of_brings (h : g.apply c = .ok g') (hr : c.Brings r) : g'.Stores r := by
  cases hr with
  | @addNode node _ _ hr =>
    obtain ⟨-, rfl⟩ := apply_addNode h
    exact .node (List.mem_append_right _ (List.mem_singleton_self node)) hr
  | @addEdge e data hdata =>
    obtain ⟨-, rfl⟩ := apply_addEdge h
    refine .edge (List.mem_append_right _ (List.mem_singleton_self _)) ?_
    rw [Edge.constraint_eq hdata]
  | replaceGraph hr =>
    obtain rfl := Except.ok.inj h
    exact hr

theorem afterAll_concat (g : Graph) (commands : List Command) (c : Command) :
    g.afterAll (commands ++ [c]) = (g.afterAll commands).after c :=
  List.foldl_concat _ _ _ _

theorem after_of_apply (h : g.apply c = .ok g') : g.after c = g' := by
  rw [after, h]

/-- An interval that is out of order was brought by an accepted command of the run. -/
theorem exists_brings_of_stores {commands : List Command}
    (hr : (Graph.empty.afterAll commands).Stores r) (hwf : ¬ r.IsWellFormed) :
    ∃ before c g', before ++ [c] <+: commands ∧
      (Graph.empty.afterAll before).apply c = .ok g' ∧ c.Brings r := by
  induction commands using List.reverseRecOn with
  | nil => rcases hr with ⟨hnode, -⟩ | ⟨he, -⟩ <;> contradiction
  | append_singleton commands c ih =>
    have hbefore : (Graph.empty.afterAll commands).Stores r → ∃ before c' g',
        before ++ [c'] <+: commands ++ [c] ∧
          (Graph.empty.afterAll before).apply c' = .ok g' ∧ c'.Brings r := by
      intro hr
      obtain ⟨before, c', g', hprefix, hrest⟩ := ih hr
      exact ⟨before, c', g', hprefix.trans (List.prefix_append _ _), hrest⟩
    rw [afterAll_concat] at hr
    cases happly : (Graph.empty.afterAll commands).apply c with
    | error e =>
      rw [after, happly] at hr
      exact hbefore hr
    | ok g' =>
      rw [after_of_apply happly] at hr
      rcases stores_of_apply happly hr with hr | hbrings | hr
      · exact hbefore hr
      · exact ⟨commands, c, g', List.prefix_refl _, happly, hbrings⟩
      · exact absurd hr hwf

/-- In a run of commands from the empty graph all intervals are well formed at all times exactly
when those are that accepted commands bring with a whole node, edge or graph. -/
theorem stores_wellFormed_iff (commands : List Command) :
    (∀ before, before <+: commands →
        ∀ r, (Graph.empty.afterAll before).Stores r → r.IsWellFormed) ↔
      ∀ before c g', before ++ [c] <+: commands →
        (Graph.empty.afterAll before).apply c = .ok g' → ∀ r, c.Brings r → r.IsWellFormed := by
  constructor
  · intro hstored before c g' hprefix happly r hbrings
    refine hstored (before ++ [c]) hprefix r ?_
    rw [afterAll_concat, after_of_apply happly]
    exact stores_of_brings happly hbrings
  · intro hbrought before hprefix r hr
    by_contra hwf
    obtain ⟨before', c, g', hprefix', happly, hbrings⟩ := exists_brings_of_stores hr hwf
    exact hwf (hbrought before' c g' (hprefix'.trans hprefix) happly r hbrings)

/-- A node and an edge with bounds out of order are taken, where updates that set the same intervals
are refused. -/
theorem inverted_intervals_added :
    let count : Interval := ⟨.finite 5, .finite 2⟩
    let time : Interval := ⟨.finite 60, .finite 0⟩
    let a : Node := ⟨"a", .event { EventNode.empty with count := count }⟩
    let b : Node := ⟨"b", .event EventNode.empty⟩
    let data : EdgeConstraint := { EdgeConstraint.standard with time := time }
    let e : Edge := { Edge.link "a" "b" with data := some data }
    let commands : List Command := [.addNode a, .addNode b, .addEdge e]
    (∀ c ∈ commands, c.replaces = false) ∧ ¬ count.IsWellFormed ∧ ¬ time.IsWellFormed ∧
      ∃ g, Graph.empty.replay commands = .ok g ∧ g.Stores count ∧ g.Stores time ∧
        g.apply (.updateNode "b" (.count count)) = .error (.invalidRange count) ∧
        g.apply (.updateEdge e.id (.time time)) = .error (.invalidRange time) := by
  intro count time a b data e commands
  have hcommands : ∀ c ∈ commands, c.replaces = false := by simp [commands, Command.replaces]
  have hcount : a.interval? .count = some count := rfl
  have hdata : e.data = some data := rfl
  exact ⟨hcommands, by decide, by decide, ⟨[a, b], [e]⟩, rfl, .node List.mem_cons_self hcount,
    .edge List.mem_cons_self hdata, by decide, by decide⟩

end Graph
end ConstraintGraph
