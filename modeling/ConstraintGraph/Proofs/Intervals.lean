import ConstraintGraph.Plan

namespace ConstraintGraph

inductive IntervalField where
  | count
  | waitingTime
  | qualifiedCount (qualifier : String)

section Fields

variable {node : Node} {field : IntervalField}

def EventNode.interval? (data : EventNode) : IntervalField → Option Interval
  | .count => some data.count
  | .waitingTime => data.waitingTime
  | .qualifiedCount qualifier => data.qualifiedCounts.bind fun counts => counts[qualifier]?

def Node.interval? (node : Node) (field : IntervalField) : Option Interval :=
  node.event?.bind (·.interval? field)

def EventConstraints.interval? (c : EventConstraints) : IntervalField → Option WireInterval
  | .count => some c.count
  | .waitingTime => c.waitingTime
  | .qualifiedCount qualifier => c.qualifiedCounts.bind fun counts => counts[qualifier]?

def NodeConstraints.interval? (c : NodeConstraints) (field : IntervalField) : Option WireInterval :=
  match c with
  | .event c => c.interval? field
  | .gate _ => none

theorem EventConstraints.interval?_ofNode (data : EventNode) (field : IntervalField) :
    (EventConstraints.ofNode data).interval? field =
      (data.interval? field).map Interval.toWire := by
  cases field with
  | count => rfl
  | waitingTime => rfl
  | qualifiedCount qualifier =>
    cases hcounts : data.qualifiedCounts with
    | none => simp [interval?, ofNode, EventNode.interval?, hcounts]
    | some counts =>
      simp [interval?, ofNode, EventNode.interval?, hcounts, Std.ExtTreeMap.getElem?_map]

/-- A step has its intervals where its node has them. -/
theorem NodeConstraints.interval?_ofNode (node : Node) (field : IntervalField) :
    (NodeConstraints.ofNode node).interval? field = (node.interval? field).map Interval.toWire := by
  obtain ⟨id, body⟩ := node
  cases body with
  | event data => exact EventConstraints.interval?_ofNode data field
  | gate kind => rfl

end Fields

/-- The graph has the interval at a node or as the time of an edge, linked or not. -/
inductive Graph.Stores (g : Graph) : Interval → Prop
  | node {node : Node} {field : IntervalField} {r : Interval} (hnode : node ∈ g.nodes)
    (hr : node.interval? field = some r) : Stores g r
  | edge {e : Edge} {data : EdgeConstraint} (he : e ∈ g.edges) (hdata : e.data = some data) :
    Stores g data.time

namespace Bound

variable {b : Bound}

/-- A double keeps the bound exact: an infinity, or an integer that is not too large. -/
def IsSafe : Bound → Prop
  | .negInfinity => True
  | .finite n => leastSafe ≤ n ∧ n ≤ greatestSafe
  | .posInfinity => True

instance : DecidablePred IsSafe
  | .negInfinity => isTrue trivial
  | .finite n => inferInstanceAs (Decidable (leastSafe ≤ n ∧ n ≤ greatestSafe))
  | .posInfinity => isTrue trivial

theorem toWire_safe_iff : leastSafe ≤ b.toWire ∧ b.toWire ≤ greatestSafe ↔ b.IsSafe := by
  cases b with
  | negInfinity => exact iff_of_true (by decide) trivial
  | finite n => exact Iff.rfl
  | posInfinity => exact iff_of_true (by decide) trivial

end Bound

structure WireInterval.IsSafe (w : WireInterval) : Prop where
  min_safe : Bound.leastSafe ≤ w.min ∧ w.min ≤ Bound.greatestSafe
  max_safe : Bound.leastSafe ≤ w.max ∧ w.max ≤ Bound.greatestSafe

namespace Interval

variable {r : Interval}

structure IsSafe (r : Interval) : Prop where
  min_safe : r.min.IsSafe
  max_safe : r.max.IsSafe

/-- The finite bound of an interval that is open at one end lies beyond the integer that stands for
the open one. -/
inductive LosesOrder : Interval → Prop
  | above {n : Int64} (h : Bound.greatestSafe < n) : LosesOrder ⟨.finite n, .posInfinity⟩
  | below {n : Int64} (h : n < Bound.leastSafe) : LosesOrder ⟨.negInfinity, .finite n⟩

/-- A plan has the bounds exact where the author's are. -/
theorem isSafe_toWire_iff : r.toWire.IsSafe ↔ r.IsSafe := by
  constructor
  · rintro ⟨hmin, hmax⟩
    exact ⟨Bound.toWire_safe_iff.1 hmin, Bound.toWire_safe_iff.1 hmax⟩
  · rintro ⟨hmin, hmax⟩
    exact ⟨Bound.toWire_safe_iff.2 hmin, Bound.toWire_safe_iff.2 hmax⟩

/-- Bounds that a double keeps exact stay in order. -/
theorem IsSafe.not_losesOrder (hr : r.IsSafe) : ¬ r.LosesOrder := by
  rintro (hlt | hlt)
  · exact Int64.not_le.2 hlt hr.min_safe.2
  · exact Int64.not_le.2 hlt hr.max_safe.1

theorem losesOrder_above_iff {n : Int64} :
    LosesOrder ⟨.finite n, .posInfinity⟩ ↔ Bound.greatestSafe < n :=
  ⟨fun | .above h => h, .above⟩

theorem losesOrder_below_iff {n : Int64} :
    LosesOrder ⟨.negInfinity, .finite n⟩ ↔ n < Bound.leastSafe :=
  ⟨fun | .below h => h, .below⟩

/-- Plain bounds are in order as the bounds are, unless an open end is overtaken. -/
theorem toWire_min_le_max_iff (hr : r.IsWellFormed) :
    r.toWire.min ≤ r.toWire.max ↔ ¬ r.LosesOrder := by
  obtain ⟨min, max⟩ := r
  cases min with
  | negInfinity =>
    cases max with
    | negInfinity => exact iff_of_true (by decide) (fun h => nomatch h)
    | finite n =>
      rw [losesOrder_below_iff, Int64.not_lt]
      exact Iff.rfl
    | posInfinity => exact iff_of_true (by decide) (fun h => nomatch h)
  | finite m =>
    cases max with
    | negInfinity => cases hr
    | finite n =>
      have hle : m ≤ n := of_decide_eq_true hr
      exact iff_of_true hle (fun h => nomatch h)
    | posInfinity =>
      rw [losesOrder_above_iff, Int64.not_lt]
      exact Iff.rfl
  | posInfinity =>
    cases max with
    | negInfinity => cases hr
    | finite n => cases hr
    | posInfinity => exact iff_of_true (by decide) (fun h => nomatch h)

end Interval
end ConstraintGraph
