import ConstraintGraph.Proofs.Intervals

namespace ConstraintGraph

namespace Bound

variable {b : Bound} {n v w : Int64}

/-- An infinity, or an integer strictly between those that stand for the infinities. -/
def IsInner : Bound → Prop
  | .negInfinity => True
  | .finite n => leastSafe < n ∧ n < greatestSafe
  | .posInfinity => True

instance : DecidablePred IsInner
  | .negInfinity => isTrue trivial
  | .finite n => inferInstanceAs (Decidable (leastSafe < n ∧ n < greatestSafe))
  | .posInfinity => isTrue trivial

theorem toInt_greatestSafe : greatestSafe.toInt = 9007199254740991 := rfl

theorem toInt_leastSafe : leastSafe.toInt = -9007199254740991 := rfl

theorem ofWire_of_greatestSafe_le (h : greatestSafe ≤ v) : ofWire v = .posInfinity :=
  if_pos h

theorem ofWire_of_le_leastSafe (h : v ≤ leastSafe) : ofWire v = .negInfinity := by
  have hbelow : ¬ greatestSafe ≤ v := by
    rw [Int64.le_iff_toInt_le, toInt_leastSafe] at h
    rw [Int64.le_iff_toInt_le, toInt_greatestSafe]
    omega
  rw [ofWire, if_neg hbelow, if_pos h]

theorem ofWire_of_inner (h : leastSafe < v) (h' : v < greatestSafe) : ofWire v = .finite v := by
  rw [ofWire, if_neg (Int64.not_le.2 h'), if_neg (Int64.not_le.2 h)]

theorem wire_cases (v : Int64) :
    greatestSafe ≤ v ∨ v ≤ leastSafe ∨ leastSafe < v ∧ v < greatestSafe := by
  rw [Int64.le_iff_toInt_le, Int64.le_iff_toInt_le, Int64.lt_iff_toInt_lt, Int64.lt_iff_toInt_lt]
  omega

/-- Inner bounds are the infinities and the integers strictly between those that stand for them. -/
theorem isInner_iff : b.IsInner ↔ ∀ n, b = .finite n → n.toInt.natAbs < greatestSafe.toInt := by
  cases b with
  | negInfinity => exact iff_of_true trivial nofun
  | posInfinity => exact iff_of_true trivial nofun
  | finite n =>
    have habs : leastSafe < n ∧ n < greatestSafe ↔ n.toInt.natAbs < greatestSafe.toInt := by
      rw [Int64.lt_iff_toInt_lt, Int64.lt_iff_toInt_lt, toInt_greatestSafe, toInt_leastSafe]
      omega
    constructor
    · rintro h m hm
      obtain rfl := Bound.finite.inj hm
      exact habs.1 h
    · intro h
      exact habs.2 (h n rfl)

/-- A bound comes back as it was if it is an infinity or lies between their two integers. -/
theorem ofWire_toWire_iff : ofWire b.toWire = b ↔ b.IsInner := by
  cases b with
  | negInfinity => exact iff_of_true rfl trivial
  | posInfinity => exact iff_of_true rfl trivial
  | finite n =>
    constructor
    · intro h
      rcases wire_cases n with hn | hn | hn
      · cases (ofWire_of_greatestSafe_le hn).symm.trans h
      · cases (ofWire_of_le_leastSafe hn).symm.trans h
      · exact hn
    · intro h
      exact ofWire_of_inner h.1 h.2

/-- A finite bound that does not come back is read as the infinity on its side. -/
theorem ofWire_toWire_of_natAbs_le (h : greatestSafe.toInt ≤ n.toInt.natAbs) :
    ofWire (toWire (.finite n)) = if 0 < n then .posInfinity else .negInfinity := by
  have hzero : (0 : Int64).toInt = 0 := rfl
  rw [toInt_greatestSafe] at h
  by_cases hn : 0 < n
  · rw [if_pos hn]
    apply ofWire_of_greatestSafe_le
    rw [Int64.lt_iff_toInt_lt, hzero] at hn
    show greatestSafe ≤ n
    rw [Int64.le_iff_toInt_le, toInt_greatestSafe]
    omega
  · rw [if_neg hn]
    apply ofWire_of_le_leastSafe
    rw [Int64.lt_iff_toInt_lt, hzero] at hn
    show n ≤ leastSafe
    rw [Int64.le_iff_toInt_le, toInt_leastSafe]
    omega

/-- An integer that is read as a bound and made plain again is moved to the nearest one that a
double keeps exact. -/
theorem toInt_toWire_ofWire (v : Int64) :
    (ofWire v).toWire.toInt = max leastSafe.toInt (min v.toInt greatestSafe.toInt) := by
  rw [toInt_greatestSafe, toInt_leastSafe]
  rcases wire_cases v with hv | hv | ⟨hv, hv'⟩
  · rw [ofWire_of_greatestSafe_le hv, toWire, toInt_greatestSafe]
    rw [Int64.le_iff_toInt_le, toInt_greatestSafe] at hv
    omega
  · rw [ofWire_of_le_leastSafe hv, toWire, toInt_leastSafe]
    rw [Int64.le_iff_toInt_le, toInt_leastSafe] at hv
    omega
  · rw [ofWire_of_inner hv hv', toWire]
    rw [Int64.lt_iff_toInt_lt, toInt_leastSafe] at hv
    rw [Int64.lt_iff_toInt_lt, toInt_greatestSafe] at hv'
    omega

theorem le_posInfinity (b : Bound) : b ≤ .posInfinity := by
  cases b <;> rfl

theorem negInfinity_le (b : Bound) : .negInfinity ≤ b :=
  rfl

/-- Reading keeps the order. -/
theorem ofWire_mono (h : v ≤ w) : ofWire v ≤ ofWire w := by
  rcases wire_cases w with hw | hw | ⟨hw, hw'⟩
  · rw [ofWire_of_greatestSafe_le hw]
    exact le_posInfinity _
  · rw [ofWire_of_le_leastSafe (Int64.le_trans h hw)]
    exact negInfinity_le _
  · rcases wire_cases v with hv | hv | ⟨hv, hv'⟩
    · exact absurd (Int64.le_trans hv h) (Int64.not_le.2 hw')
    · rw [ofWire_of_le_leastSafe hv]
      exact negInfinity_le _
    · rw [ofWire_of_inner hv hv', ofWire_of_inner hw hw']
      exact decide_eq_true h

end Bound

/-- Both bounds are infinite or lie strictly between the integers that stand for the infinities. -/
structure Interval.IsInner (r : Interval) : Prop where
  min_inner : r.min.IsInner
  max_inner : r.max.IsInner

/-- An interval is read back as it was exactly if no bound of it stands for an infinity by accident.
-/
theorem Interval.toInterval_toWire_iff {r : Interval} : r.toWire.toInterval = r ↔ r.IsInner := by
  obtain ⟨min, max⟩ := r
  constructor
  · intro h
    obtain ⟨hmin, hmax⟩ := Interval.mk.inj h
    exact ⟨Bound.ofWire_toWire_iff.1 hmin, Bound.ofWire_toWire_iff.1 hmax⟩
  · rintro ⟨hmin, hmax⟩
    show Interval.mk (.ofWire min.toWire) (.ofWire max.toWire) = ⟨min, max⟩
    rw [Bound.ofWire_toWire_iff.2 hmin, Bound.ofWire_toWire_iff.2 hmax]

theorem map_map_eq_self_iff {α β : Type} {f : α → β} {g : β → α} {o : Option α} :
    (o.map f).map g = o ↔ ∀ x, o = some x → g (f x) = x := by
  cases o <;> simp

namespace EventConstraints

variable {c : EventConstraints} {data : EventNode}

/-- The constraints say what the node says, when their bounds are read back. -/
structure Restores (c : EventConstraints) (data : EventNode) : Prop where
  count : c.count.toInterval = data.count
  occurrence : c.occurrence = data.occurrence
  waitingTime : c.waitingTime.map WireInterval.toInterval = data.waitingTime
  qualifiedCounts : (c.qualifiedCounts.map fun counts => counts.map fun _ w => w.toInterval) =
    data.qualifiedCounts
  filters : c.filters = data.filters
  constraints : c.constraints = data.constraints

/-- The same fields are there, and of the same qualifiers. -/
structure SameFields (c : EventConstraints) (data : EventNode) : Prop where
  occurrence : c.occurrence.isSome = data.occurrence.isSome
  waitingTime : c.waitingTime.isSome = data.waitingTime.isSome
  qualifiers : c.qualifiedCounts.map (·.keys) = data.qualifiedCounts.map (·.keys)

theorem sameFields_ofNode (data : EventNode) : (ofNode data).SameFields data := by
  refine ⟨rfl, Option.isSome_map, ?_⟩
  show (data.qualifiedCounts.map _).map _ = _
  rw [Option.map_map]
  exact Option.map_congr fun counts _ => Std.ExtTreeMap.keys_map

/-- A table of counts comes back exactly if each of its counts does. -/
theorem qualifiedCounts_restored_iff {counts : Std.ExtTreeMap String Interval} :
    ((counts.map fun _ r => r.toWire).map fun _ w => w.toInterval) = counts ↔
      ∀ (qualifier : String) (r : Interval), counts[qualifier]? = some r → r.IsInner := by
  constructor
  · intro h qualifier r hr
    have hentry : ((counts.map fun _ r => r.toWire).map fun _ w => w.toInterval)[qualifier]? =
        some r := by rw [h, hr]
    simp only [Std.ExtTreeMap.getElem?_map, hr, Option.map_some, Option.some.injEq] at hentry
    exact Interval.toInterval_toWire_iff.1 hentry
  · intro h
    apply Std.ExtTreeMap.ext_getElem?
    intro qualifier
    rw [Std.ExtTreeMap.getElem?_map, Std.ExtTreeMap.getElem?_map, map_map_eq_self_iff]
    exact fun r hr => Interval.toInterval_toWire_iff.2 (h qualifier r hr)

/-- The constraints of a step say all that the node says exactly if the bounds of its intervals are
inner ones. -/
theorem restores_ofNode_iff :
    (ofNode data).Restores data ↔ ∀ field r, data.interval? field = some r → r.IsInner := by
  constructor
  · intro h field r hr
    cases field with
    | count =>
      obtain rfl := Option.some.inj hr
      exact Interval.toInterval_toWire_iff.1 h.count
    | waitingTime =>
      have hrestored := map_map_eq_self_iff.1 h.waitingTime r hr
      exact Interval.toInterval_toWire_iff.1 hrestored
    | qualifiedCount qualifier =>
      -- The table comes back if all its entries do.
      obtain ⟨counts, hcounts, hentry⟩ := Option.bind_eq_some_iff.1 hr
      have hrestored := map_map_eq_self_iff.1 h.qualifiedCounts counts hcounts
      exact qualifiedCounts_restored_iff.1 hrestored qualifier r hentry
  · intro h
    constructor
    · exact Interval.toInterval_toWire_iff.2 (h .count _ rfl)
    · rfl
    · refine map_map_eq_self_iff.2 fun r hr => ?_
      exact Interval.toInterval_toWire_iff.2 (h .waitingTime r hr)
    · refine map_map_eq_self_iff.2 fun counts hcounts => ?_
      refine qualifiedCounts_restored_iff.2 fun qualifier r hentry => ?_
      exact h (.qualifiedCount qualifier) r (Option.bind_eq_some_iff.2 ⟨counts, hcounts, hentry⟩)
    · rfl
    · rfl

end EventConstraints

/-- Bounds are read back as they were, but for finite ones from the integers on that stand for the
infinities, which are read as the infinity on their side. Integers that are read and made plain
again are moved into the range that a double keeps exact, and reading keeps their order. So what an
event-type node or an edge says comes back whole exactly if all its finite bounds lie strictly
between those two integers, and no field and no qualifier is lost in any case. -/
theorem plain_bounds_read_back :
    (∀ b : Bound, (∀ n, b = .finite n → n.toInt.natAbs < Bound.greatestSafe.toInt) →
        Bound.ofWire b.toWire = b) ∧
      (∀ n : Int64, Bound.greatestSafe.toInt ≤ n.toInt.natAbs →
        Bound.ofWire (Bound.finite n).toWire = if 0 < n then .posInfinity else .negInfinity) ∧
      (∀ v : Int64, (Bound.ofWire v).toWire.toInt =
        max Bound.leastSafe.toInt (min v.toInt Bound.greatestSafe.toInt)) ∧
      (∀ v w : Int64, v ≤ w → Bound.ofWire v ≤ Bound.ofWire w) ∧
      (∀ w : WireInterval, w.min ≤ w.max → w.toInterval.IsWellFormed) ∧
      (∀ (node : Node) (data : EventNode), node.event? = some data →
        ∃ c, NodeConstraints.ofNode node = .event c ∧ c.SameFields data ∧
          (c.Restores data ↔ ∀ field r, node.interval? field = some r → r.IsInner)) ∧
      ∀ data : EdgeConstraint, (Connection.ofConstraint data).type = data.type ∧
        ((Connection.ofConstraint data).time.toInterval = data.time ↔ data.time.IsInner) := by
  refine ⟨fun b hb => Bound.ofWire_toWire_iff.2 (Bound.isInner_iff.2 hb),
    fun n => Bound.ofWire_toWire_of_natAbs_le, Bound.toInt_toWire_ofWire,
    fun v w => Bound.ofWire_mono, fun w => Bound.ofWire_mono, ?_,
    fun data => ⟨rfl, Interval.toInterval_toWire_iff⟩⟩
  intro node data hdata
  obtain ⟨id, body⟩ := node
  cases body with
  | gate kind => cases hdata
  | event data' =>
    obtain rfl := Option.some.inj hdata
    exact ⟨.ofNode data', rfl, EventConstraints.sameFields_ofNode data',
      EventConstraints.restores_ofNode_iff⟩

/-- A count and a time that are open at one end and the count of a qualifier. -/
theorem plain_bounds_read_back_open :
    let items : Interval := ⟨.finite 0, .finite 9007199254740990⟩
    let data : EventNode := { EventNode.empty with
      count := ⟨.finite 1, .posInfinity⟩
      waitingTime := some ⟨.negInfinity, .finite (-60)⟩
      qualifiedCounts := some (.ofList [("items", items)] compare) }
    (∀ field r, data.interval? field = some r → r.IsInner) ∧
      NodeConstraints.ofNode ⟨"pay", .event data⟩ = .event (.ofNode data) ∧
      (EventConstraints.ofNode data).count = ⟨1, 9007199254740991⟩ ∧
      (EventConstraints.ofNode data).Restores data := by
  intro items data
  have hinner : ∀ field r, data.interval? field = some r → r.IsInner := by
    intro field r hr
    cases field with
    | count =>
      obtain rfl := Option.some.inj hr
      exact ⟨by decide, trivial⟩
    | waitingTime =>
      obtain rfl := Option.some.inj hr
      exact ⟨trivial, by decide⟩
    | qualifiedCount qualifier =>
      have hentry : (Std.ExtTreeMap.ofList [("items", items)] compare)[qualifier]? = some r := hr
      rw [Std.ExtTreeMap.ofList_singleton, Std.ExtTreeMap.getElem?_insert] at hentry
      split at hentry
      · obtain rfl := Option.some.inj hentry
        exact ⟨by decide, by decide⟩
      · cases hentry
  obtain ⟨c, hc, -, hrestores⟩ :=
    plain_bounds_read_back.2.2.2.2.2.1 ⟨"pay", .event data⟩ data rfl
  obtain rfl : EventConstraints.ofNode data = c := NodeConstraints.event.inj hc
  exact ⟨hinner, hc, rfl, hrestores.2 hinner⟩

end ConstraintGraph
