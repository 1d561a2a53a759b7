import ConstraintGraph.Proofs.Edit.StoredIntervals

namespace ConstraintGraph

inductive NodeField where
  | eventType
  | count
  | occurrence
  | waitingTime
  | qualifiedCount (qualifier : String)
  | variable (v : Variable)
  | filters
  | constraints
  | gateKind
deriving DecidableEq

/-- What stands in a field. A variable that is not introduced and a qualifier that is not counted
have nothing in theirs. -/
def NodeField.Content : NodeField → Type
  | .eventType => Option String
  | .count => Interval
  | .occurrence => Option Occurrence
  | .waitingTime => Option Interval
  | .qualifiedCount _ => Option Interval
  | .variable _ => Option (Std.ExtTreeSet String)
  | .filters => List Predicate
  | .constraints => List Predicate
  | .gateKind => GateKind

namespace NodeUpdate

def field : NodeUpdate → NodeField
  | .eventType _ => .eventType
  | .count _ => .count
  | .occurrence _ => .occurrence
  | .waitingTime _ => .waitingTime
  | .qualifiedCount qualifier _ => .qualifiedCount qualifier
  | .addVariable v _ => .variable v
  | .removeVariable v => .variable v
  | .filters _ => .filters
  | .constraints _ => .constraints
  | .gateKind _ => .gateKind

def value : (u : NodeUpdate) → u.field.Content
  | .eventType value => value
  | .count value => value
  | .occurrence value => value
  | .waitingTime value => value
  | .qualifiedCount _ value => value
  | .addVariable _ types => some types
  | .removeVariable _ => none
  | .filters value => value
  | .constraints value => value
  | .gateKind value => value

end NodeUpdate

namespace EventNode

def get (data : EventNode) : (f : NodeField) → Option f.Content
  | .eventType => some data.eventType
  | .count => some data.count
  | .occurrence => some data.occurrence
  | .waitingTime => some data.waitingTime
  | .qualifiedCount qualifier => some (data.qualifiedCounts.bind (·[qualifier]?))
  | .variable v => some ((data.table v.kind)[v.index]?)
  | .filters => some data.filters
  | .constraints => some data.constraints
  | .gateKind => none

end EventNode

namespace Node

/-- What stands in a field of a node. Gates have no other than their kind, and event-type nodes have
all but that. -/
def get (node : Node) (f : NodeField) : Option f.Content :=
  match node.body, f with
  | .event data, f => data.get f
  | .gate kind, .gateKind => some kind
  | .gate _, _ => none

def counts? (node : Node) : Option (Std.ExtTreeMap String Interval) :=
  node.event?.bind (·.qualifiedCounts)

/-- The second node is the first one after the update. Its field has the new value and the others
have what they had. The table of the qualified counts goes when a drop leaves nothing in it, and
comes with the first count that is set. -/
structure Sets (node : Node) (u : NodeUpdate) (node' : Node) : Prop where
  id_eq : node'.id = node.id
  get_field : node'.get u.field = some u.value
  get_other : ∀ f, f ≠ u.field → node'.get f = node.get f
  counts_gone : node.counts? ≠ none → (node'.counts? = none ↔
    (∃ qualifier, u = .qualifiedCount qualifier none) ∧
      ∀ qualifier, node'.get (.qualifiedCount qualifier) = some none)
  counts_new : node.counts? = none →
    (node'.counts? ≠ none ↔ ∃ qualifier range, u = .qualifiedCount qualifier (some range))

end Node

section UnlessEmpty

variable {counts : Std.ExtTreeMap String Interval}

theorem getElem?_unlessEmpty (qualifier : String) :
    (if counts.isEmpty then none else some counts).bind (·[qualifier]?) = counts[qualifier]? := by
  split
  · rename_i hempty
    rw [Std.ExtTreeMap.isEmpty_iff.1 hempty, Std.ExtTreeMap.getElem?_empty]
    rfl
  · rfl

/-- An empty table is left out, and no other one. -/
theorem unlessEmpty_eq_none_iff :
    (if counts.isEmpty then none else some counts) = none ↔
      ∀ qualifier : String,
        (if counts.isEmpty then none else some counts).bind (·[qualifier]?) = none := by
  constructor
  · intro hnone qualifier
    rw [hnone]
    rfl
  · intro hentries
    simp only [getElem?_unlessEmpty] at hentries
    have hempty : counts = ∅ := by
      apply Std.ExtTreeMap.ext_getElem?
      intro qualifier
      rw [hentries, Std.ExtTreeMap.getElem?_empty]
    rw [if_pos (Std.ExtTreeMap.isEmpty_iff.2 hempty)]

end UnlessEmpty

namespace EventNode

variable {data data' : EventNode} {id : String} {u : NodeUpdate} {f : NodeField}

theorem get_withTable_variable (v : Variable) (kind : VariableKind) (table : VariableTable) :
    (data.withTable kind table).get (.variable v) =
      some (if v.kind = kind then table[v.index]? else (data.table v.kind)[v.index]?) := by
  obtain ⟨kind', i⟩ := v
  cases kind <;> cases kind' <;> rfl

theorem get_withTable_other (hf : ∀ v, f ≠ .variable v) (kind : VariableKind)
    (table : VariableTable) : (data.withTable kind table).get f = data.get f := by
  cases kind <;> cases f <;> first | rfl | exact absurd rfl (hf _)

/-- A table that differs in the entry of one variable changes no other field. -/
theorem get_withTable {v : Variable} {table : VariableTable}
    {types : Option (Std.ExtTreeSet String compare)}
    (htable : ∀ i : UInt32, table[i]? = if v.index = i then types else (data.table v.kind)[i]?) :
    (data.withTable v.kind table).get (.variable v) = some types ∧
      ∀ f, f ≠ .variable v → (data.withTable v.kind table).get f = data.get f := by
  constructor
  · rw [get_withTable_variable, if_pos rfl, htable, if_pos rfl]
  · intro f hf
    by_cases hvariable : ∃ w, f = .variable w
    · obtain ⟨w, rfl⟩ := hvariable
      rw [get_withTable_variable]
      split
      · rename_i hkind
        have hindex : v.index ≠ w.index := by
          intro hindex
          apply hf
          obtain ⟨kind, i⟩ := v
          obtain ⟨kind', j⟩ := w
          obtain rfl : kind' = kind := hkind
          obtain rfl : i = j := hindex
          rfl
        rw [htable, if_neg hindex, ← hkind]
        rfl
      · rfl
    · exact get_withTable_other (not_exists.1 hvariable) _ _

/-- A table of qualified counts that differs in one entry changes no other field. -/
theorem get_withCounts {qualifier : String} {counts : Option (Std.ExtTreeMap String Interval)}
    {range : Option Interval}
    (hcounts : ∀ q : String, counts.bind (·[q]?) =
      if qualifier = q then range else data.qualifiedCounts.bind (·[q]?)) :
    { data with qualifiedCounts := counts }.get (.qualifiedCount qualifier) = some range ∧
      ∀ f, f ≠ .qualifiedCount qualifier →
        { data with qualifiedCounts := counts }.get f = data.get f := by
  constructor
  · show some (counts.bind (·[qualifier]?)) = some range
    rw [hcounts, if_pos rfl]
  · intro f hf
    cases f with
    | qualifiedCount other =>
      have hne : qualifier ≠ other := fun h => hf (h ▸ rfl)
      show some (counts.bind (·[other]?)) = _
      rw [hcounts, if_neg hne]
      rfl
    | _ => rfl

/-- A drop takes the entry of the qualifier out, and the table when nothing is left in it. -/
theorem update_drop {qualifier : String}
    (h : data.update id (.qualifiedCount qualifier none) = .ok data') :
    { data with qualifiedCounts := data.qualifiedCounts.bind fun counts =>
        if (counts.erase qualifier).isEmpty then none else some (counts.erase qualifier) } =
      data' := by
  cases hcounts : data.qualifiedCounts with
  | none =>
    simp only [update, hcounts, Except.ok.injEq] at h
    subst h
    rw [Option.bind_none, ← hcounts]
  | some counts =>
    simp only [update, hcounts, Except.ok.injEq] at h
    exact h

/-- An update sets the field that it addresses and leaves the others as they are. -/
theorem get_update (h : data.update id u = .ok data') :
    data'.get u.field = some u.value ∧ ∀ f, f ≠ u.field → data'.get f = data.get f := by
  cases u with
  | eventType value | occurrence value | filters value | constraints value =>
    obtain rfl := Except.ok.inj h
    refine ⟨rfl, fun f hf => ?_⟩
    cases f <;> first | rfl | exact absurd rfl hf
  | count value =>
    obtain ⟨-, rfl⟩ := Interval.map_check_eq_ok_iff.1 h
    refine ⟨rfl, fun f hf => ?_⟩
    cases f <;> first | rfl | exact absurd rfl hf
  | waitingTime value =>
    have hvalue : { data with waitingTime := value } = data' := by
      cases value with
      | none => exact Except.ok.inj h
      | some window => exact (Interval.map_check_eq_ok_iff.1 h).2
    subst hvalue
    refine ⟨rfl, fun f hf => ?_⟩
    cases f <;> first | rfl | exact absurd rfl hf
  | qualifiedCount qualifier value =>
    cases value with
    | some range =>
      obtain ⟨-, rfl⟩ := Interval.map_check_eq_ok_iff.1 h
      refine get_withCounts fun q => ?_
      -- Without a table the count is set in an empty one.
      have hcounts : (data.qualifiedCounts.getD ∅)[q]? = data.qualifiedCounts.bind (·[q]?) := by
        cases data.qualifiedCounts <;> simp
      simp only [Option.bind_some, Std.ExtTreeMap.getElem?_insert, Std.compare_eq_iff_eq, hcounts]
      rfl
    | none =>
      obtain rfl := update_drop h
      refine get_withCounts fun q => ?_
      cases data.qualifiedCounts with
      | none => exact (ite_self none).symm
      | some counts =>
        simp only [Option.bind_some, getElem?_unlessEmpty, Std.ExtTreeMap.getElem?_erase,
          Std.compare_eq_iff_eq]
        rfl
  | addVariable v types =>
    obtain ⟨-, hok⟩ := ite_error_eq_ok_iff.1 h
    obtain rfl := Except.ok.inj hok
    refine get_withTable fun i => ?_
    simp only [Std.ExtTreeMap.getElem?_insert, Std.compare_eq_iff_eq]
    rfl
  | removeVariable v =>
    simp only [update] at h
    split at h
    · obtain rfl := Except.ok.inj h
      refine get_withTable fun i => ?_
      simp only [Std.ExtTreeMap.getElem?_erase, Std.compare_eq_iff_eq]
      rfl
    · cases h
  | gateKind value => cases h

theorem qualifiedCounts_withTable (kind : VariableKind) (table : VariableTable) :
    (data.withTable kind table).qualifiedCounts = data.qualifiedCounts := by
  cases kind <;> rfl

/-- Only an update of a qualified count touches the table of them. -/
theorem qualifiedCounts_update (h : data.update id u = .ok data')
    (hu : ∀ qualifier value, u ≠ .qualifiedCount qualifier value) :
    data'.qualifiedCounts = data.qualifiedCounts := by
  cases u with
  | eventType value | occurrence value | filters value | constraints value =>
    obtain rfl := Except.ok.inj h
    rfl
  | count value =>
    obtain ⟨-, rfl⟩ := Interval.map_check_eq_ok_iff.1 h
    rfl
  | waitingTime value =>
    cases value with
    | none =>
      obtain rfl := Except.ok.inj h
      rfl
    | some window =>
      obtain ⟨-, rfl⟩ := Interval.map_check_eq_ok_iff.1 h
      rfl
  | qualifiedCount qualifier value => exact absurd rfl (hu qualifier value)
  | addVariable v types =>
    obtain ⟨-, hok⟩ := ite_error_eq_ok_iff.1 h
    obtain rfl := Except.ok.inj hok
    exact qualifiedCounts_withTable _ _
  | removeVariable v =>
    simp only [update] at h
    split at h
    · obtain rfl := Except.ok.inj h
      exact qualifiedCounts_withTable _ _
    · cases h
  | gateKind value => cases h

/-- A table of qualified counts goes exactly when a drop leaves nothing in it. -/
theorem qualifiedCounts_eq_none_iff (h : data.update id u = .ok data')
    (hcounts : data.qualifiedCounts ≠ none) :
    data'.qualifiedCounts = none ↔ (∃ qualifier, u = .qualifiedCount qualifier none) ∧
      ∀ qualifier, data'.get (.qualifiedCount qualifier) = some none := by
  by_cases hu : ∃ qualifier value, u = .qualifiedCount qualifier value
  · obtain ⟨qualifier, value, rfl⟩ := hu
    cases value with
    | some range =>
      obtain ⟨-, rfl⟩ := Interval.map_check_eq_ok_iff.1 h
      refine iff_of_false (Option.some_ne_none _) ?_
      rintro ⟨⟨other, hdrop⟩, -⟩
      cases hdrop
    | none =>
      obtain rfl := update_drop h
      obtain ⟨counts, hold⟩ := Option.ne_none_iff_exists'.1 hcounts
      rw [and_iff_right ⟨qualifier, rfl⟩]
      simp only [get, hold, Option.bind_some]
      exact unlessEmpty_eq_none_iff.trans (forall_congr' fun _ => Option.some_inj.symm)
  · -- No other update touches the table.
    have hsame := qualifiedCounts_update h fun qualifier value heq => hu ⟨qualifier, value, heq⟩
    refine iff_of_false (hsame ▸ hcounts) ?_
    rintro ⟨⟨qualifier, rfl⟩, -⟩
    exact hu ⟨qualifier, none, rfl⟩

/-- Where there is no table of qualified counts, one comes exactly when a count is set. -/
theorem qualifiedCounts_ne_none_iff (h : data.update id u = .ok data')
    (hcounts : data.qualifiedCounts = none) :
    data'.qualifiedCounts ≠ none ↔
      ∃ qualifier range, u = .qualifiedCount qualifier (some range) := by
  by_cases hu : ∃ qualifier value, u = .qualifiedCount qualifier value
  · obtain ⟨qualifier, value, rfl⟩ := hu
    cases value with
    | some range =>
      obtain ⟨-, rfl⟩ := Interval.map_check_eq_ok_iff.1 h
      exact iff_of_true (Option.some_ne_none _) ⟨qualifier, range, rfl⟩
    | none =>
      obtain rfl := update_drop h
      refine iff_of_false (not_not_intro (by rw [hcounts, Option.bind_none])) ?_
      rintro ⟨other, range, hset⟩
      cases hset
  · have hsame := qualifiedCounts_update h fun qualifier value heq => hu ⟨qualifier, value, heq⟩
    refine iff_of_false (not_not_intro (hsame.trans hcounts)) ?_
    rintro ⟨qualifier, range, rfl⟩
    exact hu ⟨qualifier, some range, rfl⟩

/-- Two event-type nodes with the same in all fields are equal, if both have a table of qualified
counts or neither has one. -/
theorem eq_of_get (hget : ∀ f, data'.get f = data.get f)
    (hcounts : data'.qualifiedCounts = none ↔ data.qualifiedCounts = none) : data' = data := by
  have htable : ∀ kind, data'.table kind = data.table kind := by
    intro kind
    apply Std.ExtTreeMap.ext_getElem?
    intro i
    exact Option.some.inj (hget (.variable ⟨kind, i⟩))
  have hqualified : data'.qualifiedCounts = data.qualifiedCounts := by
    cases hold : data.qualifiedCounts with
    | none => exact hcounts.2 hold
    | some counts =>
      obtain ⟨counts', hnew⟩ := Option.ne_none_iff_exists'.1 fun hnone =>
        Option.some_ne_none _ (hold.symm.trans (hcounts.1 hnone))
      rw [hnew, Option.some.injEq]
      apply Std.ExtTreeMap.ext_getElem?
      intro qualifier
      have hentry := Option.some.inj (hget (.qualifiedCount qualifier))
      rwa [hold, hnew] at hentry
  have heventType : data'.eventType = data.eventType := Option.some.inj (hget .eventType)
  have hcount : data'.count = data.count := Option.some.inj (hget .count)
  have hoccurrence : data'.occurrence = data.occurrence := Option.some.inj (hget .occurrence)
  have hwaiting : data'.waitingTime = data.waitingTime := Option.some.inj (hget .waitingTime)
  have hfilters : data'.filters = data.filters := Option.some.inj (hget .filters)
  have hconstraints : data'.constraints = data.constraints := Option.some.inj (hget .constraints)
  cases data
  cases data'
  rw [EventNode.mk.injEq]
  exact ⟨heventType, htable .event, htable .object, hcount, hoccurrence, hwaiting, hqualified,
    hfilters, hconstraints⟩

end EventNode

namespace Node

variable {node node' : Node} {u : NodeUpdate}

/-- An accepted update sets the field of the node that it addresses and leaves the rest as it
was. -/
theorem sets_of_update (h : node.update u = .ok node') : node.Sets u node' := by
  obtain ⟨id, body⟩ := node
  cases body with
  | gate kind =>
    cases u with
    | gateKind new =>
      simp only [update] at h
      split at h
      · obtain rfl := Except.ok.inj h
        refine ⟨rfl, rfl, fun f hf => ?_, fun hcounts => absurd rfl hcounts, fun _ => ?_⟩
        · cases f <;> first | rfl | exact absurd rfl hf
        · refine iff_of_false (not_not_intro rfl) ?_
          rintro ⟨qualifier, range, hset⟩
          cases hset
      · cases h
    | _ => cases h
  | event data =>
    cases hdata : data.update id u with
    | error e => simp [update, hdata, Except.map] at h
    | ok data' =>
      simp only [update, hdata, Except.map, Except.ok.injEq] at h
      subst h
      obtain ⟨hfield, hother⟩ := EventNode.get_update hdata
      exact ⟨rfl, hfield, hother, EventNode.qualifiedCounts_eq_none_iff hdata,
        EventNode.qualifiedCounts_ne_none_iff hdata⟩

theorem Sets.counts?_eq_none_iff (h : node.Sets u node')
    (hu : ∀ qualifier value, u ≠ .qualifiedCount qualifier value) :
    node'.counts? = none ↔ node.counts? = none := by
  by_cases hcounts : node.counts? = none
  · refine iff_of_true ?_ hcounts
    by_contra hsome
    obtain ⟨qualifier, range, heq⟩ := (h.counts_new hcounts).1 hsome
    exact hu qualifier (some range) heq
  · refine iff_of_false (fun hnone => ?_) hcounts
    obtain ⟨⟨qualifier, heq⟩, -⟩ := (h.counts_gone hcounts).1 hnone
    exact hu qualifier none heq

/-- The fields make up a node: nodes of one id with the same in all fields are equal, if both have a
table of qualified counts or neither has one. -/
theorem eq_of_get (hid : node'.id = node.id) (hget : ∀ f, node'.get f = node.get f)
    (hcounts : node'.counts? = none ↔ node.counts? = none) : node' = node := by
  obtain ⟨id, body⟩ := node
  obtain ⟨id', body'⟩ := node'
  obtain rfl : id' = id := hid
  cases body with
  | event data =>
    cases body' with
    | event data' => rw [EventNode.eq_of_get hget hcounts]
    | gate kind' => cases hget .filters
  | gate kind =>
    cases body' with
    | event data' => cases hget .filters
    | gate kind' =>
      obtain rfl : kind' = kind := Option.some.inj (hget .gateKind)
      rfl

end Node

inductive EdgeField where
  | type
  | time
  | color
deriving DecidableEq

def EdgeField.Content : EdgeField → Type
  | .type => ConstraintType
  | .time => Interval
  | .color => String

namespace EdgeUpdate

def field : EdgeUpdate → EdgeField
  | .type _ => .type
  | .time _ => .time
  | .color _ => .color

def value : (u : EdgeUpdate) → u.field.Content
  | .type value => value
  | .time value => value
  | .color value => value

end EdgeUpdate

def EdgeConstraint.get (data : EdgeConstraint) : (f : EdgeField) → f.Content
  | .type => data.type
  | .time => data.time
  | .color => data.color

namespace Edge

/-- The second edge is the first one after the update. Its data have the new value in the field of
the update and in the others what they had, or the standard data where there were none. -/
def Sets (e : Edge) (u : EdgeUpdate) (e' : Edge) : Prop :=
  ∃ data, e' = { e with data := some data } ∧ data.get u.field = u.value ∧
    ∀ f, f ≠ u.field → data.get f = e.constraint.get f

/-- An accepted update of an edge sets its field and no other. -/
theorem sets_of_update {e e' : Edge} {u : EdgeUpdate} (h : e.update u = .ok e') : e.Sets u e' := by
  cases u with
  | type value | color value =>
    obtain rfl := Except.ok.inj h
    refine ⟨_, rfl, rfl, fun f hf => ?_⟩
    cases f <;> first | rfl | exact absurd rfl hf
  | time value =>
    obtain ⟨-, rfl⟩ := Interval.map_check_eq_ok_iff.1 h
    refine ⟨_, rfl, rfl, fun f hf => ?_⟩
    cases f <;> first | rfl | exact absurd rfl hf

end Edge
end ConstraintGraph
