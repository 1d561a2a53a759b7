import ConstraintGraph.Graph
import ConstraintGraph.Proofs.Reading.Records

namespace ConstraintGraph

open Json

theorem Bound.toJson_ne_null (b : Bound) : b.toJson ≠ .null := by
  cases b <;> exact nofun

theorem Bound.reads_toJson (b : Bound) : Bound.ofJson.Reads b.toJson b := by
  intro a origin
  cases b with
  | negInfinity =>
    rw [toJson, a.string, Outline.ofJson]
    rfl
  | finite n =>
    have hle : ¬ Int64.maxValue.toInt < n.toInt := Int.not_lt.2 n.toInt_le
    have hge : ¬ n.toInt < Int64.minValue.toInt := Int.not_lt.2 n.minValue_le_toInt
    rw [toJson, a.int, Outline.ofJson, ofJson, ofInt, if_neg hle, if_neg hge, Int64.ofInt_toInt]
  | posInfinity =>
    rw [toJson, a.string, Outline.ofJson]
    rfl

/-- Intervals are written under the names of their measure, and read under the same. -/
theorem Interval.reads_toJson (m : Measure) (i : Interval) :
    (Interval.ofJson m).Reads (i.toJson m) i := by
  have hkeys : [m.minName, m.maxName].Nodup := by cases m <;> decide
  refine reads_record hkeys fun a r hr => ?_
  have hmin : Part.fieldOr m.minName (some m.absentMin) (asOption Bound.ofJson) r =
      .ok (some i.min) :=
    hr.fieldOr List.lookup_cons_self (reads_some i.min.reads_toJson i.min.toJson_ne_null)
  have hmax : Part.fieldOption m.maxName Bound.ofJson r = .ok (some i.max) :=
    hr.fieldOr (by cases m <;> rfl) (reads_some i.max.reads_toJson i.max.toJson_ne_null)
  exact Part.seq_ok (Part.map_ok _ hmin) hmax

theorem Variable.reads_toJson (v : Variable) : Variable.ofJson.Reads v.toJson v := by
  obtain ⟨kind, i⟩ := v
  cases kind with
  | event =>
    refine reads_variant fun a origin => ?_
    exact congrArg (Except.map event) (reads_uint32 i a origin)
  | object =>
    refine reads_variant fun a origin => ?_
    exact congrArg (Except.map object) (reads_uint32 i a origin)

/-- In between the keys are texts and sorted as such. Each of them is the index that it was. -/
theorem VariableTable.reads_toJson (table : VariableTable) :
    VariableTable.ofJson.Reads table.toJson table := by
  intro a origin
  let entries := table.toList.map fun e => (toString e.1.toNat, e.2)
  have hindex : ∀ index : UInt32, index? (toString index.toNat) = some index := by
    intro index
    rw [index?, Text.trim_toString, Text.uint32?_toString]
  have hkeys : (entries.map Prod.fst).Nodup := by
    have hspell : Function.Injective fun index : UInt32 => toString index.toNat := by
      intro i j hij
      exact Option.some.inj ((hindex i).symm.trans ((congrArg index? hij).trans (hindex j)))
    have hspelled := (nodup_keys table).map hspell
    rwa [List.map_map] at hspelled ⊢
  have htexts : (asStringMap asStringSet).Reads table.toJson (.ofList entries) := by
    have hwritten : table.toJson =
        .object (entries.map fun e => (e.1, ofStrings e.2.toList)) := by
      rw [VariableTable.toJson, List.map_map]
      rfl
    rw [hwritten]
    exact reads_stringEntries hkeys fun e _ => reads_stringSet e.2
  have hread : List.Forall₂ (fun e e' => index? e.1 = some e'.1 ∧ e.2 = e'.2) entries
      table.toList := by
    rw [List.forall₂_map_left_iff, List.forall₂_same]
    exact fun e _ => ⟨hindex e.1, rfl⟩
  -- The entries come back in the order of their texts, which is not that of the indices:
  -- `10` stands before `2`.
  obtain ⟨found, hfound, hperm⟩ := List.perm_comp_forall₂ (toList_ofList_perm hkeys) hread
  have hsame : Std.ExtTreeMap.ofList found = table :=
    (ofList_eq_of_perm hperm (nodup_keys table)).trans (ofList_toList table)
  unfold VariableTable.ofJson
  rw [htexts a origin]
  show Except.bind (List.mapM _ _) _ = _
  rw [mapM_ok (hfound.imp ?_)]
  · exact congrArg Except.ok hsame
  · rintro ⟨key, types⟩ ⟨index, _⟩ ⟨hkey, rfl⟩
    simp only [hkey]

def Predicate.HasFiniteLimits : Predicate → Prop
  | .timeBetween _ _ minSeconds maxSeconds =>
    (∀ x ∈ minSeconds, x.isFinite = true) ∧ ∀ x ∈ maxSeconds, x.isFinite = true
  | .eventObject .. | .objectObject .. | .distinct .. | .eventAttribute .. | .objectAttribute ..
  | .formula _ => True

theorem Timepoint.reads_toJson (t : Timepoint) : Timepoint.ofJson.Reads t.toJson t := by
  cases t with
  | always => exact reads_tagged (by simp) rfl rfl fun a r hr => rfl
  | sometime => exact reads_tagged (by simp) rfl rfl fun a r hr => rfl
  | atEvent event =>
    refine reads_tagged (by simp) rfl rfl fun a r hr => ?_
    exact Part.map_ok _ (hr.field rfl (reads_uint32 event))

theorem Predicate.reads_seconds (limit : Option Binary64) (h : ∀ x ∈ limit, x.isFinite = true) :
    (asOption asDouble).Reads (secondsToJson limit) limit := by
  cases limit with
  | none => exact reads_null
  | some x =>
    rw [secondsToJson, if_pos (h x rfl)]
    exact reads_some (reads_double x) nofun

/-- A predicate is read back if its limits are finite: others are written as `null`. -/
theorem Predicate.reads_toJson {p : Predicate} (h : p.HasFiniteLimits) :
    Predicate.ofJson.Reads p.toJson p := by
  cases p with
  | eventObject object event qualifier =>
    refine reads_tagged (by simp) rfl rfl fun a r hr => ?_
    exact Part.seq_ok (Part.seq_ok (Part.map_ok _ (hr.field rfl (reads_uint32 object)))
      (hr.field rfl (reads_uint32 event)))
      (hr.fieldOr rfl (reads_option qualifier reads_string nofun))
  | objectObject object other qualifier =>
    refine reads_tagged (by simp) rfl rfl fun a r hr => ?_
    exact Part.seq_ok (Part.seq_ok (Part.map_ok _ (hr.field rfl (reads_uint32 object)))
      (hr.field rfl (reads_uint32 other)))
      (hr.fieldOr rfl (reads_option qualifier reads_string nofun))
  | timeBetween first second minSeconds maxSeconds =>
    refine reads_tagged (by simp) rfl rfl fun a r hr => ?_
    exact Part.seq_ok (Part.seq_ok (Part.seq_ok (Part.map_ok _
      (hr.field rfl (reads_uint32 first))) (hr.field rfl (reads_uint32 second)))
      (hr.fieldOr rfl (reads_seconds minSeconds h.1)))
      (hr.fieldOr rfl (reads_seconds maxSeconds h.2))
  | distinct one other =>
    refine reads_tagged (by simp) rfl rfl fun a r hr => ?_
    exact Part.seq_ok (Part.map_ok _ (hr.field rfl one.reads_toJson))
      (hr.field rfl other.reads_toJson)
  | eventAttribute event name value =>
    refine reads_tagged (by simp) rfl rfl fun a r hr => ?_
    exact Part.seq_ok (Part.seq_ok (Part.map_ok _ (hr.field rfl (reads_uint32 event)))
      (hr.field rfl (reads_string name))) (hr.field rfl (reads_any value))
  | objectAttribute object name time value =>
    refine reads_tagged (by simp) rfl rfl fun a r hr => ?_
    exact Part.seq_ok (Part.seq_ok (Part.seq_ok (Part.map_ok _ (hr.field rfl (reads_uint32 object)))
      (hr.field rfl (reads_string name))) (hr.field rfl time.reads_toJson))
      (hr.field rfl (reads_any value))
  | formula text =>
    refine reads_tagged (by simp) rfl rfl fun a r hr => ?_
    exact Part.map_ok _ (hr.field rfl (reads_string text))

theorem reads_predicates {ps : List Predicate} (h : ∀ p ∈ ps, p.HasFiniteLimits) :
    (asList Predicate.ofJson).Reads (.array (ps.map Predicate.toJson)) ps :=
  reads_list fun p hp => Predicate.reads_toJson (h p hp)

theorem Occurrence.reads_toJson (o : Occurrence) : Occurrence.ofJson.Reads o.toJson o := by
  cases o <;> exact reads_enum rfl

theorem GateKind.reads_toJson (k : GateKind) : GateKind.ofJson.Reads k.toJson k := by
  cases k <;> exact reads_enum rfl

theorem ConstraintType.reads_toJson (t : ConstraintType) :
    ConstraintType.ofJson.Reads t.toJson t := by
  cases t <;> exact reads_enum rfl

namespace EventNode

def HasFiniteLimits (node : EventNode) : Prop := ∀ p ∈ node.predicates, p.HasFiniteLimits

theorem keys_members (node : EventNode) :
    (node.members.map Prod.fst).Sublist ["eventType", "newEventVars", "newObjectVars",
      "countConstraint", "firstOrLastEventOfType", "waitingTimeConstraint",
      "numQualifiedObjectsConstraint", "filters", "constraints"] := by
  unfold members
  simp only [List.map_append]
  exact (((((keys_omitted ..).append (.refl _)).append (keys_omitted ..)).append
    (keys_omitted ..)).append (keys_omitted ..)).append (.refl _)

theorem reads_qualifiedCounts (counts : Std.ExtTreeMap String Interval) :
    (asStringMap (Interval.ofJson .count)).Reads (qualifiedCountsToJson counts) counts :=
  reads_stringMap counts fun e _ => e.2.reads_toJson .count

/-- The fields of a node are read out of a record that has other members besides. -/
theorem part_ok {node : EventNode} (h : node.HasFiniteLimits) {a : Rearrangement} {r : Record}
    {find : String → Option Json} (hr : r.Shows a find)
    (hfind : ∀ name, name ∉ ["id", "type"] → find name = node.members.lookup name) :
    part r = .ok node := by
  obtain ⟨eventType, eventVariables, objectVariables, count, occurrence, waitingTime,
    qualifiedCounts, filters, constraints⟩ := node
  -- Under each name stands what was written there, or nothing if it was left out.
  simp only [members, List.lookup_append, lookup_omitted, lookup_member] at hfind
  have htype : Part.fieldOption "eventType" asString r = .ok eventType :=
    hr.fieldOption ((hfind "eventType" (by decide)).trans (by simp))
      (fun t _ => reads_string t) nofun
  have hevents : Part.fieldOr "newEventVars" ∅ VariableTable.ofJson r = .ok eventVariables :=
    hr.fieldOr ((hfind "newEventVars" (by decide)).trans (by simp))
      eventVariables.reads_toJson
  have hobjects : Part.fieldOr "newObjectVars" ∅ VariableTable.ofJson r = .ok objectVariables :=
    hr.fieldOr ((hfind "newObjectVars" (by decide)).trans (by simp))
      objectVariables.reads_toJson
  have hcount : Part.fieldOr "countConstraint" .anyCount (Interval.ofJson .count) r = .ok count :=
    hr.fieldOr ((hfind "countConstraint" (by decide)).trans (by simp))
      (count.reads_toJson .count)
  have hoccurrence : Part.fieldOption "firstOrLastEventOfType" Occurrence.ofJson r =
      .ok occurrence :=
    hr.fieldOption ((hfind "firstOrLastEventOfType" (by decide)).trans (by simp))
      (fun o _ => o.reads_toJson) nofun
  have hwaiting : Part.fieldOption "waitingTimeConstraint" (Interval.ofJson .seconds) r =
      .ok waitingTime :=
    hr.fieldOption ((hfind "waitingTimeConstraint" (by decide)).trans (by simp))
      (fun w _ => w.reads_toJson .seconds) nofun
  have hcounts : Part.fieldOption "numQualifiedObjectsConstraint"
      (asStringMap (Interval.ofJson .count)) r = .ok qualifiedCounts :=
    hr.fieldOption ((hfind "numQualifiedObjectsConstraint" (by decide)).trans (by simp))
      (fun c _ => reads_qualifiedCounts c) nofun
  have hfilters : Part.fieldOr "filters" [] (asList Predicate.ofJson) r = .ok filters :=
    hr.fieldOr ((hfind "filters" (by decide)).trans (by simp))
      (reads_predicates fun p hp => h p (List.mem_append_left _ hp))
  have hconstraints : Part.fieldOr "constraints" [] (asList Predicate.ofJson) r =
      .ok constraints :=
    hr.fieldOr ((hfind "constraints" (by decide)).trans (by simp))
      (reads_predicates fun p hp => h p (List.mem_append_right _ hp))
  exact Part.seq_ok (Part.seq_ok (Part.seq_ok (Part.seq_ok (Part.seq_ok (Part.seq_ok
    (Part.seq_ok (Part.seq_ok (Part.map_ok mk htype) hevents) hobjects) hcount) hoccurrence)
    hwaiting) hcounts) hfilters) hconstraints

end EventNode

namespace Node

def HasFiniteLimits (node : Node) : Prop := ∀ data ∈ node.event?, data.HasFiniteLimits

/-- The id is read first and the other members are kept for later. -/
theorem own_ok {id : String} {ms : List (String × Json)}
    (hkeys : ((("id", .string id) :: ms).map Prod.fst).Nodup) (a : Rearrangement)
    (origin : Origin) :
    ∃ rest, asObject (Prod.mk <$> .field "id" asString <*> .others ["id"]) origin
        (.ofJson (a (.object (("id", .string id) :: ms)))) = .ok (id, rest) ∧
      rest.Shows a (hide ["id"] (List.lookup · (("id", .string id) :: ms))) := by
  refine exists_asObject hkeys (fun a r rest hr hothers => ?_) a origin
  have hid : Part.field "id" asString r = .ok id := hr.field List.lookup_cons_self (reads_string id)
  exact Part.seq_ok (Part.map_ok Prod.mk hid) hothers

theorem reads_toJson {node : Node} (h : node.HasFiniteLimits) :
    Node.ofJson.Reads node.toJson node := by
  intro a origin
  obtain ⟨id, body⟩ := node
  cases body with
  | event data =>
    have hkeys : ((("id", .string id) :: ("type", .string "eventType") :: data.members).map
        Prod.fst).Nodup :=
      ((data.keys_members.cons_cons "type").cons_cons "id").nodup (by decide)
    obtain ⟨rest, hown, hrest⟩ := own_ok hkeys a origin
    unfold ofJson toJson
    rw [hown]
    show Except.bind (Record.alternative rest "type" _) _ = _
    rw [hrest.alternative_eq rfl rfl fun content hcontent => ?_]
    · rfl
    · refine Part.map_ok NodeBody.event (EventNode.part_ok (h data rfl) hcontent ?_)
      intro name hname
      rw [List.mem_cons, List.mem_singleton, not_or] at hname
      simp [hide, hname.1, hname.2]
  | gate kind =>
    have hkeys : ([("id", .string id), ("type", .string "gate"), ("gate", kind.toJson)].map
        Prod.fst).Nodup := by simp
    obtain ⟨rest, hown, hrest⟩ := own_ok hkeys a origin
    unfold ofJson toJson
    rw [hown]
    show Except.bind (Record.alternative rest "type" _) _ = _
    rw [hrest.alternative_eq rfl rfl fun content hcontent => ?_]
    · rfl
    · exact Part.map_ok NodeBody.gate (hcontent.field rfl kind.reads_toJson)

end Node

theorem EdgeConstraint.reads_toJson (c : EdgeConstraint) :
    EdgeConstraint.ofJson.Reads c.toJson c := by
  refine reads_record (by simp) fun a r hr => ?_
  have htype : Part.fieldOr "constraintType" .response ConstraintType.ofJson r = .ok c.type :=
    hr.fieldOr rfl c.type.reads_toJson
  have htime : Part.fieldOr "timeConstraint" .anyTime (Interval.ofJson .seconds) r = .ok c.time :=
    hr.fieldOr rfl (c.time.reads_toJson .seconds)
  have hcolor : Part.fieldOr "color" defaultColor asString r = .ok c.color :=
    hr.fieldOr rfl (reads_string c.color)
  exact Part.seq_ok (Part.seq_ok (Part.map_ok mk htype) htime) hcolor

theorem Edge.reads_toJson (e : Edge) : Edge.ofJson.Reads e.toJson e := by
  refine reads_record (by simp) fun a r hr => ?_
  have hid : Part.field "id" asString r = .ok e.id := hr.field rfl (reads_string e.id)
  have hsource : Part.field "source" asString r = .ok e.source :=
    hr.field rfl (reads_string e.source)
  have htarget : Part.field "target" asString r = .ok e.target :=
    hr.field rfl (reads_string e.target)
  have hsourceHandle : Part.fieldOption "sourceHandle" asString r = .ok e.sourceHandle :=
    hr.fieldOr rfl (reads_option e.sourceHandle reads_string nofun)
  have htargetHandle : Part.fieldOption "targetHandle" asString r = .ok e.targetHandle :=
    hr.fieldOr rfl (reads_option e.targetHandle reads_string nofun)
  have hdata : Part.fieldOption "data" EdgeConstraint.ofJson r = .ok e.data :=
    hr.fieldOr rfl (reads_option e.data EdgeConstraint.reads_toJson nofun)
  exact Part.seq_ok (Part.seq_ok (Part.seq_ok (Part.seq_ok (Part.seq_ok (Part.map_ok mk hid)
    hsource) htarget) hsourceHandle) htargetHandle) hdata

def Graph.HasFiniteLimits (g : Graph) : Prop := ∀ node ∈ g.nodes, node.HasFiniteLimits

/-- A graph with finite limits is read back from what is written of it. -/
theorem Graph.reads_toJson {g : Graph} (h : g.HasFiniteLimits) :
    Graph.ofJson.Reads g.toJson g := by
  refine reads_record (by simp) fun a r hr => ?_
  have hnodes : Part.fieldOr "nodes" [] (asList Node.ofJson) r = .ok g.nodes :=
    hr.fieldOr rfl (reads_list fun node hnode => Node.reads_toJson (h node hnode))
  have hedges : Part.fieldOr "edges" [] (asList Edge.ofJson) r = .ok g.edges :=
    hr.fieldOr rfl (reads_list fun e _ => e.reads_toJson)
  exact Part.seq_ok (Part.map_ok mk hnodes) hedges

end ConstraintGraph
