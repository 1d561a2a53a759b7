import ConstraintGraph.Diagnostic
import ConstraintGraph.Plan
import ConstraintGraph.Proofs.Reading.Graphs

namespace ConstraintGraph

open Json

theorem WireInterval.reads_toJson (m : Measure) (w : WireInterval) :
    (WireInterval.ofJson m).Reads (w.toJson m) w := by
  have hkeys : [m.minName, m.maxName].Nodup := by cases m <;> decide
  refine reads_record hkeys fun a r hr => ?_
  have hmin : Part.field m.minName asInt64 r = .ok w.min :=
    hr.field List.lookup_cons_self (reads_int64 w.min)
  have hmax : Part.field m.maxName asInt64 r = .ok w.max :=
    hr.field (by cases m <;> rfl) (reads_int64 w.max)
  exact Part.seq_ok (Part.map_ok mk hmin) hmax

theorem Connection.reads_toJson (c : Connection) : Connection.ofJson.Reads c.toJson c := by
  refine reads_record (by simp) fun a r hr => ?_
  have htype : Part.field "type" ConstraintType.ofJson r = .ok c.type :=
    hr.field rfl c.type.reads_toJson
  have htime : Part.field "timeConstraint" (WireInterval.ofJson .seconds) r = .ok c.time :=
    hr.field rfl (c.time.reads_toJson .seconds)
  exact Part.seq_ok (Part.map_ok mk htype) htime

theorem Neighbor.reads_toJson (n : Neighbor) : Neighbor.ofJson.Reads n.toJson n := by
  have hkeys : (([("connection", n.connection.toJson), ("id", .string n.id)] ++
      eventTypeMember n.eventType).map Prod.fst).Nodup := by
    have hsub := (List.Sublist.refl ["connection", "id"]).append
      (keys_omitted "eventType" Json.string n.eventType)
    rw [List.map_append]
    exact hsub.nodup (by decide)
  refine reads_record hkeys fun a r hr => ?_
  have hconnection : Part.field "connection" Connection.ofJson r = .ok n.connection :=
    hr.field rfl n.connection.reads_toJson
  have hid : Part.field "id" asString r = .ok n.id := hr.field rfl (reads_string n.id)
  have htype : Part.fieldOption "eventType" asString r = .ok n.eventType :=
    hr.fieldOption (by simp [eventTypeMember]) (fun t _ => reads_string t) nofun
  exact Part.seq_ok (Part.seq_ok (Part.map_ok mk hconnection) hid) htype

theorem Scope.reads_toJson (s : Scope) : Scope.ofJson.Reads s.toJson s := by
  refine reads_record (by simp) fun a r hr => ?_
  have hevent : Part.field "event" (asList asUInt32) r = .ok s.event :=
    hr.field rfl (reads_list fun i _ => reads_uint32 i)
  have hobject : Part.field "object" (asList asUInt32) r = .ok s.object :=
    hr.field rfl (reads_list fun i _ => reads_uint32 i)
  exact Part.seq_ok (Part.map_ok mk hevent) hobject

namespace EventConstraints

def HasFiniteLimits (c : EventConstraints) : Prop :=
  ∀ p ∈ c.filters ++ c.constraints, p.HasFiniteLimits

theorem keys_members (c : EventConstraints) :
    (c.members.map Prod.fst).Sublist ["countConstraint", "firstOrLastEventOfType",
      "waitingTimeConstraint", "numQualifiedObjectsConstraint", "filters", "constraints"] := by
  unfold members
  simp only [List.map_append]
  exact ((((List.Sublist.refl ["countConstraint"]).append (keys_omitted ..)).append
    (keys_omitted ..)).append (keys_omitted ..)).append (.refl _)

/-- The constraints are read out of a record that has other members besides. -/
theorem part_ok {c : EventConstraints} (h : c.HasFiniteLimits) {a : Rearrangement} {r : Record}
    {find : String → Option Json} (hr : r.Shows a find)
    (hfind : ∀ name, name ∉ ["id", "eventType", "parents", "children", "variables", "nodeType"] →
      find name = c.members.lookup name) :
    part r = .ok c := by
  obtain ⟨count, occurrence, waitingTime, qualifiedCounts, filters, constraints⟩ := c
  simp only [members, List.lookup_append, lookup_omitted, lookup_member] at hfind
  have hcount : Part.field "countConstraint" (WireInterval.ofJson .count) r = .ok count :=
    hr.field ((hfind "countConstraint" (by decide)).trans (by simp)) (count.reads_toJson .count)
  have hoccurrence : Part.fieldOption "firstOrLastEventOfType" Occurrence.ofJson r =
      .ok occurrence :=
    hr.fieldOption ((hfind "firstOrLastEventOfType" (by decide)).trans (by simp))
      (fun o _ => o.reads_toJson) nofun
  have hwaiting : Part.fieldOption "waitingTimeConstraint" (WireInterval.ofJson .seconds) r =
      .ok waitingTime :=
    hr.fieldOption ((hfind "waitingTimeConstraint" (by decide)).trans (by simp))
      (fun w _ => w.reads_toJson .seconds) nofun
  have hcounts : Part.fieldOption "numQualifiedObjectsConstraint"
      (asStringMap (WireInterval.ofJson .count)) r = .ok qualifiedCounts :=
    hr.fieldOption ((hfind "numQualifiedObjectsConstraint" (by decide)).trans (by simp))
      (fun c _ => reads_stringMap c fun e _ => e.2.reads_toJson .count) nofun
  have hfilters : Part.fieldOr "filters" [] (asList Predicate.ofJson) r = .ok filters :=
    hr.fieldOr ((hfind "filters" (by decide)).trans (by simp))
      (reads_predicates fun p hp => h p (List.mem_append_left _ hp))
  have hconstraints : Part.fieldOr "constraints" [] (asList Predicate.ofJson) r =
      .ok constraints :=
    hr.fieldOr ((hfind "constraints" (by decide)).trans (by simp))
      (reads_predicates fun p hp => h p (List.mem_append_right _ hp))
  exact Part.seq_ok (Part.seq_ok (Part.seq_ok (Part.seq_ok (Part.seq_ok
    (Part.map_ok mk hcount) hoccurrence) hwaiting) hcounts) hfilters) hconstraints

end EventConstraints

namespace NodeConstraints

def HasFiniteLimits : NodeConstraints → Prop
  | .event c => c.HasFiniteLimits
  | .gate _ => True

theorem keys_members (c : NodeConstraints) :
    (c.members.map Prod.fst).Sublist ["nodeType", "gateType", "countConstraint",
      "firstOrLastEventOfType", "waitingTimeConstraint", "numQualifiedObjectsConstraint",
      "filters", "constraints"] := by
  cases c with
  | event c => exact ((c.keys_members.cons "gateType").cons_cons "nodeType")
  | gate kind => exact List.sublist_append_left ["nodeType", "gateType"] _

/-- The constraints of a step stand among its other members. -/
theorem ofRecord_ok {c : NodeConstraints} (h : c.HasFiniteLimits) {a : Rearrangement} {r : Record}
    {find : String → Option Json} (hr : r.Shows a find)
    (hfind : ∀ name, name ∉ ["id", "eventType", "parents", "children", "variables"] →
      find name = c.members.lookup name) :
    ofRecord r = .ok c := by
  cases c with
  | event c =>
    refine hr.alternative_eq (hfind "nodeType" (by decide)) rfl fun content hcontent => ?_
    refine Part.map_ok event (EventConstraints.part_ok h hcontent fun name hname => ?_)
    have hforeign : name ∉ ["id", "eventType", "parents", "children", "variables"] :=
      mt (List.mem_append_left ["nodeType"]) hname
    have htag : name ∉ ["nodeType"] :=
      mt (List.mem_append_right ["id", "eventType", "parents", "children", "variables"]) hname
    rw [hide, if_neg htag, hfind name hforeign, members, lookup_member,
      if_neg (mt List.mem_singleton.2 htag)]
  | gate kind =>
    refine hr.alternative_eq (hfind "nodeType" (by decide)) rfl fun content hcontent => ?_
    have hkind : hide ["nodeType"] find "gateType" = some kind.toJson :=
      hfind "gateType" (by decide)
    exact Part.map_ok gate (hcontent.field hkind kind.reads_toJson)

end NodeConstraints

namespace PlanEntry

def HasFiniteLimits (e : PlanEntry) : Prop := e.constraints.HasFiniteLimits

theorem nodup_keys_members (e : PlanEntry) :
    (([("id", Json.string e.id)] ++ eventTypeMember e.eventType ++
      [("parents", .array (e.parents.map Neighbor.toJson)),
        ("children", .array (e.children.map Neighbor.toJson)), ("variables", e.scope.toJson)] ++
      e.constraints.members).map Prod.fst).Nodup := by
  have hsub := (((List.Sublist.refl ["id"]).append
    (keys_omitted "eventType" Json.string e.eventType)).append
    (List.Sublist.refl ["parents", "children", "variables"])).append e.constraints.keys_members
  simp only [List.map_append]
  exact hsub.nodup (by decide)

/-- The fields that every step has are read first and the other members are kept for later. -/
theorem own_ok (e : PlanEntry) (a : Rearrangement) (origin : Origin) :
    ∃ rest, asObject ownPart origin (.ofJson (a e.toJson)) =
        .ok (mk e.id e.eventType e.parents e.children e.scope, rest) ∧
      ∃ find, rest.Shows a find ∧
        ∀ name, name ∉ ["id", "eventType", "parents", "children", "variables"] →
          find name = e.constraints.members.lookup name := by
  let names := ["id", "eventType", "parents", "children", "variables"]
  obtain ⟨rest, hown, hrest⟩ : ∃ rest, asObject ownPart origin (.ofJson (a e.toJson)) =
        .ok (mk e.id e.eventType e.parents e.children e.scope, rest) ∧
      rest.Shows a (hide names _) := by
    refine exists_asObject e.nodup_keys_members (fun a r rest hr hothers => ?_) a origin
    have hid : Part.field "id" asString r = .ok e.id := hr.field rfl (reads_string e.id)
    have htype : Part.fieldOption "eventType" asString r = .ok e.eventType := by
      -- The constraints have no field of that name, so a missing event type is missed.
      have hconstraints : e.constraints.members.lookup "eventType" = none := by
        cases e.constraints <;>
          simp [NodeConstraints.members, EventConstraints.members, List.lookup_append]
      exact hr.fieldOption (by simp [eventTypeMember, List.lookup_append, hconstraints])
        (fun t _ => reads_string t) nofun
    have hparents : Part.field "parents" (asList Neighbor.ofJson) r = .ok e.parents :=
      hr.field (by simp [eventTypeMember, List.lookup_append])
        (reads_list fun n _ => n.reads_toJson)
    have hchildren : Part.field "children" (asList Neighbor.ofJson) r = .ok e.children :=
      hr.field (by simp [eventTypeMember, List.lookup_append])
        (reads_list fun n _ => n.reads_toJson)
    have hscope : Part.field "variables" Scope.ofJson r = .ok e.scope :=
      hr.field (by simp [eventTypeMember, List.lookup_append]) e.scope.reads_toJson
    exact Part.seq_ok (Part.seq_ok (Part.seq_ok (Part.seq_ok (Part.seq_ok
      (Part.map_ok _ hid) htype) hparents) hchildren) hscope) hothers
  refine ⟨rest, hown, _, hrest, fun name hname => ?_⟩
  rw [hide, if_neg hname]
  simp only [List.mem_cons, not_or] at hname
  simp [eventTypeMember, List.lookup_append, hname]

theorem reads_toJson {e : PlanEntry} (h : e.HasFiniteLimits) :
    PlanEntry.ofJson.Reads e.toJson e := by
  intro a origin
  obtain ⟨rest, hown, find, hrest, hfind⟩ := e.own_ok a origin
  have hconstraints : NodeConstraints.ofRecord rest = .ok e.constraints :=
    NodeConstraints.ofRecord_ok h hrest hfind
  unfold ofJson
  rw [hown]
  show Except.bind (NodeConstraints.ofRecord rest) _ = _
  rw [hconstraints]
  rfl

end PlanEntry

theorem Declaration.reads_toJson (d : Declaration) : Declaration.ofJson.Reads d.toJson d := by
  refine reads_record (by simp) fun a r hr => ?_
  have hvar : Part.field "variable" Variable.ofJson r = .ok d.var :=
    hr.field rfl d.var.reads_toJson
  have htypes : Part.field "types" asStringSet r = .ok d.types :=
    hr.field rfl (reads_stringSet d.types)
  have hnode : Part.field "nodeId" asString r = .ok d.node := hr.field rfl (reads_string d.node)
  exact Part.seq_ok (Part.seq_ok (Part.map_ok mk hvar) htypes) hnode

def Plan.HasFiniteLimits (p : Plan) : Prop := ∀ e ∈ p.entries, e.HasFiniteLimits

/-- A plan with finite limits is read back from what is written of it. -/
theorem Plan.reads_toJson {p : Plan} (h : p.HasFiniteLimits) : Plan.ofJson.Reads p.toJson p := by
  refine reads_record (by simp) fun a r hr => ?_
  have hdeclarations : Part.field "variables" (asList Declaration.ofJson) r = .ok p.declarations :=
    hr.field rfl (reads_list fun d _ => d.reads_toJson)
  have hentries : Part.field "nodesOrder" (asList PlanEntry.ofJson) r = .ok p.entries :=
    hr.field rfl (reads_list fun e he => PlanEntry.reads_toJson (h e he))
  exact Part.seq_ok (Part.map_ok mk hdeclarations) hentries

theorem Severity.reads_name (s : Severity) : Severity.ofJson.Reads (.string s.name) s := by
  cases s <;> exact reads_enum rfl

theorem SkipReason.reads_name (r : SkipReason) : SkipReason.ofJson.Reads (.string r.name) r := by
  cases r <;> exact reads_enum rfl

theorem Finding.keys_members (f : Finding) :
    (f.members.map Prod.fst).Sublist ["kind", "node_ids", "edge_id", "reason", "node_id",
      "variable"] := by
  cases f <;> simp only [members, List.map_cons, List.map_nil] <;> decide

/-- Severity and message are passed over, since the finding determines them. -/
theorem Finding.ofRecord_ok {f : Finding} {a : Rearrangement} {r : Record}
    {find : String → Option Json} (hr : r.Shows a find)
    (hfind : ∀ name, name ∉ ["severity", "message"] → find name = f.members.lookup name) :
    ofRecord r = .ok f := by
  have hrest : ∀ name, name ∉ ["severity", "message", "kind"] →
      hide ["kind"] find name = f.members.lookup name := by
    intro name hname
    have hforeign : name ∉ ["severity", "message"] := mt (List.mem_append_left ["kind"]) hname
    have htag : name ∉ ["kind"] := mt (List.mem_append_right ["severity", "message"]) hname
    rw [hide, if_neg htag, hfind name hforeign]
  have hkind := hfind "kind" (by decide)
  cases f with
  | cycle nodes =>
    refine hr.alternative_eq hkind rfl fun content hcontent => ?_
    exact Part.map_ok cycle (hcontent.field (hrest "node_ids" (by decide)) (reads_strings nodes))
  | unreachable nodes =>
    refine hr.alternative_eq hkind rfl fun content hcontent => ?_
    exact Part.map_ok unreachable
      (hcontent.field (hrest "node_ids" (by decide)) (reads_strings nodes))
  | duplicateNode node =>
    refine hr.alternative_eq hkind rfl fun content hcontent => ?_
    exact Part.map_ok duplicateNode
      (hcontent.field (hrest "node_id" (by decide)) (reads_string node))
  | skippedEdge edge reason =>
    refine hr.alternative_eq hkind rfl fun content hcontent => ?_
    exact Part.seq_ok (Part.map_ok skippedEdge
      (hcontent.field (hrest "edge_id" (by decide)) (reads_string edge)))
      (hcontent.field (hrest "reason" (by decide)) reason.reads_name)
  | outOfScope node v =>
    refine hr.alternative_eq hkind rfl fun content hcontent => ?_
    exact Part.seq_ok (Part.map_ok outOfScope
      (hcontent.field (hrest "node_id" (by decide)) (reads_string node)))
      (hcontent.field (hrest "variable" (by decide)) v.reads_toJson)

theorem Diagnostic.reads_toJson (d : Diagnostic) : Diagnostic.ofJson.Reads d.toJson d := by
  intro a origin
  have hkeys : ((("severity", Json.string d.severity.name) :: d.finding.members ++
      [("message", Json.string d.message)]).map Prod.fst).Nodup := by
    have hsub := (d.finding.keys_members.cons_cons "severity").append (.refl ["message"])
    rw [List.map_append]
    exact hsub.nodup (by decide)
  obtain ⟨rest, hown, hrest⟩ : ∃ rest, asObject ((·, ·, ·) <$> .field "severity" Severity.ofJson <*>
        .field "message" asString <*> .others ["severity", "message"]) origin
        (.ofJson (a d.toJson)) = .ok (d.severity, d.message, rest) ∧
      rest.Shows a (hide ["severity", "message"] _) := by
    refine exists_asObject hkeys (fun a r rest hr hothers => ?_) a origin
    have hseverity : Part.field "severity" Severity.ofJson r = .ok d.severity :=
      hr.field rfl d.severity.reads_name
    have hmessage : Part.field "message" asString r = .ok d.message := by
      have hfinding : d.finding.members.lookup "message" = none := by
        cases d.finding <;> simp [Finding.members]
      exact hr.field (by simp [List.lookup_append, hfinding]) (reads_string d.message)
    exact Part.seq_ok (Part.seq_ok (Part.map_ok _ hseverity) hmessage) hothers
  have hfinding : Finding.ofRecord rest = .ok d.finding := by
    refine Finding.ofRecord_ok hrest fun name hname => ?_
    rw [hide, if_neg hname]
    simp only [List.mem_cons, not_or] at hname
    simp [List.lookup_append, hname]
  unfold ofJson
  rw [hown]
  show Except.bind (Finding.ofRecord rest) _ = _
  rw [hfinding]
  rfl

/-- Reading undoes writing. A graph, a plan or a diagnostic is read again from the value that it is
written as, with the members in the order in which they are written or sorted by their keys. -/
theorem run_ofJson_toJson :
    (∀ g : Graph, g.HasFiniteLimits →
      Graph.ofJson.run g.toJson = .ok g ∧ Graph.ofJson.run g.toJson.normalize = .ok g) ∧
    (∀ p : Plan, p.HasFiniteLimits →
      Plan.ofJson.run p.toJson = .ok p ∧ Plan.ofJson.run p.toJson.normalize = .ok p) ∧
    ∀ d : Diagnostic,
      Diagnostic.ofJson.run d.toJson = .ok d ∧
        Diagnostic.ofJson.run d.toJson.normalize = .ok d := by
  refine ⟨fun g hg => ?_, fun p hp => ?_, fun d => ?_⟩
  · exact ⟨(Graph.reads_toJson hg).run, (Graph.reads_toJson hg).run_normalize⟩
  · exact ⟨(Plan.reads_toJson hp).run, (Plan.reads_toJson hp).run_normalize⟩
  · exact ⟨d.reads_toJson.run, d.reads_toJson.run_normalize⟩

/-- A graph with a limit in seconds, with an empty table of counts by qualifier, with variables
whose indices are sorted otherwise as texts, and with an edge without handles; and the step of a
plan that carries the same limit. -/
theorem run_ofJson_toJson_limits :
    let limit : Predicate := .timeBetween 0 1 (some (.ofInt 60)) none
    let g : Graph := ⟨[⟨"pay", .event { EventNode.empty with
        eventVariables := .ofList [(9, ∅), (10, .ofList ["pay"])] compare
        qualifiedCounts := some ∅
        filters := [limit] }⟩, ⟨"both", .gate .and⟩], [⟨"e", "pay", "both", none, none, none⟩]⟩
    let p : Plan := ⟨[⟨.event 9, ∅, "pay"⟩], [⟨"pay", none, [], [], ⟨[9, 10], []⟩,
      .event ⟨⟨0, Bound.greatestSafe⟩, none, none, none, [limit], []⟩⟩]⟩
    Graph.ofJson.run g.toJson = .ok g ∧ Plan.ofJson.run p.toJson.normalize = .ok p := by
  intro limit g p
  have hlimit : limit.HasFiniteLimits := ⟨by rintro _ ⟨⟩; decide +kernel, nofun⟩
  have hlimits : ∀ q ∈ [limit], q.HasFiniteLimits := List.forall_mem_singleton.2 hlimit
  have hg : g.HasFiniteLimits := by
    refine List.forall_mem_cons.2 ⟨?_, List.forall_mem_singleton.2 ?_⟩
    · rintro _ ⟨⟩
      exact hlimits
    · exact fun _ hdata => absurd hdata (Option.not_mem_none _)
  have hp : p.HasFiniteLimits := List.forall_mem_singleton.2 hlimits
  obtain ⟨hgraphs, hplans, -⟩ := run_ofJson_toJson
  exact ⟨(hgraphs g hg).1, (hplans p hp).2⟩

end ConstraintGraph
