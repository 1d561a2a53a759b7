import ConstraintGraph.Proofs.Evaluation.Attribution
import ConstraintGraph.Proofs.Reading.Validation

namespace ConstraintGraph

/-- Different indices have different display names. -/
theorem Variable.display_inj {kind : VariableKind} {v w : UInt32}
    (h : display ⟨kind, v⟩ = display ⟨kind, w⟩) : v = w := by
  have hdigits : toString v.toNat = toString w.toNat :=
    (String.append_right_inj (kind.stem ++ "_")).1 h
  have hread := congrArg Text.uint32? hdigits
  rw [Text.uint32?_toString, Text.uint32?_toString] at hread
  exact Option.some.inj hread

/-- The map has the variables of `p` by their names, which begin with `stem`, and what stands in the
table at their positions. -/
structure Positions.ResolvesTo (p : Positions) (stem : String) (ids : List String)
    (m : Std.ExtTreeMap String String) : Prop where
  -- There is one entry for each variable and no other entry.
  entries : (m.toList.map fun e => (e.1, some e.2)).Perm
    (p.toList.map fun e => (stem ++ toString e.1.toNat, ids[e.2.toNat]?))
  getElem?_eq : ∀ (v : UInt32) (i : UInt64), p[v]? = some i →
    i.toNat < ids.length ∧ m[stem ++ toString v.toNat]? = ids[i.toNat]?

/-- Nothing of the situation is lost in the resolved binding. -/
structure Results.Resolves (view : Results) (s : Situation) (b : ResolvedBinding) : Prop where
  events : s.binding.events.ResolvesTo "ev_" view.eventIds b.events
  objects : s.binding.objects.ResolvesTo "ob_" view.objectIds b.objects
  violation_eq : b.violation = s.violation

namespace Results

variable {view : Results} {plan : Plan} {r : Response}

/-- The situations that violate a node, in order; an id that belongs to no result has none. -/
def violating (view : Results) (id : String) : List Situation :=
  match view.get? id with
  | some result => result.situations.filter (·.violation.isSome)
  | none => []

/-- Different variables of one kind have different names, so no position is lost when they are
named. -/
theorem resolvePositions_eq (kind : VariableKind) {ids : List String} {p : Positions}
    (hp : p.IsWithin ids.length) :
    ∃ entries : List (String × String), resolvePositions kind ids p = .ofList entries ∧
      (entries.map Prod.fst).Nodup ∧ (entries.map fun e => (e.1, some e.2)) =
        p.toList.map fun e => (Variable.display ⟨kind, e.1⟩, ids[e.2.toNat]?) := by
  let name (e : UInt32 × UInt64) : String := Variable.display ⟨kind, e.1⟩
  let named? (e : UInt32 × UInt64) : Option (String × String) := ids[e.2.toNat]?.map (name e, ·)
  have hall : ∀ l : List (UInt32 × UInt64), (∀ e ∈ l, e.2.toNat < ids.length) →
      ((l.filterMap named?).map fun e => (e.1, some e.2)) =
        l.map fun e => (name e, ids[e.2.toNat]?) := by
    intro l hl
    induction l with
    | nil => rfl
    | cons e l ih =>
      obtain ⟨he, hl⟩ := List.forall_mem_cons.1 hl
      have hsome : named? e = some (name e, ids[e.2.toNat]) := by
        simp only [named?, List.getElem?_eq_getElem he, Option.map_some]
      rw [List.filterMap_cons_some hsome, List.map_cons, List.map_cons, ih hl,
        List.getElem?_eq_getElem he]
  have hwithin : ∀ e ∈ p.toList, e.2.toNat < ids.length := fun e he =>
    hp e.1 e.2 (Std.ExtTreeMap.mem_toList_iff_getElem?_eq_some.1 he)
  have hentries := hall p.toList hwithin
  refine ⟨p.toList.filterMap named?, rfl, ?_, hentries⟩
  -- The names are those of all the variables, and these are the keys of a map.
  have hnames : (p.toList.filterMap named?).map Prod.fst =
      (p.toList.map Prod.fst).map fun v => Variable.display ⟨kind, v⟩ := by
    have hfst := congrArg (List.map Prod.fst) hentries
    rw [List.map_map, List.map_map] at hfst
    rw [List.map_map]
    exact hfst
  rw [hnames]
  exact (Json.nodup_keys p).map fun v w => Variable.display_inj

/-- Positions within the ids of a table resolve to all of these ids, and to no others. -/
theorem resolvesTo_resolvePositions (kind : VariableKind) {ids : List String} {p : Positions}
    (hp : p.IsWithin ids.length) :
    p.ResolvesTo (kind.stem ++ "_") ids (resolvePositions kind ids p) := by
  obtain ⟨entries, hmap, hnames, hentries⟩ := resolvePositions_eq kind hp
  have hperm : (resolvePositions kind ids p).toList.Perm entries := by
    rw [hmap]
    exact Json.toList_ofList_perm hnames
  have hshown := hperm.map fun e => (e.1, some e.2)
  rw [hentries] at hshown
  refine ⟨hshown, fun v i hv => ⟨hp v i hv, ?_⟩⟩
  have hmem : (v, i) ∈ p.toList := Std.ExtTreeMap.mem_toList_iff_getElem?_eq_some.2 hv
  obtain ⟨⟨name, id⟩, hentry, heq⟩ := List.mem_map.1 (hshown.mem_iff.2 (List.mem_map_of_mem hmem))
  obtain ⟨rfl, hid⟩ := Prod.mk.inj heq
  rw [← hid]
  exact Std.ExtTreeMap.mem_toList_iff_getElem?_eq_some.1 hentry

/-- Where positions are within the tables, resolving a binding loses nothing. -/
theorem resolves_resolve {s : Situation} (hevents : s.binding.events.IsWithin view.eventIds.length)
    (hobjects : s.binding.objects.IsWithin view.objectIds.length) :
    view.Resolves s (view.resolve s.binding s.violation) :=
  ⟨resolvesTo_resolvePositions .event hevents, resolvesTo_resolvePositions .object hobjects, rfl⟩

theorem mem_results_ofResponse {l : LabelledResult} (hl : l ∈ (ofResponse plan r).results) :
    l.result ∈ r.results := by
  rw [ofResponse_results] at hl
  obtain ⟨⟨id, result⟩, hzip, rfl⟩ := List.mem_map.1 hl
  exact (List.of_mem_zip hzip).2

/-- What passes the checks of a session can be resolved. -/
theorem resolves_of_ofAnswer {raw : Json} (h : ofAnswer plan raw = .ok view) {l : LabelledResult}
    (hl : l ∈ view.results) {s : Situation} (hs : s ∈ l.result.situations) :
    view.Resolves s (view.resolve s.binding s.violation) := by
  obtain ⟨r, hread, -, rfl⟩ := ofAnswer_eq_ok_iff.1 h
  have hfits := Response.fits_of_read hread (mem_results_ofResponse hl)
  exact resolves_resolve (hfits.events s hs) (hfits.objects s hs)

theorem map_violations (f : Binding → Option Violation → ResolvedBinding) (result : NodeResult) :
    (result.violations.map fun (b, reason) => f b (some reason)) =
      (result.situations.filter (·.violation.isSome)).map fun s => f s.binding s.violation := by
  unfold NodeResult.violations
  induction result.situations with
  | nil => rfl
  | cons s situations ih =>
    obtain ⟨binding, violation⟩ := s
    cases violation with
    | none => exact ih
    | some reason => exact congrArg (f binding (some reason) :: ·) ih

theorem violations_eq (view : Results) (id : String) (limit : Nat) :
    view.violations id limit =
      ((view.violating id).take limit).map fun s => view.resolve s.binding s.violation := by
  unfold violations violating
  cases view.get? id with
  | none => rw [List.take_nil, List.map_nil]
  | some result =>
    have hall := map_violations view.resolve result
    show (result.violations.take limit).map _ = _
    rw [List.map_take, List.map_take, hall]

theorem exists_of_mem_violating {id : String} {s : Situation} (hs : s ∈ view.violating id) :
    ∃ l ∈ view.results, s ∈ l.result.situations := by
  unfold violating get? at hs
  cases hfound : view.results.find? (·.node == id) with
  | none =>
    rw [hfound] at hs
    cases hs
  | some l =>
    rw [hfound] at hs
    exact ⟨l, List.mem_of_find?_eq_some hfound, List.mem_of_mem_filter hs⟩

end Results

namespace Session

variable {s : Session} {h : History} {e : Event} {clearing : Bool} {view : Results}

/-- Results that an evaluation ended with come from an answer that passed the checks. -/
theorem Interleaves.exists_ofAnswer (hrun : Interleaves h clearing s) (he : e ∈ h)
    (happlied : e.2 = some (.ok (.applied view))) :
    ∃ plan raw, Results.ofAnswer plan raw = .ok view := by
  obtain ⟨i, hstored⟩ := hrun.stored?_of_applied he happlied
  obtain ⟨c, call, stage⟩ := hrun.storing_of_stored? he hstored
  have hfollows := hrun.followsAnswers i c call
  rw [stage] at hfollows
  obtain ⟨raw, -, hresults⟩ := hfollows
  exact ⟨c.plan, raw, hresults⟩

/-- Of the results that an evaluation ended with, every situation is resolved without a loss, and
the violations of a node are its situations with a reason, resolved in order up to the limit. -/
theorem resolution_of_applied (hrun : Interleaves h clearing s) (he : e ∈ h)
    (happlied : e.2 = some (.ok (.applied view))) :
    (∀ l ∈ view.results, ∀ situation ∈ l.result.situations,
      view.Resolves situation (view.resolve situation.binding situation.violation)) ∧
    ∀ id limit, view.violations id limit =
        ((view.violating id).take limit).map (fun s => view.resolve s.binding s.violation) ∧
      (view.violations id limit).length = min limit (view.violating id).length ∧
      List.Forall₂ view.Resolves ((view.violating id).take limit) (view.violations id limit) := by
  -- The view was made of an answer that passed the checks.
  obtain ⟨plan, raw, hresults⟩ := hrun.exists_ofAnswer he happlied
  have hresolves : ∀ l ∈ view.results, ∀ situation ∈ l.result.situations,
      view.Resolves situation (view.resolve situation.binding situation.violation) :=
    fun l hl situation hs => Results.resolves_of_ofAnswer hresults hl hs
  refine ⟨hresolves, fun id limit => ?_⟩
  have heq := view.violations_eq id limit
  refine ⟨heq, ?_, ?_⟩
  · rw [heq, List.length_map, List.length_take]
  · rw [heq, List.forall₂_map_right_iff, List.forall₂_same]
    intro situation hs
    obtain ⟨l, hl, hmem⟩ := Results.exists_of_mem_violating (List.mem_of_mem_take hs)
    exact hresolves l hl situation hmem

/-- A situation binds two variables, of which the greater one has the smaller name, and another one
has no reason. -/
theorem resolution_of_applied_two_variables :
    ∃ (plan : Plan) (raw : Json) (s : Session) (b : Binding) (view : Results),
      Interleaves [(.store 0, some (.ok (.applied view))), (.resume 0, none),
        (.answer 0 (.ok raw), none), (.evaluate plan, none)] false s ∧
      view.results = [⟨"pay", 2, 1, [⟨b, some .child⟩, ⟨⟨∅, ∅⟩, none⟩]⟩] ∧
      b.events.toList = [(2, 0), (10, 1)] ∧
      (view.resolve b (some .child)).events["ev_2"]? = some "e7" ∧
      (view.resolve b (some .child)).events["ev_10"]? = some "e9" ∧
      view.violations "pay" 5 = [view.resolve b (some .child)] ∧
      (view.violations "pay" 0).length = 0 := by
  let plan : Plan := ⟨[], [⟨"pay", none, [], [], ⟨[], []⟩, .gate .and⟩]⟩
  let b : Binding := ⟨.ofList [(10, 1), (2, 0)] compare, ∅⟩
  let bad : Json := .array [.object [("eventMap", .object [("10", .int 1), ("2", .int 0)])],
    .string "ChildNotSatisfied"]
  let raw : Json := .object [("eventIds", .array [.string "e7", .string "e9"]),
    ("evaluationResults", .array [.object [("situationCount", .int 2),
      ("situationViolatedCount", .int 1),
      ("situations", .array [bad, .array [.object [], .null]])]])]
  let r : Response := ⟨[⟨2, 1, [⟨b, some .child⟩, ⟨⟨∅, ∅⟩, none⟩]⟩], ["e7", "e9"], []⟩
  have hread : Response.read raw = .ok r := by decide +kernel
  have hresults : Results.ofAnswer plan raw = .ok (.ofResponse plan r) :=
    Results.ofAnswer_eq_ok_iff.2 ⟨r, hread, rfl, rfl⟩
  let c : Call := ⟨plan, 0, true, .answered (.ok raw)⟩
  have hanswered : Runs [(.answer 0 (.ok raw), none), (.evaluate plan, none)]
      ⟨true, 0, none, [c], true⟩ :=
    .step (.step (.fresh true) rfl) rfl
  have haccept := step_of_transition
    (.accept (s := ⟨true, 0, none, [c], true⟩) (i := 0) (c := c) rfl rfl rfl rfl hresults)
  have hrun := (Runs.step (.step hanswered haccept) (a := .store 0) rfl).interleaves
  obtain ⟨hresolves, hviolations⟩ := resolution_of_applied hrun (List.mem_cons_self ..) rfl
  have hevents := (hresolves _ List.mem_cons_self _ List.mem_cons_self).events
  have hentries : b.events.toList = [(2, 0), (10, 1)] := by decide +kernel
  have hfound : b.events[(2 : UInt32)]? = some 0 ∧ b.events[(10 : UInt32)]? = some 1 := by
    decide +kernel
  refine ⟨plan, raw, _, b, .ofResponse plan r, hrun, rfl, hentries, ?_, ?_, ?_, ?_⟩
  · exact (hevents.getElem?_eq 2 0 hfound.1).2
  · exact (hevents.getElem?_eq 10 1 hfound.2).2
  · exact (hviolations "pay" 5).1
  · exact (hviolations "pay" 0).2.1

end Session
end ConstraintGraph
