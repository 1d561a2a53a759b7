import ConstraintGraph.Proofs.Compilation.Entries
import ConstraintGraph.Proofs.Evaluation.Interleavings
import ConstraintGraph.Proofs.Evaluation.Uninterrupted

namespace ConstraintGraph

/-- The results are those of the response, all of them and in order, under the ids of the steps. -/
structure Results.Labels (view : Results) (plan : Plan) (r : Response) : Prop where
  length_eq : r.results.length = plan.length
  nodes_eq : view.results.map (·.node) = plan.nodeIds
  results_eq : view.results.map (·.result) = r.results
  get?_place : ∀ (k : Nat) id result, plan.nodeIds[k]? = some id → r.results[k]? = some result →
    view.get? id = some result
  get?_eq_none : ∀ id, id ∉ plan.nodeIds → view.get? id = none
  eventIds_eq : view.eventIds = r.eventIds
  objectIds_eq : view.objectIds = r.objectIds

namespace Results

variable {view : Results} {plan : Plan} {r : Response} {id : String}

theorem get?_eq_none (hid : id ∉ view.results.map (·.node)) : view.get? id = none := by
  rw [get?, Option.map_eq_none_iff, List.find?_eq_none]
  intro l hl hnode
  rw [beq_iff_eq] at hnode
  exact hid (hnode ▸ List.mem_map_of_mem hl)

/-- No other result stands in the way where ids do not come twice. -/
theorem get?_of_mem (hids : (view.results.map (·.node)).Nodup) {l : LabelledResult}
    (hl : l ∈ view.results) : view.get? l.node = some l.result := by
  rw [get?, find?_eq_some_of_nodup hids hl]
  rfl

theorem ofResponse_results (plan : Plan) (r : Response) :
    (ofResponse plan r).results =
      (plan.nodeIds.zip r.results).map (Function.uncurry LabelledResult.mk) :=
  (List.map_uncurry_zip_eq_zipWith ..).symm

/-- Distinct ids make the label of a result one that no other result has. -/
theorem labels_ofResponse (hids : plan.nodeIds.Nodup)
    (hlength : r.results.length = plan.length) : (ofResponse plan r).Labels plan r := by
  have hsame : plan.nodeIds.length = r.results.length := by
    rw [Plan.nodeIds, List.length_map, hlength, Plan.length]
  have hnodes : (ofResponse plan r).results.map (·.node) = plan.nodeIds := by
    rw [ofResponse_results, List.map_map]
    exact List.map_fst_zip (Nat.le_of_eq hsame)
  have hresults : (ofResponse plan r).results.map (·.result) = r.results := by
    rw [ofResponse_results, List.map_map]
    exact List.map_snd_zip (Nat.le_of_eq hsame.symm)
  refine ⟨hlength, hnodes, hresults, ?_, ?_, rfl, rfl⟩
  · intro k id result hid hresult
    have hlabelled : (ofResponse plan r).results[k]? = some ⟨id, result⟩ := by
      rw [ofResponse, List.getElem?_zipWith, hid, hresult]
    exact get?_of_mem (hnodes ▸ hids) (List.mem_of_getElem? hlabelled)
  · intro id hid
    exact get?_eq_none (hnodes ▸ hid)

/-- The labels leave nothing open about a view. -/
theorem Labels.eq_ofResponse (hlabels : view.Labels plan r) : view = ofResponse plan r := by
  obtain ⟨results, eventIds, objectIds⟩ := view
  obtain ⟨-, hnodes, hresults, -, -, rfl, rfl⟩ := hlabels
  -- Each result with its id is a pair of the two lists that the labels give.
  have hzip : results = List.zipWith LabelledResult.mk plan.nodeIds r.results := by
    rw [← hnodes, ← hresults, List.zipWith_map, List.zipWith_self, List.map_id'']
    intro l
    rfl
  rw [hzip]
  rfl

/-- An answer has results exactly if it is a response of the length of the plan. -/
theorem ofAnswer_eq_ok_iff {raw : Json} :
    ofAnswer plan raw = .ok view ↔ ∃ r, Response.read raw = .ok r ∧
      r.results.length = plan.length ∧ ofResponse plan r = view := by
  rw [ofAnswer]
  cases Response.read raw with
  | error fault => exact iff_of_false (nomatch ·) fun ⟨_, h, _⟩ => nomatch h
  | ok r =>
    by_cases hlength : r.results.length = plan.length
    · simp [Except.mapError, bind, Except.bind, pure, Except.pure, hlength]
    · simp [Except.mapError, bind, Except.bind, hlength]

/-- What passes the checks labels the response to the plan, and only what does so passes. -/
theorem ofAnswer_eq_ok_iff_labels (hids : plan.nodeIds.Nodup) {raw : Json} :
    ofAnswer plan raw = .ok view ↔ ∃ r, Response.read raw = .ok r ∧ view.Labels plan r := by
  rw [ofAnswer_eq_ok_iff]
  refine exists_congr fun r => and_congr_right fun _ => ?_
  constructor
  · rintro ⟨hlength, rfl⟩
    exact labels_ofResponse hids hlength
  · intro hlabels
    exact ⟨hlabels.length_eq, hlabels.eq_ofResponse.symm⟩

end Results

def Stage.ComesFrom (plan : Plan) (answers : List Answer) : Stage → Prop
  | .asking => answers = []
  | .answered answer => answers = [answer]
  | .storing results => ∃ raw, answers = [.ok raw] ∧ Results.ofAnswer plan raw = .ok results

namespace Session

def Event.answer? (i : Nat) : Event → Option Answer
  | (.answer j answer, _) => if j = i then some answer else none
  | _ => none

namespace History

def plans (h : History) : List Plan := (h.filterMap Event.plan?).reverse

def answers (h : History) (i : Nat) : List Answer := h.filterMap (Event.answer? i)

variable {h : History} {e : Event} {i : Nat}

theorem plans_cons_none (he : e.plan? = none) : plans (e :: h) = h.plans := by
  rw [plans, List.filterMap_cons_none he, plans]

theorem plans_cons_some {plan : Plan} (he : e.plan? = some plan) :
    plans (e :: h) = h.plans ++ [plan] := by
  rw [plans, List.filterMap_cons_some he, List.reverse_cons, plans]

theorem answers_cons_none (he : e.answer? i = none) : answers (e :: h) i = h.answers i :=
  List.filterMap_cons_none he

theorem answers_cons_some {answer : Answer} (he : e.answer? i = some answer) :
    answers (e :: h) i = answer :: h.answers i :=
  List.filterMap_cons_some he

theorem answers_eq_nil (hi : ¬ h.Finished i) : h.answers i = [] := by
  rw [answers, List.filterMap_eq_nil_iff]
  rintro ⟨a, v⟩ he
  cases a with
  | answer j answer => exact if_neg fun hj => hi ⟨_, he, congrArg some hj⟩
  | _ => rfl

end History

variable {s s' : Session} {h : History} {a : Action} {v : Option Verdict} {e : Event}
  {clearing : Bool} {i : Nat} {c c' : Call} {plan : Plan} {view : Results}

def FollowsAnswers (h : History) (s : Session) : Prop :=
  ∀ i (c : Call), s.calls[i]? = some c → c.stage.ComesFrom c.plan (h.answers i)

namespace FollowsAnswers

theorem keep (hf : FollowsAnswers h s) (hcalls : s'.calls = s.calls)
    (he : ∀ i, e.answer? i = none) : FollowsAnswers (e :: h) s' := by
  intro i c call
  rw [History.answers_cons_none (he i)]
  exact hf i c (hcalls ▸ call)

theorem set (hf : FollowsAnswers h s) (hcalls : s'.calls = s.calls.set i c')
    (he : ∀ j, j ≠ i → e.answer? j = none)
    (hstage : c'.stage.ComesFrom c'.plan (History.answers (e :: h) i)) :
    FollowsAnswers (e :: h) s' := by
  intro j d hd
  rcases getElem?_set_cases (hcalls ▸ hd) with ⟨rfl, rfl⟩ | ⟨hj, hd⟩
  · exact hstage
  · rw [History.answers_cons_none (he j hj)]
    exact hf j d hd

theorem leave (hf : FollowsAnswers h s) (call : s.calls[i]? = some c)
    (hcalls : s'.calls = s.calls.set i c.leave) (he : ∀ j, e.answer? j = none) :
    FollowsAnswers (e :: h) s' := by
  refine hf.set hcalls (fun j _ => he j) ?_
  rw [History.answers_cons_none (he i)]
  exact hf i c call

end FollowsAnswers

/-- A step keeps calls where the answers have brought them. -/
theorem Transition.followsAnswers (ht : Transition s a v s') (hr : Reflects h s)
    (hf : FollowsAnswers h s) : FollowsAnswers ((a, v) :: h) s' := by
  cases ht with
  | refuse up => exact hf.keep rfl fun _ => rfl
  | start down =>
    intro i c hc
    rw [History.answers_cons_none rfl]
    rcases getElem?_concat_cases hc with hc | ⟨rfl, rfl⟩
    · exact hf i c hc
    · -- No evaluator has answered for a number that no evaluation had.
      refine History.answers_eq_nil fun hfinished => ?_
      exact Nat.lt_irrefl _ (hr.lt_length _ (Or.inr (Or.inr hfinished)))
  | @answer i c answer call stage =>
    refine hf.set rfl (fun j hj => if_neg (Ne.symm hj)) ?_
    -- The evaluator was still at work, so this is its only answer.
    have hnone : c.stage.ComesFrom c.plan (h.answers i) := hf i c call
    rw [stage] at hnone
    have hself : Event.answer? i (.answer i answer, none) = some answer := if_pos rfl
    rw [History.answers_cons_some hself]
    exact congrArg (answer :: ·) hnone
  | fail call => exact hf.leave call rfl fun _ => rfl
  | overtake call => exact hf.leave call rfl fun _ => rfl
  | reject call => exact hf.leave call rfl fun _ => rfl
  | @accept i c raw results call awaited stage current good =>
    refine hf.set rfl (fun _ _ => rfl) ?_
    have hanswered : c.stage.ComesFrom c.plan (h.answers i) := hf i c call
    rw [stage] at hanswered
    rw [History.answers_cons_none rfl]
    exact ⟨raw, hanswered, good⟩
  | discard call => exact hf.leave call rfl fun _ => rfl
  | store call => exact hf.leave call rfl fun _ => rfl
  | cancel call => exact hf.leave call rfl fun _ => rfl
  | clear => exact hf.keep rfl fun _ => rfl

namespace Interleaves

/-- In every interleaving calls are where the answers have brought them. -/
theorem followsAnswers (hrun : Interleaves h clearing s) : FollowsAnswers h s := by
  induction hrun with
  | fresh =>
    intro i c call
    simp [Session.fresh] at call
  | step run _ _ step ih => exact (transition_of_step step).followsAnswers run.reflects ih
  | advance _ ih => exact ih.keep rfl fun _ => rfl
  | drop _ ih => exact ih

/-- A call keeps the plan that it was asked for with. -/
theorem plans_eq (hrun : Interleaves h clearing s) : s.calls.map (·.plan) = h.plans := by
  induction hrun with
  | fresh => rfl
  | @step h clearing s s' a v _ _ _ step ih =>
    rcases (transition_of_step step).calls_cases with
      ⟨hnone, hcalls⟩ | ⟨plan, hplan, -, hcalls⟩ | ⟨j, d, d', hnone, hd, hcont, hcalls⟩
    · rw [hcalls, ih, History.plans_cons_none hnone]
    · rw [hcalls, List.map_append, ih, History.plans_cons_some hplan]
      rfl
    · -- A call that goes on keeps its plan.
      obtain ⟨hlt, rfl⟩ := List.getElem?_eq_some_iff.1 hd
      have hsame : (s.calls.set j d').map (·.plan) = s.calls.map (·.plan) := by
        rw [List.map_set, hcont.plan_eq, ← List.map_set, List.set_getElem_self]
      rw [hcalls, hsame, ih, History.plans_cons_none hnone]
  | advance _ ih => exact ih
  | drop _ ih => exact ih

/-- The call of an evaluation that stored its results keeps them. -/
theorem storing_of_stored? (hrun : Interleaves h clearing s) (he : e ∈ h)
    (hstored : e.stored? = some (i, view)) :
    ∃ c, s.calls[i]? = some c ∧ c.stage = .storing view := by
  induction hrun with
  | fresh => cases he
  | @step h clearing s s' a v _ _ _ step ih =>
    have ht := transition_of_step step
    rcases List.mem_cons.1 he with rfl | he
    · -- The results wait at the call before they are stored, and it keeps them afterwards.
      obtain ⟨rfl, -, c, call, -, stage, -⟩ := ht.of_stored? hstored
      obtain ⟨c', call', hcont⟩ := ht.exists_continues call
      exact ⟨c', call', hcont.storing view stage⟩
    · obtain ⟨c, call, stage⟩ := ih he
      obtain ⟨c', call', hcont⟩ := ht.exists_continues call
      exact ⟨c', call', hcont.storing view stage⟩
  | advance _ ih =>
    rcases List.mem_cons.1 he with rfl | he
    · cases hstored
    · exact ih he
  | drop _ ih => exact ih he

/-- Of the steps that return a verdict only the one that stores returns results. -/
theorem stored?_of_applied (hrun : Interleaves h clearing s) (he : e ∈ h)
    (happlied : e.2 = some (.ok (.applied view))) : ∃ j, e.stored? = some (j, view) := by
  induction hrun with
  | fresh => cases he
  | @step h clearing s s' a v _ _ _ step ih =>
    rcases List.mem_cons.1 he with rfl | he
    · obtain rfl : v = _ := happlied
      -- No other action returns this outcome.
      cases a with
      | store j => exact ⟨j, rfl⟩
      | _ => cases transition_of_step step
    · exact ih he
  | advance _ ih =>
    rcases List.mem_cons.1 he with rfl | he
    · cases happlied
    · exact ih he
  | drop _ ih => exact ih he

end Interleaves

theorem evaluate_eq (hdown : s.inFlight = false) {raw : Json} :
    (s.evaluate plan (.ok raw)).2 = (Results.ofAnswer plan raw).map s.outcome := by
  obtain ⟨last, heq⟩ := exists_evaluate_eq hdown plan (.ok raw)
  rw [heq]
  rfl

/-- An evaluation with nothing in between stores a view exactly if its answer has it. -/
theorem evaluate_eq_ok_iff (hdown : s.inFlight = false) {raw : Json} {outcome : Outcome}
    (hstored : outcome.stored? = some view) :
    (s.evaluate plan (.ok raw)).2 = .ok outcome ↔
      outcome = s.outcome view ∧ Results.ofAnswer plan raw = .ok view := by
  rw [evaluate_eq hdown]
  cases Results.ofAnswer plan raw with
  | error e => exact iff_of_false (nomatch ·) fun h => nomatch h.2
  | ok results =>
    constructor
    · intro hverdict
      obtain rfl : s.outcome results = outcome := Except.ok.inj hverdict
      obtain rfl := Option.some.inj ((s.stored?_outcome results).symm.trans hstored)
      exact ⟨rfl, rfl⟩
    · rintro ⟨rfl, hresults⟩
      rw [Except.ok.inj hresults]
      rfl

/-- An evaluation of the plan of a graph that ends with results, whatever came in between, labels
the one answer of its evaluator. With nothing in between it comes to store results exactly if the
answer is a response to the plan. -/
theorem applied_labels_plan {g : Graph} (hplan : g.plan = .ok plan) :
    (∀ (h : History) clearing s i (e : Event) (view : Results), Interleaves h clearing s →
      h.plans[i]? = some plan → e ∈ h → e.returned? = some i →
      e.2 = some (.ok (.applied view)) →
        ∃ raw r, h.answers i = [.ok raw] ∧ Response.read raw = .ok r ∧ view.Labels plan r) ∧
      plan.nodeIds.Nodup ∧
      ∀ (s : Session) raw (view : Results) outcome, s.inFlight = false →
        outcome.stored? = some view →
          ((s.evaluate plan (.ok raw)).2 = .ok outcome ↔
            outcome = s.outcome view ∧ ∃ r, Response.read raw = .ok r ∧ view.Labels plan r) := by
  have hids : plan.nodeIds.Nodup := Graph.nodup_nodeIds hplan
  refine ⟨?_, hids, ?_⟩
  · intro h clearing s i e view hrun hstarted he hreturned happlied
    obtain ⟨j, hstored⟩ := hrun.stored?_of_applied he happlied
    have hplace : some i = some j := hreturned.symm.trans (Event.returned?_of_stored? hstored)
    obtain rfl := Option.some.inj hplace
    obtain ⟨c, call, stage⟩ := hrun.storing_of_stored? he hstored
    have hfollows : c.stage.ComesFrom c.plan (h.answers i) := hrun.followsAnswers i c call
    rw [stage] at hfollows
    obtain ⟨raw, hanswers, hresults⟩ := hfollows
    -- The call has kept the plan that the evaluation was asked for.
    have hsame : c.plan = plan := by
      rw [← hrun.plans_eq, List.getElem?_map, call] at hstarted
      exact Option.some.inj hstarted
    rw [hsame, Results.ofAnswer_eq_ok_iff_labels hids] at hresults
    obtain ⟨r, hread, hlabels⟩ := hresults
    exact ⟨raw, r, hanswers, hread, hlabels⟩
  · intro s raw view outcome hdown hstored
    rw [evaluate_eq_ok_iff hdown hstored, Results.ofAnswer_eq_ok_iff_labels hids]

/-- The nodes are listed against the order of their steps, and the results still find them. -/
theorem applied_labels_plan_reversed :
    ∃ plan s view, Graph.plan
        ⟨[⟨"pay", .event { EventNode.empty with objectVariables := .ofList [(1, ∅)] compare }⟩,
          ⟨"place", .event { EventNode.empty with objectVariables := .ofList [(0, ∅)] compare }⟩],
        [.link "place" "pay"]⟩ = .ok plan ∧
      Interleaves [(.store 0, some (.ok (.applied view))), (.resume 0, none),
        (.answer 0 (.ok (.object [("evaluationResults", .array
          [.object [("situationCount", .int 2), ("situationViolatedCount", .int 1)],
            .object [("situationCount", .int 1), ("situationViolatedCount", .int 0)]])])), none),
        (.evaluate plan, none)] false s ∧
      view.get? "place" = some ⟨2, 1, []⟩ ∧ view.get? "pay" = some ⟨1, 0, []⟩ := by
  obtain ⟨plan, hplan⟩ := Graph.exists_plan_iff.2 (show Compilation.hasErrors (Graph.compile
    ⟨[⟨"pay", .event { EventNode.empty with objectVariables := .ofList [(1, ∅)] compare }⟩,
      ⟨"place", .event { EventNode.empty with objectVariables := .ofList [(0, ∅)] compare }⟩],
    [.link "place" "pay"]⟩) = false by decide +kernel)
  have hids : plan.nodeIds = ["place", "pay"] := (Graph.nodeIds_eq hplan).trans (by decide +kernel)
  have hlength : plan.length = 2 := by
    rw [Plan.length, ← List.length_map PlanEntry.id]
    exact congrArg List.length hids
  let raw : Json := .object [("evaluationResults", .array
    [.object [("situationCount", .int 2), ("situationViolatedCount", .int 1)],
      .object [("situationCount", .int 1), ("situationViolatedCount", .int 0)]])]
  let view : Results := .ofResponse plan ⟨[⟨2, 1, []⟩, ⟨1, 0, []⟩], [], []⟩
  have hresults : Results.ofAnswer plan raw = .ok view :=
    Results.ofAnswer_eq_ok_iff.2 ⟨_, rfl, hlength.symm, rfl⟩
  -- The history in three parts, since the plan is known only by its steps.
  let c : Call := ⟨plan, 0, true, .answered (.ok raw)⟩
  have hanswered : Runs [(.answer 0 (.ok raw), none), (.evaluate plan, none)]
      ⟨true, 0, none, [c], false⟩ :=
    .step (.step (.fresh false) rfl) rfl
  have haccept := step_of_transition
    (.accept (s := ⟨true, 0, none, [c], false⟩) (i := 0) (c := c) rfl rfl rfl rfl hresults)
  have hrun := (Runs.step (.step hanswered haccept) (a := .store 0) rfl).interleaves
  obtain ⟨raw', r, hanswers, hread, hlabels⟩ :=
    (applied_labels_plan hplan).1 _ _ _ 0 _ _ hrun rfl (List.mem_cons_self ..) rfl rfl
  obtain rfl := Except.ok.inj (List.cons.inj hanswers).1
  obtain rfl := Except.ok.inj hread
  refine ⟨plan, _, _, hplan, hrun, ?_, ?_⟩
  · exact hlabels.get?_place 0 "place" _ (hids ▸ rfl) rfl
  · exact hlabels.get?_place 1 "pay" _ (hids ▸ rfl) rfl

end Session
end ConstraintGraph
