import ConstraintGraph.Proofs.CommandLine.Crashes
import ConstraintGraph.Proofs.Reading.Responses

namespace ConstraintGraph

/-- The raw answer with its response written anew. What is no response stays as it is. -/
def Json.resave (raw : Json) : Json :=
  match Response.read raw with
  | .ok r => r.toJson
  | .error _ => raw

theorem Json.resave_of_read {raw : Json} {r : Response} (h : Response.read raw = .ok r) :
    raw.resave = r.toJson := by
  rw [resave, h]

theorem Response.read_resave (raw : Json) : read raw.resave = read raw := by
  cases h : read raw with
  | error fault => rw [Json.resave, h, h]
  | ok r => rw [Json.resave_of_read h, read_toJson_of_read h]

theorem Results.ofAnswer_resave (plan : Plan) (raw : Json) :
    ofAnswer plan raw.resave = ofAnswer plan raw := by
  rw [ofAnswer, ofAnswer, Response.read_resave]

def Answer.resave (answer : Answer) : Answer := answer.map Json.resave

def Stage.resave : Stage → Stage
  | .asking => .asking
  | .answered answer => .answered (Answer.resave answer)
  | .storing results => .storing results

def Call.resave (c : Call) : Call := { c with stage := c.stage.resave }

theorem Call.holdsFlag_resave (c : Call) : c.resave.holdsFlag = c.holdsFlag := by
  obtain ⟨plan, generation, awaited, stage⟩ := c
  cases stage <;> rfl

def Action.resave : Action → Action
  | .answer i given => .answer i (Answer.resave given)
  | .evaluate plan => .evaluate plan
  | .resume i => .resume i
  | .store i => .store i
  | .cancel i => .cancel i
  | .clear => .clear

namespace Session

def resave (s : Session) : Session := { s with calls := s.calls.map .resave }

variable (s : Session) (i : Nat) (c : Call)

theorem getElem?_resave : s.resave.calls[i]? = s.calls[i]?.map .resave := List.getElem?_map ..

theorem setCall_resave (c' : Call) :
    s.resave.setCall i c.resave c'.resave = (s.setCall i c c').resave := by
  unfold setCall resave
  rw [Call.holdsFlag_resave, Call.holdsFlag_resave, List.map_set]

theorem leave_resave :
    s.resave.setCall i c.resave c.resave.leave = (s.setCall i c c.leave).resave :=
  s.setCall_resave i c c.leave

/-- That an evaluation begins has nothing to do with responses. -/
theorem begin_resave (plan : Plan) :
    s.resave.begin plan = (s.begin plan).map resave id := by
  let c : Call := ⟨plan, s.generation, true, .asking⟩
  have hcalls : s.calls.map .resave ++ [c] = (s.calls ++ [c]).map .resave := by
    rw [List.map_append]
    rfl
  unfold begin
  show (if s.inFlight = true then _ else _) = _
  split
  · rfl
  · exact congrArg (fun calls => ({ s with inFlight := true, calls := calls }, none)) hcalls

/-- A response that was saved is taken up with the same results and the same faults. -/
theorem takeUp_resave (answer : Answer) :
    s.resave.takeUp i c.resave (Answer.resave answer) =
      (s.takeUp i c answer).map resave id := by
  cases answer with
  | error e => exact congrArg (·, _) (s.leave_resave i c)
  | ok raw =>
    -- Neither the plan nor the generation of a call is touched.
    have hresults : Results.ofAnswer c.resave.plan raw.resave = Results.ofAnswer c.plan raw :=
      Results.ofAnswer_resave c.plan raw
    by_cases hstale : s.generation ≠ c.generation
    · have hstale' : s.resave.generation ≠ c.resave.generation := hstale
      simp only [takeUp, Answer.resave, Except.map, if_pos hstale, if_pos hstale', leave_resave]
      rfl
    · have hcurrent : ¬s.resave.generation ≠ c.resave.generation := hstale
      simp only [takeUp, Answer.resave, Except.map, if_neg hstale, if_neg hcurrent, hresults]
      cases Results.ofAnswer c.plan raw with
      | error e => exact congrArg (·, _) (s.leave_resave i c)
      | ok results =>
        have hstoring := s.setCall_resave i c { c with stage := .storing results }
        exact congrArg (·, _) hstoring

theorem storeResults_resave (results : Results) :
    s.resave.storeResults i c.resave results = (s.storeResults i c results).map resave id := by
  unfold storeResults
  show (if s.generation ≠ c.generation then _ else _) = _
  rw [leave_resave]
  split <;> rfl

/-- What is done with a call is the same if it is so for every call there may be. -/
theorem bind_call_resave {f f' : Call → Option (Session × Option Verdict)}
    (hf : ∀ c, f' c.resave = (f c).map (Prod.map resave id)) :
    s.resave.calls[i]?.bind f' = (s.calls[i]?.bind f).map (Prod.map resave id) := by
  rw [getElem?_resave]
  cases s.calls[i]? with
  | none => rfl
  | some c => exact hf c

/-- A session takes the same step, with the same verdict, if the answers that it was given and is
given now are written anew. -/
theorem step_resave (a : Action) :
    s.resave.step a.resave = (s.step a).map (Prod.map resave id) := by
  cases a with
  | evaluate plan => exact congrArg some (s.begin_resave plan)
  | clear => rfl
  | answer i given =>
    refine s.bind_call_resave i fun ⟨plan, generation, awaited, stage⟩ => ?_
    cases stage with
    | asking =>
      have hset := s.setCall_resave i ⟨plan, generation, awaited, .asking⟩
        ⟨plan, generation, awaited, .answered given⟩
      exact congrArg (fun s' => some (s', none)) hset
    | answered => rfl
    | storing => rfl
  | resume i =>
    refine s.bind_call_resave i fun ⟨plan, generation, awaited, stage⟩ => ?_
    cases stage <;> cases awaited <;> try rfl
    exact congrArg some (s.takeUp_resave i _ _)
  | store i =>
    refine s.bind_call_resave i fun ⟨plan, generation, awaited, stage⟩ => ?_
    cases stage <;> cases awaited <;> try rfl
    exact congrArg some (s.storeResults_resave i _ _)
  | cancel i =>
    refine s.bind_call_resave i fun ⟨plan, generation, awaited, stage⟩ => ?_
    cases awaited with
    | false => rfl
    | true =>
      have hset := s.setCall_resave i ⟨plan, generation, true, stage⟩
        ⟨plan, generation, false, stage⟩
      exact congrArg (fun s' => some (s', none)) hset

/-- A session comes to the same run. -/
theorem runActions_resave (actions : List Action) :
    s.resave.runActions (actions.map .resave) = (s.runActions actions).map resave id := by
  -- The verdict so far is an accumulator of the run, and any one will do.
  unfold runActions
  generalize (none : Option Verdict) = v
  induction actions generalizing s v with
  | nil => rfl
  | cons a actions ih =>
    simp only [List.map_cons, List.foldl_cons, step_resave]
    cases s.step a with
    | none => exact ih s v
    | some next =>
      obtain ⟨s', v'⟩ := next
      cases v' with
      | none => exact ih s' v
      | some verdict => exact ih s' (some verdict)

/-- The calls of a session are all that may show whether an answer was written anew. -/
theorem fields_eq_of_resave {run run' : Session × Option Verdict}
    (h : run.map resave id = run'.map resave id) :
    run.2 = run'.2 ∧ run.1.current = run'.1.current ∧ run.1.inFlight = run'.1.inFlight ∧
      run.1.generation = run'.1.generation := by
  obtain ⟨s, v⟩ := run
  obtain ⟨s', v'⟩ := run'
  obtain ⟨hstate, hverdict⟩ := Prod.mk.inj h
  obtain ⟨hinFlight, hgeneration, hcurrent, -⟩ := Session.mk.inj hstate
  exact ⟨hverdict, hcurrent, hinFlight, hgeneration⟩

end Session

def Response.resultsFor (r : Response) (plan : Plan) : Except EvaluationError Results :=
  if r.results.length = plan.length then .ok (.ofResponse plan r)
  else .error (.lengthMismatch plan.length r.results.length)

theorem Results.ofAnswer_eq {raw : Json} {r : Response} (hread : Response.read raw = .ok r)
    (plan : Plan) : ofAnswer plan raw = r.resultsFor plan := by
  unfold ofAnswer Response.resultsFor
  rw [hread]
  by_cases hlength : r.results.length = plan.length
  · simp [hlength, Except.mapError, bind, Except.bind, pure, Except.pure]
  · simp [hlength, Except.mapError, bind, Except.bind]

def Response.verdict (r : Response) (s : Session) (plan : Plan) : Verdict :=
  (r.resultsFor plan).map s.outcome

def Results.zero (plan : Plan) : Results := ⟨plan.nodeIds.map (⟨·, .zero⟩), [], []⟩

/-- As many zeros as steps make up the view with nothing in it. -/
theorem Results.ofResponse_zero (plan : Plan) :
    ofResponse plan (.zero plan.length) = .zero plan := by
  have hzip (ids : List String) : List.zipWith LabelledResult.mk ids
      (List.replicate ids.length .zero) = ids.map (⟨·, .zero⟩) := by
    induction ids with
    | nil => rfl
    | cons id ids ih => rw [List.length_cons, List.replicate_succ, List.zipWith_cons_cons, ih]; rfl
  have hlength : plan.nodeIds.length = plan.length := List.length_map _
  unfold ofResponse zero Response.zero
  rw [← hlength, hzip]

/-- Where nothing is found the total is zero. -/
theorem Results.violationCount_zero (plan : Plan) : (zero plan).violationCount = 0 := by
  rw [violationCount, zero, List.map_map]
  exact List.sum_eq_zero fun n hn => by
    obtain ⟨id, -, rfl⟩ := List.mem_map.1 hn
    rfl

/-- The answers of an evaluator in place of those that were given; `plans` are the plans of the
calls. -/
def Action.answeredBy (e : StaticEvaluator) (plans : Nat → Plan) : Action → Action
  | .answer i _ => .answer i (e.answer (plans i))
  | a => a

namespace StaticEvaluator

variable {v : Json} {r : Response} {plan : Plan} {s : Session}

theorem answer_of_read (h : Response.read v = .ok r) (plan : Plan) :
    (mk v).answer plan = .ok v := by
  refine if_neg ?_
  rintro rfl
  exact nomatch h

/-- The verdict depends on the response that is read, and not on how it was written. -/
theorem evaluate_of_read (hdown : s.inFlight = false) (h : Response.read v = .ok r) :
    (s.evaluate plan ((mk v).answer plan)).2 = r.verdict s plan := by
  rw [answer_of_read h, Session.evaluate_eq hdown, Results.ofAnswer_eq h, Response.verdict]

/-- Results that find nothing have a total, so the evaluation applies them even if they are logged.
-/
theorem evaluate_empty (hdown : s.inFlight = false) :
    (s.evaluate plan (empty.answer plan)).2 = .ok (.applied (.zero plan)) := by
  have hread := Response.read_toJson (Response.validate_zero plan.length)
  have hanswer : empty.answer plan = .ok (Response.zero plan.length).toJson := if_pos rfl
  have hlength : (Response.zero plan.length).results.length = plan.length :=
    List.length_replicate ..
  have houtcome : s.outcome (.zero plan) = .applied (.zero plan) := by
    rw [Session.outcome_eq, Results.violationCount_zero]
    exact if_neg fun hcrash => absurd hcrash.2 (by decide)
  rw [hanswer, Session.evaluate_eq hdown, Results.ofAnswer_eq hread, Response.resultsFor,
    if_pos hlength, Results.ofResponse_zero, Except.map, houtcome]

/-- Written anew, the answers of both evaluators are the same. -/
theorem resave_answeredBy (h : Response.read v = .ok r) (plans : Nat → Plan) (a : Action) :
    (a.answeredBy ⟨v⟩ plans).resave = (a.answeredBy (ofResponse r) plans).resave := by
  have hsaved : Response.read r.toJson = .ok r := Response.read_toJson_of_read h
  have hsame : v.resave = r.toJson.resave := by
    rw [Json.resave_of_read h, Json.resave_of_read hsaved]
  cases a with
  | answer i given =>
    -- A response can be read from both, so neither is the `null` that stands for no situations.
    simp only [Action.answeredBy, ofResponse, answer_of_read h, answer_of_read hsaved]
    exact congrArg (fun raw => Action.answer i (.ok raw)) hsame
  | _ => rfl

theorem runActions_answeredBy (h : Response.read v = .ok r) (plans : Nat → Plan) (s : Session)
    (actions : List Action) :
    (s.runActions (actions.map (.answeredBy ⟨v⟩ plans))).map Session.resave id =
      (s.runActions (actions.map (.answeredBy (ofResponse r) plans))).map Session.resave id := by
  rw [← Session.runActions_resave, ← Session.runActions_resave, List.map_map, List.map_map]
  exact congrArg s.resave.runActions (List.map_congr_left fun a _ => resave_answeredBy h plans a)

end StaticEvaluator

namespace CommandLine.Host

variable {h : Host} {path : String} {r : Response} {plan : Plan}

/-- A saved response that is loaded has passed the checks. -/
theorem exists_read_of_loadResponse (hload : h.loadResponse path = .ok r) :
    ∃ v, Response.read v = .ok r := by
  unfold loadResponse at hload
  cases hcontent : h.content .response path with
  | error failure => rw [hcontent] at hload; exact nomatch hload
  | ok text =>
    rw [hcontent] at hload
    cases hread : Response.ofText text with
    | error fault =>
      simp only [hread, Except.mapError, bind, Except.bind] at hload
      exact nomatch hload
    | ok found =>
      simp only [hread, Except.mapError, bind, Except.bind] at hload
      obtain rfl := Except.ok.inj hload
      unfold Response.ofText at hread
      cases hjson : Json.ofText? text with
      | none => rw [hjson] at hread; exact nomatch hread
      | some v => rw [hjson] at hread; exact ⟨v, hread⟩

/-- A saved response is wrong for a plan only in its length. -/
theorem conclude_saved {logs : Bool} {limit : Nat} {v : Json} (hread : Response.read v = .ok r) :
    conclude logs plan ((StaticEvaluator.ofResponse r).answer plan) limit =
      if r.results.length = plan.length then
        if logs = true ∧ 2 ^ 64 ≤ (Results.ofResponse plan r).violationCount then .error .crashed
        else .ok (.results (.ofResponse plan r) limit)
      else .error (.evaluation (.lengthMismatch plan.length r.results.length)) := by
  have hsaved : Response.read r.toJson = .ok r := Response.read_toJson_of_read hread
  have hanswer : (StaticEvaluator.ofResponse r).answer plan = .ok r.toJson :=
    StaticEvaluator.answer_of_read hsaved plan
  have hresults : plan.resultsOf (.ok r.toJson) = r.resultsFor plan :=
    Results.ofAnswer_eq hsaved plan
  rw [conclude_eq, hanswer, hresults, Response.resultsFor]
  by_cases hlength : r.results.length = plan.length
  · rw [if_pos hlength, if_pos hlength]
  · rw [if_neg hlength, if_neg hlength]

/-- When graph and response are loaded, only the length and the total are left to be wrong. -/
theorem evaluate_saved {logs : Bool} {graph : String} {g : Graph} {e : RemoteEvaluator}
    {limit : Nat} (hgraph : h.loadGraph graph = .ok g) (hplan : g.plan = .ok plan)
    (hload : h.loadResponse path = .ok r) :
    h.evaluate logs graph e (some path) limit = .silent
      (if r.results.length = plan.length then
        if logs = true ∧ 2 ^ 64 ≤ (Results.ofResponse plan r).violationCount then .error .crashed
        else .ok (.results (.ofResponse plan r) limit)
      else .error (.evaluation (.lengthMismatch plan.length r.results.length))) := by
  obtain ⟨v, hread⟩ := exists_read_of_loadResponse hload
  have hsaved : h.evaluateSaved logs plan path limit =
      conclude logs plan ((StaticEvaluator.ofResponse r).answer plan) limit := by
    rw [evaluateSaved, hload]
    rfl
  rw [← conclude_saved hread, ← hsaved, evaluate, hgraph]
  simp only [bind, Except.bind, hplan, Except.mapError]

end CommandLine.Host

/-- The evaluator that gives back a JSON value and the one that gives back the response which was
read from it stand for each other: an evaluation ends with the same results or with the same
mismatch of lengths, and a session in which anything else happens in between comes to the same
verdict and the same results. The evaluator that finds nothing has a result for every step of every
plan. For a saved response that was loaded its length is left to be wrong, and if the results are
logged the number of its violations is left to be too great. -/
theorem StaticEvaluator.saved_answers_like_live (plan : Plan) :
    (∀ v r, Response.read v = .ok r → Response.read r.toJson = .ok r ∧
      (∀ s : Session, s.inFlight = false →
        (s.evaluate plan ((mk v).answer plan)).2 = r.verdict s plan ∧
        (s.evaluate plan ((ofResponse r).answer plan)).2 = r.verdict s plan) ∧
      ∀ (s : Session) plans (actions : List Action) live saved,
        s.runActions (actions.map (.answeredBy ⟨v⟩ plans)) = live →
        s.runActions (actions.map (.answeredBy (ofResponse r) plans)) = saved →
          live.2 = saved.2 ∧ live.1.current = saved.1.current ∧
          live.1.inFlight = saved.1.inFlight ∧ live.1.generation = saved.1.generation) ∧
    (∀ s : Session, s.inFlight = false →
      (s.evaluate plan (empty.answer plan)).2 = .ok (.applied (.zero plan))) ∧
    ∀ (h : CommandLine.Host) logs graph g path r e limit, h.loadGraph graph = .ok g →
      g.plan = .ok plan → h.loadResponse path = .ok r →
        h.evaluate logs graph e (some path) limit = .silent
          (if r.results.length = plan.length then
            if logs = true ∧ 2 ^ 64 ≤ (Results.ofResponse plan r).violationCount then
              .error .crashed
            else .ok (.results (.ofResponse plan r) limit)
          else .error (.evaluation (.lengthMismatch plan.length r.results.length))) := by
  refine ⟨fun v r hread => ?_, fun s hdown => evaluate_empty hdown,
    fun h logs graph g path r e limit hgraph hplan hload =>
      CommandLine.Host.evaluate_saved hgraph hplan hload⟩
  have hsaved : Response.read r.toJson = .ok r := Response.read_toJson_of_read hread
  refine ⟨hsaved, fun s hdown => ?_, ?_⟩
  · exact ⟨evaluate_of_read hdown hread, evaluate_of_read hdown hsaved⟩
  · -- Both sessions take the same steps and differ only in the answers that they keep.
    rintro s plans actions live saved rfl rfl
    exact Session.fields_eq_of_resave (runActions_answeredBy hread plans s actions)

/-- A response with a reason, a situation without one and a table left out, to a graph of one node;
the files hold the graph and the response as they are written. -/
theorem StaticEvaluator.saved_answers_like_live_one_step :
    ∃ (g : Graph) (v : Json) (r : Response) (plan : Plan), g.plan = .ok plan ∧
      g.nodes.map (·.id) = ["pay"] ∧
      r.results =
        [⟨2, 1, [⟨⟨∅, .ofList [(1, 0)] compare⟩, some .child⟩, ⟨⟨∅, ∅⟩, none⟩]⟩] ∧
      Response.read v = .ok r ∧
      Response.read r.toJson = .ok r ∧
      ((Session.fresh true).evaluate plan ((mk v).answer plan)).2 =
        .ok (.applied (.ofResponse plan r)) ∧
      ((Session.fresh true).evaluate plan ((ofResponse r).answer plan)).2 =
        .ok (.applied (.ofResponse plan r)) ∧
      ((Session.fresh true).runActions [.evaluate plan, .answer 0 (.ok v), .clear, .resume 0]).2 =
        ((Session.fresh true).runActions
          [.evaluate plan, .answer 0 (.ok r.toJson), .clear, .resume 0]).2 ∧
      ((Session.fresh true).evaluate plan (empty.answer plan)).2 =
        .ok (.applied ⟨[⟨"pay", .zero⟩], [], []⟩) ∧
      CommandLine.Host.evaluate
        ⟨fun path => .text (if path = "graph" then g.toJson.compact else v.compact),
          fun _ => none, fun _ _ => .unreachable⟩ true "graph" ⟨""⟩ (some "response") 5 =
        .silent (.ok (.results (.ofResponse plan r) 5)) := by
  let pay : EventNode := { EventNode.empty with objectVariables := .ofList [(0, ∅)] compare }
  let g : Graph := ⟨[⟨"pay", .event pay⟩], []⟩
  let situations : List Json :=
    [.array [.object [("objectMap", .object [("1", .int 0)])], .string "ChildNotSatisfied"],
      .array [.object [], .null]]
  let v : Json := .object [("objectIds", .array [.string "o"]), ("evaluationResults", .array
    [.object [("situationCount", .int 2), ("situationViolatedCount", .int 1),
      ("situations", .array situations)]])]
  let r : Response :=
    ⟨[⟨2, 1, [⟨⟨∅, .ofList [(1, 0)] compare⟩, some .child⟩, ⟨⟨∅, ∅⟩, none⟩]⟩], [], ["o"]⟩
  let h : CommandLine.Host :=
    ⟨fun path => .text (if path = "graph" then g.toJson.compact else v.compact),
      fun _ => none, fun _ _ => .unreachable⟩
  obtain ⟨plan, hplan⟩ := Graph.exists_plan_iff.2
    (show Compilation.hasErrors g.compile = false by decide +kernel)
  have hids : plan.nodeIds = ["pay"] := (Graph.nodeIds_eq hplan).trans (by decide +kernel)
  have hlength : plan.length = 1 := by
    rw [Plan.length, ← List.length_map PlanEntry.id]
    exact congrArg List.length hids
  have hread : Response.read v = .ok r := by decide +kernel
  have hcount : (Results.ofResponse plan r).violationCount = 1 := by
    rw [Results.violationCount_ofResponse, hlength]
    rfl
  have hfits : ¬ (true = true ∧ 2 ^ 64 ≤ (Results.ofResponse plan r).violationCount) := by
    rw [hcount]
    decide
  have hverdict : r.verdict (.fresh true) plan = .ok (.applied (.ofResponse plan r)) := by
    have hsame : r.results.length = plan.length := hlength.symm
    rw [Response.verdict, Response.resultsFor, if_pos hsame, Except.map, Session.outcome_eq]
    exact congrArg Except.ok (if_neg hfits)
  have hgraph : h.loadGraph "graph" = .ok g := by decide +kernel
  have hload : h.loadResponse "response" = .ok r := by decide +kernel
  obtain ⟨hpaths, hempty, hline⟩ := saved_answers_like_live plan
  obtain ⟨hsaved, hverdicts, hruns⟩ := hpaths v r hread
  obtain ⟨hlive, hagain⟩ := hverdicts (.fresh true) rfl
  have hrun := (hruns (.fresh true) (fun _ => plan)
    [.evaluate plan, .answer 0 (.ok .null), .clear, .resume 0] _ _ rfl rfl).1
  have hzero := hempty (.fresh true) rfl
  rw [Results.zero, hids] at hzero
  refine ⟨g, v, r, plan, hplan, rfl, rfl, hread, hsaved, hlive.trans hverdict,
    hagain.trans hverdict, ?_, hzero, ?_⟩
  · simpa only [List.map_cons, List.map_nil, Action.answeredBy, ofResponse, answer_of_read hread,
      answer_of_read hsaved] using hrun
  · exact (hline h true "graph" g "response" r ⟨""⟩ 5 hgraph hplan hload).trans
      (congrArg _ ((if_pos hlength.symm).trans (if_neg hfits)))

namespace CommandLine

def Host.overflowing : Host where
  file path :=
    if path = "g.json" then
      .text ("\x7b\"nodes\":[" ++
        "\x7b\"id\":\"a\",\"type\":\"eventType\",\"newEventVars\":\x7b\"0\":[]\x7d\x7d," ++
        "\x7b\"id\":\"b\",\"type\":\"eventType\",\"newEventVars\":\x7b\"0\":[]\x7d\x7d]\x7d")
    else if path = "r.json" then
      .text "\x7b\"evaluationResults\":[[18446744073709551615,18446744073709551615],[1,1]]\x7d"
    else .absent
  environment _ := none
  deliver _ _ := .unreachable

def Invocation.overflowing (format : Format) (quiet : Bool) : Invocation :=
  ⟨format, quiet, none, .evaluate "g.json" none (some "r.json") 5⟩

theorem Host.perform_overflowing (format : Format) :
    (overflowing.perform (.overflowing format false)).result = .error .crashed := by
  have hperform : (overflowing.perform (.overflowing .text false)).result = .error .crashed := by
    decide +kernel
  exact hperform

end CommandLine

/-- The response is loaded and has a result for each of the two steps, and yet there are no
results. -/
theorem StaticEvaluator.loaded_answer_crashes :
    ∃ (h : CommandLine.Host) (i : CommandLine.Invocation) (r : Response),
      i.job = .evaluate "g.json" none (some "r.json") 5 ∧ h.loadResponse "r.json" = .ok r ∧
      r.results.length = 2 ∧ (h.perform i).result = .error .crashed := by
  have hload : CommandLine.Host.overflowing.loadResponse "r.json" =
      .ok ⟨[⟨18446744073709551615, 18446744073709551615, []⟩, ⟨1, 1, []⟩], [], []⟩ := by
    decide +kernel
  exact ⟨.overflowing, .overflowing .text false, _, rfl, hload, rfl,
    CommandLine.Host.perform_overflowing .text⟩

end ConstraintGraph
