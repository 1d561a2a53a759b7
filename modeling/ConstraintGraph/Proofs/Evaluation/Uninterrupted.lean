import ConstraintGraph.Proofs.Evaluation.Runs

namespace ConstraintGraph

def Plan.resultsOf (plan : Plan) (answer : Answer) : Except EvaluationError Results :=
  answer.bind (Results.ofAnswer plan)

theorem Call.holdsFlag_of_awaited {c : Call} (awaited : c.awaited = true) : c.holdsFlag = true := by
  rw [holdsFlag, awaited, Bool.true_or]

namespace Session

variable {s : Session} {i : Nat} {c c' : Call} {plan : Plan}

theorem getElem?_setCall (call : s.calls[i]? = some c) : (s.setCall i c c').calls[i]? = some c' :=
  List.getElem?_set_self (List.getElem?_eq_some_iff.1 call).1

/-- The flag stays as it is while the call holds it. -/
theorem setCall_of_holdsFlag (hnew : c'.holdsFlag = true) :
    s.setCall i c c' = { s with calls := s.calls.set i c' } := by
  unfold setCall
  rw [hnew, Bool.not_true, Bool.and_false, if_neg Bool.false_ne_true]

/-- A caller that leaves after the work is done takes the flag down. -/
theorem setCall_leave (awaited : c.awaited = true) (done : c.isAsking = false) :
    s.setCall i c c.leave = { s with calls := s.calls.set i c.leave, inFlight := false } := by
  have hold : c.holdsFlag = true := Call.holdsFlag_of_awaited awaited
  have hnew : c.leave.holdsFlag = false := done
  unfold setCall
  rw [hold, hnew]
  rfl

/-- An evaluation goes from its answer to its verdict, and nothing else happens to the session. -/
theorem exists_finish_eq (call : s.calls[i]? = some c) (awaited : c.awaited = true)
    (stage : c.stage = .asking) (current : s.generation = c.generation) (answer : Answer) :
    ∃ last, s.finish i answer =
      ({ s with
          inFlight := false
          current := (c.plan.resultsOf answer).toOption.or s.current
          calls := s.calls.set i last },
        some ((c.plan.resultsOf answer).map s.outcome)) := by
  let answered : Call := { c with stage := .answered answer }
  let s₁ : Session := s.setCall i c answered
  have hawaited : answered.awaited = true := awaited
  have hs₁ : s₁ = { s with calls := s.calls.set i answered } :=
    setCall_of_holdsFlag (Call.holdsFlag_of_awaited hawaited)
  have hanswer : s.step (.answer i answer) = some (s₁, none) :=
    step_of_transition (.answer call stage)
  have hanswered : s₁.calls[i]? = some answered := getElem?_setCall call
  have hgeneration : s₁.generation = answered.generation := current
  -- Where the answer gives no results the caller has its verdict, and nothing is left to store.
  have hfailed : ∀ e, s₁.step (.resume i) =
      some (s₁.setCall i answered answered.leave, some (.error e)) →
      c.plan.resultsOf answer = .error e → s.finish i answer =
        ({ s with
            inFlight := false
            current := (c.plan.resultsOf answer).toOption.or s.current
            calls := s.calls.set i answered.leave },
          some ((c.plan.resultsOf answer).map s.outcome)) := by
    intro e hresume hresults
    have hleft : (s₁.setCall i answered answered.leave).calls[i]? = some answered.leave :=
      getElem?_setCall hanswered
    have hover : (s₁.setCall i answered answered.leave).step (.store i) = none := by
      rw [step, hleft]
      rfl
    have hlast : s₁.setCall i answered answered.leave =
        { s with calls := s.calls.set i answered.leave, inFlight := false } := by
      rw [setCall_leave hawaited rfl, hs₁, List.set_set]
    simp only [finish, runActions, List.foldl_cons, List.foldl_nil, hanswer, hresume, hover]
    rw [hlast, hresults]
    rfl
  cases hresults : c.plan.resultsOf answer with
  | error e =>
    refine ⟨answered.leave, ?_⟩
    rw [← hresults]
    refine hfailed e ?_ hresults
    cases answer with
    | error fault =>
      obtain rfl : fault = e := Except.error.inj hresults
      exact step_of_transition (.fail hanswered awaited rfl)
    | ok raw => exact step_of_transition (.reject hanswered awaited rfl hgeneration hresults)
  | ok results =>
    cases answer with
    | error fault => cases hresults
    | ok raw =>
      let storing : Call := { answered with stage := .storing results }
      let s₂ : Session := s₁.setCall i answered storing
      have hwaits : storing.awaited = true := awaited
      have hs₂ : s₂ = { s with calls := s.calls.set i storing } := by
        have hset : s₂ = { s₁ with calls := s₁.calls.set i storing } :=
          setCall_of_holdsFlag (Call.holdsFlag_of_awaited hwaits)
        rw [hset, hs₁, List.set_set]
      have haccept : s₁.step (.resume i) = some (s₂, none) :=
        step_of_transition (.accept hanswered awaited rfl hgeneration hresults)
      have hstoring : s₂.calls[i]? = some storing := getElem?_setCall hanswered
      have hstore := step_of_transition (.store hstoring awaited rfl hgeneration)
      refine ⟨storing.leave, ?_⟩
      simp only [finish, runActions, List.foldl_cons, List.foldl_nil, hanswer, haccept, hstore]
      rw [setCall_leave hwaits rfl, hs₂, List.set_set]
      rfl

/-- An evaluation that finds the flag down leaves it down, and leaves a call that is over. -/
theorem exists_evaluate_eq (hdown : s.inFlight = false) (plan : Plan) (answer : Answer) :
    ∃ last, s.evaluate plan answer =
      ({ s with
          current := (plan.resultsOf answer).toOption.or s.current
          calls := s.calls ++ [last] },
        (plan.resultsOf answer).map s.outcome) := by
  let c : Call := ⟨plan, s.generation, true, .asking⟩
  let s₁ : Session := { s with inFlight := true, calls := s.calls ++ [c] }
  have hbegin : s.begin plan = (s₁, none) := by
    rw [begin, hdown, if_neg Bool.false_ne_true]
  -- The call that has just begun is the last one.
  have hplace : s₁.calls.length - 1 = s.calls.length := by
    rw [List.length_append]
    exact Nat.add_sub_cancel ..
  have hcall : s₁.calls[s.calls.length]? = some c := List.getElem?_concat_length ..
  obtain ⟨last, hfinish⟩ := exists_finish_eq hcall rfl rfl rfl answer
  have hset : s₁.calls.set s.calls.length last = s.calls ++ [last] := by
    rw [List.set_append_right _ _ (Nat.le_refl _), Nat.sub_self]
    rfl
  refine ⟨last, ?_⟩
  rw [evaluate, hbegin]
  show ((s₁.finish (s₁.calls.length - 1) answer).1,
    (s₁.finish (s₁.calls.length - 1) answer).2.getD _) = _
  rw [hplace, hfinish, hset, ← hdown]
  rfl

theorem evaluate_of_inFlight (hup : s.inFlight = true) (plan : Plan) (answer : Answer) :
    s.evaluate plan answer = (s, .error .inProgress) := by
  rw [evaluate, begin, if_pos hup]

end Session
end ConstraintGraph
