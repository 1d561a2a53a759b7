import ConstraintGraph.Evaluation.Session

/-!
What can happen to an evaluation session. A transition is a step of a session with its condition
and its effect, and a run is any sequence of steps from a fresh session, in whatever order callers,
evaluators and clears come to it. A run comes with its history, from which alone it is said which
evaluations were started and what became of them.
-/

namespace ConstraintGraph

section Places

variable {α : Type} {l : List α} {i j : Nat} {a b : α}

theorem getElem?_concat_cases (h : (l ++ [a])[j]? = some b) :
    l[j]? = some b ∨ j = l.length ∧ b = a := by
  by_cases hj : j < l.length
  · rw [List.getElem?_append_left hj] at h
    exact Or.inl h
  · rw [List.getElem?_append_right (Nat.not_lt.1 hj)] at h
    obtain ⟨hlt, hb⟩ := List.getElem?_eq_some_iff.1 h
    have hzero : j - l.length = 0 := Nat.lt_one_iff.1 hlt
    refine Or.inr ⟨by omega, ?_⟩
    simpa [hzero] using hb.symm

theorem getElem?_set_cases (h : (l.set i a)[j]? = some b) :
    j = i ∧ b = a ∨ j ≠ i ∧ l[j]? = some b := by
  by_cases hj : j = i
  · subst hj
    have hlt : j < (l.set j a).length := (List.getElem?_eq_some_iff.1 h).1
    rw [List.getElem?_set_self (by simpa using hlt)] at h
    exact Or.inl ⟨rfl, (Option.some.inj h).symm⟩
  · rw [List.getElem?_set_ne (Ne.symm hj)] at h
    exact Or.inr ⟨hj, h⟩

end Places

namespace Session

/-- The steps of a session `s` with the verdicts that they return. -/
inductive Transition (s : Session) : Action → Option Verdict → Session → Prop
  | refuse {plan : Plan} (up : s.inFlight = true) :
    Transition s (.evaluate plan) (some (.error .inProgress)) s
  | start {plan : Plan} (down : s.inFlight = false) :
    Transition s (.evaluate plan) none
      { s with inFlight := true, calls := s.calls ++ [⟨plan, s.generation, true, .asking⟩] }
  | answer {i : Nat} {c : Call} {a : Answer} (call : s.calls[i]? = some c)
    (stage : c.stage = .asking) :
    Transition s (.answer i a) none (s.setCall i c { c with stage := .answered a })
  -- The evaluator failed.
  | fail {i : Nat} {c : Call} {e : EvaluationError} (call : s.calls[i]? = some c)
    (awaited : c.awaited = true) (stage : c.stage = .answered (.error e)) :
    Transition s (.resume i) (some (.error e)) (s.setCall i c c.leave)
  -- The session was cleared before the answer was taken up.
  | overtake {i : Nat} {c : Call} {raw : Json} (call : s.calls[i]? = some c)
    (awaited : c.awaited = true) (stage : c.stage = .answered (.ok raw))
    (stale : s.generation ≠ c.generation) :
    Transition s (.resume i) (some (.ok .stale)) (s.setCall i c c.leave)
  -- The answer does not pass the checks.
  | reject {i : Nat} {c : Call} {raw : Json} {e : EvaluationError} (call : s.calls[i]? = some c)
    (awaited : c.awaited = true) (stage : c.stage = .answered (.ok raw))
    (current : s.generation = c.generation) (bad : Results.ofAnswer c.plan raw = .error e) :
    Transition s (.resume i) (some (.error e)) (s.setCall i c c.leave)
  | accept {i : Nat} {c : Call} {raw : Json} {results : Results} (call : s.calls[i]? = some c)
    (awaited : c.awaited = true) (stage : c.stage = .answered (.ok raw))
    (current : s.generation = c.generation) (good : Results.ofAnswer c.plan raw = .ok results) :
    Transition s (.resume i) none (s.setCall i c { c with stage := .storing results })
  -- The session was cleared before the results were stored.
  | discard {i : Nat} {c : Call} {results : Results} (call : s.calls[i]? = some c)
    (awaited : c.awaited = true) (stage : c.stage = .storing results)
    (stale : s.generation ≠ c.generation) :
    Transition s (.store i) (some (.ok .stale)) (s.setCall i c c.leave)
  | store {i : Nat} {c : Call} {results : Results} (call : s.calls[i]? = some c)
    (awaited : c.awaited = true) (stage : c.stage = .storing results)
    (current : s.generation = c.generation) :
    Transition s (.store i) (some (.ok (s.outcome results)))
      { s.setCall i c c.leave with current := some results }
  | cancel {i : Nat} {c : Call} (call : s.calls[i]? = some c) (awaited : c.awaited = true) :
    Transition s (.cancel i) none (s.setCall i c c.leave)
  | clear : Transition s .clear none { s with generation := s.generation + 1, current := none }

variable {s s' : Session} {a : Action} {v : Option Verdict}

theorem begin_transition (s : Session) (plan : Plan) :
    Transition s (.evaluate plan) (s.begin plan).2 (s.begin plan).1 := by
  cases hflag : s.inFlight with
  | true =>
    simp only [begin, hflag, if_true]
    exact .refuse hflag
  | false =>
    simp only [begin, hflag, Bool.false_eq_true, if_false]
    exact .start hflag

theorem takeUp_transition {i : Nat} {c : Call} {answer : Answer} (call : s.calls[i]? = some c)
    (awaited : c.awaited = true) (stage : c.stage = .answered answer) :
    Transition s (.resume i) (s.takeUp i c answer).2 (s.takeUp i c answer).1 := by
  cases answer with
  | error e => exact .fail call awaited stage
  | ok raw =>
    by_cases hgen : s.generation = c.generation
    · cases hresults : Results.ofAnswer c.plan raw with
      | error e =>
        simp only [takeUp, ne_eq, hgen, not_true_eq_false, if_false, hresults]
        exact .reject call awaited stage hgen hresults
      | ok results =>
        simp only [takeUp, ne_eq, hgen, not_true_eq_false, if_false, hresults]
        exact .accept call awaited stage hgen hresults
    · simp only [takeUp, ne_eq, hgen, not_false_eq_true, if_true]
      exact .overtake call awaited stage hgen

theorem storeResults_transition {i : Nat} {c : Call} {results : Results}
    (call : s.calls[i]? = some c) (awaited : c.awaited = true)
    (stage : c.stage = .storing results) :
    Transition s (.store i) (s.storeResults i c results).2 (s.storeResults i c results).1 := by
  by_cases hgen : s.generation = c.generation
  · simp only [storeResults, ne_eq, hgen, not_true_eq_false, if_false]
    exact .store call awaited stage hgen
  · simp only [storeResults, ne_eq, hgen, not_false_eq_true, if_true]
    exact .discard call awaited stage hgen

/-- Every step is one of the transitions. -/
theorem transition_of_step (h : s.step a = some (s', v)) : Transition s a v s' := by
  cases a with
  | evaluate plan =>
    have hbegin := begin_transition s plan
    rwa [Option.some.inj h] at hbegin
  | answer i answer =>
    obtain ⟨c, hc, h⟩ := Option.bind_eq_some_iff.1 h
    split at h
    · rename_i hstage
      cases h
      exact .answer hc hstage
    all_goals cases h
  | resume i =>
    obtain ⟨c, hc, h⟩ := Option.bind_eq_some_iff.1 h
    split at h
    · rename_i answer hawaited hstage
      have htake := takeUp_transition hc hawaited hstage
      rwa [Option.some.inj h] at htake
    · cases h
  | store i =>
    obtain ⟨c, hc, h⟩ := Option.bind_eq_some_iff.1 h
    split at h
    · rename_i results hawaited hstage
      have hstore := storeResults_transition hc hawaited hstage
      rwa [Option.some.inj h] at hstore
    · cases h
  | cancel i =>
    obtain ⟨c, hc, h⟩ := Option.bind_eq_some_iff.1 h
    split at h
    · rename_i hawaited
      cases h
      exact .cancel hc hawaited
    · cases h
  | clear =>
    cases h
    exact .clear

/-- Every transition is a step. -/
theorem step_of_transition (h : Transition s a v s') : s.step a = some (s', v) := by
  cases h with
  | refuse up => simp [step, begin, up]
  | start down => simp [step, begin, down]
  | answer call stage => simp [step, call, stage]
  | fail call awaited stage => simp [step, call, awaited, stage, takeUp]
  | overtake call awaited stage stale => simp [step, call, awaited, stage, takeUp, stale]
  | reject call awaited stage current bad => simp [step, call, awaited, stage, takeUp, current, bad]
  | accept call awaited stage current good =>
    simp [step, call, awaited, stage, takeUp, current, good]
  | discard call awaited stage stale => simp [step, call, awaited, stage, storeResults, stale]
  | store call awaited stage current => simp [step, call, awaited, stage, storeResults, current]
  | cancel call awaited => simp [step, call, awaited]
  | clear => rfl

abbrev Event := Action × Option Verdict

abbrev History := List Event

def Event.isStart : Event → Bool
  | (.evaluate _, none) => true
  | _ => false

def Event.returned? : Event → Option Nat
  | (.resume i, some _) => some i
  | (.store i, some _) => some i
  | _ => none

def Event.dropped? : Event → Option Nat
  | (.cancel i, _) => some i
  | _ => none

def Event.finished? : Event → Option Nat
  | (.answer i _, _) => some i
  | _ => none

def Event.call? : Event → Option Nat
  | (.evaluate _, _) => none
  | (.answer i _, _) => some i
  | (.resume i, _) => some i
  | (.store i, _) => some i
  | (.cancel i, _) => some i
  | (.clear, _) => none

theorem Event.call?_eq {e : Event} {i : Nat}
    (h : e.returned? = some i ∨ e.dropped? = some i ∨ e.finished? = some i) : e.call? = some i := by
  obtain ⟨a, v⟩ := e
  cases a <;> cases v <;> simp_all [returned?, dropped?, finished?, call?]

namespace History

/-- How many evaluations raised the flag. They are numbered in the order in which they did. -/
def started (h : History) : Nat := h.countP Event.isStart

def Returned (h : History) (i : Nat) : Prop := ∃ e ∈ h, e.returned? = some i

def Dropped (h : History) (i : Nat) : Prop := ∃ e ∈ h, e.dropped? = some i

def Finished (h : History) (i : Nat) : Prop := ∃ e ∈ h, e.finished? = some i

variable {h : History} {e : Event} {i : Nat}

theorem started_cons : started (e :: h) = h.started + if e.isStart then 1 else 0 := List.countP_cons

theorem returned_cons : Returned (e :: h) i ↔ e.returned? = some i ∨ h.Returned i := by
  simp only [Returned, List.mem_cons, exists_eq_or_imp]

theorem dropped_cons : Dropped (e :: h) i ↔ e.dropped? = some i ∨ h.Dropped i := by
  simp only [Dropped, List.mem_cons, exists_eq_or_imp]

theorem finished_cons : Finished (e :: h) i ↔ e.finished? = some i ∨ h.Finished i := by
  simp only [Finished, List.mem_cons, exists_eq_or_imp]

end History

/-- The runs from a fresh session, each with its history and the session that it leads to. -/
inductive Runs : History → Session → Prop
  | fresh (logs : Bool) : Runs [] (fresh logs)
  | step {h : History} {s s' : Session} {a : Action} {v : Option Verdict} (run : Runs h s)
    (step : s.step a = some (s', v)) : Runs ((a, v) :: h) s'

/-- What the history of a session tells of its calls. -/
structure Reflects (h : History) (s : Session) : Prop where
  length_eq : s.calls.length = h.started
  awaited_iff : ∀ i c, s.calls[i]? = some c → (c.awaited = true ↔ ¬ h.Returned i ∧ ¬ h.Dropped i)
  asking_iff : ∀ i c, s.calls[i]? = some c → (c.isAsking = true ↔ ¬ h.Finished i)
  lt_length : ∀ i, h.Returned i ∨ h.Dropped i ∨ h.Finished i → i < s.calls.length

namespace Reflects

variable {h : History} {s s' : Session} {e : Event} {i : Nat} {c c' : Call}

theorem fresh (logs : Bool) : Reflects [] (fresh logs) := by
  refine ⟨rfl, ?_, ?_, ?_⟩
  · intro i c hc
    simp [Session.fresh] at hc
  · intro i c hc
    simp [Session.fresh] at hc
  · intro i hi
    simp [History.Returned, History.Dropped, History.Finished] at hi

/-- A step in which nothing becomes of any evaluation. -/
theorem keep (hr : Reflects h s) (hcalls : s'.calls = s.calls) (hstart : e.isStart = false)
    (hreturned : e.returned? = none) (hdropped : e.dropped? = none)
    (hfinished : e.finished? = none) : Reflects (e :: h) s' := by
  obtain ⟨hlength, hawaited, hasking, hlt⟩ := hr
  constructor
  · simpa [History.started_cons, hstart, hcalls] using hlength
  · simpa [History.returned_cons, History.dropped_cons, hreturned, hdropped, hcalls] using hawaited
  · simpa [History.finished_cons, hfinished, hcalls] using hasking
  · simpa [History.returned_cons, History.dropped_cons, History.finished_cons, hreturned, hdropped,
      hfinished, hcalls] using hlt

/-- An evaluation that starts is a new call, awaited and asked for. -/
theorem start (hr : Reflects h s) (hcalls : s'.calls = s.calls ++ [c]) (hawaited : c.awaited = true)
    (hasking : c.isAsking = true) (hstart : e.isStart = true) (hreturned : e.returned? = none)
    (hdropped : e.dropped? = none) (hfinished : e.finished? = none) : Reflects (e :: h) s' := by
  -- Nothing has become of the new evaluation, since its number has not been used.
  obtain ⟨hreturned', hdropped', hfinished'⟩ : ¬ h.Returned s.calls.length ∧
      ¬ h.Dropped s.calls.length ∧ ¬ h.Finished s.calls.length := by
    rw [← not_or, ← not_or]
    exact mt (hr.lt_length s.calls.length) (Nat.lt_irrefl _)
  constructor
  · rw [History.started_cons, hstart, hcalls, List.length_append, hr.length_eq]
    rfl
  · intro j d hd
    rw [History.returned_cons, History.dropped_cons, hreturned, hdropped]
    simp only [reduceCtorEq, false_or]
    rcases getElem?_concat_cases (hcalls ▸ hd) with hd | ⟨rfl, rfl⟩
    · exact hr.awaited_iff j d hd
    · exact iff_of_true hawaited ⟨hreturned', hdropped'⟩
  · intro j d hd
    rw [History.finished_cons, hfinished]
    simp only [reduceCtorEq, false_or]
    rcases getElem?_concat_cases (hcalls ▸ hd) with hd | ⟨rfl, rfl⟩
    · exact hr.asking_iff j d hd
    · exact iff_of_true hasking hfinished'
  · intro j hj
    rw [History.returned_cons, History.dropped_cons, History.finished_cons, hreturned, hdropped,
      hfinished] at hj
    simp only [reduceCtorEq, false_or] at hj
    have hlt := hr.lt_length j hj
    rw [hcalls, List.length_append]
    omega

/-- An event about one call changes at most what is said of that call. -/
theorem set (hr : Reflects h s) (call : s.calls[i]? = some c) (hcalls : s'.calls = s.calls.set i c')
    (hstart : e.isStart = false) (he : e.call? = some i)
    (hawaited : c'.awaited = true ↔
      c.awaited = true ∧ e.returned? ≠ some i ∧ e.dropped? ≠ some i)
    (hasking : c'.isAsking = true ↔ c.isAsking = true ∧ e.finished? ≠ some i) :
    Reflects (e :: h) s' := by
  have hlt : i < s.calls.length := (List.getElem?_eq_some_iff.1 call).1
  -- The event is about this call and says nothing of the others.
  have honly : ∀ j, e.returned? = some j ∨ e.dropped? = some j ∨ e.finished? = some j → j = i := by
    intro j hj
    rw [Event.call?_eq hj] at he
    exact Option.some.inj he
  constructor
  · rw [History.started_cons, hstart, hcalls, List.length_set, hr.length_eq]
    rfl
  · intro j d hd
    rw [History.returned_cons, History.dropped_cons, not_or, not_or]
    rcases getElem?_set_cases (hcalls ▸ hd) with ⟨rfl, rfl⟩ | ⟨hj, hd⟩
    · rw [hawaited, hr.awaited_iff j c call]
      constructor
      · rintro ⟨⟨hreturned, hdropped⟩, hreturns, hdrops⟩
        exact ⟨⟨hreturns, hreturned⟩, hdrops, hdropped⟩
      · rintro ⟨⟨hreturns, hreturned⟩, hdrops, hdropped⟩
        exact ⟨⟨hreturned, hdropped⟩, hreturns, hdrops⟩
    · rw [hr.awaited_iff j d hd, and_iff_right fun h => hj (honly j (Or.inl h)),
        and_iff_right fun h => hj (honly j (Or.inr (Or.inl h)))]
  · intro j d hd
    rw [History.finished_cons, not_or]
    rcases getElem?_set_cases (hcalls ▸ hd) with ⟨rfl, rfl⟩ | ⟨hj, hd⟩
    · rw [hasking, hr.asking_iff j c call, and_comm]
    · rw [hr.asking_iff j d hd, and_iff_right fun h => hj (honly j (Or.inr (Or.inr h)))]
  · intro j hj
    rw [hcalls, List.length_set]
    rw [History.returned_cons, History.dropped_cons, History.finished_cons] at hj
    rcases hj with (h | h) | (h | h) | (h | h)
    · exact honly j (Or.inl h) ▸ hlt
    · exact hr.lt_length j (Or.inl h)
    · exact honly j (Or.inr (Or.inl h)) ▸ hlt
    · exact hr.lt_length j (Or.inr (Or.inl h))
    · exact honly j (Or.inr (Or.inr h)) ▸ hlt
    · exact hr.lt_length j (Or.inr (Or.inr h))

theorem leave (hr : Reflects h s) (call : s.calls[i]? = some c)
    (hcalls : s'.calls = s.calls.set i c.leave) (hstart : e.isStart = false)
    (he : e.call? = some i) (hleaves : e.returned? = some i ∨ e.dropped? = some i)
    (hfinished : e.finished? = none) : Reflects (e :: h) s' := by
  refine hr.set call hcalls hstart he ?_ ?_
  · exact iff_of_false Bool.false_ne_true fun ⟨_, hnot, hnot'⟩ => hleaves.elim hnot hnot'
  · rw [hfinished]
    exact (and_iff_left (by simp)).symm

theorem lt_started_iff (hr : Reflects h s) : i < h.started ↔ ∃ c, s.calls[i]? = some c := by
  rw [← hr.length_eq]
  constructor
  · intro hi
    exact ⟨_, List.getElem?_eq_getElem hi⟩
  · rintro ⟨c, hc⟩
    exact (List.getElem?_eq_some_iff.1 hc).1

/-- A call holds the flag until its caller is gone and its evaluator is done. -/
theorem holdsFlag_iff (hr : Reflects h s) (call : s.calls[i]? = some c) :
    c.holdsFlag = true ↔ (¬ h.Returned i ∧ ¬ h.Dropped i) ∨ ¬ h.Finished i := by
  rw [Call.holdsFlag, Bool.or_eq_true, hr.awaited_iff i c call, hr.asking_iff i c call]

end Reflects

/-- A transition keeps what the history says of the calls. -/
theorem Transition.reflects {h : History} (ht : Transition s a v s') (hr : Reflects h s) :
    Reflects ((a, v) :: h) s' := by
  cases ht with
  | refuse up => exact hr.keep rfl rfl rfl rfl rfl
  | start down => exact hr.start rfl rfl rfl rfl rfl rfl rfl
  | answer call stage =>
    refine hr.set call rfl rfl rfl ?_ ?_
    · simp [Event.returned?, Event.dropped?]
    · simp [Event.finished?, Call.isAsking]
  | fail call => exact hr.leave call rfl rfl rfl (Or.inl rfl) rfl
  | overtake call => exact hr.leave call rfl rfl rfl (Or.inl rfl) rfl
  | reject call => exact hr.leave call rfl rfl rfl (Or.inl rfl) rfl
  | accept call awaited stage =>
    refine hr.set call rfl rfl rfl ?_ ?_
    · simp [Event.returned?, Event.dropped?]
    · simp [Event.finished?, Call.isAsking, stage]
  | discard call => exact hr.leave call rfl rfl rfl (Or.inl rfl) rfl
  | store call => exact hr.leave call rfl rfl rfl (Or.inl rfl) rfl
  | cancel call => exact hr.leave call rfl rfl rfl (Or.inr rfl) rfl
  | clear => exact hr.keep rfl rfl rfl rfl rfl

/-- In every run the history tells what became of the calls. -/
theorem Runs.reflects {h : History} (hrun : Runs h s) : Reflects h s := by
  induction hrun with
  | fresh logs => exact .fresh logs
  | step _ step ih => exact (transition_of_step step).reflects ih

end Session
end ConstraintGraph
