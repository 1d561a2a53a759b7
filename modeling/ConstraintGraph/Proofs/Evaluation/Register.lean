import ConstraintGraph.Proofs.Evaluation.Interleavings

namespace ConstraintGraph.Session

variable {s s' : Session} {h : History} {e e' : Event} {clearing : Bool} {i : Nat}

namespace History

def register? (h : History) : Option Results :=
  ((h.takeWhile fun e => !e.isClear).findSome? Event.stored?).map (·.2)

theorem register?_cons_of_not_stored (he : e.isClear = false) (hstored : e.stored? = none) :
    register? (e :: h) = h.register? := by
  rw [register?, List.takeWhile_cons, he, Bool.not_false, if_pos rfl, List.findSome?_cons, hstored]
  rfl

theorem register?_cons_of_stored {results : Results} (he : e.isClear = false)
    (hstored : e.stored? = some (i, results)) : register? (e :: h) = some results := by
  rw [register?, List.takeWhile_cons, he, Bool.not_false, if_pos rfl, List.findSome?_cons, hstored]
  rfl

end History

theorem Event.ended?_of_stored? {results : Results} (h : e.stored? = some (i, results)) :
    e.ended? = some i := by
  obtain ⟨outcome, rfl, -⟩ := exists_of_stored? h
  rfl

theorem Reflects.not_ended (hr : Reflects h s) {c : Call} (call : s.calls[i]? = some c)
    (awaited : c.awaited = true) (he : e ∈ h) : e.ended? ≠ some i := by
  obtain ⟨hreturned, hdropped⟩ := (hr.awaited_iff i c call).1 awaited
  intro hended
  rcases Event.ended?_eq_some_iff.1 hended with hi | hi
  · exact hreturned ⟨e, he, hi⟩
  · exact hdropped ⟨e, he, hi⟩

namespace Interleaves

/-- A reader waits for a clear that holds the lock and then finds nothing; otherwise it finds what
is current. -/
theorem register_eq (hrun : Interleaves h clearing s) :
    (if clearing then none else s.current) = h.register? := by
  induction hrun with
  | fresh => rfl
  | @step h clearing s s' a v _ free apart step ih =>
    have ht := transition_of_step step
    have hkeep := Event.isClear_eq_false (v := v) apart
    cases hstored : Event.stored? (a, v) with
    | none =>
      rw [ht.current_eq apart hstored, History.register?_cons_of_not_stored hkeep hstored]
      exact ih
    | some stored =>
      obtain ⟨i, results⟩ := stored
      obtain ⟨hstore, hcurrent, -⟩ := ht.of_stored? hstored
      -- A store takes the lock, so that no clear is halfway through.
      rw [History.register?_cons_of_stored hkeep hstored, free i hstore, hcurrent]
      rfl
  | advance => rfl
  | drop _ ih => exact ih

/-- Only the evaluation that raised the flag last can hold it. -/
theorem last_of_holdsFlag (hrun : Interleaves h clearing s) {c : Call}
    (call : s.calls[i]? = some c) (hholds : c.holdsFlag = true) : i + 1 = s.calls.length := by
  induction hrun generalizing i c with
  | fresh => simp [Session.fresh] at call
  | step run _ _ step ih =>
    rcases (transition_of_step step).calls_cases with
      ⟨-, hcalls⟩ | ⟨plan, -, hdown, hcalls⟩ | ⟨j, d, d', -, hd, hcont, hcalls⟩
    · rw [hcalls]
      exact ih (hcalls ▸ call) hholds
    · rw [hcalls, List.length_append]
      rcases getElem?_concat_cases (hcalls ▸ call) with hc | ⟨rfl, -⟩
      · -- The flag was down, so no earlier evaluation held it.
        have hup := run.isExclusive.inFlight_of_mem (List.mem_of_getElem? hc) hholds
        rw [hdown] at hup
        cases hup
      · rfl
    · rw [hcalls, List.length_set]
      rcases getElem?_set_cases (hcalls ▸ call) with ⟨rfl, rfl⟩ | ⟨-, hc⟩
      · exact ih hd (hcont.holdsFlag hholds)
      · exact ih hc hholds
  | advance _ ih => exact ih call hholds
  | drop _ ih => exact ih call hholds

/-- Evaluations store in the order in which they raised the flag. -/
theorem pairwise_stored (hrun : Interleaves h clearing s) :
    (h.filterMap Event.stored?).Pairwise fun later earlier => earlier.1 < later.1 := by
  induction hrun with
  | fresh => exact .nil
  | @step h clearing s s' a v run _ _ step ih =>
    cases hstored : Event.stored? (a, v) with
    | none => rwa [List.filterMap_cons_none hstored]
    | some stored =>
      obtain ⟨i, results⟩ := stored
      obtain ⟨-, -, c, hc, awaited, -, -⟩ := (transition_of_step step).of_stored? hstored
      rw [List.filterMap_cons_some hstored, List.pairwise_cons]
      refine ⟨?_, ih⟩
      rintro ⟨j, results'⟩ hj
      obtain ⟨e, he, hej⟩ := List.mem_filterMap.1 hj
      have hended := Event.ended?_of_stored? hej
      have hlast : i + 1 = s.calls.length :=
        run.last_of_holdsFlag hc (by simp [Call.holdsFlag, awaited])
      -- The earlier evaluation is over, and the one that stores now is not.
      have hne : j ≠ i := by
        rintro rfl
        exact run.reflects.not_ended hc awaited he hended
      have hlt : j < s.calls.length :=
        run.reflects.lt_length j (Or.inl ⟨e, he, Event.returned?_of_stored? hej⟩)
      show j < i
      omega
  | advance _ ih => exact ih
  | drop _ ih => exact ih

/-- For its caller an evaluation is over once. -/
theorem eq_of_ended? (hrun : Interleaves h clearing s) (he : e ∈ h) (he' : e' ∈ h)
    (hi : e.ended? = some i) (hi' : e'.ended? = some i) : e = e' := by
  induction hrun with
  | fresh => cases he
  | @step h clearing s s' a v run _ _ step ih =>
    -- A call that ends was awaited, so it had not ended before.
    have hnew : Event.ended? (a, v) = some i → ∀ d ∈ h, d.ended? ≠ some i := by
      intro hended d hd
      obtain ⟨c, hc, awaited⟩ := (transition_of_step step).awaited_of_ended? hended
      exact run.reflects.not_ended hc awaited hd
    rcases List.mem_cons.1 he with rfl | he <;> rcases List.mem_cons.1 he' with rfl | he'
    · rfl
    · exact absurd hi' (hnew hi e' he')
    · exact absurd hi (hnew hi' e he)
    · exact ih he he'
  | advance _ ih =>
    rcases List.mem_cons.1 he with rfl | he
    · cases hi
    · rcases List.mem_cons.1 he' with rfl | he'
      · cases hi'
      · exact ih he he'
  | drop _ ih => exact ih he he'

end Interleaves

/-- What a reader finds is what was stored last since the last clear. Every other step of an
evaluation keeps results and generation, and an evaluation that ends without storing has only such
steps. Evaluations store in the order in which they raised the flag. -/
theorem current_eq_register (hrun : Interleaves h clearing s) :
    (if clearing then none else s.current) = h.register? ∧
      (∀ a v s', a ≠ .clear → Event.stored? (a, v) = none → s.step a = some (s', v) →
        s'.current = s.current ∧ s'.generation = s.generation) ∧
      (∀ e ∈ h, ∀ i, e.ended? = some i → e.stored? = none →
        ∀ e' ∈ h, ∀ results, Event.stored? e' ≠ some (i, results)) ∧
      (h.filterMap Event.stored?).Pairwise fun later earlier => earlier.1 < later.1 := by
  refine ⟨hrun.register_eq, ?_, ?_, hrun.pairwise_stored⟩
  · intro a v s' ha hstored hstep
    have ht := transition_of_step hstep
    exact ⟨ht.current_eq ha hstored, ht.generation_eq ha⟩
  · intro e he i hended hstored e' he' results hstored'
    have hsame := hrun.eq_of_ended? he he' hended (Event.ended?_of_stored? hstored')
    rw [hsame, hstored'] at hstored
    cases hstored

/-- An evaluator fails after another evaluation stored its results, and they stay. -/
theorem current_eq_register_failure :
    ∃ s, Interleaves [(.resume 1, some (.error (.transport "http" "refused"))),
        (.answer 1 (.error (.transport "http" "refused")), none),
        (.evaluate ⟨[], []⟩, none), (.store 0, some (.ok (.applied ⟨[], [], []⟩))),
        (.resume 0, none), (.answer 0 (.ok (.object [("evaluationResults", .array [])])), none),
        (.evaluate ⟨[], []⟩, none)] false s ∧ s.current = some ⟨[], [], []⟩ := by
  have hrun : Interleaves [(.resume 1, some (.error (.transport "http" "refused"))),
      (.answer 1 (.error (.transport "http" "refused")), none), (.evaluate ⟨[], []⟩, none),
      (.store 0, some (.ok (.applied ⟨[], [], []⟩))), (.resume 0, none),
      (.answer 0 (.ok (.object [("evaluationResults", .array [])])), none),
      (.evaluate ⟨[], []⟩, none)] false _ :=
    Runs.interleaves (.step (.step (.step (.step (.step (.step (.step (.fresh true) rfl) rfl) rfl)
      rfl) rfl) rfl) rfl)
  exact ⟨_, hrun, (current_eq_register hrun).1⟩

end ConstraintGraph.Session
