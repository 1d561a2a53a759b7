import ConstraintGraph.Proofs.Evaluation.Exclusive

/-!
Interleavings. In a run a clear is one step. Here it takes two accesses: it advances the generation
and then drops the results, and from the one to the other it holds the lock on the results. Storing
results needs that lock too; all other steps may come in between. Every run is an interleaving, and
the lemmas on what a single step does to calls, generation and results serve both.
-/

namespace ConstraintGraph

/-- The evaluation `c'` is `c` at the same point or further on. -/
structure Call.Continues (c c' : Call) : Prop where
  plan_eq : c'.plan = c.plan
  generation_eq : c'.generation = c.generation
  holdsFlag : c'.holdsFlag = true → c.holdsFlag = true
  storing : ∀ results, c.stage = .storing results → c'.stage = .storing results

theorem Call.Continues.refl (c : Call) : c.Continues c := ⟨rfl, rfl, id, fun _ => id⟩

theorem Call.continues_leave {c : Call} (awaited : c.awaited = true) : c.Continues c.leave where
  plan_eq := rfl
  generation_eq := rfl
  holdsFlag := fun _ => by simp [holdsFlag, awaited]
  storing := fun _ h => h

def Outcome.stored? : Outcome → Option Results
  | .applied results => some results
  | .stale => none
  | .crashed results => some results

namespace Session

def Event.isClear : Event → Bool
  | (.clear, _) => true
  | _ => false

def Event.plan? : Event → Option Plan
  | (.evaluate plan, none) => some plan
  | _ => none

def Event.stored? : Event → Option (Nat × Results)
  | (.store i, some (.ok outcome)) => outcome.stored?.map (i, ·)
  | _ => none

/-- The evaluation that is over for its caller after the step: it returned a verdict, or its caller
went away. -/
def Event.ended? : Event → Option Nat
  | (.resume i, some _) => some i
  | (.store i, some _) => some i
  | (.cancel i, _) => some i
  | _ => none

theorem Event.ended?_eq_some_iff {e : Event} {i : Nat} :
    e.ended? = some i ↔ e.returned? = some i ∨ e.dropped? = some i := by
  obtain ⟨a, v⟩ := e
  cases a <;> cases v <;> simp [ended?, returned?, dropped?]

theorem Event.isClear_eq_false {a : Action} {v : Option Verdict} (ha : a ≠ .clear) :
    Event.isClear (a, v) = false := by
  cases a with
  | clear => exact absurd rfl ha
  | _ => rfl

theorem Event.exists_of_stored? {e : Event} {i : Nat} {results : Results}
    (h : e.stored? = some (i, results)) :
    ∃ outcome : Outcome, e = (.store i, some (.ok outcome)) ∧ outcome.stored? = some results := by
  obtain ⟨a, v⟩ := e
  unfold stored? at h
  split at h
  · rename_i j outcome heq
    obtain ⟨results', hstored, hpair⟩ := Option.map_eq_some_iff.1 h
    obtain ⟨rfl, rfl⟩ := Prod.mk.inj hpair
    exact ⟨outcome, heq, hstored⟩
  · cases h

theorem Event.returned?_of_stored? {e : Event} {i : Nat} {results : Results}
    (h : e.stored? = some (i, results)) : e.returned? = some i := by
  obtain ⟨outcome, rfl, -⟩ := exists_of_stored? h
  rfl

variable {s s' : Session} {a : Action} {v : Option Verdict}

/-- However an evaluation ends that comes to store, its results are stored. -/
theorem stored?_outcome (s : Session) (results : Results) :
    (s.outcome results).stored? = some results := by
  unfold outcome
  split <;> rfl

/-- What a step does to the calls: nothing, or one more call starts, or one call goes on. -/
theorem Transition.calls_cases (ht : Transition s a v s') :
    (Event.plan? (a, v) = none ∧ s'.calls = s.calls) ∨
      (∃ plan, Event.plan? (a, v) = some plan ∧ s.inFlight = false ∧
        s'.calls = s.calls ++ [⟨plan, s.generation, true, .asking⟩]) ∨
      ∃ i c c', Event.plan? (a, v) = none ∧ s.calls[i]? = some c ∧ c.Continues c' ∧
        s'.calls = s.calls.set i c' := by
  cases ht with
  | refuse up => exact Or.inl ⟨rfl, rfl⟩
  | start down => exact Or.inr (Or.inl ⟨_, rfl, down, rfl⟩)
  | @answer i c answer call stage =>
    refine Or.inr (Or.inr ⟨i, c, { c with stage := .answered answer }, rfl, call, ?_, rfl⟩)
    exact ⟨rfl, rfl, fun _ => by simp [Call.holdsFlag, Call.isAsking, stage], by simp [stage]⟩
  -- There are six reasons for which a caller leaves, and the call is left the same way.
  | fail call awaited =>
    exact Or.inr (Or.inr ⟨_, _, _, rfl, call, Call.continues_leave awaited, rfl⟩)
  | overtake call awaited =>
    exact Or.inr (Or.inr ⟨_, _, _, rfl, call, Call.continues_leave awaited, rfl⟩)
  | reject call awaited =>
    exact Or.inr (Or.inr ⟨_, _, _, rfl, call, Call.continues_leave awaited, rfl⟩)
  | @accept i c raw results call awaited stage =>
    refine Or.inr (Or.inr ⟨i, c, { c with stage := .storing results }, rfl, call, ?_, rfl⟩)
    exact ⟨rfl, rfl, fun _ => by simp [Call.holdsFlag, awaited], by simp [stage]⟩
  | discard call awaited =>
    exact Or.inr (Or.inr ⟨_, _, _, rfl, call, Call.continues_leave awaited, rfl⟩)
  | store call awaited =>
    exact Or.inr (Or.inr ⟨_, _, _, rfl, call, Call.continues_leave awaited, rfl⟩)
  | cancel call awaited =>
    exact Or.inr (Or.inr ⟨_, _, _, rfl, call, Call.continues_leave awaited, rfl⟩)
  | clear => exact Or.inl ⟨rfl, rfl⟩

/-- A call is never lost, and goes forward only. -/
theorem Transition.exists_continues (ht : Transition s a v s') {i : Nat} {c : Call}
    (call : s.calls[i]? = some c) : ∃ c', s'.calls[i]? = some c' ∧ c.Continues c' := by
  have hlt : i < s.calls.length := (List.getElem?_eq_some_iff.1 call).1
  rcases ht.calls_cases with ⟨-, hcalls⟩ | ⟨plan, -, -, hcalls⟩ | ⟨j, d, d', -, hd, hcont, hcalls⟩
  · exact ⟨c, hcalls ▸ call, .refl c⟩
  · refine ⟨c, ?_, .refl c⟩
    rw [hcalls, List.getElem?_append_left hlt, call]
  · -- It is the call that goes on, or another one.
    by_cases hj : j = i
    · subst hj
      obtain rfl : c = d := Option.some.inj (call.symm.trans hd)
      exact ⟨d', by rw [hcalls, List.getElem?_set_self hlt], hcont⟩
    · exact ⟨c, by rw [hcalls, List.getElem?_set_ne hj, call], .refl c⟩

/-- Only a clear advances the generation. -/
theorem Transition.generation_eq (ht : Transition s a v s') (ha : a ≠ .clear) :
    s'.generation = s.generation := by
  cases ht with
  | clear => exact absurd rfl ha
  | _ => rfl

/-- Only a clear and a store change the current results. -/
theorem Transition.current_eq (ht : Transition s a v s') (ha : a ≠ .clear)
    (hstored : Event.stored? (a, v) = none) : s'.current = s.current := by
  cases ht with
  | store => simp [Event.stored?, stored?_outcome] at hstored
  | clear => exact absurd rfl ha
  | _ => rfl

/-- Results are stored for a caller that waits for them, in the generation of its evaluation. -/
theorem Transition.of_stored? (ht : Transition s a v s') {i : Nat} {results : Results}
    (hstored : Event.stored? (a, v) = some (i, results)) :
    a = .store i ∧ s'.current = some results ∧ ∃ c, s.calls[i]? = some c ∧ c.awaited = true ∧
      c.stage = .storing results ∧ s.generation = c.generation := by
  cases ht with
  | store call awaited stage current =>
    simp only [Event.stored?, stored?_outcome, Option.map_some, Option.some.injEq,
      Prod.mk.injEq] at hstored
    obtain ⟨rfl, rfl⟩ := hstored
    exact ⟨rfl, rfl, _, call, awaited, stage, current⟩
  | _ => cases hstored

/-- A verdict goes to a caller that still waits, and only such a caller goes away. -/
theorem Transition.awaited_of_ended? (ht : Transition s a v s') {i : Nat}
    (hended : Event.ended? (a, v) = some i) : ∃ c, s.calls[i]? = some c ∧ c.awaited = true := by
  cases ht with
  | fail call awaited => exact ⟨_, Option.some.inj hended ▸ call, awaited⟩
  | overtake call awaited => exact ⟨_, Option.some.inj hended ▸ call, awaited⟩
  | reject call awaited => exact ⟨_, Option.some.inj hended ▸ call, awaited⟩
  | discard call awaited => exact ⟨_, Option.some.inj hended ▸ call, awaited⟩
  | store call awaited => exact ⟨_, Option.some.inj hended ▸ call, awaited⟩
  | cancel call awaited => exact ⟨_, Option.some.inj hended ▸ call, awaited⟩
  | _ => cases hended

/-- The interleavings from a fresh session; the truth value says that a clear holds the lock on the
results. The history has a clear where it advances the generation. -/
inductive Interleaves : History → Bool → Session → Prop
  | fresh (logs : Bool) : Interleaves [] false (fresh logs)
  | step {h : History} {clearing : Bool} {s s' : Session} {a : Action} {v : Option Verdict}
    (run : Interleaves h clearing s) (free : ∀ i, a = .store i → clearing = false)
    (apart : a ≠ .clear) (step : s.step a = some (s', v)) :
    Interleaves ((a, v) :: h) clearing s'
  | advance {h : History} {s : Session} (run : Interleaves h false s) :
    Interleaves ((.clear, none) :: h) true { s with generation := s.generation + 1 }
  | drop {h : History} {s : Session} (run : Interleaves h true s) :
    Interleaves h false { s with current := none }

variable {h newer older : History} {clearing : Bool} {e : Event}

/-- A run is an interleaving in which nothing comes between the two accesses of a clear. -/
theorem Runs.interleaves (hrun : Runs h s) : Interleaves h false s := by
  induction hrun with
  | fresh logs => exact .fresh logs
  | @step h s s' a v _ step ih =>
    by_cases ha : a = .clear
    · -- Both accesses of the clear, with nothing in between.
      subst ha
      cases step
      exact .drop (.advance ih)
    · exact .step ih (fun _ _ => rfl) ha step

namespace Interleaves

theorem reflects (hrun : Interleaves h clearing s) : Reflects h s := by
  induction hrun with
  | fresh logs => exact .fresh logs
  | step _ _ _ step ih => exact (transition_of_step step).reflects ih
  | advance _ ih => exact ih.keep rfl rfl rfl rfl rfl
  | drop _ ih => exact ⟨ih.length_eq, ih.awaited_iff, ih.asking_iff, ih.lt_length⟩

theorem isExclusive (hrun : Interleaves h clearing s) : s.IsExclusive := by
  induction hrun with
  | fresh => rfl
  | step _ _ _ step ih => exact (transition_of_step step).isExclusive ih
  | advance _ ih => exact ih
  | drop _ ih => exact ih

/-- Every event of a run that is no clear is a transition between two states of it. -/
theorem exists_transition (hrun : Interleaves (newer ++ e :: older) clearing s)
    (he : e.isClear = false) :
    ∃ locked s₁ s₂, Interleaves older locked s₁ ∧ Transition s₁ e.1 e.2 s₂ := by
  generalize hh : newer ++ e :: older = h at hrun
  -- The run is taken back, one event of `newer` after the other, up to the step of `e`.
  induction hrun generalizing newer with
  | fresh => simp at hh
  | step run _ _ step ih =>
    cases newer with
    | nil =>
      obtain ⟨rfl, rfl⟩ := List.cons.inj hh
      exact ⟨_, _, _, run, transition_of_step step⟩
    | cons _ newer => exact ih (List.cons.inj hh).2
  | advance _ ih =>
    cases newer with
    | nil =>
      obtain ⟨rfl, -⟩ := List.cons.inj hh
      cases he
    | cons _ newer => exact ih (List.cons.inj hh).2
  | drop _ ih => exact ih hh

end Interleaves
end Session
end ConstraintGraph
