import ConstraintGraph.Proofs.Evaluation.Runs

namespace ConstraintGraph

theorem eq_of_countP_le_one {α : Type} {p : α → Bool} {l : List α} (h : l.countP p ≤ 1) {i j : Nat}
    (hi : i < l.length) (hj : j < l.length) (hpi : p l[i] = true) (hpj : p l[j] = true) :
    i = j := by
  induction l generalizing i j with
  | nil => exact absurd hi (Nat.not_lt_zero i)
  | cons x l ih =>
    rw [List.countP_cons] at h
    cases i with
    | zero =>
      cases j with
      | zero => rfl
      | succ j =>
        -- A place further back counts as well, which makes two.
        have hx : p x = true := hpi
        have hpos : 0 < l.countP p := List.countP_pos_iff.2 ⟨_, List.getElem_mem _, hpj⟩
        rw [if_pos hx] at h
        omega
    | succ i =>
      cases j with
      | zero =>
        have hx : p x = true := hpj
        have hpos : 0 < l.countP p := List.countP_pos_iff.2 ⟨_, List.getElem_mem _, hpi⟩
        rw [if_pos hx] at h
        omega
      | succ j =>
        have hle : l.countP p ≤ 1 := by omega
        have hij : i = j :=
          ih hle (Nat.lt_of_succ_lt_succ hi) (Nat.lt_of_succ_lt_succ hj) hpi hpj
        rw [hij]

namespace Session

def IsExclusive (s : Session) : Prop :=
  s.calls.countP Call.holdsFlag = if s.inFlight then 1 else 0

variable {h : History} {s s' : Session} {i : Nat} {c c' : Call}

namespace IsExclusive

theorem inFlight_of_mem (hs : s.IsExclusive) (hc : c ∈ s.calls) (hholds : c.holdsFlag = true) :
    s.inFlight = true := by
  have hpos : 0 < s.calls.countP Call.holdsFlag := List.countP_pos_iff.2 ⟨c, hc, hholds⟩
  cases hflag : s.inFlight with
  | true => rfl
  | false =>
    rw [hs, hflag] at hpos
    exact absurd hpos (Nat.lt_irrefl 0)

/-- A call may let go of the flag, but cannot take it up again. -/
theorem setCall (hs : s.IsExclusive) (call : s.calls[i]? = some c)
    (hholds : c'.holdsFlag = true → c.holdsFlag = true) : (s.setCall i c c').IsExclusive := by
  obtain ⟨hi, hget⟩ := List.getElem?_eq_some_iff.1 call
  have hset : (s.calls.set i c').countP Call.holdsFlag = s.calls.countP Call.holdsFlag -
      (if c.holdsFlag then 1 else 0) + (if c'.holdsFlag then 1 else 0) := by
    rw [List.countP_set hi, hget]
  rw [hs] at hset
  -- Nothing changes unless the call held the flag, and then it was the only one.
  cases hold : c.holdsFlag with
  | false =>
    have hnew : c'.holdsFlag = false := by simpa [hold] using hholds
    simpa [IsExclusive, Session.setCall, hold, hnew] using hset
  | true =>
    have hup := hs.inFlight_of_mem (List.mem_of_getElem? call) hold
    cases hnew : c'.holdsFlag <;> simpa [IsExclusive, Session.setCall, hold, hnew, hup] using hset

theorem start (hs : s.IsExclusive) (down : s.inFlight = false) (plan : Plan) :
    IsExclusive { s with
      inFlight := true, calls := s.calls ++ [⟨plan, s.generation, true, .asking⟩] } := by
  unfold IsExclusive at hs ⊢
  rw [List.countP_append, hs, down]
  rfl

end IsExclusive

/-- A step keeps evaluations apart. -/
theorem Transition.isExclusive {a : Action} {v : Option Verdict} (ht : Transition s a v s')
    (hs : s.IsExclusive) : s'.IsExclusive := by
  have hleave : ∀ c : Call, c.awaited = true → c.leave.holdsFlag = true → c.holdsFlag = true := by
    intro c hc _
    simp [Call.holdsFlag, hc]
  cases ht with
  | refuse up => exact hs
  -- Only a start raises the flag, and it finds the flag down.
  | start down => exact hs.start down _
  | answer call stage =>
    exact hs.setCall call fun _ => by simp [Call.holdsFlag, Call.isAsking, stage]
  | fail call awaited => exact hs.setCall call (hleave _ awaited)
  | overtake call awaited => exact hs.setCall call (hleave _ awaited)
  | reject call awaited => exact hs.setCall call (hleave _ awaited)
  | accept call awaited => exact hs.setCall call fun _ => by simp [Call.holdsFlag, awaited]
  | discard call awaited => exact hs.setCall call (hleave _ awaited)
  | store call awaited => exact hs.setCall call (hleave _ awaited)
  | cancel call awaited => exact hs.setCall call (hleave _ awaited)
  | clear => exact hs

theorem Runs.isExclusive (hrun : Runs h s) : s.IsExclusive := by
  induction hrun with
  | fresh => rfl
  | step _ step ih => exact (transition_of_step step).isExclusive ih

/-- The flag is up exactly as long as someone holds it. -/
theorem IsExclusive.inFlight_iff (hs : s.IsExclusive) :
    s.inFlight = true ↔ ∃ (i : Nat) (c : Call), s.calls[i]? = some c ∧ c.holdsFlag = true := by
  constructor
  · intro hup
    have hpos : 0 < s.calls.countP Call.holdsFlag := by
      rw [hs, if_pos hup]
      exact Nat.one_pos
    obtain ⟨c, hc, hholds⟩ := List.countP_pos_iff.1 hpos
    obtain ⟨i, hi⟩ := List.getElem?_of_mem hc
    exact ⟨i, c, hi, hholds⟩
  · rintro ⟨i, c, hi, hholds⟩
    exact hs.inFlight_of_mem (List.mem_of_getElem? hi) hholds

theorem IsExclusive.eq_of_holdsFlag (hs : s.IsExclusive) {i j : Nat} {c c' : Call}
    (hi : s.calls[i]? = some c) (hj : s.calls[j]? = some c') (hc : c.holdsFlag = true)
    (hc' : c'.holdsFlag = true) : i = j := by
  have hle : s.calls.countP Call.holdsFlag ≤ 1 := by
    rw [hs]
    split <;> omega
  obtain ⟨hilt, rfl⟩ := List.getElem?_eq_some_iff.1 hi
  obtain ⟨hjlt, rfl⟩ := List.getElem?_eq_some_iff.1 hj
  exact eq_of_countP_le_one hle hilt hjlt hc hc'

/-- In every run at most one evaluator works at a time; the flag is up exactly while an evaluation
that raised it is still waited for or still worked on; and an evaluation that is asked for while the
flag is up is refused and leaves the session, its calls included, as it is. -/
theorem evaluator_exclusive (hrun : Runs h s) :
    (∀ i j, i < h.started → j < h.started → ¬ h.Finished i → ¬ h.Finished j → i = j) ∧
      (s.inFlight = true ↔
        ∃ i < h.started, (¬ h.Returned i ∧ ¬ h.Dropped i) ∨ ¬ h.Finished i) ∧
      ∀ plan, s.inFlight = true →
        s.step (.evaluate plan) = some (s, some (.error .inProgress)) := by
  have hs := hrun.isExclusive
  have hr := hrun.reflects
  refine ⟨?_, ?_, ?_⟩
  · intro i j hi hj hfi hfj
    -- An evaluation whose evaluator has not finished holds the flag, whoever waits for it.
    obtain ⟨c, hc⟩ := hr.lt_started_iff.1 hi
    obtain ⟨c', hc'⟩ := hr.lt_started_iff.1 hj
    have hholds : c.holdsFlag = true := (hr.holdsFlag_iff hc).2 (Or.inr hfi)
    have hholds' : c'.holdsFlag = true := (hr.holdsFlag_iff hc').2 (Or.inr hfj)
    exact hs.eq_of_holdsFlag hc hc' hholds hholds'
  · rw [hs.inFlight_iff]
    constructor
    · rintro ⟨i, c, hc, hholds⟩
      exact ⟨i, hr.lt_started_iff.2 ⟨c, hc⟩, (hr.holdsFlag_iff hc).1 hholds⟩
    · rintro ⟨i, hi, hopen⟩
      obtain ⟨c, hc⟩ := hr.lt_started_iff.1 hi
      exact ⟨i, c, hc, (hr.holdsFlag_iff hc).2 hopen⟩
  · intro plan hup
    exact step_of_transition (.refuse hup)

/-- The caller of an evaluation goes away, and its evaluator keeps the flag up. -/
theorem evaluator_exclusive_abandoned :
    ∃ s, Runs [(.cancel 0, none), (.evaluate ⟨[], []⟩, none)] s ∧ s.inFlight = true ∧
      s.step (.evaluate ⟨[], []⟩) = some (s, some (.error .inProgress)) := by
  have hrun : Runs [(.cancel 0, none), (.evaluate ⟨[], []⟩, none)] _ :=
    .step (.step (.fresh true) rfl) rfl
  obtain ⟨-, hflag, hrefused⟩ := evaluator_exclusive hrun
  have hup : Session.inFlight _ = true := hflag.2 ⟨0, by decide, Or.inr (by
    simp [History.Finished, Event.finished?])⟩
  exact ⟨_, hrun, hup, hrefused _ hup⟩

end Session
end ConstraintGraph
