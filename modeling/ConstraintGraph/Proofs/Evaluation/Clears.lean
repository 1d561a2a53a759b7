import ConstraintGraph.Proofs.Evaluation.Interleavings
import Mathlib.Algebra.Group.Nat.Defs

namespace ConstraintGraph.Session

namespace History

def clears (h : History) : Nat := h.countP Event.isClear

/-- How many clears came since evaluation `i` raised the flag and read the generation. -/
def clearsSince : History → Nat → Nat
  | [], _ => 0
  | e :: h, i => clearsSince h i + if e.isClear = true ∧ i < started h then 1 else 0

def lastStored? (h : History) : Option (Nat × Results) := h.findSome? Event.stored?

variable {h newer older : History} {e : Event} {i : Nat}

theorem clears_cons : clears (e :: h) = h.clears + if e.isClear then 1 else 0 := List.countP_cons

theorem clears_cons_of_not_clear (he : e.isClear = false) : clears (e :: h) = h.clears := by
  rw [clears_cons, he, if_neg Bool.false_ne_true, Nat.add_zero]

theorem clearsSince_cons_of_not_clear (he : e.isClear = false) :
    clearsSince (e :: h) i = h.clearsSince i := by
  simp [clearsSince, he]

theorem clearsSince_clear {v : Option Verdict} (hi : i < h.started) :
    clearsSince ((.clear, v) :: h) i = h.clearsSince i + 1 := by
  rw [clearsSince, if_pos ⟨rfl, hi⟩]

theorem started_le_cons : h.started ≤ started (e :: h) := by
  rw [started_cons]
  exact Nat.le_add_right _ _

theorem clearsSince_le_clears : h.clearsSince i ≤ h.clears := by
  induction h with
  | nil => exact Nat.le_refl 0
  | cons e h ih =>
    rw [clearsSince, clears_cons]
    by_cases he : e.isClear = true
    · rw [if_pos he]
      split <;> omega
    · rw [if_neg fun hc => he hc.1]
      omega

theorem clearsSince_eq_zero (hi : h.started ≤ i) : h.clearsSince i = 0 := by
  induction h with
  | nil => rfl
  | cons e h ih =>
    -- A clear does not count for an evaluation that has yet to begin.
    have hi' : started h ≤ i := Nat.le_trans started_le_cons hi
    rw [clearsSince, ih hi', if_neg fun hc => Nat.not_lt.2 hi' hc.2]

theorem clearsSince_le_append : older.clearsSince i ≤ clearsSince (newer ++ older) i := by
  induction newer with
  | nil => exact Nat.le_refl _
  | cons e newer ih =>
    rw [List.cons_append, clearsSince]
    exact Nat.le_trans ih (Nat.le_add_right _ _)

end History

variable {s s' : Session} {h newer older : History} {clearing : Bool}

namespace Interleaves

/-- The generation counts the clears as far as a word does. -/
theorem generation_eq (hrun : Interleaves h clearing s) : s.generation = UInt64.ofNat h.clears := by
  induction hrun with
  | fresh => rfl
  | step _ _ apart step ih =>
    rw [(transition_of_step step).generation_eq apart,
      History.clears_cons_of_not_clear (Event.isClear_eq_false apart), ih]
  | @advance h s _ ih =>
    have hcount : History.clears ((.clear, none) :: h) = h.clears + 1 := History.clears_cons
    show s.generation + 1 = _
    rw [hcount, ih, UInt64.ofNat_add]
    rfl
  | drop _ ih => exact ih

/-- The generation has moved on from that of an evaluation by one for each clear since. -/
theorem call_generation (hrun : Interleaves h clearing s) {i : Nat} {c : Call}
    (call : s.calls[i]? = some c) :
    s.generation = c.generation + UInt64.ofNat (h.clearsSince i) := by
  induction hrun generalizing i c with
  | fresh => simp [Session.fresh] at call
  | @step h clearing s s' a v run _ apart step ih =>
    have ht := transition_of_step step
    rw [ht.generation_eq apart,
      History.clearsSince_cons_of_not_clear (Event.isClear_eq_false apart)]
    rcases ht.calls_cases with ⟨-, hcalls⟩ | ⟨plan, -, -, hcalls⟩ | ⟨j, d, d', -, hd, hcont, hcalls⟩
    · exact ih (hcalls ▸ call)
    · rcases getElem?_concat_cases (hcalls ▸ call) with hc | ⟨rfl, rfl⟩
      · exact ih hc
      · -- The new evaluation has just read the generation.
        have hnew : h.clearsSince s.calls.length = 0 :=
          History.clearsSince_eq_zero (Nat.le_of_eq run.reflects.length_eq.symm)
        rw [hnew]
        exact (UInt64.add_zero _).symm
    · rcases getElem?_set_cases (hcalls ▸ call) with ⟨rfl, rfl⟩ | ⟨-, hc⟩
      · rw [hcont.generation_eq]
        exact ih hd
      · exact ih hc
  | @advance h s run ih =>
    have hi : i < h.started := run.reflects.lt_started_iff.2 ⟨c, call⟩
    have hold : s.generation = c.generation + UInt64.ofNat (h.clearsSince i) := ih call
    show s.generation + 1 = _
    rw [History.clearsSince_clear hi, hold, UInt64.ofNat_add, UInt64.add_assoc]
    rfl
  | drop _ ih => exact ih call

theorem clearsSince_eq_zero (hrun : Interleaves h clearing s) (hclears : h.clears < 2 ^ 64)
    {i : Nat} {c : Call} (call : s.calls[i]? = some c) (hsame : s.generation = c.generation) :
    h.clearsSince i = 0 := by
  have hlt : h.clearsSince i < 2 ^ 64 := Nat.lt_of_le_of_lt History.clearsSince_le_clears hclears
  -- With fewer clears the generation cannot have come round to the same word.
  have hmoved := hrun.call_generation call
  rw [hsame, UInt64.left_eq_add] at hmoved
  have hzero := congrArg UInt64.toNat hmoved
  rwa [UInt64.toNat_ofNat_of_lt' hlt] at hzero

/-- What is current was stored last, by an evaluation that no clear came after. While a clear holds
the lock it is the one that came. -/
theorem current_stored (hrun : Interleaves h clearing s) (hclears : h.clears < 2 ^ 64)
    {results : Results} (hcurrent : s.current = some results) :
    ∃ i < h.started, h.lastStored? = some (i, results) ∧
      h.clearsSince i = if clearing then 1 else 0 := by
  induction hrun with
  | fresh => cases hcurrent
  | @step h clearing s s' a v run free apart step ih =>
    have ht := transition_of_step step
    have hkeep := Event.isClear_eq_false (v := v) apart
    rw [History.clears_cons_of_not_clear hkeep] at hclears
    cases hstored : Event.stored? (a, v) with
    | none =>
      rw [ht.current_eq apart hstored] at hcurrent
      obtain ⟨i, hi, hlast, hsince⟩ := ih hclears hcurrent
      refine ⟨i, Nat.lt_of_lt_of_le hi History.started_le_cons, ?_, ?_⟩
      · rwa [History.lastStored?, List.findSome?_cons, hstored]
      · rwa [History.clearsSince_cons_of_not_clear hkeep]
    | some stored =>
      -- Storing needs the lock and the generation of the evaluation.
      obtain ⟨i, results'⟩ := stored
      obtain ⟨rfl, hnew, c, hc, -, -, hgen⟩ := ht.of_stored? hstored
      obtain rfl : results' = results := Option.some.inj (hnew.symm.trans hcurrent)
      refine ⟨i, ?_, ?_, ?_⟩
      · exact Nat.lt_of_lt_of_le (run.reflects.lt_started_iff.2 ⟨c, hc⟩) History.started_le_cons
      · rw [History.lastStored?, List.findSome?_cons, hstored]
      · rw [History.clearsSince_cons_of_not_clear hkeep, free i rfl]
        exact run.clearsSince_eq_zero hclears hc hgen
  | @advance h s run ih =>
    have hcount : History.clears ((.clear, none) :: h) = h.clears + 1 := History.clears_cons
    -- What is current has not been dropped yet, and this clear is the only one since.
    obtain ⟨i, hi, hlast, hsince⟩ := ih (by omega) hcurrent
    refine ⟨i, Nat.lt_of_lt_of_le hi History.started_le_cons, hlast, ?_⟩
    rw [History.clearsSince_clear hi, hsince]
    rfl
  | drop => cases hcurrent

/-- An evaluation stores only if no clear came after it had raised the flag. -/
theorem clearsSince_of_stored? {e : Event} (hrun : Interleaves (newer ++ e :: older) clearing s)
    (hclears : History.clears (newer ++ e :: older) < 2 ^ 64) {i : Nat} {results : Results}
    (hstored : e.stored? = some (i, results)) : older.clearsSince i = 0 := by
  have hkeep : e.isClear = false := by
    obtain ⟨outcome, rfl, -⟩ := Event.exists_of_stored? hstored
    rfl
  obtain ⟨locked, s₁, s₂, hprefix, ht⟩ := hrun.exists_transition hkeep
  obtain ⟨-, -, c, hc, -, -, hgen⟩ := ht.of_stored? hstored
  refine hprefix.clearsSince_eq_zero ?_ hc hgen
  rw [History.clears, List.countP_append, List.countP_cons] at hclears
  exact Nat.lt_of_le_of_lt (by unfold History.clears; omega) hclears

end Interleaves

/-- Clears are counted, and none is undone. What is current was stored last, by an evaluation that
began after the last clear, apart from a clear that is about to drop it. Nothing is stored after a
clear by an evaluation that began before it: when it comes to store, also with results that were
checked before the clear, it is stale. -/
theorem current_since_last_clear (hrun : Interleaves h clearing s) (hclears : h.clears < 2 ^ 64) :
    s.generation.toNat = h.clears ∧
      (∀ results, s.current = some results → ∃ i < h.started,
        h.lastStored? = some (i, results) ∧ h.clearsSince i = if clearing then 1 else 0) ∧
      (∀ newer older : History, h = newer ++ (.clear, none) :: older → ∀ i < older.started,
        ∀ e ∈ newer, ∀ results, Event.stored? e ≠ some (i, results)) ∧
      ∀ i, 0 < h.clearsSince i → ∀ s' v, s.step (.store i) = some (s', v) →
        v = some (.ok .stale) ∧ s'.current = s.current := by
  refine ⟨?_, fun results => hrun.current_stored hclears, ?_, ?_⟩
  · rw [hrun.generation_eq]
    exact UInt64.toNat_ofNat_of_lt' hclears
  · rintro newer older rfl i hi e hmem results hstored
    obtain ⟨later, between, rfl⟩ := List.append_of_mem hmem
    -- At the step that stores, no clear may have come, but the one in front of `older` has.
    rw [List.append_assoc, List.cons_append] at hrun hclears
    have hzero := hrun.clearsSince_of_stored? hclears hstored
    have hpos : 0 < History.clearsSince ((.clear, none) :: older) i := by
      rw [History.clearsSince_clear hi]
      exact Nat.succ_pos _
    have hle : History.clearsSince ((.clear, none) :: older) i ≤
        History.clearsSince (between ++ (.clear, none) :: older) i := History.clearsSince_le_append
    omega
  · intro i hpos s' v hstep
    cases transition_of_step hstep with
    | discard => exact ⟨rfl, rfl⟩
    | store call awaited stage current =>
      exact absurd (hrun.clearsSince_eq_zero hclears call current) (Nat.ne_of_gt hpos)

/-- A clear comes while checked results wait to be stored, and they are not. -/
theorem current_since_last_clear_late :
    ∃ s, Interleaves [(.clear, none), (.resume 0, none),
        (.answer 0 (.ok (.object [("evaluationResults", .array [])])), none),
        (.evaluate ⟨[], []⟩, none)] false s ∧
      s.generation.toNat = 1 ∧
      ∀ s' v, s.step (.store 0) = some (s', v) →
        v = some (.ok .stale) ∧ s'.current = s.current := by
  have hrun : Interleaves [(.clear, none), (.resume 0, none),
      (.answer 0 (.ok (.object [("evaluationResults", .array [])])), none),
      (.evaluate ⟨[], []⟩, none)] false _ :=
    Runs.interleaves (.step (.step (.step (.step (.fresh true) rfl) rfl) rfl) rfl)
  obtain ⟨hgen, -, -, hstale⟩ := current_since_last_clear hrun (by decide)
  exact ⟨_, hrun, hgen, hstale 0 (by decide)⟩

end ConstraintGraph.Session
