import ConstraintGraph.Proofs.Dependency.Greedy

namespace ConstraintGraph.Dependencies

variable {α : Type} [DecidableEq α] {d : Dependencies α} {s : Emission α} {n : Nat}

def afterRounds (d : Dependencies α) : Nat → Option (Emission α)
  | 0 => some d.startEmission
  | n + 1 => (d.afterRounds n).bind d.emitNext

/-- What holds at the start and is kept by a round holds between any two rounds. -/
theorem afterRounds_induction {P : Nat → Emission α → Prop} (hstart : P 0 d.startEmission)
    (hround : ∀ n s t, d.afterRounds n = some s → P n s → d.emitNext s = some t → P (n + 1) t)
    (hs : d.afterRounds n = some s) : P n s := by
  induction n generalizing s with
  | zero =>
    obtain rfl : d.startEmission = s := Option.some.inj hs
    exact hstart
  | succ n ih =>
    obtain ⟨r, hr, hnext⟩ := Option.bind_eq_some_iff.1 hs
    exact hround n r s hr (ih hr) hnext

theorem afterRounds_invariant (hs : d.afterRounds n = some s) : s.Invariant d :=
  afterRounds_induction (P := fun _ s => s.Invariant d) d.startEmission_invariant
    (fun _ _ _ _ hs ht => emitNext_invariant hs ht) hs

theorem afterRounds_prioritized (hs : d.afterRounds n = some s) : s.IsPrioritized d :=
  afterRounds_induction (P := fun _ s => s.IsPrioritized d) d.startEmission_prioritized
    (fun _ _ _ hr hs ht => emitNext_prioritized (afterRounds_invariant hr) hs ht) hs

/-- Between two rounds the queue has the vertices with most parents first. -/
theorem pairwise_queued (hs : d.afterRounds n = some s) :
    s.queued.Pairwise fun v w => d.rank w ≤ d.rank v := by
  have hrank : ∀ c ∈ s.queue, c.rank = d.rank c.vertex := by
    intro c hc
    rw [(afterRounds_invariant hs).current c hc]
    rfl
  refine List.pairwise_map.2 ((afterRounds_prioritized hs).sorted.imp_of_mem ?_)
  intro a b ha hb hab
  rwa [hrank a ha, hrank b hb] at hab

/-- A round that finds the queue stuck is still in the budget. -/
theorem isStuck_toNat_le_budget (s : Emission α) (d : Dependencies α) :
    s.isStuck.toNat ≤ s.budget d := by
  have hqueued : s.isStuck.toNat ≤ s.queued.length := by
    unfold Emission.isStuck Emission.queued
    cases s.queue <;> simp
  exact hqueued.trans (Nat.le_add_right _ _)

/-- The rounds so far and those that are left at most count the roots and the arcs. -/
theorem budget_afterRounds (hs : d.afterRounds n = some s) :
    n + s.budget d = d.roots.length + d.arcs.length := by
  refine afterRounds_induction (P := fun n s => n + s.budget d = d.roots.length + d.arcs.length)
    ?_ (fun n s t hs hbudget ht => ?_) hs
  · -- At first the roots are queued and every arc is open.
    rw [budget_startEmission, Nat.zero_add]
  · have hround := budget_emitNext (afterRounds_invariant hs).current ht
    omega

/-- What the rounds come to together is the state after some number of them. -/
theorem exists_afterRounds_emitAll (fuel : Nat) (hs : d.afterRounds n = some s) :
    ∃ m, d.afterRounds m = some (d.emitAll fuel s) := by
  induction fuel generalizing n s with
  | zero => exact ⟨n, hs⟩
  | succ fuel ih =>
    unfold emitAll
    split
    · exact ⟨n, hs⟩
    · rename_i t ht
      have hnext : d.afterRounds (n + 1) = some t := by rw [afterRounds, hs, Option.bind_some, ht]
      exact ih hnext

/-- The emission ends after some rounds, and then there is no other. -/
theorem exists_afterRounds_emission (d : Dependencies α) :
    ∃ n, d.afterRounds n = some d.emission ∧ d.afterRounds (n + 1) = none := by
  obtain ⟨n, hn⟩ := exists_afterRounds_emitAll (d.roots.length + d.arcs.length)
    (show d.afterRounds 0 = some d.startEmission from rfl)
  refine ⟨n, hn, ?_⟩
  rw [afterRounds, hn, Option.bind_some]
  exact d.emitNext_emission

end ConstraintGraph.Dependencies
