import ConstraintGraph.Graph
import Mathlib.Data.List.Perm.Subperm
import Mathlib.Data.Nat.Find
import Mathlib.Logic.Function.Iterate
import Mathlib.Logic.Relation

namespace ConstraintGraph.Graph

open Relation

variable {g : Graph}

def Leads (g : Graph) (u v : String) : Prop := ∃ e ∈ g.edges, e.source = u ∧ e.target = v

namespace AncestorSearch

variable {s : AncestorSearch} {start : String}

/-- Visiting some ids puts the new ones among them on the stack, each once. -/
theorem exists_foldl_visit (s : AncestorSearch) (sources : List String) :
    ∃ found, sources.foldl visit s = ⟨found ++ s.seen, found ++ s.stack⟩ ∧
      (s.seen.Nodup → (found ++ s.seen).Nodup) ∧
      ∀ v, v ∈ found ++ s.seen ↔ v ∈ s.seen ∨ v ∈ sources := by
  induction sources generalizing s with
  | nil => exact ⟨[], rfl, id, by simp⟩
  | cons source sources ih =>
    rw [List.foldl_cons]
    by_cases h : source ∈ s.seen
    · have hvisit : s.visit source = s := by simp [visit, h]
      obtain ⟨found, hfold, hnodup, hmem⟩ := ih s
      refine ⟨found, hvisit.symm ▸ hfold, hnodup, fun v => ?_⟩
      rw [hmem, List.mem_cons]
      refine or_congr_right' fun hv => ?_
      have hne : v ≠ source := fun he => hv (he ▸ h)
      simp [hne]
    · have hvisit : s.visit source = ⟨source :: s.seen, source :: s.stack⟩ := by simp [visit, h]
      obtain ⟨found, hfold, hnodup, hmem⟩ := ih ⟨source :: s.seen, source :: s.stack⟩
      refine ⟨found ++ [source], ?_, ?_, fun v => ?_⟩
      · rw [hvisit, hfold]
        simp
      · intro hs
        simpa using hnodup (List.nodup_cons.2 ⟨h, hs⟩)
      · rw [List.append_assoc, List.singleton_append, hmem, List.mem_cons, List.mem_cons,
          or_left_comm, or_assoc]

theorem step_of_stack_nil (h : s.stack = []) : s.step g = s := by
  rw [step, h]

/-- A step takes an id off the stack and finds the sources of the edges that enter it. -/
theorem exists_step {id : String} {rest : List String} (h : s.stack = id :: rest) :
    ∃ found, s.step g = ⟨found ++ s.seen, found ++ rest⟩ ∧
      (s.seen.Nodup → (found ++ s.seen).Nodup) ∧
      ∀ v, v ∈ found ++ s.seen ↔ v ∈ s.seen ∨ g.Leads v id := by
  obtain ⟨found, hfold, hnodup, hmem⟩ :=
    exists_foldl_visit ⟨s.seen, rest⟩ ((g.edges.filter (·.target == id)).map (·.source))
  refine ⟨found, ?_, hnodup, fun v => ?_⟩
  · rw [step, h]
    exact hfold
  · rw [hmem]
    refine or_congr_right ?_
    simp only [Leads, List.mem_map, List.mem_filter, beq_iff_eq, and_assoc]
    exact exists_congr fun e => and_congr_right fun _ => and_comm

/-- What holds of a search from `start` between two steps. -/
structure Invariant (s : AncestorSearch) (g : Graph) (start : String) : Prop where
  nodup : s.seen.Nodup
  sound : ∀ v ∈ s.seen, TransGen g.Leads v start
  stack : ∀ v ∈ s.stack, v = start ∨ v ∈ s.seen
  -- The edges that enter an id have been followed unless it is on the stack.
  followed : ∀ v, v = start ∨ v ∈ s.seen → v ∈ s.stack ∨ ∀ u, g.Leads u v → u ∈ s.seen

theorem start_invariant (g : Graph) (start : String) :
    (AncestorSearch.mk [] [start]).Invariant g start where
  nodup := List.nodup_nil
  sound := by simp
  stack := by simp
  followed := by simp

/-- A step keeps the invariant: the edges of the id on top are followed. -/
theorem Invariant.step (hs : s.Invariant g start) : (s.step g).Invariant g start := by
  cases hstack : s.stack with
  | nil =>
    exact (step_of_stack_nil (g := g) hstack).symm ▸ hs
  | cons id rest =>
    obtain ⟨found, hstep, hnodup, hmem⟩ := exists_step (g := g) hstack
    -- What is found now leads to `id`, and `id` leads to the start.
    have hid : ReflTransGen g.Leads id start := by
      rcases hs.stack id (by simp [hstack]) with rfl | h
      · exact .refl
      · exact (hs.sound id h).to_reflTransGen
    rw [hstep]
    refine ⟨hnodup hs.nodup, ?_, ?_, ?_⟩
    · intro v hv
      rcases (hmem v).1 hv with h | h
      · exact hs.sound v h
      · exact .head' h hid
    · intro v hv
      rcases List.mem_append.1 hv with h | h
      · exact Or.inr (List.mem_append_left _ h)
      · exact (hs.stack v (by simp [hstack, h])).imp_right (List.mem_append_right _)
    · intro v hv
      by_cases hfound : v ∈ found
      · exact Or.inl (List.mem_append_left _ hfound)
      · have hold : v = start ∨ v ∈ s.seen :=
          hv.imp_right fun h => (List.mem_append.1 h).resolve_left hfound
        rcases hs.followed v hold with h | h
        · rw [hstack, List.mem_cons] at h
          -- The id on top leaves the stack, but its edges have just been followed.
          rcases h with rfl | h
          · exact Or.inr fun u hu => (hmem u).2 (Or.inr hu)
          · exact Or.inl (List.mem_append_right _ h)
        · exact Or.inr fun u hu => List.mem_append_right _ (h u hu)

theorem Invariant.run (hs : s.Invariant g start) (fuel : Nat) :
    (AncestorSearch.run g fuel s).Invariant g start := by
  induction fuel generalizing s with
  | zero => exact hs
  | succ fuel ih => exact ih hs.step

/-- No id is found twice, and each is the source of some edge. -/
theorem Invariant.length_seen_le (hs : s.Invariant g start) : s.seen.length ≤ g.edges.length := by
  have hsub : s.seen.Subperm (g.edges.map (·.source)) := by
    refine hs.nodup.subperm fun v hv => ?_
    obtain ⟨u, ⟨e, he, hv, -⟩, -⟩ := TransGen.head'_iff.1 (hs.sound v hv)
    exact List.mem_map.2 ⟨e, he, hv⟩
  simpa using hsub.length_le

theorem run_eq_iterate (g : Graph) (fuel : Nat) (s : AncestorSearch) :
    run g fuel s = (AncestorSearch.step g)^[fuel] s := by
  induction fuel generalizing s with
  | zero => rfl
  | succ fuel ih => exact ih (s.step g)

theorem run_add (k fuel : Nat) (s : AncestorSearch) :
    run g (k + fuel) s = run g fuel (run g k s) := by
  rw [run_eq_iterate, run_eq_iterate, run_eq_iterate, Nat.add_comm, Function.iterate_add_apply]

/-- Once there is no id left to take up, more steps change nothing. -/
theorem run_eq_of_le {j k : Nat} (h : (run g j s).stack = []) (hjk : j ≤ k) :
    run g k s = run g j s := by
  obtain ⟨m, rfl⟩ := Nat.exists_eq_add_of_le hjk
  rw [run_add, run_eq_iterate g m, Function.iterate_fixed (step_of_stack_nil h)]

/-- A step takes one id off the stack, and otherwise the stack grows with the found ids. -/
theorem length_stack_step (h : s.stack ≠ []) :
    (s.step g).stack.length + s.seen.length + 1 = (s.step g).seen.length + s.stack.length := by
  obtain ⟨id, rest, hstack⟩ := List.exists_cons_of_ne_nil h
  obtain ⟨found, hstep, -, -⟩ := exists_step (g := g) hstack
  rw [hstep, hstack, List.length_append, List.length_append, List.length_cons]
  omega

/-- As long as there is an id to take up, the steps and the stack together count the found ids and
what was on the stack at first. -/
theorem length_stack_run (fuel : Nat) (h : ∀ k < fuel, (run g k s).stack ≠ []) :
    (run g fuel s).stack.length + s.seen.length + fuel =
      (run g fuel s).seen.length + s.stack.length := by
  induction fuel with
  | zero => rw [run]; omega
  | succ fuel ih =>
    have hrun := ih fun k hk => h k (by omega)
    have hstep := length_stack_step (g := g) (h fuel (by omega))
    rw [run_add, run, run]
    omega

end AncestorSearch

/-- The fuel is enough to empty the stack. -/
theorem stack_run_ancestors (g : Graph) (id : String) :
    (AncestorSearch.run g (g.edges.length + 1) ⟨[], [id]⟩).stack = [] := by
  have hseen := ((AncestorSearch.start_invariant g id).run (g.edges.length + 1)).length_seen_le
  by_contra hne
  have hbusy : ∀ k < g.edges.length + 1, (AncestorSearch.run g k ⟨[], [id]⟩).stack ≠ [] := by
    intro k hk hnil
    rw [AncestorSearch.run_eq_of_le hnil (Nat.le_of_lt hk)] at hne
    exact hne hnil
  have hrun := AncestorSearch.length_stack_run _ hbusy
  have hpos := List.length_pos_iff.2 hne
  rw [List.length_nil, List.length_singleton] at hrun
  omega

/-- The stack runs empty when the start and every found id have been taken up once. -/
theorem stack_run_eq_nil_iff (g : Graph) (id : String) (k : Nat) :
    (AncestorSearch.run g k ⟨[], [id]⟩).stack = [] ↔ (g.ancestors id).length + 1 ≤ k := by
  have hend : ∃ k, (AncestorSearch.run g k ⟨[], [id]⟩).stack = [] :=
    ⟨_, g.stack_run_ancestors id⟩
  have hfirst := Nat.find_spec hend
  have hlength := AncestorSearch.length_stack_run (Nat.find hend) fun _ => Nat.find_min hend
  have hle : Nat.find hend ≤ g.edges.length + 1 := Nat.find_min' hend (g.stack_run_ancestors id)
  have hfound : g.ancestors id = (AncestorSearch.run g (Nat.find hend) ⟨[], [id]⟩).seen :=
    congrArg AncestorSearch.seen (AncestorSearch.run_eq_of_le hfirst hle)
  rw [hfirst, ← hfound, List.length_nil, List.length_singleton, Nat.zero_add] at hlength
  rw [← hlength]
  refine ⟨Nat.find_min' hend, fun hk => ?_⟩
  rw [AncestorSearch.run_eq_of_le hfirst hk, hfirst]

/-- The ancestors of an id are the ids from which a path of one edge or more leads to it. -/
theorem mem_ancestors_iff {u v : String} : u ∈ g.ancestors v ↔ TransGen g.Leads u v := by
  have hinv := (AncestorSearch.start_invariant g v).run (g.edges.length + 1)
  have hfollowed := hinv.followed
  rw [stack_run_ancestors] at hfollowed
  have hstep : ∀ w, w = v ∨ w ∈ g.ancestors v → ∀ u, g.Leads u w → u ∈ g.ancestors v :=
    fun w hw => (hfollowed w hw).resolve_left List.not_mem_nil
  constructor
  · exact hinv.sound u
  · intro h
    induction h using TransGen.head_induction_on with
    | single hu => exact hstep v (Or.inl rfl) _ hu
    | head hu _ ih => exact hstep _ (Or.inr ih) _ hu

end ConstraintGraph.Graph
