import ConstraintGraph.Dependency.Basic
import Mathlib.Data.Fintype.Pigeonhole
import Mathlib.Data.Set.Finite.List
import Mathlib.Logic.Relation
import Mathlib.Order.WellFounded

namespace ConstraintGraph.Dependencies

open Relation

variable {α : Type}

def Arc (d : Dependencies α) (u v : α) : Prop := (u, v) ∈ d.arcs

/-- No vertex is listed twice, and arcs join listed vertices. -/
structure WellFormed (d : Dependencies α) : Prop where
  nodup : d.vertices.Nodup
  source_mem : ∀ {u v : α}, d.Arc u v → u ∈ d.vertices
  target_mem : ∀ {u v : α}, d.Arc u v → v ∈ d.vertices

def OnCycle (d : Dependencies α) (v : α) : Prop := TransGen d.Arc v v

def BehindCycle (d : Dependencies α) (v : α) : Prop :=
  ∃ c, d.OnCycle c ∧ ReflTransGen d.Arc c v

def Grounded (d : Dependencies α) (v : α) : Prop := Acc d.Arc v

section Lists

variable [DecidableEq α] {d : Dependencies α} {u v : α}

@[simp] theorem mem_parents : u ∈ d.parents v ↔ d.Arc u v := by
  simp [parents, Arc]

@[simp] theorem mem_children : v ∈ d.children u ↔ d.Arc u v := by
  simp [children, Arc]

theorem hasParent_iff : d.hasParent v = true ↔ ∃ u, d.Arc u v := by
  simp [hasParent, Arc]

theorem hasChild_iff : d.hasChild u = true ↔ ∃ v, d.Arc u v := by
  simp [hasChild, Arc]

/-- An arc counts as often among the children of its source as among the parents of its target. -/
theorem count_children (d : Dependencies α) (u v : α) :
    (d.children u).count v = (d.parents v).count u := by
  unfold children parents
  induction d.arcs with
  | nil => rfl
  | cons a arcs ih =>
    by_cases hu : a.1 = u <;> by_cases hv : a.2 = v <;> simp [hu, hv, ih]

theorem countP_notMem_concat (l : List α) {done : List α} (hv : v ∉ done) :
    l.countP (· ∉ done) = l.countP (· ∉ done ++ [v]) + l.count v := by
  induction l with
  | nil => rfl
  | cons w l ih =>
    rw [List.countP_cons, List.countP_cons, List.count_cons, ih]
    by_cases hw : w = v
    · simp [hw, hv]
      omega
    · by_cases hdone : w ∈ done <;> simp [hw, hdone]
      omega

end Lists

variable {d : Dependencies α} {v : α}

theorem grounded_iff : d.Grounded v ↔ ∀ u, d.Arc u v → d.Grounded u :=
  ⟨fun h _ hu => h.inv hu, fun h => Acc.intro v h⟩

theorem BehindCycle.exists_arc (h : d.BehindCycle v) : ∃ u, d.Arc u v := by
  obtain ⟨c, hc, hv⟩ := h
  obtain ⟨u, _, hu⟩ := TransGen.tail'_iff.1 (hc.trans_left hv)
  exact ⟨u, hu⟩

theorem Grounded.not_behindCycle (h : d.Grounded v) : ¬ d.BehindCycle v := by
  induction h with
  | intro v _ ih =>
    rintro ⟨c, hc, hv⟩
    -- The last arc of the path from the cycle to `v` starts behind the same cycle.
    obtain ⟨u, hcu, huv⟩ := TransGen.tail'_iff.1 (hc.trans_left hv)
    exact ih u huv ⟨c, hc, hcu⟩

/-- An endless chain of parents in a finite graph passes some vertex twice. -/
theorem behindCycle_of_not_grounded (hd : d.WellFormed) (h : ¬ d.Grounded v) :
    d.BehindCycle v := by
  obtain ⟨f, rfl, hf⟩ := not_acc_iff_exists_descending_chain.1 h
  have hpath : ∀ n k, TransGen d.Arc (f (n + k + 1)) (f n) := by
    intro n k
    induction k with
    | zero => exact .single (hf n)
    | succ k ih => exact ih.head (hf (n + k + 1))
  have hmem : ∀ n, f n ∈ d.vertices := fun n => hd.target_mem (hf n)
  have : Finite {w // w ∈ d.vertices} := (List.finite_toSet d.vertices).to_subtype
  obtain ⟨i, j, hij, he⟩ :=
    Finite.exists_ne_map_eq_of_infinite fun n => (⟨f n, hmem n⟩ : {w // w ∈ d.vertices})
  have he' : f i = f j := congrArg Subtype.val he
  -- Whichever of the two places comes first, the path between them is a cycle.
  have hcycle : ∃ k, d.OnCycle (f k) := by
    rcases Nat.lt_or_gt_of_ne hij with hlt | hlt
    · obtain ⟨k, rfl⟩ := Nat.exists_eq_add_of_lt hlt
      have hp := hpath i k
      rw [← he'] at hp
      exact ⟨i, hp⟩
    · obtain ⟨k, rfl⟩ := Nat.exists_eq_add_of_lt hlt
      have hp := hpath j k
      rw [he'] at hp
      exact ⟨j, hp⟩
  obtain ⟨k, hk⟩ := hcycle
  refine ⟨f k, hk, ?_⟩
  cases k with
  | zero => exact .refl
  | succ k => simpa using (hpath 0 k).to_reflTransGen

/-- In a finite graph a vertex that is not grounded has an infinite descent, and so is behind a
cycle. -/
theorem not_grounded_iff (hd : d.WellFormed) : ¬ d.Grounded v ↔ d.BehindCycle v :=
  ⟨behindCycle_of_not_grounded hd, fun h hv => hv.not_behindCycle h⟩

end ConstraintGraph.Dependencies
