import ConstraintGraph.Dependency.Countdown
import ConstraintGraph.Dependency.PriorityOrder
import Mathlib.Data.List.Basic
import Mathlib.Logic.Function.Basic

namespace ConstraintGraph.Dependencies

variable {α β : Type} {f : α → β}

def rename (f : α → β) (d : Dependencies α) : Dependencies β where
  vertices := d.vertices.map f
  arcs := d.arcs.map fun a => (f a.1, f a.2)

def Candidate.rename (f : α → β) (c : Candidate α) : Candidate β :=
  ⟨f c.vertex, c.rank, c.awaited.map f⟩

def Emission.rename (f : α → β) (s : Emission α) : Emission β :=
  ⟨s.queue.map (·.rename f), s.order.map f⟩

def Countdown.rename (f : α → β) (s : Countdown α) : Countdown β :=
  ⟨s.waiting.map fun (v, n) => (f v, n), s.ready.map f⟩

theorem filter_vertices_rename (d : Dependencies α) {p : β → Bool} {q : α → Bool}
    (hsame : ∀ v, p (f v) = q v) :
    (d.rename f).vertices.filter p = (d.vertices.filter q).map f := by
  rw [rename, List.filter_map]
  exact congrArg (List.map f) (List.filter_congr fun v _ => hsame v)

theorem isReady_rename (c : Candidate α) : (c.rename f).isReady = c.isReady := by
  rw [Candidate.isReady, Candidate.isReady, Candidate.rename, List.isEmpty_map]

/-- The order of the queue depends on the ranks alone, and these are kept. -/
theorem prioritize_rename (queue : List (Candidate α)) :
    prioritize (queue.map (Candidate.rename f)) = (prioritize queue).map (Candidate.rename f) := by
  unfold prioritize
  rw [List.map_mergeSort]
  intro _ _ _ _
  rfl

variable [DecidableEq α] [DecidableEq β] (hf : f.Injective) (d : Dependencies α)

include hf

theorem parents_rename (v : α) : (d.rename f).parents (f v) = (d.parents v).map f := by
  unfold parents rename
  rw [List.filter_map, List.map_map, List.map_map]
  simp only [Function.comp_def, hf.eq_iff]

theorem children_rename (v : α) : (d.rename f).children (f v) = (d.children v).map f := by
  unfold children rename
  rw [List.filter_map, List.map_map, List.map_map]
  simp only [Function.comp_def, hf.eq_iff]

theorem hasParent_rename (v : α) : (d.rename f).hasParent (f v) = d.hasParent v := by
  unfold hasParent rename
  simp only [List.any_map, Function.comp_def, hf.eq_iff]

theorem hasChild_rename (v : α) : (d.rename f).hasChild (f v) = d.hasChild v := by
  unfold hasChild rename
  simp only [List.any_map, Function.comp_def, hf.eq_iff]

theorem isolated_rename : (d.rename f).isolated = d.isolated.map f :=
  d.filter_vertices_rename fun v => by rw [hasParent_rename hf, hasChild_rename hf]

theorem roots_rename : (d.rename f).roots = d.roots.map f :=
  d.filter_vertices_rename fun v => by rw [hasParent_rename hf, hasChild_rename hf]

theorem dependents_rename : (d.rename f).dependents = d.dependents.map f :=
  d.filter_vertices_rename (d.hasParent_rename hf)

section Emission

theorem after_rename (c : Candidate α) (v : α) :
    (c.rename f).after (f v) = (c.after v).rename f := by
  unfold Candidate.after Candidate.rename
  rw [List.filter_map]
  simp only [Function.comp_def, ne_eq, hf.eq_iff]

theorem candidate_rename (order : List α) (v : α) :
    (d.rename f).candidate (order.map f) (f v) = (d.candidate order v).rename f := by
  simp only [candidate, Candidate.rename, parents_rename hf, List.length_map, List.filter_map,
    Function.comp_def, List.mem_map_of_injective hf]

/-- What the rest of the queue and the children of `v` become when `v` is emitted. -/
theorem queue_rename (rest : List (Candidate α)) (order : List α) (v : α) :
    (rest.map (Candidate.rename f)).map (·.after (f v)) ++
        ((d.rename f).children (f v)).map ((d.rename f).candidate (order.map f)) =
      (rest.map (·.after v) ++ (d.children v).map (d.candidate order)).map
        (Candidate.rename f) := by
  simp only [children_rename hf, List.map_append, List.map_map, Function.comp_def, after_rename hf,
    candidate_rename hf]

/-- A round of the renamed dependencies is a renamed round. -/
theorem emitNext_rename (s : Emission α) :
    (d.rename f).emitNext (s.rename f) = (d.emitNext s).map (Emission.rename f) := by
  -- Whether a candidate is ready does not depend on names.
  have hready : Candidate.isReady ∘ Candidate.rename f = Candidate.isReady :=
    funext isReady_rename
  have hfind : (s.rename f).queue.find? Candidate.isReady =
      (s.queue.find? Candidate.isReady).map (Candidate.rename f) := by
    rw [Emission.rename, List.find?_map, hready]
  have herase : (s.rename f).queue.eraseP Candidate.isReady =
      (s.queue.eraseP Candidate.isReady).map (Candidate.rename f) := by
    rw [Emission.rename, List.eraseP_map, hready]
  have hmem : ∀ v, f v ∈ (s.rename f).order ↔ v ∈ s.order :=
    fun v => List.mem_map_of_injective hf
  have horder : ∀ v, (s.rename f).order ++ [f v] = (s.order ++ [v]).map f := by
    intro v
    rw [List.map_append]
    rfl
  unfold emitNext
  rw [hfind, herase]
  cases s.queue.find? Candidate.isReady with
  | none => rfl
  | some c =>
    obtain ⟨v, rank, awaited⟩ := c
    simp only [Option.map_some, Candidate.rename, hmem, horder, queue_rename hf, prioritize_rename]
    split <;> rfl

theorem emitAll_rename (fuel : Nat) (s : Emission α) :
    (d.rename f).emitAll fuel (s.rename f) = (d.emitAll fuel s).rename f := by
  induction fuel generalizing s with
  | zero => rfl
  | succ fuel ih =>
    rw [emitAll, emitAll, emitNext_rename hf]
    cases d.emitNext s with
    | none => rfl
    | some t => exact ih t

/-- Emission goes the same way under other names. -/
theorem emission_rename : (d.rename f).emission = d.emission.rename f := by
  have hstart : (d.rename f).startEmission = d.startEmission.rename f := by
    unfold startEmission Emission.rename
    rw [roots_rename hf, List.map_map, List.map_map]
    refine congrArg₂ Emission.mk (List.map_congr_left fun v _ => ?_) rfl
    exact candidate_rename hf d [] v
  rw [emission, emission, hstart, emitAll_rename hf, roots_rename hf, List.length_map, rename,
    List.length_map]

theorem priorityOrder_rename : (d.rename f).priorityOrder = d.priorityOrder.map f := by
  rw [priorityOrder, priorityOrder, emission_rename hf]
  rfl

theorem unreached_rename :
    (d.emission.rename f).unreached (d.rename f) = (d.emission.unreached d).map f := by
  unfold Emission.unreached Emission.rename
  rw [dependents_rename hf, List.filter_map]
  simp only [Function.comp_def, List.mem_map_of_injective hf]

end Emission

section Countdown

theorem count_rename (s : Countdown α) (v : α) : (s.rename f).count (f v) = s.count v := by
  have hlookup : ∀ waiting : List (α × Nat),
      (waiting.map fun (w, n) => (f w, n)).lookup (f v) = waiting.lookup v := by
    intro waiting
    induction waiting with
    | nil => rfl
    | cons a waiting ih =>
      rw [List.map_cons, List.lookup_cons, List.lookup_cons, hf.beq_eq, ih]
  rw [Countdown.count, Countdown.count, Countdown.rename, hlookup]

/-- The counts of other vertices stay apart under an injective renaming. -/
theorem decrement_rename (s : Countdown α) (v : α) :
    (s.rename f).decrement (f v) = (s.decrement v).rename f := by
  have hwaiting : (s.waiting.map fun (w, n) => (f w, n)).map
        (fun (w, n) => if w = f v then (w, n - 1) else (w, n)) =
      (s.waiting.map fun (w, n) => if w = v then (w, n - 1) else (w, n)).map
        fun (w, n) => (f w, n) := by
    rw [List.map_map, List.map_map]
    refine List.map_congr_left fun a _ => ?_
    by_cases ha : a.1 = v
    · simp [ha]
    · simp [ha, hf.eq_iff]
  unfold Countdown.decrement
  rw [count_rename hf]
  simp only [Countdown.rename, hwaiting]
  split
  · rw [List.map_append]
    rfl
  · rfl

theorem release_rename (s : Countdown α) :
    (d.rename f).release (s.rename f) = (d.release s).rename f := by
  obtain ⟨waiting, ready⟩ := s
  cases ready with
  | nil => rfl
  | cons v ready =>
    show ((d.rename f).children (f v)).foldl Countdown.decrement
        (Countdown.rename f ⟨waiting, ready⟩) =
      ((d.children v).foldl Countdown.decrement ⟨waiting, ready⟩).rename f
    rw [children_rename hf, List.foldl_map]
    exact List.foldl_hom _ fun s w => decrement_rename hf s w

theorem releaseAll_rename (fuel : Nat) (s : Countdown α) :
    (d.rename f).releaseAll fuel (s.rename f) = (d.releaseAll fuel s).rename f := by
  induction fuel generalizing s with
  | zero => rfl
  | succ fuel ih => rw [releaseAll, releaseAll, release_rename hf, ih]

/-- Counting down goes the same way under other names. -/
theorem countdown_rename : (d.rename f).countdown = d.countdown.rename f := by
  have hlength : ∀ v, ((d.rename f).parents (f v)).length = (d.parents v).length := by
    intro v
    rw [parents_rename hf, List.length_map]
  have hready : (d.rename f).vertices.filter (fun v => ((d.rename f).parents v).length = 0) =
      (d.vertices.filter fun v => (d.parents v).length = 0).map f :=
    d.filter_vertices_rename fun v => by rw [hlength]
  have hstart : (d.rename f).startCountdown = d.startCountdown.rename f := by
    unfold startCountdown Countdown.rename
    rw [hready, rename, List.map_map, List.map_map]
    refine congrArg₂ Countdown.mk (List.map_congr_left fun v _ => ?_) rfl
    exact congrArg (Prod.mk (f v)) (hlength v)
  rw [countdown, countdown, hstart, releaseAll_rename hf, rename, List.length_map]

theorem blocked_rename : (d.rename f).blocked = d.blocked.map f :=
  d.filter_vertices_rename fun v => by rw [countdown_rename hf, count_rename hf]

end Countdown

end ConstraintGraph.Dependencies
