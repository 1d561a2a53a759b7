import ConstraintGraph.Dependency.PriorityOrder
import ConstraintGraph.Proofs.Dependency.Cycle

namespace ConstraintGraph.Dependencies

variable {α : Type} {d : Dependencies α}

/-- A place in a list with one more element is the new one or a place in the list. -/
theorem concat_eq_append_cons {order before behind : List α} {v w : α}
    (h : order ++ [v] = before ++ w :: behind) :
    (before = order ∧ w = v) ∨ ∃ behind', order = before ++ w :: behind' := by
  rcases List.eq_nil_or_concat behind with rfl | ⟨behind, x, rfl⟩
  · obtain ⟨rfl, hw⟩ := List.append_inj' h rfl
    exact Or.inl ⟨rfl, (List.singleton_inj.1 hw).symm⟩
  · rw [List.concat_eq_append, ← List.cons_append, ← List.append_assoc] at h
    exact Or.inr ⟨behind, (List.append_inj' h rfl).1⟩

def Ordered (d : Dependencies α) (order : List α) : Prop :=
  ∀ before v behind, order = before ++ v :: behind → ∀ u, d.Arc u v → u ∈ before

theorem ordered_nil (d : Dependencies α) : d.Ordered [] := by
  simp [Ordered]

theorem Ordered.concat {order : List α} {v : α} (ho : d.Ordered order)
    (hv : ∀ u, d.Arc u v → u ∈ order) : d.Ordered (order ++ [v]) := by
  intro before w behind he u hu
  rcases concat_eq_append_cons he with ⟨rfl, rfl⟩ | ⟨behind, he⟩
  · exact hv u hu
  · exact ho before w behind he u hu

theorem Ordered.mem_of_arc {order : List α} {u v : α} (ho : d.Ordered order) (hv : v ∈ order)
    (hu : d.Arc u v) : u ∈ order := by
  obtain ⟨before, behind, he⟩ := List.append_of_mem hv
  have hmem := ho before v behind he u hu
  simp [he, hmem]

theorem Ordered.idxOf_lt [DecidableEq α] {order : List α} {u v : α} (ho : d.Ordered order)
    (hn : order.Nodup) (hv : v ∈ order) (hu : d.Arc u v) : order.idxOf u < order.idxOf v := by
  obtain ⟨before, behind, rfl⟩ := List.append_of_mem hv
  have hmem := ho before v behind rfl u hu
  have hnot : v ∉ before := fun h =>
    (List.nodup_append.1 hn).2.2 v h v List.mem_cons_self rfl
  rw [List.idxOf_append_of_mem hmem, List.idxOf_append_of_notMem hnot, List.idxOf_cons_self,
    Nat.add_zero]
  exact List.idxOf_lt_length_iff.2 hmem

namespace Emission

def queued (s : Emission α) : List α := s.queue.map (·.vertex)

theorem queued_prioritize (queue : List (Candidate α)) (order : List α) :
    (queued ⟨prioritize queue, order⟩).Perm (queue.map (·.vertex)) :=
  (List.mergeSort_perm queue _).map _

end Emission

variable [DecidableEq α] {s t : Emission α}

@[simp] theorem after_vertex (c : Candidate α) (v : α) : (c.after v).vertex = c.vertex := rfl

@[simp] theorem candidate_vertex (d : Dependencies α) (order : List α) (v : α) :
    (d.candidate order v).vertex = v := rfl

namespace Emission

def Discovered (s : Emission α) (d : Dependencies α) (v : α) : Prop :=
  v ∈ d.roots ∨ ∃ u ∈ s.order, d.Arc u v

/-- What holds between two rounds. -/
structure Invariant (s : Emission α) (d : Dependencies α) : Prop where
  current : s.IsCurrent d
  nodup : s.order.Nodup
  ordered : d.Ordered s.order
  grounded : ∀ v ∈ s.order, d.Grounded v
  -- Exactly the discovered vertices have been emitted or are queued.
  discovered : ∀ v, v ∈ s.order ∨ v ∈ s.queued ↔ s.Discovered d v

end Emission

/-- A round takes the first ready candidate. If its vertex is new, it is emitted, the other
candidates follow that and its children are queued behind them. -/
theorem exists_emitNext_eq (ht : d.emitNext s = some t) :
    ∃ before c behind, s.queue = before ++ c :: behind ∧ c.isReady = true ∧
      (∀ b ∈ before, ¬ b.isReady = true) ∧
      t = if c.vertex ∈ s.order then ⟨prioritize (before ++ behind), s.order⟩
        else
          ⟨prioritize ((before ++ behind).map (·.after c.vertex) ++
            (d.children c.vertex).map (d.candidate (s.order ++ [c.vertex]))),
            s.order ++ [c.vertex]⟩ := by
  unfold emitNext at ht
  split at ht
  · simp at ht
  · rename_i v rank awaited hfind
    obtain ⟨hready, before, behind, hqueue, hbefore⟩ := List.find?_eq_some_iff_append.1 hfind
    have hnot : ∀ b ∈ before, ¬ b.isReady = true := by simpa using hbefore
    have herase : s.queue.eraseP Candidate.isReady = before ++ behind := by
      rw [hqueue, List.eraseP_append_right _ hnot, List.eraseP_cons_of_pos hready]
    rw [herase] at ht
    exact ⟨before, _, behind, hqueue, hready, hnot, (Option.some.inj ht).symm⟩

/-- A round takes a queued vertex whose parents have all been emitted. If it is new, it is emitted
and its children are queued. -/
theorem emitNext_cases (hs : s.IsCurrent d) (ht : d.emitNext s = some t) :
    ∃ v rest, s.queued.Perm (v :: rest) ∧ (∀ u, d.Arc u v → u ∈ s.order) ∧
      ((v ∈ s.order ∧ t.order = s.order ∧ t.queued.Perm rest) ∨
        (v ∉ s.order ∧ t.order = s.order ++ [v] ∧ t.queued.Perm (rest ++ d.children v))) := by
  obtain ⟨before, c, behind, hqueue, hready, -, rfl⟩ := exists_emitNext_eq ht
  have hmem : c ∈ s.queue := by simp [hqueue]
  rw [hs c hmem, isReady_candidate] at hready
  refine ⟨c.vertex, (before ++ behind).map (·.vertex), ?_, by simpa using hready, ?_⟩
  · rw [Emission.queued, hqueue]
    exact List.perm_middle.map _
  · -- A vertex that is queued again has been emitted already and is dropped.
    by_cases hv : c.vertex ∈ s.order
    · rw [if_pos hv]
      exact Or.inl ⟨hv, rfl, Emission.queued_prioritize _ _⟩
    · rw [if_neg hv]
      refine Or.inr ⟨hv, rfl, (Emission.queued_prioritize _ _).trans ?_⟩
      simp [Function.comp_def]

theorem emitNext_eq_none_iff (hs : s.IsCurrent d) :
    d.emitNext s = none ↔ ∀ v ∈ s.queued, ∃ u, d.Arc u v ∧ u ∉ s.order := by
  have hnone : d.emitNext s = none ↔ s.queue.find? Candidate.isReady = none := by
    unfold emitNext
    split <;> simp_all
  have hwaits : ∀ c ∈ s.queue,
      (¬ c.isReady = true ↔ ∃ u, d.Arc u c.vertex ∧ u ∉ s.order) := by
    intro c hc
    rw [hs c hc, isReady_candidate]
    simp
  rw [hnone, List.find?_eq_none]
  simp only [Emission.queued, List.mem_map, forall_exists_index, and_imp,
    forall_apply_eq_imp_iff₂]
  exact forall₂_congr hwaits

theorem startEmission_invariant (d : Dependencies α) : d.startEmission.Invariant d where
  current := d.isCurrent_startEmission
  nodup := List.nodup_nil
  ordered := d.ordered_nil
  grounded := by simp [startEmission]
  discovered := by simp [startEmission, Emission.queued, Emission.Discovered]

/-- A round keeps the invariant. -/
theorem emitNext_invariant (hs : s.Invariant d) (ht : d.emitNext s = some t) :
    t.Invariant d := by
  have hcurrent := isCurrent_emitNext hs.current ht
  obtain ⟨v, rest, hqueued, hparents, ⟨hv, horder, hrest⟩ | ⟨hv, horder, hrest⟩⟩ :=
    emitNext_cases hs.current ht
  · -- The vertex had been emitted before: only a repetition leaves the queue.
    refine ⟨hcurrent, horder ▸ hs.nodup, horder ▸ hs.ordered, horder ▸ hs.grounded, ?_⟩
    intro w
    have hw := hs.discovered w
    rw [hqueued.mem_iff, List.mem_cons, or_left_comm, or_iff_right_of_imp] at hw
    · rw [hrest.mem_iff, horder, hw, Emission.Discovered, Emission.Discovered, horder]
    · rintro rfl
      exact Or.inl hv
  · -- The vertex is emitted, and what is discovered by it is queued.
    refine ⟨hcurrent, ?_, horder ▸ hs.ordered.concat hparents, ?_, ?_⟩
    · rw [horder, ← List.concat_eq_append]
      exact hs.nodup.concat hv
    · intro w hw
      rw [horder, List.mem_append, List.mem_singleton] at hw
      rcases hw with hw | rfl
      · exact hs.grounded w hw
      · exact grounded_iff.2 fun u hu => hs.grounded u (hparents u hu)
    · intro w
      have hw := hs.discovered w
      rw [hqueued.mem_iff, List.mem_cons, Emission.Discovered] at hw
      have hparent : (∃ u ∈ t.order, d.Arc u w) ↔ (∃ u ∈ s.order, d.Arc u w) ∨ d.Arc v w := by
        simp [horder, or_and_right, exists_or]
      rw [Emission.Discovered, hparent, ← or_assoc, ← hw, hrest.mem_iff, horder]
      simp only [List.mem_append, List.mem_singleton, mem_children, or_assoc]

theorem emitAll_invariant (fuel : Nat) (hs : s.Invariant d) : (d.emitAll fuel s).Invariant d := by
  induction fuel generalizing s with
  | zero => exact hs
  | succ fuel ih =>
    unfold emitAll
    split
    · exact hs
    · rename_i t ht
      exact ih (emitNext_invariant hs ht)

theorem emission_invariant (d : Dependencies α) : d.emission.Invariant d :=
  emitAll_invariant _ d.startEmission_invariant

namespace Emission

def openArcs (s : Emission α) (d : Dependencies α) : Nat :=
  (d.arcs.map (·.1)).countP (· ∉ s.order)

def budget (s : Emission α) (d : Dependencies α) : Nat := s.queued.length + s.openArcs d

end Emission

/-- Emitting a vertex closes the arcs that leave it. -/
theorem openArcs_concat {v : α} (hv : v ∉ s.order) (horder : t.order = s.order ++ [v]) :
    s.openArcs d = t.openArcs d + (d.children v).length := by
  have hchildren : (d.arcs.map (·.1)).count v = (d.children v).length := by
    simp only [children, List.count, List.countP_eq_length_filter, List.filter_map,
      List.length_map, Function.comp_def, beq_eq_decide]
  rw [Emission.openArcs, Emission.openArcs, horder, countP_notMem_concat _ hv, hchildren]

/-- Every round takes one off the budget. -/
theorem budget_emitNext (hs : s.IsCurrent d) (ht : d.emitNext s = some t) :
    s.budget d = t.budget d + 1 := by
  unfold Emission.budget
  obtain ⟨v, rest, hqueued, -, ⟨-, horder, hrest⟩ | ⟨hv, horder, hrest⟩⟩ := emitNext_cases hs ht
  · rw [hqueued.length_eq, hrest.length_eq, Emission.openArcs, Emission.openArcs, horder,
      List.length_cons]
    omega
  · rw [hqueued.length_eq, hrest.length_eq, openArcs_concat hv horder, List.length_cons,
      List.length_append]
    omega

/-- With as many rounds as the budget has, emission ends. -/
theorem emitNext_emitAll {fuel : Nat} (hs : s.IsCurrent d) (hfuel : s.budget d ≤ fuel) :
    d.emitNext (d.emitAll fuel s) = none := by
  induction fuel generalizing s with
  | zero =>
    -- Nothing is left to spend: the queue is empty.
    have hnil : s.queued = [] := by
      unfold Emission.budget at hfuel
      exact List.length_eq_zero_iff.1 (by omega)
    exact (emitNext_eq_none_iff hs).2 (by simp [hnil])
  | succ fuel ih =>
    unfold emitAll
    split
    · assumption
    · rename_i t ht
      have hbudget := budget_emitNext hs ht
      exact ih (isCurrent_emitNext hs ht) (by omega)

theorem budget_startEmission (d : Dependencies α) :
    d.startEmission.budget d = d.roots.length + d.arcs.length := by
  simp [Emission.budget, Emission.queued, Emission.openArcs, startEmission]

/-- The fuel is enough: no round is possible in the end. -/
theorem emitNext_emission (d : Dependencies α) : d.emitNext d.emission = none :=
  emitNext_emitAll d.isCurrent_startEmission (Nat.le_of_eq d.budget_startEmission)

theorem mem_priorityOrder_of_discovered {v : α} (hv : d.emission.Discovered d v)
    (hparents : ∀ u, d.Arc u v → u ∈ d.priorityOrder) : v ∈ d.priorityOrder := by
  have hinv := d.emission_invariant
  rcases (hinv.discovered v).2 hv with h | h
  · exact h
  · obtain ⟨u, hu, hnot⟩ := (emitNext_eq_none_iff hinv.current).1 d.emitNext_emission v h
    exact absurd (hparents u hu) hnot

/-- Exactly the grounded vertices with an arc are emitted. -/
theorem mem_priorityOrder_iff (hd : d.WellFormed) {v : α} :
    v ∈ d.priorityOrder ↔ d.Grounded v ∧ (d.hasParent v = true ∨ d.hasChild v = true) := by
  have hinv := d.emission_invariant
  constructor
  · intro hv
    refine ⟨hinv.grounded v hv, ?_⟩
    rcases (hinv.discovered v).1 (Or.inl hv) with hroot | ⟨u, -, hu⟩
    · simp only [roots, List.mem_filter, Bool.and_eq_true] at hroot
      exact Or.inr hroot.2.2
    · exact Or.inl (hasParent_iff.2 ⟨u, hu⟩)
  · rintro ⟨hv, harc⟩
    -- With its parents emitted a vertex is discovered, and then it does not stay in the queue.
    induction hv with
    | intro v _ ih =>
      have hparents : ∀ u, d.Arc u v → u ∈ d.priorityOrder := fun u hu =>
        ih u hu (Or.inr (hasChild_iff.2 ⟨v, hu⟩))
      apply mem_priorityOrder_of_discovered _ hparents
      by_cases hp : d.hasParent v = true
      · obtain ⟨u, hu⟩ := hasParent_iff.1 hp
        exact Or.inr ⟨u, hparents u hu, hu⟩
      · have hc := harc.resolve_left hp
        obtain ⟨w, hw⟩ := hasChild_iff.1 hc
        exact Or.inl (List.mem_filter.2 ⟨hd.source_mem hw, by simp [hp, hc]⟩)

/-- What is not emitted in the end is what is not grounded. -/
theorem mem_unreached_iff (hd : d.WellFormed) {v : α} :
    v ∈ d.emission.unreached d ↔ v ∈ d.vertices ∧ ¬ d.Grounded v := by
  have hparent : ¬ d.Grounded v → d.hasParent v = true := fun h =>
    hasParent_iff.2 (behindCycle_of_not_grounded hd h).exists_arc
  have horder := mem_priorityOrder_iff hd (v := v)
  rw [priorityOrder] at horder
  simp only [Emission.unreached, dependents, List.mem_filter, decide_eq_true_eq, horder]
  constructor
  · rintro ⟨⟨hv, hp⟩, hnot⟩
    exact ⟨hv, fun hg => hnot ⟨hg, Or.inl hp⟩⟩
  · rintro ⟨hv, hg⟩
    exact ⟨⟨hv, hparent hg⟩, fun h => hg h.1⟩

/-- An emission gets stuck over a vertex behind a cycle only. -/
theorem exists_not_grounded_of_isStuck (hd : d.WellFormed) (h : d.emission.isStuck = true) :
    ∃ v ∈ d.vertices, ¬ d.Grounded v := by
  have hinv := d.emission_invariant
  have hne : d.emission.queue ≠ [] := by simpa [Emission.isStuck] using h
  obtain ⟨c, hc⟩ := List.exists_mem_of_ne_nil _ hne
  have hq : c.vertex ∈ d.emission.queued := List.mem_map_of_mem hc
  obtain ⟨u, hu, hnot⟩ :=
    (emitNext_eq_none_iff hinv.current).1 d.emitNext_emission c.vertex hq
  refine ⟨c.vertex, hd.target_mem hu, fun hg => hnot ?_⟩
  have hv := (mem_priorityOrder_iff hd).2 ⟨hg, Or.inl (hasParent_iff.2 ⟨u, hu⟩)⟩
  exact hinv.ordered.mem_of_arc hv hu

end ConstraintGraph.Dependencies
