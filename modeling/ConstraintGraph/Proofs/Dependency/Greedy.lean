import ConstraintGraph.Proofs.Dependency.Emission
import Mathlib.Data.List.MinMax

namespace ConstraintGraph

section Ahead

variable {α : Type} {l m : List α} {a b : α} {q : α → Bool}

def Ahead (l : List α) (a b : α) : Prop := ∃ front back, l = front ++ a :: back ∧ b ∉ front

theorem Ahead.filter (h : Ahead l a b) (ha : q a = true) : Ahead (l.filter q) a b := by
  obtain ⟨front, back, rfl, hb⟩ := h
  refine ⟨front.filter q, back.filter q, ?_, fun hmem => hb (List.mem_of_mem_filter hmem)⟩
  rw [List.filter_append, List.filter_cons_of_pos ha]

/-- Elements that are taken out are no `b`. -/
theorem Ahead.of_filter (h : Ahead (l.filter q) a b) (hb : q b = true) : Ahead l a b := by
  obtain ⟨front, back, heq, hnot⟩ := h
  obtain ⟨outer, rest, rfl, rfl, hrest⟩ := List.filter_eq_append_iff.1 heq
  obtain ⟨gap, back, rfl, hgap, -, -⟩ := List.filter_eq_cons_iff.1 hrest
  refine ⟨outer ++ gap, back, (List.append_assoc ..).symm, fun hmem => ?_⟩
  rcases List.mem_append.1 hmem with hmem | hmem
  · exact hnot (List.mem_filter.2 ⟨hmem, hb⟩)
  · exact hgap b hmem hb

theorem Ahead.append_right (h : Ahead l a b) (m : List α) : Ahead (l ++ m) a b := by
  obtain ⟨front, back, rfl, hb⟩ := h
  exact ⟨front, back ++ m, by simp, hb⟩

theorem Ahead.append_left (h : Ahead m a b) (hb : b ∉ l) : Ahead (l ++ m) a b := by
  obtain ⟨front, back, rfl, hfront⟩ := h
  exact ⟨l ++ front, back, by simp, by simp [hb, hfront]⟩

theorem Ahead.of_append (h : Ahead (l ++ m) a b) : Ahead l a b ∨ b ∉ l ∧ Ahead m a b := by
  obtain ⟨front, back, heq, hb⟩ := h
  rcases List.append_eq_append_iff.1 heq with ⟨gap, rfl, hm⟩ | ⟨gap, rfl, hback⟩
  · rw [List.mem_append, not_or] at hb
    exact Or.inr ⟨hb.1, gap, back, hm, hb.2⟩
  · cases gap with
    | nil =>
      rw [List.append_nil]
      exact Or.inr ⟨hb, [], back, hback.symm, List.not_mem_nil⟩
    | cons c gap =>
      obtain ⟨rfl, -⟩ := List.cons.inj hback
      exact Or.inl ⟨front, gap, rfl, hb⟩

theorem Ahead.insert {x : α} (h : Ahead (l ++ m) a b) (hb : b ≠ x) : Ahead (l ++ x :: m) a b := by
  rcases h.of_append with h | ⟨hl, hm⟩
  · exact h.append_right (x :: m)
  · have hx : Ahead ([x] ++ m) a b := hm.append_left (by simpa using hb)
    exact hx.append_left hl

theorem Ahead.idxOf_le [DecidableEq α] (h : Ahead l a b) : l.idxOf a ≤ l.idxOf b := by
  obtain ⟨front, back, rfl, hb⟩ := h
  have ha : (front ++ a :: back).idxOf a ≤ front.length := by
    rw [List.idxOf_append]
    split
    · exact List.idxOf_le_length
    · simp
  rw [List.idxOf_append_of_notMem hb]
  omega

end Ahead

section Sorting

open Dependencies

variable {α : Type} {queue : List (Candidate α)}

theorem rank_le_trans (a b c : Candidate α) (hab : decide (b.rank ≤ a.rank) = true)
    (hbc : decide (c.rank ≤ b.rank) = true) : decide (c.rank ≤ a.rank) = true :=
  decide_eq_true (le_trans (of_decide_eq_true hbc) (of_decide_eq_true hab))

theorem rank_le_total (a b : Candidate α) :
    (decide (b.rank ≤ a.rank) || decide (a.rank ≤ b.rank)) = true := by
  rw [Bool.or_eq_true, decide_eq_true_iff, decide_eq_true_iff]
  exact le_total b.rank a.rank

theorem pairwise_prioritize (queue : List (Candidate α)) :
    (prioritize queue).Pairwise fun a b => b.rank ≤ a.rank :=
  (List.pairwise_mergeSort rank_le_trans rank_le_total queue).imp of_decide_eq_true

/-- Sorting keeps the candidates of one rank in their order. -/
theorem filter_prioritize (n : Nat) :
    (prioritize queue).filter (·.rank = n) = queue.filter (·.rank = n) := by
  have hperm : ((prioritize queue).filter (·.rank = n)).Perm (queue.filter (·.rank = n)) :=
    (List.mergeSort_perm queue _).filter _
  have hequal : (queue.filter (·.rank = n)).Pairwise
      fun a b => decide (b.rank ≤ a.rank) = true := by
    refine List.pairwise_of_forall_mem_list fun a ha b hb => ?_
    rw [List.mem_filter, decide_eq_true_iff] at ha hb
    exact decide_eq_true (by omega)
  have hsub : (queue.filter (·.rank = n)).Sublist (prioritize queue) :=
    List.sublist_mergeSort rank_le_trans rank_le_total hequal List.filter_sublist
  have hkept : (queue.filter (·.rank = n)).Sublist ((prioritize queue).filter (·.rank = n)) := by
    simpa only [List.filter_filter, Bool.and_self] using hsub.filter (·.rank = n)
  exact (hkept.eq_of_length_le hperm.length_eq.le).symm

end Sorting

namespace Dependencies

variable {α : Type} [DecidableEq α]

def rank (d : Dependencies α) (v : α) : Nat := (d.parents v).length

/-- The vertices in the order in which they are discovered when those of `order` are emitted: the
roots, then the children of each emitted vertex. A vertex may be listed again later. -/
def discoveries (d : Dependencies α) (order : List α) : List α :=
  d.roots ++ order.flatMap d.children

def isDue (d : Dependencies α) (order : List α) (v : α) : Bool :=
  v ∉ order ∧ ∀ p ∈ d.parents v, p ∈ order

def next? (d : Dependencies α) (order : List α) : Option α :=
  ((d.discoveries order).filter (d.isDue order)).argmax d.rank

/-- The order in which always the next vertex is emitted, until there is none. -/
structure IsGreedy (d : Dependencies α) (order : List α) : Prop where
  chosen : ∀ before v behind, order = before ++ v :: behind → d.next? before = some v
  finished : d.next? order = none

variable {d : Dependencies α} {s t : Emission α} {order other : List α} {v w : α}

/-- A vertex is due when its parents have been emitted and it has not. -/
theorem isDue_iff : d.isDue order v = true ↔ v ∉ order ∧ ∀ p ∈ d.parents v, p ∈ order := by
  rw [isDue, decide_eq_true_iff]

/-- There is only one greedy order. -/
theorem IsGreedy.eq (horder : d.IsGreedy order) (hother : d.IsGreedy other) : order = other := by
  -- One of the two cannot go on where the other one has ended.
  have hnext : ∀ {l m : List α}, d.IsGreedy l → d.IsGreedy m → ∀ n, l.take n = m.take n →
      l.take (n + 1) = l.take n ++ (d.next? (m.take n)).toList := by
    intro l m hl hm n hn
    by_cases hlt : n < l.length
    · have hsplit : l = l.take n ++ l[n] :: l.drop (n + 1) := by simp
      rw [← hn, hl.chosen _ _ _ hsplit, List.take_add_one, List.getElem?_eq_getElem hlt]
    · have hall : l.take n = l := List.take_of_length_le (by omega)
      rw [← hn, hall, hl.finished, List.take_of_length_le (by omega), Option.toList_none,
        List.append_nil]
  have htake : ∀ n, order.take n = other.take n := by
    intro n
    induction n with
    | zero => rfl
    | succ n ih =>
      rw [hnext horder hother n ih, hnext hother horder n ih.symm, ih]
  have hlong := htake (max order.length other.length)
  rwa [List.take_of_length_le (le_max_left ..), List.take_of_length_le (le_max_right ..)] at hlong

/-- The discoveries are what the invariant of the emission calls discovered. -/
theorem Emission.mem_discoveries_iff :
    v ∈ d.discoveries s.order ↔ s.Discovered d v := by
  simp [discoveries, Emission.Discovered, mem_children]

theorem rank_candidate (d : Dependencies α) (order : List α) (v : α) :
    (d.candidate order v).rank = d.rank v := rfl

namespace Emission

/-- The order of the queue: it is sorted, and where two vertices have equally many parents it goes
by their discovery. So far the next vertex has always been emitted. -/
structure IsPrioritized (s : Emission α) (d : Dependencies α) : Prop where
  sorted : s.queue.Pairwise fun a b => b.rank ≤ a.rank
  ahead : ∀ v w, v ∉ s.order → w ∉ s.order → d.rank v = d.rank w → Ahead s.queued v w →
    Ahead (d.discoveries s.order) v w
  chosen : ∀ before v behind, s.order = before ++ v :: behind → d.next? before = some v

end Emission

/-- Sorting does not change which of two vertices of one rank comes first. -/
theorem ahead_of_prioritize {queue : List (Candidate α)}
    (hrank : ∀ c ∈ queue, c.rank = d.rank c.vertex) (hvw : d.rank v = d.rank w)
    (h : Ahead ((prioritize queue).map (·.vertex)) v w) : Ahead (queue.map (·.vertex)) v w := by
  -- Sorting is stable: the vertices of one rank stay as they are among themselves.
  have hfilter : ∀ l : List (Candidate α), (∀ c ∈ l, c.rank = d.rank c.vertex) →
      (l.map (·.vertex)).filter (d.rank · = d.rank v) =
        (l.filter (·.rank = d.rank v)).map (·.vertex) := by
    intro l hl
    rw [List.filter_map]
    congr 1
    refine List.filter_congr fun c hc => ?_
    rw [hl c hc, Function.comp_apply]
  have hsorted := hfilter (prioritize queue) fun c hc => hrank c (mem_prioritize.1 hc)
  have hv : decide (d.rank v = d.rank v) = true := decide_eq_true rfl
  have hw : decide (d.rank w = d.rank v) = true := decide_eq_true hvw.symm
  have hkept := h.filter (q := (d.rank · = d.rank v)) hv
  rw [hsorted, filter_prioritize, ← hfilter queue hrank] at hkept
  exact hkept.of_filter hw

/-- Roots have no parents, so that any order of them is sorted. -/
theorem startEmission_prioritized (d : Dependencies α) : d.startEmission.IsPrioritized d where
  sorted := by
    have hzero : ∀ c ∈ d.startEmission.queue, c.rank = 0 := by
      intro c hc
      obtain ⟨v, hv, rfl⟩ := List.mem_map.1 hc
      have hroot := (List.mem_filter.1 hv).2
      have hnone : d.parents v = [] := by
        refine List.eq_nil_iff_forall_not_mem.2 fun u hu => ?_
        simp [hasParent_iff.2 ⟨u, mem_parents.1 hu⟩] at hroot
      rw [rank_candidate, rank, hnone, List.length_nil]
    exact List.pairwise_of_forall_mem_list fun a ha b hb => by rw [hzero a ha, hzero b hb]
  ahead := by
    intro v w _ _ _ h
    simpa [discoveries, startEmission, Emission.queued, Function.comp_def] using h
  chosen := by simp [startEmission]

/-- The first ready candidate in the queue is the greedy choice, if its vertex is new. -/
theorem next?_of_ready {before behind : List (Candidate α)} {c : Candidate α} (hs : s.Invariant d)
    (hp : s.IsPrioritized d) (hqueue : s.queue = before ++ c :: behind)
    (hready : c.isReady = true) (hbefore : ∀ b ∈ before, ¬ b.isReady = true)
    (hnew : c.vertex ∉ s.order) : d.next? s.order = some c.vertex := by
  have hqueued : s.queued = before.map (·.vertex) ++ c.vertex :: behind.map (·.vertex) := by
    rw [Emission.queued, hqueue, List.map_append, List.map_cons]
  have hcurrent : ∀ b ∈ s.queue, b.rank = d.rank b.vertex ∧
      (b.isReady = true ↔ ∀ p ∈ d.parents b.vertex, p ∈ s.order) := by
    intro b hb
    rw [hs.current b hb]
    exact ⟨rfl, isReady_candidate d s.order b.vertex⟩
  have hc : c ∈ s.queue := by simp [hqueue]
  have hdue : d.isDue s.order c.vertex = true := isDue_iff.2 ⟨hnew, (hcurrent c hc).2.1 hready⟩
  -- Whatever else could be chosen is queued behind this vertex.
  have hbehind : ∀ w ∈ d.discoveries s.order, d.isDue s.order w = true →
      w ∉ before.map (·.vertex) ∧ w ∈ s.queued := by
    intro w hw hwdue
    obtain ⟨hwnew, hwparents⟩ := isDue_iff.1 hwdue
    refine ⟨fun hmem => ?_, ((hs.discovered w).2 (Emission.mem_discoveries_iff.1 hw)).resolve_left
      hwnew⟩
    obtain ⟨b, hb, rfl⟩ := List.mem_map.1 hmem
    exact hbefore b hb ((hcurrent b (by simp [hqueue, hb])).2.2 hwparents)
  have hmost : ∀ w ∈ d.discoveries s.order, d.isDue s.order w = true →
      d.rank w ≤ d.rank c.vertex := by
    intro w hw hwdue
    obtain ⟨hfront, hmem⟩ := hbehind w hw hwdue
    rw [hqueued, List.mem_append, List.mem_cons] at hmem
    rcases hmem.resolve_left hfront with rfl | hmem
    · exact le_rfl
    · obtain ⟨b, hb, rfl⟩ := List.mem_map.1 hmem
      have hsorted := hp.sorted
      rw [hqueue, List.pairwise_append] at hsorted
      have hrank := (List.pairwise_cons.1 hsorted.2.1).1 b hb
      rwa [(hcurrent b (by simp [hqueue, hb])).1, (hcurrent c hc).1] at hrank
  have hfirst : ∀ w ∈ d.discoveries s.order, d.isDue s.order w = true →
      d.rank c.vertex ≤ d.rank w → Ahead (d.discoveries s.order) c.vertex w := by
    intro w hw hwdue hle
    have hqueuedAhead : Ahead s.queued c.vertex w := ⟨_, _, hqueued, (hbehind w hw hwdue).1⟩
    exact hp.ahead c.vertex w hnew (isDue_iff.1 hwdue).1 (le_antisymm hle (hmost w hw hwdue))
      hqueuedAhead
  refine List.argmax_eq_some_iff.2 ⟨?_, fun w hw => ?_, fun w hw hle => ?_⟩
  · have hdiscovered := (hs.discovered c.vertex).1 (Or.inr (List.mem_map_of_mem hc))
    exact List.mem_filter.2 ⟨Emission.mem_discoveries_iff.2 hdiscovered, hdue⟩
  · obtain ⟨hw, hwdue⟩ := List.mem_filter.1 hw
    exact hmost w hw hwdue
  · obtain ⟨hw, hwdue⟩ := List.mem_filter.1 hw
    exact ((hfirst w hw hwdue hle).filter hdue).idxOf_le

/-- A round keeps the queue in order and emits the vertex that comes next. -/
theorem emitNext_prioritized (hs : s.Invariant d) (hp : s.IsPrioritized d)
    (ht : d.emitNext s = some t) : t.IsPrioritized d := by
  obtain ⟨before, c, behind, hqueue, hready, hbefore, rfl⟩ := exists_emitNext_eq ht
  have hqueued : s.queued = before.map (·.vertex) ++ c.vertex :: behind.map (·.vertex) := by
    rw [Emission.queued, hqueue, List.map_append, List.map_cons]
  have hrank : ∀ b ∈ before ++ behind, b.rank = d.rank b.vertex := by
    intro b hb
    have hmem : b ∈ s.queue := by
      rw [hqueue, List.mem_append, List.mem_cons]
      exact (List.mem_append.1 hb).imp_right Or.inr
    rw [hs.current b hmem]
    rfl
  by_cases hv : c.vertex ∈ s.order
  · -- A repetition leaves the queue. It stood in nobody's way, as it is not in question any more.
    rw [if_pos hv]
    refine ⟨pairwise_prioritize _, fun v w hvnew hwnew hvw h => ?_, hp.chosen⟩
    have hrest := ahead_of_prioritize hrank hvw h
    rw [List.map_append] at hrest
    have hne : w ≠ c.vertex := fun heq => hwnew (heq ▸ hv)
    exact hp.ahead v w hvnew hwnew hvw (hqueued ▸ hrest.insert hne)
  · -- The vertex is emitted, and discovers its children behind all that was discovered before.
    rw [if_neg hv]
    refine ⟨pairwise_prioritize _, fun v w hvnew hwnew hvw h => ?_, fun front v back horder => ?_⟩
    · rw [List.mem_append, List.mem_singleton, not_or] at hvnew hwnew
      have hkept : ∀ b ∈ (before ++ behind).map (·.after c.vertex) ++
          (d.children c.vertex).map (d.candidate (s.order ++ [c.vertex])),
          b.rank = d.rank b.vertex := by
        intro b hb
        rcases List.mem_append.1 hb with hb | hb
        · obtain ⟨b', hb', rfl⟩ := List.mem_map.1 hb
          exact hrank b' hb'
        · obtain ⟨u, -, rfl⟩ := List.mem_map.1 hb
          rfl
      have hrest : Ahead ((before.map (·.vertex) ++ behind.map (·.vertex)) ++ d.children c.vertex)
          v w := by
        simpa [Function.comp_def] using ahead_of_prioritize hkept hvw h
      rw [discoveries, List.flatMap_append, List.flatMap_singleton, ← List.append_assoc]
      rcases hrest.of_append with hold | ⟨hnot, hchildren⟩
      · have hqueuedAhead : Ahead s.queued v w := hqueued ▸ hold.insert hwnew.2
        exact (hp.ahead v w hvnew.1 hwnew.1 hvw hqueuedAhead).append_right _
      · refine hchildren.append_left fun hdiscovered => ?_
        have hmem := ((hs.discovered w).2 (Emission.mem_discoveries_iff.1 hdiscovered)).resolve_left
          hwnew.1
        rw [hqueued, List.mem_append, List.mem_cons, or_left_comm, ← List.mem_append] at hmem
        exact hmem.elim hwnew.2 hnot
    · rcases concat_eq_append_cons horder with ⟨rfl, rfl⟩ | ⟨back, horder⟩
      · exact next?_of_ready hs hp hqueue hready hbefore hv
      · exact hp.chosen front v back horder

theorem emitAll_prioritized (fuel : Nat) (hs : s.Invariant d) (hp : s.IsPrioritized d) :
    (d.emitAll fuel s).IsPrioritized d := by
  induction fuel generalizing s with
  | zero => exact hp
  | succ fuel ih =>
    unfold emitAll
    split
    · exact hp
    · rename_i t ht
      exact ih (emitNext_invariant hs ht) (emitNext_prioritized hs hp ht)

/-- The emission by priority emits in the greedy order. -/
theorem isGreedy_priorityOrder (d : Dependencies α) : d.IsGreedy d.priorityOrder := by
  have hs := d.emission_invariant
  have hp : d.emission.IsPrioritized d :=
    emitAll_prioritized _ d.startEmission_invariant d.startEmission_prioritized
  refine ⟨hp.chosen, ?_⟩
  rw [next?, List.argmax_eq_none, List.filter_eq_nil_iff]
  intro v hv hdue
  -- A discovered vertex that is due would be queued and ready, and the rounds would go on.
  obtain ⟨hnew, hparents⟩ := isDue_iff.1 hdue
  have hqueued := ((hs.discovered v).2 (Emission.mem_discoveries_iff.1 hv)).resolve_left hnew
  obtain ⟨u, hu, hnot⟩ := (emitNext_eq_none_iff hs.current).1 d.emitNext_emission v hqueued
  exact hnot (hparents u (mem_parents.2 hu))

end Dependencies
end ConstraintGraph
