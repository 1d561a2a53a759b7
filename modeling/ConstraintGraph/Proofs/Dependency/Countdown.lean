import ConstraintGraph.Dependency.Countdown
import ConstraintGraph.Proofs.Dependency.Cycle
import Mathlib.Data.List.Perm.Subperm
import Mathlib.Logic.Function.Iterate

namespace ConstraintGraph.Dependencies

variable {α : Type} [DecidableEq α] {d : Dependencies α} {s : Countdown α}

theorem lookup_map_pair (f : α → Nat) {l : List α} {v : α} (hv : v ∈ l) :
    (l.map fun w => (w, f w)).lookup v = some (f v) := by
  induction l with
  | nil => simp at hv
  | cons w l ih =>
    by_cases hw : v = w
    · simp [hw]
    · have hbeq : (v == w) = false := by simpa using hw
      rw [List.map_cons, List.lookup_cons, hbeq]
      exact ih ((List.mem_cons.1 hv).resolve_left hw)

theorem lookup_map_value (f : α → Nat → Nat) (l : List (α × Nat)) (v : α) :
    (l.map fun a => (a.1, f a.1 a.2)).lookup v = (l.lookup v).map (f v) := by
  induction l with
  | nil => rfl
  | cons a l ih =>
    rw [List.map_cons, List.lookup_cons, List.lookup_cons, ih]
    by_cases ha : v = a.1
    · simp [ha]
    · have hbeq : (v == a.1) = false := by simpa using ha
      simp [hbeq]

theorem count_decrement (s : Countdown α) (v w : α) :
    (s.decrement v).count w = if w = v then s.count w - 1 else s.count w := by
  have hwaiting : (s.decrement v).waiting =
      s.waiting.map fun a => (a.1, if a.1 = v then a.2 - 1 else a.2) := by
    have hentries : (s.decrement v).waiting =
        s.waiting.map fun a => if a.1 = v then (a.1, a.2 - 1) else (a.1, a.2) := by
      unfold Countdown.decrement
      split <;> rfl
    rw [hentries]
    refine List.map_congr_left fun a _ => ?_
    split <;> rfl
  rw [Countdown.count, hwaiting, lookup_map_value fun x n => if x = v then n - 1 else n,
    Countdown.count]
  cases s.waiting.lookup w <;> simp

theorem ready_decrement (s : Countdown α) (v : α) :
    (s.decrement v).ready = if s.count v - 1 = 0 then s.ready ++ [v] else s.ready := by
  unfold Countdown.decrement
  split <;> rfl

/-- What holds while vertices are released. Those in `done` have had their turn. The list `pending`
has a place for every arc from them for which nothing has been taken off its target yet. -/
structure Countdown.Invariant (s : Countdown α) (d : Dependencies α) (done pending : List α) :
    Prop where
  count_eq : ∀ v ∈ d.vertices,
    s.count v = (d.parents v).countP (· ∉ done) + pending.count v
  nodup : (done ++ s.ready).Nodup
  mem_iff : ∀ v, v ∈ done ++ s.ready ↔ v ∈ d.vertices ∧ s.count v = 0
  grounded : ∀ v ∈ done ++ s.ready, d.Grounded v

/-- A vertex with no parent but released ones is grounded as they are. -/
theorem grounded_of_countP_eq_zero (done : List α) (hdone : ∀ v ∈ done, d.Grounded v) {v : α}
    (hv : (d.parents v).countP (· ∉ done) = 0) : d.Grounded v := by
  rw [List.countP_eq_zero] at hv
  refine grounded_iff.2 fun u hu => hdone u ?_
  simpa using hv u (mem_parents.2 hu)

/-- Before anything is released every vertex waits for all its parents. -/
theorem startCountdown_invariant (hd : d.WellFormed) : d.startCountdown.Invariant d [] [] := by
  -- At the start every vertex counts all its parents.
  have hcount : ∀ v ∈ d.vertices, d.startCountdown.count v = (d.parents v).length := by
    intro v hv
    rw [Countdown.count, startCountdown, lookup_map_pair _ hv]
    rfl
  have hready : ∀ v, v ∈ d.startCountdown.ready ↔
      v ∈ d.vertices ∧ (d.parents v).length = 0 := by
    intro v
    simp [startCountdown]
  refine ⟨?_, ?_, ?_, ?_⟩
  · intro v hv
    simp [hcount v hv]
  · exact hd.nodup.filter _
  · intro v
    rw [List.nil_append, hready]
    refine and_congr_right fun hv => ?_
    rw [hcount v hv]
  · intro v hv
    have hlength := ((hready v).1 hv).2
    refine grounded_of_countP_eq_zero [] (by simp) ?_
    simpa using hlength

theorem Countdown.Invariant.count_pos {done pending : List α} {v : α}
    (hs : s.Invariant d done (v :: pending)) (hv : v ∈ d.vertices) : 0 < s.count v := by
  rw [hs.count_eq v hv, List.count_cons_self]
  omega

/-- A decrement keeps the invariant and settles one pending arc. -/
theorem Countdown.Invariant.decrement {done pending : List α} {v : α}
    (hs : s.Invariant d done (v :: pending)) (hv : v ∈ d.vertices) :
    (s.decrement v).Invariant d done pending := by
  have hpos := hs.count_pos hv
  have hnot : v ∉ done ++ s.ready := fun h => by
    have := ((hs.mem_iff v).1 h).2
    omega
  have hcount : ∀ w ∈ d.vertices,
      (s.decrement v).count w = (d.parents w).countP (· ∉ done) + pending.count w := by
    intro w hw
    rw [count_decrement, hs.count_eq w hw, List.count_cons]
    by_cases he : w = v
    · simp [he]
    · have : v ≠ w := Ne.symm he
      simp [he, this]
  -- Only the decrement to zero makes the vertex ready.
  by_cases hzero : s.count v - 1 = 0
  · have hready : done ++ (s.decrement v).ready = (done ++ s.ready) ++ [v] := by
      rw [ready_decrement, if_pos hzero, List.append_assoc]
    refine ⟨hcount, ?_, ?_, ?_⟩
    · rw [hready, ← List.concat_eq_append]
      exact hs.nodup.concat hnot
    · intro w
      rw [hready, List.mem_append, hs.mem_iff w, List.mem_singleton, count_decrement]
      by_cases he : w = v
      · simp [he, hv, hzero]
      · simp [he]
    · intro w hw
      rw [hready, List.mem_append, List.mem_singleton] at hw
      rcases hw with hw | rfl
      · exact hs.grounded w hw
      · -- Nothing is left to count, so all its parents have had their turn.
        have hw := hcount w hv
        rw [count_decrement, if_pos rfl, hzero] at hw
        exact grounded_of_countP_eq_zero done
          (fun u hu => hs.grounded u (List.mem_append_left _ hu)) (by omega)
  · have hready : (s.decrement v).ready = s.ready := by
      rw [ready_decrement, if_neg hzero]
    refine ⟨hcount, hready ▸ hs.nodup, ?_, hready ▸ hs.grounded⟩
    intro w
    rw [hready, hs.mem_iff w, count_decrement]
    refine and_congr_right fun hw => ?_
    by_cases he : w = v
    · simp only [he, if_true]
      omega
    · rw [if_neg he]

/-- The decrements for some of the pending arcs leave the others pending. -/
theorem Countdown.Invariant.foldl_decrement {done settled pending : List α}
    (hs : s.Invariant d done (settled ++ pending)) (hsettled : ∀ v ∈ settled, v ∈ d.vertices) :
    (settled.foldl Countdown.decrement s).Invariant d done pending := by
  induction settled generalizing s with
  | nil => exact hs
  | cons v settled ih =>
    obtain ⟨hv, hrest⟩ := List.forall_mem_cons.1 hsettled
    exact ih (hs.decrement hv) hrest

/-- When the head of the queue gets its turn, every arc that leaves it is pending. -/
theorem Countdown.Invariant.pop {done ready : List α} {v : α} (hs : s.Invariant d done [])
    (hready : s.ready = v :: ready) :
    Countdown.Invariant ⟨s.waiting, ready⟩ d (done ++ [v]) (d.children v) := by
  have hsplit : (done ++ [v]) ++ ready = done ++ s.ready := by simp [hready]
  have hv : v ∉ done := by
    have hnodup := hs.nodup
    rw [hready, List.nodup_append] at hnodup
    exact fun h => hnodup.2.2 v h v List.mem_cons_self rfl
  refine ⟨?_, ?_, ?_, ?_⟩
  · -- The children wait for one parent fewer, which their counts do not say yet.
    intro w hw
    have hcount := hs.count_eq w hw
    rw [countP_notMem_concat _ hv, List.count_nil, Nat.add_zero] at hcount
    rw [count_children]
    exact hcount
  · rw [hsplit]
    exact hs.nodup
  · intro w
    rw [hsplit]
    exact hs.mem_iff w
  · rw [hsplit]
    exact hs.grounded

/-- A release gives the head of the queue its turn. -/
theorem Countdown.Invariant.release (hd : d.WellFormed) {done ready : List α} {v : α}
    (hs : s.Invariant d done []) (hready : s.ready = v :: ready) :
    (d.release s).Invariant d (done ++ [v]) [] := by
  have hpop := hs.pop hready
  rw [← List.append_nil (d.children v)] at hpop
  unfold Dependencies.release
  rw [hready]
  exact hpop.foldl_decrement fun w hw => hd.target_mem (mem_children.1 hw)

theorem release_of_ready_nil (h : s.ready = []) : d.release s = s := by
  unfold release
  rw [h]

theorem releaseAll_eq_iterate (d : Dependencies α) (fuel : Nat) (s : Countdown α) :
    d.releaseAll fuel s = d.release^[fuel] s := by
  induction fuel generalizing s with
  | zero => rfl
  | succ fuel ih => exact ih (d.release s)

theorem releaseAll_of_ready_nil (fuel : Nat) (h : s.ready = []) : d.releaseAll fuel s = s := by
  rw [releaseAll_eq_iterate, Function.iterate_fixed (release_of_ready_nil h)]

theorem releaseAll_add (n fuel : Nat) (s : Countdown α) :
    d.releaseAll (n + fuel) s = d.releaseAll fuel (d.releaseAll n s) := by
  rw [releaseAll_eq_iterate, releaseAll_eq_iterate, releaseAll_eq_iterate, Nat.add_comm,
    Function.iterate_add_apply]

def released (d : Dependencies α) : Nat → Countdown α → List α
  | 0, _ => []
  | fuel + 1, s => s.ready.take 1 ++ released d fuel (d.release s)

theorem released_add (n fuel : Nat) (s : Countdown α) :
    d.released (n + fuel) s = d.released n s ++ d.released fuel (d.releaseAll n s) := by
  induction n generalizing s with
  | zero => rw [Nat.zero_add, released, releaseAll, List.nil_append]
  | succ n ih => rw [Nat.succ_add, released, released, releaseAll, ih, List.append_assoc]

/-- Decrements only add to what is ready, behind it. -/
theorem prefix_foldl_decrement (pending : List α) (s : Countdown α) :
    s.ready <+: (pending.foldl Countdown.decrement s).ready := by
  induction pending generalizing s with
  | nil => exact List.prefix_rfl
  | cons v pending ih =>
    refine List.IsPrefix.trans ?_ (ih (s.decrement v))
    rw [ready_decrement]
    split
    · exact List.prefix_append _ _
    · exact List.prefix_rfl

/-- A vertex leaves the queue only by getting its turn, and enters it only at its end. -/
theorem prefix_released (n : Nat) (s : Countdown α) :
    d.released n s ++ (d.releaseAll n s).ready <+:
      d.released (n + 1) s ++ (d.releaseAll (n + 1) s).ready := by
  rw [released_add, releaseAll_add, List.append_assoc, List.prefix_append_right_inj]
  generalize d.releaseAll n s = t
  rw [released, released, List.append_nil, releaseAll, releaseAll, release]
  cases hready : t.ready with
  | nil => exact List.nil_prefix
  | cons v ready =>
    have hrest := prefix_foldl_decrement (d.children v) ⟨t.waiting, ready⟩
    exact (List.prefix_append_right_inj [v]).2 hrest

theorem released_of_ready_nil (fuel : Nat) (h : s.ready = []) : d.released fuel s = [] := by
  induction fuel with
  | zero => rfl
  | succ fuel ih => rw [released, release_of_ready_nil h, ih, h, List.take_nil, List.append_nil]

/-- The invariant holds after any number of releases. -/
theorem Countdown.Invariant.releaseAll (hd : d.WellFormed) (fuel : Nat) {done : List α}
    (hs : s.Invariant d done []) :
    (d.releaseAll fuel s).Invariant d (done ++ d.released fuel s) [] := by
  induction fuel generalizing s done with
  | zero => rwa [released, List.append_nil]
  | succ fuel ih =>
    cases hready : s.ready with
    | nil =>
      -- Nothing changes from here on, and nobody else gets a turn.
      rwa [releaseAll_of_ready_nil _ hready, released_of_ready_nil _ hready, List.append_nil]
    | cons v ready =>
      have hrest := ih (hs.release hd hready)
      rw [List.append_assoc] at hrest
      rw [Dependencies.releaseAll, released, hready]
      exact hrest

/-- As long as a vertex is ready, every release has given one its turn. -/
theorem length_released (fuel : Nat) (h : (d.releaseAll fuel s).ready ≠ []) :
    (d.released fuel s).length = fuel := by
  induction fuel generalizing s with
  | zero => rfl
  | succ fuel ih =>
    cases hready : s.ready with
    | nil =>
      rw [releaseAll_of_ready_nil _ hready] at h
      exact absurd hready h
    | cons v ready =>
      rw [released, hready, List.length_append, ih h]
      exact Nat.add_comm 1 fuel

/-- What holds before every release, and after the last one. -/
theorem releaseAll_invariant (hd : d.WellFormed) (n : Nat) :
    (d.releaseAll n d.startCountdown).Invariant d (d.released n d.startCountdown) [] :=
  (d.startCountdown_invariant hd).releaseAll hd n

/-- No more vertices enter the queue than there are. -/
theorem Countdown.Invariant.length_le {done pending : List α} (hs : s.Invariant d done pending) :
    (done ++ s.ready).length ≤ d.vertices.length :=
  (hs.nodup.subperm fun v hv => ((hs.mem_iff v).1 hv).1).length_le

theorem countdown_invariant (hd : d.WellFormed) :
    d.countdown.Invariant d (d.released d.vertices.length d.startCountdown) [] :=
  releaseAll_invariant hd d.vertices.length

/-- In the end no vertex is left to release, since none is ready twice. -/
theorem ready_countdown (hd : d.WellFormed) : d.countdown.ready = [] := by
  -- With as many turns as vertices, a vertex that is still ready would be one too many.
  by_contra h
  have hlength := (countdown_invariant hd).length_le
  rw [List.length_append, length_released _ h] at hlength
  exact h (List.length_eq_zero_iff.1 (by omega))

theorem releaseAll_eq_countdown (hd : d.WellFormed) {n : Nat} (hn : d.vertices.length ≤ n) :
    d.releaseAll n d.startCountdown = d.countdown := by
  obtain ⟨more, rfl⟩ := Nat.exists_eq_add_of_le hn
  rw [releaseAll_add]
  exact releaseAll_of_ready_nil more (ready_countdown hd)

/-- The blocked vertices are those that are not grounded. -/
theorem mem_blocked_iff (hd : d.WellFormed) {v : α} :
    v ∈ d.blocked ↔ v ∈ d.vertices ∧ ¬ d.Grounded v := by
  have hs := countdown_invariant hd
  generalize d.released d.vertices.length d.startCountdown = done at hs
  have hmem := hs.mem_iff
  have hgrounded := hs.grounded
  rw [ready_countdown hd, List.append_nil] at hmem hgrounded
  -- A grounded vertex has had its turn, since its parents have.
  have hdone : ∀ w, d.Grounded w → w ∈ d.vertices → w ∈ done := by
    intro w hw
    induction hw with
    | intro w _ ih =>
      intro hvertex
      refine (hmem w).2 ⟨hvertex, ?_⟩
      rw [hs.count_eq w hvertex, List.count_nil, Nat.add_zero, List.countP_eq_zero]
      intro u hu
      have hu' := mem_parents.1 hu
      simpa using ih u hu' (hd.source_mem hu')
  simp only [blocked, List.mem_filter, decide_eq_true_eq]
  refine and_congr_right fun hv => ?_
  constructor
  · intro hpos hg
    have := ((hmem v).1 (hdone v hg hv)).2
    omega
  · intro hg
    refine Nat.pos_of_ne_zero fun hzero => hg ?_
    exact hgrounded v ((hmem v).2 ⟨hv, hzero⟩)

end ConstraintGraph.Dependencies
