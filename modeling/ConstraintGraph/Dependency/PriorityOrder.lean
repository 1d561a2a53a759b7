import ConstraintGraph.Dependency.Basic

/-!
Emission of vertices after their parents, those with most parents first. A queue starts with the
roots. Each round takes the first queued vertex whose parents have all been emitted; if it is new,
it is emitted and its children are queued behind the others. Then the queue is sorted by descending
number of parents, vertices with equally many keeping their places. Vertices may be queued several
times.

What a round asks of a queued vertex is kept beside it, and a round keeps it what the arcs and the
emitted vertices make it.
-/

namespace ConstraintGraph.Dependencies

variable {α : Type} [DecidableEq α]

structure Candidate (α : Type) where
  vertex : α
  rank : Nat
  -- Its parents that have not been emitted.
  awaited : List α

namespace Candidate

def isReady (c : Candidate α) : Bool := c.awaited.isEmpty

def after (c : Candidate α) (v : α) : Candidate α :=
  { c with awaited := c.awaited.filter (· ≠ v) }

end Candidate

def candidate (d : Dependencies α) (order : List α) (v : α) : Candidate α :=
  let parents := d.parents v
  ⟨v, parents.length, parents.filter (· ∉ order)⟩

structure Emission (α : Type) where
  queue : List (Candidate α)
  order : List α

def prioritize (queue : List (Candidate α)) : List (Candidate α) :=
  queue.mergeSort fun a b => decide (b.rank ≤ a.rank)

def emitNext (d : Dependencies α) (s : Emission α) : Option (Emission α) :=
  match s.queue.find? Candidate.isReady with
  | none => none
  | some ⟨v, _, _⟩ =>
    let rest := s.queue.eraseP Candidate.isReady
    some <|
      -- A vertex may have been queued several times.
      if v ∈ s.order then ⟨prioritize rest, s.order⟩
      else
        let order := s.order ++ [v]
        ⟨prioritize (rest.map (·.after v) ++ (d.children v).map (d.candidate order)), order⟩

def emitAll (d : Dependencies α) : Nat → Emission α → Emission α
  | 0, s => s
  | fuel + 1, s =>
    match d.emitNext s with
    | none => s
    | some s => emitAll d fuel s

def startEmission (d : Dependencies α) : Emission α := ⟨d.roots.map (d.candidate []), []⟩

def emission (d : Dependencies α) : Emission α :=
  -- Every arc queues its target once, and every round takes one vertex off the queue.
  d.emitAll (d.roots.length + d.arcs.length) d.startEmission

namespace Emission

def isStuck (s : Emission α) : Bool := !s.queue.isEmpty

def unreached (s : Emission α) (d : Dependencies α) : List α :=
  d.dependents.filter fun v => v ∉ s.order

def IsCurrent (s : Emission α) (d : Dependencies α) : Prop :=
  ∀ c ∈ s.queue, c = d.candidate s.order c.vertex

end Emission

def priorityOrder (d : Dependencies α) : List α := d.emission.order

/-- A candidate is ready when all parents of its vertex have been emitted. -/
theorem isReady_candidate (d : Dependencies α) (order : List α) (v : α) :
    (d.candidate order v).isReady = true ↔ ∀ p ∈ d.parents v, p ∈ order := by
  simp [candidate, Candidate.isReady]

/-- A candidate follows the emission of a vertex. -/
theorem after_candidate (d : Dependencies α) (order : List α) (v w : α) :
    (d.candidate order v).after w = d.candidate (order ++ [w]) v := by
  simp only [candidate, Candidate.after, List.filter_filter, Candidate.mk.injEq, true_and]
  apply List.filter_congr
  intro p _
  simp [and_comm]

theorem mem_prioritize {β : Type} {queue : List (Candidate β)} {c : Candidate β} :
    c ∈ prioritize queue ↔ c ∈ queue := List.mem_mergeSort

theorem isCurrent_startEmission (d : Dependencies α) : d.startEmission.IsCurrent d := by
  intro c hc
  obtain ⟨v, _, rfl⟩ := List.mem_map.1 hc
  rfl

/-- A round keeps the queue current. -/
theorem isCurrent_emitNext {d : Dependencies α} {s t : Emission α} (hs : s.IsCurrent d)
    (ht : d.emitNext s = some t) : t.IsCurrent d := by
  unfold emitNext at ht
  split at ht
  · simp at ht
  · rename_i v _ _ _
    have hrest : ∀ c ∈ s.queue.eraseP Candidate.isReady, c = d.candidate s.order c.vertex :=
      fun c hc => hs c (List.mem_of_mem_eraseP hc)
    by_cases hv : v ∈ s.order
    · simp only [hv, if_true, Option.some.injEq] at ht
      subst ht
      intro c hc
      exact hrest c (mem_prioritize.1 hc)
    · simp only [hv, if_false, Option.some.injEq] at ht
      subst ht
      intro c hc
      rcases List.mem_append.1 (mem_prioritize.1 hc) with hc | hc
      · obtain ⟨b, hb, rfl⟩ := List.mem_map.1 hc
        have hb' := hrest b hb
        show b.after v = d.candidate (s.order ++ [v]) b.vertex
        rw [← after_candidate, ← hb']
      · obtain ⟨w, _, rfl⟩ := List.mem_map.1 hc
        rfl

end ConstraintGraph.Dependencies
