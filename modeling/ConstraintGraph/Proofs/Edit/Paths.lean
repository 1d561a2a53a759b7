import ConstraintGraph.Proofs.Edit.Ancestors
import Mathlib.Data.List.Nodup

namespace ConstraintGraph.Graph

open Relation

variable {g : Graph} {u v w : String} {es fs : List Edge}

/-- The edges lead from one id to another, each from where the one before it ends. -/
inductive Path (g : Graph) : String → List Edge → String → Prop where
  | nil (v : String) : Path g v [] v
  | cons {e : Edge} {es : List Edge} {v : String} :
      e ∈ g.edges → Path g e.target es v → Path g e.source (e :: es) v

/-- One edge or more that lead back to where they start and leave no id twice. -/
structure IsCycle (g : Graph) (es : List Edge) : Prop where
  ne_nil : es ≠ []
  closed : ∃ v, g.Path v es v
  nodup : (es.map (·.source)).Nodup

theorem Path.eq_source {e : Edge} (h : g.Path u (e :: es) v) : u = e.source := by
  cases h with
  | cons => rfl

theorem Path.append (h : g.Path u es v) (h' : g.Path v fs w) : g.Path u (es ++ fs) w := by
  induction h with
  | nil => exact h'
  | cons he _ ih => exact .cons he (ih h')

theorem Path.exists_of_append (h : g.Path u (es ++ fs) w) : ∃ v, g.Path u es v ∧ g.Path v fs w := by
  induction es generalizing u with
  | nil => exact ⟨u, .nil u, h⟩
  | cons e es ih =>
    cases h with
    | cons he hrest =>
      obtain ⟨v, hes, hfs⟩ := ih hrest
      exact ⟨v, .cons he hes, hfs⟩

/-- To lead there in some steps is to have a path of edges. -/
theorem reflTransGen_leads_iff : ReflTransGen g.Leads u v ↔ ∃ es, g.Path u es v := by
  constructor
  · intro h
    induction h using ReflTransGen.head_induction_on with
    | refl => exact ⟨[], .nil v⟩
    | head hedge _ ih =>
      obtain ⟨e, he, rfl, rfl⟩ := hedge
      obtain ⟨es, hes⟩ := ih
      exact ⟨e :: es, .cons he hes⟩
  · rintro ⟨es, hes⟩
    induction hes with
    | nil => exact .refl
    | cons he _ ih => exact .head ⟨_, he, rfl, rfl⟩ ih

/-- To lead there in one step or more is to have a path with an edge in it. -/
theorem transGen_leads_iff : TransGen g.Leads u v ↔ ∃ es, es ≠ [] ∧ g.Path u es v := by
  rw [TransGen.head'_iff]
  simp only [reflTransGen_leads_iff]
  constructor
  · rintro ⟨w, ⟨e, he, rfl, rfl⟩, es, hes⟩
    exact ⟨e :: es, List.cons_ne_nil e es, .cons he hes⟩
  · rintro ⟨es, hne, hes⟩
    cases hes with
    | nil => exact absurd rfl hne
    | cons he hrest => exact ⟨_, ⟨_, he, rfl, rfl⟩, _, hrest⟩

/-- What lies between two places where a path passes the same id can be left out. -/
theorem Path.exists_nodup (h : g.Path u es v) :
    ∃ fs, g.Path u fs v ∧ (fs.map (·.source) ++ [v]).Nodup := by
  induction h with
  | nil v => exact ⟨[], .nil v, List.nodup_singleton v⟩
  | @cons e es v he _ ih =>
    obtain ⟨fs, hfs, hnodup⟩ := ih
    by_cases hmem : e.source ∈ fs.map (·.source) ++ [v]
    · -- The path comes back to where it starts, and what leads there is left out.
      rcases List.mem_append.1 hmem with hmem | hmem
      · obtain ⟨f, hf, hsource⟩ := List.mem_map.1 hmem
        obtain ⟨before, behind, rfl⟩ := List.append_of_mem hf
        obtain ⟨x, -, hx⟩ := hfs.exists_of_append
        obtain rfl : x = f.source := hx.eq_source
        refine ⟨f :: behind, hsource ▸ hx, ?_⟩
        rw [List.map_append, List.append_assoc] at hnodup
        exact (List.nodup_append.1 hnodup).2.1
      · rw [List.mem_singleton.1 hmem]
        exact ⟨[], .nil v, List.nodup_singleton v⟩
    · exact ⟨e :: fs, .cons he hfs, List.nodup_cons.2 ⟨hmem, hnodup⟩⟩

/-- An id from which a path leads back to it lies on a cycle. -/
theorem transGen_leads_self_iff :
    TransGen g.Leads v v ↔ ∃ es, g.IsCycle es ∧ ∃ e ∈ es, e.source = v := by
  constructor
  · intro h
    obtain ⟨w, ⟨e, he, rfl, rfl⟩, hback⟩ := TransGen.head'_iff.1 h
    obtain ⟨es, hes⟩ := reflTransGen_leads_iff.1 hback
    obtain ⟨fs, hfs, hnodup⟩ := hes.exists_nodup
    refine ⟨e :: fs, ⟨List.cons_ne_nil e fs, ⟨e.source, .cons he hfs⟩, ?_⟩, e,
      List.mem_cons_self, rfl⟩
    exact (List.perm_append_singleton e.source (fs.map (·.source))).nodup_iff.1 hnodup
  · rintro ⟨es, ⟨-, ⟨w, hes⟩, -⟩, e, he, rfl⟩
    -- The cycle is taken up where it passes the id.
    obtain ⟨before, behind, rfl⟩ := List.append_of_mem he
    obtain ⟨x, hbefore, hx⟩ := hes.exists_of_append
    obtain rfl : x = e.source := hx.eq_source
    exact transGen_leads_iff.2 ⟨_, by simp, hx.append hbefore⟩

/-- The search for the ancestors of an id ends on every graph, whatever its edges are. The start and
every found id are taken up once, and then there is nothing left; no more ids are found than there
are edges. These are, each once, the ids from which a path of one edge or more leads to the start.
The start itself is among them exactly when it lies on a cycle. -/
theorem search_finds_what_leads_here (g : Graph) (id : String) :
    (∀ k, (AncestorSearch.run g k ⟨[], [id]⟩).stack = [] ↔ (g.ancestors id).length + 1 ≤ k) ∧
    (∀ k, (AncestorSearch.run g k ⟨[], [id]⟩).stack = [] →
      (AncestorSearch.run g k ⟨[], [id]⟩).seen = g.ancestors id) ∧
    (g.ancestors id).length ≤ g.edges.length ∧
    (g.ancestors id).Nodup ∧
    (∀ x, x ∈ g.ancestors id ↔ ∃ es, es ≠ [] ∧ g.Path x es id) ∧
    (id ∈ g.ancestors id ↔ ∃ es, g.IsCycle es ∧ ∃ e ∈ es, e.source = id) := by
  have hinv := (AncestorSearch.start_invariant g id).run (g.edges.length + 1)
  refine ⟨g.stack_run_eq_nil_iff id, ?_, hinv.length_seen_le, hinv.nodup, fun x => ?_, ?_⟩
  · intro k hk
    -- Whichever of the two runs is longer, it ends as the other one does.
    have hsame : AncestorSearch.run g k ⟨[], [id]⟩ =
        AncestorSearch.run g (g.edges.length + 1) ⟨[], [id]⟩ := by
      rcases Nat.le_total k (g.edges.length + 1) with hle | hle
      · exact (AncestorSearch.run_eq_of_le hk hle).symm
      · exact AncestorSearch.run_eq_of_le (g.stack_run_ancestors id) hle
    rw [hsame, ancestors]
  · rw [mem_ancestors_iff, transGen_leads_iff]
  · rw [mem_ancestors_iff, transGen_leads_self_iff]

/-- Edges count without the nodes at their ends: here a loop and an edge into it. -/
example : (Graph.mk [] [.link "b" "b", .link "a" "b"]).ancestors "b" = ["a", "b"] := by decide

end ConstraintGraph.Graph
