import ConstraintGraph.Proofs.Reading.Responses

namespace ConstraintGraph

theorem forM_eq_ok_iff {α ε : Type} {f : α → Except ε Unit} {l : List α} :
    l.forM f = .ok () ↔ ∀ x ∈ l, f x = .ok () := by
  refine ⟨fun h => ?_, forM_eq_ok⟩
  -- The first element that fails would have ended the loop.
  induction l with
  | nil =>
    intro x hx
    cases hx
  | cons x l ih =>
    have hcons : (f x).bind (fun _ => l.forM f) = .ok () := h
    cases hx : f x with
    | error e =>
      rw [hx] at hcons
      cases hcons
    | ok =>
      rw [hx] at hcons
      exact List.forall_mem_cons.2 ⟨hx, ih hcons⟩

def Positions.IsWithin (p : Positions) (length : Nat) : Prop :=
  ∀ (v : UInt32) (i : UInt64), p[v]? = some i → i.toNat < length

/-- What the checks ask of one result of a response. -/
structure Response.Fits (r : Response) (result : NodeResult) : Prop where
  violated_le : result.violated ≤ result.total
  events : ∀ s ∈ result.situations, s.binding.events.IsWithin r.eventIds.length
  objects : ∀ s ∈ result.situations, s.binding.objects.IsWithin r.objectIds.length

namespace Response

variable {r : Response} {result : NodeResult}

theorem checkPositions_eq_ok_iff (node : Nat) (table : IdTable) {length : Nat} {p : Positions} :
    checkPositions node table length p = .ok () ↔ p.IsWithin length := by
  have hnone : p.toList.find? (fun e => length ≤ e.2.toNat) = none ↔ p.IsWithin length := by
    rw [List.find?_eq_none]
    constructor
    · intro h v i hv
      have hmem : (v, i) ∈ p.toList := Std.ExtTreeMap.mem_toList_iff_getElem?_eq_some.2 hv
      have hplace := h (v, i) hmem
      simpa using hplace
    · rintro h ⟨v, i⟩ hmem
      have hplace := h v i (Std.ExtTreeMap.mem_toList_iff_getElem?_eq_some.1 hmem)
      simpa using hplace
  rw [← hnone]
  unfold checkPositions
  split
  · rename_i hfound
    refine iff_of_false (nomatch ·) fun habsent => ?_
    exact nomatch hfound.symm.trans habsent
  · rename_i hfound
    exact iff_of_true rfl hfound

theorem checkResult_eq_ok_iff {node : Nat} :
    r.checkResult node result = .ok () ↔ r.Fits result := by
  have hsituations : (result.situations.forM fun s => do
        checkPositions node .event r.eventIds.length s.binding.events
        checkPositions node .object r.objectIds.length s.binding.objects) = .ok () ↔
      ∀ s ∈ result.situations, s.binding.events.IsWithin r.eventIds.length ∧
        s.binding.objects.IsWithin r.objectIds.length := by
    rw [forM_eq_ok_iff]
    refine forall₂_congr fun s _ => ?_
    rw [← checkPositions_eq_ok_iff node .event, ← checkPositions_eq_ok_iff node .object]
    cases checkPositions node .event r.eventIds.length s.binding.events with
    | error e => exact iff_of_false (nomatch ·) fun h => nomatch h.1
    | ok => exact (and_iff_right rfl).symm
  -- The counts are checked before the situations.
  unfold checkResult
  by_cases hcounts : result.total < result.violated
  · refine iff_of_false ?_ fun h => absurd h.violated_le (UInt64.not_le.2 hcounts)
    rw [if_pos hcounts]
    exact nofun
  · rw [if_neg hcounts]
    constructor
    · intro h
      have hwithin := hsituations.1 h
      exact ⟨UInt64.not_lt.1 hcounts, fun s hs => (hwithin s hs).1, fun s hs => (hwithin s hs).2⟩
    · intro h
      exact hsituations.2 fun s hs => ⟨h.events s hs, h.objects s hs⟩

/-- The checks pass exactly if every result fits. -/
theorem validate_eq_ok_iff : r.validate = .ok () ↔ ∀ result ∈ r.results, r.Fits result := by
  unfold validate
  rw [forM_eq_ok_iff]
  constructor
  · intro h result hresult
    obtain ⟨node, hnode⟩ := List.getElem?_of_mem hresult
    have hmem : (result, node) ∈ r.results.zipIdx := List.mem_zipIdx_iff_getElem?.2 hnode
    exact checkResult_eq_ok_iff.1 (h (result, node) hmem)
  · rintro h ⟨result, node⟩ hmem
    exact checkResult_eq_ok_iff.2 (h result (List.fst_mem_of_mem_zipIdx hmem))

/-- A response that is read fits in all its results. -/
theorem fits_of_read {raw : Json} (hread : read raw = .ok r) (hresult : result ∈ r.results) :
    r.Fits result :=
  validate_eq_ok_iff.1 (read_eq_ok_iff.1 hread).2.2.2 result hresult

end Response
end ConstraintGraph
