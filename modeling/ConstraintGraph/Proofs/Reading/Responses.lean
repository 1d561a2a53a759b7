import ConstraintGraph.Proofs.Reading.Records
import ConstraintGraph.Response

namespace ConstraintGraph

open Json

theorem Positions.reads_toJson (p : Positions) : Positions.ofJson.Reads p.toJson p :=
  reads_indexMap p fun e _ => reads_uint64 e.2

theorem Binding.reads_toJson (b : Binding) : Binding.ofJson.Reads b.toJson b := by
  refine reads_record (by simp) fun a r hr => ?_
  have hevents : Part.fieldOr "eventMap" ∅ Positions.ofJson r = .ok b.events :=
    hr.fieldOr rfl b.events.reads_toJson
  have hobjects : Part.fieldOr "objectMap" ∅ Positions.ofJson r = .ok b.objects :=
    hr.fieldOr rfl b.objects.reads_toJson
  exact Part.seq_ok (Part.map_ok mk hevents) hobjects

theorem Violation.toJson_ne_null (v : Violation) : v.toJson ≠ .null := by
  cases v <;> exact nofun

theorem Violation.reads_toJson (v : Violation) : Violation.ofJson.Reads v.toJson v := by
  cases v with
  | tooFewEvents n =>
    refine reads_variant fun a origin => ?_
    exact congrArg (Except.map tooFewEvents) (reads_uint64 n a origin)
  | tooManyEvents n =>
    refine reads_variant fun a origin => ?_
    exact congrArg (Except.map tooManyEvents) (reads_uint64 n a origin)
  | constraint i =>
    refine reads_variant fun a origin => ?_
    exact congrArg (Except.map constraint) (reads_uint64 i a origin)
  | _ => exact reads_variant_name fun _ => rfl

theorem Situation.reads_toJson (s : Situation) : Situation.ofJson.Reads s.toJson s := by
  intro a origin
  have hpair := reads_pair s.binding.reads_toJson
    (reads_option s.violation Violation.reads_toJson Violation.toJson_ne_null) a origin
  unfold ofJson toJson
  rw [hpair]
  rfl

theorem NodeResult.reads_toJson (result : NodeResult) :
    NodeResult.ofJson.Reads result.toJson result := by
  refine reads_record (by simp [members]) fun a r hr => ?_
  have htotal : Part.field "situationCount" asUInt64 r = .ok result.total :=
    hr.field rfl (reads_uint64 result.total)
  have hviolated : Part.field "situationViolatedCount" asUInt64 r = .ok result.violated :=
    hr.field rfl (reads_uint64 result.violated)
  have hsituations : Part.fieldOr "situations" [] (asList Situation.ofJson) r =
      .ok result.situations :=
    hr.fieldOr rfl (reads_list fun s _ => s.reads_toJson)
  exact Part.seq_ok (Part.seq_ok (Part.map_ok mk htotal) hviolated) hsituations

theorem forM_eq_ok {α ε : Type} {f : α → Except ε Unit} {l : List α}
    (h : ∀ x ∈ l, f x = .ok ()) : l.forM f = .ok () := by
  induction l with
  | nil => rfl
  | cons x l ih =>
    rw [List.forM_eq_forM, List.forM_cons, h x List.mem_cons_self]
    exact ih fun y hy => h y (List.mem_cons_of_mem x hy)

namespace Response

variable {r : Response} {j : Json}

theorem reads_toJson (r : Response) : Response.ofJson.Reads r.toJson r := by
  refine reads_record (by simp) fun a rec hr => ?_
  have hresults : Part.field "evaluationResults" (asList NodeResult.ofJson) rec = .ok r.results :=
    hr.field rfl (reads_list fun result _ => result.reads_toJson)
  have hevents : Part.fieldOr "eventIds" [] (asList asString) rec = .ok r.eventIds :=
    hr.fieldOr rfl (reads_strings r.eventIds)
  have hobjects : Part.fieldOr "objectIds" [] (asList asString) rec = .ok r.objectIds :=
    hr.fieldOr rfl (reads_strings r.objectIds)
  exact Part.seq_ok (Part.seq_ok (Part.map_ok mk hresults) hevents) hobjects

/-- A response is accepted if it is an object with results in it, can be read, and is valid. -/
theorem read_eq_ok_iff :
    read j = .ok r ↔ (∃ ms, j.normalize = .object ms) ∧
      (j.normalize.get? "evaluationResults").isSome = true ∧
      ofJson.run j.normalize = .ok r ∧ r.validate = .ok () := by
  unfold read
  cases j.normalize with
  | object ms =>
    cases hresults : Json.get? "evaluationResults" (.object ms) with
    | none => simp [hresults, bind, Except.bind]
    | some results =>
      cases hrun : ofJson.run (.object ms) with
      | error fault => simp [hresults, hrun, Except.mapError, bind, Except.bind]
      | ok found =>
        simp only [hresults, hrun, Except.mapError, Option.isNone_some]
        show Except.bind found.validate _ = _ ↔ _
        cases hvalid : found.validate with
        | error fault =>
          refine iff_of_false nofun ?_
          rintro ⟨-, -, ⟨⟩, h⟩
          exact nomatch hvalid.symm.trans h
        | ok =>
          refine ⟨?_, ?_⟩
          · rintro ⟨⟩
            exact ⟨⟨ms, rfl⟩, rfl, rfl, hvalid⟩
          · rintro ⟨-, -, ⟨⟩, -⟩
            rfl
  | _ => exact iff_of_false nofun fun ⟨⟨_, h⟩, _⟩ => nomatch h

theorem validate_zero (n : Nat) : (zero n).validate = .ok () := by
  refine forM_eq_ok fun (result, node) hmem => ?_
  have hzero : result = .zero := List.eq_of_mem_replicate (List.fst_mem_of_mem_zipIdx hmem)
  rw [hzero]
  rfl

/-- A response that is read back is as valid as it was. -/
theorem read_toJson (h : r.validate = .ok ()) : read r.toJson = .ok r := by
  have hkeys : ([("evaluationResults", .array (r.results.map NodeResult.toJson)),
      ("eventIds", ofStrings r.eventIds), ("objectIds", ofStrings r.objectIds)].map
      Prod.fst).Nodup := by simp
  have hmem := (normalizeMembers_perm hkeys).mem_iff.2 (List.mem_cons_self ..)
  refine read_eq_ok_iff.2 ⟨⟨_, by rw [toJson, Json.normalize]⟩, ?_, r.reads_toJson.run_normalize, h⟩
  rw [toJson, Json.normalize, get?, Option.isSome_map, List.find?_isSome]
  exact ⟨_, List.mem_reverse.2 hmem, rfl⟩

/-- What was accepted once is accepted again, and is the same. -/
theorem read_toJson_of_read (h : read j = .ok r) : read r.toJson = .ok r :=
  read_toJson (read_eq_ok_iff.1 h).2.2.2

end Response
end ConstraintGraph
