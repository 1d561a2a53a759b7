import ConstraintGraph.Proofs.Evaluation.Attribution
import ConstraintGraph.Proofs.Reading.Validation
import Mathlib.Algebra.Order.BigOperators.Group.List
import Mathlib.Algebra.Order.Ring.Nat

namespace ConstraintGraph

namespace Results

variable {v : Results} {plan : Plan} {r : Response}

def violationCount (v : Results) : Nat := (v.results.map (·.result.violated.toNat)).sum

theorem checkedAdd?_eq_some_iff {a b c : UInt64} :
    checkedAdd? a b = some c ↔ c.toNat = a.toNat + b.toNat := by
  have hlt := c.toNat_lt_size
  unfold checkedAdd?
  split
  · rename_i hsum
    rw [Option.some_inj, ← UInt64.toNat_inj, UInt64.toNat_add, Nat.mod_eq_of_lt hsum, eq_comm]
  · refine iff_of_false nofun ?_
    omega

/-- No addition leaves the word if the whole sum does not. -/
theorem foldlM_checkedAdd?_eq_some_iff {l : List LabelledResult} {start total : UInt64} :
    l.foldlM (fun sum r => checkedAdd? sum r.result.violated) start = some total ↔
      total.toNat = start.toNat + (l.map (·.result.violated.toNat)).sum := by
  induction l generalizing start with
  | nil =>
    show some start = some total ↔ total.toNat = start.toNat
    rw [Option.some_inj, UInt64.toNat_inj, eq_comm]
  | cons x l ih =>
    rw [List.foldlM_cons, List.map_cons, List.sum_cons]
    constructor
    · intro h
      obtain ⟨next, hnext, htotal⟩ := Option.bind_eq_some_iff.1 h
      rw [ih.1 htotal, checkedAdd?_eq_some_iff.1 hnext, Nat.add_assoc]
    · intro h
      have hlt := total.toNat_lt_size
      have hfits : start.toNat + x.result.violated.toNat < UInt64.size := by omega
      have hnext : checkedAdd? start x.result.violated = some (start + x.result.violated) :=
        if_pos hfits
      refine Option.bind_eq_some_iff.2 ⟨_, hnext, ih.2 ?_⟩
      rw [h, checkedAdd?_eq_some_iff.1 hnext, Nat.add_assoc]

/-- A total is the number of the violations. -/
theorem total?_eq_some_iff {total : UInt64} :
    v.total? = some total ↔ total.toNat = v.violationCount := by
  rw [total?, foldlM_checkedAdd?_eq_some_iff]
  exact Nat.zero_add _ ▸ Iff.rfl

/-- There is no total exactly if the number of the violations does not fit in a word. -/
theorem total?_eq_none_iff : v.total? = none ↔ 2 ^ 64 ≤ v.violationCount := by
  constructor
  · intro hnone
    by_contra hlt
    have htotal : (UInt64.ofNat v.violationCount).toNat = v.violationCount :=
      UInt64.toNat_ofNat_of_lt' (Nat.lt_of_not_le hlt)
    cases hnone.symm.trans (total?_eq_some_iff.2 htotal)
  · intro hle
    rw [Option.eq_none_iff_forall_ne_some]
    intro total htotal
    have hlt := total.toNat_lt
    rw [total?_eq_some_iff.1 htotal] at hlt
    omega

/-- The results of a view are those of the response, as far as the plan goes. -/
theorem map_result_ofResponse (plan : Plan) (r : Response) :
    (ofResponse plan r).results.map (·.result) = r.results.take plan.length := by
  have hzip : ∀ (ids : List String) (results : List NodeResult),
      (ids.zip results).map Prod.snd = results.take ids.length := by
    intro ids
    induction ids with
    | nil => exact fun results => List.take_zero.symm
    | cons id ids ih =>
      intro results
      cases results with
      | nil => rfl
      | cons result results => exact congrArg (result :: ·) (ih results)
  rw [ofResponse_results, List.map_map, Plan.length, ← List.length_map]
  exact hzip plan.nodeIds r.results

/-- The violations of a view are those of the results that found a step. -/
theorem violationCount_ofResponse (plan : Plan) (r : Response) :
    (ofResponse plan r).violationCount =
      ((r.results.take plan.length).map (·.violated.toNat)).sum := by
  rw [violationCount, ← map_result_ofResponse, List.map_map]
  rfl

end Results

namespace Session

/-- Of results that are logged the number of violations has to fit in a word. -/
theorem outcome_eq (s : Session) (results : Results) :
    s.outcome results = if s.logs = true ∧ 2 ^ 64 ≤ results.violationCount then .crashed results
      else .applied results := by
  unfold outcome
  refine if_congr ?_ rfl rfl
  rw [Bool.and_eq_true, Option.isNone_iff_eq_none, Results.total?_eq_none_iff]

end Session

namespace Response

/-- The checks ask nothing of the counts but that each one is within its own result. -/
theorem read_of_counts (counts : List (UInt64 × UInt64)) (h : ∀ c ∈ counts, c.2 ≤ c.1) :
    read (toJson ⟨counts.map fun c => ⟨c.1, c.2, []⟩, [], []⟩) =
      .ok ⟨counts.map fun c => ⟨c.1, c.2, []⟩, [], []⟩ := by
  refine read_toJson (validate_eq_ok_iff.2 fun result hresult => ?_)
  obtain ⟨c, hc, rfl⟩ := List.mem_map.1 hresult
  exact ⟨h c hc, nofun, nofun⟩

end Response

namespace Results

def planOf (ids : List String) : Plan :=
  ⟨[], ids.map fun id => ⟨id, none, [], [], ⟨[], []⟩, .gate .and⟩⟩

/-- In the view of an accepted response the number of violations is the sum of its counts, and the
total is this number where it fits in 64 bits. All that the checks promise of the number is that
there are as many situations. An evaluation that is answered with the response stores the view;
where the number does not fit and the view is logged, it breaks off after that. -/
theorem total_of_accepted (plan : Plan) {raw : Json} {r : Response}
    (hread : Response.read raw = .ok r) :
    let v := ofResponse plan r
    v.violationCount = ((r.results.take plan.length).map (·.violated.toNat)).sum ∧
      v.violationCount ≤ ((r.results.take plan.length).map (·.total.toNat)).sum ∧
      (∀ total, v.total? = some total ↔ total.toNat = v.violationCount) ∧
      (v.total? = none ↔ 2 ^ 64 ≤ v.violationCount) ∧
      ∀ s : Session, s.inFlight = false → r.results.length = plan.length →
        (s.evaluate plan (.ok raw)).1.current = some v ∧
        (s.evaluate plan (.ok raw)).2 = .ok
          (if s.logs = true ∧ 2 ^ 64 ≤ v.violationCount then .crashed v else .applied v) := by
  intro v
  have hcount := violationCount_ofResponse plan r
  refine ⟨hcount, ?_, fun total => total?_eq_some_iff, total?_eq_none_iff, ?_⟩
  · rw [hcount]
    refine List.sum_le_sum fun result hresult => ?_
    exact (Response.fits_of_read hread (List.mem_of_mem_take hresult)).violated_le
  · intro s hdown hlength
    have hresults : ofAnswer plan raw = .ok v := ofAnswer_eq_ok_iff.2 ⟨r, hread, hlength, rfl⟩
    obtain ⟨last, hevaluate⟩ := s.exists_evaluate_eq hdown plan (.ok raw)
    have hanswer : plan.resultsOf (.ok raw) = .ok v := hresults
    rw [hevaluate, hanswer, ← s.outcome_eq v]
    exact ⟨rfl, rfl⟩

/-- The greatest number that fits, in two parts. -/
theorem total_of_accepted_greatest :
    ∃ (raw : Json) (r : Response), Response.read raw = .ok r ∧
      let v := ofResponse (planOf ["pay", "ship"]) r
      v.violationCount = 18446744073709551615 ∧ v.total? = some 18446744073709551615 ∧
        ((Session.fresh true).evaluate (planOf ["pay", "ship"]) (.ok raw)).2 =
          .ok (.applied v) := by
  let counts : List (UInt64 × UInt64) := [(18446744073709551615, 18446744073709551614), (7, 1)]
  let r : Response := ⟨counts.map fun c => ⟨c.1, c.2, []⟩, [], []⟩
  let v := ofResponse (planOf ["pay", "ship"]) r
  have hcounts : ∀ c ∈ counts, c.2 ≤ c.1 :=
    List.forall_mem_cons.2 ⟨by decide, List.forall_mem_singleton.2 (by decide)⟩
  have hread : Response.read r.toJson = .ok r := Response.read_of_counts counts hcounts
  obtain ⟨hsum, -, htotal, -, hevaluate⟩ := total_of_accepted (planOf ["pay", "ship"]) hread
  have hcount : v.violationCount = 18446744073709551615 := hsum.trans (by decide)
  have hfits : ¬ (true = true ∧ 2 ^ 64 ≤ v.violationCount) := by
    rw [hcount]
    decide
  obtain ⟨-, hverdict⟩ := hevaluate (.fresh true) rfl rfl
  exact ⟨r.toJson, r, hread, hcount, (htotal 18446744073709551615).2 hcount.symm,
    hverdict.trans (congrArg _ (if_neg hfits))⟩

/-- Two results of `2^63` violations each pass the checks. They are the current ones when the
evaluation breaks off, since there is no total. -/
theorem total_of_two_lost :
    ∃ (plan : Plan) (raw : Json) (view : Results),
      ((Session.fresh true).evaluate plan (.ok raw)).2 = .ok (.crashed view) ∧
      ((Session.fresh true).evaluate plan (.ok raw)).1.current = some view ∧
      view.violationCount = 2 ^ 64 ∧ view.total? = none := by
  let counts : List (UInt64 × UInt64) := List.replicate 2 (9223372036854775808, 9223372036854775808)
  let r : Response := ⟨counts.map fun c => ⟨c.1, c.2, []⟩, [], []⟩
  let plan := planOf ["pay", "ship"]
  have hcounts : ∀ c ∈ counts, c.2 ≤ c.1 := by
    intro c hc
    obtain rfl := List.eq_of_mem_replicate hc
    exact UInt64.le_refl _
  have hread : Response.read r.toJson = .ok r := Response.read_of_counts counts hcounts
  have hresults : Results.ofAnswer plan r.toJson = .ok (ofResponse plan r) :=
    ofAnswer_eq_ok_iff.2 ⟨r, hread, rfl, rfl⟩
  obtain ⟨last, hevaluate⟩ := Session.exists_evaluate_eq (s := .fresh true) rfl plan (.ok r.toJson)
  have hanswer : plan.resultsOf (.ok r.toJson) = .ok (ofResponse plan r) := hresults
  have hcount : (ofResponse plan r).violationCount = 2 ^ 64 :=
    (violationCount_ofResponse plan r).trans (by decide)
  have hcrash :
      (Session.fresh true).outcome (ofResponse plan r) = .crashed (ofResponse plan r) := by
    rw [Session.outcome_eq]
    exact if_pos ⟨rfl, hcount.ge⟩
  refine ⟨plan, r.toJson, ofResponse plan r, ?_, ?_, hcount, total?_eq_none_iff.2 hcount.ge⟩
  · rw [hevaluate, hanswer, ← hcrash]
    rfl
  · rw [hevaluate, hanswer]
    rfl

end Results
end ConstraintGraph
