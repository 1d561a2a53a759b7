import ConstraintGraph.Proofs.CommandLine.Verdicts
import ConstraintGraph.Proofs.Evaluation.Saved
import ConstraintGraph.Proofs.Writing.Documents

namespace ConstraintGraph.CommandLine

open Json.Grammar

theorem document_prettyLine (j : Json) : Document j (prettyLine j) :=
  (Json.value_pretty 0 j).element.append_gap (gap_newLine 0)

theorem document_compactLine (j : Json) : Document j.normalize (compactLine j) :=
  (Json.value_compact j.normalize).element.append_gap (gap_newLine 0)

theorem Failure.exists_normalize_toJson (f : Failure) :
    ∃ members, f.toJson.normalize = .object members ∧
      (Json.object members).get? "error" = some (.string f.message) := by
  cases f with
  | uncompilable e => exact ⟨_, rfl, rfl⟩
  | _ => exact ⟨_, rfl, rfl⟩

/-- What a script that started a run can rely on. -/
structure Report.Tells (r : Report) (format : Format) (quiet : Bool)
    (result : Except Failure Product) : Prop where
  stdout_of_failure : r.code ≠ 0 → r.stdout = ""
  streams_of_quiet : quiet = true → r.stdout = "" ∧ r.stderr = ""
  json_of_success : format = .json → quiet = false → r.code = 0 →
    r.stderr = "" ∧ ∃ p, result = .ok p ∧ Document p.toJson r.stdout
  json_of_failure : format = .json → quiet = false → r.code ≠ 0 →
    ∃ f members, result = .error f ∧ Document (.object members) r.stderr ∧
      (Json.object members).get? "error" = some (.string f.message)

theorem Report.tells_ofProduct (format : Format) (quiet : Bool) (posts : List Post) (p : Product) :
    (ofProduct format quiet posts p).Tells format quiet (.ok p) := by
  have hcode : (ofProduct format quiet posts p).code = 0 := by
    cases quiet <;> cases format <;> rfl
  refine ⟨fun hfailed => absurd hcode hfailed, ?_, ?_, fun _ _ hfailed => absurd hcode hfailed⟩
  · rintro rfl
    cases format <;> exact ⟨rfl, rfl⟩
  · rintro rfl rfl -
    exact ⟨rfl, p, rfl, document_prettyLine p.toJson⟩

/-- Every failure but those that the program does not report itself is told as a script expects. -/
theorem Report.tells_ofFailure (format : Format) (quiet : Bool) (posts : List Post) {f : Failure}
    (hf : f.isReported = true) :
    (ofFailure format quiet posts f).Tells format quiet (.error f) := by
  obtain ⟨members, hmembers, herror⟩ := f.exists_normalize_toJson
  have hdocument := document_compactLine f.toJson
  rw [hmembers] at hdocument
  unfold ofFailure
  split
  · cases hf
  · cases hf
  · exact ⟨fun _ => rfl, fun _ => ⟨rfl, rfl⟩, nofun, nofun⟩
  · exact ⟨fun _ => rfl, nofun, nofun, nofun⟩
  · exact ⟨fun _ => rfl, nofun, nofun, fun _ _ _ => ⟨f, members, rfl, hdocument, herror⟩⟩

namespace Host

variable {h : Host} {i : Invocation}

/-- Short of a crash only the service itself ends without a report. -/
theorem ends_perform (hjob : ∀ port, i.job ≠ .serve port)
    (hcrash : (h.perform i).result ≠ .error .crashed) :
    Ends (fun _ => True) (h.perform i).result := by
  unfold perform at hcrash ⊢
  split
  · rfl
  · rename_i s hs
    rw [hs] at hcrash
    simp only at hcrash ⊢
    split
    · rename_i hfilter
      rw [if_pos hfilter] at hcrash
      rw [h.doJob_eq_of_ne_crashed hcrash]
      exact h.ends_doJob s hjob
    · rfl

end Host

/-- Whatever is found around it, a run of a job other than the service tells its outcome so that a
script can rely on the streams, unless it crashes. That is, it is a loud run, and the log takes note
of results with more violations than fit in a word. -/
theorem Invocation.tells_run (h : Host) (i : Invocation) (hjob : ∀ port, i.job ≠ .serve port) :
    (¬ (i.quiet = false ∧ h.Overflows i) →
      (i.run h).Tells i.format i.quiet (h.perform i).result) ∧
    (i.quiet = false → h.Overflows i →
      (i.run h).code = 101 ∧ (i.run h).stdout = "" ∧ (i.run h).stderr = Failure.crashed.text) := by
  constructor
  · intro hfits
    have hends := Host.ends_perform hjob fun hcrash => hfits (Host.perform_eq_crashed_iff.1 hcrash)
    unfold run Report.ofOutcome
    cases hresult : (h.perform i).result with
    | ok p => exact Report.tells_ofProduct i.format i.quiet _ p
    | error f =>
      rw [hresult] at hends
      exact Report.tells_ofFailure i.format i.quiet _ hends
  · intro hquiet hover
    have hcrash := Host.perform_eq_crashed_iff.2 ⟨hquiet, hover⟩
    unfold run Report.ofOutcome
    rw [hcrash]
    exact ⟨rfl, rfl, rfl⟩

/-- Where there are no files, it is told in an object that the graph was not found. -/
theorem Invocation.tells_run_without_graph :
    let i : Invocation := ⟨.json, false, none, .compile "g.json"⟩
    let h : Host := ⟨fun _ => .absent, fun _ => none, fun _ _ => .unreachable⟩
    (∀ port, i.job ≠ .serve port) ∧ (i.run h).code = 1 ∧ (i.run h).stdout = "" ∧
      ∃ members, Document (.object members) (i.run h).stderr ∧
        (Json.object members).get? "error" =
          some (.string "error: graph file not found: g.json") := by
  intro i h
  have hjob : ∀ port, i.job ≠ .serve port := nofun
  have hcode : (i.run h).code = 1 := by decide +kernel
  have hmessage : (h.perform i).result = .error (.noFile .graph "g.json") := by decide +kernel
  have hfits : ¬ (i.quiet = false ∧ h.Overflows i) := by
    rw [← Host.perform_eq_crashed_iff, hmessage]
    nofun
  have htells := (i.tells_run h hjob).1 hfits
  have hfailed : (i.run h).code ≠ 0 := by rw [hcode]; decide
  obtain ⟨f, members, hf, hdocument, herror⟩ := htells.json_of_failure rfl rfl hfailed
  obtain rfl := Except.error.inj (hmessage.symm.trans hf)
  exact ⟨hjob, hcode, htells.stdout_of_failure hfailed, members, hdocument, herror⟩

/-- A document of an object has a brace in it. -/
theorem mem_of_document {members : List (String × Json)} {text : String}
    (h : Document (.object members) text) : '\x7b' ∈ text.toList := by
  obtain ⟨-, hvalue, -⟩ := h
  rw [String.toList_append, String.toList_append]
  refine List.mem_append_left _ (List.mem_append_right _ ?_)
  cases hvalue with
  | emptyObject => simp
  | object => simp

/-- There is no object on the second stream when a run crashes that should answer in JSON. -/
theorem Invocation.no_document_of_crash :
    ∃ (h : Host) (i : Invocation), (∀ port, i.job ≠ .serve port) ∧ i.format = .json ∧
      i.quiet = false ∧ (i.run h).code = 101 ∧ (i.run h).stdout = "" ∧
      ∀ members, ¬ Document (.object members) (i.run h).stderr := by
  have hcrash := Host.perform_overflowing .json
  have hrun : Invocation.run .overflowing (.overflowing .json false) =
      Report.ofFailure .json false (Host.overflowing.perform (.overflowing .json false)).posts
        .crashed := by
    unfold run Report.ofOutcome
    rw [hcrash]
    rfl
  refine ⟨.overflowing, .overflowing .json false, nofun, rfl, rfl, ?_⟩
  rw [hrun]
  refine ⟨rfl, rfl, fun members hdocument => ?_⟩
  have hbrace : '\x7b' ∈ Failure.crashed.text.toList := mem_of_document hdocument
  exact absurd hbrace (by decide)

end ConstraintGraph.CommandLine
