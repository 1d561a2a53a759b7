import ConstraintGraph.CommandLine.Report
import ConstraintGraph.Proofs.CommandLine.Crashes

namespace ConstraintGraph.CommandLine

def Invocation.told (i : Invocation) (format : Format) (quiet : Bool) : Invocation :=
  { i with format, quiet }

def codeOf : Except Failure Product → UInt8
  | .ok _ => 0
  | .error .crashed => 101
  | .error _ => 1

theorem Report.code_ofOutcome (format : Format) (quiet : Bool) (o : Outcome) :
    (Report.ofOutcome format quiet o).code = codeOf o.result := by
  obtain ⟨result, posts⟩ := o
  cases result with
  | ok product => cases quiet <;> cases format <;> rfl
  | error failure => cases failure <;> cases quiet <;> cases format <;> rfl

/-- Where a quiet run succeeds and a loud one fails, the code shows which of the two it was. -/
theorem eq_of_codes_eq {quiet quiet' : Bool} {code : UInt8} (hcode : code ≠ 0)
    (h : (if quiet then 0 else code) = if quiet' then 0 else code) : quiet = quiet' := by
  cases quiet <;> cases quiet'
  · rfl
  · exact absurd h hcode
  · exact absurd h.symm hcode
  · rfl

namespace Host

/-- The job can be done under the settings in effect, but their log level is no valid filter. -/
def Overlooks (h : Host) (i : Invocation) : Prop :=
  ∃ s, h.settings i.settings = .ok s ∧ LogFilter.isValid s.log.level = false ∧
    (h.doJob s false i.job).result.isOk = true

/-- The job comes to results of which the log level that is set takes note, and they have more
violations than fit in a word. -/
def Overflows (h : Host) (i : Invocation) : Prop :=
  ∃ s v limit, h.settings i.settings = .ok s ∧ LogFilter.logs s.log.level .stored = true ∧
    (h.doJob s false i.job).result = .ok (.results v limit) ∧ 2 ^ 64 ≤ v.violationCount

variable {h : Host} {i : Invocation} {s : Settings}

/-- With a valid filter the run does its job, and logs as the filter says. -/
theorem perform_eq_doJob (hs : h.settings i.settings = .ok s)
    (hfilter : LogFilter.isValid (logFilter s i.quiet) = true) :
    h.perform i = h.doJob s (LogFilter.logs (logFilter s i.quiet) .stored) i.job := by
  unfold perform
  rw [hs]
  exact if_pos hfilter

/-- The filter of a quiet run is a valid one whatever level is set, and takes no note of results. -/
theorem perform_of_quiet (hs : h.settings i.settings = .ok s) (hquiet : i.quiet = true) :
    h.perform i = h.doJob s false i.job := by
  have herror : logFilter s i.quiet = "error" := by
    rw [hquiet]
    rfl
  have hvalid : LogFilter.isValid "error" = true := by decide +kernel
  have hlogs : LogFilter.logs "error" .stored = false := by decide +kernel
  rw [perform_eq_doJob hs (herror ▸ hvalid), herror, hlogs]

/-- The filter of a loud run is the level that is set. -/
theorem perform_of_loud (hs : h.settings i.settings = .ok s) (hquiet : i.quiet = false) :
    h.perform i =
      if LogFilter.isValid s.log.level = true then
        h.doJob s (LogFilter.logs s.log.level .stored) i.job
      else .silent (.error (.logFilter s.log.level)) := by
  have hfilter : logFilter s i.quiet = s.log.level := by
    rw [hquiet]
    rfl
  unfold perform
  rw [hs]
  simp only [hfilter]

theorem isValid_of_logs {filter : String} {e : LogFilter.Event}
    (hlogs : LogFilter.logs filter e = true) : LogFilter.isValid filter = true := by
  unfold LogFilter.logs at hlogs
  unfold LogFilter.isValid
  cases hdirectives : LogFilter.directives? filter with
  | some directives => rfl
  | none =>
    rw [hdirectives] at hlogs
    cases hlogs

theorem codeOf_of_isOk {x : Except Failure Product} (hok : x.isOk = true) : codeOf x = 0 := by
  cases x with
  | ok p => rfl
  | error f => cases hok

/-- Where the settings do not load there is nothing to be quiet about. -/
theorem codeOf_perform_of_error {e : SettingsError} (hs : h.settings i.settings = .error e) :
    codeOf (h.perform i).result = 1 := by
  unfold perform
  rw [hs]
  rfl

/-- A quiet run does not see the level, and a loud one fails for it. -/
theorem Overlooks.codeOf_perform (hi : h.Overlooks i) :
    codeOf (h.perform i).result = if i.quiet then 0 else 1 := by
  obtain ⟨s, hs, hlevel, hok⟩ := hi
  cases hquiet : i.quiet with
  | true =>
    rw [perform_of_quiet hs hquiet]
    exact codeOf_of_isOk hok
  | false =>
    rw [perform_of_loud hs hquiet, if_neg (ne_true_of_eq_false hlevel)]
    rfl

theorem Overflows.perform_eq_crashed (hi : h.Overflows i) (hquiet : i.quiet = false) :
    (h.perform i).result = .error .crashed := by
  obtain ⟨s, v, limit, hs, hlogs, hresult, hcount⟩ := hi
  have hover : (Product.results v limit).overflows = true :=
    Product.overflows_iff.2 ⟨v, limit, rfl, hcount⟩
  rw [perform_of_loud hs hquiet, if_pos (isValid_of_logs hlogs), hlogs]
  exact (h.doJob_eq_crashed_iff s true i.job).2 ⟨rfl, _, hresult, hover⟩

/-- A quiet run logs no results, and a loud one crashes over their total. -/
theorem Overflows.codeOf_perform (hi : h.Overflows i) :
    codeOf (h.perform i).result = if i.quiet then 0 else 101 := by
  cases hquiet : i.quiet with
  | true =>
    obtain ⟨s, v, limit, hs, hlogs, hresult, hcount⟩ := hi
    rw [perform_of_quiet hs hquiet, hresult]
    rfl
  | false =>
    rw [hi.perform_eq_crashed hquiet]
    rfl

/-- A run crashes exactly if it is loud and comes to results that overflow the total for the log. -/
theorem perform_eq_crashed_iff :
    (h.perform i).result = .error .crashed ↔ i.quiet = false ∧ h.Overflows i := by
  constructor
  · intro hcrash
    cases hs : h.settings i.settings with
    | error e =>
      rw [perform, hs] at hcrash
      cases hcrash
    | ok s =>
      cases hquiet : i.quiet with
      | true =>
        rw [perform_of_quiet hs hquiet] at hcrash
        exact absurd hcrash (h.doJob_ne_crashed s i.job)
      | false =>
        rw [perform_of_loud hs hquiet] at hcrash
        split at hcrash
        · obtain ⟨hlogs, p, hresult, hover⟩ := (h.doJob_eq_crashed_iff _ _ _).1 hcrash
          obtain ⟨v, limit, rfl, hcount⟩ := Product.overflows_iff.1 hover
          exact ⟨rfl, s, v, limit, hs, hlogs, hresult, hcount⟩
        · cases hcrash
  · rintro ⟨hquiet, hover⟩
    exact hover.perform_eq_crashed hquiet

/-- Where the filter decides nothing, the run ends as the job does without a log. -/
theorem codeOf_perform (hs : h.settings i.settings = .ok s) (hlevel : ¬ h.Overlooks i)
    (hcount : ¬ h.Overflows i) :
    codeOf (h.perform i).result = codeOf (h.doJob s false i.job).result := by
  cases hquiet : i.quiet with
  | true => rw [perform_of_quiet hs hquiet]
  | false =>
    by_cases hvalid : LogFilter.isValid s.log.level = true
    · have hcrash : (h.perform i).result ≠ .error .crashed :=
        fun hcrash => hcount (perform_eq_crashed_iff.1 hcrash).2
      rw [perform_of_loud hs hquiet, if_pos hvalid] at hcrash ⊢
      rw [h.doJob_eq_of_ne_crashed hcrash]
    · -- The job would have failed too.
      have hfails : ¬ (h.doJob s false i.job).result.isOk = true := fun hok =>
        hlevel ⟨s, hs, eq_false_of_ne_true hvalid, hok⟩
      have hcrash := h.doJob_ne_crashed s i.job
      rw [perform_of_loud hs hquiet, if_neg hvalid]
      cases hresult : (h.doJob s false i.job).result with
      | ok p =>
        rw [hresult] at hfails
        exact absurd rfl hfails
      | error f =>
        rw [hresult] at hcrash
        cases f with
        | crashed => exact absurd rfl hcrash
        | _ => rfl

end Host

/-- However a run is told, its exit code stays, unless it is told quietly at one time and loudly at
another and the quiet run overlooks the level or the loud one crashes. -/
theorem Invocation.code_told (h : Host) (i : Invocation) (format : Format) (quiet : Bool) :
    (((i.told format quiet).run h).code = (i.run h).code ↔
        quiet = i.quiet ∨ ¬ h.Overlooks i ∧ ¬ h.Overflows i) ∧
      (h.Overlooks i → ((i.told format quiet).run h).code = if quiet then 0 else 1) ∧
      (h.Overflows i → ((i.told format quiet).run h).code = if quiet then 0 else 101) := by
  have hcode (j : Invocation) : (j.run h).code = codeOf (h.perform j).result :=
    Report.code_ofOutcome ..
  have hoverlooks (j : Invocation) (hj : h.Overlooks j) :
      (j.run h).code = if j.quiet then 0 else 1 := (hcode j).trans hj.codeOf_perform
  have hoverflows (j : Invocation) (hj : h.Overflows j) :
      (j.run h).code = if j.quiet then 0 else 101 := (hcode j).trans hj.codeOf_perform
  refine ⟨?_, hoverlooks (i.told format quiet), hoverflows (i.told format quiet)⟩
  constructor
  · intro hsame
    by_contra hboth
    obtain ⟨hquiet, hnot⟩ := not_or.1 hboth
    -- One of the two runs is quiet and the other one is loud.
    rcases not_and_or.1 hnot with hi | hi
    · rw [hoverlooks i (not_not.1 hi), hoverlooks (i.told format quiet) (not_not.1 hi)] at hsame
      exact hquiet (eq_of_codes_eq (by decide) hsame)
    · rw [hoverflows i (not_not.1 hi), hoverflows (i.told format quiet) (not_not.1 hi)] at hsame
      exact hquiet (eq_of_codes_eq (by decide) hsame)
  · intro heither
    rw [hcode, hcode]
    rcases heither with rfl | ⟨hlevel, hcount⟩
    · rfl
    · cases hs : h.settings i.settings with
      | error e =>
        have htold : h.settings (i.told format quiet).settings = .error e := hs
        rw [Host.codeOf_perform_of_error hs, Host.codeOf_perform_of_error htold]
      | ok s =>
        have htold : h.settings (i.told format quiet).settings = .ok s := hs
        rw [Host.codeOf_perform hs hlevel hcount, Host.codeOf_perform htold hlevel hcount]
        rfl

def mislevelled : Host where
  file path := if path = "g.json" then .text "\x7b\"nodes\":[],\"edges\":[]\x7d" else .absent
  environment name := if name = Settings.logVariable then some "ocgraph=loud" else none
  deliver _ _ := .unreachable

/-- The loud run fails for the level, the quiet one compiles the graph. -/
theorem Invocation.verdict_changed_by_quiet :
    let i : Invocation := ⟨.text, false, none, .compile "g.json"⟩
    (i.run mislevelled).code = 1 ∧ ((i.told .text true).run mislevelled).code = 0 := by
  decide +kernel

end ConstraintGraph.CommandLine
