import ConstraintGraph.Json.Writer
import ConstraintGraph.Proofs.Reading.Graphs
import ConstraintGraph.Proofs.Reading.Spellings

namespace ConstraintGraph

namespace Json

/-- A number is known by the sign or the digit that it begins with. -/
theorem readValue_of_readNumber {c : Char} {cs : List Char} {o : Outline}
    (hc : c = '-' ∨ c.isDigit = true) (h : readNumber (c :: cs) = some (o, [])) (fuel depth : Nat) :
    readValue (fuel + 1) depth (c :: cs) = (o, some []) := by
  have hbegins : (c == '-' || c.isDigit) = true := by
    rwa [Bool.or_eq_true, beq_iff_eq]
  have hother : ∀ d ∈ [' ', '\n', '\t', '\r', '[', '\x7b', '\"', 'n', 't', 'f'],
      ¬ (d == '-' || d.isDigit) = true := List.any_eq_false.1 (by decide)
  have hskip : skipBlanks (c :: cs) = c :: cs := by
    refine List.dropWhile_cons_of_neg fun hblank => hother c ?_ hbegins
    simp only [Bool.or_eq_true, beq_iff_eq] at hblank
    rcases hblank with ((rfl | rfl) | rfl) | rfl <;> decide
  unfold readValue
  rw [hskip]
  split
  case h_7 =>
    rw [h]
  all_goals
    rename_i heq
    obtain ⟨rfl, -⟩ := List.cons.inj heq
    exact absurd hbegins (hother _ (by decide))

end Json

namespace Bound

variable {s t : String} {b : Bound} {e : DecodeError}

/-- The spellings of a bound, without blanks around them. -/
inductive Spells : String → Bound → Prop
  | posInfinity {t : String} (h : t ∈ ["inf", "+inf", "∞", "+∞", "Infinity", "+Infinity"]) :
    Spells t .posInfinity
  | negInfinity {t : String} (h : t ∈ ["-inf", "-∞", "-Infinity"]) : Spells t .negInfinity
  | finite {t : String} {n : Int64} (h : Text.SpellsInteger t.toList n.toInt) :
    Spells t (.finite n)

/-- Words for infinities are tried before numerals, and none of them is one. -/
theorem ofText_of_spells (h : Spells (Text.trim s) b) : ofText s = .ok b := by
  unfold ofText
  generalize Text.trim s = t at h
  cases h with
  | posInfinity h => exact if_pos h
  | negInfinity h =>
    have hapart : ∀ t ∈ ["-inf", "-∞", "-Infinity"],
        t ∉ ["inf", "+inf", "∞", "+∞", "Infinity", "+Infinity"] := by decide
    exact (if_neg (hapart t h)).trans (if_pos h)
  | finite h =>
    -- No infinity is spelled like an integer.
    have hnone : ∀ t ∈ ["inf", "+inf", "∞", "+∞", "Infinity", "+Infinity"] ++
        ["-inf", "-∞", "-Infinity"], Text.int64? t = none := by decide
    have hn := Text.int64?_eq_some_iff.2 h
    have hfinite := mt (hnone t) (Option.ne_none_iff_exists'.2 ⟨_, hn⟩)
    rw [List.mem_append, not_or] at hfinite
    dsimp only
    rw [if_neg hfinite.1, if_neg hfinite.2, hn]

/-- A text is read as the bound that it spells between its blanks. -/
theorem ofText_eq_ok_iff : ofText s = .ok b ↔ Spells (Text.trim s) b := by
  refine ⟨fun h => ?_, ofText_of_spells⟩
  unfold ofText at h
  dsimp only at h
  split at h
  · rename_i hpos
    obtain rfl := Except.ok.inj h
    exact .posInfinity hpos
  · split at h
    · rename_i hneg
      obtain rfl := Except.ok.inj h
      exact .negInfinity hneg
    · split at h
      · rename_i n hn
        obtain rfl := Except.ok.inj h
        exact .finite (Text.int64?_eq_some_iff.1 hn)
      · cases h

/-- A text that is refused is named without the blanks around it. -/
theorem ofText_error (h : ofText s = .error e) : e = .boundText (Text.trim s) := by
  unfold ofText at h
  dsimp only at h
  split at h
  · cases h
  · split at h
    · cases h
    · split at h
      · cases h
      · exact (Except.error.inj h).symm

/-- A text that spells no bound is told without its blanks. -/
theorem ofText_eq_error_iff :
    ofText s = .error e ↔ e = .boundText (Text.trim s) ∧ ∀ b, ¬ Spells (Text.trim s) b := by
  constructor
  · intro h
    refine ⟨ofText_error h, fun b hb => ?_⟩
    cases h.symm.trans (ofText_of_spells hb)
  · rintro ⟨rfl, hnone⟩
    cases hs : ofText s with
    | ok b => exact absurd (ofText_eq_ok_iff.1 hs) (hnone b)
    | error e => rw [ofText_error hs]

/-- A spelling is read with blanks around it, too, for there is none in it. -/
theorem ofText_between {before behind : List Char} (hbefore : ∀ c ∈ before, Text.isBlank c = true)
    (hbehind : ∀ c ∈ behind, Text.isBlank c = true) (h : Spells t b) :
    ofText (String.ofList (before ++ t.toList ++ behind)) = .ok b := by
  have hinfinite : ∀ t ∈ ["inf", "+inf", "∞", "+∞", "Infinity", "+Infinity"] ++
      ["-inf", "-∞", "-Infinity"], t.toList.any Text.isBlank = false := by decide
  have hsolid : ∀ c ∈ t.toList, Text.isBlank c = false := by
    have hnone (hany : t.toList.any Text.isBlank = false) :
        ∀ c ∈ t.toList, Text.isBlank c = false :=
      fun c hc => Bool.eq_false_of_not_eq_true (List.any_eq_false.1 hany c hc)
    cases h with
    | posInfinity h => exact hnone (hinfinite t (List.mem_append_left _ h))
    | negInfinity h => exact hnone (hinfinite t (List.mem_append_right _ h))
    | finite h => exact h.isBlank_eq_false
  have htrims : Text.Trims (String.ofList (before ++ t.toList ++ behind)) t :=
    ⟨⟨before, behind, String.toList_ofList, hbefore, hbehind⟩,
      fun c hc => hsolid c (List.mem_of_mem_head? hc),
      fun c hc => hsolid c (List.mem_of_mem_getLast? hc)⟩
  refine ofText_of_spells ?_
  rwa [Text.trim_eq_iff.2 htrims]

theorem ofText_of_spells_self (h : Spells t b) : ofText t = .ok b := by
  have hread := ofText_between (List.forall_mem_nil _) (List.forall_mem_nil _) h
  rwa [List.nil_append, List.append_nil, String.ofList_toList] at hread

/-- The text shown to an author is a spelling. -/
theorem spells_display (b : Bound) : Spells b.display b := by
  cases b with
  | negInfinity => exact .negInfinity (by decide)
  | finite n => exact .finite (Text.spellsInteger_toString n.toInt)
  | posInfinity => exact .posInfinity (by decide)

/-- A bound is read from its JSON text. -/
theorem runText_compact (b : Bound) : Decoder.runText ofJson b.toJson.compact = .ok b := by
  cases b with
  | negInfinity => rfl
  | posInfinity => rfl
  | finite n =>
    have hge := n.minValue_le_toInt
    have hle := n.toInt_le
    obtain ⟨c, cs, htext, hc⟩ := Text.exists_toList_toString n.toInt
    have hnumber : Json.readNumber (c :: cs) = some (.int n.toInt, []) := by
      rw [← htext]
      exact Json.readNumber_toString hge (Int.le_trans hle (by decide))
    have houtline : Json.Outline.ofText (toString n.toInt) = (.int n.toInt, some []) := by
      rw [Json.Outline.ofText, htext]
      exact Json.readValue_of_readNumber hc hnumber _ _
    have hread : ofJson .text (.int n.toInt) = .ok (.finite n) :=
      (finite n).reads_toJson .stay .text
    show Decoder.runText ofJson (toString n.toInt) = _
    rw [Decoder.runText, houtline]
    show (ofJson .text (.int n.toInt)).bind _ = _
    rw [hread]
    rfl

/-- A text is read as a bound exactly if it is a spelling of that bound, blanks at its ends apart.
Any other text is refused, and what is left of it without the blanks is quoted. So every bound is
read back from its JSON, and from what is shown of it to an author with blanks put around it. -/
theorem spelled_bounds_are_read :
    (∀ s, ∃ t, (∀ t', Text.Trims s t' ↔ t' = t) ∧ ∀ origin,
        (∀ b, ofJson origin (.string s) = .ok b ↔ Spells t b) ∧
        ∀ e, ofJson origin (.string s) = .error e ↔ e = .boundText t ∧ ∀ b, ¬ Spells t b) ∧
      (∀ t, (DecodeError.boundText t).message? = some ("invalid bound '" ++ t ++ "'")) ∧
      (∀ b, ofJson.Reads b.toJson b ∧ Decoder.runText ofJson b.toJson.compact = .ok b) ∧
      ∀ (b : Bound) (before behind : List Char), (∀ c ∈ before, Text.isBlank c = true) →
        (∀ c ∈ behind, Text.isBlank c = true) → ∀ origin, ofJson origin
          (.string (String.ofList (before ++ b.display.toList ++ behind))) = .ok b := by
  refine ⟨fun s => ⟨Text.trim s, fun t' => ?_, fun origin => ⟨fun b => ?_, fun e => ?_⟩⟩,
    fun t => ?_, fun b => ⟨b.reads_toJson, b.runText_compact⟩, ?_⟩
  · rw [← Text.trim_eq_iff, eq_comm]
  · rw [ofJson, ofText_eq_ok_iff]
  · rw [ofJson, ofText_eq_error_iff]
  · rfl
  · intro b before behind hbefore hbehind origin
    rw [ofJson]
    exact ofText_between hbefore hbehind b.spells_display

/-- The least integer, between blanks of several kinds. -/
theorem spelled_bounds_are_read_least :
    (∀ c ∈ ['\t', '\u2003'], Text.isBlank c = true) ∧ (∀ c ∈ ['\u00a0'], Text.isBlank c = true) ∧
      ofJson .text (.string "\t\u2003-9223372036854775808\u00a0") =
        .ok (.finite Int64.minValue) := by
  have hbefore : ∀ c ∈ ['\t', '\u2003'], Text.isBlank c = true := List.all_eq_true.1 (by decide)
  have hbehind : ∀ c ∈ ['\u00a0'], Text.isBlank c = true := List.all_eq_true.1 (by decide)
  exact ⟨hbefore, hbehind, spelled_bounds_are_read.2.2.2 (.finite Int64.minValue) ['\t', '\u2003']
    ['\u00a0'] hbefore hbehind .text⟩

end Bound
end ConstraintGraph
