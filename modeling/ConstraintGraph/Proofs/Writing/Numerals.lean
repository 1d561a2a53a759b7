import ConstraintGraph.Proofs.Reading.Numerals
import ConstraintGraph.Proofs.Writing.Decimals
import ConstraintGraph.Proofs.Writing.Grammar

namespace ConstraintGraph

open Json.Grammar Text

namespace Text

structure IsLeading (cs : List Char) : Prop where
  isDigits : isDigits cs = true
  head?_ne : cs.head? ≠ some '0'

theorem isLeading_toDigits {n : Nat} (hn : n ≠ 0) : IsLeading (Nat.toDigits 10 n) :=
  ⟨isDigits_toDigits n, head?_toDigits hn⟩

namespace IsLeading

variable {cs : List Char}

theorem whole (h : IsLeading cs) : Whole cs := ⟨h.isDigits, fun hzero => absurd hzero h.head?_ne⟩

theorem append {ds : List Char} (h : IsLeading cs) (hds : ∀ d ∈ ds, d.isDigit = true) :
    IsLeading (cs ++ ds) := by
  obtain ⟨hne, hcs⟩ := isDigits_iff.1 h.isDigits
  refine ⟨isDigits_iff.2 ⟨List.append_ne_nil_of_left_ne_nil hne ds, fun c hc => ?_⟩, ?_⟩
  · rcases List.mem_append.1 hc with hc | hc
    · exact hcs c hc
    · exact hds c hc
  · rw [List.head?_append_of_ne_nil cs hne]
    exact h.head?_ne

theorem take {k : Nat} (h : IsLeading cs) (hk : 0 < k) : IsLeading (cs.take k) := by
  obtain ⟨hne, hcs⟩ := isDigits_iff.1 h.isDigits
  obtain ⟨c, cs, rfl⟩ := List.exists_cons_of_ne_nil hne
  obtain ⟨k, rfl⟩ := Nat.exists_eq_succ_of_ne_zero hk.ne'
  have htake : ∀ d ∈ c :: cs.take k, d.isDigit = true := by
    intro d hd
    exact hcs d (List.mem_of_mem_take (i := k + 1) hd)
  exact ⟨isDigits_iff.2 ⟨List.cons_ne_nil c (cs.take k), htake⟩, h.head?_ne⟩

end IsLeading
end Text

theorem whole_toDigits (n : Nat) : Whole (Nat.toDigits 10 n) := by
  by_cases hn : n = 0
  · rw [hn]
    exact ⟨rfl, fun _ => rfl⟩
  · exact (isLeading_toDigits hn).whole

theorem integer_toString (n : Int) : Integer n (toString n) := by
  cases n with
  | ofNat n =>
    have hspelled := Integer.nonneg (whole_toDigits n)
    rw [digitsValue_toDigits, ← Nat.toString_eq_ofList_toDigits] at hspelled
    exact hspelled
  | negSucc n =>
    have hspelled := Integer.negative (whole_toDigits (n + 1))
    rw [digitsValue_toDigits, String.ofList_cons, ← Nat.toString_eq_ofList_toDigits] at hspelled
    exact hspelled

namespace Binary64

def IsMagnitude (t : String) : Prop :=
  ∃ whole fraction exponent, Whole whole ∧ Fraction fraction ∧ Exponent exponent ∧
    t.toList = whole ++ fraction ++ exponent

theorem numeral_signed {t : String} (x : Binary64) (ht : IsMagnitude t) : Numeral (x.signed t) := by
  obtain ⟨whole, fraction, exponent, hwhole, hfraction, hexponent, htext⟩ := ht
  have hspelled : ∀ sign ∈ [[], ['-']], Numeral (String.ofList (sign ++ t.toList)) := by
    intro sign hsign
    rw [htext, ← List.append_assoc, ← List.append_assoc]
    exact .mk hsign hwhole hfraction hexponent
  unfold signed
  split
  · have hminus := hspelled ['-'] (by decide)
    rwa [String.ofList_append, String.ofList_toList] at hminus
  · have hplain := hspelled [] (by decide)
    rwa [List.nil_append, String.ofList_toList] at hplain

variable {d : Decimal}

/-- A positional text has digits on both sides of its point. -/
theorem isMagnitude_positional (hd : d.digits ≠ 0) : IsMagnitude (d.positional true) := by
  have hleading := isLeading_toDigits hd
  obtain ⟨hne, hdigits⟩ := isDigits_iff.1 hleading.isDigits
  have hzeros (k : Nat) : ∀ c ∈ List.replicate k '0', c.isDigit = true := by
    intro c hc
    rw [List.eq_of_mem_replicate hc]
    rfl
  unfold Decimal.positional
  rw [toList_toString]
  generalize Nat.toDigits 10 d.digits = ds at *
  simp only
  split
  · -- The places in front of the point are the digits and zeros.
    refine ⟨ds ++ List.replicate d.exponent.toNat '0', ['.', '0'], [],
      (hleading.append (hzeros _)).whole, .digits rfl, .absent, ?_⟩
    simp
  · split
    · -- The point stands among the digits.
      have hbehind : isDigits (ds.drop (ds.length + d.exponent).toNat) = true := by
        refine isDigits_iff.2 ⟨?_, fun c hc => hdigits c (List.mem_of_mem_drop hc)⟩
        rw [ne_eq, List.drop_eq_nil_iff]
        omega
      have hfront : IsLeading (ds.take (ds.length + d.exponent).toNat) := hleading.take (by omega)
      refine ⟨_, _, [], hfront.whole, .digits hbehind, .absent, ?_⟩
      rw [String.toList_ofList, List.append_nil]
    · -- All digits stand behind the point.
      have hbehind :
          isDigits (List.replicate (-(ds.length + d.exponent)).toNat '0' ++ ds) = true := by
        refine isDigits_iff.2 ⟨List.append_ne_nil_of_right_ne_nil _ hne, fun c hc => ?_⟩
        rcases List.mem_append.1 hc with hc | hc
        · exact hzeros _ c hc
        · exact hdigits c hc
      refine ⟨['0'], _, [], whole_toDigits 0, .digits hbehind, .absent, ?_⟩
      rw [String.toList_ofList, List.append_nil]
      rfl

theorem exponent_toString (n : Int) :
    Exponent ((if 0 ≤ n then "e+" else "e") ++ toString n).toList := by
  cases n with
  | ofNat n =>
    have htext : ("e+" ++ toString n).toList = 'e' :: (['+'] ++ Nat.toDigits 10 n) := by
      rw [String.toList_append, toList_toString]
      rfl
    have hsign : 0 ≤ Int.ofNat n := Int.natCast_nonneg n
    rw [if_pos hsign]
    exact htext ▸ .digits (by decide) (by decide) (isDigits_toDigits n)
  | negSucc n =>
    have htext : ("e" ++ ("-" ++ toString (n + 1))).toList =
        'e' :: (['-'] ++ Nat.toDigits 10 (n + 1)) := by
      rw [String.toList_append, String.toList_append, toList_toString]
      rfl
    have hsign : ¬ 0 ≤ Int.negSucc n := Int.not_le.2 (Int.negSucc_lt_zero n)
    rw [if_neg hsign]
    exact htext ▸ .digits (by decide) (by decide) (isDigits_toDigits (n + 1))

/-- One digit stands in front of the point, and the others behind it. -/
theorem isMagnitude_scientific (hd : d.digits ≠ 0) : IsMagnitude d.scientific := by
  have hleading := isLeading_toDigits hd
  obtain ⟨hne, hdigits⟩ := isDigits_iff.1 hleading.isDigits
  unfold Decimal.scientific
  rw [toList_toString]
  generalize Nat.toDigits 10 d.digits = ds at *
  have hexponent := exponent_toString (ds.length + d.exponent - 1)
  obtain ⟨c, cs, rfl⟩ := List.exists_cons_of_ne_nil hne
  have hfirst : Whole [c] := (hleading.take Nat.one_pos).whole
  cases cs with
  | nil =>
    refine ⟨[c], [], _, hfirst, .absent, hexponent, ?_⟩
    simp [String.append_assoc]
  | cons b cs =>
    have hbehind : isDigits (b :: cs) = true :=
      isDigits_iff.2 ⟨List.cons_ne_nil b cs, fun d hd => hdigits d (List.mem_cons_of_mem c hd)⟩
    refine ⟨[c], _, _, hfirst, .digits hbehind, hexponent, ?_⟩
    simp [String.append_assoc]

/-- What is written of a double is a JSON number. -/
theorem numeral_jsonText (x : Binary64) : Numeral x.jsonText := by
  unfold jsonText
  split
  · exact numeral_signed x ⟨['0'], ['.', '0'], [], whole_toDigits 0, .digits rfl, .absent, rfl⟩
  · rename_i hx
    have hdigits := digits_shortest_ne_zero .even hx
    simp only
    split
    · exact numeral_signed x (isMagnitude_positional hdigits)
    · exact numeral_signed x (isMagnitude_scientific hdigits)

end Binary64
end ConstraintGraph
