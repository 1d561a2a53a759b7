import ConstraintGraph.Proofs.Reading.Bounds
import ConstraintGraph.Proofs.Writing.Decimals

namespace ConstraintGraph

namespace Binary64

variable {x : Binary64} {n : Int}

def value (x : Binary64) : ℚ := (if x.negative then -1 else 1) * (x.significand * 2 ^ x.scale)

theorem fraction_den_pos (x : Binary64) : 0 < x.fraction.2 := scaleTwo_den_pos x.significand x.scale

theorem div_fraction (x : Binary64) :
    (x.fraction.1 : ℚ) / x.fraction.2 = x.significand * 2 ^ x.scale :=
  div_scaleTwo x.significand x.scale

/-- A fraction is an integer exactly if the division leaves nothing over. -/
theorem div_eq_intCast_iff {num den : Nat} (hden : 0 < den) :
    (num / den : ℚ) = n ↔ num % den = 0 ∧ ((num / den : Nat) : Int) = n := by
  have hden' : (den : ℚ) ≠ 0 := Nat.cast_ne_zero.2 hden.ne'
  have hsplit : (den * (num / den : Nat) + (num % den : Nat) : Int) = num := by
    exact_mod_cast Nat.div_add_mod num den
  rw [div_eq_iff hden']
  constructor
  · intro h
    have hnum : (num : Int) = n * den := by exact_mod_cast h
    have hmod : num % den = 0 := Nat.mod_eq_zero_of_dvd (Int.natCast_dvd_natCast.1 ⟨n, by
      rw [hnum, mul_comm]⟩)
    rw [hmod, Nat.cast_zero, add_zero, hnum, mul_comm] at hsplit
    exact ⟨hmod, Int.eq_of_mul_eq_mul_right (Int.natCast_ne_zero.2 hden.ne') hsplit⟩
  · rintro ⟨hmod, rfl⟩
    rw [hmod, Nat.cast_zero, add_zero, mul_comm] at hsplit
    exact_mod_cast hsplit.symm

/-- What is taken for an integer is one, and the right one. -/
theorem toInt?_eq_some_iff : x.toInt? = some n ↔ x.isFinite = true ∧ x.value = n := by
  have hsigned : x.value = n ↔
      (x.fraction.1 / x.fraction.2 : ℚ) = ((if x.negative then -n else n : Int) : ℚ) := by
    rw [value, ← div_fraction]
    cases x.negative
    · simp
    · simp [neg_eq_iff_eq_neg]
  rw [hsigned, div_eq_intCast_iff x.fraction_den_pos]
  unfold toInt?
  cases x.negative <;> cases x.isFinite <;> simp [neg_eq_iff_eq_neg]

end Binary64

namespace Bound

variable {x : Binary64} {n : Int64} {e : DecodeError}

theorem ne_infinity_of_isFinite (h : x.isFinite = true) :
    x ≠ Binary64.infinity ∧ x ≠ Binary64.negInfinity := by
  constructor
  · rintro rfl
    cases h
  · rintro rfl
    cases h

/-- The least integer is the only one in the range that is refused as a double. -/
theorem ofDouble_of_value (hfinite : x.isFinite = true) (hvalue : x.value = n.toInt) :
    ofDouble x = if n = Int64.minValue then .error (.boundNotInteger x) else .ok (.finite n) := by
  have hx := ne_infinity_of_isFinite hfinite
  have hn := Binary64.toInt?_eq_some_iff.2 ⟨hfinite, hvalue⟩
  -- The absolute value is compared, and that of the least integer is above the greatest one.
  have hleast : n = Int64.minValue ↔ ¬ n.toInt.natAbs ≤ Text.greatestInt64 := by
    have hge := n.minValue_le_toInt
    have hle := n.toInt_le
    rw [← Int64.toInt_inj, Int64.toInt_minValue] at *
    rw [Int64.toInt_maxValue] at hle
    unfold Text.greatestInt64
    omega
  rw [ofDouble, if_neg hx.1, if_neg hx.2, hn]
  simp only [hleast, ite_not, Int64.ofInt_toInt]

/-- Refused is what has no integer value, or one that is too large in size on either side. -/
theorem ofDouble_eq_error_iff :
    ofDouble x = .error e ↔ e = .boundNotInteger x ∧ x ≠ .infinity ∧ x ≠ .negInfinity ∧
      ∀ m : Int, x.isFinite = true → x.value = m → m ≤ -2 ^ 63 ∨ 2 ^ 63 ≤ m := by
  unfold ofDouble
  by_cases hpos : x = .infinity
  · rw [if_pos hpos]
    exact iff_of_false nofun fun h => h.2.1 hpos
  by_cases hneg : x = .negInfinity
  · rw [if_neg hpos, if_pos hneg]
    exact iff_of_false nofun fun h => h.2.2.1 hneg
  rw [if_neg hpos, if_neg hneg]
  have hvalue : ∀ m : Int, x.isFinite = true → x.value = m → x.toInt? = some m :=
    fun m hfinite hm => Binary64.toInt?_eq_some_iff.2 ⟨hfinite, hm⟩
  have herror : Except.error (.boundNotInteger x) = (Except.error e : Except DecodeError Bound) ↔
      e = .boundNotInteger x :=
    ⟨fun h => (Except.error.inj h).symm, fun h => by rw [h]⟩
  -- Neither infinity: what counts is whether there is an integer, and its size.
  cases hint : x.toInt? with
  | none =>
    rw [herror]
    refine (and_iff_left ⟨hpos, hneg, fun m hfinite hm => ?_⟩).symm
    cases hint.symm.trans (hvalue m hfinite hm)
  | some k =>
    obtain ⟨hfinite, hk⟩ := Binary64.toInt?_eq_some_iff.1 hint
    dsimp only
    split
    · rename_i hsmall
      refine iff_of_false nofun fun h => ?_
      have hlarge := h.2.2.2 k hfinite hk
      unfold Text.greatestInt64 at hsmall
      omega
    · rename_i hlarge
      rw [herror]
      refine (and_iff_left ⟨hpos, hneg, fun m _ hm => ?_⟩).symm
      obtain rfl := Option.some.inj (hint.symm.trans (hvalue m hfinite hm))
      unfold Text.greatestInt64 at hlarge
      omega

theorem ofJson_toString (n : Int64) (origin : Json.Origin) :
    ofJson origin (.string (toString n.toInt)) = .ok (.finite n) := by
  rw [ofJson]
  exact ofText_of_spells_self (finite n).spells_display

/-- The three spellings of an integer that fits in 64 bits name the same bound, but for the double
of the least one, which is refused. A double is refused only if it is neither an infinity nor an
integer above the least one and below `2^63`. -/
theorem spellings_of_integer_agree (x : Binary64) (origin : Json.Origin) :
    (∀ n : Int64, x.isFinite = true → x.value = n.toInt →
        ofJson origin (.int n.toInt) = .ok (.finite n) ∧
        ofJson origin (.string (toString n.toInt)) = .ok (.finite n) ∧
        ofJson origin (.double x) =
          if n = Int64.minValue then .error (.boundNotInteger x) else .ok (.finite n)) ∧
      ∀ e, ofJson origin (.double x) = .error e ↔ e = .boundNotInteger x ∧ x ≠ .infinity ∧
        x ≠ .negInfinity ∧
        ∀ m : Int, x.isFinite = true → x.value = m → m ≤ -2 ^ 63 ∨ 2 ^ 63 ≤ m := by
  refine ⟨fun n hfinite hvalue =>
    ⟨(finite n).reads_toJson .stay origin, ofJson_toString n origin, ?_⟩, fun e => ?_⟩
  · rw [ofJson, ofDouble_of_value hfinite hvalue]
  · rw [ofJson, ofDouble_eq_error_iff]

/-- The largest double below `2^63`. -/
theorem spellings_of_integer_agree_greatest :
    let x : Binary64 := ⟨0x43DFFFFFFFFFFFFF⟩
    x.isFinite = true ∧ x.value = (9223372036854774784 : Int64).toInt ∧
      ofJson .text (.int 9223372036854774784) = .ok (.finite 9223372036854774784) ∧
      ofJson .text (.string (toString (9223372036854774784 : Int64).toInt)) =
        .ok (.finite 9223372036854774784) ∧
      ofJson .text (.double x) = .ok (.finite 9223372036854774784) := by
  intro x
  obtain ⟨hfinite, hvalue⟩ := Binary64.toInt?_eq_some_iff.1
    (show x.toInt? = some (9223372036854774784 : Int64).toInt by decide)
  obtain ⟨hint, htext, hdouble⟩ :=
    (spellings_of_integer_agree x .text).1 9223372036854774784 hfinite hvalue
  exact ⟨hfinite, hvalue, hint, htext, hdouble⟩

/-- The least integer that fits in 64 bits is a double, too, and as a double it is refused for not
being an integer. -/
theorem least_integer_refused_as_double :
    let x : Binary64 := ⟨0xC3E0000000000000⟩
    x.isFinite = true ∧ x.value = Int64.minValue.toInt ∧
      ofJson .text (.int Int64.minValue.toInt) = .ok (.finite Int64.minValue) ∧
      ofJson .text (.string (toString Int64.minValue.toInt)) = .ok (.finite Int64.minValue) ∧
      ofJson .text (.double x) = .error (.boundNotInteger x) ∧
      (DecodeError.boundNotInteger x).message? =
        some "bound -9223372036854776000 is not an integer" := by
  intro x
  obtain ⟨hfinite, hvalue⟩ := Binary64.toInt?_eq_some_iff.1
    (show x.toInt? = some Int64.minValue.toInt by decide)
  refine ⟨hfinite, hvalue, rfl, ofJson_toString Int64.minValue .text,
    ofDouble_of_value hfinite hvalue, ?_⟩
  decide +kernel

end Bound
end ConstraintGraph
