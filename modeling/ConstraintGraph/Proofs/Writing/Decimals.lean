import ConstraintGraph.Binary64.Shortest
import Mathlib.Algebra.Order.Field.Power
import Mathlib.Algebra.Order.Floor.Semifield
import Mathlib.Data.Nat.Cast.Order.Field
import Mathlib.Data.Rat.Floor
import Mathlib.Tactic.FieldSimp
import Mathlib.Tactic.Linarith
import Mathlib.Tactic.NormNum
import Mathlib.Tactic.Positivity
import Mathlib.Tactic.Ring

namespace ConstraintGraph.Binary64

variable {num den c : Nat} {e : Int} {tie : Tie} {x : Binary64}

theorem cast_tenTo (n : Nat) : (tenTo n : ℚ) = 10 ^ n := Nat.cast_pow 10 n

theorem cast_twoTo (n : Nat) : (twoTo n : ℚ) = 2 ^ n := Nat.cast_pow 2 n

theorem scaleTwo_den_pos (n : Nat) (q : Int) : 0 < (scaleTwo n q).2 := by
  unfold scaleTwo
  split
  · exact Nat.one_pos
  · exact Nat.pow_pos Nat.two_pos

/-- The fraction is exactly the value; nothing is rounded. -/
theorem div_scaleTwo (n : Nat) (q : Int) :
    ((scaleTwo n q).1 : ℚ) / (scaleTwo n q).2 = n * 2 ^ q := by
  unfold scaleTwo
  obtain ⟨k, rfl | rfl⟩ := q.eq_nat_or_neg
  · simp [cast_twoTo]
  · by_cases hk : k = 0
    · simp [hk, twoTo]
    · have hneg : ¬ (0 : Int) ≤ -k := by omega
      rw [if_neg hneg, Int.neg_neg, Int.toNat_natCast, cast_twoTo, zpow_neg, zpow_natCast,
        div_eq_mul_inv]

/-- The comparison with `c * 10^e`, with the power of ten on the side where it is a natural one. -/
theorem exists_decimal_scale (c num den : Nat) (e : Int) :
    ∃ a b s : Nat, 0 < s ∧ (a : ℚ) = c * 10 ^ e * den * s ∧ (b : ℚ) = num * s ∧
      decimalLt c e num den = decide (a < b) ∧ ltDecimal num den c e = decide (b < a) := by
  unfold decimalLt ltDecimal
  by_cases he : 0 ≤ e
  · lift e to ℕ using he
    refine ⟨c * tenTo e * den, num, 1, Nat.one_pos, ?_, ?_, by simp, by simp⟩
    · rw [Nat.cast_mul, Nat.cast_mul, cast_tenTo, zpow_natCast, Nat.cast_one, mul_one]
    · rw [Nat.cast_one, mul_one]
  · obtain ⟨k, rfl⟩ : ∃ k : ℕ, e = -k := ⟨(-e).toNat, by omega⟩
    have hpos : (0 : ℚ) < 10 ^ k := by positivity
    rw [if_neg he, if_neg he, Int.neg_neg, Int.toNat_natCast]
    refine ⟨c * den, num * tenTo k, tenTo k, Nat.pow_pos (by decide), ?_, ?_, rfl, rfl⟩
    · rw [Nat.cast_mul, cast_tenTo, zpow_neg, zpow_natCast]
      field_simp
    · rw [Nat.cast_mul]

/-- The comparison without fractions is that of the rational numbers. -/
theorem decimalLt_iff (hden : 0 < den) :
    decimalLt c e num den = true ↔ (c * 10 ^ e : ℚ) < num / den := by
  obtain ⟨a, b, s, hs, ha, hb, hlt, -⟩ := exists_decimal_scale c num den e
  have hden' : (0 : ℚ) < den := Nat.cast_pos.2 hden
  have hs' : (0 : ℚ) < s := Nat.cast_pos.2 hs
  rw [hlt, decide_eq_true_iff, ← Nat.cast_lt (α := ℚ), ha, hb, mul_lt_mul_iff_of_pos_right hs',
    lt_div_iff₀ hden']

theorem ltDecimal_iff (hden : 0 < den) :
    ltDecimal num den c e = true ↔ (num / den : ℚ) < c * 10 ^ e := by
  obtain ⟨a, b, s, hs, ha, hb, -, hlt⟩ := exists_decimal_scale c num den e
  have hden' : (0 : ℚ) < den := Nat.cast_pos.2 hden
  have hs' : (0 : ℚ) < s := Nat.cast_pos.2 hs
  rw [hlt, decide_eq_true_iff, ← Nat.cast_lt (α := ℚ), ha, hb, mul_lt_mul_iff_of_pos_right hs',
    div_lt_iff₀ hden']

theorem zpow_floorLog10_le (hden : 0 < den) (fuel : Nat) (he : (10 ^ e : ℚ) ≤ num / den) :
    (10 ^ floorLog10 num den fuel e : ℚ) ≤ num / den := by
  induction fuel generalizing e with
  | zero => exact he
  | succ fuel ih =>
    unfold floorLog10
    split
    · exact he
    · rename_i hlt
      refine ih ?_
      rw [ltDecimal_iff hden, not_lt, Nat.cast_one, one_mul] at hlt
      exact hlt

/-- The point of the grid with spacing `10^e` at the magnitude or next below it. -/
def gridFloor (x : Binary64) (e : Int) : Nat :=
  let value := scaleTwo (4 * x.significand) (x.scale - 2)
  if 0 ≤ e then value.1 / (value.2 * tenTo e.toNat) else value.1 * tenTo (-e).toNat / value.2

def gapBelow (x : Binary64) : Nat :=
  if x.significand = twoTo 52 ∧ 1 < x.exponentField then 1 else 2

def readsBack (x : Binary64) (e : Int) (c : Nat) : Bool :=
  let low := scaleTwo (4 * x.significand - x.gapBelow) (x.scale - 2)
  let high := scaleTwo (4 * x.significand + 2) (x.scale - 2)
  let closed := x.significand % 2 == 0
  (if closed then !decimalLt c e low.1 low.2 else ltDecimal low.1 low.2 c e) &&
    (if closed then !ltDecimal high.1 high.2 c e else decimalLt c e high.1 high.2)

theorem exists_onGrid?_eq (tie : Tie) (x : Binary64) (e : Int) :
    ∃ goDown : Bool, onGrid? tie x e =
      match x.readsBack e (x.gridFloor e), x.readsBack e (x.gridFloor e + 1) with
      | true, true => some (if goDown then x.gridFloor e else x.gridFloor e + 1)
      | true, false => some (x.gridFloor e)
      | false, true => some (x.gridFloor e + 1)
      | false, false => none :=
  ⟨_, rfl⟩

theorem readsBack_of_onGrid? {d : Nat} (hd : onGrid? tie x e = some d) :
    x.readsBack e d = true := by
  obtain ⟨goDown, heq⟩ := exists_onGrid?_eq tie x e
  rw [heq] at hd
  split at hd
  · rename_i hdown hup
    obtain rfl := Option.some.inj hd
    cases goDown
    · exact hup
    · exact hdown
  · rename_i hdown hup
    obtain rfl := Option.some.inj hd
    exact hdown
  · rename_i hdown hup
    obtain rfl := Option.some.inj hd
    exact hup
  · cases hd

/-- A grid is good if its point next below the magnitude reads back. -/
theorem exists_onGrid?_of_readsBack (tie : Tie) (h : x.readsBack e (x.gridFloor e) = true) :
    ∃ d, onGrid? tie x e = some d := by
  obtain ⟨goDown, heq⟩ := exists_onGrid?_eq tie x e
  rw [heq, h]
  cases x.readsBack e (x.gridFloor e + 1) with
  | true => exact ⟨_, rfl⟩
  | false => exact ⟨_, rfl⟩

theorem gapBelow_eq_or (x : Binary64) : x.gapBelow = 1 ∨ x.gapBelow = 2 := by
  unfold gapBelow
  split
  · exact .inl rfl
  · exact .inr rfl

theorem gridFloor_eq (x : Binary64) (e : Int) :
    x.gridFloor e = ⌊(4 * x.significand * 2 ^ (x.scale - 2) / 10 ^ e : ℚ)⌋₊ := by
  have hvalue := div_scaleTwo (4 * x.significand) (x.scale - 2)
  rw [Nat.cast_mul, Nat.cast_ofNat] at hvalue
  rw [← hvalue, gridFloor]
  generalize scaleTwo (4 * x.significand) (x.scale - 2) = value
  by_cases he : 0 ≤ e
  · lift e to ℕ using he
    simp only [Int.natCast_nonneg, if_true, Int.toNat_natCast]
    rw [← Nat.floor_div_eq_div (K := ℚ), Nat.cast_mul, cast_tenTo, div_div, zpow_natCast]
  · obtain ⟨k, rfl⟩ : ∃ k : ℕ, e = -k := ⟨(-e).toNat, by omega⟩
    simp only [he, if_false, Int.neg_neg, Int.toNat_natCast]
    rw [← Nat.floor_div_eq_div (K := ℚ), Nat.cast_mul, cast_tenTo, zpow_neg, zpow_natCast,
      div_inv_eq_mul, mul_div_right_comm]

/-- Strictly between the two midpoints a decimal reads back. -/
theorem readsBack_of_lt_of_lt
    (hlow : ((4 * x.significand - x.gapBelow : ℕ) * 2 ^ (x.scale - 2) : ℚ) < c * 10 ^ e)
    (hhigh : (c * 10 ^ e : ℚ) < (4 * x.significand + 2 : ℕ) * 2 ^ (x.scale - 2)) :
    x.readsBack e c = true := by
  have hlow' := hlow.not_gt
  have hhigh' := hhigh.not_gt
  rw [← div_scaleTwo] at hlow hlow' hhigh hhigh'
  rw [← ltDecimal_iff (scaleTwo_den_pos ..)] at hlow hhigh'
  rw [← decimalLt_iff (scaleTwo_den_pos ..)] at hhigh hlow'
  rw [readsBack]
  simp [hlow, hlow', hhigh, hhigh']

/-- Zero does not read back as a number other than zero, however coarse the grid is. -/
theorem readsBack_zero (hx : x.significand ≠ 0) : x.readsBack e 0 = false := by
  have hlow : (0 : ℚ) < (4 * x.significand - x.gapBelow : ℕ) * 2 ^ (x.scale - 2) := by
    have hgap := x.gapBelow_eq_or
    have hpos : 0 < 4 * x.significand - x.gapBelow := by omega
    have hpos' : (0 : ℚ) < (4 * x.significand - x.gapBelow : ℕ) := Nat.cast_pos.2 hpos
    positivity
  have hzero : ((0 : ℕ) * 10 ^ e : ℚ) = 0 := by simp
  have hlow' := hlow.not_gt
  rw [← hzero, ← div_scaleTwo] at hlow hlow'
  rw [← decimalLt_iff (scaleTwo_den_pos ..)] at hlow
  rw [← ltDecimal_iff (scaleTwo_den_pos ..)] at hlow'
  rw [readsBack]
  simp [hlow, hlow']

theorem significand_lt (x : Binary64) : x.significand < 2 ^ 53 := by
  have hfraction : x.fractionField < 2 ^ 52 := Nat.mod_lt _ (by decide)
  have hhidden : twoTo 52 = 2 ^ 52 := rfl
  unfold significand
  split <;> omega

theorem neg_1074_le_scale (x : Binary64) : -1074 ≤ x.scale := by
  unfold scale
  split <;> omega

/-- The point below the value is near enough on a grid of seventeen digits. -/
theorem readsBack_gridFloor (hx : x.significand ≠ 0)
    (he : (10 ^ 17 * 10 ^ e : ℚ) ≤ x.significand * 2 ^ x.scale) :
    x.readsBack e (x.gridFloor e) = true := by
  have hspacing : (0 : ℚ) < 10 ^ e := by positivity
  have hunit : (0 : ℚ) < 2 ^ (x.scale - 2) := by positivity
  have hscale : (2 : ℚ) ^ x.scale = 4 * 2 ^ (x.scale - 2) := by
    rw [zpow_sub₀ (by norm_num)]
    norm_num
    ring
  have hm : (x.significand : ℚ) < 2 ^ 53 := by exact_mod_cast x.significand_lt
  have hfine : (10 ^ e : ℚ) < 2 ^ (x.scale - 2) := by
    rw [hscale] at he
    nlinarith
  have hfloor : (x.gridFloor e * 10 ^ e : ℚ) ≤ 4 * x.significand * 2 ^ (x.scale - 2) := by
    rw [gridFloor_eq, ← le_div_iff₀ hspacing]
    exact Nat.floor_le (by positivity)
  have hnext : (4 * x.significand * 2 ^ (x.scale - 2) : ℚ) < (x.gridFloor e + 1) * 10 ^ e := by
    rw [gridFloor_eq, ← div_lt_iff₀ hspacing]
    exact Nat.lt_floor_add_one _
  apply readsBack_of_lt_of_lt
  · have hgap : (4 * x.significand - x.gapBelow : ℕ) + 1 ≤ 4 * x.significand := by
      have hgap := x.gapBelow_eq_or
      omega
    have hgap' : ((4 * x.significand - x.gapBelow : ℕ) + 1 : ℚ) ≤ 4 * x.significand := by
      exact_mod_cast hgap
    nlinarith
  · push_cast
    linarith

/-- The search ends on a decimal that reads back if its last grid has seventeen digits. -/
theorem readsBack_shortestFrom (tie : Tie) (hx : x.significand ≠ 0) (fuel : Nat)
    (he : (10 ^ 17 * 10 ^ (e - fuel) : ℚ) ≤ x.significand * 2 ^ x.scale) :
    x.readsBack (shortestFrom tie x e fuel).exponent (shortestFrom tie x e fuel).digits = true := by
  induction fuel generalizing e with
  | zero =>
    rw [Nat.cast_zero, sub_zero] at he
    obtain ⟨d, hd⟩ := exists_onGrid?_of_readsBack tie (readsBack_gridFloor hx he)
    rw [shortestFrom, hd]
    exact readsBack_of_onGrid? hd
  | succ fuel ih =>
    unfold shortestFrom
    split
    · rename_i d hd
      exact readsBack_of_onGrid? hd
    · apply ih
      rwa [Nat.cast_succ, add_comm, ← sub_sub] at he

theorem Decimal.digits_strip_ne_zero (fuel : Nat) {d : Decimal} (hd : d.digits ≠ 0) :
    (d.strip fuel).digits ≠ 0 := by
  induction fuel generalizing d with
  | zero => exact hd
  | succ fuel ih =>
    unfold strip
    split
    · refine ih (show d.digits / 10 ≠ 0 from ?_)
      omega
    · exact hd

/-- The search for the first digit begins below every double. -/
theorem zpow_neg_330_le (hx : x.significand ≠ 0) :
    ((10 : ℚ) ^ (-330 : Int)) ≤ x.significand * 2 ^ x.scale := by
  have hone : (1 : ℚ) ≤ x.significand := by exact_mod_cast Nat.one_le_iff_ne_zero.2 hx
  have hpowers : 2 ^ 1074 ≤ 10 ^ 330 := by decide +kernel
  have hpowers' : (2 ^ 1074 : ℚ) ≤ 10 ^ 330 := by exact_mod_cast hpowers
  calc ((10 : ℚ) ^ (-330 : Int))
    _ ≤ 2 ^ (-1074 : Int) := by
      rw [zpow_neg, zpow_neg]
      exact inv_anti₀ (by positivity) hpowers'
    _ ≤ 2 ^ x.scale := zpow_le_zpow_right₀ (by norm_num) x.neg_1074_le_scale
    _ ≤ x.significand * 2 ^ x.scale := le_mul_of_one_le_left (by positivity) hone

/-- The shortest digits of a number other than zero are not zero. -/
theorem digits_shortest_ne_zero (tie : Tie) (hx : x.significand ≠ 0) :
    (shortest tie x).digits ≠ 0 := by
  have hstart := zpow_neg_330_le hx
  rw [← div_scaleTwo] at hstart
  have htop := zpow_floorLog10_le (scaleTwo_den_pos ..) 700 hstart
  rw [div_scaleTwo] at htop
  generalize hlog : floorLog10 _ _ 700 (-330) = top at htop
  have hfine : (10 ^ 17 * 10 ^ (top - (17 : ℕ)) : ℚ) ≤ x.significand * 2 ^ x.scale := by
    calc (10 ^ 17 * 10 ^ (top - (17 : ℕ)) : ℚ)
      _ = 10 ^ top := by
        rw [← zpow_natCast, ← zpow_add₀ (by norm_num)]
        congr 1
        push_cast
        ring
      _ ≤ x.significand * 2 ^ x.scale := htop
  have hreads := readsBack_shortestFrom tie hx 17 hfine
  have hdigits : (shortestFrom tie x top 17).digits ≠ 0 := by
    intro hzero
    rw [hzero, readsBack_zero hx] at hreads
    cases hreads
  rw [shortest, hlog]
  exact Decimal.digits_strip_ne_zero 20 hdigits

end ConstraintGraph.Binary64
