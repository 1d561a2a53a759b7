import ConstraintGraph.Json.Decode
import ConstraintGraph.Variable
import Mathlib.Data.List.DropRight
import Mathlib.Data.List.TakeWhile

namespace ConstraintGraph

namespace Text

theorem toList_toString (n : Nat) : (toString n).toList = Nat.toDigits 10 n := by
  rw [Nat.toString_eq_ofList_toDigits, String.toList_ofList]

theorem toList_toString_negSucc (n : Nat) :
    (toString (Int.negSucc n)).toList = '-' :: Nat.toDigits 10 (n + 1) := by
  show ("-" ++ toString (n + 1)).toList = _
  rw [String.toList_append, toList_toString]
  rfl

theorem isDigit_of_mem_toDigits {n : Nat} {c : Char} (hc : c ∈ Nat.toDigits 10 n) :
    c.isDigit = true :=
  Nat.isDigit_of_mem_toDigits (by decide) (by decide) hc

theorem isDigits_iff {cs : List Char} :
    isDigits cs = true ↔ cs ≠ [] ∧ ∀ c ∈ cs, c.isDigit = true := by
  rw [isDigits, Bool.and_eq_true, Bool.not_eq_true', List.isEmpty_eq_false_iff, List.all_eq_true]

theorem isDigits_toDigits (n : Nat) : isDigits (Nat.toDigits 10 n) = true :=
  isDigits_iff.2 ⟨Nat.toDigits_ne_nil, fun _ hc => isDigit_of_mem_toDigits hc⟩

theorem digitsValue_toDigits (n : Nat) : digitsValue (Nat.toDigits 10 n) = n :=
  calc digitsValue (Nat.toDigits 10 n)
    _ = Nat.ofDigitChars 10 (Nat.toDigits 10 n) 0 := Nat.ofDigitChars_eq_foldl.symm
    _ = n := Nat.ofDigitChars_ten_toDigits

theorem natural?_of_isDigits {cs : List Char} (hcs : isDigits cs = true) :
    natural? cs = some (digitsValue cs) := by
  unfold natural?
  split
  · -- A sign is no digit.
    cases hcs
  · exact if_pos hcs

theorem isBlank_of_isDigit {c : Char} (hc : c.isDigit = true) : isBlank c = false := by
  have hrange : 48 ≤ c.toNat ∧ c.toNat ≤ 57 := by
    simpa [Char.isDigit, UInt32.le_iff_toNat_le] using hc
  simp only [isBlank, Bool.or_eq_false_iff, Bool.and_eq_false_iff, decide_eq_false_iff_not,
    beq_eq_false_iff_ne]
  omega

theorem trimChars_eq_self {cs : List Char} (hhead : ∀ c ∈ cs.head?, isBlank c = false)
    (hlast : ∀ c ∈ cs.getLast?, isBlank c = false) : trimChars cs = cs := by
  have hdrop : ∀ ds : List Char, (∀ c ∈ ds.head?, isBlank c = false) →
      ds.dropWhile isBlank = ds := by
    intro ds hds
    cases ds with
    | nil => rfl
    | cons d ds => exact List.dropWhile_cons_of_neg (by rw [hds d rfl]; exact Bool.false_ne_true)
  rw [trimChars, hdrop cs hhead, hdrop cs.reverse (by rwa [List.head?_reverse]),
    List.reverse_reverse]

theorem trim_toString (n : Nat) : trim (toString n) = toString n := by
  have hdigits : ∀ c ∈ (toString n).toList, isBlank c = false := by
    rw [toList_toString]
    exact fun c hc => isBlank_of_isDigit (isDigit_of_mem_toDigits hc)
  rw [trim, trimChars_eq_self (fun c hc => hdigits c (List.mem_of_mem_head? hc))
    (fun c hc => hdigits c (List.mem_of_mem_getLast? hc)), String.ofList_toList]

/-- The text of an integer begins with a sign or a digit. -/
theorem exists_toList_toString (n : Int) :
    ∃ c cs, (toString n).toList = c :: cs ∧ (c = '-' ∨ c.isDigit = true) := by
  cases n with
  | ofNat n =>
    obtain ⟨c, cs, hdigits⟩ := List.exists_cons_of_ne_nil (Nat.toDigits_ne_nil (n := n) (b := 10))
    refine ⟨c, cs, (toList_toString n).trans hdigits, .inr ?_⟩
    exact isDigit_of_mem_toDigits (hdigits ▸ List.mem_cons_self)
  | negSucc n => exact ⟨'-', _, toList_toString_negSucc n, .inl rfl⟩

theorem uint32?_toString (i : UInt32) : uint32? (toString i.toNat) = some i := by
  have hle : i.toNat ≤ 4294967295 := Nat.le_of_lt_succ i.toNat_lt
  rw [uint32?, naturalUpTo?, toList_toString, natural?_of_isDigits (isDigits_toDigits _),
    digitsValue_toDigits, Option.filter_some, if_pos (decide_eq_true hle), Option.map_some,
    UInt32.ofNat_toNat]

/-- No number is written with a zero in front of other digits. -/
theorem head?_toDigits {n : Nat} (hn : n ≠ 0) : (Nat.toDigits 10 n).head? ≠ some '0' := by
  induction n using Nat.strongRecOn with
  | ind n ih =>
    by_cases hlt : n < 10
    · rw [Nat.toDigits_of_lt_base hlt, List.head?_singleton, ne_eq, Option.some_inj,
        Nat.digitChar_eq_zero]
      exact hn
    · -- The digits in front of the last one are those of the tenth part.
      have hfront : n / 10 ≠ 0 := by omega
      rw [Nat.toDigits_of_base_le (by decide) (Nat.le_of_not_lt hlt),
        List.head?_append, List.head?_eq_some_head Nat.toDigits_ne_nil, Option.some_or,
        ← List.head?_eq_some_head]
      exact ih (n / 10) (by omega) hfront

end Text

namespace Json

open Text

/-- A whole number without a leading zero is read to its end. -/
theorem readNumber_whole (negative : Bool) {cs : List Char} (hcs : isDigits cs = true)
    (hleads : cs.head? = some '0' → cs.length ≤ 1) :
    readNumber ((if negative then ['-'] else []) ++ cs) =
      some (ofLiteral negative cs [] none, []) := by
  obtain ⟨hne, hdigits⟩ := isDigits_iff.1 hcs
  have htake : cs.takeWhile Char.isDigit = cs := List.takeWhile_eq_self_iff.2 hdigits
  have hdrop : cs.dropWhile Char.isDigit = [] := List.dropWhile_eq_nil_iff.2 hdigits
  have hempty : cs.isEmpty = false := List.isEmpty_eq_false_iff.2 hne
  have hleads' : ¬ (cs.head? = some '0' ∧ 1 < cs.length) :=
    fun h => absurd (hleads h.1) (Nat.not_le.2 h.2)
  -- A sign would be taken off first, and by `hsign` there is none among the digits.
  have hsign : ∀ rest, cs ≠ '-' :: rest := by
    intro rest heq
    exact absurd (hdigits '-' (heq ▸ List.mem_cons_self ..)) (by decide)
  unfold readNumber
  cases negative <;> simp [htake, hdrop, hempty, hleads']

theorem readNumber_toDigits (negative : Bool) (n : Nat) :
    readNumber ((if negative then ['-'] else []) ++ Nat.toDigits 10 n) =
      some (ofLiteral negative (Nat.toDigits 10 n) [] none, []) := by
  refine readNumber_whole negative (isDigits_toDigits n) fun hhead => ?_
  obtain rfl : n = 0 := Classical.not_not.1 fun hn => head?_toDigits hn hhead
  exact Nat.le_refl 1

/-- A word is read from its decimal text. -/
theorem readNumber_toString {n : Int} (hge : -9223372036854775808 ≤ n)
    (hle : n ≤ 18446744073709551615) : readNumber (toString n).toList = some (.int n, []) := by
  cases n with
  | ofNat n =>
    have hn : n ≤ greatestUInt64 := Int.ofNat_le.1 hle
    have hliteral : ofLiteral false (Nat.toDigits 10 n) [] none = .int n := by
      rw [ofLiteral, digitsValue_toDigits]
      simp [hn]
    show readNumber (toString n).toList = some (.int n, [])
    rw [toList_toString, ← hliteral]
    exact readNumber_toDigits false n
  | negSucc n =>
    have hn : n + 1 ≤ greatestInt64 + 1 := by unfold greatestInt64; omega
    have hliteral : ofLiteral true (Nat.toDigits 10 (n + 1)) [] none = .int (Int.negSucc n) := by
      rw [ofLiteral, digitsValue_toDigits]
      simp [hn, Int.negSucc_eq]
    rw [toList_toString_negSucc, ← hliteral]
    exact readNumber_toDigits true (n + 1)

theorem asUInt32_int (origin : Origin) (i : UInt32) :
    asUInt32 origin (.int i.toNat) = .ok i := by
  have hlt := i.toNat_lt
  have hrange : (0 : Int) ≤ i.toNat ∧ (i.toNat : Int) ≤ 4294967295 := by omega
  rw [asUInt32, asIntBetween, if_pos hrange, Except.map, Int.toNat_natCast, UInt32.ofNat_toNat]

theorem Key.asUInt32_toString (i : UInt32) : (Key.ofText (toString i.toNat)).asUInt32 = .ok i := by
  have hlt := i.toNat_lt
  have hread : readNumber (toString i.toNat).toList = some (.int i.toNat, []) :=
    readNumber_toString (n := i.toNat) (by omega) (by omega)
  unfold Key.asUInt32
  rw [Key.ofText, Option.bind_some, hread]
  show (Json.asUInt32 .text (.int i.toNat)).bind _ = _
  rw [asUInt32_int]
  rfl

end Json
end ConstraintGraph
