import ConstraintGraph.Proofs.Reading.Numerals
import Mathlib.Data.List.DropRight
import Mathlib.Data.Nat.Digits.Defs

namespace ConstraintGraph.Text

/-- One text is the other with blanks put at its ends, and the other has none there. -/
structure Trims (s t : String) : Prop where
  split : ∃ before behind : List Char, s.toList = before ++ t.toList ++ behind ∧
    (∀ c ∈ before, isBlank c = true) ∧ ∀ c ∈ behind, isBlank c = true
  head : ∀ c ∈ t.toList.head?, isBlank c = false
  last : ∀ c ∈ t.toList.getLast?, isBlank c = false

/-- The number that a row of decimal digits denotes: the last one counts ones, the one in front of
it tens, and so on. -/
def placeValue (cs : List Char) : Nat :=
  Nat.ofDigits 10 (cs.reverse.map fun c => c.toNat - '0'.toNat)

inductive SpellsNatural : List Char → Nat → Prop
  | digits {cs : List Char} (hne : cs ≠ []) (hcs : ∀ c ∈ cs, c.isDigit = true) :
    SpellsNatural cs (placeValue cs)
  | plus {cs : List Char} (hne : cs ≠ []) (hcs : ∀ c ∈ cs, c.isDigit = true) :
    SpellsNatural ('+' :: cs) (placeValue cs)

inductive SpellsInteger : List Char → Int → Prop
  | unsigned {cs : List Char} {n : Nat} (h : SpellsNatural cs n) : SpellsInteger cs n
  | minus {cs : List Char} (hne : cs ≠ []) (hcs : ∀ c ∈ cs, c.isDigit = true) :
    SpellsInteger ('-' :: cs) (-placeValue cs)

section Trims

variable {s t : String} {before behind cs : List Char}

theorem trimChars_append (hbefore : ∀ c ∈ before, isBlank c = true)
    (hbehind : ∀ c ∈ behind, isBlank c = true) :
    trimChars (before ++ cs ++ behind) = trimChars cs := by
  have hreverse : ∀ c ∈ behind.reverse, isBlank c = true :=
    fun c hc => hbehind c (List.mem_reverse.1 hc)
  have hnil : behind.dropWhile isBlank = [] := List.dropWhile_eq_nil_iff.2 hbehind
  rw [trimChars, trimChars, List.append_assoc, List.dropWhile_append_of_pos hbefore,
    List.dropWhile_append]
  split
  · rename_i hempty
    rw [List.isEmpty_iff.1 hempty, hnil]
  · rw [List.reverse_append, List.dropWhile_append_of_pos hreverse]

/-- What is left of a text is found between its blanks. -/
theorem trims_trim (s : String) : Trims s (trim s) := by
  let front := s.toList.dropWhile isBlank
  have htrim : (trim s).toList = front.rdropWhile isBlank := String.toList_ofList
  have hfront : front.rdropWhile isBlank ++ front.rtakeWhile isBlank = front :=
    List.rdropWhile_append_rtakeWhile
  refine ⟨⟨s.toList.takeWhile isBlank, front.rtakeWhile isBlank, ?_, ?_, ?_⟩, ?_, ?_⟩
  · rw [htrim, List.append_assoc, hfront, List.takeWhile_append_dropWhile]
  · exact fun c hc => List.mem_takeWhile_imp hc
  · exact fun c hc => List.mem_rtakeWhile_imp hc
  · intro c hc
    have hhead : front.head? = some c := by
      rw [← hfront, ← htrim, List.head?_append, hc, Option.some_or]
    have hnot := List.head?_dropWhile_not isBlank s.toList
    rw [hhead] at hnot
    exact hnot
  · intro c hc
    rw [htrim] at hc
    obtain ⟨hne, rfl⟩ := List.mem_getLast?_eq_getLast hc
    exact Bool.eq_false_of_not_eq_true (List.rdropWhile_last_not isBlank front hne)

/-- Trimming leaves what has no blanks at its ends. -/
theorem trim_eq_iff : trim s = t ↔ Trims s t := by
  constructor
  · rintro rfl
    exact trims_trim s
  · rintro ⟨⟨before, behind, hsplit, hbefore, hbehind⟩, hhead, hlast⟩
    rw [trim, hsplit, trimChars_append hbefore hbehind, trimChars_eq_self hhead hlast,
      String.ofList_toList]

end Trims

section Numerals

variable {cs : List Char}

/-- Reading from the left and counting the places come to the same. -/
theorem digitsValue_eq_placeValue (cs : List Char) : digitsValue cs = placeValue cs := by
  induction cs using List.reverseRecOn with
  | nil => rfl
  | append_singleton cs c ih =>
    calc digitsValue (cs ++ [c])
      _ = 10 * digitsValue cs + (c.toNat - 48) := by
        rw [digitsValue, List.foldl_append]
        rfl
      _ = placeValue (cs ++ [c]) := by
        rw [ih, placeValue, placeValue, List.reverse_append]
        exact Nat.add_comm _ _

/-- Exactly the spellings of a natural number are read as that number. -/
theorem natural?_eq_some_iff {n : Nat} : natural? cs = some n ↔ SpellsNatural cs n := by
  constructor
  · intro h
    unfold natural? at h
    split at h
    · rename_i ds
      split at h
      · rename_i hds
        obtain ⟨hne, hds⟩ := isDigits_iff.1 hds
        obtain rfl := Option.some.inj h
        exact digitsValue_eq_placeValue ds ▸ .plus hne hds
      · cases h
    · split at h
      · rename_i hcs
        obtain ⟨hne, hcs⟩ := isDigits_iff.1 hcs
        obtain rfl := Option.some.inj h
        exact digitsValue_eq_placeValue cs ▸ .digits hne hcs
      · cases h
  · intro h
    cases h with
    | digits hne hcs =>
      rw [natural?_of_isDigits (isDigits_iff.2 ⟨hne, hcs⟩), digitsValue_eq_placeValue]
    | plus hne hcs =>
      rw [natural?, if_pos (isDigits_iff.2 ⟨hne, hcs⟩), digitsValue_eq_placeValue]

/-- A numeral is read as an integer exactly if it spells it. -/
theorem integer?_eq_some_iff {n : Int} : integer? cs = some n ↔ SpellsInteger cs n := by
  constructor
  · intro h
    unfold integer? at h
    split at h
    · rename_i ds
      split at h
      · rename_i hds
        obtain ⟨hne, hds⟩ := isDigits_iff.1 hds
        obtain rfl := Option.some.inj h
        exact digitsValue_eq_placeValue ds ▸ .minus hne hds
      · cases h
    · obtain ⟨m, hm, rfl⟩ := Option.map_eq_some_iff.1 h
      exact .unsigned (natural?_eq_some_iff.1 hm)
  · intro h
    cases h with
    | unsigned h =>
      -- A minus begins no natural number.
      have hunsigned : integer? cs = (natural? cs).map Int.ofNat := by
        cases h with
        | digits hne hcs =>
          unfold integer?
          split
          · exact absurd (hcs '-' List.mem_cons_self) (by decide)
          · rfl
        | plus hne hcs => rfl
      rw [hunsigned, natural?_eq_some_iff.2 h]
      rfl
    | minus hne hcs =>
      rw [integer?, if_pos (isDigits_iff.2 ⟨hne, hcs⟩), digitsValue_eq_placeValue]

theorem uint32?_eq_some_iff {s : String} {i : UInt32} :
    uint32? s = some i ↔ SpellsNatural s.toList i.toNat := by
  rw [uint32?, naturalUpTo?, Option.map_eq_some_iff, ← natural?_eq_some_iff]
  constructor
  · rintro ⟨n, hn, rfl⟩
    obtain ⟨hn, hle⟩ := Option.filter_eq_some_iff.1 hn
    rw [UInt32.toNat_ofNat_of_lt' (Nat.lt_succ_of_le (of_decide_eq_true hle))]
    exact hn
  · intro h
    refine ⟨i.toNat, Option.filter_eq_some_iff.2 ⟨h, ?_⟩, UInt32.ofNat_toNat⟩
    exact decide_eq_true (Nat.le_of_lt_succ i.toNat_lt)

/-- Exactly the spellings of an integer are read as that integer, if it fits in 64 bits. -/
theorem int64?_eq_some_iff {s : String} {n : Int64} :
    int64? s = some n ↔ SpellsInteger s.toList n.toInt := by
  rw [int64?, Option.bind_eq_some_iff, ← integer?_eq_some_iff]
  constructor
  · rintro ⟨m, hm, hn⟩
    split at hn
    · rename_i hrange
      obtain rfl := Option.some.inj hn
      rw [Int64.toInt_ofInt_of_le hrange.1 (Int.lt_add_one_of_le hrange.2)]
      exact hm
    · cases hn
  · intro h
    exact ⟨n.toInt, h, by rw [if_pos ⟨n.minValue_le_toInt, n.toInt_le⟩, Int64.ofInt_toInt]⟩

theorem SpellsInteger.isBlank_eq_false {n : Int} (h : SpellsInteger cs n) :
    ∀ c ∈ cs, isBlank c = false := by
  have hsigned : ∀ (sign : Char) (ds : List Char), isBlank sign = false →
      (∀ c ∈ ds, c.isDigit = true) → ∀ c ∈ sign :: ds, isBlank c = false := by
    intro sign ds hsign hds
    exact List.forall_mem_cons.2 ⟨hsign, fun c hc => isBlank_of_isDigit (hds c hc)⟩
  cases h with
  | unsigned h =>
    cases h with
    | digits hne hcs => exact fun c hc => isBlank_of_isDigit (hcs c hc)
    | plus hne hcs => exact hsigned '+' _ rfl hcs
  | minus hne hcs => exact hsigned '-' _ rfl hcs

/-- Every integer is spelled by its decimal text. -/
theorem spellsInteger_toString (n : Int) : SpellsInteger (toString n).toList n := by
  have hdigits : ∀ m c, c ∈ Nat.toDigits 10 m → c.isDigit = true :=
    fun m c hc => isDigit_of_mem_toDigits hc
  have hvalue : ∀ m, placeValue (Nat.toDigits 10 m) = m := fun m => by
    rw [← digitsValue_eq_placeValue, digitsValue_toDigits]
  cases n with
  | ofNat m =>
    have hspells := SpellsNatural.digits Nat.toDigits_ne_nil (hdigits m)
    rw [hvalue, ← toList_toString] at hspells
    exact .unsigned hspells
  | negSucc m =>
    have hspells := SpellsInteger.minus Nat.toDigits_ne_nil (hdigits (m + 1))
    rw [hvalue, ← toList_toString_negSucc] at hspells
    exact hspells

end Numerals

end ConstraintGraph.Text
