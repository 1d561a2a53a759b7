import ConstraintGraph.Json.Writer
import ConstraintGraph.Proofs.Writing.Numerals

namespace ConstraintGraph.Json

open Grammar Text

theorem hexValue?_hexDigits (n : Fin 32) :
    hexValue? ['0', '0', hexDigit (n / 16), hexDigit (n % 16)] = some n.val := by
  decide +revert

theorem letter_escape (c : Char) : Letter c (escape c) := by
  unfold escape
  split
  case h_8 hquote hbackslash _ _ _ _ _ =>
    -- The control characters without a letter of their own are written by their codes.
    by_cases hcontrol : c.toNat < 0x20
    · rw [if_pos hcontrol]
      exact .code rfl (hexValue?_hexDigits ⟨c.toNat, hcontrol⟩)
    · rw [if_neg hcontrol]
      exact .plain (Nat.le_of_not_lt hcontrol) hquote hbackslash
  all_goals exact .short (by decide)

theorem letters_escape (cs : List Char) : Letters cs (cs.flatMap escape) := by
  induction cs with
  | nil => exact .nil
  | cons c cs ih => exact .cons (letter_escape c) ih

/-- A string is written with all that needs it escaped. -/
theorem quoted_quote (s : String) : Quoted s (quote s) := .mk (letters_escape s.toList)

namespace Grammar

theorem gap_empty : Gap "" := by
  intro c hc
  cases hc

theorem gap_space : Gap " " := fun _ hc => .inl (List.mem_singleton.1 hc)

theorem gap_append {s t : String} (hs : Gap s) (ht : Gap t) : Gap (s ++ t) := by
  intro c hc
  rw [String.toList_append, List.mem_append] at hc
  exact hc.elim (hs c) (ht c)

theorem gap_newLine (level : Nat) : Gap (newLine level) := by
  intro c hc
  rw [newLine, String.toList_ofList] at hc
  rcases List.mem_cons.1 hc with rfl | hc
  · exact .inr (.inr (.inl rfl))
  · exact .inl (List.eq_of_mem_replicate hc)

theorem Element.append_gap {j : Json} {t gap : String} (ht : Element j t) (hgap : Gap gap) :
    Element j (t ++ gap) := by
  obtain ⟨hbefore, hvalue, hbehind⟩ := ht
  rw [String.append_assoc]
  exact .mk hbefore hvalue (gap_append hbehind hgap)

theorem Member.append_gap {m : String × Json} {t gap : String} (ht : Member m t) (hgap : Gap gap) :
    Member m (t ++ gap) := by
  obtain ⟨hbefore, hkey, hbehind, hvalue⟩ := ht
  rw [String.append_assoc]
  exact .mk hbefore hkey hbehind (hvalue.append_gap hgap)

theorem Value.element {j : Json} {t : String} (ht : Value j t) : Element j t := by
  have hpadded := Element.mk gap_empty ht gap_empty
  rwa [String.empty_append, String.append_empty] at hpadded

section Separated

variable {α : Type} {Spells : α → String → Prop}

theorem Separated.append {xs : List α} {t gap : String}
    (happend : ∀ {x s}, Spells x s → Spells x (s ++ gap)) (ht : Separated Spells xs t) :
    Separated Spells xs (t ++ gap) := by
  -- What is appended comes behind the last text.
  induction ht with
  | one hx => exact .one (happend hx)
  | cons hx _ ih =>
    rw [String.append_assoc]
    exact .cons hx ih

theorem separated_intercalate {x : α} {xs : List α} {t : String} {ts : List String}
    (ht : Spells x t) (hts : List.Forall₂ Spells xs ts) :
    Separated Spells (x :: xs) (String.intercalate "," (t :: ts)) := by
  induction hts generalizing x t with
  | nil => exact .one ht
  | cons ht' _ ih =>
    rw [String.intercalate_cons_cons]
    exact .cons ht (ih ht')

end Separated

theorem value_array {items : List Json} {ts : List String} {gap : String}
    (hts : List.Forall₂ Element items ts) (hgap : Gap gap) :
    Value (.array items) ("[" ++ String.intercalate "," ts ++ gap ++ "]") := by
  cases hts with
  | nil => exact .emptyArray hgap
  | cons ht hts =>
    have hitems := (separated_intercalate ht hts).append fun h => h.append_gap hgap
    simpa only [String.append_assoc] using Value.array hitems

theorem value_object {members : List (String × Json)} {ts : List String} {gap : String}
    (hts : List.Forall₂ Member members ts) (hgap : Gap gap) :
    Value (.object members) ("\x7b" ++ String.intercalate "," ts ++ gap ++ "\x7d") := by
  cases hts with
  | nil => exact .emptyObject hgap
  | cons ht hts =>
    have hmembers := (separated_intercalate ht hts).append fun h => h.append_gap hgap
    simpa only [String.append_assoc] using Value.object hmembers

end Grammar

theorem value_double (x : Binary64) : Value (.double x) (scalarText (.double x)) := by
  rw [scalarText]
  by_cases hx : x.isFinite = true
  · rw [if_pos hx]
    exact .double hx x.numeral_jsonText
  · rw [if_neg hx]
    exact .notFinite (eq_false_of_ne_true hx)

mutual

/-- The text on one line spells the value. -/
theorem value_compact : (j : Json) → Value j j.compact
  | .null => .null
  | .bool false => .bool false
  | .bool true => .bool true
  | .int n => .int (integer_toString n)
  | .double x => value_double x
  | .string s => .string (quoted_quote s)
  | .array items => by
    have hitems := value_array (elements_compactItems items) gap_empty
    rwa [String.append_empty] at hitems
  | .object members => by
    have hmembers := value_object (members_compactMembers members) gap_empty
    rwa [String.append_empty] at hmembers

theorem elements_compactItems :
    (items : List Json) → List.Forall₂ Element items (compactItems items)
  | [] => .nil
  | x :: xs => .cons (value_compact x).element (elements_compactItems xs)

theorem members_compactMembers :
    (members : List (String × Json)) → List.Forall₂ Member members (compactMembers members)
  | [] => .nil
  | (k, v) :: ms => by
    have hmember := Member.mk gap_empty (quoted_quote k) gap_empty (value_compact v).element
    rw [String.empty_append, String.append_empty] at hmember
    exact .cons hmember (members_compactMembers ms)

end

mutual

/-- The text over several lines spells the value on every level. -/
theorem value_pretty (level : Nat) : (j : Json) → Value j (j.pretty level)
  | .null => .null
  | .bool false => .bool false
  | .bool true => .bool true
  | .int n => .int (integer_toString n)
  | .double x => value_double x
  | .string s => .string (quoted_quote s)
  -- Inside an empty array or object there is no line of its own.
  | .array [] => .emptyArray gap_empty
  | .array (x :: xs) => value_array (elements_prettyItems (level + 1) (x :: xs)) (gap_newLine level)
  | .object [] => .emptyObject gap_empty
  | .object (m :: ms) =>
    value_object (members_prettyMembers (level + 1) (m :: ms)) (gap_newLine level)

theorem elements_prettyItems (level : Nat) :
    (items : List Json) → List.Forall₂ Element items (prettyItems level items)
  | [] => .nil
  | x :: xs => by
    have hitem := Element.mk (gap_newLine level) (value_pretty level x) gap_empty
    rw [String.append_empty] at hitem
    exact .cons hitem (elements_prettyItems level xs)

theorem members_prettyMembers (level : Nat) :
    (members : List (String × Json)) → List.Forall₂ Member members (prettyMembers level members)
  | [] => .nil
  | (k, v) :: ms => by
    have hvalue := Element.mk gap_space (value_pretty level v) gap_empty
    have hmember := Member.mk (gap_newLine level) (quoted_quote k) gap_empty hvalue
    have hcolon : ": " = ":" ++ " " := rfl
    rw [prettyMembers, hcolon]
    refine .cons ?_ (members_prettyMembers level ms)
    simpa only [String.append_assoc, String.append_empty, String.empty_append] using hmember

end

end ConstraintGraph.Json
