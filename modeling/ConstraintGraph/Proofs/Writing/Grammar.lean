import ConstraintGraph.Json.Basic
import ConstraintGraph.Text.Basic
import Mathlib.Data.List.Forall2

/-!
The JSON grammar, as a relation between a value and the texts that spell it. It is stated apart from
the reader and the writer, so that a text can be called a document by what it is and not by how it
came about. Of the spellings of a character beyond 16 bits by two escapes nothing is said.
-/

namespace ConstraintGraph.Json.Grammar

open Text

def Gap (s : String) : Prop := ∀ c ∈ s.toList, c = ' ' ∨ c = '\t' ∨ c = '\n' ∨ c = '\r'

def shortEscapes : List (Char × Char) :=
  [('\"', '\"'), ('\\', '\\'), ('/', '/'), ('b', '\x08'), ('f', '\x0c'), ('n', '\n'), ('r', '\r'),
    ('t', '\t')]

inductive Letter : Char → List Char → Prop
  | plain {c : Char} : 0x20 ≤ c.toNat → c ≠ '\"' → c ≠ '\\' → Letter c [c]
  | short {l c : Char} : (l, c) ∈ shortEscapes → Letter c ['\\', l]
  | code {c : Char} {digits : List Char} : digits.length = 4 → hexValue? digits = some c.toNat →
    Letter c ('\\' :: 'u' :: digits)

inductive Letters : List Char → List Char → Prop
  | nil : Letters [] []
  | cons {c : Char} {cs l ls : List Char} : Letter c l → Letters cs ls → Letters (c :: cs) (l ++ ls)

inductive Quoted : String → String → Prop
  | mk {s : String} {body : List Char} : Letters s.toList body →
    Quoted s (String.ofList ('\"' :: (body ++ ['\"'])))

structure Whole (cs : List Char) : Prop where
  isDigits : isDigits cs = true
  leading : cs.head? = some '0' → cs = ['0']

inductive Fraction : List Char → Prop
  | absent : Fraction []
  | digits {cs : List Char} : isDigits cs = true → Fraction ('.' :: cs)

inductive Exponent : List Char → Prop
  | absent : Exponent []
  | digits {mark : Char} {sign cs : List Char} : mark ∈ ['e', 'E'] → sign ∈ [[], ['+'], ['-']] →
    isDigits cs = true → Exponent (mark :: (sign ++ cs))

inductive Integer : Int → String → Prop
  | nonneg {cs : List Char} : Whole cs → Integer (digitsValue cs) (String.ofList cs)
  | negative {cs : List Char} : Whole cs → Integer (-digitsValue cs) (String.ofList ('-' :: cs))

inductive Numeral : String → Prop
  | mk {sign whole fraction exponent : List Char} : sign ∈ [[], ['-']] → Whole whole →
    Fraction fraction → Exponent exponent →
    Numeral (String.ofList (sign ++ whole ++ fraction ++ exponent))

inductive Separated {α : Type} (Spells : α → String → Prop) : List α → String → Prop
  | one {x : α} {t : String} : Spells x t → Separated Spells [x] t
  | cons {x : α} {xs : List α} {t ts : String} : Spells x t → Separated Spells xs ts →
    Separated Spells (x :: xs) (t ++ "," ++ ts)

mutual

/-- The spellings of a value. Which numeral stands for a finite double is left open; for another one
stands `null`. -/
inductive Value : Json → String → Prop
  | null : Value .null "null"
  | bool (b : Bool) : Value (.bool b) (if b then "true" else "false")
  | int {n : Int} {t : String} : Integer n t → Value (.int n) t
  | double {x : Binary64} {t : String} : x.isFinite = true → Numeral t → Value (.double x) t
  | notFinite {x : Binary64} : x.isFinite = false → Value (.double x) "null"
  | string {s t : String} : Quoted s t → Value (.string s) t
  | emptyArray {gap : String} : Gap gap → Value (.array []) ("[" ++ gap ++ "]")
  | array {items : List Json} {t : String} : Separated Element items t →
    Value (.array items) ("[" ++ t ++ "]")
  | emptyObject {gap : String} : Gap gap → Value (.object []) ("\x7b" ++ gap ++ "\x7d")
  | object {members : List (String × Json)} {t : String} : Separated Member members t →
    Value (.object members) ("\x7b" ++ t ++ "\x7d")

inductive Element : Json → String → Prop
  | mk {j : Json} {before t behind : String} : Gap before → Value j t → Gap behind →
    Element j (before ++ t ++ behind)

inductive Member : String × Json → String → Prop
  | mk {key : String} {j : Json} {before q behind t : String} : Gap before → Quoted key q →
    Gap behind → Element j t → Member (key, j) (before ++ q ++ behind ++ ":" ++ t)

end

def Document (j : Json) (text : String) : Prop := Element j text

end ConstraintGraph.Json.Grammar
