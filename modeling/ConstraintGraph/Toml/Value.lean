import ConstraintGraph.Binary64.Reader
import ConstraintGraph.Text.Basic

/-!
Values of TOML, and those among them that are written as one word: booleans, integers in four bases,
floats, dates and times. No setting takes a float, a date or a time, so the reader keeps nothing of
these but that the word is a good one.
-/

namespace ConstraintGraph.Toml

inductive Value where
  | text (s : String)
  | integer (n : Int)
  | boolean (b : Bool)
  | float
  | moment
  | list (items : List Value)
  -- Keys, as paths of names, with their values.
  | table (entries : List (List String × Value))
deriving Inhabited

def digits? (isDigit : Char → Bool) (cs : List Char) : Option (List Char) :=
  let groups := cs.splitOn '_'
  if groups.all (fun g => !g.isEmpty && g.all isDigit) then some groups.flatten else none

def wholeDigits? (cs : List Char) : Option (List Char) :=
  (digits? Char.isDigit cs).filter fun ds => ds.length = 1 ∨ ds.head? ≠ some '0'

def splitSign : List Char → Bool × List Char
  | '-' :: rest => (true, rest)
  | '+' :: rest => (false, rest)
  | cs => (false, cs)

def integer? (negative : Bool) (n : Nat) : Option Value :=
  if negative then if n ≤ Text.greatestInt64 + 1 then some (.integer (-n)) else none
  else if n ≤ Text.greatestInt64 then some (.integer n) else none

def valueInBase (base : Nat) (ds : List Char) : Nat :=
  ds.foldl (fun n c => base * n + (Text.hexDigit? c).getD 0) 0

def isDigitOf (base : Nat) (c : Char) : Bool := (Text.hexDigit? c).any (· < base)

def integerInBase? (base : Nat) (cs : List Char) : Option Value :=
  (digits? (isDigitOf base) cs).bind fun ds => integer? false (valueInBase base ds)

def integerWord? (cs : List Char) : Option Value :=
  match cs with
  | '0' :: 'x' :: rest => integerInBase? 16 rest
  | '0' :: 'o' :: rest => integerInBase? 8 rest
  | '0' :: 'b' :: rest => integerInBase? 2 rest
  | cs =>
    let (negative, cs) := splitSign cs
    (wholeDigits? cs).bind fun ds => integer? negative (Text.digitsValue ds)

def exponent? (cs : List Char) : Option Int :=
  let (negative, cs) := splitSign cs
  (digits? Char.isDigit cs).map fun ds =>
    if negative then -(Text.digitsValue ds : Int) else Text.digitsValue ds

/-- A float: a decimal integer with a fraction, an exponent or both, or the name of an infinity or a
NaN. A positive numeral must not round to infinity. -/
def floatWord? (cs : List Char) : Option Value := do
  let (negative, cs) := splitSign cs
  if cs = "inf".toList ∨ cs = "nan".toList then return .float
  let isMark (c : Char) : Bool := c == 'e' || c == 'E'
  let mantissa := cs.takeWhile (!isMark ·)
  let whole := mantissa.takeWhile (· != '.')
  let wholeDigits ← wholeDigits? whole
  let decimals ←
    match mantissa.drop whole.length with
    | [] => some []
    | _ :: decimals => digits? Char.isDigit decimals
  let exponent ←
    match cs.drop mantissa.length with
    | [] => if decimals.isEmpty then none else some 0
    | _ :: exponent => exponent? exponent
  let x := Binary64.ofDecimal negative (wholeDigits ++ decimals) (exponent - decimals.length)
  if x = Binary64.infinity then none else return .float

def readTwoDigits (least greatest : Nat) : List Char → Option (Nat × List Char)
  | a :: b :: rest =>
    let n := Text.digitsValue [a, b]
    if a.isDigit ∧ b.isDigit ∧ least ≤ n ∧ n ≤ greatest then some (n, rest) else none
  | _ => none

def readMark (mark : Char) : List Char → Option (List Char)
  | c :: rest => if c = mark then some rest else none
  | [] => none

def daysIn (year month : Nat) : Nat :=
  if month = 2 then
    if year % 4 = 0 ∧ (year % 100 ≠ 0 ∨ year % 400 = 0) then 29 else 28
  else if month = 4 ∨ month = 6 ∨ month = 9 ∨ month = 11 then 30
  else 31

def readDate (cs : List Char) : Option (List Char) := do
  let year := cs.take 4
  if year.length ≠ 4 ∨ !year.all Char.isDigit then none
  let cs ← readMark '-' (cs.drop 4)
  let (month, cs) ← readTwoDigits 1 12 cs
  let cs ← readMark '-' cs
  let (_, cs) ← readTwoDigits 1 (daysIn (Text.digitsValue year) month) cs
  return cs

def readTime (cs : List Char) : Option (List Char) := do
  let (_, cs) ← readTwoDigits 0 23 cs
  let cs ← readMark ':' cs
  let (_, cs) ← readTwoDigits 0 59 cs
  let cs ← readMark ':' cs
  let (_, cs) ← readTwoDigits 0 60 cs
  match cs with
  | '.' :: d :: rest => if d.isDigit then some (rest.dropWhile Char.isDigit) else none
  | cs => some cs

def isOffset : List Char → Bool
  | [] => true
  | ['Z'] => true
  | ['z'] => true
  | c :: rest =>
    (c == '+' || c == '-') &&
      (do
        let (_, cs) ← readTwoDigits 0 23 rest
        let cs ← readMark ':' cs
        readTwoDigits 0 59 cs) matches some (_, [])

def isZonedTime (cs : List Char) : Bool := (readTime cs).any isOffset

def momentWord? (cs : List Char) : Option Value :=
  let isMoment : Bool :=
    match readDate cs with
    | some [] => true
    | some ('T' :: rest) => isZonedTime rest
    | some ('t' :: rest) => isZonedTime rest
    | some _ => false
    | none => readTime cs == some []
  if isMoment then some .moment else none

def wordValue? (cs : List Char) : Option Value :=
  if cs = "true".toList then some (.boolean true)
  else if cs = "false".toList then some (.boolean false)
  else integerWord? cs <|> floatWord? cs <|> momentWord? cs

def isWordChar (c : Char) : Bool :=
  c.isAlphanum || c == '_' || c == '+' || c == '-' || c == '.' || c == ':'

/-- A value written as one word, and the text after it. A date may be joined to its time by a
blank. -/
def readWord (cs : List Char) : Option (Value × List Char) :=
  let word := cs.takeWhile isWordChar
  let rest := cs.dropWhile isWordChar
  match readDate word, rest with
  | some [], ' ' :: more =>
    if isZonedTime (more.takeWhile isWordChar) then some (.moment, more.dropWhile isWordChar)
    else some (.moment, rest)
  | _, _ => (wordValue? word).map (·, rest)

end ConstraintGraph.Toml
