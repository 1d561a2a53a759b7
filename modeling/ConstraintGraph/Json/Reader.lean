import ConstraintGraph.Binary64.Rounding
import ConstraintGraph.Json.Outline
import ConstraintGraph.Text.Basic

/-!
Reading JSON text. An unpaired surrogate, a number beyond the finite doubles, and an array or object
nested more than 127 deep follow the grammar but cannot be read. A text that leaves the grammar is
shown up to that place. `Json.ofText?` is for texts of which everything is wanted. Members are kept
as they stand, repeated keys included.
-/

namespace ConstraintGraph.Json

def greatestDepth : Nat := 127

def skipBlanks (cs : List Char) : List Char :=
  cs.dropWhile fun c => c == ' ' || c == '\n' || c == '\t' || c == '\r'

def escaped? : Char → Option Char
  | '\"' => some '\"'
  | '\\' => some '\\'
  | '/' => some '/'
  | 'b' => some '\x08'
  | 'f' => some '\x0c'
  | 'n' => some '\n'
  | 'r' => some '\r'
  | 't' => some '\t'
  | _ => none

/-- The rest of a string after its opening quote: the characters in reverse order behind `acc`, and
the text after the closing quote. -/
def readString (acc : Option (List Char)) : List Char → Option (Option (List Char) × List Char)
  | [] => none
  | '\"' :: rest => some (acc, rest)
  | '\\' :: 'u' :: a :: b :: c :: d :: rest =>
    match Text.hexValue? [a, b, c, d] with
    | none => none
    | some unit =>
      if 0xD800 ≤ unit ∧ unit ≤ 0xDBFF then
        match rest with
        | '\\' :: 'u' :: e :: f :: g :: h :: rest =>
          match Text.hexValue? [e, f, g, h] with
          | none => none
          | some low =>
            let pair := Char.ofNat (0x10000 + (unit - 0xD800) * 0x400 + (low - 0xDC00))
            -- Without its partner a surrogate leaves no characters to speak of, but the string goes
            -- on to its closing quote.
            if 0xDC00 ≤ low ∧ low ≤ 0xDFFF then readString (acc.map (pair :: ·)) rest
            else readString none rest
        | rest => readString none rest
      else if 0xDC00 ≤ unit ∧ unit ≤ 0xDFFF then readString none rest
      else readString (acc.map (Char.ofNat unit :: ·)) rest
  | '\\' :: e :: rest =>
    match escaped? e with
    | none => none
    | some c => readString (acc.map (c :: ·)) rest
  | c :: rest => if c.toNat < 0x20 then none else readString (acc.map (c :: ·)) rest

def spelling : List Char → List Char
  | [] => []
  | '\"' :: _ => []
  | '\\' :: c :: rest => '\\' :: c :: spelling rest
  | c :: rest => c :: spelling rest

def appendDigits (n : UInt64) : List Char → UInt64 × List Char
  | [] => (n, [])
  | c :: cs =>
    let next := n.toNat * 10 + (c.toNat - 48)
    if next ≤ Text.greatestUInt64 then appendDigits (UInt64.ofNat next) cs else (n, c :: cs)

def doubleOfLiteral? (whole decimals : List Char) (exponent : Int) : Option Binary64 :=
  -- Only digits that fit in a 64-bit significand count, but those of the whole part that do not fit
  -- count as places.
  let (n, surplus) := appendDigits 0 whole
  let (n, dropped) := appendDigits n decimals
  Binary64.scaled? n (surplus.length - (decimals.length - dropped.length : Nat) + exponent)

/-- The value of a number literal: an integer when it is written as one and fits in a signed or an
unsigned 64-bit word, a double otherwise. -/
def ofLiteral (negative : Bool) (whole decimals : List Char) (exponent : Option Int) : Outline :=
  let n := Text.digitsValue whole
  -- A negative zero is a double.
  let isWord : Bool :=
    if negative then n ≠ 0 ∧ n ≤ Text.greatestInt64 + 1 else n ≤ Text.greatestUInt64
  if decimals.isEmpty && exponent.isNone && isWord then
    .int (if negative then -(n : Int) else n)
  else
    match doubleOfLiteral? whole decimals (exponent.getD 0) with
    | some x => .double (if negative then x.neg else x)
    | none => .unreadable

def readExponent (cs : List Char) : Option (Int × List Char) :=
  let (negative, cs) :=
    match cs with
    | '-' :: rest => (true, rest)
    | '+' :: rest => (false, rest)
    | _ => (false, cs)
  let digits := cs.takeWhile Char.isDigit
  if digits.isEmpty then none
  else
    let n : Int := Text.digitsValue digits
    some (if negative then -n else n, cs.dropWhile Char.isDigit)

def readNumber (cs : List Char) : Option (Outline × List Char) := do
  let (negative, cs) :=
    match cs with
    | '-' :: rest => (true, rest)
    | _ => (false, cs)
  let whole := cs.takeWhile Char.isDigit
  -- No zero may stand in front of another digit.
  let leads : Bool := whole.head? = some '0' ∧ 1 < whole.length
  if whole.isEmpty || leads then none
  let cs := cs.dropWhile Char.isDigit
  let (decimals, cs) ←
    match cs with
    | '.' :: rest =>
      let digits := rest.takeWhile Char.isDigit
      if digits.isEmpty then none else some (digits, rest.dropWhile Char.isDigit)
    | _ => some ([], cs)
  let (exponent, cs) ←
    match cs with
    | 'e' :: rest => (readExponent rest).map fun (n, rest) => (some n, rest)
    | 'E' :: rest => (readExponent rest).map fun (n, rest) => (some n, rest)
    | _ => some (none, cs)
  return (ofLiteral negative whole decimals exponent, cs)

abbrev Reading (α : Type) := α × Option (List Char)

def nested (depth : Nat) : Reading Outline → Reading Outline
  | (container, some rest) => (if depth = 0 then .unreadable else container, some rest)
  | (container, none) => (if depth = 0 then .broken else container, none)

mutual

def readValue : Nat → Nat → List Char → Reading Outline
  | 0, _, _ => (.broken, none)
  | fuel + 1, depth, cs =>
    match skipBlanks cs with
    | '[' :: rest =>
      match skipBlanks rest with
      | ']' :: rest => nested depth (.array [], some rest)
      | rest =>
        let (items, rest) := readItems fuel (depth - 1) [] rest
        nested depth (.array items, rest)
    | '\x7b' :: rest =>
      match skipBlanks rest with
      | '\x7d' :: rest => nested depth (.object [], some rest)
      | rest =>
        let (members, rest) := readMembers fuel (depth - 1) [] rest
        nested depth (.object members, rest)
    | '\"' :: rest =>
      match readString (some []) rest with
      | some (some cs, rest) => (.string (String.ofList cs.reverse), some rest)
      | some (none, rest) => (.unreadable, some rest)
      | none => (.broken, none)
    | 'n' :: 'u' :: 'l' :: 'l' :: rest => (.null, some rest)
    | 't' :: 'r' :: 'u' :: 'e' :: rest => (.bool true, some rest)
    | 'f' :: 'a' :: 'l' :: 's' :: 'e' :: rest => (.bool false, some rest)
    | rest =>
      match readNumber rest with
      | some (x, rest) => (x, some rest)
      | none => (.broken, none)

def readItems : Nat → Nat → List Outline → List Char → Reading (List Outline)
  | 0, _, acc, _ => ((.broken :: acc).reverse, none)
  | fuel + 1, depth, acc, cs =>
    match readValue fuel depth cs with
    | (item, none) => ((item :: acc).reverse, none)
    | (item, some rest) =>
      match skipBlanks rest with
      | ',' :: rest => readItems fuel depth (item :: acc) rest
      | ']' :: rest => ((item :: acc).reverse, some rest)
      | _ => ((.broken :: item :: acc).reverse, none)

def readMembers : Nat → Nat → List (Key × Outline) → List Char → Reading (List (Key × Outline))
  | 0, _, acc, _ => (((.missing, .broken) :: acc).reverse, none)
  | fuel + 1, depth, acc, cs =>
    match skipBlanks cs with
    | '\"' :: rest =>
      let spelled := some (String.ofList (spelling rest))
      match readString (some []) rest with
      | none => (((⟨spelled, none⟩, .broken) :: acc).reverse, none)
      | some (text?, rest) =>
        let key : Key := ⟨spelled, text?.map fun cs => String.ofList cs.reverse⟩
        match skipBlanks rest with
        | ':' :: rest =>
          match readValue fuel depth rest with
          | (value, none) => (((key, value) :: acc).reverse, none)
          | (value, some rest) =>
            match skipBlanks rest with
            | ',' :: rest => readMembers fuel depth ((key, value) :: acc) rest
            | '\x7d' :: rest => (((key, value) :: acc).reverse, some rest)
            | _ => (((.missing, .broken) :: (key, value) :: acc).reverse, none)
        | _ => (((key, .broken) :: acc).reverse, none)
    | _ => (((.missing, .broken) :: acc).reverse, none)

end

def Outline.ofText (text : String) : Reading Outline :=
  let cs := text.toList
  readValue (2 * cs.length + 2) greatestDepth cs

def isEnd : Option (List Char) → Bool
  | some rest => (skipBlanks rest).isEmpty
  | none => false

def ofText? (text : String) : Option Json :=
  let (value, rest) := Outline.ofText text
  if isEnd rest then value.toJson? else none

end ConstraintGraph.Json
