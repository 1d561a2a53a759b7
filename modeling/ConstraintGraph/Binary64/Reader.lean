import ConstraintGraph.Binary64.Rounding
import ConstraintGraph.Text.Basic

namespace ConstraintGraph.Binary64

def ofDecimal (negative : Bool) (digits : List Char) (exponent : Int) : Binary64 :=
  let digits := digits.dropWhile (· == '0')
  let places : Int := digits.length + exponent
  -- Far outside the range of doubles the power of ten is not computed.
  if digits.isEmpty ∨ places < -400 then ofMagnitude negative 0
  else if 400 < places then ofMagnitude negative infinityMagnitude
  else
    let n := Text.digitsValue digits
    if 0 ≤ exponent then nearest negative (n * tenTo exponent.toNat) 1
    else nearest negative n (tenTo (-exponent).toNat)

def ofNumeral? (negative : Bool) (cs : List Char) : Option Binary64 :=
  let isMark (c : Char) : Bool := c == 'e' || c == 'E'
  let mantissa := cs.takeWhile (!isMark ·)
  let whole := mantissa.takeWhile (· != '.')
  let decimals := (mantissa.drop whole.length).drop 1
  if !Text.isDigits (whole ++ decimals) then none
  else
    match cs.drop mantissa.length with
    | [] => some (ofDecimal negative (whole ++ decimals) (-decimals.length))
    | _ :: exponent =>
      (Text.integer? exponent).map fun e =>
        ofDecimal negative (whole ++ decimals) (e - decimals.length)

def ofUnsigned? (negative : Bool) (cs : List Char) : Option Binary64 :=
  match String.ofList (cs.map Char.toLower) with
  | "inf" => some (ofMagnitude negative infinityMagnitude)
  | "infinity" => some (ofMagnitude negative infinityMagnitude)
  | "nan" => some (ofMagnitude negative (infinityMagnitude + twoTo 51))
  | _ => ofNumeral? negative cs

def ofText? (s : String) : Option Binary64 :=
  match s.toList with
  | '-' :: cs => ofUnsigned? true cs
  | '+' :: cs => ofUnsigned? false cs
  | cs => ofUnsigned? false cs

end ConstraintGraph.Binary64
