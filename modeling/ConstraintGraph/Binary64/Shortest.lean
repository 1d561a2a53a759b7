import ConstraintGraph.Binary64.Basic

/-!
The shortest decimal that reads back as a given double, and the two layouts in which the program
writes it. A decimal reads back when it lies between the midpoints to the two neighbouring doubles
(the midpoints count when the significand is even); on the coarsest decimal grid with such a point
the one nearest to the double is taken. The two layouts part ways on a tie.
-/

namespace ConstraintGraph.Binary64

structure Decimal where
  digits : Nat
  exponent : Int
deriving DecidableEq, Repr

inductive Tie where
  | up
  | even
deriving DecidableEq, Repr

def scaleTwo (n : Nat) (q : Int) : Nat × Nat :=
  if 0 ≤ q then (n * twoTo q.toNat, 1) else (n, twoTo (-q).toNat)

def decimalLt (c : Nat) (e : Int) (num den : Nat) : Bool :=
  if 0 ≤ e then c * tenTo e.toNat * den < num else c * den < num * tenTo (-e).toNat

def ltDecimal (num den : Nat) (c : Nat) (e : Int) : Bool :=
  if 0 ≤ e then num < c * tenTo e.toNat * den else num * tenTo (-e).toNat < c * den

def floorLog10 (num den : Nat) : Nat → Int → Int
  | 0, e => e
  | fuel + 1, e => if ltDecimal num den 1 (e + 1) then e else floorLog10 num den fuel (e + 1)

/-- The point of the grid with spacing `10^e` that reads back as `x`, if there is one: of the two
grid points around the value the nearer one that lies between the midpoints. -/
def onGrid? (tie : Tie) (x : Binary64) (e : Int) : Option Nat :=
  let m := x.significand
  -- At a power of two the neighbour below is only half as far away.
  let below := if m = twoTo 52 ∧ 1 < x.exponentField then 1 else 2
  let value := scaleTwo (4 * m) (x.scale - 2)
  let low := scaleTwo (4 * m - below) (x.scale - 2)
  let high := scaleTwo (4 * m + 2) (x.scale - 2)
  let closed := m % 2 == 0
  let within (c : Nat) : Bool :=
    (if closed then !decimalLt c e low.1 low.2 else ltDecimal low.1 low.2 c e) &&
      (if closed then !ltDecimal high.1 high.2 c e else decimalLt c e high.1 high.2)
  let d :=
    if 0 ≤ e then value.1 / (value.2 * tenTo e.toNat) else value.1 * tenTo (-e).toNat / value.2
  let nearUp : Bool := decimalLt (2 * d + 1) e (2 * value.1) value.2
  let nearDown : Bool := ltDecimal (2 * value.1) value.2 (2 * d + 1) e
  let goDown : Bool := nearDown || (!nearUp && tie == .even && d % 2 == 0)
  match within d, within (d + 1) with
  | true, true => some (if goDown then d else d + 1)
  | true, false => some d
  | false, true => some (d + 1)
  | false, false => none

def shortestFrom (tie : Tie) (x : Binary64) (e : Int) : Nat → Decimal
  | 0 => ⟨(onGrid? tie x e).getD 0, e⟩
  | fuel + 1 =>
    match onGrid? tie x e with
    | some d => ⟨d, e⟩
    | none => shortestFrom tie x (e - 1) fuel

def Decimal.strip : Nat → Decimal → Decimal
  | 0, d => d
  | fuel + 1, d =>
    if d.digits ≠ 0 ∧ d.digits % 10 = 0 then Decimal.strip fuel ⟨d.digits / 10, d.exponent + 1⟩
    else d

def shortest (tie : Tie) (x : Binary64) : Decimal :=
  let value := scaleTwo x.significand x.scale
  -- The search for the decimal exponent begins below that of the least double, and seventeen digits
  -- are always enough.
  let top := floorLog10 value.1 value.2 700 (-330)
  (shortestFrom tie x top 17).strip 20

def Decimal.positional (d : Decimal) (point : Bool) : String :=
  let ds := (toString d.digits).toList
  let before : Int := ds.length + d.exponent
  if 0 ≤ d.exponent then
    String.ofList (ds ++ List.replicate d.exponent.toNat '0') ++ (if point then ".0" else "")
  else if 0 < before then
    String.ofList (ds.take before.toNat ++ '.' :: ds.drop before.toNat)
  else
    String.ofList ('0' :: '.' :: (List.replicate (-before).toNat '0' ++ ds))

def Decimal.scientific (d : Decimal) : String :=
  let ds := (toString d.digits).toList
  let exponent : Int := ds.length + d.exponent - 1
  let mantissa :=
    match ds with
    | c :: rest@(_ :: _) => c :: '.' :: rest
    | short => short
  String.ofList mantissa ++ (if 0 ≤ exponent then "e+" else "e") ++ toString exponent

def signed (x : Binary64) (magnitude : String) : String :=
  if x.negative then "-" ++ magnitude else magnitude

/-- The plain text of a double: its shortest decimal, the larger one on a tie, written out without
an exponent. -/
def plainText (x : Binary64) : String :=
  if x.isNaN then "NaN"
  else if x.isInfinite then x.signed "inf"
  else if x.significand = 0 then x.signed "0"
  else x.signed ((shortest .up x).positional false)

/-- A finite double as a JSON number: its shortest decimal, the even one on a tie, positional from
`10^-5` up to `10^16`, with an exponent outside, and never without a point or an exponent. -/
def jsonText (x : Binary64) : String :=
  if x.significand = 0 then x.signed "0.0"
  else
    let d := shortest .even x
    let before : Int := (toString d.digits).length + d.exponent
    if -5 < before ∧ before ≤ 16 then x.signed (d.positional true) else x.signed d.scientific

end ConstraintGraph.Binary64
