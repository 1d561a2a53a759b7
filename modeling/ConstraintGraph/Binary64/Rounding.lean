import ConstraintGraph.Binary64.Basic

namespace ConstraintGraph.Binary64

def divToEven (num den : Nat) : Nat :=
  let q := num / den
  let r := num % den
  if 2 * r < den then q
  else if 2 * r > den then q + 1
  else if q % 2 = 0 then q else q + 1

def floorLog2 (num den : Nat) : Int :=
  let e : Int := (num.log2 : Int) - (den.log2 : Int)
  let below := if 0 ≤ e then num < den * twoTo e.toNat else num * twoTo (-e).toNat < den
  if below then e - 1 else e

/-- The double nearest to `num / den` with the given sign, infinite past the largest finite one. -/
def nearest (negative : Bool) (num den : Nat) : Binary64 :=
  if num = 0 then ofMagnitude negative 0
  else
    let q := max (floorLog2 num den - 52) (-1074)
    let m :=
      if 0 ≤ q then divToEven num (den * twoTo q.toNat)
      else divToEven (num * twoTo (-q).toNat) den
    -- These are the bits of `m * 2^q`, whether or not it is subnormal.
    ofMagnitude negative (min ((q + 1074).toNat * twoTo 52 + m) infinityMagnitude)

def ofInt (n : Int) : Binary64 :=
  nearest (n < 0) n.natAbs 1

def div (x y : Binary64) : Binary64 :=
  nearest (x.negative != y.negative) (x.fraction.1 * y.fraction.2) (x.fraction.2 * y.fraction.1)

def mul (x y : Binary64) : Binary64 :=
  nearest (x.negative != y.negative) (x.fraction.1 * y.fraction.1) (x.fraction.2 * y.fraction.2)

def round (x : Binary64) : Binary64 :=
  nearest x.negative ((2 * x.fraction.1 + x.fraction.2) / (2 * x.fraction.2)) 1

def powerOfTen (n : Nat) : Binary64 := nearest false (tenTo n) 1

/-- Divides by `10^n`, by at most `10^308` at a time. -/
def divPowerOfTen : Nat → Nat → Binary64 → Binary64
  | 0, _, x => x
  | fuel + 1, n, x =>
    if n ≤ 308 then x.div (powerOfTen n)
    else if x.significand = 0 then x
    else divPowerOfTen fuel (n - 308) (x.div (powerOfTen 308))

/-- The significand scaled by a power of ten, each of the two rounded to a double first, and the
result rounded once more. -/
def scaled? (significand : UInt64) (exponent : Int) : Option Binary64 :=
  let x := ofInt significand.toNat
  -- After three divisions by `10^308` nothing is left of a 64-bit significand.
  if exponent < 0 then some (divPowerOfTen 4 (-exponent).toNat x)
  else if exponent ≤ 308 then some (x.mul (powerOfTen exponent.toNat)) |>.filter isFinite
  else if significand = 0 then some x
  else none

def neg (x : Binary64) : Binary64 := ⟨x.bits ^^^ 0x8000000000000000⟩

end ConstraintGraph.Binary64
