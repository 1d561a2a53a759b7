namespace ConstraintGraph

def twoTo (n : Nat) : Nat := Nat.pow 2 n

def tenTo (n : Nat) : Nat := Nat.pow 10 n

structure Binary64 where
  bits : UInt64
deriving DecidableEq, Repr, Inhabited

namespace Binary64

def negative (x : Binary64) : Bool :=
  x.bits.toNat / twoTo 63 == 1

def exponentField (x : Binary64) : Nat :=
  x.bits.toNat / twoTo 52 % twoTo 11

def fractionField (x : Binary64) : Nat :=
  x.bits.toNat % twoTo 52

def isFinite (x : Binary64) : Bool :=
  x.exponentField != 2047

def isNaN (x : Binary64) : Bool :=
  x.exponentField == 2047 && x.fractionField != 0

def isInfinite (x : Binary64) : Bool :=
  x.exponentField == 2047 && x.fractionField == 0

def significand (x : Binary64) : Nat :=
  -- The hidden bit counts unless the number is subnormal.
  if x.exponentField = 0 then x.fractionField else twoTo 52 + x.fractionField

def scale (x : Binary64) : Int :=
  if x.exponentField = 0 then -1074 else (x.exponentField : Int) - 1075

def ofMagnitude (negative : Bool) (magnitude : Nat) : Binary64 :=
  ⟨UInt64.ofNat ((if negative then twoTo 63 else 0) + magnitude)⟩

def infinityMagnitude : Nat := 2047 * twoTo 52

def infinity : Binary64 := ofMagnitude false infinityMagnitude

def negInfinity : Binary64 := ofMagnitude true infinityMagnitude

def nan : Binary64 := ofMagnitude false (infinityMagnitude + twoTo 51)

def fraction (x : Binary64) : Nat × Nat :=
  if 0 ≤ x.scale then (x.significand * twoTo x.scale.toNat, 1)
  else (x.significand, twoTo (-x.scale).toNat)

def toInt? (x : Binary64) : Option Int :=
  let (num, den) := x.fraction
  if x.isFinite ∧ num % den = 0 then
    some (if x.negative then -((num / den : Nat) : Int) else ((num / den : Nat) : Int))
  else none

end Binary64
end ConstraintGraph
