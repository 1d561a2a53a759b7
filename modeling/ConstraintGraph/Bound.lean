import ConstraintGraph.Json.Decode
import ConstraintGraph.Text.Basic

namespace ConstraintGraph

inductive Bound where
  | negInfinity
  | finite (value : Int64)
  | posInfinity
deriving DecidableEq, Repr, Inhabited

namespace Bound

def le : Bound → Bound → Bool
  | .negInfinity, _ => true
  | _, .posInfinity => true
  | .finite a, .finite b => a ≤ b
  | .posInfinity, _ => false
  | .finite _, .negInfinity => false

instance : LE Bound := ⟨fun a b => le a b = true⟩

instance (a b : Bound) : Decidable (a ≤ b) := inferInstanceAs (Decidable (le a b = true))

def display : Bound → String
  | .negInfinity => "-∞"
  | .finite n => toString n.toInt
  | .posInfinity => "∞"

def toJson : Bound → Json
  | .negInfinity => .string "-inf"
  | .finite n => .int n.toInt
  | .posInfinity => .string "inf"

/-- The bound that a double stands for: an infinity, or an integer whose absolute value is less
than 2^63. -/
def ofDouble (x : Binary64) : Except DecodeError Bound :=
  if x = Binary64.infinity then .ok .posInfinity
  else if x = Binary64.negInfinity then .ok .negInfinity
  else
    match x.toInt? with
    | some n =>
      if n.natAbs ≤ Text.greatestInt64 then .ok (.finite (Int64.ofInt n))
      else .error (.boundNotInteger x)
    | none => .error (.boundNotInteger x)

/-- The bound that a text spells, blanks at its ends apart: an infinity, or a signed numeral within
64 bits. -/
def ofText (s : String) : Except DecodeError Bound :=
  let t := Text.trim s
  if t ∈ ["inf", "+inf", "∞", "+∞", "Infinity", "+Infinity"] then .ok .posInfinity
  else if t ∈ ["-inf", "-∞", "-Infinity"] then .ok .negInfinity
  else
    match Text.int64? t with
    | some n => .ok (.finite n)
    | none => .error (.boundText t)

def ofInt (n : Int) : Except DecodeError Bound :=
  if Int64.maxValue.toInt < n then .error (.boundOutOfRange n.toNat)
  -- A literal below the range is a double and does not come here.
  else if n < Int64.minValue.toInt then .error .mismatch
  else .ok (.finite (Int64.ofInt n))

def ofJson : Decoder Bound
  | _, .int n => ofInt n
  | _, .double x => ofDouble x
  | _, .string s => ofText s
  | _, o => .error (.unfit o)

-- Between these two a double tells all integers apart.
def greatestSafe : Int64 := 9007199254740991

def leastSafe : Int64 := -9007199254740991

def toWire : Bound → Int64
  | .negInfinity => leastSafe
  | .finite n => n
  | .posInfinity => greatestSafe

def ofWire (n : Int64) : Bound :=
  if greatestSafe ≤ n then .posInfinity
  else if n ≤ leastSafe then .negInfinity
  else .finite n

end Bound
end ConstraintGraph
