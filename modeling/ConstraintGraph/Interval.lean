import ConstraintGraph.Bound

namespace ConstraintGraph

structure Interval where
  min : Bound
  max : Bound
deriving DecidableEq, Repr, Inhabited

structure WireInterval where
  min : Int64
  max : Int64
deriving DecidableEq, Repr, Inhabited

inductive Measure where
  | count
  | seconds
deriving DecidableEq, Repr

namespace Measure

def minName : Measure → String
  | .count => "min"
  | .seconds => "minSeconds"

def maxName : Measure → String
  | .count => "max"
  | .seconds => "maxSeconds"

def absentMin : Measure → Bound
  | .count => .finite 0
  | .seconds => .negInfinity

end Measure

namespace Interval

def anyCount : Interval := ⟨.finite 0, .posInfinity⟩

def anyTime : Interval := ⟨.negInfinity, .posInfinity⟩

def IsWellFormed (r : Interval) : Prop := r.min ≤ r.max

instance (r : Interval) : Decidable r.IsWellFormed := inferInstanceAs (Decidable (r.min ≤ r.max))

def toJson (m : Measure) (r : Interval) : Json :=
  .object [(m.minName, r.min.toJson), (m.maxName, r.max.toJson)]

/-- A lower bound written as `null` is minus infinity, an upper bound that is absent or `null` is
plus infinity. -/
def ofJson (m : Measure) : Decoder Interval := Json.asRecord [m.minName, m.maxName] <|
  (fun min max => ⟨min.getD .negInfinity, max.getD .posInfinity⟩) <$>
    .fieldOr m.minName (some m.absentMin) (Json.asOption Bound.ofJson) <*>
    .fieldOption m.maxName Bound.ofJson

def toWire (r : Interval) : WireInterval := ⟨r.min.toWire, r.max.toWire⟩

end Interval

namespace WireInterval

def toInterval (w : WireInterval) : Interval := ⟨.ofWire w.min, .ofWire w.max⟩

def toJson (m : Measure) (w : WireInterval) : Json :=
  .object [(m.minName, .int w.min.toInt), (m.maxName, .int w.max.toInt)]

def ofJson (m : Measure) : Decoder WireInterval := Json.asRecord [m.minName, m.maxName] <|
  mk <$> .field m.minName Json.asInt64 <*> .field m.maxName Json.asInt64

end WireInterval
end ConstraintGraph
