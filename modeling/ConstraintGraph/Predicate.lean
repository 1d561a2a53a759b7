import ConstraintGraph.Variable

namespace ConstraintGraph

inductive Timepoint where
  | always
  | sometime
  | atEvent (event : UInt32)
deriving DecidableEq, Inhabited

inductive Predicate where
  | eventObject (object event : UInt32) (qualifier : Option String)
  | objectObject (object other : UInt32) (qualifier : Option String)
  | timeBetween (first second : UInt32) (minSeconds maxSeconds : Option Binary64)
  | distinct (one other : Variable)
  | eventAttribute (event : UInt32) (name : String) (value : CanonicalJson)
  | objectAttribute (object : UInt32) (name : String) (time : Timepoint)
      (value : CanonicalJson)
  -- A formula in a language of its own.
  | formula (text : String)
deriving DecidableEq, Inhabited

namespace Timepoint

def toJson : Timepoint → Json
  | .always => .object [("type", .string "Always")]
  | .sometime => .object [("type", .string "Sometime")]
  | .atEvent event => .object [("type", .string "AtEvent"), ("event", .int event.toNat)]

def ofJson : Decoder Timepoint := Json.asTagged "type" [
  { tag := "Always", required := [], defaulted := [], content := pure .always },
  { tag := "Sometime", required := [], defaulted := [], content := pure .sometime },
  { tag := "AtEvent", required := ["event"], defaulted := []
    content := atEvent <$> .field "event" Json.asUInt32 }]

end Timepoint

namespace Predicate

/-- The variables that a predicate reads, in the order in which it names them. A formula is opaque
and reads none. -/
def mentioned : Predicate → List Variable
  | .eventObject object event _ => [.object object, .event event]
  | .objectObject object other _ => [.object object, .object other]
  | .timeBetween first second _ _ => [.event first, .event second]
  | .distinct one other => [one, other]
  | .eventAttribute event _ _ => [.event event]
  | .objectAttribute object _ (.atEvent event) _ => [.object object, .event event]
  | .objectAttribute object _ .always _ => [.object object]
  | .objectAttribute object _ .sometime _ => [.object object]
  | .formula _ => []

def secondsToJson : Option Binary64 → Json
  | some x => if x.isFinite then .double x else .null
  | none => .null

def toJson : Predicate → Json
  | .eventObject object event qualifier => .object
    [("type", .string "O2E"), ("object", .int object.toNat), ("event", .int event.toNat),
      ("qualifier", Json.ofOption .string qualifier)]
  | .objectObject object other qualifier => .object
    [("type", .string "O2O"), ("object", .int object.toNat), ("other_object", .int other.toNat),
      ("qualifier", Json.ofOption .string qualifier)]
  | .timeBetween first second minSeconds maxSeconds => .object
    [("type", .string "TimeBetweenEvents"), ("from_event", .int first.toNat),
      ("to_event", .int second.toNat), ("min_seconds", secondsToJson minSeconds),
      ("max_seconds", secondsToJson maxSeconds)]
  | .distinct one other => .object
    [("type", .string "NotEqual"), ("var_1", one.toJson), ("var_2", other.toJson)]
  | .eventAttribute event name value => .object
    [("type", .string "EventAttributeValueFilter"), ("event", .int event.toNat),
      ("attribute_name", .string name), ("value_filter", value.json)]
  | .objectAttribute object name time value => .object
    [("type", .string "ObjectAttributeValueFilter"), ("object", .int object.toNat),
      ("attribute_name", .string name), ("at_time", time.toJson),
      ("value_filter", value.json)]
  | .formula text => .object [("type", .string "BasicFilterCEL"), ("cel", .string text)]

def ofJson : Decoder Predicate := Json.asTagged "type" [
  { tag := "O2E", required := ["object", "event"], defaulted := ["qualifier"]
    content := eventObject <$> .field "object" Json.asUInt32 <*>
      .field "event" Json.asUInt32 <*> .fieldOption "qualifier" Json.asString },
  { tag := "O2O", required := ["object", "other_object"], defaulted := ["qualifier"]
    content := objectObject <$> .field "object" Json.asUInt32 <*>
      .field "other_object" Json.asUInt32 <*> .fieldOption "qualifier" Json.asString },
  { tag := "TimeBetweenEvents", required := ["from_event", "to_event"]
    defaulted := ["min_seconds", "max_seconds"]
    content := timeBetween <$> .field "from_event" Json.asUInt32 <*>
      .field "to_event" Json.asUInt32 <*> .fieldOption "min_seconds" Json.asDouble <*>
      .fieldOption "max_seconds" Json.asDouble },
  { tag := "NotEqual", required := ["var_1", "var_2"], defaulted := []
    content := distinct <$> .field "var_1" Variable.ofJson <*>
      .field "var_2" Variable.ofJson },
  { tag := "EventAttributeValueFilter", required := ["event", "attribute_name", "value_filter"]
    defaulted := []
    content := eventAttribute <$> .field "event" Json.asUInt32 <*>
      .field "attribute_name" Json.asString <*> .field "value_filter" Json.asAny },
  { tag := "ObjectAttributeValueFilter"
    required := ["object", "attribute_name", "at_time", "value_filter"], defaulted := []
    content := objectAttribute <$> .field "object" Json.asUInt32 <*>
      .field "attribute_name" Json.asString <*> .field "at_time" Timepoint.ofJson <*>
      .field "value_filter" Json.asAny },
  { tag := "BasicFilterCEL", required := ["cel"], defaulted := []
    content := formula <$> .field "cel" Json.asString }]

end Predicate
end ConstraintGraph
