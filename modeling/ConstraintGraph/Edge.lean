import ConstraintGraph.Interval

/-!
Edges between the handles of two nodes. An edge that lacks a handle or its constraint data may be
kept in a graph, but it carries no dependency.
-/

namespace ConstraintGraph

inductive ConstraintType where
  | response
  | unaryResponse
  | nonResponse
deriving DecidableEq, Repr, Inhabited

structure EdgeConstraint where
  type : ConstraintType
  time : Interval
  color : String
deriving DecidableEq, Repr, Inhabited

structure Edge where
  id : String
  source : String
  target : String
  sourceHandle : Option String
  targetHandle : Option String
  data : Option EdgeConstraint
deriving DecidableEq, Repr, Inhabited

namespace ConstraintType

def name : ConstraintType → String
  | .response => "response"
  | .unaryResponse => "unary-response"
  | .nonResponse => "non-response"

def toJson (t : ConstraintType) : Json := .string t.name

def ofJson : Decoder ConstraintType :=
  Json.asEnum [("response", .response), ("unary-response", .unaryResponse),
    ("non-response", .nonResponse)]

end ConstraintType

namespace EdgeConstraint

def defaultColor : String := "#969696"

def standard : EdgeConstraint := ⟨.response, .anyTime, defaultColor⟩

def toJson (c : EdgeConstraint) : Json :=
  .object [("constraintType", c.type.toJson), ("timeConstraint", c.time.toJson .seconds),
    ("color", .string c.color)]

def ofJson : Decoder EdgeConstraint :=
  Json.asRecord ["constraintType", "timeConstraint", "color"] <|
    mk <$> .fieldOr "constraintType" .response ConstraintType.ofJson <*>
      .fieldOr "timeConstraint" .anyTime (Interval.ofJson .seconds) <*>
      .fieldOr "color" defaultColor Json.asString

end EdgeConstraint

namespace Edge

def between (source sourceHandle target targetHandle : String) : Edge where
  id := sourceHandle ++ "|||" ++ targetHandle
  source := source
  target := target
  sourceHandle := some sourceHandle
  targetHandle := some targetHandle
  data := some .standard

def link (source target : String) : Edge :=
  between source (source ++ "-source") target (target ++ "-target")

def isComplete (e : Edge) : Bool :=
  e.sourceHandle.isSome && e.targetHandle.isSome && e.data.isSome

def constraint (e : Edge) : EdgeConstraint := e.data.getD .standard

def toJson (e : Edge) : Json :=
  .object [("id", .string e.id), ("source", .string e.source), ("target", .string e.target),
    ("sourceHandle", Json.ofOption .string e.sourceHandle),
    ("targetHandle", Json.ofOption .string e.targetHandle),
    ("data", Json.ofOption EdgeConstraint.toJson e.data)]

def ofJson : Decoder Edge :=
  Json.asRecord ["id", "source", "target", "sourceHandle", "targetHandle", "data"] <|
    mk <$> .field "id" Json.asString <*> .field "source" Json.asString <*>
      .field "target" Json.asString <*> .fieldOption "sourceHandle" Json.asString <*>
      .fieldOption "targetHandle" Json.asString <*> .fieldOption "data" EdgeConstraint.ofJson

end Edge
end ConstraintGraph
