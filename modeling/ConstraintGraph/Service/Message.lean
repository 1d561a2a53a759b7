import ConstraintGraph.Json.Canonical
import ConstraintGraph.Json.Reader
import ConstraintGraph.Service.Target

namespace ConstraintGraph

structure Request where
  method : String
  target : String
  contentType : Option String
  body : String
deriving DecidableEq, Repr, Inhabited

structure Reply where
  status : Nat
  body : Option Json
deriving DecidableEq, Inhabited

inductive Route where
  | health
  | graph
  | commands
  | compile
  -- The scope of the node whose id the text writes.
  | scope (id : List Char)
  | evaluate
  | evaluation
deriving DecidableEq, Repr, Inhabited

namespace Route

def ofPath? (path : List (List Char)) : Option Route :=
  match path with
  | [[], a] =>
    match String.ofList a with
    | "health" => some .health
    | "graph" => some .graph
    | "evaluate" => some .evaluate
    | "evaluation" => some .evaluation
    | _ => none
  | [[], a, b] =>
    match String.ofList a, String.ofList b with
    | "graph", "commands" => some .commands
    | "graph", "compile" => some .compile
    | _, _ => none
  -- The id of a node may be empty.
  | [[], a, b, id, c] =>
    match String.ofList a, String.ofList b, String.ofList c with
    | "graph", "nodes", "scope" => some (.scope id)
    | _, _, _ => none
  | _ => none

end Route

namespace Reply

def ok (body : Json) : Reply := ⟨200, some body⟩

def error (status : Nat) (message : String) : Reply :=
  ⟨status, some (.object [("error", .string message)])⟩

def bare (status : Nat) : Reply := ⟨status, none⟩

/-- No reply, after a crash: the connection is closed. The status is none that a reply can have. -/
def unsent : Reply := ⟨0, none⟩

def headOnly (r : Reply) : Reply := { r with body := none }

end Reply

namespace Request

def isJson (r : Request) : Bool :=
  match r.contentType with
  | none => false
  | some type =>
    let essence := ((type.toList.takeWhile (· != ';')).filter (· != ' ')).map Char.toLower
    let name := essence.takeWhile (· != '/')
    let subtype := (essence.drop name.length).drop 1
    String.ofList name == "application" &&
      (String.ofList subtype == "json" || "+json".toList.isSuffixOf subtype)

def bodyLimit : Nat := 10 * 1024 * 1024

def json (r : Request) : Except Reply Json :=
  if !r.isJson then .error (.bare 415)
  -- The type of a body is looked at before the body is read.
  else if bodyLimit < r.body.utf8ByteSize then .error (.bare 413)
  else
    match Json.ofText? r.body with
    -- Of a repeated key the last value counts.
    | some j => .ok j.normalize
    | none => .error (.bare 400)

end Request
end ConstraintGraph
