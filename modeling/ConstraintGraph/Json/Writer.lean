import ConstraintGraph.Binary64.Shortest
import ConstraintGraph.Json.Basic
import ConstraintGraph.Text.Basic

namespace ConstraintGraph.Json

def escape (c : Char) : List Char :=
  match c with
  | '\"' => ['\\', '\"']
  | '\\' => ['\\', '\\']
  | '\x08' => ['\\', 'b']
  | '\x0c' => ['\\', 'f']
  | '\n' => ['\\', 'n']
  | '\r' => ['\\', 'r']
  | '\t' => ['\\', 't']
  | c =>
    if c.toNat < 0x20 then
      ['\\', 'u', '0', '0', Text.hexDigit (c.toNat / 16), Text.hexDigit (c.toNat % 16)]
    else [c]

def quote (s : String) : String :=
  String.ofList ('\"' :: (s.toList.flatMap escape ++ ['\"']))

/-- A value that holds no other one. A double that is not finite is written as `null`. -/
def scalarText : Json → String
  | .bool true => "true"
  | .bool false => "false"
  | .int n => toString n
  | .double x => if x.isFinite then x.jsonText else "null"
  | .string s => quote s
  | .null | .array _ | .object _ => "null"

mutual

def compact : Json → String
  | .array items => "[" ++ String.intercalate "," (compactItems items) ++ "]"
  | .object members => "\x7b" ++ String.intercalate "," (compactMembers members) ++ "\x7d"
  | .null => "null"
  | .bool b => scalarText (.bool b)
  | .int n => scalarText (.int n)
  | .double x => scalarText (.double x)
  | .string s => scalarText (.string s)

def compactItems : List Json → List String
  | [] => []
  | x :: xs => compact x :: compactItems xs

def compactMembers : List (String × Json) → List String
  | [] => []
  | (k, v) :: ms => (quote k ++ ":" ++ compact v) :: compactMembers ms

end

def newLine (level : Nat) : String :=
  String.ofList ('\n' :: List.replicate (2 * level) ' ')

mutual

/-- The value over several lines, an item or a member on each; nothing is put on lines of its own
inside an empty array or object. -/
def pretty (level : Nat) : Json → String
  | .array [] => "[]"
  | .array items =>
    "[" ++ String.intercalate "," (prettyItems (level + 1) items) ++ newLine level ++ "]"
  | .object [] => "\x7b\x7d"
  | .object members =>
    "\x7b" ++ String.intercalate "," (prettyMembers (level + 1) members) ++ newLine level ++ "\x7d"
  | .null => "null"
  | .bool b => scalarText (.bool b)
  | .int n => scalarText (.int n)
  | .double x => scalarText (.double x)
  | .string s => scalarText (.string s)

def prettyItems (level : Nat) : List Json → List String
  | [] => []
  | x :: xs => (newLine level ++ pretty level x) :: prettyItems level xs

def prettyMembers (level : Nat) : List (String × Json) → List String
  | [] => []
  | (k, v) :: ms =>
    (newLine level ++ quote k ++ ": " ++ pretty level v) :: prettyMembers level ms

end

end ConstraintGraph.Json
