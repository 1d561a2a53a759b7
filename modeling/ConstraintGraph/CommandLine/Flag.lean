import ConstraintGraph.Settings
import ConstraintGraph.Variable

namespace ConstraintGraph.CommandLine

inductive Format where
  | text
  | json
deriving DecidableEq, Repr, Inhabited

inductive Flag where
  | output | quiet | config | help | version
  | node | kind | graph | evaluator | response | limit | port
deriving DecidableEq, Repr, Inhabited

def format? : String → Option Format
  | "text" => some .text
  | "json" => some .json
  | _ => none

def kind? : String → Option VariableKind
  | "event" => some .event
  | "object" => some .object
  | _ => none

def limit? (s : String) : Option Nat := Text.naturalUpTo? Text.greatestUInt64 s

def port? (s : String) : Option UInt16 :=
  (Text.integer? s.toList).bind fun n =>
    if 0 ≤ n ∧ n ≤ Settings.greatestPort then some (UInt16.ofNat n.toNat) else none

namespace Flag

def name : Flag → String
  | output => "output"
  | quiet => "quiet"
  | config => "config"
  | help => "help"
  | version => "version"
  | node => "node"
  | kind => "kind"
  | graph => "graph"
  | evaluator => "evaluator"
  | response => "response"
  | limit => "limit"
  | port => "port"

def letter? : Flag → Option Char
  | help => some 'h'
  | version => some 'V'
  | output | quiet | config | node | kind | graph | evaluator | response | limit | port => none

def takesValue : Flag → Bool
  | quiet | help | version => false
  | output | config | node | kind | graph | evaluator | response | limit | port => true

def accepts (flag : Flag) (value : String) : Bool :=
  match flag with
  | output => (format? value).isSome
  | CommandLine.Flag.kind => (kind? value).isSome
  | CommandLine.Flag.limit => (limit? value).isSome
  | CommandLine.Flag.port => (port? value).isSome
  -- A path is any text but the empty one.
  | config | graph | response => value ≠ ""
  | node | evaluator | quiet | help | version => true

end Flag
end ConstraintGraph.CommandLine
