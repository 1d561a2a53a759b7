import ConstraintGraph.Text.Basic
import ConstraintGraph.Toml.Reader

/-!
Settings: where plans are sent, which port the service listens on, and what is logged. A settings
file may set any of them and nothing else; the environment goes before the file. A section is given
once, under a header, by keys with a point, or as a value: a table, or an array of its settings in
their order.
-/

namespace ConstraintGraph

def Program.name : String := "ocgraph"

def Program.version : String := "0.1.0"

structure EvaluatorSettings where
  url : String
  timeoutSeconds : UInt64
deriving DecidableEq, Repr, Inhabited

structure ServerSettings where
  port : UInt16
deriving DecidableEq, Repr, Inhabited

structure LogSettings where
  level : String
  json : Bool
deriving DecidableEq, Repr, Inhabited

structure Settings where
  evaluator : EvaluatorSettings
  server : ServerSettings
  log : LogSettings
deriving DecidableEq, Repr, Inhabited

inductive SettingsError where
  | unreadable (path : String)
  | unparsable (path : String)
  | invalidPort (text : String)
deriving DecidableEq, Repr, Inhabited

structure Outline where
  headed : List String
  entries : List (List String × Toml.Value)

namespace Outline
open Toml

/-- Adds a statement under the current section, if there is one, and answers with the section that
is current after it. -/
def add (o : Outline) (section? : Option String) : Statement → Option (Outline × Option String)
  | .openItem _ => none
  | .openTable [name] =>
    -- A section is given once, whether under a header or by keys with a point.
    if name ∈ o.headed ∨ o.entries.any (overlap [name] ·.1) then none
    else some ({ o with headed := o.headed ++ [name] }, some name)
  | .openTable _ => none
  | .assign path value =>
    let path := section?.toList ++ path
    if o.entries.any (overlap path ·.1) then none
    else some ({ o with entries := o.entries ++ [(path, value)] }, section?)

def addAll (o : Outline) (section? : Option String) : List Statement → Option Outline
  | [] => some o
  | s :: rest =>
    match o.add section? s with
    | some (o, current) => addAll o current rest
    | none => none

def ofStatements? (statements : List Statement) : Option Outline :=
  addAll ⟨[], []⟩ none statements

def hasOnly (o : Outline) (names : List String) : Bool :=
  o.headed.all (· ∈ names) && o.entries.all fun (path, _) => path.head?.any (· ∈ names)

def named? (names : List String) (entries : List (List String × Value)) :
    Option (List (String × Value)) :=
  entries.mapM fun
    | ([name], value) => if name ∈ names then some (name, value) else none
    | _ => none

def section? (o : Outline) (name : String) (names : List String) : Option (List (String × Value)) :=
  match o.entries.lookup [name] with
  | some (.table entries) => named? names entries
  -- In an array the settings have their order, and items past the last one are ignored.
  | some (.list items) => some (names.zip items)
  | some _ => none
  | none =>
    named? names ((o.entries.filter (·.1.head? == some name)).map fun (path, v) => (path.tail, v))

end Outline

namespace Settings
open Toml

def default : Settings := ⟨⟨"http://localhost:3000", 120⟩, ⟨8080⟩, ⟨"info", false⟩⟩

def greatestPort : Nat := 65535

def defaultFile : String := "ocgraph.toml"

def text? : Value → Option String
  | .text s => some s
  | _ => none

def boolean? : Value → Option Bool
  | .boolean b => some b
  | _ => none

def natural? (greatest : Nat) : Value → Option Nat
  | .integer n => if 0 ≤ n ∧ n ≤ greatest then some n.toNat else none
  | _ => none

def field? {α : Type} (entries : List (String × Value)) (name : String) (absent : α)
    (read : Value → Option α) : Option α :=
  match entries.lookup name with
  | some v => read v
  | none => some absent

def ofStatements? (statements : List Statement) : Option Settings := do
  let o ← Outline.ofStatements? statements
  if !o.hasOnly ["evaluator", "server", "log"] then none
  let evaluator ← o.section? "evaluator" ["url", "timeout_secs"]
  let server ← o.section? "server" ["port"]
  let log ← o.section? "log" ["level", "json"]
  let url ← field? evaluator "url" default.evaluator.url text?
  let seconds ← field? evaluator "timeout_secs" default.evaluator.timeoutSeconds.toNat
    (natural? Text.greatestInt64)
  let port ← field? server "port" default.server.port.toNat (natural? greatestPort)
  let level ← field? log "level" default.log.level text?
  let json ← field? log "json" default.log.json boolean?
  return ⟨⟨url, UInt64.ofNat seconds⟩, ⟨UInt16.ofNat port⟩, ⟨level, json⟩⟩

def ofText? (text : String) : Option Settings := (Toml.ofText? text).bind ofStatements?

def urlVariable : String := "OCGRAPH_EVALUATOR_URL"

def portVariable : String := "OCGRAPH_PORT"

def logVariable : String := "OCGRAPH_LOG"

def override? (environment : String → Option String) (name : String) : Option String :=
  -- An empty one counts as none.
  (environment name).filter (· ≠ "")

def override (s : Settings) (environment : String → Option String) :
    Except SettingsError Settings := do
  let url := (override? environment urlVariable).getD s.evaluator.url
  let port ←
    match override? environment portVariable with
    | none => pure s.server.port
    | some text =>
      match Text.naturalUpTo? greatestPort text with
      | some n => pure (UInt16.ofNat n)
      | none => .error (.invalidPort text)
  let level := (override? environment logVariable).getD s.log.level
  return ⟨{ s.evaluator with url }, ⟨port⟩, { s.log with level }⟩

end Settings

namespace SettingsError

def message : SettingsError → String
  | .unreadable path => s!"could not read '{path}': <detail>"
  | .unparsable path => s!"could not parse '{path}': <detail>"
  | .invalidPort text => s!"invalid {Settings.portVariable}: '{text}' is not a port number"

end SettingsError
end ConstraintGraph
