import ConstraintGraph.CommandLine.Words

namespace ConstraintGraph.CommandLine

/-- What is to be done. Graphs, commands and responses are named by their files. -/
inductive Job where
  | compile (graph : String)
  | scope (graph node : String) (kind : Option VariableKind)
  | replay (commands : String) (graph : Option String)
  -- At most `limit` violations are listed for a node.
  | evaluate (graph : String) (evaluator response : Option String) (limit : Nat)
  | serve (port : Option UInt16)
deriving DecidableEq, Repr, Inhabited

structure Invocation where
  format : Format
  quiet : Bool
  settings : Option String
  job : Job
deriving DecidableEq, Repr, Inhabited

def sharedFlags : List Flag := [.output, .quiet, .config, .help]

def outerLevel : Level := ⟨.version :: sharedFlags, 0⟩

namespace Job

def level? : String → Option Level
  | "compile" => some ⟨sharedFlags, 1⟩
  | "scope" => some ⟨.node :: .kind :: sharedFlags, 1⟩
  | "replay" => some ⟨.graph :: sharedFlags, 1⟩
  | "evaluate" => some ⟨.evaluator :: .response :: .limit :: sharedFlags, 1⟩
  | "serve" => some ⟨.port :: sharedFlags, 0⟩
  | _ => none

def defaultLimit : Nat := 5

def ofWords? (name : String) (w : Words) : Option Job :=
  match name, w.places with
  | "compile", [graph] => some (.compile graph)
  | "scope", [graph] =>
    (w.value? .node).map fun node => .scope graph node ((w.value? .kind).bind kind?)
  | "replay", [commands] => some (.replay commands (w.value? .graph))
  | "evaluate", [graph] =>
    -- A saved response and a service exclude each other.
    if w.has .evaluator ∧ w.has .response then none
    else
      some (.evaluate graph (w.value? .evaluator) (w.value? .response)
        (((w.value? .limit).bind limit?).getD defaultLimit))
  | "serve", [] => some (.serve ((w.value? .port).bind port?))
  | _, _ => none

end Job

namespace Invocation

def helpOn : List String → Stop
  | [] => .help
  | [name] => if name = "help" ∨ (Job.level? name).isSome then .help else .usage
  | _ :: _ :: _ => .usage

def innerWords (l : Level) (words : List String) : Except Stop Words := do
  match ← Words.empty.take l words with
  | (inner, []) => inner.settle
  | (_, _ :: _) => .error .usage

def ofWords (words : List String) : Except Stop Invocation := do
  match ← Words.empty.take outerLevel words with
  | (_, []) => .error .usage
  | (outer, name :: rest) =>
    if outer.ended then .error .usage
    if name = "help" then .error (helpOn rest)
    match Job.level? name with
    | none => .error .usage
    | some level =>
      let inner ← innerWords level rest
      match Job.ofWords? name inner with
      | none => .error .usage
      | some job =>
        -- An option that stands in front of the name as well counts as given behind it.
        let outer ← outer.settle
        let value? (flag : Flag) : Option String := inner.value? flag <|> outer.value? flag
        return ⟨((value? .output).bind format?).getD .text, inner.has .quiet || outer.has .quiet,
          value? .config, job⟩

end Invocation
end ConstraintGraph.CommandLine
