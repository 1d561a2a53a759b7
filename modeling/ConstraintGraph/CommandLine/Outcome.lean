import ConstraintGraph.Compilation
import ConstraintGraph.Edit.Apply
import ConstraintGraph.Evaluation.Session
import ConstraintGraph.Settings

namespace ConstraintGraph.CommandLine

inductive Product where
  | plan (order : List String) (warnings : List Diagnostic) (plan : Plan)
  | scope (node : String) (kinds : List VariableKind) (scope : Scope)
  | graph (commands : Nat) (graph : Graph)
  | results (results : Results) (limit : Nat)
deriving DecidableEq, Inhabited

inductive FileRole where
  | graph
  | commands
  | response
deriving DecidableEq, Repr, Inhabited

inductive Failure where
  | settings (error : SettingsError)
  | logFilter (filter : String)
  | noFile (role : FileRole) (path : String)
  -- A file is not JSON, or the JSON in it is faulty.
  | badFile (role : FileRole) (path : String) (fault : DecodeError)
  | badResponse (path : String) (fault : ResponseError)
  | unknownNode (node path : String)
  | rejected (error : ReplayError)
  | uncompilable (error : CompileError)
  | evaluation (error : EvaluationError)
  | discarded
  | noService
  | crashed
deriving DecidableEq, Inhabited

namespace FileRole

def name : FileRole → String
  | .graph => "graph"
  | .commands => "commands"
  | .response => "response"

end FileRole

namespace Failure

def message : Failure → String
  | .settings e => "error: " ++ e.message
  -- What is worded elsewhere is left out.
  | .logFilter filter => s!"error: invalid log level '{filter}': <detail>"
  | .noFile role path => s!"error: {role.name} file not found: {path}"
  | .badFile role path fault =>
    s!"error: invalid {role.name} in {path}: " ++ fault.message?.getD "<detail>"
  | .badResponse path fault =>
    s!"error: invalid {FileRole.response.name} in {path}: {fault.message}"
  | .unknownNode node path => s!"error: node '{node}' not found in {path}"
  | .rejected e => "error: " ++ e.message
  | .uncompilable e => e.message
  | .evaluation e => e.message
  | .discarded => "error: evaluation result was discarded"
  | .noService => "Server error: <detail>"
  | .crashed => "<detail>"

def isOpenResponse : ResponseError → Bool
  | .notJson | .badData _ => true
  | .notAnObject | .noResults | .inconsistentCounts _ _ _ | .bindingOutOfRange _ _ _ _ => false

/-- The wording goes on in words that are not the program's own. -/
def isOpen : Failure → Bool
  | .settings (.unreadable _) | .settings (.unparsable _) => true
  | .settings (.invalidPort _) => false
  | .logFilter _ | .badFile _ _ _ | .noService | .crashed => true
  | .badResponse _ fault => isOpenResponse fault
  | .evaluation (.transport _ _) => true
  | .evaluation (.malformed fault) => isOpenResponse fault
  | .evaluation .inProgress | .evaluation (.lengthMismatch _ _) => false
  | .noFile _ _ | .unknownNode _ _ | .rejected _ | .uncompilable _ | .discarded => false

end Failure
end ConstraintGraph.CommandLine
