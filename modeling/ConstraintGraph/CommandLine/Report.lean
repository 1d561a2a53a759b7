import ConstraintGraph.CommandLine.Perform
import ConstraintGraph.Json.Writer

namespace ConstraintGraph.CommandLine

structure Report where
  code : UInt8
  stdout : String
  stderr : String
  posts : List Post
deriving DecidableEq, Repr, Inhabited

def lines (texts : List String) : String := String.join (texts.map (· ++ "\n"))

def listed (names : List String) : String := String.intercalate ", " names

def prettyLine (j : Json) : String := j.pretty 0 ++ "\n"

def compactLine (j : Json) : String := j.normalize.compact ++ "\n"

namespace Product

def violationLine (b : ResolvedBinding) : String :=
  let bound := listed ((b.events.toList ++ b.objects.toList).map fun (v, id) => s!"{v}={id}")
  match b.violation with
  | some reason => s!"  - {reason.display}: {bound}"
  | none => s!"  - {bound}"

def resultLines (v : Results) (limit : Nat) (r : LabelledResult) : List String :=
  let counts := s!"{r.result.total.toNat} situation(s), {r.result.violated.toNat} violated"
  s!"{r.node}: {counts} ({r.result.percentage.plainText}%)" ::
    (v.violations r.node limit).map violationLine

def scopeLine (s : Scope) (kind : VariableKind) : String :=
  let names := (s.ofKind kind).map fun index => Variable.display ⟨kind, index⟩
  kind.name ++ ": " ++ (if names.isEmpty then "(none)" else listed names)

def text : Product → String
  | .plan _ _ p => prettyLine p.toJson
  | .scope _ kinds s => lines (kinds.map (scopeLine s))
  | .graph _ g => prettyLine g.toJson
  | .results v limit => lines (v.results.flatMap (resultLines v limit) ++ [v.summary])

def remarks : Product → List String
  | .plan order warnings _ =>
    warnings.map Diagnostic.display ++ ["order: " ++ String.intercalate " -> " order]
  | .graph n g => [s!"applied {n} command(s): {g.nodes.length} node(s), {g.edges.length} edge(s)"]
  | .scope _ _ _ => []
  | .results _ _ => []

def toJson : Product → Json
  | .plan order warnings p =>
    Json.normalize (.object [("order", Json.ofStrings order), ("plan", p.toJson),
      ("diagnostics", .array (warnings.map Diagnostic.toJson))])
  | .scope node kinds s =>
    Json.normalize (.object (("node", .string node) :: kinds.map fun kind =>
      (kind.name, .array ((s.ofKind kind).map fun index => .int index.toNat))))
  | .graph _ g => g.toJson
  | .results v _ => v.toJson

end Product

namespace Failure

def toJson : Failure → Json
  | .uncompilable e =>
    .object
      [("error", .string e.message),
        ("diagnostics", .array (e.diagnostics.map Diagnostic.toJson))]
  | failure => .object [("error", .string failure.message)]

def text : Failure → String
  | .uncompilable e => lines (e.diagnostics.map Diagnostic.display)
  -- Where a wording goes on, its line has no end yet.
  | failure => failure.message ++ (if failure.isOpen then "" else "\n")

end Failure

namespace Report

def ofProduct (format : Format) (quiet : Bool) (posts : List Post) (p : Product) : Report :=
  match quiet, format with
  | true, _ => ⟨0, "", "", posts⟩
  | false, .text => ⟨0, p.text, lines p.remarks, posts⟩
  | false, .json => ⟨0, prettyLine p.toJson, "", posts⟩

def ofFailure (format : Format) (quiet : Bool) (posts : List Post) (f : Failure) : Report :=
  match f, quiet, format with
  -- The program has no say in how it is told that it crashed.
  | .crashed, _, _ => ⟨101, "", f.text, posts⟩
  | .noService, _, _ => ⟨1, "", f.text, posts⟩
  | _, true, _ => ⟨1, "", "", posts⟩
  | _, false, .text => ⟨1, "", f.text, posts⟩
  | _, false, .json => ⟨1, "", compactLine f.toJson, posts⟩

def ofOutcome (format : Format) (quiet : Bool) (o : Outcome) : Report :=
  match o.result with
  | .ok product => ofProduct format quiet o.posts product
  | .error failure => ofFailure format quiet o.posts failure

end Report

def Invocation.run (h : Host) (i : Invocation) : Report :=
  .ofOutcome i.format i.quiet (h.perform i)

def versionLine : String := s!"{Program.name} {Program.version}\n"

def Stop.code : Stop → UInt8
  | .usage => 2
  | .help => 0
  | .version => 0

end ConstraintGraph.CommandLine
