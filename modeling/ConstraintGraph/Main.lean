import ConstraintGraph.CommandLine.Report

/-!
The program. It reads the files and the environment variables that an invocation names, and writes
what the report of the invocation says. It opens no connection and no port: an evaluator is always
out of reach, and the service does not start.
-/

namespace ConstraintGraph.CommandLine

def Job.files : Job → List String
  | .compile graph => [graph]
  | .scope graph _ _ => [graph]
  | .replay commands graph => commands :: graph.toList
  | .evaluate graph _ response _ => graph :: response.toList
  | .serve _ => []

def Invocation.files (i : Invocation) : List String :=
  i.settings.getD Settings.defaultFile :: i.job.files

def readEntry (path : String) : IO FileEntry := do
  try
    match String.fromUTF8? (← IO.FS.readBinFile path) with
    | some content => return .text content
    | none => return .unreadable
  catch
    | .noFileOrDirectory .. => return .absent
    | .inappropriateType .. => return .absent
    | _ => return .unreadable

def surroundings (i : Invocation) : IO Host := do
  let files ← i.files.mapM fun path => return (path, ← readEntry path)
  let names := [Settings.urlVariable, Settings.portVariable, Settings.logVariable]
  let environment ← names.mapM fun name => return (name, ← IO.getEnv name)
  return {
    file := fun path => (files.lookup path).getD .absent
    environment := fun name => (environment.lookup name).join
    deliver := fun _ _ => .unreachable }

def usage : String :=
  s!"usage: {Program.name} [--output text|json] [--quiet] [--config FILE] JOB\n" ++
    "  compile GRAPH\n" ++
    "  scope GRAPH --node ID [--kind event|object]\n" ++
    "  replay COMMANDS [--graph GRAPH]\n" ++
    "  evaluate GRAPH [--evaluator URL | --response FILE] [--limit N]\n" ++
    "  serve [--port N]\n"

end ConstraintGraph.CommandLine

open ConstraintGraph ConstraintGraph.CommandLine

def main (words : List String) : IO UInt32 := do
  match Invocation.ofWords words with
  | .ok i =>
    let report := i.run (← surroundings i)
    IO.print report.stdout
    IO.eprint report.stderr
    return report.code.toUInt32
  | .error stop =>
    match stop with
    | .version => IO.print versionLine
    | .help => IO.print usage
    | .usage => IO.eprint usage
    return stop.code.toUInt32
