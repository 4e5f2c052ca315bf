import DocTable.Console.Run
import DocTable.Engine.Rules
/-!
# DocTable.Main

The console as a program.

There is no database engine in this library. The program works on an engine that takes every
statement and holds no rows, so it shows how command lines are read, what is refused, and, with
`--verbose`, which statements would be run.
-/

namespace DocTable.Console

/-- The file at a path, if there is one. -/
def readFile (path : Text) : IO Files := do
  try
    return [(path, (← IO.FS.readBinFile (String.ofList path)).toList)]
  catch _ => return []

/-- The files that a request may look at. -/
def pathsOf : Request → List Text
  | .version => []
  | .run i =>
    let documents := match i.command with
      | .insert _ _ (some file) => [file]
      | _ => []
    i.database :: i.configFile.toList ++ documents

/-- The variables of the environment that matter. -/
def readEnvironment : IO Environment := do
  let names := ["SQLDOC_DB", "SQLDOC_CONFIG", "SQLDOC_ENCODING", "SQLDOC_JOURNAL_MODE",
    "SQLDOC_BUSY_TIMEOUT_MS"]
  let found ← names.mapM fun name => do
    return (← IO.getEnv name).map fun value => (name.toList, value.toList)
  return found.filterMap id

/-- Perform a request and print what it leaves. -/
def perform (environment : Environment) (request : Request) : IO UInt32 := do
  let files ← (pathsOf request).mapM readFile
  let seed ← IO.rand 0 0x100000000
  let ids (n : Nat) : Text := Decimal.ofNat seed ++ '-' :: Decimal.ofNat (n + 1)
  let session := Session.start (Rules.engine []) [3, 45, 1] ids
  let outcome := request.perform ⟨files.flatten, environment⟩ session
  IO.print (String.ofList (Output.text outcome.output))
  IO.eprint (String.ofList (Output.text outcome.errors))
  match outcome.ending with
  | .exit code => return code.toUInt32
  | .crash e =>
    IO.eprintln (String.ofList e.message)
    return 1

end DocTable.Console

/-- The program. -/
def main (words : List String) : IO UInt32 := do
  let environment ← DocTable.Console.readEnvironment
  match DocTable.Console.Request.ofWords environment (words.map String.toList) with
  | some request => DocTable.Console.perform environment request
  | none =>
    IO.eprintln "Error: no such command line"
    return 2
