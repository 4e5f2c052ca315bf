import DocTable.Console.Command
import DocTable.Console.Failure
import DocTable.Table.Basic
/-!
# DocTable.Console.Run

What commands do.

`Invocation.run` is a computation that calls the engine and answers the lines to print. Commands on
a table share one frame: the database is opened, the table is looked up unless it may be created,
and the database is closed again, whatever happens in between.
-/

namespace DocTable.Console

/-- A computation of a command. -/
abbrev ConsoleM := ExceptT Failure (StateM Session)

/-- What the console sees of its surroundings. -/
structure Surroundings where
  files : Files
  environment : Environment

/-- Do something in a phase. -/
def during {α : Type} (phase : Phase) (m : SessionM α) : ConsoleM α :=
  ExceptT.adapt (.error phase) m

/-! ### Input -/

/-- The JSON value of a text. -/
def readJson (t : Text) : Except Error Json :=
  (Json.read t).mapError .reading

/-- The document or documents to insert; a file that is named comes first. -/
def payload (files : Files) (document file : Option Text) : Except Error Json :=
  match Query.nonEmpty? file with
  | some path => do
    let content ← (files.read path).mapError .file
    readJson (← content.text.mapError .decoding)
  | none =>
    match document with
    | some t => readJson t
    | none => .error (.input .noDocument)

/-- A value that has to be an object; `what` names it in the message. -/
def requireObject (what : String) (v : Json) : Except Error Json :=
  match v with
  | .object _ => .ok v
  | v => .error (.input (.notObject what.toList v.kind))

/-- The fragments of a selection; only with `all` may it be without any. -/
def selection (q : Query) (all : Bool) : Except Error (List Sql.Fragment) := do
  let fragments ← q.fragments
  if fragments.isEmpty && !all then .error (.input .noSelection) else return fragments

/-- Fragments as arguments of a table. -/
def asArguments (fragments : List Sql.Fragment) : List Argument :=
  fragments.map .fragment

/-! ### Commands on tables -/

namespace Command

open Session

/-- Insert one document or several, and show them as they are stored. -/
def runInsert (files : Files) (style : Style) (document file : Option Text) (t : Table) :
    SessionM (List Text) := do
  match ← lift (payload files document file) with
  | .array items =>
    let docs ← lift (items.mapM (requireObject "Each document"))
    lift (Output.documentLines style (← t.insertMany docs))
  | v =>
    let doc ← lift (requireObject "Document" v)
    lift (Output.documentLines style [← t.insert doc])

/-- Create indexes, and report what has been set up. -/
def runInit (database : Text) (style : Style) (indexes uniqueIndexes : List Text) (t : Table) :
    SessionM (List Text) := do
  let plain ← indexes.mapM fun expr => t.createIndex expr none false
  let unique ← uniqueIndexes.mapM fun expr => t.createIndex expr none true
  return Output.members style
    [ ("db_path".toList, .text database),
      ("table".toList, .text t.name),
      ("encoding".toList, .text t.storage.name),
      ("indexes".toList, .array ((plain ++ unique).map .text)),
      ("status".toList, .text "initialized".toList) ]

/-- Show the documents that are selected. -/
def runFind (style : Style) (q : Query) (t : Table) : SessionM (List Text) := do
  let fragments ← lift q.fragments
  lift (Output.documentLines style (← t.all (asArguments fragments)))

/-- Show how many documents are selected. -/
def runCount (style : Style) (q : Query) (t : Table) : SessionM (List Text) := do
  let fragments ← lift q.fragments
  let n ← t.count (asArguments fragments)
  match style with
  | .json => return Output.members style [("table".toList, .text t.name), ("count".toList, .int n)]
  | .plain => return [Decimal.ofInt n]

/-- Change documents, and report under `key` how many have been changed. -/
def reportChanges (style : Style) (key : String) (t : Table) (change : SessionM Unit) :
    SessionM (List Text) := do
  let before ← changed
  change
  let after ← changed
  return Output.members style
    [("table".toList, .text t.name), (key.toList, .int (after - before))]

/-- Delete the documents that are selected. -/
def runDelete (style : Style) (q : Query) (all : Bool) (t : Table) : SessionM (List Text) := do
  let fragments ← lift (selection q all)
  reportChanges style "deleted" t (t.delete (asArguments fragments))

/-- Merge a patch into the documents that are selected, or show what they would become. -/
def runPatch (style : Style) (document : Text) (q : Query) (all dryRun : Bool) (t : Table) :
    SessionM (List Text) := do
  let patch ← lift (do requireObject "Patch" (← readJson document))
  let args := asArguments (← lift (selection q all))
  if dryRun then
    let docs ← t.all args
    lift (Output.documentLines style (docs.map fun doc => Document.mergePatch doc patch))
  else reportChanges style "patched" t (t.patch patch args)

/-- Overwrite the documents that are selected. -/
def runReplace (style : Style) (document : Text) (q : Query) (all : Bool) (t : Table) :
    SessionM (List Text) := do
  let doc ← lift (do requireObject "Document" (← readJson document))
  let fragments ← lift (selection q all)
  reportChanges style "replaced" t (t.replace doc (asArguments fragments))

/-- Show how the engine would select documents. -/
def runExplain (style : Style) (q : Query) (t : Table) : SessionM (List Text) := do
  let fragments ← lift q.fragments
  let plan ← t.explain (asArguments fragments)
  match style with
  | .json =>
    return Output.members style
      [("table".toList, .text t.name), ("plan".toList, .array (plan.map .text))]
  | .plain => return plan

/-- Create an index, and show the statement. -/
def runCreateIndex (style : Style) (expr : Text) (name : Option Text) (unique : Bool) (t : Table) :
    SessionM (List Text) := do
  let sql ← t.createIndex expr name unique
  return Output.members style [("table".toList, .text t.name), ("sql".toList, .text sql)]

/-- Show the indexes on a table. -/
def runListIndexes (style : Style) (t : Table) : SessionM (List Text) := do
  let found ← indexes t.name
  if found.isEmpty && style ≠ .json then
    return ["No indexes on '".toList ++ t.name ++ ['\'']]
  let rows := found.map fun i => [.text i.name, .bool i.unique, i.sql]
  lift (Output.complete
    (Output.table style ["name".toList, "unique".toList, "sql".toList] rows))

/-- Show the document with an id. -/
def runGet (style : Style) (id : Text) (t : Table) : ConsoleM (List Text) := do
  match ← during .working (t.getById? id) with
  | none | some .null => throw (.documentMissing id t.name)
  | some doc => during .working (lift (Output.documentLines style [doc]))

end Command

/-! ### Invocations -/

namespace Invocation

open Session

/-- The configuration of an invocation: its file, if there is one, under the environment. -/
def config (i : Invocation) (s : Surroundings) : Except Error Config := do
  let base ← match Query.nonEmpty? i.configFile with
    | some path => (ConfigFile.load s.files path).mapError Error.ofConfigFile
    | none => .ok Config.default
  (base.overlay s.environment).mapError .config

/-- The name under which a database is kept in memory. -/
def inMemory : Text := ":memory:".toList

/-- Open the database. -/
def openDatabase (i : Invocation) (s : Surroundings) (mustExist setMode : Bool) :
    ConsoleM Config := do
  if mustExist && i.database ≠ inMemory && !s.files.has i.database then
    throw (.databaseMissing i.database)
  let config ← during .opening (lift (i.config s))
  during .opening (connect i.database config setMode)
  return config

/-- Look a table up among those of the database. -/
def requireTable (name : Text) : ConsoleM Unit := do
  if !(← during .working tables).contains name then throw (.tableMissing name)

/-- Work on a table of the database. A table that must exist is looked up first, any other is
created. -/
def withTable (i : Invocation) (s : Surroundings) (mustExist : Bool) (name : Text)
    (body : Table → ConsoleM (List Text)) : ConsoleM (List Text) := do
  let config ← i.openDatabase s mustExist true
  closing do
    if mustExist then requireTable name
    body (← during .working (Table.provision name config))

/-- How many documents a table has. -/
def documentCount (table : Text) : SessionM Int := do
  let cell ← firstCell (← run ("SELECT count(*) FROM \"".toList ++ table ++ ['"']) [])
  lift ((Integer.ofJson cell).mapError fun e => .query (.integer e))

/-- A number for each table; a name that is listed twice is counted once. -/
def perTable (tables : List Text) (count : Text → SessionM Int) : SessionM Members := do
  return Members.ofPairs (← tables.mapM fun t => do return (t, .int (← count t)))

/-- The line of a table in a report. -/
def tableLine (documents indexes : Members) (table : Text) : Text :=
  let number (ms : Members) : Text := ((Members.get? table ms).getD .null).plain
  ' ' :: ' ' :: table ++ ':' :: ' ' :: number documents ++ " documents, ".toList ++ number indexes
    ++ " indexes".toList

/-- The report on a database. -/
def report (i : Invocation) (s : Surroundings) (stats : Bool) : SessionM (List Text) := do
  let version := (← get).version
  let names ← tables
  let size : Members := match s.files.find? i.database with
    | some content => [("file_size_bytes".toList, .int content.length)]
    | none => []
  let documents ← if stats then perTable names documentCount else pure []
  let indexes ← if stats then perTable names fun t => do return (← indexes t).length else pure []
  match i.style with
  | .json =>
    let counts : Members := if stats then
        [ ("document_counts".toList, .object documents),
          ("index_counts".toList, .object indexes),
          ("memo_cache".toList, .object
            [("hits".toList, .int 0), ("misses".toList, .int 0), ("size".toList, .int 0)]) ]
      else []
    return Output.members .json
      ([ ("db_path".toList, .text i.database),
         ("sqlite_version".toList, .text version.text),
         ("jsonb_supported".toList, .bool (supportsBinary version)),
         ("tables".toList, .array (names.map .text)) ] ++ size ++ counts)
  | .plain =>
    let listed := if names.isEmpty then "(none)".toList else Text.join [',', ' '] names
    let about :=
      [ "Database: ".toList ++ i.database,
        "SQLite: ".toList ++ version.text
          ++ (if supportsBinary version then " (jsonb: yes)" else " (jsonb: no)").toList,
        "Tables: ".toList ++ listed ]
    return about ++ (if stats then names.map (tableLine documents indexes) else [])

/-- Do what an invocation asks for, and answer the lines to print. -/
def run (i : Invocation) (s : Surroundings) : ConsoleM (List Text) :=
  let onTable (table : Text) (body : Table → SessionM (List Text)) : ConsoleM (List Text) :=
    i.withTable s true table fun t => during .working (body t)
  match i.command with
  | .info stats => do
    let _ ← i.openDatabase s true false
    closing (during .inspecting (i.report s stats))
  | .init table indexes uniqueIndexes =>
    i.withTable s false table fun t =>
      during .working (Command.runInit i.database i.style indexes uniqueIndexes t)
  | .insert table document file =>
    i.withTable s false table fun t =>
      during .working (Command.runInsert s.files i.style document file t)
  | .get table id => i.withTable s true table (Command.runGet i.style id)
  | .find table q => onTable table (Command.runFind i.style q)
  | .count table q => onTable table (Command.runCount i.style q)
  | .delete table q all => onTable table (Command.runDelete i.style q all)
  | .patch table document q all dryRun =>
    onTable table (Command.runPatch i.style document q all dryRun)
  | .replace table document q all => onTable table (Command.runReplace i.style document q all)
  | .explain table q => onTable table (Command.runExplain i.style q)
  | .createIndex table expr name unique =>
    onTable table (Command.runCreateIndex i.style expr name unique)
  | .listIndexes table => onTable table (Command.runListIndexes i.style)

end Invocation

/-! ### Programs -/

/-- How a run of the program ends: with an exit code, or with an error that nobody expected. -/
inductive Ending where
  | exit (code : Nat)
  | crash (e : Failure)

/-- What a run of the program leaves. -/
structure Outcome where
  output : List Text
  errors : List Text
  ending : Ending
  session : Session

/-- The line that tells the version of the program. -/
def versionLine : Text := "sqldoc 0.1.0".toList

/-- Do what a request asks for in a session. The log is shown before the message of a failure. -/
def Request.perform (r : Request) (s : Surroundings) (session : Session) : Outcome :=
  match r with
  | .version => ⟨[versionLine], [], .exit 0, session⟩
  | .run i =>
    let (result, session) := (i.run s).run.run session
    let shown := if i.verbose then session.log.map LogEntry.line else []
    match result with
    | .ok lines => ⟨lines, shown, .exit 0, session⟩
    | .error e =>
      match e.exitCode? with
      | some code => ⟨[], shown ++ [Output.error e.message], .exit code, session⟩
      | none => ⟨[], shown, .crash e, session⟩

end DocTable.Console
