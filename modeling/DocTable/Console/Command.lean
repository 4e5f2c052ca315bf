import DocTable.Config.Environment
import DocTable.Console.Output
import DocTable.Console.Query
import DocTable.Console.Words
/-!
# DocTable.Console.Command

Commands, and the command lines that are written for them.

`Request.ofWords` reads a whole line: options for all commands, the name of a command, its own
options and operands. It looks at the form of the words only; whether a filter or a document has a
meaning is for the command to find out.
-/

namespace DocTable.Console

/-- A command with its options. -/
inductive Command where
  /-- Create a table and indexes. -/
  | init (table : Text) (indexes uniqueIndexes : List Text)
  /-- Report on the database, and on each table if `stats` are wanted. -/
  | info (stats : Bool)
  /-- Insert the document or documents of a JSON text or of a file. -/
  | insert (table : Text) (document file : Option Text)
  | get (table id : Text)
  | find (table : Text) (query : Query)
  | count (table : Text) (query : Query)
  | delete (table : Text) (query : Query) (all : Bool)
  | patch (table document : Text) (query : Query) (all dryRun : Bool)
  | replace (table document : Text) (query : Query) (all : Bool)
  | explain (table : Text) (query : Query)
  | createIndex (table expr : Text) (name : Option Text) (unique : Bool)
  | listIndexes (table : Text)

/-- A command and what it works on. -/
structure Invocation where
  database : Text
  /-- The path of a configuration file; an empty one counts as none. -/
  configFile : Option Text
  style : Style
  /-- Whether the log is shown. -/
  verbose : Bool
  command : Command

/-- What a command line asks for. -/
inductive Request where
  | version
  | run (i : Invocation)

namespace Command

/-! ### Options and operands of the commands -/

/-- The options that select documents by a condition. -/
def conditionFlags : List Flag :=
  [.valued "--where", .valued "--arg", .valued "--filter"]

/-- The options of commands that change documents. -/
def changeFlags : List Flag :=
  .valued "--id" :: .switch "--all" :: conditionFlags

/-- The query of a line. -/
def queryOf (l : Line) (limit : Option Int) : Query where
  template := l.value? "--where"
  arguments := l.values "--arg"
  filters := l.values "--filter"
  id := l.value? "--id"
  order := l.value? "--order-by"
  descending := l.has "--desc"
  limit := limit

/-- The number of a limit that may be given. -/
def limitOf (l : Line) : Option (Option Int) :=
  match l.value? "--limit" with
  | none => some none
  | some t => (Integer.ofText t).toOption.map some

/-- Read words as the options and operands of one command. -/
def read (flags : List Flag) (words : List Text) : Option Line :=
  readWords flags true none words

/-- The command whose one operand is a table. -/
def onTable (flags : List Flag) (make : Text → Line → Command) (words : List Text) :
    Option Command := do
  let l ← read flags words
  match l.operands with
  | [table] => return make table l
  | _ => none

/-- The command with a table and another operand. -/
def onTwo (flags : List Flag) (make : Text → Text → Line → Command) (words : List Text) :
    Option Command := do
  let l ← read flags words
  match l.operands with
  | [first, second] => return make first second l
  | _ => none

/-- The command that inserts documents. -/
def insertOfWords (words : List Text) : Option Command := do
  let l ← read [(Flag.valued "--file").orShort 'f'] words
  match l.operands with
  | [table] => return .insert table none (l.value? "--file")
  | [table, document] => return .insert table (some document) (l.value? "--file")
  | _ => none

/-- The command that lists documents. -/
def findOfWords (words : List Text) : Option Command := do
  let flags := conditionFlags ++ [.valued "--order-by", .switch "--desc", .valued "--limit"]
  let l ← read flags words
  let limit ← limitOf l
  match l.operands with
  | [table] => return .find table (queryOf l limit)
  | _ => none

/-- The command that reports on the database. -/
def infoOfWords (words : List Text) : Option Command := do
  let l ← read [.switch "--stats"] words
  match l.operands with
  | [] => return .info (l.has "--stats")
  | _ => none

/-- The commands on indexes. -/
def indexOfWords (words : List Text) : Option Command := do
  match (← readWords [] false none words).operands with
  | [] => none
  | name :: rest =>
    if name = "create".toList then
      onTwo [.valued "--name", .switch "--unique"]
        (fun table expr l => .createIndex table expr (l.value? "--name") (l.has "--unique")) rest
    else if name = "list".toList then onTable [] (fun table _ => .listIndexes table) rest
    else none

/-- The readers of the commands, by name. -/
def readers : List (Text × (List Text → Option Command)) :=
  [ ("init".toList, onTable [.valued "--index", .valued "--unique-index"] fun table l =>
      .init table (l.values "--index") (l.values "--unique-index")),
    ("info".toList, infoOfWords),
    ("insert".toList, insertOfWords),
    ("get".toList, onTwo [] fun table id _ => .get table id),
    ("find".toList, findOfWords),
    ("count".toList, onTable conditionFlags fun table l => .count table (queryOf l none)),
    ("delete".toList, onTable changeFlags fun table l =>
      .delete table (queryOf l none) (l.has "--all")),
    ("patch".toList, onTwo (.switch "--dry-run" :: changeFlags) fun table document l =>
      .patch table document (queryOf l none) (l.has "--all") (l.has "--dry-run")),
    ("replace".toList, onTwo changeFlags fun table document l =>
      .replace table document (queryOf l none) (l.has "--all")),
    ("explain".toList, onTable (.valued "--id" :: conditionFlags) fun table l =>
      .explain table (queryOf l none)),
    ("index".toList, indexOfWords) ]

/-- The command that words after the options for all commands are written for. -/
def ofWords (name : Text) (words : List Text) : Option Command := do
  let (_, reader) ← readers.find? fun r => r.1 = name
  reader words

end Command

/-! ### Whole command lines -/

namespace Invocation

/-- The options for all commands. -/
def flags : List Flag :=
  [ .valued "--db", (Flag.valued "--config").orShort 'c', .switch "--json",
    (Flag.switch "--verbose").orShort 'v', .switch "--version" ]

/-- The database that is used unless another one is given. -/
def defaultDatabase : Text := "sqldoc.db".toList

/-- An option, or else a variable of the environment. -/
def valueOr (l : Line) (option : String) (env : Environment) (variableName : String) :
    Option Text :=
  (l.value? option).or (env.get? variableName)

/-- The invocation of a command under the options of a line. An empty database name counts as
absent. -/
def ofLine (l : Line) (env : Environment) (command : Command) : Invocation where
  database := match valueOr l "--db" env "SQLDOC_DB" with
    | some (c :: cs) => c :: cs
    | _ => defaultDatabase
  configFile := valueOr l "--config" env "SQLDOC_CONFIG"
  style := if l.has "--json" then .json else .plain
  verbose := l.has "--verbose"
  command := command

end Invocation

namespace Request

/-- The options for all commands, and the words from the name of the command on. -/
def line? (words : List Text) : Option Line :=
  readWords Invocation.flags false none words

/-- What words ask for; nothing if they have no reading. The version is answered before the name
of a command is looked at. -/
def ofWords (env : Environment) (words : List Text) : Option Request := do
  let l ← line? words
  if l.has "--version" then return .version
  match l.operands with
  | [] => none
  | name :: rest =>
    if Command.readers.any fun r => r.1 = name then
      return .run (.ofLine l env (← Command.ofWords name rest))
    else if (← line? l.operands).has "--version" then return .version
    else none

end Request

end DocTable.Console
