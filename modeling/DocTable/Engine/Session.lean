import DocTable.Error
/-!
# DocTable.Engine.Session

Working with a database engine.

The engine is not part of this library: it is a function from the calls that have been made and the
next call to a reply, so that every behaviour of an engine is one of its values. All that is known
of a reply is that its whole numbers may be shown. A `Session` is the state of working with an
engine, and `SessionM` a computation that calls it, writes to the log, draws ids and may fail. What
has been called and logged stays when a computation fails.
-/

namespace DocTable

/-- A call of the engine. -/
inductive Call where
  /-- Open a database. -/
  | connect (path : Text)
  /-- Run a statement with arguments. -/
  | run (text : Text) (args : List Json)
  /-- Run a statement once for each row of arguments. -/
  | runMany (text : Text) (rows : List (List Json))
  /-- Close the database. -/
  | close
  deriving DecidableEq

/-- A row of a result. -/
abbrev Row := List Json

/-- What the engine replies to a call. -/
inductive Reply where
  /-- Rows, and the number of rows of the database that were changed. -/
  | rows (rows : List Row) (changes : Int)
  | fail (e : EngineError)

/-- Whether the whole numbers of a reply may be shown. -/
def Reply.isShowable : Reply → Bool
  | .rows found changes => found.all (·.all Json.isShowable) && Decimal.isShowable changes
  | .fail _ => true

/-- The behaviour of an engine: its reply to a call after earlier calls. An engine has whole numbers
of 64 bits, so all of its numbers may be shown. -/
structure Engine where
  reply : List Call → Call → Reply
  isShowable : ∀ calls c, (reply calls c).isShowable = true

instance : CoeFun Engine fun _ => List Call → Call → Reply := ⟨Engine.reply⟩

/-- The weight of a log entry. -/
inductive Level where
  | debug
  | warning

/-- Which part of the library wrote a log entry. -/
inductive Source where
  | engine
  | table

/-- An entry of the log. -/
structure LogEntry where
  level : Level
  source : Source
  message : Text

/-- The line of a log entry. -/
def LogEntry.line (e : LogEntry) : Text :=
  let level := match e.level with
    | .debug => "DEBUG"
    | .warning => "WARNING"
  let source := match e.source with
    | .engine => "sqldoc.engine"
    | .table => "sqldoc.table"
  level.toList ++ ' ' :: source.toList ++ [':', ' '] ++ e.message

/-- The numbers of a version. -/
abbrev Version := List Int

namespace Version

/-- Whether a version comes before another one. -/
def before : Version → Version → Bool
  | a :: as, b :: bs => a < b || (a == b && before as bs)
  | [], _ :: _ => true
  | _, [] => false

/-- The text of a version. -/
def text (v : Version) : Text :=
  Text.join ['.'] (v.map Decimal.ofInt)

end Version

/-- The state of working with an engine. -/
structure Session where
  engine : Engine
  /-- The version of the engine. -/
  version : Version
  /-- The ids that are given out, by number. -/
  ids : Nat → Text
  /-- How many ids have been given out. -/
  drawn : Nat
  /-- The calls that have been made, in order. -/
  calls : List Call
  /-- How many rows have been changed. -/
  changes : Int
  log : List LogEntry

/-- A computation that works with an engine. -/
abbrev SessionM := ExceptT Error (StateM Session)

namespace Session

/-- The beginning of a session. -/
def start (engine : Engine) (version : Version) (ids : Nat → Text) : Session :=
  ⟨engine, version, ids, 0, [], 0, []⟩

/-- Call the engine. -/
def call (c : Call) : SessionM (List Row) := do
  let s ← get
  set { s with calls := s.calls ++ [c] }
  match s.engine s.calls c with
  | .fail e => throw (.engine e)
  | .rows rows changes =>
    modify fun s => { s with changes := s.changes + changes }
    return rows

/-- Run a statement. -/
def run (text : Text) (args : List Json) : SessionM (List Row) :=
  call (.run text args)

/-- Run a statement once for each row. -/
def runMany (text : Text) (rows : List (List Json)) : SessionM Unit :=
  discard (call (.runMany text rows))

/-- Close the database; this cannot fail. -/
def close : SessionM Unit :=
  modify fun s => { s with calls := s.calls ++ [.close] }

/-- How many rows have been changed so far. -/
def changed : SessionM Int := do
  return (← get).changes

/-- Write to the log. -/
def logEntry (level : Level) (source : Source) (message : Text) : SessionM Unit :=
  modify fun s => { s with log := s.log ++ [⟨level, source, message⟩] }

/-- Draw the next id. -/
def drawId : SessionM Text := do
  let s ← get
  set { s with drawn := s.drawn + 1 }
  return s.ids s.drawn

/-- Lift a result that needs no engine. -/
def lift {α : Type} (r : Except Error α) : SessionM α :=
  ExceptT.mk (pure r)

/-- Do something and close the database, whatever it comes to. -/
def closing {ε α : Type} (body : ExceptT ε (StateM Session) α) : ExceptT ε (StateM Session) α :=
  ExceptT.mk do
    let result ← body.run
    discard close.run
    return result

end Session

end DocTable
