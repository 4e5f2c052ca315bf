import DocTable.Engine.Session
/-!
# DocTable.Engine.Connect

Opening a database, and what the engine can do.

Setting up a database that is open can fail: the engine may refuse a statement, and the time to wait
for locks may be a number with too many digits for one.
-/

namespace DocTable

/-- The first version that stores documents in a binary form. -/
def binaryVersion : Version := [3, 45, 0]

/-- The first version with the operator that extracts members. -/
def arrowVersion : Version := [3, 38, 0]

/-- Whether a version stores documents in a binary form. -/
def supportsBinary (v : Version) : Bool :=
  !Version.before v binaryVersion

/-- The storage form that a configuration asks for, on an engine of a version. -/
def resolveStorage (c : Config) (v : Version) : Except ConfigError Sql.Storage :=
  match c.storage with
  | .auto => .ok (if supportsBinary v then .binary else .textual)
  | .fixed .textual => .ok .textual
  | .fixed .binary =>
    if supportsBinary v then .ok .binary else .error (.binaryUnsupported (Version.text v))

namespace Session

/-- The first cell of the first row. -/
def firstCell (rows : List Row) : SessionM Json :=
  match rows with
  | [] => throw (.row .noRow)
  | [] :: _ => throw (.row .noCell)
  | (cell :: _) :: _ => pure cell

/-- Set the journal mode; an engine that keeps another one is worth a warning. -/
def setJournalMode (mode : Text) : SessionM Unit := do
  let kept ← firstCell (← run ("PRAGMA journal_mode=".toList ++ mode) [])
  if Text.lower kept.plain ≠ Text.lower mode then
    logEntry .warning .engine
      ("journal_mode ".toList ++ mode ++ " requested, engine kept ".toList ++ kept.plain)

/-- The statement that sets the time to wait for locks, unless the time is too long for one. -/
def busyTimeout (milliseconds : Nat) : Except Error Text :=
  if Decimal.isShowable milliseconds then
    .ok ("PRAGMA busy_timeout=".toList ++ Decimal.ofNat milliseconds)
  else .error .notShowable

/-- Open a database. The journal mode is left alone where `setMode` does not hold, and for a
database in memory. -/
def connect (path : Text) (config : Config) (setMode : Bool) : SessionM Unit := do
  let version := (← get).version
  if Version.before version arrowVersion then
    logEntry .warning .engine
      ("SQLite ".toList ++ Version.text version
        ++ " lacks the ->> operator; document queries will fail".toList)
  discard (call (.connect path))
  if setMode && path ≠ ":memory:".toList then
    setJournalMode config.journalMode
  discard (run (← lift (busyTimeout config.busyTimeout)) [])
  logEntry .debug .engine
    ("opened ".toList ++ path ++ " (sqlite ".toList ++ Version.text version ++ [')'])

end Session

end DocTable
