import DocTable.Engine.Session
/-!
# DocTable.Console.Failure

How commands fail: what is told to the user, and with which code the program ends.

Which errors are expected depends on what a command is doing. An error that nobody expects has no
exit code and ends the program as it is.
-/

namespace DocTable

/-- Whether an error says that an input has no meaning, as opposed to a value of a wrong kind. -/
def Error.isBadInput : Error → Bool
  | .query e =>
    match e with
    | .composition _ | .path _ | .unknownConnective _ | .notCondition _ | .noOrderKeys
    | .unknownEncoding _ => true
    | .integer e =>
      match e with
      | .notInteger _ | .tooManyDigits _ | .nan => true
      | .infinite | .wrongKind _ => false
    | .equalsNull | .differsFromNull | .notIterable _ | .unknownOperator _ | .noOperand
    | .badOperands .. | .badOperand _ => false
  | .notShowable | .reading _ | .decoding _ | .notFinite | .invalid _ | .input _ | .words _
  | .cacheLimit => true
  | .row e =>
    match e with
    | .tooFewCells .. | .tooManyCells _ => true
    | .noRow | .noCell | .notText _ => false
  | .scalar _ | .config _ | .order _ | .file _ | .noMember .. | .engine _
  | .tooManyColumns => false

namespace Console

/-- What a command is doing. -/
inductive Phase where
  /-- Finding the configuration and opening the database. -/
  | opening
  /-- Looking at the database as a whole. -/
  | inspecting
  /-- Working on a table. -/
  | working

/-- How a command fails. -/
inductive Failure where
  | databaseMissing (path : Text)
  | tableMissing (name : Text)
  | documentMissing (id table : Text)
  | error (phase : Phase) (e : Error)

namespace Failure

/-- What the user is told. -/
def message : Failure → Text
  | databaseMissing path => "Database not found: ".toList ++ path
  | tableMissing name => "Table '".toList ++ name ++ "' not found".toList
  | documentMissing id table =>
    "No document with id '".toList ++ id ++ "' in '".toList ++ table ++ ['\'']
  | error .opening (.engine e) => "Cannot open database: ".toList ++ e.message
  | error _ e => e.message

/-- The exit code for trouble with files. -/
def fileTrouble : Nat := 1

/-- The exit code for words, settings and documents without a meaning. -/
def badUsage : Nat := 2

/-- The exit code for trouble with the database. -/
def databaseTrouble : Nat := 3

/-- The exit code for a table or document that does not exist. -/
def notFound : Nat := 4

/-- The exit code of a failure that is expected. -/
def exitCode? : Failure → Option Nat
  | databaseMissing _ => some databaseTrouble
  | tableMissing _ | documentMissing .. => some notFound
  | error _ (.engine _) => some databaseTrouble
  | error .opening (.config _) | error .working (.config _) => some badUsage
  | error .working (.file _) => some fileTrouble
  | error .working e => if e.isBadInput then some badUsage else none
  | error _ _ => none

end Failure

end Console

end DocTable
