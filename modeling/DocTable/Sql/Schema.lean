import DocTable.Sql.Error
import DocTable.Sql.Shorthand
/-!
# DocTable.Sql.Schema

Statements that create tables and indexes, and the fixed parts of those that write documents.
-/

namespace DocTable.Sql

/-- How documents are stored: in the engine's binary form, or as text. -/
inductive Storage where
  | binary
  | textual
  deriving DecidableEq

namespace Storage

/-- The name of a storage form. -/
def name : Storage → Text
  | .binary => "jsonb".toList
  | .textual => "json".toList

/-- The storage form with a name. -/
def ofName (name : Text) : Except QueryError Storage :=
  if name = "jsonb".toList then .ok .binary
  else if name = "json".toList then .ok .textual
  else .error (.unknownEncoding name)

/-- The type of the column that holds the documents. -/
def columnType : Storage → Text
  | .binary => "blob".toList
  | .textual => "text".toList

/-- The function that stores JSON text. -/
def encodeFunction : Storage → Text
  | .binary => "jsonb".toList
  | .textual => "json".toList

/-- The function that merges a patch into a stored document. -/
def patchFunction : Storage → Text
  | .binary => "jsonb_patch".toList
  | .textual => "json_patch".toList

end Storage

/-- Create a table of documents, unless there is one. -/
def createTable (name : Text) (storage : Storage) : Text :=
  "create table if not exists ".toList ++ name ++ " (".toList ++ dataColumn ++ ' ' ::
    storage.columnType ++ [')']

/-- Runs of characters other than letters become one underscore; `run` says that one is open. -/
def squeeze (run : Bool) : Text → Text
  | [] => []
  | c :: rest =>
    if Text.isLetter c then c :: squeeze false rest
    else if run then squeeze true rest
    else '_' :: squeeze true rest

/-- A text without one underscore at its end. -/
def dropLastUnderscore (t : Text) : Text :=
  if t.getLast? = some '_' then t.dropLast else t

/-- The name that an expression gives to an index: its letters, with single underscores for what
stands between them. -/
def expressionName (expr : Text) : Text :=
  dropLastUnderscore (squeeze false expr)

/-- The name of an index over an expression, unless one is given. -/
def indexName (table expr : Text) : Text :=
  table ++ '_' :: expressionName expr

/-- Create an index with a name. -/
def createNamedIndex (table expr name : Text) (unique : Bool) : Text :=
  "create ".toList ++ (if unique then "unique ".toList else []) ++ "index if not exists ".toList
    ++ name ++ " on ".toList ++ table ++ " (".toList ++ expr ++ [')']

/-- Create an index over an expression; an empty name counts as none. -/
def createIndex (table expr : Text) (name : Option Text) (unique : Bool) : Text :=
  let given := match name with
    | some (c :: cs) => c :: cs
    | _ => indexName table expr
  createNamedIndex table expr given unique

/-- Insert one document. -/
def insertInto (table : Text) (storage : Storage) : Text :=
  "insert into ".toList ++ table ++ " (".toList ++ dataColumn ++ ") values (".toList
    ++ storage.encodeFunction ++ "(?))".toList

end DocTable.Sql
