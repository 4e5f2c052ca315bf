import DocTable.Engine.Connect
import DocTable.Engine.Inspect
import DocTable.Sql.Clause
import DocTable.Sql.Statement
/-!
# DocTable.Table.Basic

Tables of documents.

A table is a name and a storage form. Its operations put a statement together and hand it to the
engine; arguments are looked at before anything is run, and values are only ever bound.
-/

namespace DocTable

/-- A table of documents. -/
structure Table where
  name : Text
  storage : Sql.Storage

/-- What a caller passes where a fragment is wanted. -/
inductive Argument where
  | fragment (f : Sql.Fragment)
  /-- Anything else. -/
  | other (v : Json)

/-- The items of arguments; all of them have to be fragments. -/
def Argument.items (args : List Argument) : Except Error (List Sql.Item) :=
  args.mapM fun
    | .fragment f => .ok (.fragment f)
    | .other v => .error (.query (.composition (.tableArgument v.kind)))

namespace Table

open Session

/-- Create a table and its unique index on ids, unless they exist. -/
def provision (name : Text) (config : Config) : SessionM Table := do
  let storage ← lift ((resolveStorage config (← get).version).mapError .config)
  discard (run (Sql.createTable name storage) [])
  discard (run (Sql.createIndex name (Sql.expand "$id".toList) none true) [])
  logEntry .debug .table
    ("provisioned table ".toList ++ name ++ " (encoding=".toList ++ storage.name ++ [')'])
  return ⟨name, storage⟩

/-- A table inside a message. -/
def display (t : Table) : Text :=
  "Table(".toList ++ Text.quoted t.name ++ ", encoding=".toList ++ Text.quoted t.storage.name
    ++ [')']

/-! ### Statements -/

/-- The statement of items, as a step of an operation. -/
def statement (items : List Sql.Item) : Except Error Sql.Statement :=
  (Sql.Statement.ofItems items).mapError fun e => .query (.composition e)

/-- The statement that selects documents. -/
def selection (t : Table) (args : List Argument) : Except Error Sql.Statement := do
  let items ← Argument.items args
  statement (.raw "select json(data) from".toList :: .raw t.name :: items)

/-- The statement that deletes documents. -/
def deletion (t : Table) (args : List Argument) : Except Error Sql.Statement := do
  let items ← Argument.items args
  statement (.raw "delete from".toList :: .raw t.name :: items)

/-- The statement that counts documents. -/
def counting (t : Table) (args : List Argument) : Except Error Sql.Statement := do
  let items ← Argument.items args
  statement (.raw "select count(*) from".toList :: .raw t.name :: items)

/-- The stored text of a document. -/
def encode (doc : Json) : Except Error Text :=
  (Document.encode doc).mapError .ofWrite

/-- The statement that sets the documents of a table to an expression of one value. -/
def update (t : Table) (expression : Text) (doc : Json) (args : List Argument) :
    Except Error Sql.Statement := do
  let text ← encode doc
  let assignment ← (Sql.Fragment.sql ("set data = ".toList ++ expression) [.text text]).mapError
    fun e => .query (.composition e)
  let items ← Argument.items args
  statement (.raw "update".toList :: .raw t.name :: .fragment assignment :: items)

/-- The statement that merges a patch into documents. -/
def patching (t : Table) (doc : Json) (args : List Argument) : Except Error Sql.Statement :=
  t.update (t.storage.patchFunction ++ "(data, ?)".toList) doc args

/-- The statement that overwrites documents. -/
def replacing (t : Table) (doc : Json) (args : List Argument) : Except Error Sql.Statement :=
  t.update (t.storage.encodeFunction ++ "(?)".toList) doc args

/-- Log a statement and run it. -/
def execute (s : Sql.Statement) : SessionM (List Row) := do
  logEntry .debug .table
    ("execute ".toList ++ s.text ++ " [".toList ++ Decimal.ofNat s.args.length
      ++ " args]".toList)
  run s.text s.args

/-! ### Writing -/

/-- The document with an id, drawn if it has none. -/
def identified (doc : Json) : SessionM Json :=
  match doc with
  | .object members =>
    if Document.hasId members then pure doc
    else do return .object (Document.identify (← drawId) members)
  | v => throw (.noMember v.kind "get".toList)

/-- Store a document, and answer it with its id. -/
def insert (t : Table) (doc : Json) : SessionM Json := do
  let doc ← identified doc
  let text := Sql.insertInto t.name t.storage
  logEntry .debug .table ("execute ".toList ++ text ++ " [1 args]".toList)
  discard (run text [.text (← lift (encode doc))])
  return doc

/-- Store documents with one call, and answer them with their ids. -/
def insertMany (t : Table) (docs : List Json) : SessionM (List Json) := do
  let docs ← docs.mapM identified
  let text := Sql.insertInto t.name t.storage
  logEntry .debug .table
    ("executemany ".toList ++ text ++ " [".toList ++ Decimal.ofNat docs.length ++ " rows]".toList)
  let rows ← lift (docs.mapM fun doc => do return [.text (← encode doc)])
  runMany text rows
  return docs

/-- Delete the documents that are selected. -/
def delete (t : Table) (args : List Argument) : SessionM Unit := do
  discard (execute (← lift (t.deletion args)))

/-- Merge a patch into the documents that are selected. -/
def patch (t : Table) (doc : Json) (args : List Argument) : SessionM Unit := do
  discard (execute (← lift (t.patching doc args)))

/-- Overwrite the documents that are selected. -/
def replace (t : Table) (doc : Json) (args : List Argument) : SessionM Unit := do
  discard (execute (← lift (t.replacing doc args)))

/-! ### Reading -/

/-- The document in a row. -/
def decodeRow : Row → Except Error Json
  | [.text t] => (Json.read t).mapError .reading
  | [v] => .error (.row (.notText v.kind))
  | [] => .error (.row (.tooFewCells 1 0))
  | _ => .error (.row (.tooManyCells 1))

/-- The documents that are selected. -/
def all (t : Table) (args : List Argument) : SessionM (List Json) := do
  let rows ← execute (← lift (t.selection args))
  lift (rows.mapM decodeRow)

/-- The first documents that are selected, decoded one by one, and whether there were no more.
Nothing is run if none are wanted. -/
def first (t : Table) (count : Nat) (args : List Argument) : SessionM (List Json × Bool) := do
  if count = 0 then return ([], false)
  let rows ← execute (← lift (t.selection args))
  let docs ← lift ((rows.take count).mapM decodeRow)
  return (docs, rows.length < count)

/-- The fragment that limits a selection to one document. -/
def limitOne : Sql.Fragment :=
  Sql.Fragment.literal "limit 1".toList (by decide)

/-- The first document that is selected. -/
def get? (t : Table) (args : List Argument) : SessionM (Option Json) := do
  return (← t.all (args ++ [.fragment limitOne])).head?

/-- The fragment that selects the document with an id. -/
def withId (id : Text) : Except Error Sql.Fragment :=
  (Sql.Fragment.sql "where $id = ?".toList [.text id]).mapError fun e => .query (.composition e)

/-- The document with an id. -/
def getById? (t : Table) (id : Text) : SessionM (Option Json) := do
  t.get? [.fragment (← lift (withId id))]

/-- The number of documents that are selected. -/
def count (t : Table) (args : List Argument) : SessionM Int := do
  let cell ← firstCell (← execute (← lift (t.counting args)))
  lift ((Integer.ofJson cell).mapError fun e => .query (.integer e))

/-! ### Indexes and plans -/

/-- Create an index over an expression in the shorthand, and answer the statement. -/
def createIndex (t : Table) (expr : Text) (name : Option Text) (unique : Bool) :
    SessionM Text := do
  let text := Sql.createIndex t.name (Sql.expand expr) name unique
  logEntry .debug .table ("execute ".toList ++ text)
  discard (run text [])
  return text

/-- The steps by which the engine would select documents. -/
def explain (t : Table) (args : List Argument) : SessionM (List Text) := do
  let s ← lift (t.selection args)
  queryPlan s.text s.args

end Table

end DocTable
