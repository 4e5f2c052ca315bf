import DocTable.Table.Basic
/-!
# DocTable.Model.Table

Tables whose documents follow a model: documents are checked on the way out, and what is written
comes from checked documents.
-/

namespace DocTable

/-- A table with the model of its documents. -/
structure ModelTable (σ : Type := Model.Schema) where
  table : Table
  schema : σ

namespace ModelTable

open Session Model

section

variable {α : Type} [Dumps α]

/-- The members of a content as they are written: an id that is null is left out. -/
def document (x : α) : Members :=
  let members := Dumps.dump x
  match Members.get? Document.idKey members with
  | some .null => Members.erase Document.idKey members
  | _ => members

/-- The document of a content. -/
def dump (x : α) : Json :=
  .object (document x)

end

section

variable {σ α β : Type} [Validates σ α] [Dumps α] [Dumps β]

/-- The checked content of a document. -/
def load (t : ModelTable σ) (doc : Json) : Except Error α :=
  (Validates.validate t.schema doc).mapError .invalid

/-- Store a content, and answer what was stored. -/
def insert (t : ModelTable σ) (x : α) : SessionM α := do
  lift (t.load (← t.table.insert (dump x)))

/-- Store contents with one call, and answer what was stored. -/
def insertMany (t : ModelTable σ) (xs : List α) : SessionM (List α) := do
  let docs ← t.table.insertMany (xs.map dump)
  lift (docs.mapM t.load)

/-- The contents that are selected. -/
def all (t : ModelTable σ) (args : List Argument) : SessionM (List α) := do
  let docs ← t.table.all args
  lift (docs.mapM t.load)

/-- The content of a row. -/
def loadRow (t : ModelTable σ) (row : Row) : Except Error α := do
  t.load (← Table.decodeRow row)

/-- The first contents that are selected, decoded and checked one by one, and whether there were
no more. -/
def first (t : ModelTable σ) (count : Nat) (args : List Argument) : SessionM (List α × Bool) := do
  if count = 0 then return ([], false)
  let rows ← Table.execute (← lift (t.table.selection args))
  let contents ← lift ((rows.take count).mapM t.loadRow)
  return (contents, rows.length < count)

/-- Check a document that may be absent; a document that is null counts as absent. -/
def loadFound (t : ModelTable σ) : Option Json → Except Error (Option α)
  | none | some .null => .ok none
  | some doc => some <$> t.load doc

/-- The first content that is selected. -/
def get? (t : ModelTable σ) (args : List Argument) : SessionM (Option α) := do
  lift (t.loadFound (← t.table.get? args))

/-- The content with an id. -/
def getById? (t : ModelTable σ) (id : Text) : SessionM (Option α) := do
  lift (t.loadFound (← t.table.getById? id))

/-- Merge the given fields of a content, perhaps of another model, into the documents that are
selected. -/
def patch (t : ModelTable σ) (x : β) (args : List Argument) : SessionM Unit :=
  t.table.patch (.object (Dumps.dumpGiven x)) args

/-- Overwrite the documents that are selected. -/
def replace (t : ModelTable σ) (x : α) (args : List Argument) : SessionM Unit :=
  t.table.replace (dump x) args

end

end ModelTable

end DocTable
