import DocTable.Engine.Session
/-!
# DocTable.Engine.Inspect

Questions about a database: its tables, their indexes, and the plans of queries. The numbers of a
reply may always be shown (`Engine.isShowable`), so there is no check before its cells are.
-/

namespace DocTable

/-- What is known about an index. -/
structure IndexInfo where
  name : Text
  unique : Bool
  /-- The statement that made it, if the engine has one. -/
  sql : Json

namespace Session

/-- The cell of a row at a position. -/
def cell (row : Row) (position : Nat) : SessionM Json :=
  match row[position]? with
  | some v => pure v
  | none => throw (.row .noCell)

/-- The names of all tables. -/
def tables : SessionM (List Text) := do
  let rows ← run
    ("SELECT name FROM sqlite_master WHERE type = 'table' AND name NOT LIKE 'sqlite_%' ".toList
      ++ "ORDER BY name".toList) []
  rows.mapM fun row => Json.plain <$> cell row 0

/-- Whether the statement that made an index makes it a unique one. -/
def isUniqueIndex (sql : Json) : SessionM Bool :=
  if !sql.given then pure false
  else
    match sql with
    | .text t => pure ("create unique".toList.isPrefixOf (Text.lower t))
    | v => throw (.noMember v.kind "lower".toList)

/-- The index that a row tells of. -/
def indexOfRow : Row → SessionM IndexInfo
  | [name, sql] => do return ⟨name.plain, ← isUniqueIndex sql, sql⟩
  | row =>
    throw (.row (if row.length < 2 then .tooFewCells 2 row.length else .tooManyCells 2))

/-- The indexes on a table. -/
def indexes (table : Text) : SessionM (List IndexInfo) := do
  let rows ← run
    ("SELECT name, sql FROM sqlite_master WHERE type = 'index' AND tbl_name = ? ".toList
      ++ "ORDER BY name".toList) [.text table]
  rows.mapM indexOfRow

/-- The steps by which the engine would answer a statement. -/
def queryPlan (text : Text) (args : List Json) : SessionM (List Text) := do
  let rows ← run ("explain query plan ".toList ++ text) args
  rows.mapM fun row => Json.plain <$> cell row 3

end Session

end DocTable
