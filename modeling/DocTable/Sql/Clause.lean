import DocTable.Sql.Field
/-!
# DocTable.Sql.Clause

The clauses of a statement. Each is given in the shorthand (`Clause.where`, `Clause.orderBy`,
`Clause.limit`); `build` makes the fragment.
-/

namespace DocTable.Sql

/-- A path to sort by, and the direction. -/
structure OrderKey where
  path : Text
  descending : Bool

namespace OrderKey

/-- Sort by a path, least first. -/
def ascending (path : Text) : Except PathError OrderKey := do
  Path.check path
  return ⟨path, false⟩

/-- Sort by a path, greatest first. -/
def descend (path : Text) : Except PathError OrderKey := do
  Path.check path
  return ⟨path, true⟩

/-- A sort key in the shorthand. -/
def draft (key : OrderKey) : Except QueryError Fragment :=
  Condition.column key.path (if key.descending then " desc".toList else [])

end OrderKey

namespace Clause

/-- The clause that selects by a condition, which is given as a fragment. -/
def «where» (condition : Fragment) : Fragment :=
  Condition.keyword "where " (by decide) ++ condition

/-- The clause that sorts by keys. -/
def orderBy (keys : List OrderKey) : Except QueryError Fragment := do
  if keys.isEmpty then .error .noOrderKeys
  let drafts ← keys.mapM OrderKey.draft
  return Condition.keyword "order by " (by decide)
    ++ Fragment.join Condition.comma drafts

/-- The clause that limits the count of rows, and may skip some before them. -/
def limit (count : Int) (offset : Option Int) : Fragment :=
  Condition.keyword "limit " (by decide) ++ Fragment.hole (.int count)
    ++ match offset with
      | some n => Condition.keyword " offset " (by decide) ++ Fragment.hole (.int n)
      | none => Fragment.empty

/-- `limit` with counts of any kind of value; a null offset counts as absent. -/
def limitOf (count offset : Json) : Except QueryError Fragment := do
  let n ← (Integer.ofJson count).mapError .integer
  match offset with
  | .null => return limit n none
  | offset => return limit n (some (← (Integer.ofJson offset).mapError .integer))

end Clause

/-- The fragment that selects by a condition or by a fragment that is one. -/
def selecting (condition : Fragment) : Fragment :=
  build (Clause.where condition)

/-- The fragment that selects by a condition. -/
def selectingBy (c : Condition) : Except QueryError Fragment :=
  selecting <$> c.compile

/-- The fragment that sorts by keys. -/
def ordering (keys : List OrderKey) : Except QueryError Fragment :=
  build <$> Clause.orderBy keys

/-- The fragment that limits the count of rows. -/
def limiting (count : Int) (offset : Option Int) : Fragment :=
  build (Clause.limit count offset)

end DocTable.Sql
