import DocTable.Error
import DocTable.Sql.Clause
import DocTable.Text.Words
/-!
# DocTable.Console.Query

The options that select documents, and the fragments they stand for.

A filter is a path, an operator and a JSON value, written as three words; a test for null has no
value. The template, the filters and the id of a query are conditions of one selection, each in
brackets; the order and the limit are clauses of their own.
-/

namespace DocTable.Console

/-- A filter as it is written. -/
structure Filter where
  path : Text
  operator : Text
  /-- JSON text. -/
  value : Text

namespace Filter

/-- The operators of filters. -/
def operators : List (Text × Sql.Operator) :=
  [ ("eq".toList, .equal), ("ne".toList, .notEqual), ("gt".toList, .greater),
    ("gte".toList, .greaterEqual), ("lt".toList, .less), ("lte".toList, .lessEqual),
    ("in".toList, .oneOf), ("like".toList, .like), ("is_null".toList, .isNull),
    ("not_null".toList, .isNotNull) ]

/-- The operator with a name. -/
def operator? (name : Text) : Option Sql.Operator :=
  (operators.find? fun o => o.1 = name).map (·.2)

/-- The filter that a text is written for. -/
def ofText (raw : Text) : Except Error Filter := do
  match ← (Text.words raw).mapError .words with
  | [path, op] =>
    if (operator? op).any Sql.Operator.isNullTest then return ⟨path, op, "null".toList⟩
    else .error (.input (.filterNeedsValue raw op))
  | [path, op, value] => return ⟨path, op, value⟩
  | _ => .error (.input (.filterShape raw))

/-- The value that a filter compares with. -/
def bound (f : Filter) (op : Sql.Operator) : Except Error Json :=
  if op.isNullTest then .ok .null
  else do
    let v ← (Json.read f.value).mapError .reading
    match op, v with
    | .oneOf, .array _ => return v
    | .oneOf, _ => .error (.input (.filterNeedsArray f.value))
    | _, _ => return v

/-- The comparison that a filter stands for; one leading dollar sign of its path is dropped. -/
def condition (f : Filter) : Except Error Sql.Condition :=
  match operator? f.operator with
  | none => .error (.input (.unknownFilterOperator f.operator))
  | some op => do
    let field ← (Sql.Field.ofPath (Text.dropStart ['$'] f.path)).mapError fun e => .query (.path e)
    return field.compare op (← f.bound op)

/-- The condition that all filters together stand for. -/
def conditionOfAll (filters : List Filter) : Except Error (Option Sql.Condition) := do
  match ← filters.mapM condition with
  | [] => return none
  | [c] => return some c
  | cs => return some (.logical .and cs)

end Filter

/-- The options that select documents. -/
structure Query where
  /-- A condition in the shorthand. -/
  template : Option Text
  /-- JSON texts for the holes of the template. -/
  arguments : List Text
  filters : List Text
  id : Option Text
  /-- A path to sort by. -/
  order : Option Text
  descending : Bool
  limit : Option Int

namespace Query

/-- A text that counts as absent if it is empty. -/
def nonEmpty? (t : Option Text) : Option Text :=
  t.filter (!·.isEmpty)

/-- The condition of the template. -/
def templateCondition (q : Query) : Except Error (List Sql.Fragment) :=
  match nonEmpty? q.template with
  | some template => do
    let values ← q.arguments.mapM fun a => (Json.read a).mapError .reading
    let f ← (Sql.Fragment.sql template values).mapError fun e => .query (.composition e)
    return [f]
  | none => if q.arguments.isEmpty then .ok [] else .error (.input .argsWithoutTemplate)

/-- The condition of the filters. -/
def filterCondition (q : Query) : Except Error (List Sql.Fragment) := do
  let filters ← q.filters.mapM Filter.ofText
  match ← Filter.conditionOfAll filters with
  | none => return []
  | some c => return [← c.compile.mapError .query]

/-- The condition of the id. An empty id is one, too. -/
def idCondition (q : Query) : Except Error (List Sql.Fragment) :=
  match q.id with
  | none => .ok []
  | some id => do
    let f ← (Sql.Fragment.sql "$id = ?".toList [.text id]).mapError fun e =>
      .query (.composition e)
    return [f]

/-- The conditions in brackets with `AND` between them. -/
def conjunction (conditions : List Sql.Fragment) : Sql.Fragment :=
  Sql.Fragment.join Sql.Condition.conjunctionMark
    (conditions.map Sql.Condition.bracketed)

/-- The clause that selects by conditions, if there are any. -/
def whereClause (conditions : List Sql.Fragment) : List Sql.Fragment :=
  if conditions.isEmpty then [] else [Sql.selecting (conjunction conditions)]

/-- The clause that sorts. -/
def orderClause (q : Query) : Except Error (List Sql.Fragment) :=
  match nonEmpty? q.order with
  | none => .ok []
  | some path => do
    let path := Text.dropStart ['$'] path
    let direction := if q.descending then Sql.OrderKey.descend else Sql.OrderKey.ascending
    let key ← (direction path).mapError fun e => .query (.path e)
    return [← (Sql.ordering [key]).mapError .query]

/-- The clause that limits the count of documents. -/
def limitClause (q : Query) : List Sql.Fragment :=
  match q.limit with
  | none => []
  | some n => [Sql.limiting n none]

/-- The fragments of a query. -/
def fragments (q : Query) : Except Error (List Sql.Fragment) := do
  let byTemplate ← q.templateCondition
  let byFilters ← q.filterCondition
  let byId ← q.idCondition
  let order ← q.orderClause
  return whereClause (byTemplate ++ byFilters ++ byId) ++ order ++ q.limitClause

end Query

end DocTable.Console
