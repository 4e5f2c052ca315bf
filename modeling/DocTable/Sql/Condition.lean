import DocTable.Json.Bitwise
import DocTable.Json.Display
import DocTable.Sql.Builder
/-!
# DocTable.Sql.Condition

Conditions on documents, and the fragments they compile to.

A condition is a tree of comparisons between a path and a value. It may also hold plain values
and names of operators that do not exist: both can be written down, and both are refused when the
condition is compiled.
-/

namespace DocTable.Sql

/-- What a comparison tests. -/
inductive Operator where
  | equal
  | notEqual
  | greater
  | greaterEqual
  | less
  | lessEqual
  | like
  | oneOf
  | isNull
  | isNotNull
  | unknown (name : Text)
  deriving DecidableEq

namespace Operator

/-- The operators with the names under which they are written. -/
def table : List (Operator × Text) :=
  [ (.equal, "==".toList), (.notEqual, "!=".toList), (.greater, ">".toList),
    (.greaterEqual, ">=".toList), (.less, "<".toList), (.lessEqual, "<=".toList),
    (.like, "LIKE".toList), (.oneOf, "IN".toList), (.isNull, "IS_NULL".toList),
    (.isNotNull, "IS_NOT_NULL".toList) ]

/-- The operator with a name. -/
def ofName (name : Text) : Operator :=
  match table.find? (·.2 == name) with
  | some (op, _) => op
  | none => .unknown name

/-- The name of an operator. -/
def name : Operator → Text
  | .equal => "==".toList
  | .notEqual => "!=".toList
  | .greater => ">".toList
  | .greaterEqual => ">=".toList
  | .less => "<".toList
  | .lessEqual => "<=".toList
  | .like => "LIKE".toList
  | .oneOf => "IN".toList
  | .isNull => "IS_NULL".toList
  | .isNotNull => "IS_NOT_NULL".toList
  | .unknown name => name

/-- What stands between the column and its hole, for the operators that bind one value. -/
def symbol? : Operator → Option Text
  | .equal => some "=".toList
  | .notEqual => some "!=".toList
  | .greater => some ">".toList
  | .greaterEqual => some ">=".toList
  | .less => some "<".toList
  | .lessEqual => some "<=".toList
  | .like => some "LIKE".toList
  | _ => none

/-- Whether the operator takes no value. -/
def isNullTest : Operator → Bool
  | .isNull | .isNotNull => true
  | _ => false

end Operator

/-- What joins conditions. -/
inductive Connective where
  | and
  | or
  | not
  | unknown (name : Text)
  deriving DecidableEq

namespace Connective

/-- The name of a connective. -/
def name : Connective → Text
  | .and => "AND".toList
  | .or => "OR".toList
  | .not => "NOT".toList
  | .unknown name => name

/-- The connective with a name. -/
def ofName (name : Text) : Connective :=
  if name = "AND".toList then .and
  else if name = "OR".toList then .or
  else if name = "NOT".toList then .not
  else .unknown name

end Connective

/-- A condition on documents. -/
inductive Condition where
  /-- The member at a path compared with a value. -/
  | comparison (path : Text) (op : Operator) (value : Json)
  | logical (op : Connective) (children : List Condition)
  /-- A plain value in the place of a condition. -/
  | value (v : Json)

namespace Condition

instance : Inhabited Condition := ⟨.value .null⟩

/-! ### Connectives as operators -/

/-- The name of a condition's kind in messages. -/
def kind : Condition → Text
  | .comparison .. => "Comparison".toList
  | .logical .. => "Logical".toList
  | .value v => v.kind

/-- Join two operands. Plain values on the left decide by themselves whether they can be joined;
a condition on the left takes anything. -/
def combine (op : Connective) (symbol : Char) (onValues : Json → Json → Option Json) :
    (a b : Condition) → Except QueryError Condition
  | .value a, .value b =>
    match onValues a b with
    | some v => .ok (.value v)
    | none => .error (.badOperands symbol a.kind b.kind)
  | .value a, b => .error (.badOperands symbol a.kind b.kind)
  | a, b => .ok (.logical op [a, b])

/-- Both conditions hold. -/
def and : (a b : Condition) → Except QueryError Condition :=
  combine .and '&' Json.and?

/-- One of the conditions holds. -/
def or : (a b : Condition) → Except QueryError Condition :=
  combine .or '|' Json.or?

/-- The condition does not hold. -/
def not : Condition → Except QueryError Condition
  | .value v =>
    match v.not? with
    | some v => .ok (.value v)
    | none => .error (.badOperand v.kind)
  | c => .ok (.logical .not [c])

/-! ### Conditions in messages -/

mutual

/-- A condition inside a message, if the values in it may be shown. -/
def display? : Condition → Option Text
  | .comparison path op bound => do
    let value ← bound.display?
    return "Comparison(path=".toList ++ Text.quoted path ++ ", op=".toList ++ Text.quoted op.name
      ++ ", value=".toList ++ value ++ [')']
  | .logical op children => do
    let shown ← displayAll? children
    return "Logical(op=".toList ++ Text.quoted op.name ++ ", children=[".toList
      ++ Text.join [',', ' '] shown ++ [']', ')']
  | .value v => v.display?

/-- Conditions inside a message, if the values in them may be shown. -/
def displayAll? : List Condition → Option (List Text)
  | [] => some []
  | c :: cs => do return (← display? c) :: (← displayAll? cs)

end

/-! ### Compilation -/

/-- Literal text that is known to be clean. -/
def keyword (t : String) (clean : '?' ∉ t.toList) : Fragment :=
  Fragment.literal t.toList clean

/-- The column of a path in the shorthand, followed by literal text. -/
def column (path after : Text) : Except QueryError Fragment :=
  (Fragment.literal? ('$' :: path ++ after)).mapError .composition

/-- What stands between the items of a list. -/
def comma : Fragment :=
  keyword ", " (by decide)

/-- What stands between conditions that must all hold. -/
def conjunctionMark : Fragment :=
  keyword " AND " (by decide)

/-- A hole for each value, with commas between them. -/
def holeList (values : List Json) : Fragment :=
  Fragment.join comma (values.map Fragment.hole)

/-- A comparison in the shorthand. Membership in an empty list is never true. -/
def draftComparison (path : Text) (op : Operator) (bound : Json) : Except QueryError Fragment :=
  match op with
  | .isNull => column path " IS NULL".toList
  | .isNotNull => column path " IS NOT NULL".toList
  | .oneOf =>
    if bound.given then do
      let before ← column path " IN (".toList
      match bound.items? with
      | some items => return before ++ holeList items ++ keyword ")" (by decide)
      | none => .error (.notIterable bound.kind)
    else .ok (keyword "0" (by decide))
  | .unknown name => .error (.unknownOperator name)
  | op => do
    let before ← column path (' ' :: (op.symbol?.getD []) ++ [' '])
    return before ++ Fragment.hole bound

/-- A fragment between brackets. -/
def bracketed (f : Fragment) : Fragment :=
  keyword "(" (by decide) ++ f ++ keyword ")" (by decide)

mutual

/-- A condition in the shorthand. A negation takes the first of its operands. -/
def draft : Condition → Except QueryError Fragment
  | .comparison path op bound => draftComparison path op bound
  | .logical .and children => do
    return bracketed (Fragment.join conjunctionMark (← draftAll children))
  | .logical .or children => do
    return bracketed (Fragment.join (keyword " OR " (by decide)) (← draftAll children))
  | .logical .not [] => .error .noOperand
  | .logical .not (c :: _) => do
    return keyword "NOT " (by decide) ++ bracketed (← draft c)
  | .logical (.unknown name) _ => .error (.unknownConnective name)
  | .value v => .error (.notCondition v.kind)

/-- Conditions in the shorthand, from left to right. -/
def draftAll : List Condition → Except QueryError (List Fragment)
  | [] => .ok []
  | c :: cs => do
    let f ← draft c
    let fs ← draftAll cs
    return f :: fs

end

/-- The fragment of a condition, without a keyword before it. -/
def compile (c : Condition) : Except QueryError Fragment :=
  build <$> draft c

end Condition

end DocTable.Sql
