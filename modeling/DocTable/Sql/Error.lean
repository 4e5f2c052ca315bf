import DocTable.Json.Integer
/-!
# DocTable.Sql.Error

What can go wrong while statements are put together, each cause with its wording.
-/

namespace DocTable.Sql

/-- A fragment or statement that does not fit together. -/
inductive CompositionError where
  /-- A template whose holes are not as many as its values. -/
  | templateHoles (template : Text) (holes values : Nat)
  /-- A fragment whose segments are not one more than its values. -/
  | segmentCount (segments values : Nat)
  /-- A segment that holds a hole of its own. -/
  | segmentHole (segment : Text)
  /-- Literal text that holds a hole. -/
  | textHole (literal : Text)
  /-- A statement item that is neither text nor a fragment. -/
  | statementItem (kind : Text)
  /-- A table argument that is no fragment. -/
  | tableArgument (kind : Text)

/-- The wording of a `CompositionError`. -/
def CompositionError.message : CompositionError → Text
  | .templateHoles template holes values =>
    "Template has ".toList ++ Decimal.ofNat holes ++ " placeholders but ".toList
      ++ Decimal.ofNat values ++ " values were given: ".toList ++ Text.quoted template
  | .segmentCount segments values =>
    "Fragment has ".toList ++ Decimal.ofNat segments ++ " literal segments for ".toList
      ++ Decimal.ofNat values ++ " values; expected ".toList ++ Decimal.ofNat (values + 1)
  | .segmentHole segment =>
    "Literal segment must not contain '?': ".toList ++ Text.quoted segment
  | .textHole literal => "Literal text must not contain '?': ".toList ++ Text.quoted literal
  | .statementItem kind => "Statement items must be str or Fragment, got ".toList ++ kind
  | .tableArgument kind =>
    "Table operations take Fragment arguments, got ".toList ++ kind
      ++ "; build one with sql() or where()".toList

/-- A path that is not made of segments of letters and underscores. -/
inductive PathError where
  | empty
  | segment (s : Text)

/-- The wording of a `PathError`. -/
def PathError.message : PathError → Text
  | .empty => "Path must not be empty".toList
  | .segment s =>
    "Invalid path segment '".toList ++ s ++ "': must match [A-Za-z_]+".toList

/-- Anything that keeps a query from being built. -/
inductive QueryError where
  | composition (e : CompositionError)
  | path (e : PathError)
  | integer (e : Integer.Error)
  /-- Equality with null, which has a test of its own. -/
  | equalsNull
  /-- Inequality with null, which has a test of its own. -/
  | differsFromNull
  /-- A value without items where a list of values is needed. -/
  | notIterable (kind : Text)
  | unknownOperator (name : Text)
  | unknownConnective (name : Text)
  /-- A value that is no condition inside a condition. -/
  | notCondition (kind : Text)
  /-- A negation of nothing. -/
  | noOperand
  /-- A connective between values for which it has no meaning. -/
  | badOperands (symbol : Char) (left right : Text)
  /-- A negation of a value for which it has no meaning. -/
  | badOperand (kind : Text)
  | noOrderKeys
  | unknownEncoding (name : Text)

/-- The wording of a `QueryError`. -/
def QueryError.message : QueryError → Text
  | .composition e => e.message
  | .path e => e.message
  | .integer e => e.message
  | .equalsNull => "Use .is_null() instead of == None in sqldoc conditions.".toList
  | .differsFromNull => "Use .is_not_null() instead of != None in sqldoc conditions.".toList
  | .notIterable kind => '\'' :: kind ++ "' object is not iterable".toList
  | .unknownOperator name => Text.quoted name
  | .unknownConnective name => "Unknown logical operator: ".toList ++ name
  | .notCondition kind => "Unknown condition type: <class '".toList ++ kind ++ "'>".toList
  | .noOperand => "list index out of range".toList
  | .badOperands symbol left right =>
    "unsupported operand type(s) for ".toList ++ symbol :: ": '".toList ++ left
      ++ "' and '".toList ++ right ++ ['\'']
  | .badOperand kind => "bad operand type for unary ~: '".toList ++ kind ++ ['\'']
  | .noOrderKeys => "order_by() needs at least one key".toList
  | .unknownEncoding name => "Unknown document encoding '".toList ++ name ++ ['\'']

end DocTable.Sql
