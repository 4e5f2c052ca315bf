import DocTable.Sql.Condition
import DocTable.Sql.Path
/-!
# DocTable.Sql.Field

Document paths as terms: a field is compared with a value, and the answer is a condition.
-/

namespace DocTable.Sql

/-- A document path that has been accepted. -/
structure Field where
  path : Text
  deriving DecidableEq

namespace Field

/-- The field at a path. -/
def ofPath (path : Text) : Except PathError Field := do
  Path.check path
  return ⟨path⟩

/-- The member of a field's value under a key. -/
def get (f : Field) (segment : Text) : Except PathError Field := do
  Path.checkSegment segment
  ofPath (f.path ++ '.' :: segment)

/-- A field inside a message. -/
def display (f : Field) : Text :=
  "FieldRef(".toList ++ Text.quoted f.path ++ [')']

/-- A comparison that takes any value. -/
def compare (f : Field) (op : Operator) (v : Json) : Condition :=
  .comparison f.path op v

/-- Equality with a value; null has a test of its own. -/
def equal (f : Field) (v : Json) : Except QueryError Condition :=
  match v with
  | .null => .error .equalsNull
  | v => .ok (f.compare .equal v)

/-- Inequality with a value; null has a test of its own. -/
def notEqual (f : Field) (v : Json) : Except QueryError Condition :=
  match v with
  | .null => .error .differsFromNull
  | v => .ok (f.compare .notEqual v)

/-- The pattern of a text that begins with `start`. -/
def startsWith (f : Field) (start : Text) : Condition :=
  f.compare .like (.text (start ++ ['%']))

/-- The pattern of a text that ends with `stop`. -/
def endsWith (f : Field) (stop : Text) : Condition :=
  f.compare .like (.text ('%' :: stop))

/-- The pattern of a text in which `part` occurs. -/
def contains (f : Field) (part : Text) : Condition :=
  f.compare .like (.text ('%' :: part ++ ['%']))

/-- Membership among the items of a value. -/
def oneOf (f : Field) (v : Json) : Except QueryError Condition :=
  match v.items? with
  | some items => .ok (f.compare .oneOf (.array items))
  | none => .error (.notIterable v.kind)

/-- The field is absent or null. -/
def isNull (f : Field) : Condition :=
  f.compare .isNull .null

/-- The field is present and not null. -/
def isNotNull (f : Field) : Condition :=
  f.compare .isNotNull .null

end Field

end DocTable.Sql
