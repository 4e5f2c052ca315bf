import DocTable.Json.Writer
import DocTable.Text.Quoted
/-!
# DocTable.Cache.Key

The key of a call: its arguments as JSON text without blanks, the members of all objects ordered
by their keys. So the order of named arguments does not matter, and no two different argument
lists of JSON values share a key.
-/

namespace DocTable.Cache

/-- An argument of a call. -/
inductive Argument where
  | json (v : Json)
  | bytes (b : List UInt8)

/-- The value that stands for an argument in a key; bytes are quoted. -/
def Argument.value : Argument → Json
  | .json v => v
  | .bytes b => .text (Text.quotedBytes b)

/-- The key of positional and named arguments, whose whole numbers may be shown. -/
def canonicalKey (positional : List Argument) (named : List (Text × Argument)) : Text :=
  let named := named.map fun (name, arg) => (name, arg.value)
  (Json.array [.array (positional.map Argument.value), .object named]).sortKeys.compact

end DocTable.Cache
