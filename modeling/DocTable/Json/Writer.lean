import DocTable.Json.Value
import DocTable.Number.FloatText
import DocTable.Text.Hexadecimal
/-!
# DocTable.Json.Writer

JSON text of a value, in printable ASCII alone: every other character of a text is written by
its UTF-16 units. One layout record decides what stands between the parts.

Not every value is written: a whole number may have too many digits, and where a document is stored
its numbers have to be finite. The first such number, in the order of the text, decides.
-/

namespace DocTable.Json

/-- What a layout writes between the parts of a value. -/
structure Layout where
  /-- Between a bracket and the nearest item, and after a comma, at a nesting depth. -/
  gap : Nat → Text
  /-- Between a key and its value. -/
  colon : Text

namespace Layout

/-- No blanks at all. -/
def compact : Layout := ⟨fun _ => [], [':']⟩

/-- One item a line, two blanks a level; empty arrays and objects stay closed up. -/
def indented : Layout := ⟨fun depth => '\n' :: List.replicate (2 * depth) ' ', [':', ' ']⟩

end Layout

/-- One UTF-16 unit as an escape. -/
def unitEscape (unit : Nat) : Text :=
  '\\' :: 'u' :: Text.hexadecimal 4 unit

/-- One character inside a written text. -/
def escapeChar (c : Char) : Text :=
  if c = '"' then ['\\', '"']
  else if c = '\\' then ['\\', '\\']
  else if c = '\n' then ['\\', 'n']
  else if c = '\r' then ['\\', 'r']
  else if c = '\t' then ['\\', 't']
  else if c = '\x08' then ['\\', 'b']
  else if c = '\x0c' then ['\\', 'f']
  else if ' ' ≤ c && c ≤ '~' then [c]
  else if c.toNat < 0x10000 then unitEscape c.toNat
  else
    let n := c.toNat - 0x10000
    unitEscape (0xd800 + n / 0x400) ++ unitEscape (0xdc00 + n % 0x400)

/-- A text between double quotes. -/
def writeText (t : Text) : Text :=
  '"' :: t.flatMap escapeChar ++ ['"']

mutual

/-- The text of a value at a nesting depth. -/
def writeAt (layout : Layout) (depth : Nat) : Json → Text
  | .null => "null".toList
  | .bool true => "true".toList
  | .bool false => "false".toList
  | .int n => Decimal.ofInt n
  | .float x => FloatStyle.document.write x
  | .text t => writeText t
  | .array [] => ['[', ']']
  | .array (x :: xs) =>
    '[' :: layout.gap (depth + 1) ++ writeAt layout (depth + 1) x
      ++ writeItems layout (depth + 1) xs ++ layout.gap depth ++ [']']
  | .object [] => ['{', '}']
  | .object ((k, v) :: ms) =>
    '{' :: layout.gap (depth + 1) ++ writeText k ++ layout.colon ++ writeAt layout (depth + 1) v
      ++ writeMembers layout (depth + 1) ms ++ layout.gap depth ++ ['}']

/-- The items of an array after the first. -/
def writeItems (layout : Layout) (depth : Nat) : List Json → Text
  | [] => []
  | x :: xs => ',' :: layout.gap depth ++ writeAt layout depth x ++ writeItems layout depth xs

/-- The members of an object after the first. -/
def writeMembers (layout : Layout) (depth : Nat) : List (Text × Json) → Text
  | [] => []
  | (k, v) :: ms =>
    ',' :: layout.gap depth ++ writeText k ++ layout.colon ++ writeAt layout depth v
      ++ writeMembers layout depth ms

end

/-- The text of a value in a layout. -/
def write (layout : Layout) (v : Json) : Text :=
  writeAt layout 0 v

/-- The text of a value without blanks. -/
def compact (v : Json) : Text :=
  write .compact v

mutual

/-- The value with the members of all its objects ordered by key. -/
def sortKeys : Json → Json
  | .array items => .array (sortKeysItems items)
  | .object members => .object (Text.sortBy (·.1) (sortKeysMembers members))
  | v => v

/-- `sortKeys` for the items of an array. -/
def sortKeysItems : List Json → List Json
  | [] => []
  | x :: xs => sortKeys x :: sortKeysItems xs

/-- `sortKeys` for the values of an object's members. -/
def sortKeysMembers : List (Text × Json) → List (Text × Json)
  | [] => []
  | (k, v) :: ms => (k, sortKeys v) :: sortKeysMembers ms

end

theorem sortKeysItems_eq_map (xs : List Json) : sortKeysItems xs = xs.map sortKeys := by
  induction xs with
  | nil => rfl
  | cons x xs ih => rw [sortKeysItems, ih, List.map_cons]

theorem sortKeysMembers_eq_map (ms : List (Text × Json)) :
    sortKeysMembers ms = ms.map fun m => (m.1, sortKeys m.2) := by
  induction ms with
  | nil => rfl
  | cons m ms ih => rw [sortKeysMembers, ih, List.map_cons]

/-! ### Numbers without a text -/

/-- Why a value is not written. -/
inductive WriteError where
  /-- A number that is not finite, where numbers have to be. -/
  | notFinite
  /-- A whole number with too many digits. -/
  | notShowable
  deriving DecidableEq

mutual

/-- What is wrong with the first number of a value that is not written, at any depth; `finite` asks
for finite numbers. -/
def writeError? (finite : Bool) : Json → Option WriteError
  | .int n => if Decimal.isShowable n then none else some .notShowable
  | .float x => if finite && !x.isFinite then some .notFinite else none
  | .array items => writeErrorItems? finite items
  | .object members => writeErrorMembers? finite members
  | .null | .bool _ | .text _ => none

/-- `writeError?` for the items of an array. -/
def writeErrorItems? (finite : Bool) : List Json → Option WriteError
  | [] => none
  | x :: xs => (writeError? finite x).or (writeErrorItems? finite xs)

/-- `writeError?` for the members of an object. -/
def writeErrorMembers? (finite : Bool) : List (Text × Json) → Option WriteError
  | [] => none
  | (_, v) :: ms => (writeError? finite v).or (writeErrorMembers? finite ms)

end

/-- Whether a value may be shown: every whole number in it may. -/
def isShowable (v : Json) : Bool :=
  (writeError? false v).isNone

/-- The text of a value in a layout, unless a number in it is not written. -/
def writeChecked (finite : Bool) (layout : Layout) (v : Json) : Except WriteError Text :=
  match writeError? finite v with
  | none => .ok (v.write layout)
  | some e => .error e

end DocTable.Json
