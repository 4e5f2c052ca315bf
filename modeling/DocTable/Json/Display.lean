import DocTable.Json.Writer
import DocTable.Text.Quoted
/-!
# DocTable.Json.Display

How values appear in messages: with the names `None`, `True` and `False`, quoted texts, and a
blank after each comma and colon. `display` and `plain` are the wording of values that may be shown;
`display?` and `plain?` ask whether a value is one.
-/

namespace DocTable.Json

mutual

/-- A value inside a message. -/
def display : Json → Text
  | .null => "None".toList
  | .bool true => "True".toList
  | .bool false => "False".toList
  | .int n => Decimal.ofInt n
  | .float x => FloatStyle.message.write x
  | .text t => Text.quoted t
  | .array items => '[' :: Text.join [',', ' '] (displayItems items) ++ [']']
  | .object members => '{' :: Text.join [',', ' '] (displayMembers members) ++ ['}']

/-- The items of an array inside a message. -/
def displayItems : List Json → List Text
  | [] => []
  | x :: xs => display x :: displayItems xs

/-- The members of an object inside a message. -/
def displayMembers : List (Text × Json) → List Text
  | [] => []
  | (k, v) :: ms => (Text.quoted k ++ [':', ' '] ++ display v) :: displayMembers ms

end

/-- A value inside a message, if it may be shown. -/
def display? (v : Json) : Option Text :=
  if v.isShowable then some v.display else none

/-- A value as text: a text stands for itself, any other value as in a message. -/
def plain : Json → Text
  | .text t => t
  | v => display v

/-- A value as text, if it may be shown. -/
def plain? (v : Json) : Option Text :=
  if v.isShowable then some v.plain else none

end DocTable.Json
