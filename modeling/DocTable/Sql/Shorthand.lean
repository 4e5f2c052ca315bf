import DocTable.Text.Pattern
/-!
# DocTable.Sql.Shorthand

The `$path` shorthand for members of a stored document.

A token is a dollar sign, a letter or underscore, and then as many letters, underscores and dots
as follow. `expand` searches a text for string literals and tokens. A literal is put back as it
is, a token is replaced by the expression that extracts the member. A quote that opens a literal
which never closes is an ordinary character, so a token behind it is still expanded.
-/

namespace DocTable.Sql

/-- The column that holds the documents. -/
def dataColumn : Text := "data".toList

/-- A character that may begin a path. -/
def isPathStart (c : Char) : Bool :=
  Text.isLetter c || c == '_'

/-- A character that may continue a path. -/
def isPathChar (c : Char) : Bool :=
  isPathStart c || c == '.'

/-- The expression that extracts the member at a path. -/
def extract (path : Text) : Text :=
  dataColumn ++ "->>'$.".toList ++ path ++ ['\'']

/-- The extraction of a path that is given by its segments. -/
def extractSegments (segments : List Text) : Text :=
  extract (Text.join ['.'] segments)

namespace Shorthand

/-- A single quote. -/
def quote : Pattern :=
  .one (· == '\'')

/-- One character inside a literal; a quote is doubled. -/
def literalChar : Pattern :=
  .choice (.one (· != '\'')) (.seq quote quote)

/-- A string literal between single quotes. -/
def literal : Pattern :=
  .seq quote (.seq (.many literalChar) quote)

/-- A dollar sign with a path. -/
def token : Pattern :=
  .seq (.one (· == '$')) (.seq (.one isPathStart) (.many (.one isPathChar)))

/-- What the search stops at. -/
def pattern : Pattern :=
  .choice literal token

/-- What takes the place of a match: the extraction for a token, a literal itself. -/
def replacement : Text → Text
  | '$' :: path => extract path
  | literal => literal

end Shorthand

/-- Replace every token outside string literals by its extraction. -/
def expand (t : Text) : Text :=
  Shorthand.pattern.substitute Shorthand.replacement t

theorem hole_notMem_extract {path : Text} (h : '?' ∉ path) : '?' ∉ extract path := by
  simp [extract, dataColumn, h]

theorem hole_notMem_replacement {m : Text} (h : '?' ∉ m) : '?' ∉ Shorthand.replacement m := by
  unfold Shorthand.replacement
  split
  · next path => exact hole_notMem_extract fun hp => h (List.mem_cons_of_mem _ hp)
  · exact h

/-- Expansion makes no holes. -/
theorem hole_notMem_expand {t : Text} (h : '?' ∉ t) : '?' ∉ expand t :=
  Pattern.notMem_substitute (fun _ => hole_notMem_replacement) h

end DocTable.Sql
