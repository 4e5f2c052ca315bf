import DocTable.Text.Hexadecimal
import DocTable.Text.Printable
/-!
# DocTable.Text.Quoted

Texts and byte strings as they are quoted in messages.

A text stands between single quotes, or between double quotes if it holds a single quote and no
double one. The delimiter and the backslash are escaped, line breaks and tabs have short escapes,
and any other unprintable character is written by its code.
-/

namespace DocTable.Text

/-- The delimiter that needs the fewest escapes, single quotes being preferred. -/
def delimiter (holdsSingle holdsDouble : Bool) : Char :=
  if holdsSingle && !holdsDouble then '"' else '\''

/-- The escape of a character by its code, in the shortest of three widths. -/
def codeEscape (c : Char) : Text :=
  let n := c.toNat
  if n < 0x100 then '\\' :: 'x' :: hexadecimal 2 n
  else if n < 0x10000 then '\\' :: 'u' :: hexadecimal 4 n
  else '\\' :: 'U' :: hexadecimal 8 n

/-- One character inside a quoted text. -/
def quotedChar (delim c : Char) : Text :=
  if c = delim || c = '\\' then ['\\', c]
  else if c = '\n' then ['\\', 'n']
  else if c = '\r' then ['\\', 'r']
  else if c = '\t' then ['\\', 't']
  else if isPrintable c then [c]
  else codeEscape c

/-- The quoted form of a text. -/
def quoted (t : Text) : Text :=
  let delim := delimiter (t.contains '\'') (t.contains '"')
  delim :: t.flatMap (quotedChar delim) ++ [delim]

/-- The quoted form of a byte string: bytes outside printable ASCII are written by their code. -/
def quotedBytes (bytes : List UInt8) : Text :=
  let chars := bytes.map fun b => Char.ofNat b.toNat
  let delim := delimiter (chars.contains '\'') (chars.contains '"')
  let shown (c : Char) : Text :=
    if c.toNat < 0x7f then quotedChar delim c else codeEscape c
  'b' :: delim :: chars.flatMap shown ++ [delim]

end DocTable.Text
