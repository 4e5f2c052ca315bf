import DocTable.Error
import DocTable.Json.Display
import DocTable.Json.Writer
/-!
# DocTable.Console.Output

What the console prints, as lines; the last line may hold line breaks of its own.

There are two styles: JSON with indentation for programs, and plain lines for readers. What has a
number in it that is not written has no line. Then the lines before it are all that is printed, and
the error is given with them.
-/

namespace DocTable.Console

/-- How results are printed. -/
inductive Style where
  | plain
  | json
  deriving DecidableEq

namespace Output

/-- What is printed for items one after another, up to the first that has no line. -/
def each {α : Type} (line : α → Except Error Text) : List α → List Text × Option Error
  | [] => ([], none)
  | x :: xs =>
    match line x with
    | .error e => ([], some e)
    | .ok l =>
      let (lines, stop) := each line xs
      (l :: lines, stop)

/-- The lines that were printed, if nothing has stopped the printing. -/
def complete : List Text × Option Error → Except Error (List Text)
  | (lines, none) => .ok lines
  | (_, some e) => .error e

/-- The text that lines make. -/
def text (lines : List Text) : Text :=
  lines.flatMap fun l => l ++ ['\n']

/-- The line of an error. -/
def error (message : Text) : Text :=
  "Error: ".toList ++ message

/-! ### Documents and objects -/

/-- A value as JSON. -/
def json (layout : Json.Layout) (v : Json) : Except Error Text :=
  (v.writeChecked false layout).mapError .ofWrite

/-- A value as text. -/
def plain (v : Json) : Except Error Text :=
  match v.plain? with
  | some t => .ok t
  | none => .error .notShowable

/-- Documents: one a line, or as one array. -/
def documents (style : Style) (docs : List Json) : List Text × Option Error :=
  match style with
  | .json => each (json .indented) [.array docs]
  | .plain => each (json .compact) docs

/-- The lines of documents, if nothing has stopped the printing. -/
def documentLines (style : Style) (docs : List Json) : Except Error (List Text) :=
  complete (documents style docs)

/-- The line of a member. -/
def memberLine (key value : Text) : Text :=
  key ++ ':' :: ' ' :: value

/-- An object: one member a line, or as it is. A value that is no object can only be printed as
JSON. -/
def object (style : Style) (v : Json) : List Text × Option Error :=
  match style, v with
  | .json, v => each (json .indented) [v]
  | .plain, .object ms => each (fun (key, value) => memberLine key <$> plain value) ms
  | .plain, v => ([], some (.noMember v.kind "items".toList))

/-- A report, as an object. The numbers in it are counts and numbers of the engine, which may be
shown. -/
def members (style : Style) (ms : Members) : List Text :=
  match style with
  | .json => [(Json.object ms).write .indented]
  | .plain => ms.map fun (key, value) => memberLine key value.plain

/-! ### Tables -/

/-- The widths of columns after a row has been seen; cells beyond the last column do not count. -/
def widen : (widths : List Nat) → (row : List Text) → List Nat
  | w :: ws, cell :: cells => max w cell.length :: widen ws cells
  | widths, _ => widths

/-- The widths of the columns of a table. -/
def widths (headers : List Text) (rows : List (List Text)) : List Nat :=
  rows.foldl widen (headers.map List.length)

/-- Cells padded to the widths of their columns. -/
def aligned (widths : List Nat) (cells : List Text) : Text :=
  Text.join [' ', ' '] (List.zipWith Text.padRight widths cells)

/-- The line of a row; there is none for more cells than columns. -/
def rowLine (widths : List Nat) (row : List Text) : Except Error Text :=
  if widths.length < row.length then .error .tooManyColumns else .ok (aligned widths row)

/-- A table in columns. Without rows nothing is printed. -/
def plainTable (headers : List Text) (rows : List (List Text)) : List Text × Option Error :=
  if rows.isEmpty then ([], none)
  else
    let ws := widths headers rows
    let (lines, stop) := each (rowLine ws) rows
    (aligned ws headers :: Text.join [' ', ' '] (ws.map (List.replicate · '-')) :: lines, stop)

/-- A table: in columns, or as an array with an object for each row. Nothing is printed in columns
before every cell has a text. -/
def table (style : Style) (headers : List Text) (rows : List (List Json)) :
    List Text × Option Error :=
  match style with
  | .json => each (json .indented)
    [.array (rows.map fun row => .object (Members.ofPairs (headers.zip row)))]
  | .plain =>
    match rows.mapM (·.mapM plain) with
    | .error e => ([], some e)
    | .ok cells => plainTable headers cells

end Output

end DocTable.Console
