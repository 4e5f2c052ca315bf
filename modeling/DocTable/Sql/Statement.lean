import DocTable.Sql.Fragment
/-!
# DocTable.Sql.Statement

Statements: text with hole marks, and the arguments that are bound to them in order.
-/

namespace DocTable.Sql

/-- A statement that is ready to be run. -/
structure Statement where
  text : Text
  args : List Json

/-- What a statement is put together from. -/
inductive Item where
  /-- Text that is taken as it is and binds nothing. -/
  | raw (t : Text)
  | fragment (f : Fragment)
  /-- Anything else. -/
  | other (v : Json)

/-- The text and the arguments of an item. -/
def Item.statement : Item → Except CompositionError Statement
  | .raw t => .ok ⟨t, []⟩
  | .fragment f => .ok ⟨f.text, f.values⟩
  | .other v => .error (.statementItem v.kind)

namespace Statement

/-- Statements one after another with blanks between them. -/
def join (statements : List Statement) : Statement where
  text := Text.join [' '] (statements.map (·.text))
  args := statements.flatMap (·.args)

/-- The statement of items, from left to right. -/
def ofItems (items : List Item) : Except CompositionError Statement :=
  join <$> items.mapM Item.statement

end Statement

end DocTable.Sql
