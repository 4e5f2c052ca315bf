import DocTable.Sql.Fragment
/-!
# DocTable.Sql.Builder

Fragments assembled step by step.

A builder is the fragment written so far, still in the shorthand. A step that fails leaves what
it wrote before it failed; `build` works in every state, because every state is a fragment.
-/

namespace DocTable.Sql

/-- A step of a builder. -/
inductive Step where
  | text (literal : Text)
  | value (v : Json)
  /-- Several values with literal text between them. -/
  | values (vs : List Json) (sep : Text)
  /-- A fragment that has been built before. -/
  | fragment (f : Fragment)

namespace Step

/-- The separator of values, unless another one is given. -/
def defaultSeparator : Text := [',', ' ']

/-- Append values; `first` says that no separator is due. -/
def appendValues (sep : Text) : (first : Bool) → List Json → Fragment →
    Fragment × Option CompositionError
  | _, [], f => (f, none)
  | true, v :: vs, f => appendValues sep false vs (f ++ Fragment.hole v)
  | false, v :: vs, f =>
    match Fragment.literal? sep with
    | .error e => (f, some e)
    | .ok between => appendValues sep false vs (f ++ between ++ Fragment.hole v)

/-- What a builder holds after a step, and the error that the step raised. -/
def apply (f : Fragment) : Step → Fragment × Option CompositionError
  | .text t =>
    match Fragment.literal? t with
    | .error e => (f, some e)
    | .ok l => (f ++ l, none)
  | .value v => (f ++ Fragment.hole v, none)
  | .values vs sep => appendValues sep true vs f
  | .fragment g => (f ++ g, none)

end Step

/-- The fragment that a builder yields: its text is expanded from the shorthand once more, that
of embedded fragments included. -/
def build (f : Fragment) : Fragment :=
  f.expanded

end DocTable.Sql
