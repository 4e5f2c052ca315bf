import DocTable.Text.Basic
/-!
# DocTable.Yaml.Token

The tokens of a YAML text. Indentation is made explicit: block collections have tokens for their
beginning and end.
-/

namespace DocTable.Yaml

/-- A token. -/
inductive Token where
  /-- A version directive with its major number. -/
  | version (major : Nat)
  /-- A directive that gives a tag handle its meaning. -/
  | handle (name start : Text)
  /-- Any other directive. -/
  | reserved
  | documentStart
  | documentEnd
  | blockSequenceStart
  | blockMappingStart
  | blockEnd
  | flowSequenceStart
  | flowSequenceEnd
  | flowMappingStart
  | flowMappingEnd
  | blockEntry
  | flowEntry
  | key
  | value
  | alias (name : Text)
  | anchor (name : Text)
  /-- A tag: a handle, unless it is written out, and what follows the handle. -/
  | tag (handle : Option Text) (suffix : Text)
  /-- A scalar, and whether it is written without quotes. -/
  | scalar (t : Text) (plain : Bool)

/-- Whether a token is a directive. -/
def Token.isDirective : Token → Bool
  | .version _ | .handle .. | .reserved => true
  | _ => false

end DocTable.Yaml
