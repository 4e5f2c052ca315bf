import DocTable.Cache.Basic
import DocTable.Config.File
import DocTable.Document
import DocTable.Model.Schema
import DocTable.Text.Words
/-!
# DocTable.Error

Everything that can go wrong in an operation on tables, by cause. `Error.message` gives the
wording of each.
-/

namespace DocTable

/-- A failure that the engine reports, by the name of its kind. -/
structure EngineError where
  kind : Text
  message : Text

/-- Console input that has no meaning. -/
inductive InputError where
  /-- Arguments of a template without a template. -/
  | argsWithoutTemplate
  | filterNeedsValue (raw op : Text)
  | filterShape (raw : Text)
  | unknownFilterOperator (op : Text)
  | filterNeedsArray (raw : Text)
  | noDocument
  /-- A value that has to be an object. -/
  | notObject (what kind : Text)
  /-- A selection of all documents that was not asked for. -/
  | noSelection

/-- The operators of filters, as they are listed in messages. -/
def filterOperatorNames : List Text :=
  ["eq", "gt", "gte", "in", "is_null", "like", "lt", "lte", "ne", "not_null"].map String.toList

/-- The wording of an `InputError`. -/
def InputError.message : InputError → Text
  | .argsWithoutTemplate => "--arg requires --where".toList
  | .filterNeedsValue raw op =>
    "Invalid filter '".toList ++ raw ++ "': operator '".toList ++ op
      ++ "' needs a VALUE_JSON".toList
  | .filterShape raw =>
    "Invalid filter '".toList ++ raw ++ "': expected 'PATH OP VALUE_JSON'".toList
  | .unknownFilterOperator op =>
    "Unknown filter operator '".toList ++ op ++ "'. Valid operators: ".toList
      ++ Text.join [',', ' '] filterOperatorNames
  | .filterNeedsArray raw => "Operator 'in' needs a JSON array, got ".toList ++ raw
  | .noDocument => "Provide a JSON document argument or --file".toList
  | .notObject what kind => what ++ " must be a JSON object, got ".toList ++ kind
  | .noSelection =>
    "Refusing to touch every document without --all; add --id, --where or --filter".toList

/-- A row that does not have the cells that were asked for. -/
inductive RowError where
  /-- There is no row. -/
  | noRow
  /-- A cell beyond the last one. -/
  | noCell
  | tooFewCells (expected got : Nat)
  | tooManyCells (expected : Nat)
  /-- A document cell that is no text. -/
  | notText (kind : Text)

/-- The wording of a `RowError`. -/
def RowError.message : RowError → Text
  | .noRow => "'NoneType' object is not subscriptable".toList
  | .noCell => "tuple index out of range".toList
  | .tooFewCells expected got =>
    "not enough values to unpack (expected ".toList ++ Decimal.ofNat expected ++ ", got ".toList
      ++ Decimal.ofNat got ++ [')']
  | .tooManyCells expected =>
    "too many values to unpack (expected ".toList ++ Decimal.ofNat expected ++ [')']
  | .notText kind =>
    "the JSON object must be str, bytes or bytearray, not ".toList ++ kind

/-- Anything that ends an operation early. -/
inductive Error where
  | query (e : Sql.QueryError)
  | config (e : ConfigError)
  /-- A scalar of a configuration file that does not fit its tag. -/
  | scalar (e : Yaml.ScalarError)
  /-- Keys without a common order. -/
  | order (e : OrderError)
  /-- A whole number that has too many digits to be written. -/
  | notShowable
  | file (e : FileError)
  | reading (e : Json.ReadError)
  | decoding (e : Bytes.DecodingError)
  /-- A number to be stored that is not finite. -/
  | notFinite
  /-- A value that lacks a member which its kind would have to have. -/
  | noMember (kind name : Text)
  | row (e : RowError)
  | engine (e : EngineError)
  | invalid (faults : List Model.Fault)
  | input (e : InputError)
  | words (e : Text.WordsError)
  /-- A bound of a cache that is not positive. -/
  | cacheLimit
  /-- More cells than columns. -/
  | tooManyColumns

namespace Error

/-- The wording of an `Error`. -/
def message : Error → Text
  | query e => e.message
  | config e => e.message
  | scalar e => e.message
  | order e => e.message
  | notShowable => Decimal.notShowableMessage
  | file e => e.message
  | reading e => e.message
  | decoding e => e.message
  | notFinite => Document.notFiniteMessage
  | noMember kind name =>
    '\'' :: kind ++ "' object has no attribute '".toList ++ name ++ ['\'']
  | row e => e.message
  | engine e => e.message
  | invalid faults => Model.Fault.message faults
  | input e => e.message
  | words e => e.message
  | cacheLimit => Cache.limitMessage
  | tooManyColumns => "list index out of range".toList

/-- The error of a configuration file. -/
def ofConfigFile : ConfigFileError → Error
  | .config e => config e
  | .scalar e => scalar e
  | .order e => order e
  | .notShowable => notShowable
  | .file e => file e
  | .decoding e => decoding e

/-- The error of a value that is not written. -/
def ofWrite : Json.WriteError → Error
  | .notFinite => notFinite
  | .notShowable => notShowable

/-- The error of bytes that are no document. -/
def ofBytes : Document.BytesError → Error
  | .decoding e => decoding e
  | .reading e => reading e

end Error

end DocTable
