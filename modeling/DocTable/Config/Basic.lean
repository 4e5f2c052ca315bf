import DocTable.Json.Display
import DocTable.Sql.Schema
import DocTable.Text.Case
/-!
# DocTable.Config.Basic

The configuration of tables and connections.

`Settings` are values of any kind under the names of the fields, as they come from a file, from
the environment or from a caller; `Config.ofSettings` accepts those that make a configuration.
First the kinds of all fields are looked at, then their values.
-/

namespace DocTable

/-- A value in the place of a setting. Only texts, whole numbers and null can be settings; of
other values the name of their kind and their form in messages is kept. -/
inductive Setting where
  | text (t : Text)
  | integer (n : Int)
  | null
  | other (kind shown : Text)

namespace Setting

/-- The name of a setting's kind in messages. -/
def kind : Setting → Text
  | .text _ => "str".toList
  | .integer _ => "int".toList
  | .null => "NoneType".toList
  | .other kind _ => kind

/-- A setting inside a message. -/
def display : Setting → Text
  | .text t => Text.quoted t
  | .integer n => Decimal.ofInt n
  | .null => "None".toList
  | .other _ shown => shown

/-- The setting that a JSON value is. Any other value is one that may be shown. -/
def ofJson : Json → Setting
  | .text t => .text t
  | .int n => .integer n
  | .null => .null
  | v => .other v.kind v.display

end Setting

/-- How documents are to be stored: in a given form, or in the best one that the engine has. -/
inductive StorageChoice where
  | auto
  | fixed (s : Sql.Storage)
  deriving DecidableEq

namespace StorageChoice

/-- The name of a choice. -/
def name : StorageChoice → Text
  | .auto => "auto".toList
  | .fixed s => s.name

/-- The choice with a name. -/
def ofName? (name : Text) : Option StorageChoice :=
  if name = "auto".toList then some .auto
  else (Sql.Storage.ofName name).toOption.map .fixed

end StorageChoice

/-- Why settings make no configuration. -/
inductive ConfigError where
  /-- A field that has to be a text. -/
  | notText (key kind : Text)
  | timeoutNotInteger (shown : Text)
  | cacheNotInteger (shown : Text)
  /-- A source of ids that yields none. -/
  | badIdSource
  | unknownStorage (name : Text)
  | unknownJournal (name : Text)
  | negativeTimeout
  | cacheNotPositive
  /-- A timeout in the environment that is no number. -/
  | timeoutText (t : Text)
  | fileNotFound (path : Text)
  | malformedFile (path : Text)
  | notMapping (path kind : Text)
  | unknownKeys (path shown : Text)
  /-- The binary form is asked for, but the engine of this version does not have it. -/
  | binaryUnsupported (version : Text)

namespace ConfigError

/-- Texts in a row between brackets, as they are shown in messages. -/
def displayChoices (names : List String) : Text :=
  '(' :: Text.join [',', ' '] (names.map fun n => Text.quoted n.toList) ++ [')']

/-- The setting that is at fault. -/
def key : ConfigError → Text
  | .notText key _ => key
  | .timeoutNotInteger _ | .negativeTimeout | .timeoutText _ => "busy_timeout_ms".toList
  | .cacheNotInteger _ | .cacheNotPositive => "cache_maxsize".toList
  | .badIdSource => "id_factory".toList
  | .unknownStorage _ | .binaryUnsupported _ => "encoding".toList
  | .unknownJournal _ => "journal_mode".toList
  | .fileNotFound _ | .malformedFile _ | .notMapping .. | .unknownKeys .. => "config".toList

/-- What is wrong with the setting. -/
def detail : ConfigError → Text
  | .notText _ kind => "expected a string, got ".toList ++ kind
  | .timeoutNotInteger shown => "expected an integer, got ".toList ++ shown
  | .cacheNotInteger shown => "expected an integer or null, got ".toList ++ shown
  | .badIdSource => "must be a zero-argument callable".toList
  | .unknownStorage name =>
    "expected one of ".toList ++ displayChoices ["auto", "jsonb", "json"] ++ ", got ".toList
      ++ Text.quoted name
  | .unknownJournal name =>
    "expected one of ".toList
      ++ displayChoices ["wal", "delete", "truncate", "persist", "memory", "off"]
      ++ ", got ".toList ++ Text.quoted name
  | .negativeTimeout => "must not be negative".toList
  | .cacheNotPositive => "must be a positive integer or null".toList
  | .timeoutText t => "not an integer: ".toList ++ Text.quoted t
  | .fileNotFound path => "file not found: ".toList ++ path
  | .malformedFile path => "invalid YAML in ".toList ++ path ++ [':']
  | .notMapping path kind => "expected a mapping in ".toList ++ path ++ ", got ".toList ++ kind
  | .unknownKeys path shown => "unknown keys in ".toList ++ path ++ ": ".toList ++ shown
  | .binaryUnsupported version =>
    "jsonb requires SQLite 3.45.0+, linked version is ".toList ++ version

/-- The wording of a `ConfigError`. -/
def message (e : ConfigError) : Text :=
  "Invalid configuration for '".toList ++ e.key ++ "': ".toList ++ e.detail

end ConfigError

/-- The configuration of tables and connections. -/
structure Config where
  storage : StorageChoice
  /-- The journal mode as it was given; case does not matter. -/
  journalMode : Text
  /-- How long to wait for a lock, in milliseconds. -/
  busyTimeout : Nat
  /-- The most entries of the text cache; none for no bound. -/
  cacheLimit : Option Nat
  deriving DecidableEq

/-- The fields of a configuration as they are given; a missing one keeps its default. -/
structure Settings where
  storage : Option Setting
  journalMode : Option Setting
  busyTimeout : Option Setting
  cacheLimit : Option Setting
  /-- Anything given in the place of the source of ids. -/
  idSource : Option Setting

/-- No field is given. -/
def Settings.none : Settings := ⟨.none, .none, .none, .none, .none⟩

namespace Config

/-- The journal modes, in small letters. -/
def journalModes : List Text :=
  ["wal".toList, "delete".toList, "truncate".toList, "persist".toList, "memory".toList,
    "off".toList]

/-- The configuration that is used unless another one is given. -/
def default : Config := ⟨.auto, "wal".toList, 5000, .none⟩

/-- A setting that has to be a text. -/
def textSetting (key : String) : Setting → Except ConfigError Text
  | .text t => .ok t
  | s => .error (.notText key.toList s.kind)

/-- A setting that has to be a whole number. -/
def timeoutSetting : Setting → Except ConfigError Int
  | .integer n => .ok n
  | s => .error (.timeoutNotInteger s.display)

/-- A setting that has to be a whole number or null. -/
def cacheSetting : Setting → Except ConfigError (Option Int)
  | .integer n => .ok (some n)
  | .null => .ok .none
  | s => .error (.cacheNotInteger s.display)

/-- The configuration of values of the right kinds. -/
def ofValues (storageName journalMode : Text) (timeout : Int) (cacheLimit : Option Int) :
    Except ConfigError Config :=
  match StorageChoice.ofName? storageName with
  | .none => .error (.unknownStorage storageName)
  | some storage => do
    if !journalModes.contains (Text.lower journalMode) then .error (.unknownJournal journalMode)
    if timeout < 0 then .error .negativeTimeout
    if cacheLimit.any (· < 1) then .error .cacheNotPositive
    return ⟨storage, journalMode, timeout.toNat, cacheLimit.map Int.toNat⟩

/-- The configuration of settings. -/
def ofSettings (s : Settings) : Except ConfigError Config := do
  let storageName ← textSetting "encoding" (s.storage.getD (.text "auto".toList))
  let journalMode ← textSetting "journal_mode" (s.journalMode.getD (.text "wal".toList))
  let timeout ← timeoutSetting (s.busyTimeout.getD (.integer 5000))
  let cacheLimit ← cacheSetting (s.cacheLimit.getD .null)
  if s.idSource.isSome then .error .badIdSource
  ofValues storageName journalMode timeout cacheLimit

/-- The settings that a configuration stands for. -/
def settings (c : Config) : Settings where
  storage := some (.text c.storage.name)
  journalMode := some (.text c.journalMode)
  busyTimeout := some (.integer c.busyTimeout)
  cacheLimit := some (match c.cacheLimit with
    | some n => .integer n
    | .none => .null)
  idSource := .none

/-- A configuration inside a message, if its numbers may be shown. -/
def display? (c : Config) : Option Text := do
  guard (Decimal.isShowable c.busyTimeout && c.cacheLimit.all fun n => Decimal.isShowable n)
  return "SqldocConfig(encoding=".toList ++ Text.quoted c.storage.name ++ ", journal_mode=".toList
    ++ Text.quoted c.journalMode ++ ", busy_timeout_ms=".toList ++ Decimal.ofNat c.busyTimeout
    ++ ", cache_maxsize=".toList
    ++ (match c.cacheLimit with
      | some n => Decimal.ofNat n
      | .none => "None".toList)
    ++ [')']

end Config

end DocTable
