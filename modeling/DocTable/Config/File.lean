import DocTable.Config.Basic
import DocTable.Files
import DocTable.Yaml.Value
/-!
# DocTable.Config.File

Configuration files: a YAML mapping with some of the known settings and no other key.
-/

namespace DocTable

/-- Why unknown keys cannot be listed in order. -/
inductive OrderError where
  /-- Kinds without a common order. -/
  | kinds (left right : Text)
  /-- A date and a time. -/
  | dateAndTime
  /-- A time with a zone and one without. -/
  | zones

/-- The wording of an `OrderError`. -/
def OrderError.message : OrderError → Text
  | .kinds left right =>
    "'<' not supported between instances of '".toList ++ left ++ "' and '".toList ++ right
      ++ ['\'']
  | .dateAndTime => "can't compare datetime.datetime to datetime.date".toList
  | .zones => "can't compare offset-naive and offset-aware datetimes".toList

/-- Why a file yields no configuration. -/
inductive ConfigFileError where
  | config (e : ConfigError)
  /-- A scalar that does not fit the type it is tagged with. -/
  | scalar (e : Yaml.ScalarError)
  /-- Unknown keys without a common order. -/
  | order (e : OrderError)
  /-- A message that would have to show a whole number with too many digits. -/
  | notShowable
  | file (e : FileError)
  /-- Bytes that are no text. -/
  | decoding (e : Bytes.DecodingError)

namespace Setting

/-- The setting that a YAML value is. -/
def ofYaml : Yaml.Value → Setting
  | .text t => .text t
  | .int n => .integer n
  | .null => .null
  | v => .other v.kind v.display

end Setting

namespace ConfigFile

/-- The settings that a file may hold. -/
def keys : List Text :=
  ["encoding".toList, "journal_mode".toList, "busy_timeout_ms".toList, "cache_maxsize".toList]

/-- Whether a key is one of the settings. -/
def isKnown : Yaml.Value → Bool
  | .text t => keys.contains t
  | _ => false

/-! ### The order of unknown keys -/

/-- The place of a number in the order: on which side of the finite numbers it is, or zero, and
its worth as a fraction. What is no number has no place. -/
def place? : Json.Worth → Option (Int × Int × Nat)
  | .whole n => some (0, n, 1)
  | .other .nan => none
  | .other (.infinite negative) => some (if negative then -1 else 1, 0, 1)
  | .other x => x.quotient?.map fun q => (0, q.1, q.2)

/-- Whether a number is below another one; nothing is below or above what is no number. -/
def numberBelow (a b : Json.Worth) : Bool :=
  match place? a, place? b with
  | some (s, n, d), some (t, m, c) => s < t || (s == t && n * c < m * d)
  | _, _ => false

/-- Lexicographic order of numbers. -/
def numbersBelow : List Nat → List Nat → Bool
  | a :: as, b :: bs => a < b || (a == b && numbersBelow as bs)
  | [], _ :: _ => true
  | _, [] => false

/-- The full name of a key's kind. -/
def kindName : Yaml.Value → Text
  | .date _ => "datetime.date".toList
  | .moment _ => "datetime.datetime".toList
  | v => v.kind

/-- Whether a key comes before another one. -/
def keyBelow : Yaml.Value → Yaml.Value → Except OrderError Bool
  | .text a, .text b => .ok (Text.before a b && a != b)
  | .bytes a, .bytes b => .ok (numbersBelow (a.map UInt8.toNat) (b.map UInt8.toNat))
  | .date a, .date b =>
    .ok (numbersBelow [a.year, a.month, a.day] [b.year, b.month, b.day])
  | .moment a, .moment b =>
    if a.zone.isSome = b.zone.isSome then
      .ok (Yaml.Scalar.microsecond a < Yaml.Scalar.microsecond b)
    else .error .zones
  | .date _, .moment _ | .moment _, .date _ => .error .dateAndTime
  | a, b =>
    match a.worth?, b.worth? with
    | some m, some n => .ok (numberBelow m n)
    | _, _ => .error (.kinds (kindName a) (kindName b))

/-- Insert a key into ordered ones, from the last of them on; `reversed` is in descending order. -/
def insertKey (key : Yaml.Value) : (reversed : List Yaml.Value) →
    Except OrderError (List Yaml.Value)
  | [] => .ok [key]
  | k :: rest => do
    if ← keyBelow key k then return k :: (← insertKey key rest)
    return key :: k :: rest

/-- The keys in ascending order. -/
def sortKeys (keys : List Yaml.Value) : Except OrderError (List Yaml.Value) :=
  List.reverse <$> keys.foldlM (fun done k => insertKey k done) []

/-! ### Loading -/

/-- The value of a setting in a mapping. -/
def value? (entries : List (Yaml.Value × Yaml.Value)) (key : String) : Option Yaml.Value :=
  (entries.find? fun e => e.1.sameKey (.text key.toList)).map (·.2)

/-- A setting in a mapping. -/
def setting? (entries : List (Yaml.Value × Yaml.Value)) (key : String) : Option Setting :=
  (value? entries key).map .ofYaml

/-- The value that the message of an error shows, besides texts and the names of kinds. -/
def shown? (entries : List (Yaml.Value × Yaml.Value)) : ConfigError → Option Yaml.Value
  | .timeoutNotInteger _ => value? entries "busy_timeout_ms"
  | .cacheNotInteger _ => value? entries "cache_maxsize"
  | _ => none

/-- Refuse a file with an error that shows a value. -/
def refusal (shown : Option Yaml.Value) (e : ConfigError) : ConfigFileError :=
  if shown.all Yaml.Value.isShowable then .config e else .notShowable

/-- The configuration that the entries of a file make. -/
def ofEntries (path : Text) (entries : List (Yaml.Value × Yaml.Value)) :
    Except ConfigFileError Config := do
  let unknown ← (sortKeys ((entries.map (·.1)).filter (!isKnown ·))).mapError .order
  if !unknown.isEmpty then
    let shown := Yaml.Value.list unknown
    .error (refusal (some shown) (.unknownKeys path shown.display))
  let s : Settings :=
    { Settings.none with
      storage := setting? entries "encoding"
      journalMode := setting? entries "journal_mode"
      busyTimeout := setting? entries "busy_timeout_ms"
      cacheLimit := setting? entries "cache_maxsize" }
  (Config.ofSettings s).mapError fun e => refusal (shown? entries e) e

/-- The configuration that a value of a file makes; null stands for an empty mapping. -/
def ofValue (path : Text) : Yaml.Value → Except ConfigFileError Config
  | .null => ofEntries path []
  | .dict entries => ofEntries path entries
  | v => .error (.config (.notMapping path v.kind))

/-- Load the configuration file at a path, with `parse` as the reading of its text. -/
def loadWith (parse : Text → Except Yaml.Error Yaml.Value) (files : Files) (path : Text) :
    Except ConfigFileError Config := do
  let path := Files.normal path
  if !files.has path then .error (.config (.fileNotFound path))
  let content ← (files.read path).mapError .file
  let t ← content.text.mapError .decoding
  match parse t with
  | .error .malformed => .error (.config (.malformedFile path))
  | .error (.scalar e) => .error (.scalar e)
  | .ok v => ofValue path v

/-- Load the configuration file at a path. -/
def load : (files : Files) → (path : Text) → Except ConfigFileError Config :=
  loadWith Yaml.Value.ofText

end ConfigFile

end DocTable
