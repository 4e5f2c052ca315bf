import DocTable.Json.Same
import DocTable.Number.FloatText
import DocTable.Yaml.Node
import DocTable.Yaml.Scalar
/-!
# DocTable.Yaml.Value

The values that YAML documents stand for.

A mapping keeps the first place and the last value of a repeated key. The entries of mappings
that are merged into it come first, so its own entries win.
-/

namespace DocTable.Yaml

/-- A value of a document. -/
inductive Value where
  | null
  | bool (b : Bool)
  | int (n : Int)
  | float (x : Binary64)
  | text (t : Text)
  | bytes (b : List UInt8)
  | date (d : Date)
  | moment (m : Moment)
  | list (items : List Value)
  | pairs (entries : List (Value × Value))
  | set (items : List Value)
  | dict (entries : List (Value × Value))
  /-- A collection inside itself. -/
  | cycle (mapping : Bool)

namespace Value

instance : Inhabited Value := ⟨.null⟩

/-- The name of a value's kind in messages. -/
def kind : Value → Text
  | .null => "NoneType".toList
  | .bool _ => "bool".toList
  | .int _ => "int".toList
  | .float _ => "float".toList
  | .text _ => "str".toList
  | .bytes _ => "bytes".toList
  | .date _ => "date".toList
  | .moment _ => "datetime".toList
  | .list _ | .pairs _ | .cycle false => "list".toList
  | .set _ => "set".toList
  | .dict _ | .cycle true => "dict".toList

/-! ### Values in messages -/

/-- Numbers with commas between them. -/
def displayNumbers (ns : List Nat) : Text :=
  Text.join [',', ' '] (ns.map Decimal.ofNat)

/-- A time inside a message: seconds and fractions that are zero are left out. -/
def displayMoment (m : Moment) : Text :=
  let tail :=
    if m.microsecond ≠ 0 then [m.second, m.microsecond]
    else if m.second ≠ 0 then [m.second]
    else []
  let zone := match m.zone with
    | none => []
    | some 0 => ", tzinfo=datetime.timezone.utc".toList
    | some n => ", tzinfo=datetime.timezone(".toList ++ displayDelta n ++ [')']
  "datetime.datetime(".toList
    ++ displayNumbers ([m.date.year, m.date.month, m.date.day, m.hour, m.minute] ++ tail)
    ++ zone ++ [')']

mutual

/-- A value inside a message. -/
def display : Value → Text
  | .null => "None".toList
  | .bool true => "True".toList
  | .bool false => "False".toList
  | .int n => Decimal.ofInt n
  | .float x => FloatStyle.message.write x
  | .text t => Text.quoted t
  | .bytes b => Text.quotedBytes b
  | .date d => "datetime.date(".toList ++ displayNumbers [d.year, d.month, d.day] ++ [')']
  | .moment m => displayMoment m
  | .list items => '[' :: Text.join [',', ' '] (displayItems items) ++ [']']
  | .pairs entries => '[' :: Text.join [',', ' '] (displayPairs entries) ++ [']']
  | .set [] => "set()".toList
  | .set items => '{' :: Text.join [',', ' '] (displayItems items) ++ ['}']
  | .dict entries => '{' :: Text.join [',', ' '] (displayEntries entries) ++ ['}']
  | .cycle mapping => if mapping then '{' :: "...".toList ++ ['}'] else "[...]".toList

/-- Values inside a message. -/
def displayItems : List Value → List Text
  | [] => []
  | x :: xs => display x :: displayItems xs

/-- Pairs inside a message. -/
def displayPairs : List (Value × Value) → List Text
  | [] => []
  | (k, v) :: rest => ('(' :: display k ++ [',', ' '] ++ display v ++ [')']) :: displayPairs rest

/-- The entries of a mapping inside a message. -/
def displayEntries : List (Value × Value) → List Text
  | [] => []
  | (k, v) :: rest => (display k ++ [':', ' '] ++ display v) :: displayEntries rest

end

mutual

/-- Whether a value may be shown in a message: every whole number in it may. -/
def isShowable : Value → Bool
  | .int n => Decimal.isShowable n
  | .list items | .set items => areShowable items
  | .pairs entries | .dict entries => entriesShowable entries
  | .null | .bool _ | .float _ | .text _ | .bytes _ | .date _ | .moment _ | .cycle _ => true

/-- Whether values may be shown in a message. -/
def areShowable : List Value → Bool
  | [] => true
  | x :: xs => isShowable x && areShowable xs

/-- Whether pairs of values may be shown in a message. -/
def entriesShowable : List (Value × Value) → Bool
  | [] => true
  | (k, v) :: rest => isShowable k && isShowable v && entriesShowable rest

end

theorem areShowable_iff {xs : List Value} :
    areShowable xs = true ↔ ∀ x ∈ xs, x.isShowable = true := by
  induction xs with
  | nil => simp [areShowable]
  | cons x xs ih => simp [areShowable, ih]

theorem entriesShowable_iff {entries : List (Value × Value)} :
    entriesShowable entries = true ↔
      ∀ e ∈ entries, e.1.isShowable = true ∧ e.2.isShowable = true := by
  induction entries with
  | nil => simp [entriesShowable]
  | cons e entries ih => simp [entriesShowable, ih]

/-! ### Keys -/

/-- The worth of a number, for comparing keys. -/
def worth? : Value → Option Json.Worth
  | .bool b => Json.worth? (.bool b)
  | .int n => Json.worth? (.int n)
  | .float x => Json.worth? (.float x)
  | _ => none

/-- Whether two keys are one: numbers are compared by their worth, and times by the instant if they
have zones. -/
def sameKey : Value → Value → Bool
  | .null, .null => true
  | .text a, .text b => a == b
  | .bytes a, .bytes b => a == b
  | .date a, .date b => a == b
  | .moment a, .moment b =>
    a.zone.isSome == b.zone.isSome && Scalar.microsecond a == Scalar.microsecond b
  | a, b =>
    match worth? a, worth? b with
    | some m, some n => Json.sameWorth m n
    | _, _ => false

/-- Whether a value may be a key. -/
def isKey : Value → Bool
  | .list _ | .pairs _ | .set _ | .dict _ | .cycle _ => false
  | _ => true

/-- Set a key of a mapping. -/
def putEntry (key value : Value) : List (Value × Value) → List (Value × Value)
  | [] => [(key, value)]
  | (k, v) :: rest =>
    if sameKey k key then (k, value) :: rest else (k, v) :: putEntry key value rest

/-- The mapping of keyed values. -/
def ofEntries (entries : List (Value × Value)) : List (Value × Value) :=
  entries.foldl (fun done e => putEntry e.1 e.2 done) []

/-! ### Values of nodes -/

/-- What a node is read as. -/
def nodeKind : Node → Kind
  | .scalar (some tag) _ _ | .sequence (some tag) _ | .mapping (some tag) _ => Kind.ofTag tag
  | .scalar none t implicit => if implicit then Scalar.kindOf t else .text
  | .sequence none _ | .cycle false => .list
  | .mapping none _ | .cycle true => .dict

/-- Make errors of scalars errors of documents. -/
def lift {α : Type} (r : Except ScalarError α) : Except Error α :=
  r.mapError .scalar

/-- The value of a scalar's text as a kind. -/
def ofScalar (kind : Kind) (t : Text) : Except Error Value := do
  match kind with
  | .null => return .null
  | .bool => return .bool (← lift (Scalar.readTruth t))
  | .int => return .int (← lift (Scalar.readInt t))
  | .float => return .float (← lift (Scalar.readFloat t))
  | .text => return .text t
  | .binary =>
    match Scalar.bytes? t with
    | some b => return .bytes b
    | none => .error .malformed
  | .time =>
    match Scalar.moment? t with
    | none => .error (.scalar .notTime)
    | some (d, none) => do
      lift ((Scalar.checkDate d).mapError .calendar)
      return .date d
    | some (_, some m) => do
      lift ((Scalar.checkMoment m).mapError .calendar)
      return .moment m
  | _ => .error .malformed

mutual

/-- The text of a node that has to be a scalar; a mapping stands for the text of its own value. -/
def scalarText : Node → Except Error Text
  | .scalar _ t _ => .ok t
  | .mapping _ entries => ownText entries
  | _ => .error .malformed

/-- The text of the first own value among entries. -/
def ownText : List (Node × Node) → Except Error Text
  | [] => .error .malformed
  | (k, v) :: rest => if nodeKind k = .ownValue then scalarText v else ownText rest

end

mutual

/-- The value of a node. -/
def ofNode : Node → Except Error Value
  | .scalar tag t implicit => ofScalar (nodeKind (.scalar tag t implicit)) t
  | .sequence tag items =>
    match nodeKind (.sequence tag items) with
    | .list => do return .list (← ofItems items)
    | .orderedPairs | .pairs => do return .pairs (← ofPairs items)
    | _ => .error .malformed
  | .mapping tag entries =>
    match nodeKind (.mapping tag entries) with
    | .dict => do
      let (merged, own) ← ofMapping entries
      return .dict (ofEntries (merged ++ own))
    | .set => do
      let (merged, own) ← ofMapping entries
      return .set ((ofEntries (merged ++ own)).map (·.1))
    | .list | .orderedPairs | .pairs | .merge | .ownValue | .unknown => .error .malformed
    | kind => do ofScalar kind (← ownText entries)
  | .cycle mapping => .ok (.cycle mapping)

/-- The values of nodes. -/
def ofItems : List Node → Except Error (List Value)
  | [] => .ok []
  | n :: rest => do
    let v ← ofNode n
    return v :: (← ofItems rest)

/-- The pairs of a sequence of mappings with one entry each. -/
def ofPairs : List Node → Except Error (List (Value × Value))
  | [] => .ok []
  | .mapping _ [(k, v)] :: rest => do
    let key ← ofNode k
    let value ← ofNode v
    return (key, value) :: (← ofPairs rest)
  | _ => .error .malformed

/-- The entries of a mapping: those that are merged into it, and its own. -/
def ofMapping : List (Node × Node) → Except Error (List (Value × Value) × List (Value × Value))
  | [] => .ok ([], [])
  | (k, v) :: rest => do
    if nodeKind k = .merge then
      let source ← ofSource v
      let (merged, own) ← ofMapping rest
      return (source ++ merged, own)
    else
      let key ← if nodeKind k = .ownValue then .text <$> scalarText k else ofNode k
      if !key.isKey then .error .malformed
      let value ← ofNode v
      let (merged, own) ← ofMapping rest
      return (merged, (key, value) :: own)

/-- The entries that a node contributes when it is merged: of several mappings, the first wins. -/
def ofSource : Node → Except Error (List (Value × Value))
  | .mapping _ entries => do
    let (merged, own) ← ofMapping entries
    return merged ++ own
  | .sequence _ items => ofSources items
  | .cycle true => .ok []
  | _ => .error .malformed

/-- The entries of mappings that are merged together, those of the first one last. -/
def ofSources : List Node → Except Error (List (Value × Value))
  | [] => .ok []
  | .mapping _ entries :: rest => do
    let (merged, own) ← ofMapping entries
    return (← ofSources rest) ++ merged ++ own
  | .cycle true :: rest => ofSources rest
  | _ => .error .malformed

end

/-- The value of a text; null if it holds no document. -/
def ofText (t : Text) : Except Error Value := do
  match ← Node.ofText t with
  | none => return .null
  | some n => ofNode n

end Value

end DocTable.Yaml
