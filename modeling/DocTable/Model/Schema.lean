import DocTable.Json.Integer
/-!
# DocTable.Model.Schema

Document models: the fields that a document has to have, and documents that have been checked.

A record type lists its fields in order; an optional field may be missing or null. Checking goes
through the fields in that order and reports every fault. Other members are ignored. What a
document yields when it passes is its content: each field with its value, and whether the
document had it.
-/

namespace DocTable.Model

/-- The type of a field. -/
inductive FieldType where
  | text
  | integer
  /-- Fields with their names, and whether each is optional. -/
  | record (fields : List (Text × Bool × FieldType))

/-- The fields of a model. -/
abbrev Schema := List (Text × Bool × FieldType)

/-- A checked value. -/
inductive Content where
  | null
  | text (t : Text)
  | integer (n : Int)
  /-- Fields with their names, and whether each was given. -/
  | record (fields : List (Text × Bool × Content))

/-- The fields of a checked document. -/
abbrev Record := List (Text × Bool × Content)

/-- What is wrong with a value. -/
inductive Defect where
  | missing
  | notText
  | notInteger
  | notIntegerText
  | fraction
  | notFinite
  | tooLarge
  | notRecord
  /-- A member that is no field, where a model allows none. -/
  | notField
  deriving DecidableEq

/-- The name of a `Defect`. -/
def Defect.name : Defect → Text
  | .missing => "missing".toList
  | .notText => "string_type".toList
  | .notInteger => "int_type".toList
  | .notIntegerText => "int_parsing".toList
  | .fraction => "int_from_float".toList
  | .notFinite => "finite_number".toList
  | .tooLarge => "int_parsing_size".toList
  | .notRecord => "model_type".toList
  | .notField => "extra_forbidden".toList

/-- A defect at a place in a document. -/
structure Fault where
  place : List Text
  defect : Defect

/-- The wording of faults. -/
def Fault.message (faults : List Fault) : Text :=
  Text.join [';', ' ']
    (faults.map fun f => Text.join ['.'] f.place ++ ':' :: f.defect.name)

/-! ### Whole numbers -/

/-- The whole number of a text: blanks around it, a sign, single underscores between digits and a
fraction of zeros are allowed. -/
def integerOfText (t : Text) : Except Defect Int :=
  let (negative, u) := Integer.signed (Text.trim Text.isBlank t)
  let whole := u.takeWhile (· != '.')
  let zeros := (u.drop whole.length).drop 1
  if Decimal.maxDigits < u.length then .error .tooLarge
  else
    match Integer.digitValues? false whole with
    | none => .error .notIntegerText
    | some digits =>
      if whole.all (fun c => c.toNat < 0x80) && zeros.all (· == '0') then
        let n : Int := (digits.foldl (fun n d => n * 10 + d) 0 : Nat)
        .ok (if negative then -n else n)
      else .error .notIntegerText

/-- The whole number of a floating-point number; those that do not fit into 64 bits are refused. -/
def integerOfFloat (x : Binary64) : Except Defect Int :=
  if !x.isFinite then .error .notFinite
  else
    match x.toInt? with
    | none => .error .fraction
    | some n => if n.natAbs < 0x8000000000000000 then .ok n else .error .tooLarge

/-- The whole number of a value. -/
def integerOf : Json → Except Defect Int
  | .bool b => .ok (if b then 1 else 0)
  | .int n => .ok n
  | .float x => integerOfFloat x
  | .text t => integerOfText t
  | _ => .error .notInteger

/-! ### Checking -/

/-- What checking a value yields: its content, or the faults in it. -/
abbrev Checked (α : Type) := Except (List Fault) α

/-- Both results, or all faults of both. -/
def both {α β : Type} : Checked α → Checked β → Checked (α × β)
  | .ok a, .ok b => .ok (a, b)
  | .error f, .error g => .error (f ++ g)
  | .error f, .ok _ | .ok _, .error f => .error f

/-- Faults inside a member. -/
def within {α : Type} (name : Text) (c : Checked α) : Checked α :=
  c.mapError fun faults => faults.map fun f => { f with place := name :: f.place }

/-- A defect of the value itself. -/
def here {α : Type} (r : Except Defect α) : Checked α :=
  r.mapError fun d => [⟨[], d⟩]

mutual

/-- Check a value against a type. -/
def check (v : Json) : FieldType → Checked Content
  | .text =>
    match v with
    | .text t => .ok (.text t)
    | _ => .error [⟨[], .notText⟩]
  | .integer => here (Content.integer <$> integerOf v)
  | .record fields =>
    match v with
    | .object members => Content.record <$> checkFields members fields
    | _ => .error [⟨[], .notRecord⟩]

/-- Check the members of an object against fields. -/
def checkFields (members : Members) : List (Text × Bool × FieldType) → Checked Record
  | [] => .ok []
  | (name, isOptional, type) :: rest =>
    let field : Checked (Bool × Content) :=
      match Members.get? name members with
      | none => if isOptional then .ok (false, .null) else .error [⟨[name], .missing⟩]
      | some v =>
        if isOptional && v matches .null then .ok (true, .null)
        else within name ((true, ·) <$> check v type)
    (fun (f, fs) => (name, f) :: fs) <$> both field (checkFields members rest)

end

/-- Check a document against a model. -/
def validate (schema : Schema) : Json → Checked Record
  | .object members => checkFields members schema
  | _ => .error [⟨[], .notRecord⟩]

/-! ### Content as documents -/

mutual

/-- The value of a content: all fields in order. -/
def Content.dump : Content → Json
  | .null => .null
  | .text t => .text t
  | .integer n => .int n
  | .record fields => .object (dumpFields fields)

/-- The members of a record: all fields in order. -/
def dumpFields : List (Text × Bool × Content) → Members
  | [] => []
  | (name, _, c) :: rest => (name, c.dump) :: dumpFields rest

end

mutual

/-- The value of a content with only those fields that were given. -/
def Content.dumpGiven : Content → Json
  | .null => .null
  | .text t => .text t
  | .integer n => .int n
  | .record fields => .object (dumpGivenFields fields)

/-- The members of a record that were given. -/
def dumpGivenFields : List (Text × Bool × Content) → Members
  | [] => []
  | (name, given, c) :: rest =>
    if given then (name, c.dumpGiven) :: dumpGivenFields rest else dumpGivenFields rest

end

/-! ### Other models

What a model allows and what its contents look like may be more than a record type says. All that
tables need of them is how documents are checked and how contents are written. -/

/-- Models that documents are checked against; what a document yields is its content. -/
class Validates (σ : Type) (α : outParam Type) where
  validate : σ → Json → Checked α

/-- Contents that are written as documents. -/
class Dumps (α : Type) where
  /-- The members of a content: all fields in order. -/
  dump : α → Members
  /-- The members of a content with only those fields that were given. -/
  dumpGiven : α → Members

instance : Validates Schema Record := ⟨validate⟩

instance : Dumps Record := ⟨dumpFields, dumpGivenFields⟩

end DocTable.Model
