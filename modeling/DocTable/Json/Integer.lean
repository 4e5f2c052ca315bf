import DocTable.Json.Value
import DocTable.Text.Quoted
/-!
# DocTable.Json.Integer

Whole numbers from texts and from values of other kinds.

A text may have blanks around the number, a sign before it, and single underscores between its
digits, which may be of any script. A floating-point number loses its fraction.
-/

namespace DocTable.Integer

/-- Why something is no whole number. -/
inductive Error where
  | notInteger (t : Text)
  | tooManyDigits (count : Nat)
  | nan
  | infinite
  | wrongKind (kind : Text)

/-- The wording of an `Error`; a long text is cut. -/
def Error.message : Error → Text
  | .notInteger t =>
    "invalid literal for int() with base 10: ".toList ++ (Text.quoted t).take 200
  | .tooManyDigits count => Decimal.tooLongMessage count
  | .nan => "cannot convert float NaN to integer".toList
  | .infinite => "cannot convert float infinity to integer".toList
  | .wrongKind kind =>
    "int() argument must be a string, a bytes-like object or a real number, not '".toList
      ++ kind ++ ['\'']

/-- The values of digits with single underscores between them; `afterDigit` says whether an
underscore may come next. -/
def digitValues? (afterDigit : Bool) : Text → Option (List Nat)
  | [] => if afterDigit then some [] else none
  | '_' :: rest => if afterDigit then digitValues? false rest else none
  | c :: rest => do return (← Text.digitValue? c) :: (← digitValues? true rest)

/-- Take a sign off a text. -/
def signed : Text → Bool × Text
  | '-' :: rest => (true, rest)
  | '+' :: rest => (false, rest)
  | t => (false, t)

/-- The whole number that a text is written for. -/
def ofText (t : Text) : Except Error Int :=
  let isPart (c : Char) : Bool := c == '_' || (Text.digitValue? c).isSome
  let (negative, unsigned) := signed (t.dropWhile Text.isBlank)
  match digitValues? false (unsigned.takeWhile isPart) with
  | none => .error (.notInteger t)
  | some digits =>
    if Decimal.maxDigits < digits.length then .error (.tooManyDigits digits.length)
    else if (unsigned.dropWhile isPart).all Text.isBlank then
      let n : Int := (digits.foldl (fun n d => n * 10 + d) 0 : Nat)
      .ok (if negative then -n else n)
    else .error (.notInteger t)

/-- The whole number of a value. -/
def ofJson : Json → Except Error Int
  | .bool b => .ok (if b then 1 else 0)
  | .int n => .ok n
  | .float .nan => .error .nan
  | .float (.infinite _) => .error .infinite
  | .float x => .ok (x.truncate?.getD 0)
  | .text t => ofText t
  | v => .error (.wrongKind v.kind)

end DocTable.Integer
