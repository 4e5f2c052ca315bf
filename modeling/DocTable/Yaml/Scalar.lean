import DocTable.Json.Integer
import DocTable.Yaml.Error
/-!
# DocTable.Yaml.Scalar

The types of scalars: how a plain scalar tells its type by its form, and how a scalar of a type
is read.
-/

namespace DocTable.Yaml

/-- What a node is read as. -/
inductive Kind where
  | null
  | bool
  | int
  | float
  | binary
  | time
  | text
  | list
  | dict
  | orderedPairs
  | pairs
  | set
  /-- A key whose value is merged into the mapping. -/
  | merge
  /-- The key of a mapping's own value. -/
  | ownValue
  /-- A tag without a meaning. -/
  | unknown
  deriving DecidableEq

/-- A calendar date. -/
structure Date where
  year : Nat
  month : Nat
  day : Nat
  deriving DecidableEq

/-- A time of day on a date, with the offset of its zone in seconds. -/
structure Moment where
  date : Date
  hour : Nat
  minute : Nat
  second : Nat
  microsecond : Nat
  zone : Option Int
  deriving DecidableEq

namespace Kind

/-- The kinds that tags of the standard namespace name. -/
def table : List (String × Kind) :=
  [ ("null", .null), ("bool", .bool), ("int", .int), ("float", .float), ("binary", .binary),
    ("timestamp", .time), ("str", .text), ("seq", .list), ("map", .dict),
    ("omap", .orderedPairs), ("pairs", .pairs), ("set", .set), ("merge", .merge),
    ("value", .ownValue) ]

/-- The kind that a tag names. -/
def ofTag (tag : Text) : Kind :=
  match Text.afterStart? "tag:yaml.org,2002:".toList tag with
  | none => .unknown
  | some name => ((table.find? fun e => e.1.toList == name).map (·.2)).getD .unknown

end Kind

namespace Scalar

/-! ### Forms of plain scalars -/

/-- The plain scalars that are truth values, by value. -/
def truthWords : List (String × Bool) :=
  [("yes", true), ("no", false), ("true", true), ("false", false), ("on", true), ("off", false)]

/-- The three spellings of a word that count: small, capitalised and large. -/
def spellings (word : String) : List Text :=
  let w := word.toList
  let capital := match w with
    | c :: rest => c.toUpper :: rest
    | [] => []
  [w, capital, w.map Char.toUpper]

/-- The form of a truth value. -/
def isTruth (t : Text) : Bool :=
  truthWords.any fun w => (spellings w.1).contains t

/-- The form of null. -/
def isNull (t : Text) : Bool :=
  t.isEmpty || t == ['~'] || (spellings "null").contains t

/-- A text without a sign. -/
def unsigned (t : Text) : Text := (Integer.signed t).2

/-- A decimal digit or an underscore. -/
def isDigitPart (c : Char) : Bool := Text.isDigit c || c == '_'

/-- Digits and underscores that begin with a digit of a class. -/
def isDigits (first : Char → Bool) (t : Text) : Bool :=
  t.head?.any first && t.all isDigitPart

/-- A digit of a number without leading zeros. -/
def isLeading (c : Char) : Bool := Text.isDigit c && c != '0'

/-- A group after a colon: at most fifty-nine. -/
def isSixtieth (t : Text) : Bool :=
  match t with
  | [c] => Text.isDigit c
  | [a, b] => '0' ≤ a && a ≤ '5' && Text.isDigit b
  | _ => false

/-- Groups in base sixty, at least two of them. -/
def isSexagesimal (first : Char → Bool) (t : Text) : Bool :=
  match Text.cut ':' t with
  | (_, []) => false
  | (whole, groups) => isDigits first whole && groups.all isSixtieth

/-- The form of a whole number. -/
def isInt (t : Text) : Bool :=
  let digits (p : Char → Bool) (rest : Text) : Bool :=
    !rest.isEmpty && rest.all fun c => p c || c == '_'
  match unsigned t with
  | ['0'] => true
  | '0' :: 'b' :: rest => digits (fun c => c == '0' || c == '1') rest
  | '0' :: 'x' :: rest => digits (fun c => (Text.hexValue? c).isSome) rest
  | '0' :: rest => digits (fun c => '0' ≤ c && c ≤ '7') rest
  | rest => isDigits isLeading rest || isSexagesimal isLeading rest

/-- An exponent, which has to have a sign, or nothing. -/
def isExponent (t : Text) : Bool :=
  match t with
  | [] => true
  | mark :: sign :: digits =>
    (mark == 'e' || mark == 'E') && (sign == '-' || sign == '+') && !digits.isEmpty
      && digits.all Text.isDigit
  | _ => false

/-- The form of a floating-point number. -/
def isFloat (t : Text) : Bool :=
  let u := unsigned t
  let whole := u.takeWhile (· != '.')
  match u.drop whole.length with
  | [] => false
  | _ :: after =>
    let frac := after.takeWhile isDigitPart
    let rest := after.drop frac.length
    if whole.isEmpty then
      (spellings "inf").contains after
        || (u == t && (["nan".toList, "NaN".toList, "NAN".toList].contains after
          || (isDigits Text.isDigit frac && isExponent rest)))
    else
      (isDigits Text.isDigit whole && isExponent rest)
        || (isSexagesimal Text.isDigit whole && rest.isEmpty)

/-! ### Times -/

/-- A number of a least and a most count of digits, and the rest. -/
def digits? (least most : Nat) (t : Text) : Option (Nat × Text) :=
  let ds := (t.takeWhile Text.isDigit).take most
  if least ≤ ds.length then some (Decimal.value ds, t.drop ds.length) else none

/-- The rest after a character. -/
def after? (c : Char) : Text → Option Text
  | d :: rest => if c = d then some rest else none
  | [] => none

/-- A zone at the end of a time: its offset in seconds, if any. -/
def zone? (t : Text) : Option (Option Int) :=
  match t.dropWhile fun c => c == ' ' || c == '\t' with
  | ['Z'] => some (some 0)
  | sign :: rest =>
    if sign = '-' || sign = '+' then do
      let (hours, rest) ← digits? 1 2 rest
      let (minutes, rest) ← match rest with
        | ':' :: rest => digits? 2 2 rest
        | rest => some (0, rest)
      if rest.isEmpty then
        let n : Int := hours * 3600 + minutes * 60
        some (some (if sign = '-' then -n else n))
      else none
    else none
  | [] => if t.isEmpty then some none else none

/-- The written form of a date, and of the time of day if there is one. -/
def moment? (t : Text) : Option (Date × Option Moment) := do
  let (year, t) ← digits? 4 4 t
  let (month, t) ← digits? 1 2 (← after? '-' t)
  let (day, t) ← digits? 1 2 (← after? '-' t)
  let date : Date := ⟨year, month, day⟩
  match t with
  | [] => return (date, none)
  | c :: rest =>
    let time ←
      if c = 'T' || c = 't' then some rest
      else if c = ' ' || c = '\t' then some (rest.dropWhile fun c => c == ' ' || c == '\t')
      else none
    let (hour, t) ← digits? 1 2 time
    let (minute, t) ← digits? 2 2 (← after? ':' t)
    let (second, t) ← digits? 2 2 (← after? ':' t)
    let (frac, t) := match t with
      | '.' :: rest => (rest.takeWhile Text.isDigit, rest.dropWhile Text.isDigit)
      | rest => ([], rest)
    let six := frac.take 6
    let micro := Decimal.value (six ++ List.replicate (6 - six.length) '0')
    return (date, some ⟨date, hour, minute, second, micro, ← zone? t⟩)

/-- The form of a time; a date alone has two digits for month and day. -/
def isTime (t : Text) : Bool :=
  match moment? t with
  | some (_, some _) => true
  | some (_, none) => t.length == 10
  | none => false

/-- The days of a month. -/
def monthLength (year month : Nat) : Nat :=
  if month = 2 then
    if year % 4 = 0 && (year % 100 ≠ 0 || year % 400 = 0) then 29 else 28
  else if [4, 6, 9, 11].contains month then 30
  else 31

/-- Accept a date of the calendar. -/
def checkDate (d : Date) : Except CalendarError Unit :=
  if d.year = 0 then .error (.year d.year)
  else if d.month = 0 || 12 < d.month then .error .month
  else if d.day = 0 || monthLength d.year d.month < d.day then .error .day
  else .ok ()

/-- Accept a time of the calendar; the zone is looked at first. -/
def checkMoment (m : Moment) : Except CalendarError Unit := do
  if let some n := m.zone then
    if 86400 ≤ n.natAbs then .error (.offset n)
  checkDate m.date
  if 23 < m.hour then .error .hour
  if 59 < m.minute then .error .minute
  if 59 < m.second then .error .second

/-- The number of a date, counted from the first day of year one. -/
def dayNumber (d : Date) : Nat :=
  let years := d.year - 1
  let months := (List.range (d.month - 1)).foldl (fun days m => days + monthLength d.year (m + 1)) 0
  years * 365 + years / 4 - years / 100 + years / 400 + months + d.day

/-- The microsecond of a time, counted without regard to its zone. -/
def localMicrosecond (m : Moment) : Int :=
  let seconds := ((dayNumber m.date * 24 + m.hour) * 60 + m.minute) * 60 + m.second
  (seconds * 1000000 + m.microsecond : Nat)

/-- The microsecond of a time, counted in the zone of its offset. -/
def microsecond (m : Moment) : Int :=
  localMicrosecond m - m.zone.getD 0 * 1000000

/-! ### The type of a plain scalar -/

/-- What the form of a plain scalar says it is. -/
def kindOf (t : Text) : Kind :=
  if isTruth t then .bool
  else if isFloat t then .float
  else if isInt t then .int
  else if t = "<<".toList then .merge
  else if isNull t then .null
  else if isTime t then .time
  else if t = ['='] then .ownValue
  else .text

/-! ### Reading numbers -/

/-- The value of digits in a base. -/
def readBase (base : Nat) (t : Text) : Except ScalarError Int :=
  let digits := if base = 8 then Text.dropStart ['0', 'o'] t else t
  let value? := digits.foldl (fun acc c => do
    let d ← Text.hexValue? c
    if d < base then return (← acc) * base + d else none) (some 0)
  match digits, value? with
  | _ :: _, some n => .ok (n : Int)
  | _, _ => .error (.integer base t)

/-- The value of decimal digits. -/
def readDecimal (t : Text) : Except ScalarError Int :=
  (Integer.ofText t).mapError fun
    | .tooManyDigits count => .tooManyDigits count
    | _ => .integer 10 t

/-- The sign and the magnitude of a number without its underscores. -/
def signedNumber (t : Text) : Except ScalarError (Bool × Text) :=
  match t.filter (· != '_') with
  | [] => .error .emptyNumber
  | u => .ok (Integer.signed u)

/-- The whole number of a scalar. -/
def readInt (t : Text) : Except ScalarError Int := do
  let (negative, u) ← signedNumber t
  let n ← match u with
    | ['0'] => pure 0
    | '0' :: 'b' :: rest => readBase 2 rest
    | '0' :: 'x' :: rest => readBase 16 rest
    | '0' :: rest => readBase 8 ('0' :: rest)
    | [] => .error .emptyNumber
    | u =>
      if u.contains ':' then do
        let groups ← (Text.pieces ':' u).mapM readDecimal
        pure (groups.foldl (fun n g => n * 60 + g) 0)
      else readDecimal u
  return if negative then -n else n

/-- The floating-point number of a text with a point or an exponent, or of a name. -/
def float? (t : Text) : Option Binary64 :=
  let (negative, u) := Integer.signed (Text.trim Text.isBlank t)
  if u = "inf".toList || u = "infinity".toList then some (.infinite negative)
  else if u = "nan".toList then some .nan
  else
    let whole := u.takeWhile Text.isDigit
    let rest := u.drop whole.length
    let (frac, rest) := match rest with
      | '.' :: r => (r.takeWhile Text.isDigit, r.dropWhile Text.isDigit)
      | r => ([], r)
    let power? : Option Int := match rest with
      | [] => some 0
      | mark :: r =>
        let (down, digits) := Integer.signed r
        if mark = 'e' && !digits.isEmpty && digits.all Text.isDigit then
          let n : Int := Decimal.value digits
          some (if down then -n else n)
        else none
    if whole.isEmpty && frac.isEmpty then none
    else power?.map fun power =>
      Binary64.ofDecimal negative (Decimal.value (whole ++ frac)) (power - frac.length)

/-- The floating-point number of a text. -/
def readFloatPart (t : Text) : Except ScalarError Binary64 :=
  match float? t with
  | some x => .ok x
  | none => .error (.float t)

/-- The floating-point number of a scalar. Groups in base sixty are added up from the last one. -/
def readFloat (t : Text) : Except ScalarError Binary64 := do
  let (negative, u) ← signedNumber (t.map Char.toLower)
  let x ←
    if u = ".inf".toList then pure (.infinite false)
    else if u = ".nan".toList then return .nan
    else if u.contains ':' then do
      let groups ← (Text.pieces ':' u).mapM readFloatPart
      let sum := groups.reverse.foldl
        (fun (acc : Binary64 × Nat) g => (acc.1.addScaled g acc.2, acc.2 * 60))
        (Binary64.zero false, 1)
      pure sum.1
    else readFloatPart u
  return if negative then x.negate else x

/-- The truth value of a scalar, in any case. -/
def readTruth (t : Text) : Except ScalarError Bool :=
  let small := t.map Char.toLower
  match truthWords.find? fun w => w.1.toList == small with
  | some (_, b) => .ok b
  | none => .error (.truth small)

/-! ### Reading bytes -/

/-- The value of a character in base sixty-four. -/
def sixBits? (c : Char) : Option Nat :=
  if 'A' ≤ c && c ≤ 'Z' then some (c.toNat - 0x41)
  else if 'a' ≤ c && c ≤ 'z' then some (c.toNat - 0x47)
  else if Text.isDigit c then some (c.toNat + 4)
  else if c = '+' then some 62
  else if c = '/' then some 63
  else none

/-- Read bytes in base sixty-four. `place` counts the characters of the current group of four,
`left` holds the bits that are not used up, and `pads` counts the padding; other characters are
skipped, and padding that ends a group ends the text. -/
def bytesFrom (place left pads : Nat) : Text → Option (List UInt8)
  | [] => if place = 0 then some [] else none
  | c :: rest =>
    if c = '=' then
      if 2 ≤ place && 4 ≤ place + pads + 1 then some []
      else bytesFrom place left (if 2 ≤ place then pads + 1 else pads) rest
    else
      match sixBits? c with
      | none => bytesFrom place left pads rest
      | some n =>
        match place with
        | 0 => bytesFrom 1 n 0 rest
        | 1 => (bytesFrom 2 (n % 16) 0 rest).map ((left * 4 + n / 16).toUInt8 :: ·)
        | 2 => (bytesFrom 3 (n % 4) 0 rest).map ((left * 16 + n / 4).toUInt8 :: ·)
        | _ => (bytesFrom 0 0 0 rest).map ((left * 64 + n).toUInt8 :: ·)

/-- The bytes of a scalar of ASCII characters in base sixty-four. -/
def bytes? (t : Text) : Option (List UInt8) :=
  if t.all fun c => c.toNat < 0x80 then bytesFrom 0 0 0 t else none

end Scalar

end DocTable.Yaml
