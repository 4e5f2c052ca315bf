import DocTable.Json.Value
import DocTable.Text.Hexadecimal
/-!
# DocTable.Json.Reader

Reading JSON text.

* The grammar is that of the standard, with the names `NaN`, `Infinity` and `-Infinity` added.
  A number with a fraction or an exponent is a floating-point number.
* Readers answer the value and the rest of the text. What stops a reader is given with the rest
  at which it happened; the position is worked out once, against the whole text.
* Nested values are read with fuel; twice the length of the text is enough, because each reader
  that calls another one has consumed a character or hands on to one that will.
-/

namespace DocTable.Json

/-- What is wrong with a malformed text. -/
inductive Fault where
  | value
  | propertyName
  | colon
  | comma
  | extraData
  | controlCharacter
  | escape
  | unicodeEscape
  | unterminated
  | byteOrderMark
  deriving Repr, DecidableEq

/-- The wording of a `Fault`. -/
def Fault.wording : Fault → Text
  | .value => "Expecting value".toList
  | .propertyName => "Expecting property name enclosed in double quotes".toList
  | .colon => "Expecting ':' delimiter".toList
  | .comma => "Expecting ',' delimiter".toList
  | .extraData => "Extra data".toList
  | .controlCharacter => "Invalid control character at".toList
  | .escape => "Invalid \\escape".toList
  | .unicodeEscape => "Invalid \\uXXXX escape".toList
  | .unterminated => "Unterminated string starting at".toList
  | .byteOrderMark => "Unexpected UTF-8 BOM (decode using utf-8-sig)".toList

/-- What stops a reader: a fault at the rest of the text, or a number that is too long. -/
inductive Halt where
  | fault (f : Fault) (rest : Text)
  | tooManyDigits (count : Nat)

/-- Why a text has no value. -/
inductive ReadError where
  /-- A fault, after a stretch of the text. -/
  | malformed (f : Fault) (readSoFar : Text)
  /-- A whole number with more digits than are allowed. -/
  | tooManyDigits (count : Nat)

/-- The wording of a `ReadError`: line and column count from one, characters from zero. -/
def ReadError.message : ReadError → Text
  | .malformed f readSoFar =>
    let line := readSoFar.count '\n' + 1
    let column := (readSoFar.reverse.takeWhile (· ≠ '\n')).length + 1
    f.wording ++ ": line ".toList ++ Decimal.ofNat line ++ " column ".toList ++ Decimal.ofNat column
      ++ " (char ".toList ++ Decimal.ofNat readSoFar.length ++ [')']
  | .tooManyDigits count => Decimal.tooLongMessage count

/-- The blanks that may stand between tokens. -/
def isBlank (c : Char) : Bool :=
  c == ' ' || c == '\t' || c == '\n' || c == '\r'

/-- The text from its first token on. -/
def skipBlanks (s : Text) : Text :=
  s.dropWhile isBlank

/-! ### Texts -/

/-- The character that a short escape stands for. -/
def shortEscape? (c : Char) : Option Char :=
  if c = '"' || c = '\\' || c = '/' then some c
  else if c = 'b' then some '\x08'
  else if c = 'f' then some '\x0c'
  else if c = 'n' then some '\n'
  else if c = 'r' then some '\r'
  else if c = 't' then some '\t'
  else none

/-- The first half of a pair of UTF-16 units. -/
def isHighUnit (n : Nat) : Bool := 0xd800 ≤ n && n < 0xdc00

/-- The second half of a pair of UTF-16 units. -/
def isLowUnit (n : Nat) : Bool := 0xdc00 ≤ n && n < 0xe000

/-- The character of a UTF-16 unit that stands alone; half a pair is read as the replacement
character. -/
def unitChar (n : Nat) : Char :=
  if isHighUnit n || isLowUnit n then '\ufffd' else Char.ofNat n

/-- The character of a pair of UTF-16 units. -/
def pairChar (high low : Nat) : Char :=
  Char.ofNat (0x10000 + (high - 0xd800) * 0x400 + (low - 0xdc00))

/-- Read the second half of a pair, if the rest begins with one: its unit and what follows it.
An escape counts only if something follows it. -/
def lowUnit? : Text → Except Halt (Option (Nat × Text))
  | '\\' :: 'u' :: a :: b :: c :: d :: next :: rest =>
    match Text.ofHexadecimal? [a, b, c, d] with
    | none => .error (.fault .unicodeEscape ('u' :: a :: b :: c :: d :: next :: rest))
    | some low => .ok (if isLowUnit low then some (low, next :: rest) else none)
  | _ => .ok none

/-- Read the characters of a text up to its closing quote; `opening` is the rest at the quote
that opened it. The fuel is the length of the rest. -/
def readChars (opening : Text) : (fuel : Nat) → Text → Except Halt (Text × Text)
  | _, [] => .error (.fault .unterminated opening)
  | 0, _ => .error (.fault .unterminated opening)
  | fuel + 1, c :: rest =>
    if c = '"' then .ok ([], rest)
    else if c = '\\' then
      match rest with
      | [] => .error (.fault .unterminated opening)
      | 'u' :: a :: b :: c :: d :: next :: after =>
        match Text.ofHexadecimal? [a, b, c, d] with
        | none => .error (.fault .unicodeEscape rest)
        | some unit =>
          if isHighUnit unit then do
            match ← lowUnit? (next :: after) with
            | some (low, after) =>
              let (t, rest) ← readChars opening fuel after
              return (pairChar unit low :: t, rest)
            | none =>
              let (t, rest) ← readChars opening fuel (next :: after)
              return (unitChar unit :: t, rest)
          else do
            let (t, rest) ← readChars opening fuel (next :: after)
            return (unitChar unit :: t, rest)
      | 'u' :: _ => .error (.fault .unicodeEscape rest)
      | e :: after =>
        match shortEscape? e with
        | none => .error (.fault .escape (c :: rest))
        | some x => do
          let (t, rest) ← readChars opening fuel after
          return (x :: t, rest)
    else if c.toNat < 0x20 then .error (.fault .controlCharacter (c :: rest))
    else do
      let (t, rest) ← readChars opening fuel rest
      return (c :: t, rest)

/-- Read a text whose opening quote has been seen; `opening` begins with it. -/
def readText (opening : Text) : Except Halt (Text × Text) :=
  readChars opening opening.length opening.tail

/-! ### Numbers -/

/-- The digits of a fraction and the rest; a point without a digit behind it is no fraction. -/
def fraction? : Text → Option (Text × Text)
  | '.' :: rest =>
    match rest.takeWhile Text.isDigit with
    | [] => none
    | digits => some (digits, rest.dropWhile Text.isDigit)
  | _ => none

/-- The value of an exponent and the rest; a mark without a digit behind it is no exponent. -/
def exponent? : Text → Option (Int × Text)
  | mark :: rest =>
    if mark = 'e' || mark = 'E' then
      let (negative, rest) := match rest with
        | '-' :: r => (true, r)
        | '+' :: r => (false, r)
        | r => (false, r)
      match rest.takeWhile Text.isDigit with
      | [] => none
      | digits =>
        let n : Int := Decimal.value digits
        some (if negative then -n else n, rest.dropWhile Text.isDigit)
    else none
  | [] => none

/-- The digits before the point: a single zero, or digits that do not begin with one. -/
def wholeDigits? : Text → Option (Text × Text)
  | '0' :: rest => some (['0'], rest)
  | s =>
    match s.takeWhile Text.isDigit with
    | [] => none
    | digits => some (digits, s.dropWhile Text.isDigit)

/-- Whether a minus sign stands in front, and what follows it. -/
def minus : Text → Bool × Text
  | '-' :: rest => (true, rest)
  | s => (false, s)

/-- Read a number. -/
def readNumber (s : Text) : Except Halt (Json × Text) :=
  let (negative, unsigned) := minus s
  match wholeDigits? unsigned with
  | none => .error (.fault .value s)
  | some (whole, rest) =>
    let (frac, rest, pointed) := match fraction? rest with
      | some (digits, r) => (digits, r, true)
      | none => ([], rest, false)
    let (power, rest, scaled) := match exponent? rest with
      | some (n, r) => (n, r, true)
      | none => (0, rest, false)
    if pointed || scaled then
      let x := Binary64.ofDecimal negative (Decimal.value (whole ++ frac)) (power - frac.length)
      .ok (.float x, rest)
    else if Decimal.maxDigits < whole.length then .error (.tooManyDigits whole.length)
    else
      let n : Int := Decimal.value whole
      .ok (.int (if negative then -n else n), rest)

/-! ### Values -/

/-- The values that are written as a name. -/
def names : List (Text × Json) :=
  [ ("null".toList, .null), ("true".toList, .bool true), ("false".toList, .bool false),
    ("NaN".toList, .float .nan), ("Infinity".toList, .float (.infinite false)),
    ("-Infinity".toList, .float (.infinite true)) ]

/-- Read a value that is written as a name. -/
def name? (s : Text) : Option (Json × Text) :=
  names.findSome? fun (name, v) => (Text.afterStart? name s).map fun rest => (v, rest)

mutual

/-- Read a value, which has to begin at once. -/
def readValue : (fuel : Nat) → Text → Except Halt (Json × Text)
  | 0, s => .error (.fault .value s)
  | fuel + 1, s =>
    match s with
    | '"' :: _ => do
      let (t, rest) ← readText s
      return (.text t, rest)
    | '[' :: inner =>
      match skipBlanks inner with
      | ']' :: rest => .ok (.array [], rest)
      | first => do
        let (items, rest) ← readItems fuel first
        return (.array items, rest)
    | '{' :: inner =>
      match skipBlanks inner with
      | '}' :: rest => .ok (.object [], rest)
      | first => do
        let (pairs, rest) ← readMembers fuel first
        return (.object (Members.ofPairs pairs), rest)
    | _ =>
      match name? s with
      | some found => .ok found
      | none => readNumber s

/-- Read the items of an array through its closing bracket. -/
def readItems : (fuel : Nat) → Text → Except Halt (List Json × Text)
  | 0, s => .error (.fault .value s)
  | fuel + 1, s => do
    let (item, rest) ← readValue fuel s
    match skipBlanks rest with
    | ']' :: rest => return ([item], rest)
    | ',' :: rest =>
      let (items, rest) ← readItems fuel (skipBlanks rest)
      return (item :: items, rest)
    | rest => .error (.fault .comma rest)

/-- Read the members of an object through its closing brace, repeated keys included. -/
def readMembers : (fuel : Nat) → Text → Except Halt (List (Text × Json) × Text)
  | 0, s => .error (.fault .value s)
  | fuel + 1, s =>
    match s with
    | '"' :: _ => do
      let (key, rest) ← readText s
      match skipBlanks rest with
      | ':' :: rest =>
        let (value, rest) ← readValue fuel (skipBlanks rest)
        match skipBlanks rest with
        | '}' :: rest => return ([(key, value)], rest)
        | ',' :: rest =>
          let (pairs, rest) ← readMembers fuel (skipBlanks rest)
          return ((key, value) :: pairs, rest)
        | rest => .error (.fault .comma rest)
      | rest => .error (.fault .colon rest)
    | _ => .error (.fault .propertyName s)

end

/-- Read a value with blanks around it and nothing else. -/
def readWhole (s : Text) : Except Halt Json := do
  let (v, rest) ← readValue (2 * s.length + 2) (skipBlanks s)
  match skipBlanks rest with
  | [] => return v
  | extra => .error (.fault .extraData extra)

/-- What stopped the reading of a whole text. -/
def Halt.inText (s : Text) : Halt → ReadError
  | .fault f rest => .malformed f (s.take (s.length - rest.length))
  | .tooManyDigits count => .tooManyDigits count

/-- The value that decoded bytes are written for. -/
def readDecoded (s : Text) : Except ReadError Json :=
  (readWhole s).mapError (·.inText s)

/-- The value that a text is written for; a byte order mark does not belong into a text. -/
def read (s : Text) : Except ReadError Json :=
  if s.head? = some '\ufeff' then .error (.malformed .byteOrderMark []) else readDecoded s

end DocTable.Json
