import DocTable.Number.Decimal
import DocTable.Text.Hexadecimal
/-!
# DocTable.Bytes.Decoding

Bytes as text, in the encodings that JSON text may come in: UTF-8, UTF-16 and UTF-32 in either
byte order.

* `detect` tells the encoding of a JSON text from its byte order mark or, without one, from the
  zero bytes among its first four: JSON text begins with ASCII characters.
* Each encoding is one step function, from the bytes that are left to the next character and its
  length; `decodeWith` repeats the step. Half a surrogate pair is read as the replacement
  character.
* `decodeStrict` is for texts that are not JSON: UTF-8 in which surrogates have no place.
-/

namespace DocTable.Bytes

/-- The encodings of JSON text. -/
inductive Encoding where
  | utf8
  | utf16 (big : Bool)
  | utf32 (big : Bool)
  deriving DecidableEq

/-- The name of an encoding in messages. -/
def Encoding.name : Encoding → Text
  | .utf8 => "utf-8".toList
  | .utf16 true => "utf-16-be".toList
  | .utf16 false => "utf-16-le".toList
  | .utf32 true => "utf-32-be".toList
  | .utf32 false => "utf-32-le".toList

/-- What is wrong with a stretch of bytes. -/
inductive Defect where
  | startByte
  | continuationByte
  | unexpectedEnd
  | truncated
  | outOfRange

/-- The wording of a `Defect`. -/
def Defect.wording : Defect → Text
  | .startByte => "invalid start byte".toList
  | .continuationByte => "invalid continuation byte".toList
  | .unexpectedEnd => "unexpected end of data".toList
  | .truncated => "truncated data".toList
  | .outOfRange => "code point not in range(0x110000)".toList

/-- A stretch of bytes that stands for no character. -/
structure DecodingError where
  encoding : Encoding
  /-- The first byte of the stretch. -/
  byte : UInt8
  position : Nat
  length : Nat
  defect : Defect

/-- The wording of a `DecodingError`; a single byte is shown. -/
def DecodingError.message (e : DecodingError) : Text :=
  let place :=
    if e.length = 1 then
      "byte 0x".toList ++ Text.hexadecimal 2 e.byte.toNat ++ " in position ".toList
        ++ Decimal.ofNat e.position
    else
      "bytes in position ".toList ++ Decimal.ofNat e.position ++ ['-']
        ++ Decimal.ofNat (e.position + e.length - 1)
  '\'' :: e.encoding.name ++ "' codec can't decode ".toList ++ place ++ [':', ' ']
    ++ e.defect.wording

/-- The character of a code; a surrogate is read as the replacement character. -/
def codeChar (n : Nat) : Char :=
  if 0xd800 ≤ n && n < 0xe000 then '\ufffd' else Char.ofNat n

/-- A step over the next character: its code and length, or a defect and its length. -/
abbrev Step := Except (Defect × Nat) (Nat × Nat)

/-! ### UTF-8 -/

/-- A byte that continues a character. -/
def isContinuation (b : UInt8) : Bool :=
  0x80 ≤ b && b ≤ 0xbf

/-- The second bytes that may follow a first byte: no code has two forms, and none is beyond the
last character. Surrogates are let through. -/
def isSecondOf (first b : UInt8) : Bool :=
  isContinuation b &&
    !((first = 0xe0 && b < 0xa0) || (first = 0xf0 && b < 0x90) || (first = 0xf4 && 0x8f < b))

/-- The code that continues with the six low bits of a byte. -/
def extend (code : Nat) (b : UInt8) : Nat :=
  code * 64 + b.toNat % 64

/-- Whether the bytes begin a surrogate that is not complete; such a start is no character. -/
def isBrokenSurrogate (first second : UInt8) (third? : Option UInt8) : Bool :=
  first = 0xed && 0x9f < second && !third?.any isContinuation

/-- The next character in UTF-8. -/
def stepUtf8 : List UInt8 → Step
  | [] => .error (.unexpectedEnd, 0)
  | a :: rest =>
    if a < 0x80 then .ok (a.toNat, 1)
    else if a < 0xc2 || 0xf4 < a then .error (.startByte, 1)
    else
      match rest with
      | [] => .error (.unexpectedEnd, 1)
      | b :: rest =>
        if !isSecondOf a b then .error (.continuationByte, 1)
        else if a < 0xe0 then .ok (extend (a.toNat % 32) b, 2)
        else if isBrokenSurrogate a b rest.head? then .error (.continuationByte, 1)
        else
          match rest with
          | [] => .error (.unexpectedEnd, 2)
          | c :: rest =>
            if !isContinuation c then .error (.continuationByte, 2)
            else if a < 0xf0 then .ok (extend (extend (a.toNat % 16) b) c, 3)
            else
              match rest with
              | [] => .error (.unexpectedEnd, 3)
              | d :: _ =>
                if !isContinuation d then .error (.continuationByte, 3)
                else .ok (extend (extend (extend (a.toNat % 8) b) c) d, 4)

/-- Whether bytes begin a surrogate. -/
def beginsSurrogate : List UInt8 → Bool
  | a :: b :: _ => a = 0xed && isContinuation b && 0x9f < b
  | _ => false

/-- The next character in UTF-8, where a surrogate is none. -/
def stepStrict (bytes : List UInt8) : Step :=
  if beginsSurrogate bytes then .error (.continuationByte, 1) else stepUtf8 bytes

/-! ### UTF-16 and UTF-32 -/

/-- The number that bytes stand for in a byte order. -/
def number (big : Bool) (bytes : List UInt8) : Nat :=
  (if big then bytes else bytes.reverse).foldl (fun n b => n * 256 + b.toNat) 0

/-- The next character in UTF-16; two halves of a surrogate pair make one character. -/
def stepUtf16 (big : Bool) : List UInt8 → Step
  | a :: b :: rest =>
    let high := number big [a, b]
    let low := number big (rest.take 2)
    if 0xd800 ≤ high && high < 0xdc00 && 2 ≤ rest.length && 0xdc00 ≤ low && low < 0xe000 then
      .ok (0x10000 + (high - 0xd800) * 0x400 + (low - 0xdc00), 4)
    else .ok (high, 2)
  | short => .error (.truncated, short.length)

/-- The next character in UTF-32. -/
def stepUtf32 (big : Bool) : List UInt8 → Step
  | a :: b :: c :: d :: _ =>
    let code := number big [a, b, c, d]
    if code < 0x110000 then .ok (code, 4) else .error (.outOfRange, 4)
  | short => .error (.truncated, short.length)

/-! ### Whole texts -/

/-- The next character in an encoding. -/
def step : Encoding → List UInt8 → Step
  | .utf8 => stepUtf8
  | .utf16 big => stepUtf16 big
  | .utf32 big => stepUtf32 big

/-- Read characters step by step until the bytes end; `position` counts the bytes before them. The
fuel is the number of bytes, since every character takes at least one. -/
def decodeWith (step : List UInt8 → Step) (encoding : Encoding) : (fuel position : Nat) →
    List UInt8 → Except DecodingError Text
  | _, _, [] => .ok []
  | 0, _, _ => .ok []
  | fuel + 1, position, b :: rest =>
    match step (b :: rest) with
    | .error (defect, length) => .error ⟨encoding, b, position, length, defect⟩
    | .ok (code, length) =>
      (codeChar code :: ·) <$>
        decodeWith step encoding fuel (position + length) ((b :: rest).drop length)

/-- The text of bytes in an encoding. -/
def decode (encoding : Encoding) (position : Nat) (bytes : List UInt8) :
    Except DecodingError Text :=
  decodeWith (step encoding) encoding bytes.length position bytes

/-- The text of bytes in UTF-8, without surrogates. -/
def decodeStrict (bytes : List UInt8) : Except DecodingError Text :=
  decodeWith stepStrict .utf8 bytes.length 0 bytes

/-- The encoding of a JSON text without a byte order mark. -/
def detectByZeros : List UInt8 → Encoding
  | a :: b :: c :: d :: _ =>
    if a = 0 then (if b = 0 then .utf32 true else .utf16 true)
    else if b = 0 then (if c = 0 && d = 0 then .utf32 false else .utf16 false)
    else .utf8
  | [a, b] => if a = 0 then .utf16 true else if b = 0 then .utf16 false else .utf8
  | _ => .utf8

/-- The encoding of a JSON text, the position from which it is counted and its bytes, without
the byte order mark. Positions count a mark of two or four bytes, but not one of UTF-8. -/
def detect : List UInt8 → Encoding × Nat × List UInt8
  | 0x00 :: 0x00 :: 0xfe :: 0xff :: rest => (.utf32 true, 4, rest)
  | 0xff :: 0xfe :: 0x00 :: 0x00 :: rest => (.utf32 false, 4, rest)
  | 0xfe :: 0xff :: rest => (.utf16 true, 2, rest)
  | 0xff :: 0xfe :: rest => (.utf16 false, 2, rest)
  | 0xef :: 0xbb :: 0xbf :: rest => (.utf8, 0, rest)
  | bytes => (detectByZeros bytes, 0, bytes)

/-- The text that bytes of JSON stand for. -/
def jsonText (bytes : List UInt8) : Except DecodingError Text :=
  let (encoding, position, rest) := detect bytes
  decode encoding position rest

/-- The bytes of a text in UTF-8. -/
def ofText (t : Text) : List UInt8 :=
  t.flatMap String.utf8EncodeChar

end DocTable.Bytes
