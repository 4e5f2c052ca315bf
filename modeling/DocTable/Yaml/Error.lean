import DocTable.Text.Quoted
import DocTable.Number.Decimal
/-!
# DocTable.Yaml.Error

What can be wrong with a YAML text. Most causes are one to the callers: the text is malformed.
Scalars that do not fit the type they are read as are told apart.
-/

namespace DocTable.Yaml

/-- A calendar date or time that does not exist. -/
inductive CalendarError where
  | year (n : Nat)
  | month
  | day
  | hour
  | minute
  | second
  /-- An offset of a day or more, in seconds. -/
  | offset (seconds : Int)

/-- A length of time in whole days and the seconds beyond them, as in messages. -/
def displayDelta (seconds : Int) : Text :=
  let days := Int.fdiv seconds 86400
  let rest := Int.fmod seconds 86400
  let parts :=
    (if days = 0 then [] else ["days=".toList ++ Decimal.ofInt days])
      ++ (if rest = 0 then [] else ["seconds=".toList ++ Decimal.ofInt rest])
  "datetime.timedelta(".toList ++ Text.join [',', ' '] parts ++ [')']

/-- The wording of a `CalendarError`. -/
def CalendarError.message : CalendarError → Text
  | .year n => "year ".toList ++ Decimal.ofNat n ++ " is out of range".toList
  | .month => "month must be in 1..12".toList
  | .day => "day is out of range for month".toList
  | .hour => "hour must be in 0..23".toList
  | .minute => "minute must be in 0..59".toList
  | .second => "second must be in 0..59".toList
  | .offset seconds =>
    "offset must be a timedelta strictly between -timedelta(hours=24) and ".toList
      ++ "timedelta(hours=24), not ".toList ++ displayDelta seconds ++ ['.']

/-- A scalar that does not fit its type. -/
inductive ScalarError where
  | integer (base : Nat) (t : Text)
  | tooManyDigits (count : Nat)
  | float (t : Text)
  | truth (t : Text)
  /-- A number without any character. -/
  | emptyNumber
  /-- A time that is not written as one. -/
  | notTime
  | calendar (e : CalendarError)
  /-- An escaped character code beyond the last character. -/
  | characterCode
  /-- An escaped character code beyond the range of machine integers. -/
  | characterOverflow

/-- The wording of a `ScalarError`. -/
def ScalarError.message : ScalarError → Text
  | .integer base t =>
    "invalid literal for int() with base ".toList ++ Decimal.ofNat base ++ [':', ' ']
      ++ (Text.quoted t).take 200
  | .tooManyDigits count => Decimal.tooLongMessage count
  | .float t => "could not convert string to float: ".toList ++ Text.quoted t
  | .truth t => Text.quoted t
  | .emptyNumber => "string index out of range".toList
  | .notTime => "'NoneType' object has no attribute 'groupdict'".toList
  | .calendar e => e.message
  | .characterCode => "chr() arg not in range(0x110000)".toList
  | .characterOverflow => "Python int too large to convert to C int".toList

/-- Why a text has no value. -/
inductive Error where
  | malformed
  | scalar (e : ScalarError)

end DocTable.Yaml
