import DocTable.Number.Shortest
/-!
# DocTable.Number.FloatText

How floating-point numbers are written: the fewest digits that read back, positional for numbers
of ordinary size and with an exponent outside of it. What is written always shows a point, an
exponent or a name, so that it is never taken for a whole number.
-/

namespace DocTable

/-- The choices that a place of output makes about numbers that are not finite. -/
structure FloatStyle where
  nan : Text
  infinity : Text

namespace FloatStyle

/-- Numbers inside JSON documents. -/
def document : FloatStyle := ⟨"NaN".toList, "Infinity".toList⟩

/-- Numbers inside messages. -/
def message : FloatStyle := ⟨"nan".toList, "inf".toList⟩

/-- The digits with a point after the first `point` of them, which may lie outside the digits. -/
def positional (digits : Text) (point : Int) : Text :=
  if point ≤ 0 then '0' :: '.' :: List.replicate (-point).toNat '0' ++ digits
  else if digits.length ≤ point.toNat then
    digits ++ List.replicate (point.toNat - digits.length) '0' ++ ['.', '0']
  else digits.take point.toNat ++ '.' :: digits.drop point.toNat

/-- One digit before the point and an exponent of at least two digits. -/
def scientific (digits : Text) (power : Int) : Text :=
  let mantissa := match digits with
    | [] => []
    | [d] => [d]
    | d :: rest => d :: '.' :: rest
  let count := Decimal.ofNat power.natAbs
  mantissa ++ 'e' :: (if power < 0 then '-' else '+')
    :: List.replicate (2 - count.length) '0' ++ count

/-- The magnitude of a finite number. Exponents from -4 to 15 are written positionally. -/
def magnitude (significand : Nat) (exponent : Int) : Text :=
  if significand = 0 then ['0', '.', '0']
  else
    let (number, grid) := Shortest.shortest significand exponent
    let digits := Decimal.ofNat number
    let point := digits.length + grid
    if -4 < point && point ≤ 16 then positional digits point else scientific digits (point - 1)

/-- The text of a number. -/
def write (style : FloatStyle) : Binary64 → Text
  | .nan => style.nan
  | .infinite negative => (if negative then ['-'] else []) ++ style.infinity
  | .finite negative field fraction =>
    (if negative then ['-'] else [])
      ++ magnitude (Binary64.significandOf field fraction) (Binary64.exponentOf field)

end FloatStyle

end DocTable
