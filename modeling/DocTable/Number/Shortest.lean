import DocTable.Number.Binary64
/-!
# DocTable.Number.Shortest

The shortest decimal that reads back as a given double.

The reals that round to a double form an interval around it, which includes its ends exactly if
the significand is even. For each count of digits in turn, the two neighbours of the double on
the grid of that many digits are tested; the first grid with a hit wins, of two hits the nearer
one, and of two equally near ones the even one.
-/

namespace DocTable.Shortest

/-- The interval of a double in units of `num / den`: its value and its two ends. -/
structure Interval where
  low : Nat
  mid : Nat
  high : Nat
  /-- Whether the ends belong to the interval. -/
  closed : Bool
  num : Nat
  den : Nat

/-- The interval of `significand * 2 ^ exponent`. Ends are half way to the neighbours, and the
lower neighbour is at half the distance where the exponent changes. -/
def Interval.around (significand : Nat) (exponent : Int) : Interval where
  low := if significand = Binary64.leadingBit && -1074 < exponent then 4 * significand - 1
    else 4 * significand - 2
  mid := 4 * significand
  high := 4 * significand + 2
  closed := significand % 2 = 0
  num := if 2 ≤ exponent then Binary64.twoTo (exponent - 2).toNat else 1
  den := if 2 ≤ exponent then 1 else Binary64.twoTo (2 - exponent).toNat

/-- Whether `digits` tenth-powers of `10 ^ grid` lie in the interval. -/
def Interval.holds (i : Interval) (unit : Nat × Nat) (digits : Nat) : Bool :=
  let point := digits * unit.1 * i.den
  let low := i.low * i.num * unit.2
  let high := i.high * i.num * unit.2
  if i.closed then low ≤ point && point ≤ high else low < point && point < high

/-- `10 ^ grid` as a quotient. -/
def gridUnit (grid : Int) : Nat × Nat :=
  if 0 ≤ grid then (Decimal.tenTo grid.toNat, 1) else (1, Decimal.tenTo (-grid).toNat)

/-- The best multiple of `10 ^ grid` in the interval, if there is one. -/
def Interval.nearest? (i : Interval) (grid : Int) : Option Nat :=
  let unit := gridUnit grid
  let num := i.mid * i.num * unit.2
  let den := i.den * unit.1
  let below := num / den
  let rest := num % den
  let preferBelow := 2 * rest < den || (2 * rest == den && below % 2 == 0)
  match i.holds unit below, i.holds unit (below + 1) with
  | true, true => some (if preferBelow then below else below + 1)
  | true, false => some below
  | false, true => some (below + 1)
  | false, false => none

/-- The first grid with a hit, from `count` digits on; `top` is the position of the first digit. -/
def search (i : Interval) (top : Int) : (fuel count : Nat) → Nat × Int
  | 0, _ => (i.mid, 0)
  | fuel + 1, count =>
    let grid := top - count + 1
    match i.nearest? grid with
    | some digits => (digits, grid)
    | none => search i top fuel (count + 1)

/-- A position at or above that of the first digit of `num / den`. -/
def topDigit (num den : Nat) : Int :=
  let whole := (Decimal.ofNat (num / den)).length
  if num / den ≠ 0 then (whole : Int) - 1
  else -((Decimal.ofNat (den / num)).length : Int) + 1

/-- Drop trailing zeros of a number that is scaled by a power of ten. -/
def dropZeros : (fuel : Nat) → Nat × Int → Nat × Int
  | 0, p => p
  | fuel + 1, (digits, grid) =>
    if digits ≠ 0 && digits % 10 = 0 then dropZeros fuel (digits / 10, grid + 1)
    else (digits, grid)

/-- Digits and the power of ten of the last one, for the positive double
`significand * 2 ^ exponent`. Seventeen digits always suffice; two more grids are allowed for,
because `topDigit` may start above the first digit. -/
def shortest (significand : Nat) (exponent : Int) : Nat × Int :=
  let i := Interval.around significand exponent
  let top := topDigit (i.mid * i.num) i.den
  dropZeros 20 (search i top 20 1)

end DocTable.Shortest
