import DocTable.Number.Decimal
/-!
# DocTable.Number.Binary64

Double-precision binary floating point, with all arithmetic in exact whole numbers.

A finite number is given by the three fields of its storage format, so each number except zero
has one representation. Its magnitude is `significand * 2 ^ exponent`.
-/

namespace DocTable

/-- A power of two. -/
def Binary64.twoTo (n : Nat) : Nat :=
  Nat.pow 2 n

/-- The weight of the leading bit of a significand, which is `2 ^ 52`. -/
abbrev Binary64.leadingBit : Nat :=
  0x10000000000000

/-- A binary floating-point number of 64 bits; all NaNs are one. -/
inductive Binary64 where
  | nan
  | infinite (negative : Bool)
  /-- Sign, exponent field and fraction field. -/
  | finite (negative : Bool) (field : Fin 2047) (fraction : Fin Binary64.leadingBit)
  deriving DecidableEq

namespace Binary64

/-- The whole number that is scaled by a power of two; the leading bit is implied except for
numbers next to zero. -/
def significandOf (field : Fin 2047) (fraction : Fin leadingBit) : Nat :=
  if field.val = 0 then fraction.val else leadingBit + fraction.val

/-- The power of two by which the significand is scaled. -/
def exponentOf (field : Fin 2047) : Int :=
  if field.val = 0 then -1074 else (field.val : Int) - 1075

/-- The number zero with a sign. -/
def zero (negative : Bool) : Binary64 :=
  .finite negative ⟨0, by decide⟩ ⟨0, by decide⟩

/-- Whether the number is a finite one. -/
def isFinite : Binary64 → Bool
  | .finite .. => true
  | _ => false

/-- Whether the number is zero, of either sign. -/
def isZero : Binary64 → Bool
  | .finite _ field fraction => significandOf field fraction == 0
  | _ => false

/-- The nearest whole number to `num / den`; a half goes to the even neighbour. -/
def roundDiv (num den : Nat) : Nat :=
  let floor := num / den
  let rest := num % den
  if 2 * rest < den then floor
  else if 2 * rest > den then floor + 1
  else if floor % 2 = 0 then floor else floor + 1

/-- The number with a given significand (at most `2 ^ 53`) and exponent (at least `-1074`);
numbers beyond the range are infinite. -/
def assemble (negative : Bool) (significand : Nat) (exponent : Int) : Binary64 :=
  if significand < leadingBit then
    .finite negative ⟨0, by decide⟩ ⟨significand % leadingBit, Nat.mod_lt _ (by decide)⟩
  else
    let (s, e) :=
      if significand < 2 * leadingBit then (significand, exponent)
      else (significand / 2, exponent + 1)
    let field := (e + 1075).toNat
    if h : field < 2047 then
      .finite negative ⟨field, h⟩ ⟨s % leadingBit, Nat.mod_lt _ (by decide)⟩
    else .infinite negative

/-- `⌊log₂ (num / den)⌋` for positive numbers. -/
def floorLog2 (num den : Nat) : Int :=
  let guess := (num.log2 : Int) - den.log2
  let reached :=
    if 0 ≤ guess then den * twoTo guess.toNat ≤ num else den ≤ num * twoTo (-guess).toNat
  if reached then guess else guess - 1

/-- The double nearest to `num / den`, a tie going to the even significand. -/
def ofRational (negative : Bool) (num den : Nat) : Binary64 :=
  if num = 0 then zero negative
  else
    let exponent := max (floorLog2 num den - 52) (-1074)
    let significand :=
      if 0 ≤ exponent then roundDiv num (den * twoTo exponent.toNat)
      else roundDiv (num * twoTo (-exponent).toNat) den
    assemble negative significand exponent

/-- The double nearest to `digits * 10 ^ exponent`. Exponents far outside the range are answered
at once, without computing the power of ten. -/
def ofDecimal (negative : Bool) (digits : Nat) (exponent : Int) : Binary64 :=
  let magnitude := ((Decimal.ofNat digits).length : Int) + exponent
  if digits = 0 then zero negative
  else if 310 < magnitude then .infinite negative
  else if magnitude < -330 then zero negative
  else if 0 ≤ exponent then ofRational negative (digits * Decimal.tenTo exponent.toNat) 1
  else ofRational negative digits (Decimal.tenTo (-exponent).toNat)

/-- The double nearest to a whole number. -/
def ofInt (n : Int) : Binary64 :=
  ofRational (n < 0) n.natAbs 1

/-- The whole number nearest to a finite double in the direction of zero. -/
def truncate? : Binary64 → Option Int
  | .finite negative field fraction =>
    let e := exponentOf field
    let s := significandOf field fraction
    let magnitude := if 0 ≤ e then s * twoTo e.toNat else s / twoTo (-e).toNat
    some (if negative then -(magnitude : Int) else magnitude)
  | _ => none

/-- The whole number that a finite double is equal to, if it has no fraction part. -/
def toInt? : Binary64 → Option Int
  | .finite negative field fraction =>
    let e := exponentOf field
    let s := significandOf field fraction
    if 0 ≤ e || s % twoTo (-e).toNat = 0 then truncate? (.finite negative field fraction) else none
  | _ => none

/-- The number with the other sign. -/
def negate : Binary64 → Binary64
  | .nan => .nan
  | .infinite negative => .infinite !negative
  | .finite negative field fraction => .finite (!negative) field fraction

/-- A finite number as an exact quotient. -/
def quotient? : Binary64 → Option (Int × Nat)
  | .finite negative field fraction =>
    let e := exponentOf field
    let n : Int := significandOf field fraction * twoTo e.toNat
    some (if negative then -n else n, twoTo (-e).toNat)
  | _ => none

/-- The double nearest to `a + b * scale`, with the product rounded first; not a number if one of
them is not finite. -/
def addScaled (a b : Binary64) (scale : Nat) : Binary64 :=
  let round (q : Int × Nat) : Binary64 := ofRational (q.1 < 0) q.1.natAbs q.2
  match a.quotient?, b.quotient? with
  | some (n, d), some (m, c) =>
    match (round (m * scale, c)).quotient? with
    | some (m, c) => round (n * c + m * d, d * c)
    | none => .nan
  | _, _ => .nan

/-- Equality as numbers: zeros of both signs agree, and every number agrees with itself. -/
def same (a b : Binary64) : Bool :=
  a == b || (a.isZero && b.isZero)

end Binary64

end DocTable
