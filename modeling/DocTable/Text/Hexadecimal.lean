import DocTable.Text.Basic
/-!
# DocTable.Text.Hexadecimal

Numbers in base sixteen with a fixed count of small digits, as escapes in quoted texts use them.
`ofHexadecimal?_hexadecimal` says that a number that fits is read back from its digits.
-/

namespace DocTable.Text

/-- The digit of a number below sixteen. -/
def hexDigit (n : Nat) : Char :=
  if n < 10 then Char.ofNat (0x30 + n) else Char.ofNat (0x57 + n)

/-- The last `width` digits of a number, most significant first. -/
def hexadecimal : (width : Nat) → Nat → Text
  | 0, _ => []
  | w + 1, n => hexadecimal w (n / 16) ++ [hexDigit (n % 16)]

@[simp] theorem length_hexadecimal (w n : Nat) : (hexadecimal w n).length = w := by
  induction w generalizing n with
  | zero => rfl
  | succ w ih => simp [hexadecimal, ih]

/-- The value of a digit in either case. -/
def hexValue? (c : Char) : Option Nat :=
  if '0' ≤ c && c ≤ '9' then some (c.toNat - 0x30)
  else if 'a' ≤ c && c ≤ 'f' then some (c.toNat - 0x57)
  else if 'A' ≤ c && c ≤ 'F' then some (c.toNat - 0x37)
  else none

/-- The number that a run of digits stands for; nothing if one of them is no digit. -/
def ofHexadecimal? (t : Text) : Option Nat :=
  t.foldl (fun acc c => do return (← acc) * 16 + (← hexValue? c)) (some 0)

theorem hexValue?_hexDigit {n : Nat} (h : n < 16) : hexValue? (hexDigit n) = some n := by
  have digits : ∀ m, m < 16 → hexValue? (hexDigit m) = some m := by decide
  exact digits n h

theorem ofHexadecimal?_append_singleton (t : Text) (c : Char) :
    ofHexadecimal? (t ++ [c]) = do return (← ofHexadecimal? t) * 16 + (← hexValue? c) := by
  rw [ofHexadecimal?, List.foldl_append]
  rfl

/-- A number is what its digits stand for, if there are enough of them. -/
theorem ofHexadecimal?_hexadecimal {w n : Nat} (h : n < Nat.pow 16 w) :
    ofHexadecimal? (hexadecimal w n) = some n := by
  induction w generalizing n with
  | zero =>
    rw [Nat.lt_one_iff.1 h]
    rfl
  | succ w ih =>
    have hdiv : n / 16 < Nat.pow 16 w := (Nat.div_lt_iff_lt_mul (by decide)).2 h
    rw [hexadecimal, ofHexadecimal?_append_singleton, ih hdiv,
      hexValue?_hexDigit (Nat.mod_lt _ (by decide))]
    exact congrArg some (Nat.div_add_mod' n 16)

end DocTable.Text
