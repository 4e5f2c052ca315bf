import DocTable.Text.Basic
/-!
# DocTable.Number.Decimal

Whole numbers in base ten. `value_ofNat` says that the digits written for a number stand for it.
-/

namespace DocTable.Decimal

/-- The ASCII digit of a number below ten. -/
def digit (n : Nat) : Char :=
  Char.ofNat (n + 0x30)

/-- The digits of a number, most significant first and without leading zeros; zero is `0`. -/
def ofNat (n : Nat) : Text :=
  if n < 10 then [digit n] else ofNat (n / 10) ++ [digit (n % 10)]
  termination_by n
  decreasing_by omega

/-- A minus sign stands before the digits of a negative number. -/
def ofInt : Int → Text
  | .ofNat n => ofNat n
  | .negSucc n => '-' :: ofNat (n + 1)

/-- The number that a run of ASCII digits stands for. -/
def value (ds : Text) : Nat :=
  ds.foldl (fun acc c => acc * 10 + (c.toNat - 0x30)) 0

/-- A power of ten. -/
def tenTo (n : Nat) : Nat :=
  Nat.pow 10 n

theorem toNat_digit {n : Nat} (h : n < 10) : (digit n).toNat = n + 0x30 := by
  have digits : ∀ m, m < 10 → (digit m).toNat = m + 0x30 := by decide
  exact digits n h

theorem value_append_singleton (ds : Text) (c : Char) :
    value (ds ++ [c]) = value ds * 10 + (c.toNat - 0x30) := by
  simp [value]

theorem value_ofNat (n : Nat) : value (ofNat n) = n := by
  induction n using Nat.strongRecOn with
  | _ n ih =>
    rw [ofNat]
    split
    · next h => simp [value, toNat_digit h]
    · next h =>
      rw [value_append_singleton, ih (n / 10) (by omega), toNat_digit (Nat.mod_lt _ (by omega))]
      omega

theorem ofNat_ne_nil (n : Nat) : ofNat n ≠ [] := by
  rw [ofNat]; split <;> simp

/-- Every character of a written number is an ASCII digit. -/
theorem isDigit_of_mem_ofNat {n : Nat} {c : Char} (h : c ∈ ofNat n) : Text.isDigit c = true := by
  have digits : ∀ m, m < 10 → Text.isDigit (digit m) = true := by decide
  induction n using Nat.strongRecOn with
  | _ n ih =>
    rw [ofNat] at h
    split at h
    · next hn => rw [List.mem_singleton] at h; subst h; exact digits n hn
    · next hn =>
      rcases List.mem_append.1 h with h | h
      · exact ih (n / 10) (by omega) h
      · rw [List.mem_singleton] at h; subst h; exact digits _ (Nat.mod_lt _ (by omega))

/-- Only zero is written with a zero in front. -/
theorem head_ofNat_ne_zero {n : Nat} (h : 0 < n) : (ofNat n).head? ≠ some '0' := by
  have digits : ∀ m, m < 10 → 0 < m → digit m ≠ '0' := by decide
  induction n using Nat.strongRecOn with
  | _ n ih =>
    rw [ofNat]
    split
    · next hn => simpa using digits n hn h
    · next hn =>
      obtain ⟨c, ds, hcons⟩ := List.exists_cons_of_ne_nil (ofNat_ne_nil (n / 10))
      have := ih (n / 10) (by omega) (by omega)
      rw [hcons] at this ⊢
      exact this

/-- Whether a number has at most so many digits. -/
def fits : (count : Nat) → Nat → Bool
  | 0, n => n == 0
  | count + 1, n => n == 0 || fits count (n / 10)

theorem fits_iff {count n : Nat} : fits count n = true ↔ n < tenTo count := by
  induction count generalizing n with
  | zero =>
    rw [fits, beq_iff_eq]
    exact Nat.lt_one_iff.symm
  | succ count ih =>
    have hpow : tenTo (count + 1) = tenTo count * 10 := rfl
    have hpos : 0 < tenTo count := Nat.pow_pos (by decide)
    rw [fits, Bool.or_eq_true, beq_iff_eq, ih, hpow]
    omega

/-- The most digits that a whole number may have when it is read from text or written. -/
def maxDigits : Nat := 4300

/-- Whether a whole number may be written, in a document or in a message. -/
def isShowable (n : Int) : Bool :=
  fits maxDigits n.natAbs

theorem isShowable_eq_false {n : Nat} (h : tenTo maxDigits ≤ n) : isShowable n = false := by
  rw [isShowable, Int.natAbs_natCast, Bool.eq_false_iff, Ne, fits_iff, Nat.not_lt]
  exact h

/-- The complaint about a number that may not be written. -/
def notShowableMessage : Text :=
  "Exceeds the limit (".toList ++ ofNat maxDigits
    ++ " digits) for integer string conversion; ".toList
    ++ "use sys.set_int_max_str_digits() to increase the limit".toList

/-- The complaint about a number with too many digits. -/
def tooLongMessage (count : Nat) : Text :=
  "Exceeds the limit (".toList ++ ofNat maxDigits
    ++ " digits) for integer string conversion: value has ".toList ++ ofNat count
    ++ " digits; use sys.set_int_max_str_digits() to increase the limit".toList

end DocTable.Decimal
