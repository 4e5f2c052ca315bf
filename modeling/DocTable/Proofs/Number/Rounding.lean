import DocTable.Number.Shortest
import Mathlib.Algebra.Order.Field.Power
import Mathlib.Tactic.FieldSimp
import Mathlib.Tactic.Linarith
import Mathlib.Tactic.Positivity
import Mathlib.Tactic.Ring
/-!
# DocTable.Proofs.Number.Rounding

The interval of a double is what rounds to it.

A double is read from a quotient by rounding its significand to the nearest whole number
(`nearest_roundDiv`), with the exponent of the quotient (`floorLog2_spec`). `Interval.around` is
stated apart from that, by the ends half way to the neighbours; `ofRational_of_contains` says that
all numbers in the interval of a double are read as that double, its ends included where the
interval is closed.
-/

namespace DocTable

namespace Binary64

/-! ### Powers of two -/

theorem cast_twoTo (n : Nat) : ((twoTo n : Nat) : ℚ) = 2 ^ n := by
  rw [twoTo, Nat.pow_eq]
  push_cast
  rfl

theorem twoTo_pos (n : Nat) : 0 < twoTo n :=
  Nat.pow_pos (by decide)

theorem cast_twoTo_toNat {k : Int} (hk : 0 ≤ k) : ((twoTo k.toNat : Nat) : ℚ) = 2 ^ k := by
  rw [cast_twoTo, ← zpow_natCast, Int.toNat_of_nonneg hk]

/-! ### Rounding to a whole number -/

/-- A number is read as a whole one: the distance is less than one half, or one half if the whole
number is even. -/
def Nearest (q : ℚ) (n : Nat) : Prop :=
  |q - n| < 1 / 2 ∨ |q - n| ≤ 1 / 2 ∧ n % 2 = 0

theorem Nearest.bounds {q : ℚ} {n : Nat} (h : Nearest q n) : q ≤ n + 1 / 2 ∧ n ≤ q + 1 / 2 := by
  obtain ⟨hlow, hhigh⟩ := abs_le.1 (h.elim le_of_lt And.left)
  exact ⟨by linarith, by linarith⟩

/-- In the middle between two whole numbers, the even one is the nearest. -/
theorem Nearest.even {q : ℚ} {n : Nat} (h : Nearest q n) (hhalf : |q - n| = 1 / 2) :
    n % 2 = 0 := by
  rcases h with h | h
  · exact absurd hhalf h.ne
  · exact h.2

theorem Nearest.le {q : ℚ} {m n : Nat} (hm : Nearest q m) (hn : Nearest q n) : m ≤ n := by
  by_contra hlt
  obtain ⟨-, hm'⟩ := hm.bounds
  obtain ⟨hn', -⟩ := hn.bounds
  have hnext : (n : ℚ) + 1 ≤ m := by exact_mod_cast Nat.lt_of_not_le hlt
  -- The two would have the number in their middle, and both would be even.
  have hmEven : m % 2 = 0 := hm.even (by rw [abs_eq (by norm_num)]; right; linarith)
  have hnEven : n % 2 = 0 := hn.even (by rw [abs_eq (by norm_num)]; left; linarith)
  have hone : m = n + 1 := by
    have hcast : (m : ℚ) = n + 1 := by linarith
    exact_mod_cast hcast
  omega

theorem nearest_roundDiv (num : Nat) {den : Nat} (hden : 0 < den) :
    Nearest (num / den) (roundDiv num den) := by
  have hden' : (0 : ℚ) < den := by exact_mod_cast hden
  have hquotient : (num : ℚ) / den = (num / den : Nat) + (num % den : Nat) / den := by
    have hsum : (den : ℚ) * (num / den : Nat) + (num % den : Nat) = num := by
      exact_mod_cast Nat.div_add_mod num den
    rw [div_eq_iff hden'.ne', add_mul, div_mul_cancel₀ _ hden'.ne']
    linarith
  have hless : ((num % den : Nat) : ℚ) / den < 1 := by
    rw [div_lt_one hden']
    exact_mod_cast Nat.mod_lt num hden
  have hhalf : ((num % den : Nat) : ℚ) / den < 1 / 2 ↔ 2 * (num % den) < den := by
    rw [div_lt_div_iff₀ hden' two_pos, one_mul, mul_comm]
    exact_mod_cast Iff.rfl
  have hhalf' : 1 / 2 < ((num % den : Nat) : ℚ) / den ↔ den < 2 * (num % den) := by
    rw [div_lt_div_iff₀ two_pos hden', one_mul, mul_comm]
    exact_mod_cast Iff.rfl
  have hrest : 0 ≤ ((num % den : Nat) : ℚ) / den := by positivity
  unfold roundDiv Nearest
  dsimp only
  rw [hquotient]
  split
  · next h =>
    have hlow := hhalf.2 h
    exact .inl (abs_lt.2 ⟨by linarith, by linarith⟩)
  · next h =>
    split
    · next h' =>
      have hhigh := hhalf'.2 h'
      push_cast
      exact .inl (abs_lt.2 ⟨by linarith, by linarith⟩)
    · next h' =>
      have hlow : 1 / 2 ≤ ((num % den : Nat) : ℚ) / den := not_lt.1 (mt hhalf.1 h)
      have hhigh : ((num % den : Nat) : ℚ) / den ≤ 1 / 2 := not_lt.1 (mt hhalf'.1 h')
      split
      · next heven => exact .inr ⟨abs_le.2 ⟨by linarith, by linarith⟩, heven⟩
      · next hodd =>
        push_cast
        exact .inr ⟨abs_le.2 ⟨by linarith, by linarith⟩, by omega⟩

theorem roundDiv_eq {num den n : Nat} (hden : 0 < den) (h : Nearest (num / den) n) :
    roundDiv num den = n :=
  Nat.le_antisymm ((nearest_roundDiv num hden).le h) (h.le (nearest_roundDiv num hden))

/-- Rounding a quotient that is scaled by a power of two. -/
theorem roundDiv_scaled {num den n : Nat} {exponent : Int} (hden : 0 < den)
    (h : Nearest (num / den / 2 ^ exponent) n) :
    (if 0 ≤ exponent then roundDiv num (den * twoTo exponent.toNat)
      else roundDiv (num * twoTo (-exponent).toNat) den) = n := by
  split
  · next hexp =>
    refine roundDiv_eq (Nat.mul_pos hden (twoTo_pos _)) ?_
    rwa [Nat.cast_mul, cast_twoTo_toNat hexp, ← div_div]
  · next hexp =>
    refine roundDiv_eq hden ?_
    rw [Nat.cast_mul, cast_twoTo_toNat (by omega), zpow_neg, mul_div_right_comm]
    exact h

/-! ### The exponent of a quotient -/

theorem two_zpow_le_iff {m n : Int} : (2 : ℚ) ^ m ≤ 2 ^ n ↔ m ≤ n :=
  zpow_le_zpow_iff_right₀ (by norm_num)

theorem two_zpow_lt_iff {m n : Int} : (2 : ℚ) ^ m < 2 ^ n ↔ m < n :=
  zpow_lt_zpow_iff_right₀ (by norm_num)

theorem log2_spec {n : Nat} (hn : 0 < n) :
    (2 : ℚ) ^ (n.log2 : Int) ≤ n ∧ (n : ℚ) < 2 ^ ((n.log2 : Int) + 1) := by
  have hlow : 2 ^ n.log2 ≤ n := Nat.log2_self_le hn.ne'
  have hhigh : n < 2 ^ (n.log2 + 1) := Nat.lt_log2_self
  constructor
  · rw [zpow_natCast]
    exact_mod_cast hlow
  · rw [← Nat.cast_succ, zpow_natCast]
    exact_mod_cast hhigh

theorem floorLog2_spec {num den : Nat} (hnum : 0 < num) (hden : 0 < den) :
    (2 : ℚ) ^ floorLog2 num den ≤ num / den ∧
      (num / den : ℚ) < 2 ^ (floorLog2 num den + 1) := by
  have hden' : (0 : ℚ) < den := by exact_mod_cast hden
  obtain ⟨hnumLow, hnumHigh⟩ := log2_spec hnum
  obtain ⟨hdenLow, hdenHigh⟩ := log2_spec hden
  -- The guess is right, or too large by one.
  set guess : Int := (num.log2 : Int) - den.log2 with hguess
  have hlow : (2 : ℚ) ^ (guess - 1) ≤ num / den := by
    rw [le_div_iff₀ hden']
    calc (2 : ℚ) ^ (guess - 1) * den
        ≤ 2 ^ (guess - 1) * 2 ^ ((den.log2 : Int) + 1) := by gcongr
      _ = 2 ^ (num.log2 : Int) := by
        rw [← zpow_add₀ (by norm_num), hguess]
        congr 1
        ring
      _ ≤ num := hnumLow
  have hhigh : (num / den : ℚ) < 2 ^ (guess + 1) := by
    rw [div_lt_iff₀ hden']
    calc (num : ℚ) < 2 ^ ((num.log2 : Int) + 1) := hnumHigh
      _ = 2 ^ (guess + 1) * 2 ^ (den.log2 : Int) := by
        rw [← zpow_add₀ (by norm_num), hguess]
        congr 1
        ring
      _ ≤ 2 ^ (guess + 1) * den := by gcongr
  have hreached : (if 0 ≤ guess then den * twoTo guess.toNat ≤ num
      else den ≤ num * twoTo (-guess).toNat) ↔ (2 : ℚ) ^ guess ≤ num / den := by
    rw [le_div_iff₀ hden']
    split
    · next hpos =>
      rw [← cast_twoTo_toNat hpos, mul_comm]
      exact_mod_cast Iff.rfl
    · next hneg =>
      have hcast : ((twoTo (-guess).toNat : Nat) : ℚ) = (2 ^ guess)⁻¹ := by
        rw [cast_twoTo_toNat (by omega), zpow_neg]
      have hpow : (0 : ℚ) < 2 ^ guess := by positivity
      rw [← Nat.cast_le (α := ℚ), Nat.cast_mul, hcast, ← div_eq_mul_inv, le_div_iff₀ hpow, mul_comm]
  unfold floorLog2
  simp only [← hguess, hreached]
  split
  · next h => exact ⟨h, hhigh⟩
  · next h =>
    rw [sub_add_cancel]
    exact ⟨hlow, lt_of_not_ge h⟩

/-! ### Putting a double together -/

/-- A double is put together from its significand and exponent. -/
theorem assemble_eq (negative : Bool) (field : Fin 2047) (fraction : Fin leadingBit) :
    assemble negative (significandOf field fraction) (exponentOf field) =
      .finite negative field fraction := by
  have hfraction := fraction.isLt
  have hfield := field.isLt
  by_cases hzero : field.val = 0
  · simp only [significandOf, if_pos hzero, assemble, if_pos hfraction]
    congr 1
    · exact Fin.ext hzero.symm
    · exact Fin.ext (Nat.mod_eq_of_lt hfraction)
  · have hlead : ¬ leadingBit + fraction.val < leadingBit := by omega
    have hfit : leadingBit + fraction.val < 2 * leadingBit := by omega
    have hback : ((field.val : Int) - 1075 + 1075).toNat = field.val := by omega
    have hrest : (leadingBit + fraction.val) % leadingBit = fraction.val := by
      rw [Nat.add_mod_left, Nat.mod_eq_of_lt hfraction]
    have hs : significandOf field fraction = leadingBit + fraction.val := if_neg hzero
    have he : exponentOf field = (field.val : Int) - 1075 := if_neg hzero
    rw [hs, he]
    simp only [assemble, if_neg hlead, if_pos hfit, hback, dif_pos hfield, hrest]

/-- A significand that has been rounded up to one more bit belongs to the next exponent. -/
theorem assemble_carry (negative : Bool) (exponent : Int) :
    assemble negative (2 * leadingBit) (exponent - 1) =
      assemble negative leadingBit exponent := by
  unfold assemble
  simp only [show ¬ 2 * leadingBit < leadingBit by decide, show ¬ leadingBit < leadingBit by decide,
    show ¬ 2 * leadingBit < 2 * leadingBit by decide, show leadingBit < 2 * leadingBit by decide,
    if_true, if_false, show 2 * leadingBit / 2 = leadingBit by decide, sub_add_cancel]

theorem eq_zero_of_significandOf (negative : Bool) {field : Fin 2047} {fraction : Fin leadingBit}
    (h : significandOf field fraction = 0) : .finite negative field fraction = zero negative := by
  unfold significandOf at h
  split at h
  · next hfield => rw [zero, show field = ⟨0, _⟩ from Fin.ext hfield,
      show fraction = ⟨0, _⟩ from Fin.ext h]
  · omega

theorem significandOf_lt (field : Fin 2047) (fraction : Fin leadingBit) :
    significandOf field fraction < 2 * leadingBit := by
  have := fraction.isLt
  unfold significandOf
  split <;> omega

theorem exponentOf_ge (field : Fin 2047) : -1074 ≤ exponentOf field := by
  unfold exponentOf
  split <;> omega

theorem exponentOf_le (field : Fin 2047) : exponentOf field ≤ 971 := by
  have := field.isLt
  unfold exponentOf
  split <;> omega

/-- Above the least exponent the leading bit is there. -/
theorem leadingBit_le_significandOf (field : Fin 2047) (fraction : Fin leadingBit)
    (h : -1074 < exponentOf field) : leadingBit ≤ significandOf field fraction := by
  unfold exponentOf at h
  unfold significandOf
  split at h
  · omega
  · next hfield =>
    rw [if_neg hfield]
    omega

end Binary64

/-! ### Intervals -/

namespace Shortest

open Binary64

/-- The number that is the unit of an interval. -/
def Interval.unit (i : Interval) : ℚ := i.num / i.den

/-- A number lies in an interval. -/
def Interval.Contains (i : Interval) (q : ℚ) : Prop :=
  i.low * i.unit < q ∧ q < i.high * i.unit ∨
    i.closed = true ∧ i.low * i.unit ≤ q ∧ q ≤ i.high * i.unit

theorem Interval.Contains.bounds {i : Interval} {q : ℚ} (h : i.Contains q) :
    i.low * i.unit ≤ q ∧ q ≤ i.high * i.unit := by
  rcases h with ⟨hlow, hhigh⟩ | ⟨-, hlow, hhigh⟩
  · exact ⟨hlow.le, hhigh.le⟩
  · exact ⟨hlow, hhigh⟩

theorem unit_around (significand : Nat) (exponent : Int) :
    (Interval.around significand exponent).unit = 2 ^ (exponent - 2) := by
  unfold Interval.unit Interval.around
  dsimp only
  split
  · next h => rw [cast_twoTo_toNat (by omega), Nat.cast_one, div_one]
  · next h =>
    rw [cast_twoTo_toNat (by omega), Nat.cast_one, one_div, ← zpow_neg]
    congr 1
    omega

theorem unit_around_pos (significand : Nat) (exponent : Int) :
    0 < (Interval.around significand exponent).unit := by
  rw [unit_around]
  positivity

/-- Four units are the weight of a significand's last bit. -/
theorem four_unit_around (significand : Nat) (exponent : Int) :
    4 * (Interval.around significand exponent).unit = 2 ^ exponent := by
  rw [unit_around, zpow_sub₀ (by norm_num)]
  ring

variable {significand : Nat} {exponent : Int}

/-- The lower end is at most half a bit below. -/
theorem low_around_ge (significand : Nat) (exponent : Int) :
    4 * (significand : ℚ) - 2 ≤ (Interval.around significand exponent).low := by
  have hlow : 4 * significand ≤ (Interval.around significand exponent).low + 2 := by
    unfold Interval.around
    dsimp only
    split <;> omega
  have hlow' : 4 * (significand : ℚ) ≤ (Interval.around significand exponent).low + 2 := by
    exact_mod_cast hlow
  linarith

theorem high_around (significand : Nat) (exponent : Int) :
    ((Interval.around significand exponent).high : ℚ) = 4 * significand + 2 := by
  unfold Interval.around
  push_cast
  ring

/-- Numbers in an interval are at most half a bit away from its double. -/
theorem Interval.Contains.around_bounds {q : ℚ}
    (h : (Interval.around significand exponent).Contains q) :
    (4 * (significand : ℚ) - 2) * (Interval.around significand exponent).unit ≤ q ∧
      q ≤ (4 * significand + 2) * (Interval.around significand exponent).unit := by
  obtain ⟨hless, hmore⟩ := h.bounds
  rw [high_around] at hmore
  have hend := mul_le_mul_of_nonneg_right (low_around_ge significand exponent)
    (unit_around_pos significand exponent).le
  exact ⟨hend.trans hless, hmore⟩

/-- Numbers in an interval are read as its significand, with its exponent. -/
theorem Interval.Contains.nearest {q : ℚ} (h : (Interval.around significand exponent).Contains q) :
    Nearest (q / 2 ^ exponent) significand := by
  have hlow := low_around_ge significand exponent
  have hunit := four_unit_around significand exponent
  have hpos := unit_around_pos significand exponent
  rw [Contains, high_around] at h
  rw [Nearest, ← hunit]
  generalize (Interval.around significand exponent).unit = u at *
  have hend : (4 * (significand : ℚ) - 2) * u ≤ (Interval.around significand exponent).low * u := by
    gcongr
  rcases h with ⟨hless, hmore⟩ | ⟨hclosed, hless, hmore⟩
  · refine .inl (abs_lt.2 ⟨?_, ?_⟩)
    · rw [lt_sub_iff_add_lt, lt_div_iff₀ (by linarith)]
      linarith
    · rw [sub_lt_iff_lt_add, div_lt_iff₀ (by linarith)]
      linarith
  · refine .inr ⟨abs_le.2 ⟨?_, ?_⟩, by simpa [Interval.around] using hclosed⟩
    · rw [le_sub_iff_add_le, le_div_iff₀ (by linarith)]
      linarith
    · rw [sub_le_iff_le_add, div_le_iff₀ (by linarith)]
      linarith

/-- Below a power of two the next exponent is the smaller one; numbers in the interval of the power
are rounded up to it there. -/
theorem Interval.Contains.nearest_carry {q : ℚ} (hexp : -1074 < exponent)
    (h : (Interval.around leadingBit exponent).Contains q) (hq : q < leadingBit * 2 ^ exponent) :
    Nearest (q / 2 ^ (exponent - 1)) (2 * leadingBit) := by
  have hlow : (Interval.around leadingBit exponent).low = 4 * leadingBit - 1 := by
    simp [Interval.around, hexp]
  obtain ⟨hless, -⟩ := h.bounds
  have hunit := four_unit_around leadingBit exponent
  have hhalf : (2 : ℚ) ^ (exponent - 1) = 2 * (Interval.around leadingBit exponent).unit := by
    rw [zpow_sub₀ (by norm_num), ← hunit]
    ring
  have hpos := unit_around_pos leadingBit exponent
  rw [hlow] at hless
  rw [← hunit] at hq
  rw [hhalf]
  generalize (Interval.around leadingBit exponent).unit = u at *
  norm_num [leadingBit] at hless hq
  refine .inr ⟨abs_le.2 ⟨?_, ?_⟩, by decide⟩
  · rw [le_sub_iff_add_le, le_div_iff₀ (by linarith)]
    norm_num [leadingBit]
    linarith
  · rw [sub_le_iff_le_add, div_le_iff₀ (by linarith)]
    norm_num [leadingBit]
    linarith

end Shortest

namespace Binary64

open Shortest

/-- A number in the interval of a double is read with the exponent of the double, or with the next
one below if it lies below a power of two. -/
theorem exponent_cases {field : Fin 2047} {fraction : Fin leadingBit}
    (hpos : 0 < significandOf field fraction) {num den : Nat} (hnum : 0 < num) (hden : 0 < den)
    (h : (Interval.around (significandOf field fraction) (exponentOf field)).Contains (num / den)) :
    max (floorLog2 num den - 52) (-1074) = exponentOf field ∨
      significandOf field fraction = leadingBit ∧ -1074 < exponentOf field ∧
        (num / den : ℚ) < leadingBit * 2 ^ exponentOf field ∧
        max (floorLog2 num den - 52) (-1074) = exponentOf field - 1 := by
  have hsmall := significandOf_lt field fraction
  have hmin := exponentOf_ge field
  have hnormal := leadingBit_le_significandOf field fraction
  generalize significandOf field fraction = s at *
  generalize exponentOf field = e at *
  obtain ⟨hless, hmore⟩ := h.around_bounds
  have hunit := four_unit_around s e
  have hunitPos := unit_around_pos s e
  have hs : (1 : ℚ) ≤ s := by exact_mod_cast hpos
  obtain ⟨hlog, hlog'⟩ := floorLog2_spec hnum hden
  generalize floorLog2 num den = l at *
  have hle : l ≤ e + 52 := by
    have hupper : (num / den : ℚ) < 2 ^ (e + 53) := by
      have hs' : (s : ℚ) + 1 ≤ 2 * leadingBit := by exact_mod_cast hsmall
      norm_num [leadingBit] at hs'
      rw [zpow_add₀ (by norm_num), ← hunit]
      norm_num
      nlinarith
    have := two_zpow_lt_iff.1 (hlog.trans_lt hupper)
    omega
  by_cases hexp : max (l - 52) (-1074) = e
  · exact .inl hexp
  · have hbelow : l < e + 52 := by omega
    have hmin' : -1074 < e := by omega
    have hupper : (num / den : ℚ) < leadingBit * 2 ^ e := by
      have hstep : (2 : ℚ) ^ (l + 1) ≤ 2 ^ (e + 52) := two_zpow_le_iff.2 (by omega)
      have hsplit : (2 : ℚ) ^ (e + 52) = leadingBit * 2 ^ e := by
        rw [zpow_add₀ (by norm_num), mul_comm]
        norm_num [leadingBit]
      rw [← hsplit]
      exact hlog'.trans_le hstep
    have hpower : s = leadingBit := by
      refine Nat.le_antisymm (Nat.le_of_not_lt fun hgt => ?_) (hnormal hmin')
      have hgt' : (leadingBit : ℚ) + 1 ≤ s := by exact_mod_cast hgt
      have hunits := mul_le_mul_of_nonneg_right hgt' hunitPos.le
      rw [← hunit] at hupper
      norm_num [leadingBit] at hunits hupper
      linarith
    subst hpower
    have hlower : (2 : ℚ) ^ (e + 51) ≤ num / den := by
      rw [zpow_add₀ (by norm_num), ← hunit]
      norm_num [leadingBit] at hless ⊢
      nlinarith
    have hge := two_zpow_lt_iff.1 (hlower.trans_lt hlog')
    exact .inr ⟨rfl, hmin', hupper, by omega⟩

/-- All numbers in the interval of a double are read as that double. -/
theorem ofRational_of_contains (negative : Bool) {field : Fin 2047} {fraction : Fin leadingBit}
    (hpos : 0 < significandOf field fraction) {num den : Nat} (hden : 0 < den)
    (h : (Interval.around (significandOf field fraction) (exponentOf field)).Contains (num / den)) :
    ofRational negative num den = .finite negative field fraction := by
  have hnum : 0 < num := by
    refine Nat.pos_of_ne_zero fun hzero => ?_
    have hless := h.around_bounds.1
    have hunit := unit_around_pos (significandOf field fraction) (exponentOf field)
    have hs : (1 : ℚ) ≤ significandOf field fraction := by exact_mod_cast hpos
    rw [hzero, Nat.cast_zero, zero_div] at hless
    nlinarith
  have hassemble := assemble_eq negative field fraction
  unfold ofRational
  dsimp only
  rw [if_neg hnum.ne']
  rcases exponent_cases hpos hnum hden h with hexp | ⟨hpower, hmin, hupper, hexp⟩
  · rw [hexp, roundDiv_scaled hden h.nearest]
    exact hassemble
  · rw [hpower] at h hassemble
    rw [hexp, roundDiv_scaled hden (h.nearest_carry hmin hupper), assemble_carry]
    exact hassemble

end Binary64

end DocTable
