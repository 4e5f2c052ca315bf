import DocTable.Proofs.Number.Rounding
import Mathlib.Data.Nat.Cast.Order.Field
/-!
# DocTable.Proofs.Number.Shortest

The shortest decimal of a double lies in the double's interval.

The search stops at the first grid with a hit; `nearest?_isSome` gives one on every grid that is
finer than the unit of the interval, and the last grid that is searched is so fine
(`lastGrid_le_unit`). With `ofRational_of_contains` all decimals of that value are read as the
double, in whatever way digits and power of ten are cut (`ofDecimal_of_contains`).
-/

namespace DocTable

/-! ### Digits of whole numbers -/

namespace Decimal

theorem value_append (ds es : Text) : value (ds ++ es) = value ds * 10 ^ es.length + value es := by
  induction es using List.reverseRecOn with
  | nil => simp [value]
  | append_singleton es c ih =>
    rw [← List.append_assoc, value_append_singleton, value_append_singleton, ih,
      List.length_append, List.length_singleton]
    ring

theorem value_zeros (n : Nat) : value (List.replicate n '0') = 0 := by
  induction n with
  | zero => rfl
  | succ n ih => rw [List.replicate_succ', value_append_singleton, ih]; rfl

theorem lt_pow_length (n : Nat) : n < 10 ^ (ofNat n).length := by
  induction n using Nat.strongRecOn with
  | _ n ih =>
    rw [ofNat]
    split
    · next h => exact h
    · next h =>
      have := ih (n / 10) (by omega)
      rw [List.length_append, List.length_singleton, pow_succ]
      omega

theorem pow_length_le {n : Nat} (hn : 0 < n) : 10 ^ ((ofNat n).length - 1) ≤ n := by
  induction n using Nat.strongRecOn with
  | _ n ih =>
    rw [ofNat]
    split
    · next h => exact hn
    · next h =>
      have hrest := ih (n / 10) (by omega) (by omega)
      have hlen : 0 < (ofNat (n / 10)).length := List.length_pos_iff.2 (ofNat_ne_nil _)
      obtain ⟨k, hk⟩ : ∃ k, (ofNat (n / 10)).length = k + 1 :=
        ⟨(ofNat (n / 10)).length - 1, by omega⟩
      rw [hk, Nat.add_sub_cancel] at hrest
      rw [List.length_append, List.length_singleton, hk, Nat.add_sub_cancel, pow_succ]
      omega

theorem length_ofNat_le_iff {n k : Nat} (hk : 0 < k) : (ofNat n).length ≤ k ↔ n < 10 ^ k := by
  constructor
  · intro h
    exact (lt_pow_length n).trans_le (Nat.pow_le_pow_right (by decide) h)
  · intro h
    by_contra hlong
    have hn : 0 < n := by
      by_contra hzero
      obtain rfl : n = 0 := by omega
      have hlength : (ofNat 0).length = 1 := by simp [ofNat]
      exact hlong (hlength.trans_le hk)
    have hle : 10 ^ k ≤ 10 ^ ((ofNat n).length - 1) :=
      Nat.pow_le_pow_right (by decide) (by omega)
    exact absurd (hle.trans (pow_length_le hn)) (Nat.not_le.2 h)

/-- A whole number may be written as long as it does not have too many digits. -/
theorem isShowable_iff {n : Int} :
    isShowable n = true ↔ (ofNat n.natAbs).length ≤ maxDigits := by
  rw [isShowable, fits_iff, tenTo, Nat.pow_eq, length_ofNat_le_iff (by decide)]

theorem tenTo_pos (n : Nat) : 0 < tenTo n :=
  Nat.pow_pos (by decide)

theorem cast_tenTo_toNat {k : Int} (hk : 0 ≤ k) : ((tenTo k.toNat : Nat) : ℚ) = 10 ^ k := by
  have hcast : ((tenTo k.toNat : Nat) : ℚ) = 10 ^ k.toNat := by
    rw [tenTo, Nat.pow_eq]
    push_cast
    rfl
  rw [hcast, ← zpow_natCast, Int.toNat_of_nonneg hk]

/-- The first digit of a whole number decides its power of ten. -/
theorem ofNat_bounds {n : Nat} (hn : 0 < n) :
    (10 : ℚ) ^ (((ofNat n).length : Int) - 1) ≤ n ∧ (n : ℚ) < 10 ^ ((ofNat n).length : Int) := by
  have hlen : 0 < (ofNat n).length := List.length_pos_iff.2 (ofNat_ne_nil n)
  constructor
  · have hcast : ((ofNat n).length : Int) - 1 = (((ofNat n).length - 1 : Nat) : Int) := by omega
    rw [hcast, zpow_natCast]
    exact_mod_cast pow_length_le hn
  · rw [zpow_natCast]
    exact_mod_cast lt_pow_length n

end Decimal

namespace Shortest

open Binary64 Decimal

/-! ### Grids -/

theorem gridUnit_eq (grid : Int) :
    0 < (gridUnit grid).1 ∧ 0 < (gridUnit grid).2 ∧
      ((gridUnit grid).1 / (gridUnit grid).2 : ℚ) = 10 ^ grid := by
  unfold gridUnit
  split
  · next h =>
    refine ⟨tenTo_pos _, Nat.one_pos, ?_⟩
    rw [cast_tenTo_toNat h, Nat.cast_one, div_one]
  · next h =>
    refine ⟨Nat.one_pos, tenTo_pos _, ?_⟩
    rw [cast_tenTo_toNat (by omega), zpow_neg, Nat.cast_one, one_div, inv_inv]

theorem holds_iff {i : Interval} (hden : 0 < i.den) (grid : Int) (digits : Nat) :
    i.holds (gridUnit grid) digits = true ↔ i.Contains (digits * 10 ^ grid) := by
  obtain ⟨-, hpos, hgrid⟩ := gridUnit_eq grid
  have hden' : (0 : ℚ) < i.den := by exact_mod_cast hden
  have hpos' : (0 : ℚ) < (gridUnit grid).2 := by exact_mod_cast hpos
  rw [Interval.Contains, ← hgrid, Interval.unit, Interval.holds]
  generalize gridUnit grid = unit at *
  -- Both sides compare the same products, with and without quotients.
  have hle : ∀ a, ((a : Nat) : ℚ) * (i.num / i.den) ≤ digits * (unit.1 / unit.2) ↔
      a * i.num * unit.2 ≤ digits * unit.1 * i.den := by
    intro a
    rw [← mul_div_assoc, ← mul_div_assoc, div_le_div_iff₀ hden' hpos']
    exact_mod_cast Iff.rfl
  have hge : ∀ a, (digits : ℚ) * (unit.1 / unit.2) ≤ ((a : Nat) : ℚ) * (i.num / i.den) ↔
      digits * unit.1 * i.den ≤ a * i.num * unit.2 := by
    intro a
    rw [← mul_div_assoc, ← mul_div_assoc, div_le_div_iff₀ hpos' hden']
    exact_mod_cast Iff.rfl
  simp only [← not_le, hle, hge]
  cases i.closed with
  | true =>
    simp only [if_true, Bool.and_eq_true, decide_eq_true_eq, true_and]
    omega
  | false =>
    simp [not_le]

/-! ### The search -/

theorem nearest?_holds {i : Interval} {grid : Int} {digits : Nat}
    (h : i.nearest? grid = some digits) : i.holds (gridUnit grid) digits = true := by
  unfold Interval.nearest? at h
  dsimp only at h
  split at h
  · next hbelow habove =>
    obtain rfl := Option.some.inj h
    split
    · exact hbelow
    · exact habove
  · next hbelow _ =>
    obtain rfl := Option.some.inj h
    exact hbelow
  · next _ habove =>
    obtain rfl := Option.some.inj h
    exact habove
  · cases h

/-- The whole part of a quotient. -/
theorem cast_div_bounds (num : Nat) {den : Nat} (hden : 0 < den) :
    ((num / den : Nat) : ℚ) ≤ num / den ∧ (num / den : ℚ) < (num / den : Nat) + 1 := by
  have hden' : (0 : ℚ) < den := by exact_mod_cast hden
  refine ⟨Nat.cast_div_le, ?_⟩
  have hnext : num < (num / den + 1) * den := by
    rw [Nat.mul_comm]
    exact Nat.lt_mul_div_succ num hden
  rw [div_lt_iff₀ hden']
  exact_mod_cast hnext

/-- The neighbour below of a double on a grid, and the one above. -/
theorem below_bounds {i : Interval} (hden : 0 < i.den) (grid : Int) :
    let unit := gridUnit grid
    let below := i.mid * i.num * unit.2 / (i.den * unit.1)
    (below : ℚ) * 10 ^ grid ≤ i.mid * i.unit ∧ i.mid * i.unit < (below + 1) * 10 ^ grid := by
  dsimp only
  obtain ⟨hgrid, hgrid', hpow⟩ := gridUnit_eq grid
  generalize gridUnit grid = unit at *
  obtain ⟨hless, hmore⟩ := cast_div_bounds (i.mid * i.num * unit.2) (Nat.mul_pos hden hgrid)
  have hmid : (i.mid : ℚ) * i.unit =
      ((i.mid * i.num * unit.2 : Nat) : ℚ) / ((i.den * unit.1 : Nat) : ℚ) * 10 ^ grid := by
    have hunit : (unit.1 : ℚ) ≠ 0 := by exact_mod_cast hgrid.ne'
    have hunit' : (unit.2 : ℚ) ≠ 0 := by exact_mod_cast hgrid'.ne'
    have hden' : (i.den : ℚ) ≠ 0 := by exact_mod_cast hden.ne'
    rw [← hpow, Interval.unit]
    push_cast
    field_simp
  have hten : (0 : ℚ) < 10 ^ grid := by positivity
  rw [hmid]
  exact ⟨mul_le_mul_of_nonneg_right hless hten.le, mul_lt_mul_of_pos_right hmore hten⟩

/-- On a grid that is finer than the unit, the neighbour below lies in the interval. -/
theorem nearest?_isSome {i : Interval} (hnum : 0 < i.num) (hden : 0 < i.den) (hlow : i.low < i.mid)
    (hhigh : i.mid < i.high) {grid : Int} (hfine : (10 : ℚ) ^ grid ≤ i.unit) :
    (i.nearest? grid).isSome = true := by
  have hunit : 0 < i.unit := by
    rw [Interval.unit]
    exact div_pos (by exact_mod_cast hnum) (by exact_mod_cast hden)
  have hlow' : (i.low : ℚ) + 1 ≤ i.mid := by exact_mod_cast hlow
  have hhigh' : (i.mid : ℚ) < i.high := by exact_mod_cast hhigh
  obtain ⟨hless, hmore⟩ := below_bounds hden grid
  unfold Interval.nearest?
  dsimp only at hless hmore ⊢
  generalize i.mid * i.num * (gridUnit grid).2 / (i.den * (gridUnit grid).1) = below at *
  have hbelow : i.holds (gridUnit grid) below = true := by
    refine (holds_iff hden grid below).2 (.inl ⟨?_, ?_⟩)
    · have hunits := mul_le_mul_of_nonneg_right hlow' hunit.le
      linarith
    · have hunits := mul_lt_mul_of_pos_right hhigh' hunit
      linarith
  rw [hbelow]
  cases i.holds (gridUnit grid) (below + 1) with
  | true => rfl
  | false => rfl

/-- A search that reaches a grid with a hit ends in the interval. -/
theorem search_contains {i : Interval} (hden : 0 < i.den) {top : Int} {last : Nat}
    (hlast : (i.nearest? (top - last + 1)).isSome = true) {fuel count : Nat} (hcount : count ≤ last)
    (hfuel : last < count + fuel) :
    i.Contains ((search i top fuel count).1 * 10 ^ (search i top fuel count).2) := by
  induction fuel generalizing count with
  | zero => omega
  | succ fuel ih =>
    rw [search]
    split
    · next digits hhit => exact (holds_iff hden _ _).1 (nearest?_holds hhit)
    · next hmiss =>
      refine ih ?_ (by omega)
      refine Nat.lt_of_le_of_ne hcount fun heq => ?_
      rw [← heq, hmiss] at hlast
      cases hlast

theorem topDigit_le {num den : Nat} (hnum : 0 < num) (hden : 0 < den) :
    (10 : ℚ) ^ (topDigit num den - 1) ≤ num / den := by
  have hnum' : (0 : ℚ) < num := by exact_mod_cast hnum
  have hden' : (0 : ℚ) < den := by exact_mod_cast hden
  unfold topDigit
  dsimp only
  split
  · next hwhole =>
    calc (10 : ℚ) ^ (((ofNat (num / den)).length : Int) - 1 - 1)
        ≤ 10 ^ (((ofNat (num / den)).length : Int) - 1) :=
          zpow_le_zpow_right₀ (by norm_num) (by omega)
      _ ≤ (num / den : Nat) := (ofNat_bounds (Nat.pos_of_ne_zero hwhole)).1
      _ ≤ num / den := (cast_div_bounds num hden).1
  · next hwhole =>
    have hless : num < den := by
      by_contra hge
      exact hwhole (Nat.div_pos (Nat.le_of_not_lt hge) hden).ne'
    have hinverse : (den : ℚ) / num < 10 ^ ((ofNat (den / num)).length : Int) := by
      have hdigits : ((den / num : Nat) : ℚ) + 1 ≤ 10 ^ (ofNat (den / num)).length := by
        exact_mod_cast lt_pow_length (den / num)
      rw [zpow_natCast]
      exact (cast_div_bounds den hnum).2.trans_le hdigits
    have hpos : (0 : ℚ) < 10 ^ ((ofNat (den / num)).length : Int) := by positivity
    rw [add_sub_cancel_right, zpow_neg, ← inv_div]
    exact inv_anti₀ (div_pos hden' hnum') hinverse.le

variable {significand : Nat} {exponent : Int}

theorem num_around_pos (significand : Nat) (exponent : Int) :
    0 < (Interval.around significand exponent).num := by
  unfold Interval.around
  dsimp only
  split
  · exact twoTo_pos _
  · exact Nat.one_pos

theorem den_around_pos (significand : Nat) (exponent : Int) :
    0 < (Interval.around significand exponent).den := by
  unfold Interval.around
  dsimp only
  split
  · exact Nat.one_pos
  · exact twoTo_pos _

/-- The twentieth digit of a double weighs less than a quarter of the last bit. -/
theorem lastGrid_le_unit (hpos : 0 < significand) (hsmall : significand < 2 * leadingBit) :
    let i := Interval.around significand exponent
    (10 : ℚ) ^ (topDigit (i.mid * i.num) i.den - (20 : Nat) + 1) ≤ i.unit := by
  intro i
  have hnum := num_around_pos significand exponent
  have hden := den_around_pos significand exponent
  have hmid : i.mid = 4 * significand := rfl
  have hunit : 0 < i.unit := unit_around_pos significand exponent
  have hsmall' : (significand : ℚ) < 2 * leadingBit := by exact_mod_cast hsmall
  have hvaluePos : 0 < i.mid * i.num := Nat.mul_pos (by omega) hnum
  have htop := topDigit_le hvaluePos hden
  have hvalue : ((i.mid * i.num : Nat) : ℚ) / i.den = 4 * significand * i.unit := by
    rw [Interval.unit, hmid]
    push_cast
    ring
  generalize topDigit (i.mid * i.num) i.den = top at *
  have hshift : (10 : ℚ) ^ (top - (20 : Nat) + 1) * 10 ^ (18 : Int) = 10 ^ (top - 1) := by
    rw [← zpow_add₀ (by norm_num)]
    congr 1
    push_cast
    ring
  rw [hvalue, ← hshift] at htop
  have hbits := mul_lt_mul_of_pos_right hsmall' hunit
  norm_num [leadingBit] at hbits htop ⊢
  linarith

/-- Dropping zeros keeps the number. -/
theorem dropZeros_eq (fuel : Nat) (digits : Nat) (grid : Int) :
    ((dropZeros fuel (digits, grid)).1 : ℚ) * 10 ^ (dropZeros fuel (digits, grid)).2 =
      digits * 10 ^ grid := by
  induction fuel generalizing digits grid with
  | zero => rfl
  | succ fuel ih =>
    rw [dropZeros]
    split
    · next h =>
      have hzero : digits % 10 = 0 := by simp_all
      have hsplit : (digits : ℚ) = (digits / 10 : Nat) * 10 := by
        exact_mod_cast (Nat.div_mul_cancel (Nat.dvd_of_mod_eq_zero hzero)).symm
      rw [ih, zpow_add_one₀ (by norm_num), hsplit]
      ring
    · rfl

/-- The shortest decimal of a double lies in the interval of the double. -/
theorem shortest_contains (exponent : Int) (hpos : 0 < significand)
    (hsmall : significand < 2 * leadingBit) :
    (Interval.around significand exponent).Contains
      ((shortest significand exponent).1 * 10 ^ (shortest significand exponent).2) := by
  have hden := den_around_pos significand exponent
  have hlow : (Interval.around significand exponent).low < 4 * significand := by
    unfold Interval.around
    dsimp only
    split <;> omega
  have hhit := nearest?_isSome (num_around_pos significand exponent) hden hlow
    (Nat.lt_add_of_pos_right (by decide)) (lastGrid_le_unit hpos hsmall)
  unfold shortest
  dsimp only
  rw [dropZeros_eq]
  exact search_contains hden hhit (by decide) (by decide)

end Shortest

namespace Binary64

open Shortest Decimal

/-- The range of doubles, with what rounds to them. -/
theorem range_of_contains {field : Fin 2047} {fraction : Fin leadingBit} {q : ℚ}
    (hpos : 0 < significandOf field fraction)
    (h : (Interval.around (significandOf field fraction) (exponentOf field)).Contains q) :
    (2 : ℚ) ^ (-1075 : Int) ≤ q ∧ q < 2 ^ (1024 : Int) := by
  have hs : (1 : ℚ) ≤ significandOf field fraction := by exact_mod_cast hpos
  have hs' : (significandOf field fraction : ℚ) + 1 ≤ 2 * leadingBit := by
    exact_mod_cast significandOf_lt field fraction
  obtain ⟨hless, hmore⟩ := h.around_bounds
  have hunitLow : (2 : ℚ) ^ (-1076 : Int) ≤
      (Interval.around (significandOf field fraction) (exponentOf field)).unit := by
    rw [unit_around]
    exact two_zpow_le_iff.2 (by have := exponentOf_ge field; omega)
  have hunitHigh : (Interval.around (significandOf field fraction) (exponentOf field)).unit ≤
      (2 : ℚ) ^ (969 : Int) := by
    rw [unit_around]
    exact two_zpow_le_iff.2 (by have := exponentOf_le field; omega)
  have hunit : (0 : ℚ) < 2 ^ (-1076 : Int) := by positivity
  constructor
  · calc (2 : ℚ) ^ (-1075 : Int) = 2 * 2 ^ (-1076 : Int) := by
          rw [← zpow_one_add₀ (by norm_num)]
          norm_num
      _ ≤ _ := mul_le_mul (by linarith) hunitLow hunit.le (by linarith)
      _ ≤ q := hless
  · calc q ≤ _ := hmore
      _ < 2 ^ (55 : Int) * 2 ^ (969 : Int) := by
        refine mul_lt_mul ?_ hunitHigh (hunit.trans_le hunitLow) (by positivity)
        norm_num [leadingBit] at hs' ⊢
        linarith
      _ = 2 ^ (1024 : Int) := by
        rw [← zpow_add₀ (by norm_num)]
        norm_num

theorem digits_pos_of_contains {field : Fin 2047} {fraction : Fin leadingBit} {digits : Nat}
    {exponent : Int} (hpos : 0 < significandOf field fraction)
    (h : (Interval.around (significandOf field fraction) (exponentOf field)).Contains
      (digits * 10 ^ exponent)) : 0 < digits := by
  refine Nat.pos_of_ne_zero fun hzero => ?_
  have hmin := (range_of_contains hpos h).1
  rw [hzero, Nat.cast_zero, zero_mul] at hmin
  exact absurd hmin (not_le.2 (by positivity))

/-- A decimal in the interval of a double is read as that double. -/
theorem ofDecimal_of_contains (negative : Bool) {field : Fin 2047} {fraction : Fin leadingBit}
    (hpos : 0 < significandOf field fraction) {digits : Nat} {exponent : Int}
    (h : (Interval.around (significandOf field fraction) (exponentOf field)).Contains
      (digits * 10 ^ exponent)) :
    ofDecimal negative digits exponent = .finite negative field fraction := by
  obtain ⟨hmin, hmax⟩ := range_of_contains hpos h
  have hdigits := digits_pos_of_contains hpos h
  obtain ⟨hlen, hlen'⟩ := ofNat_bounds hdigits
  have hten : (0 : ℚ) < 10 ^ exponent := by positivity
  -- No double is so large or so small that its power of ten is refused.
  have hhigh : ((ofNat digits).length : Int) + exponent ≤ 310 := by
    have hpow : (10 : ℚ) ^ (((ofNat digits).length : Int) - 1 + exponent) < 10 ^ (309 : Int) := by
      calc (10 : ℚ) ^ (((ofNat digits).length : Int) - 1 + exponent)
          = 10 ^ (((ofNat digits).length : Int) - 1) * 10 ^ exponent := zpow_add₀ (by norm_num) _ _
        _ ≤ digits * 10 ^ exponent := by gcongr
        _ < 2 ^ (1024 : Int) := hmax
        _ ≤ 10 ^ (309 : Int) := by
          have hbits : 2 ^ 1024 ≤ 10 ^ 309 := by decide +kernel
          exact_mod_cast hbits
    have := (zpow_lt_zpow_iff_right₀ (by norm_num)).1 hpow
    omega
  have hlow : -330 ≤ ((ofNat digits).length : Int) + exponent := by
    have hpow : (10 : ℚ) ^ (-330 : Int) < 10 ^ (((ofNat digits).length : Int) + exponent) := by
      calc (10 : ℚ) ^ (-330 : Int) ≤ 2 ^ (-1075 : Int) := by
            have hbits : 2 ^ 1075 ≤ 10 ^ 330 := by decide +kernel
            rw [zpow_neg, zpow_neg]
            exact inv_anti₀ (by positivity) (by exact_mod_cast hbits)
        _ ≤ digits * 10 ^ exponent := hmin
        _ < 10 ^ ((ofNat digits).length : Int) * 10 ^ exponent := by gcongr
        _ = 10 ^ (((ofNat digits).length : Int) + exponent) := (zpow_add₀ (by norm_num) _ _).symm
    exact ((zpow_lt_zpow_iff_right₀ (by norm_num)).1 hpow).le
  unfold ofDecimal
  dsimp only
  rw [if_neg hdigits.ne', if_neg (not_lt.2 hhigh), if_neg (not_lt.2 hlow)]
  split
  · next hexp =>
    refine ofRational_of_contains negative hpos Nat.one_pos ?_
    rwa [Nat.cast_mul, cast_tenTo_toNat hexp, Nat.cast_one, div_one]
  · next hexp =>
    refine ofRational_of_contains negative hpos (tenTo_pos _) ?_
    rwa [cast_tenTo_toNat (by omega), zpow_neg, div_inv_eq_mul]

end Binary64

end DocTable
