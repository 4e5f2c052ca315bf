import DocTable.Proofs.Json.ReadBack
import DocTable.Proofs.Number.Shortest
/-!
# DocTable.Proofs.Json.Floats

All floating-point numbers are read back from their text.

The text of a number shows the digits and the power of ten of its shortest decimal, with a point
among them or with an exponent (`positional_cut`, `readNumber_scientific`). The reader may take
the digits and the power apart elsewhere, but for the same decimal, and that one is read as the
number (`Binary64.ofDecimal_of_contains`).
-/

namespace DocTable.Json

open Text FloatStyle Binary64

/-! ### Fractions and exponents -/

theorem fraction?_digits {ds rest : Text} (hds : ∀ c ∈ ds, isDigit c = true) (hne : ds ≠ [])
    (hrest : NoDigit rest) : fraction? ('.' :: (ds ++ rest)) = some (ds, rest) := by
  obtain ⟨htake, hdrop⟩ := takeWhile_digits hds hrest
  rw [fraction?, htake, hdrop]
  split
  · exact absurd rfl hne
  · rfl

/-- Zeros in front do not change a number. -/
theorem value_padded (k n : Nat) :
    Decimal.value (List.replicate k '0' ++ Decimal.ofNat n) = n := by
  rw [Decimal.value_append, Decimal.value_zeros, Decimal.value_ofNat, Nat.zero_mul, Nat.zero_add]

theorem isDigit_of_mem_zeros {k : Nat} {c : Char} (h : c ∈ List.replicate k '0') :
    isDigit c = true := by
  rw [List.eq_of_mem_replicate h]
  rfl

theorem isDigit_padded {k n : Nat} {c : Char}
    (h : c ∈ List.replicate k '0' ++ Decimal.ofNat n) : isDigit c = true :=
  (List.mem_append.1 h).elim isDigit_of_mem_zeros Decimal.isDigit_of_mem_ofNat

theorem exponent?_written (power : Int) (k : Nat) {rest : Text} (hrest : NoDigit rest) :
    exponent? ('e' :: (if power < 0 then '-' else '+') ::
      (List.replicate k '0' ++ Decimal.ofNat power.natAbs ++ rest)) = some (power, rest) := by
  obtain ⟨htake, hdrop⟩ :=
    takeWhile_digits (fun _ => isDigit_padded (k := k) (n := power.natAbs)) hrest
  have hvalue := value_padded k power.natAbs
  have hne : List.replicate k '0' ++ Decimal.ofNat power.natAbs ≠ [] := by
    simp [Decimal.ofNat_ne_nil]
  generalize List.replicate k '0' ++ Decimal.ofNat power.natAbs = ds at *
  by_cases hneg : power < 0
  · simp [exponent?, hneg, htake, hdrop, hvalue, abs_of_neg hneg]
  · simp [exponent?, hneg, htake, hdrop, hvalue, abs_of_nonneg (not_lt.1 hneg)]

/-! ### The positional form -/

/-- Digits before and behind a point, as a reader takes them apart. -/
structure Pointed (whole frac : Text) : Prop where
  whole_digits : ∀ c ∈ whole, isDigit c = true
  whole_ne_nil : whole ≠ []
  zero : whole.head? = some '0' → whole = ['0']
  frac_digits : ∀ c ∈ frac, isDigit c = true
  frac_ne_nil : frac ≠ []

theorem readNumber_pointed (negative : Bool) {whole frac rest : Text} (h : Pointed whole frac)
    (hrest : Ends rest) :
    readNumber ((if negative then ['-'] else []) ++ (whole ++ '.' :: frac) ++ rest) =
      .ok (.float (ofDecimal negative (Decimal.value (whole ++ frac)) (-frac.length)), rest) := by
  have hpoint : NoDigit ('.' :: (frac ++ rest)) := noDigit_cons.2 rfl
  have hwhole := wholeDigits?_digits h.whole_digits h.whole_ne_nil h.zero hpoint
  have hfrac := fraction?_digits h.frac_digits h.frac_ne_nil hrest.noDigit
  obtain ⟨c, ds, rfl⟩ := List.exists_cons_of_ne_nil h.whole_ne_nil
  have hsign := minus_signed negative (h.whole_digits c List.mem_cons_self)
    (ds ++ '.' :: (frac ++ rest))
  simp only [List.cons_append, List.append_assoc] at hwhole hsign ⊢
  unfold readNumber
  simp [hsign, hwhole, hfrac, exponent?_of_ends hrest]

/-- The positional form shows the decimal of its digits and its point. -/
theorem positional_cut {n : Nat} (hn : 0 < n) (point : Int) : ∃ whole frac,
    positional (Decimal.ofNat n) point = whole ++ '.' :: frac ∧ Pointed whole frac ∧
      (Decimal.value (whole ++ frac) : ℚ) * 10 ^ (-frac.length : Int) =
        n * 10 ^ (point - (Decimal.ofNat n).length) := by
  have hds : ∀ c ∈ Decimal.ofNat n, isDigit c = true := fun _ => Decimal.isDigit_of_mem_ofNat
  have hne := Decimal.ofNat_ne_nil n
  have hzero := Decimal.head_ofNat_ne_zero hn
  have hvalue := Decimal.value_ofNat n
  unfold positional
  split
  · -- All digits are behind the point.
    next hsmall =>
    refine ⟨['0'], List.replicate (-point).toNat '0' ++ Decimal.ofNat n, rfl, ?_, ?_⟩
    · exact ⟨by simp [isDigit], by simp, fun _ => rfl, fun _ => isDigit_padded, by simp [hne]⟩
    · have hfront := value_padded ((-point).toNat + 1) n
      rw [List.replicate_succ, List.cons_append] at hfront
      rw [List.singleton_append, hfront, List.length_append, List.length_replicate]
      congr 2
      omega
  · split
    · -- All digits are before the point, with zeros up to it.
      next hlarge hlong =>
      refine ⟨Decimal.ofNat n ++ List.replicate (point.toNat - (Decimal.ofNat n).length) '0', ['0'],
        by simp, ⟨?_, by simp [hne], ?_, by simp [isDigit], by simp⟩, ?_⟩
      · intro c hc
        exact (List.mem_append.1 hc).elim (hds c) isDigit_of_mem_zeros
      · intro hhead
        rw [List.head?_append_of_ne_nil _ hne] at hhead
        exact absurd hhead hzero
      · have hshift : point - (Decimal.ofNat n).length =
            ((point.toNat - (Decimal.ofNat n).length : Nat) : Int) := by omega
        rw [Decimal.value_append, Decimal.value_append, Decimal.value_zeros, hvalue, hshift,
          List.length_replicate, zpow_natCast]
        simp [Decimal.value]
    · next hlarge hlong =>
      have hcut := List.take_append_drop point.toNat (Decimal.ofNat n)
      refine ⟨_, _, rfl, ⟨?_, ?_, ?_, ?_, ?_⟩, ?_⟩
      · exact fun c hc => hds c (List.mem_of_mem_take hc)
      · simp [List.take_eq_nil_iff, hne]
        omega
      · intro hhead
        rw [List.head?_take, if_neg (by omega)] at hhead
        exact absurd hhead hzero
      · exact fun c hc => hds c (List.mem_of_mem_drop hc)
      · simp [List.drop_eq_nil_iff]
        omega
      · rw [hcut, hvalue, List.length_drop]
        congr 2
        omega

/-! ### The form with an exponent -/

theorem readNumber_scientific (negative : Bool) {n : Nat} (hn : 0 < n) (power : Int) {rest : Text}
    (hrest : Ends rest) :
    readNumber ((if negative then ['-'] else []) ++ scientific (Decimal.ofNat n) power ++ rest) =
      .ok (.float (ofDecimal negative n (power + 1 - (Decimal.ofNat n).length)), rest) := by
  have hvalue := Decimal.value_ofNat n
  have hzero := Decimal.head_ofNat_ne_zero hn
  have hds : ∀ c ∈ Decimal.ofNat n, isDigit c = true := fun _ => Decimal.isDigit_of_mem_ofNat
  have hexp := exponent?_written power (2 - (Decimal.ofNat power.natAbs).length) hrest.noDigit
  obtain ⟨c, ds, hcons⟩ := List.exists_cons_of_ne_nil (Decimal.ofNat_ne_nil n)
  unfold scientific
  rw [hcons] at hvalue hzero hds ⊢
  simp only [List.append_assoc] at hexp
  -- One digit stands before the point, or before the exponent if it is the only one.
  have hsign := minus_signed negative (hds c List.mem_cons_self)
  have hwhole : ∀ d s, isDigit d = false →
      wholeDigits? (c :: d :: s) = some ([c], d :: s) := by
    intro d s hd
    show wholeDigits? ([c] ++ d :: s) = _
    refine wholeDigits?_digits (fun x hx => ?_) (List.cons_ne_nil _ _)
      (fun hhead => absurd hhead hzero) (noDigit_cons.2 hd)
    rw [List.mem_singleton.1 hx]
    exact hds c List.mem_cons_self
  cases ds with
  | nil =>
    simp only [List.cons_append, List.append_assoc, List.nil_append]
    generalize List.replicate _ '0' ++ _ = tail at *
    unfold readNumber
    simp [hsign, hwhole 'e' _ rfl, fraction?, hexp, hvalue]
  | cons d ds =>
    have hmark : ∀ s, NoDigit ('e' :: s) := fun _ => noDigit_cons.2 rfl
    have hfrac := fun s => fraction?_digits (fun x hx => hds x (List.mem_cons_of_mem c hx))
      (List.cons_ne_nil d ds) (hmark s)
    simp only [List.cons_append, List.append_assoc]
    generalize List.replicate _ '0' ++ _ = tail at *
    unfold readNumber
    simp only [List.cons_append] at hfrac
    simp [hsign, hwhole '.' _ rfl, hfrac, hexp, hvalue]

/-! ### Numbers -/

variable {field : Fin 2047} {fraction : Fin leadingBit}

/-- A number is written by the digits of a decimal in its interval. -/
theorem magnitude_form (hpos : 0 < significandOf field fraction) : ∃ (n : Nat) (grid : Int),
    0 < n ∧
    (Shortest.Interval.around (significandOf field fraction) (exponentOf field)).Contains
      (n * 10 ^ grid) ∧
    (magnitude (significandOf field fraction) (exponentOf field) =
        positional (Decimal.ofNat n) ((Decimal.ofNat n).length + grid) ∨
      magnitude (significandOf field fraction) (exponentOf field) =
        scientific (Decimal.ofNat n) ((Decimal.ofNat n).length + grid - 1)) := by
  have hcontains := Shortest.shortest_contains (exponentOf field) hpos
    (significandOf_lt field fraction)
  refine ⟨_, _, digits_pos_of_contains hpos hcontains, hcontains, ?_⟩
  rw [magnitude, if_neg hpos.ne']
  dsimp only
  split
  · exact .inl rfl
  · exact .inr rfl

theorem readNumber_magnitude (negative : Bool) (field : Fin 2047) (fraction : Fin leadingBit)
    {rest : Text} (hrest : Ends rest) :
    readNumber ((if negative then ['-'] else []) ++
        magnitude (significandOf field fraction) (exponentOf field) ++ rest) =
      .ok (.float (.finite negative field fraction), rest) := by
  rcases Nat.eq_zero_or_pos (significandOf field fraction) with hzero | hpos
  · have hpointed : Pointed ['0'] ['0'] := by constructor <;> simp [isDigit]
    rw [hzero, eq_zero_of_significandOf negative hzero]
    exact readNumber_pointed negative hpointed hrest
  · obtain ⟨n, grid, hn, hcontains, hform | hform⟩ := magnitude_form hpos
    · obtain ⟨whole, frac, htext, hpointed, hvalue⟩ :=
        positional_cut hn ((Decimal.ofNat n).length + grid)
      rw [add_sub_cancel_left] at hvalue
      rw [hform, htext, readNumber_pointed negative hpointed hrest,
        ofDecimal_of_contains negative hpos (hvalue ▸ hcontains)]
    · rw [hform, readNumber_scientific negative hn _ hrest, sub_add_cancel, add_sub_cancel_left,
        ofDecimal_of_contains negative hpos hcontains]

/-- The text of a number begins with a digit. -/
theorem magnitude_cons (field : Fin 2047) (fraction : Fin leadingBit) : ∃ c s,
    magnitude (significandOf field fraction) (exponentOf field) = c :: s ∧ isDigit c = true := by
  rcases Nat.eq_zero_or_pos (significandOf field fraction) with hzero | hpos
  · exact ⟨'0', ['.', '0'], by rw [hzero]; rfl, rfl⟩
  · obtain ⟨n, grid, hn, -, hform | hform⟩ := magnitude_form hpos
    · obtain ⟨whole, frac, htext, hpointed, -⟩ :=
        positional_cut hn ((Decimal.ofNat n).length + grid)
      obtain ⟨c, s, rfl⟩ := List.exists_cons_of_ne_nil hpointed.whole_ne_nil
      rw [hform, htext]
      exact ⟨c, _, rfl, hpointed.whole_digits c List.mem_cons_self⟩
    · obtain ⟨c, s, hcons⟩ := List.exists_cons_of_ne_nil (Decimal.ofNat_ne_nil n)
      have hc : isDigit c = true := Decimal.isDigit_of_mem_ofNat (hcons ▸ List.mem_cons_self)
      rw [hform, hcons]
      cases s <;> exact ⟨c, _, rfl, hc⟩

/-- All floating-point numbers are read back from their text. -/
theorem floatReadsBack (x : Binary64) : FloatReadsBack x := by
  intro fuel rest hrest
  cases x with
  | nan => rfl
  | infinite negative => cases negative <;> rfl
  | finite negative field fraction =>
    obtain ⟨c, s, hcons, hc⟩ := magnitude_cons field fraction
    have hnumber := readNumber_magnitude negative field fraction hrest
    rw [hcons] at hnumber
    rw [FloatStyle.write, hcons, ← hnumber]
    cases negative with
    | false => exact readValue_number (.inl hc) (name?_of_digit hc _).1
    | true => exact readValue_number (.inr rfl) (name?_of_digit hc _).2

end DocTable.Json
