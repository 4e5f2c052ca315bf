import DocTable.Json.Reader
import DocTable.Json.Writer
/-!
# DocTable.Proofs.Json.Texts

Written texts can be read back.

A text is written character by character, and the reader takes the escape of one character at a
time (`readChars_escapeChar`): a character alone, a short escape, one UTF-16 unit or a pair of
them. The reader looks one character beyond the escape of a unit, which the closing quote allows
for. `readText_writeText` is the statement for whole texts.
-/

namespace DocTable.Json

open Text

variable (opening : Text) (fuel : Nat)

/-! ### One escape -/

theorem readChars_plain {c : Char} (hquote : c ≠ '"') (hslash : c ≠ '\\')
    (hprint : 0x20 ≤ c.toNat) (rest : Text) :
    readChars opening (fuel + 1) (c :: rest) =
      (readChars opening fuel rest).map fun r => (c :: r.1, r.2) := by
  rw [readChars.eq_def]
  simp only [if_neg hquote, if_neg hslash, if_neg (Nat.not_lt.2 hprint)]
  rfl

theorem readChars_short {e c : Char} (h : shortEscape? e = some c) (rest : Text) :
    readChars opening (fuel + 1) ('\\' :: e :: rest) =
      (readChars opening fuel rest).map fun r => (c :: r.1, r.2) := by
  have hu : e ≠ 'u' := by
    rintro rfl
    simp [shortEscape?] at h
  rw [readChars, if_neg (by decide), if_pos rfl, h]
  · rfl
  · exact fun _ _ _ _ _ _ he _ => hu he
  · exact hu

/-- A unit that is no first half of a pair is read as its character. -/
theorem readChars_unit {unit : Nat} (hfit : unit < 0x10000) (hhigh : isHighUnit unit = false)
    (next : Char) (rest : Text) :
    readChars opening (fuel + 1) (unitEscape unit ++ next :: rest) =
      (readChars opening fuel (next :: rest)).map fun r => (unitChar unit :: r.1, r.2) := by
  obtain ⟨a, b, c, d, hdigits⟩ : ∃ a b c d, hexadecimal 4 unit = [a, b, c, d] :=
    ⟨_, _, _, _, rfl⟩
  have hvalue : ofHexadecimal? [a, b, c, d] = some unit := by
    rw [← hdigits]
    exact ofHexadecimal?_hexadecimal hfit
  rw [unitEscape, hdigits]
  simp only [List.cons_append, List.nil_append]
  rw [readChars, if_neg (by decide), if_pos rfl]
  simp only [hvalue, hhigh]
  rfl

/-- Two halves of a pair are read as one character. -/
theorem readChars_pair {high low : Nat} (hhigh : isHighUnit high = true)
    (hlow : isLowUnit low = true) (next : Char) (rest : Text) :
    readChars opening (fuel + 1) (unitEscape high ++ unitEscape low ++ next :: rest) =
      (readChars opening fuel (next :: rest)).map fun r => (pairChar high low :: r.1, r.2) := by
  obtain ⟨a, b, c, d, hdigits⟩ : ∃ a b c d, hexadecimal 4 high = [a, b, c, d] :=
    ⟨_, _, _, _, rfl⟩
  obtain ⟨a', b', c', d', hdigits'⟩ : ∃ a b c d, hexadecimal 4 low = [a, b, c, d] :=
    ⟨_, _, _, _, rfl⟩
  have hvalue : ofHexadecimal? [a, b, c, d] = some high := by
    have hfit : high < 0x10000 := by
      simp [isHighUnit] at hhigh
      omega
    rw [← hdigits]
    exact ofHexadecimal?_hexadecimal hfit
  have hvalue' : ofHexadecimal? [a', b', c', d'] = some low := by
    have hfit : low < 0x10000 := by
      simp [isLowUnit] at hlow
      omega
    rw [← hdigits']
    exact ofHexadecimal?_hexadecimal hfit
  have hpair : lowUnit? ('\\' :: 'u' :: a' :: b' :: c' :: d' :: next :: rest) =
      .ok (some (low, next :: rest)) := by
    rw [lowUnit?, hvalue']
    simp only [hlow, if_true]
  rw [unitEscape, unitEscape, hdigits, hdigits']
  simp only [List.cons_append, List.nil_append]
  rw [readChars, if_neg (by decide), if_pos rfl]
  simp only [hvalue, hhigh, hpair, if_true]
  rfl

/-! ### Characters -/

/-- No character is a half of a pair. -/
theorem not_half (c : Char) : isHighUnit c.toNat = false ∧ isLowUnit c.toNat = false := by
  have hvalid : c.toNat < 0xd800 ∨ 0xdfff < c.toNat ∧ c.toNat < 0x110000 := c.valid
  simp only [isHighUnit, isLowUnit, Bool.and_eq_false_iff, decide_eq_false_iff_not]
  omega

theorem unitChar_toNat (c : Char) : unitChar c.toNat = c := by
  rw [unitChar, (not_half c).1, (not_half c).2]
  exact Char.ofNat_toNat c

/-- The two units of a character beyond the first 65536, and what they are read as. -/
theorem pair_of_large {c : Char} (h : 0x10000 ≤ c.toNat) :
    isHighUnit (0xd800 + (c.toNat - 0x10000) / 0x400) = true ∧
      isLowUnit (0xdc00 + (c.toNat - 0x10000) % 0x400) = true ∧
      pairChar (0xd800 + (c.toNat - 0x10000) / 0x400)
        (0xdc00 + (c.toNat - 0x10000) % 0x400) = c := by
  have hvalid : c.toNat < 0xd800 ∨ 0xdfff < c.toNat ∧ c.toNat < 0x110000 := c.valid
  simp only [isHighUnit, isLowUnit, Bool.and_eq_true, decide_eq_true_eq]
  refine ⟨by omega, by omega, ?_⟩
  have hsum : 0x10000 + (0xd800 + (c.toNat - 0x10000) / 0x400 - 0xd800) * 0x400
      + (0xdc00 + (c.toNat - 0x10000) % 0x400 - 0xdc00) = c.toNat := by omega
  rw [pairChar, hsum]
  exact Char.ofNat_toNat c

/-- The escape of a character is read as the character. -/
theorem readChars_escapeChar (c next : Char) (rest : Text) :
    readChars opening (fuel + 1) (escapeChar c ++ next :: rest) =
      (readChars opening fuel (next :: rest)).map fun r => (c :: r.1, r.2) := by
  rw [escapeChar]
  iterate 7
    split
    · next hc => exact readChars_short opening fuel (by rw [hc]; decide) _
  split
  · next hquote hslash _ _ _ _ _ hprint =>
    rw [Bool.and_eq_true, decide_eq_true_eq] at hprint
    exact readChars_plain opening fuel hquote hslash hprint.1 _
  split
  · next hsmall =>
    have := readChars_unit opening fuel hsmall (not_half c).1 next rest
    rwa [unitChar_toNat] at this
  · next hlarge =>
    obtain ⟨hhigh, hlow, hpair⟩ := pair_of_large (Nat.not_lt.1 hlarge)
    have := readChars_pair opening fuel hhigh hlow next rest
    rwa [hpair] at this

/-! ### Texts -/

theorem readChars_flatMap {t : Text} (h : t.length < fuel) (rest : Text) :
    readChars opening fuel (t.flatMap escapeChar ++ '"' :: rest) = .ok (t, rest) := by
  induction t generalizing fuel with
  | nil =>
    obtain ⟨fuel, rfl⟩ := Nat.exists_eq_add_one_of_ne_zero (Nat.ne_of_gt h)
    rw [List.flatMap_nil, List.nil_append, readChars.eq_def]
    rfl
  | cons c t ih =>
    obtain ⟨fuel, rfl⟩ := Nat.exists_eq_add_one_of_ne_zero (Nat.ne_of_gt (Nat.zero_lt_of_lt h))
    obtain ⟨next, after, hnext⟩ : ∃ next after,
        t.flatMap escapeChar ++ '"' :: rest = next :: after :=
      List.exists_cons_of_ne_nil (by simp)
    rw [List.flatMap_cons, List.append_assoc, hnext, readChars_escapeChar, ← hnext,
      ih fuel (Nat.lt_of_succ_lt_succ h)]
    rfl

theorem escapeChar_ne_nil (c : Char) : escapeChar c ≠ [] := by
  rw [escapeChar]
  repeat' split
  all_goals simp [unitEscape]

theorem length_le_flatMap (t : Text) : t.length ≤ (t.flatMap escapeChar).length := by
  induction t with
  | nil => exact Nat.le_refl 0
  | cons c t ih =>
    have hc := List.length_pos_iff.2 (escapeChar_ne_nil c)
    rw [List.flatMap_cons, List.length_append, List.length_cons]
    omega

theorem writeText_append (t rest : Text) :
    writeText t ++ rest = '"' :: (writeText t ++ rest).tail := rfl

/-- A written text is read back, whatever follows it. -/
theorem readText_writeText (t rest : Text) : readText (writeText t ++ rest) = .ok (t, rest) := by
  have htail : writeText t ++ rest = '"' :: (t.flatMap escapeChar ++ '"' :: rest) := by
    simp [writeText]
  have hlength := length_le_flatMap t
  rw [readText, htail, List.tail_cons]
  refine readChars_flatMap _ _ ?_ rest
  simp only [List.length_cons, List.length_append]
  omega

end DocTable.Json
