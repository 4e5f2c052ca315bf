import DocTable.Json.Writer
/-!
# DocTable.Proofs.Json.Ascii

Written values are ASCII, and without line breaks in every layout that has none of its own
(`asciiLine_writeAt`): all other characters of a text are escaped.
-/

namespace DocTable

namespace Text

/-- Visible ASCII characters and spaces, which all stand on one line. -/
def AsciiLine (t : Text) : Prop :=
  ∀ c ∈ t, ' ' ≤ c ∧ c ≤ '~'

@[simp] theorem asciiLine_nil : AsciiLine [] := List.forall_mem_nil _

@[simp] theorem asciiLine_cons {c : Char} {t : Text} :
    AsciiLine (c :: t) ↔ (' ' ≤ c ∧ c ≤ '~') ∧ AsciiLine t := List.forall_mem_cons

@[simp] theorem asciiLine_append {s t : Text} :
    AsciiLine (s ++ t) ↔ AsciiLine s ∧ AsciiLine t := List.forall_mem_append

theorem asciiLine_zeros (n : Nat) : AsciiLine (List.replicate n '0') := by
  intro c hc
  rw [List.eq_of_mem_replicate hc]
  decide

theorem asciiLine_ofNat (n : Nat) : AsciiLine (Decimal.ofNat n) := by
  intro c hc
  have hdigit := Decimal.isDigit_of_mem_ofNat hc
  rw [isDigit, Bool.and_eq_true, decide_eq_true_eq, decide_eq_true_eq] at hdigit
  exact ⟨Char.le_trans (show ' ' ≤ '0' by decide) hdigit.1,
    Char.le_trans hdigit.2 (show '9' ≤ '~' by decide)⟩

theorem asciiLine_hexadecimal (w n : Nat) : AsciiLine (hexadecimal w n) := by
  have hdigits : ∀ m, m < 16 → ' ' ≤ hexDigit m ∧ hexDigit m ≤ '~' := by decide
  induction w generalizing n with
  | zero => exact asciiLine_nil
  | succ w ih =>
    rw [hexadecimal]
    simp [ih, hdigits (n % 16) (Nat.mod_lt _ (by decide))]

end Text

open Text

namespace FloatStyle

theorem asciiLine_positional {digits : Text} (h : AsciiLine digits) (point : Int) :
    AsciiLine (positional digits point) := by
  unfold positional
  split
  · simp [asciiLine_zeros, h]
  split
  · simp [asciiLine_zeros, h]
  · have htake : AsciiLine (digits.take point.toNat) := fun c hc => h c (List.mem_of_mem_take hc)
    have hdrop : AsciiLine (digits.drop point.toNat) := fun c hc => h c (List.mem_of_mem_drop hc)
    simp [htake, hdrop]

theorem asciiLine_scientific {digits : Text} (h : AsciiLine digits) (power : Int) :
    AsciiLine (scientific digits power) := by
  have hsign : ' ' ≤ (if power < 0 then '-' else '+') ∧ (if power < 0 then '-' else '+') ≤ '~' := by
    split <;> decide
  unfold scientific
  match digits with
  | [] => simp [asciiLine_zeros, asciiLine_ofNat, hsign]
  | [d] => simp_all [asciiLine_zeros, asciiLine_ofNat]
  | d :: e :: rest => simp_all [asciiLine_zeros, asciiLine_ofNat]

theorem asciiLine_write (x : Binary64) : AsciiLine (document.write x) := by
  have hsign : ∀ negative : Bool, AsciiLine (if negative then ['-'] else []) := by
    intro negative
    cases negative <;> simp
  cases x with
  | nan => simp [write, document]
  | infinite negative => simp [write, document, hsign]
  | finite negative field fraction =>
    rw [write, asciiLine_append]
    refine ⟨hsign negative, ?_⟩
    unfold magnitude
    split
    · simp
    · dsimp only
      split
      · exact asciiLine_positional (asciiLine_ofNat _) _
      · exact asciiLine_scientific (asciiLine_ofNat _) _

end FloatStyle

namespace Json

theorem asciiLine_ofInt (n : Int) : AsciiLine (Decimal.ofInt n) := by
  cases n with
  | ofNat n => exact asciiLine_ofNat n
  | negSucc n => simp [Decimal.ofInt, asciiLine_ofNat]

theorem asciiLine_escapeChar (c : Char) : AsciiLine (escapeChar c) := by
  have hunit : ∀ unit, AsciiLine (unitEscape unit) := by
    intro unit
    simp [unitEscape, asciiLine_hexadecimal]
  rw [escapeChar]
  -- Seven characters have escapes of their own.
  iterate 7
    split
    · simp
  split
  · next hprint =>
    rw [Bool.and_eq_true, decide_eq_true_eq, decide_eq_true_eq] at hprint
    simp [hprint]
  split
  · exact hunit _
  · simp [hunit]

theorem asciiLine_writeText (t : Text) : AsciiLine (writeText t) := by
  have hchars : AsciiLine (t.flatMap escapeChar) := by
    intro c hc
    obtain ⟨d, -, hd⟩ := List.mem_flatMap.1 hc
    exact asciiLine_escapeChar d c hd
  simp [writeText, hchars]

/-- A layout that stays on the line. -/
structure Layout.OnLine (layout : Layout) : Prop where
  gap : ∀ depth, AsciiLine (layout.gap depth)
  colon : AsciiLine layout.colon

theorem Layout.onLine_compact : Layout.compact.OnLine where
  gap _ := asciiLine_nil
  colon := by simp [Layout.compact]

variable {layout : Layout} (hl : layout.OnLine)

include hl

mutual

theorem asciiLine_writeAt : (v : Json) → ∀ depth, AsciiLine (writeAt layout depth v)
  | .null, _ | .bool true, _ | .bool false, _ | .array [], _ | .object [], _ => by
    simp [writeAt]
  | .int n, _ => asciiLine_ofInt n
  | .float x, _ => FloatStyle.asciiLine_write x
  | .text t, _ => asciiLine_writeText t
  | .array (x :: xs), depth => by
    have hx := asciiLine_writeAt x (depth + 1)
    have hxs := asciiLine_writeItems xs (depth + 1)
    simp [writeAt, hl.gap, hx, hxs]
  | .object ((k, v) :: ms), depth => by
    have hv := asciiLine_writeAt v (depth + 1)
    have hms := asciiLine_writeMembers ms (depth + 1)
    simp [writeAt, hl.gap, hl.colon, asciiLine_writeText, hv, hms]

theorem asciiLine_writeItems : (xs : List Json) → ∀ depth,
    AsciiLine (writeItems layout depth xs)
  | [], _ => asciiLine_nil
  | x :: xs, depth => by
    have hx := asciiLine_writeAt x depth
    have hxs := asciiLine_writeItems xs depth
    simp [writeItems, hl.gap, hx, hxs]

theorem asciiLine_writeMembers : (ms : List (Text × Json)) → ∀ depth,
    AsciiLine (writeMembers layout depth ms)
  | [], _ => asciiLine_nil
  | (k, v) :: ms, depth => by
    have hv := asciiLine_writeAt v depth
    have hms := asciiLine_writeMembers ms depth
    simp [writeMembers, hl.gap, hl.colon, asciiLine_writeText, hv, hms]

end

end Json

end DocTable
