import Mathlib.Algebra.Group.Nat.Even
import DocTable.Proofs.Shorthand.Parity
/-!
# DocTable.Proofs.Shorthand.Reading

A text as its tokens and the characters between them, and what expansion makes of each.

A reading cuts a text into pieces: tokens with their whole paths, and single characters at which no
token begins. Every text has exactly one reading (`exists_reading`, `IsReading.unique`).
`rendered` says what becomes of the pieces: a token is expanded if an even number of quotes comes
before it or none comes after it, and all else is copied. `expand_eq_rendered` is the statement
that expansion does just that.
-/

namespace DocTable.Sql.Shorthand

/-- A piece of a text. -/
inductive Piece where
  | token (path : Text)
  /-- A character outside of all tokens. -/
  | plain (c : Char)

/-- The characters of a piece. -/
def Piece.source : Piece → Text
  | .token path => '$' :: path
  | .plain c => [c]

/-- The text that pieces are cut from. -/
def source (ps : List Piece) : Text :=
  ps.flatMap Piece.source

/-- Tokens are as long as they can be, and no token is missed. -/
def IsReading : List Piece → Prop
  | [] => True
  | .token path :: ps => IsPath path ∧ continuesPath (source ps) = false ∧ IsReading ps
  | .plain c :: ps => ¬(c = '$' ∧ startsPath (source ps) = true) ∧ IsReading ps

/-- The pieces after expansion; `before` is the text that comes before them. A token that is
replaced becomes the extraction of its path from the column `data`. -/
def rendered (before : Text) : List Piece → Text
  | [] => []
  | .token path :: ps =>
    (if Even (before.count '\'') ∨ '\'' ∉ source ps then "data->>'$.".toList ++ path ++ ['\'']
      else '$' :: path)
      ++ rendered (before ++ '$' :: path) ps
  | .plain c :: ps => c :: rendered (before ++ [c]) ps

@[simp] theorem source_nil : source [] = [] := rfl

theorem source_token (path : Text) (ps : List Piece) :
    source (.token path :: ps) = '$' :: (path ++ source ps) := rfl

theorem source_plain (c : Char) (ps : List Piece) : source (.plain c :: ps) = c :: source ps := rfl

/-! ### Every text has one reading -/

theorem exists_reading (t : Text) : ∃ ps, IsReading ps ∧ source ps = t := by
  induction t using tokenInduction with
  | nil => exact ⟨[], trivial, rfl⟩
  | token path after hp ha ih =>
    obtain ⟨ps, hps, rfl⟩ := ih
    exact ⟨.token path :: ps, ⟨hp, ha, hps⟩, rfl⟩
  | plain c t hc ih =>
    obtain ⟨ps, hps, rfl⟩ := ih
    exact ⟨.plain c :: ps, ⟨hc, hps⟩, rfl⟩

theorem IsReading.unique {ps qs : List Piece} (hp : IsReading ps) (hq : IsReading qs)
    (h : source ps = source qs) : ps = qs := by
  induction ps generalizing qs with
  | nil =>
    cases qs with
    | nil => rfl
    | cons q qs => cases q <;> simp [source_token, source_plain] at h
  | cons p ps ih =>
    cases qs with
    | nil => cases p <;> simp [source_token, source_plain] at h
    | cons q qs =>
      cases p with
      | token path =>
        obtain ⟨hpath, hend, hps⟩ := hp
        rw [source_token] at h
        cases q with
        | token path' =>
          obtain ⟨hpath', hend', hqs⟩ := hq
          rw [source_token, List.cons.injEq] at h
          -- Both paths are the longest run of path characters behind the dollar sign.
          have hpp : path = path' := by
            rw [← hpath.takeWhile_append hend, h.2, hpath'.takeWhile_append hend']
          subst hpp
          rw [ih hps hqs (List.append_cancel_left h.2)]
        | plain c =>
          rw [source_plain, List.cons.injEq] at h
          exact absurd ⟨h.1.symm, h.2 ▸ hpath.startsPath_append _⟩ hq.1
      | plain c =>
        rw [source_plain] at h
        cases q with
        | token path' =>
          rw [source_token, List.cons.injEq] at h
          exact absurd ⟨h.1, h.2 ▸ hq.1.startsPath_append _⟩ hp.1
        | plain d =>
          rw [source_plain, List.cons.injEq] at h
          rw [h.1, ih hp.2 hq.2 h.2]

/-! ### The pass renders the reading -/

/-- Whether an odd number of quotes is in a text. -/
def isInside (before : Text) : Bool :=
  before.count '\'' % 2 = 1

theorem isInside_append_singleton (before : Text) (c : Char) :
    isInside (before ++ [c]) = insideAfter (isInside before) c := by
  by_cases h : c = '\''
  · subst h
    simp only [isInside, insideAfter, List.count_append, List.count_singleton_self, if_true]
    by_cases hp : before.count '\'' % 2 = 1 <;> simp [hp] <;> omega
  · simp [isInside, insideAfter, h, List.count_append]

theorem isInside_append {before u : Text} (h : '\'' ∉ u) :
    isInside (before ++ u) = isInside before := by
  simp [isInside, List.count_append, List.count_eq_zero_of_not_mem h]

theorem isInside_eq_false_iff {before : Text} :
    isInside before = false ↔ Even (before.count '\'') := by
  rw [isInside, decide_eq_false_iff_not, Nat.even_iff]
  omega

theorem extract_eq (path : Text) : extract path = "data->>'$.".toList ++ path ++ ['\''] := rfl

/-- The pass makes of a reading what becomes of its pieces. -/
theorem expandFrom_eq_rendered {ps : List Piece} (h : IsReading ps) (before : Text) :
    expandFrom (isInside before) (source ps) = rendered before ps := by
  induction ps generalizing before with
  | nil => exact expandFrom_nil
  | cons p ps ih =>
    cases p with
    | token path =>
      obtain ⟨hp, hend, hps⟩ := h
      have hq : '\'' ∉ '$' :: path := by simpa using hp.quote_notMem
      rw [source_token, expandFrom_token hp hend, rendered, ← extract_eq, ← ih hps,
        isInside_append hq]
      by_cases hlive : Even (before.count '\'') ∨ '\'' ∉ source ps
      · rw [if_pos hlive, if_neg]
        rintro ⟨hi, hs⟩
        rw [isInside_eq_false_iff.2 (hlive.resolve_right (not_not.2 hs))] at hi
        exact absurd hi (by simp)
      · rw [if_neg hlive, if_pos]
        rw [not_or, not_not, ← isInside_eq_false_iff, Bool.not_eq_false] at hlive
        exact hlive
    | plain c =>
      obtain ⟨hc, hps⟩ := h
      rw [source_plain, expandFrom_plain hc, rendered, ← ih hps, isInside_append_singleton]

/-- **Expansion by the parity of quotes.** A text has one reading as maximal tokens and other
characters. Expansion replaces exactly those tokens that an even number of quotes precedes or that
no quote follows, and copies everything else in order. -/
theorem expand_eq_rendered (t : Text) :
    ∃ ps, IsReading ps ∧ source ps = t ∧ (∀ qs, IsReading qs → source qs = t → qs = ps) ∧
      expand t = rendered [] ps := by
  obtain ⟨ps, hps, rfl⟩ := exists_reading t
  refine ⟨ps, hps, rfl, fun qs hqs h => hqs.unique hps h, ?_⟩
  rw [expand_eq_expandFrom]
  exact expandFrom_eq_rendered hps []

end DocTable.Sql.Shorthand
