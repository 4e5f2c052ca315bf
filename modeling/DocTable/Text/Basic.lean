/-!
# DocTable.Text.Basic

Text as a list of characters, and the few cuts and joins that the rest of the library needs.

* `Text.join` puts a separator between texts, `Text.cut` takes a text apart at a separator
  character; `join_cut` says that nothing is lost between them.
* A text is cut into a *first* piece and the pieces after it, so that "there is at least one
  piece" holds by construction.
-/

namespace DocTable

/-- Text is its list of characters; `length` counts code points. -/
abbrev Text := List Char

namespace Text

/-- The texts in order, with `sep` between neighbours. -/
def join (sep : Text) : List Text → Text
  | [] => []
  | [t] => t
  | t :: u :: rest => t ++ sep ++ join sep (u :: rest)

@[simp] theorem join_nil (sep : Text) : join sep [] = [] := rfl

@[simp] theorem join_singleton (sep t : Text) : join sep [t] = t := rfl

theorem join_cons_cons (sep t u : Text) (rest : List Text) :
    join sep (t :: u :: rest) = t ++ sep ++ join sep (u :: rest) := rfl

/-- The separator stands before each text but the first. -/
theorem join_cons_eq_flatMap (sep t : Text) (ts : List Text) :
    join sep (t :: ts) = t ++ ts.flatMap (sep ++ ·) := by
  induction ts generalizing t with
  | nil => simp
  | cons u us ih => rw [join_cons_cons, ih, List.flatMap_cons, List.append_assoc, List.append_assoc]

theorem join_append_cons (sep : Text) {ts : List Text} (hne : ts ≠ []) (u : Text)
    (us : List Text) : join sep (ts ++ u :: us) = join sep ts ++ sep ++ join sep (u :: us) := by
  induction ts with
  | nil => exact absurd rfl hne
  | cons t ts ih =>
    cases ts with
    | nil => rfl
    | cons t' ts =>
      have hrest := ih (List.cons_ne_nil t' ts)
      rw [List.cons_append] at hrest
      rw [List.cons_append, List.cons_append, join_cons_cons, join_cons_cons, hrest]
      simp only [List.append_assoc]

/-- Each of the texts stands in what they are joined to. -/
theorem infix_join (sep : Text) {ts : List Text} {t : Text} (h : t ∈ ts) : t <:+: join sep ts := by
  induction ts with
  | nil => cases h
  | cons u us ih =>
    cases us with
    | nil =>
      obtain rfl : t = u := by simpa using h
      exact List.infix_rfl
    | cons v us =>
      rw [join_cons_cons]
      rcases List.mem_cons.1 h with rfl | h
      · rw [List.append_assoc]
        exact (List.prefix_append ..).isInfix
      · exact (ih h).trans (List.suffix_append ..).isInfix

theorem mem_join {sep : Text} {ps : List Text} {c : Char} (h : c ∈ join sep ps) :
    c ∈ sep ∨ ∃ p ∈ ps, c ∈ p := by
  induction ps with
  | nil => exact absurd h List.not_mem_nil
  | cons p ps ih =>
    cases ps with
    | nil => exact .inr ⟨p, List.mem_cons_self, h⟩
    | cons q qs =>
      rw [join_cons_cons, List.mem_append, List.mem_append] at h
      rcases h with (h | h) | h
      · exact .inr ⟨p, List.mem_cons_self, h⟩
      · exact .inl h
      · rcases ih h with h | ⟨r, hr, h⟩
        · exact .inl h
        · exact .inr ⟨r, List.mem_cons_of_mem _ hr, h⟩

/-- Texts with a separator behind each of them are the texts joined by it, and one more behind
them all. -/
theorem flatMap_append_sep (sep : Text) {ts : List Text} (hne : ts ≠ []) :
    ts.flatMap (· ++ sep) = join sep ts ++ sep := by
  induction ts with
  | nil => exact absurd rfl hne
  | cons t ts ih =>
    cases ts with
    | nil => simp
    | cons u us =>
      rw [List.flatMap_cons, ih (List.cons_ne_nil u us), join_cons_cons]
      simp

/-- Cut at every `sep`: the piece before the first one, and the pieces after it. -/
def cut (sep : Char) : Text → Text × List Text
  | [] => ([], [])
  | c :: rest =>
    let (first, others) := cut sep rest
    if c = sep then ([], first :: others) else (c :: first, others)

/-- All pieces of a text between the occurrences of `sep`; there is always at least one. -/
def pieces (sep : Char) (t : Text) : List Text :=
  (cut sep t).1 :: (cut sep t).2

theorem join_pieces (sep : Char) (t : Text) : join [sep] (pieces sep t) = t := by
  induction t with
  | nil => rfl
  | cons c rest ih =>
    simp only [pieces] at ih
    by_cases h : c = sep
    · subst h
      simp only [pieces, cut, if_true]
      rw [join_cons_cons, ih]
      rfl
    · simp only [pieces, cut, if_neg h]
      cases hc : (cut sep rest).2 with
      | nil => rw [hc] at ih; simpa using ih
      | cons p ps =>
        rw [hc] at ih
        simp only [join_cons_cons, List.cons_append] at ih ⊢
        rw [ih]

theorem infix_of_mem_pieces {sep : Char} {t piece : Text} (h : piece ∈ pieces sep t) :
    piece <:+: t := by
  have hinfix := infix_join [sep] h
  rwa [join_pieces] at hinfix

theorem pieces_injective {sep : Char} {t u : Text} (h : pieces sep t = pieces sep u) : t = u := by
  rw [← join_pieces sep t, h, join_pieces]

/-- No piece of a cut holds the separator. -/
theorem sep_notMem_cut (sep : Char) (t : Text) :
    sep ∉ (cut sep t).1 ∧ ∀ p ∈ (cut sep t).2, sep ∉ p := by
  induction t with
  | nil => simp [cut]
  | cons c rest ih =>
    by_cases h : c = sep
    · simp only [cut, if_pos h]
      refine ⟨by simp, fun p hp => ?_⟩
      rcases List.mem_cons.1 hp with rfl | hp
      · exact ih.1
      · exact ih.2 p hp
    · simp only [cut, if_neg h]
      exact ⟨by simpa [Ne.symm h] using ih.1, ih.2⟩

theorem sep_notMem_pieces {sep : Char} {t piece : Text} (h : piece ∈ pieces sep t) :
    sep ∉ piece := by
  rcases List.mem_cons.1 h with rfl | h
  · exact (sep_notMem_cut sep t).1
  · exact (sep_notMem_cut sep t).2 piece h

/-- There is one piece more than there are separators. -/
theorem length_cut (sep : Char) (t : Text) : (cut sep t).2.length = t.count sep := by
  induction t with
  | nil => rfl
  | cons c rest ih =>
    by_cases h : c = sep
    · simp [cut, h, ih]
    · simp [cut, h, ih]

/-- Text without separators belongs to the first piece. -/
theorem cut_append {sep : Char} {u : Text} (h : sep ∉ u) (t : Text) :
    cut sep (u ++ t) = (u ++ (cut sep t).1, (cut sep t).2) := by
  induction u with
  | nil => rfl
  | cons c u ih =>
    rw [List.mem_cons, not_or] at h
    simp only [List.cons_append, cut, ih h.2, if_neg (Ne.symm h.1)]

theorem cut_eq_self {sep : Char} {t : Text} (h : sep ∉ t) : cut sep t = (t, []) := by
  simpa [cut] using cut_append h []

/-- A separator ends a piece. -/
theorem pieces_append_sep (sep : Char) (t u : Text) :
    pieces sep (t ++ sep :: u) = pieces sep t ++ pieces sep u := by
  induction t with
  | nil => simp [pieces, cut]
  | cons c t ih =>
    simp only [pieces, List.cons_append, List.cons.injEq] at ih
    by_cases h : c = sep
    · simp [pieces, cut, h, ih.1, ih.2]
    · simp [pieces, cut, h, ih.1, ih.2]

theorem pieces_append_cons {sep : Char} {t : Text} (h : sep ∉ t) (u : Text) :
    pieces sep (t ++ sep :: u) = t :: pieces sep u := by
  rw [pieces_append_sep, pieces, cut_eq_self h]
  rfl

/-- Texts without the separator are the pieces of what they are joined to. -/
theorem pieces_join {sep : Char} {ts : List Text} (hne : ts ≠ []) (h : ∀ t ∈ ts, sep ∉ t) :
    pieces sep (join [sep] ts) = ts := by
  induction ts with
  | nil => exact absurd rfl hne
  | cons t ts ih =>
    obtain ⟨ht, hts⟩ := List.forall_mem_cons.1 h
    cases ts with
    | nil => rw [join_singleton, pieces, cut_eq_self ht]
    | cons u us =>
      rw [join_cons_cons, List.append_assoc, List.singleton_append, pieces_append_cons ht,
        ih (List.cons_ne_nil u us) hts]

/-- The text after `start`, if it begins with `start`. -/
def afterStart? (start : Text) (t : Text) : Option Text :=
  if start.isPrefixOf t then some (t.drop start.length) else none

theorem afterStart?_append (start t : Text) : afterStart? start (start ++ t) = some t := by
  simp [afterStart?]

/-- The text without one leading `start`, if there is one. -/
def dropStart (start : Text) (t : Text) : Text :=
  (afterStart? start t).getD t

/-- Whether `part` occurs somewhere in the text. -/
def occurs (part : Text) : Text → Bool
  | [] => part.isEmpty
  | c :: rest => part.isPrefixOf (c :: rest) || occurs part rest

/-- Blanks are added on the right up to a width; a longer text is left as it is. -/
def padRight (width : Nat) (t : Text) : Text :=
  t ++ List.replicate (width - t.length) ' '

/-- The order of texts by code points, a shorter text before its continuations. -/
def before : Text → Text → Bool
  | [], _ => true
  | _ :: _, [] => false
  | a :: as, b :: bs => a.toNat < b.toNat || (a == b && before as bs)

/-- Insert a text into a list ordered by `key`, behind those that do not come after it. -/
def insertBy {α : Type} (key : α → Text) (x : α) : List α → List α
  | [] => [x]
  | y :: ys =>
    if before (key y) (key x) then y :: insertBy key x ys else x :: y :: ys

/-- Order a list by a text key; equal keys keep their order. -/
def sortBy {α : Type} (key : α → Text) (xs : List α) : List α :=
  xs.foldl (fun done x => insertBy key x done) []

theorem perm_insertBy {α : Type} (key : α → Text) (x : α) (ys : List α) :
    (insertBy key x ys).Perm (x :: ys) := by
  induction ys with
  | nil => exact .refl [x]
  | cons y ys ih =>
    rw [insertBy]
    split
    · exact (ih.cons y).trans (.swap x y ys)
    · exact .refl _

/-- Ordering keeps every item. -/
theorem perm_sortBy {α : Type} (key : α → Text) (xs : List α) : (sortBy key xs).Perm xs := by
  have hfold : ∀ done, (xs.foldl (fun done x => insertBy key x done) done).Perm (done ++ xs) := by
    induction xs with
    | nil => exact fun done => by rw [List.append_nil]; exact .refl done
    | cons x xs ih =>
      intro done
      have hinsert : (insertBy key x done ++ xs).Perm (done ++ x :: xs) :=
        ((perm_insertBy key x done).append_right xs).trans List.perm_middle.symm
      exact (ih _).trans hinsert
  exact hfold []

/-- ASCII letters. -/
def isLetter (c : Char) : Bool :=
  ('a' ≤ c && c ≤ 'z') || ('A' ≤ c && c ≤ 'Z')

/-- ASCII decimal digits. -/
def isDigit (c : Char) : Bool :=
  '0' ≤ c && c ≤ '9'

/-- Whether a character's code lies in one of the closed ranges. -/
def inRanges (ranges : List (Nat × Nat)) (c : Char) : Bool :=
  ranges.any fun r => r.1 ≤ c.toNat && c.toNat ≤ r.2

/-! ### Blanks and digits of all scripts

As the Unicode character database has them. Decimal digits come in blocks of ten, so a digit's value
is its distance to the zero of its block.
-/

/-- Code ranges of the blank characters. -/
def blankRanges : List (Nat × Nat) :=
  [(0x9, 0xd), (0x20, 0x20), (0x85, 0x85), (0xa0, 0xa0), (0x1680, 0x1680), (0x2000, 0x200a),
   (0x2028, 0x2029), (0x202f, 0x202f), (0x205f, 0x205f), (0x3000, 0x3000)]

/-- A blank: may surround a number. -/
def isBlank (c : Char) : Bool :=
  inRanges blankRanges c

/-- The text without blanks at either end. -/
def trim (blank : Char → Bool) (t : Text) : Text :=
  ((t.dropWhile blank).reverse.dropWhile blank).reverse

/-- Codes of the zeros; the digits one to nine follow each of them. -/
def zeroCodes : List Nat :=
  [0x30, 0x660, 0x6f0, 0x7c0, 0x966, 0x9e6, 0xa66, 0xae6, 0xb66, 0xbe6, 0xc66, 0xce6, 0xd66,
   0xde6, 0xe50, 0xed0, 0xf20, 0x1040, 0x1090, 0x17e0, 0x1810, 0x1946, 0x19d0, 0x1a80, 0x1a90,
   0x1b50, 0x1bb0, 0x1c40, 0x1c50, 0xa620, 0xa8d0, 0xa900, 0xa9d0, 0xa9f0, 0xaa50, 0xabf0,
   0xff10, 0x104a0, 0x10d30, 0x11066, 0x110f0, 0x11136, 0x111d0, 0x112f0, 0x11450, 0x114d0,
   0x11650, 0x116c0, 0x11730, 0x118e0, 0x11950, 0x11c50, 0x11d50, 0x11da0, 0x16a60, 0x16ac0,
   0x16b50, 0x1d7ce, 0x1d7d8, 0x1d7e2, 0x1d7ec, 0x1d7f6, 0x1e140, 0x1e2f0, 0x1e950, 0x1fbf0]

/-- The value of a decimal digit of any script. -/
def digitValue? (c : Char) : Option Nat :=
  (zeroCodes.find? fun z => z ≤ c.toNat && c.toNat < z + 10).map (c.toNat - ·)

example : digitValue? '7' = some 7 ∧ digitValue? '٣' = some 3 ∧ digitValue? 'x' = none := by
  decide

end Text

end DocTable
