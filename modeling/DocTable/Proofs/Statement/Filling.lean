import DocTable.Sql.Statement
/-!
# DocTable.Proofs.Statement.Filling

Statements with their arguments put in.

`fill` puts the next value in the place of each hole mark. A statement lines up (`LinesUp`) if it
has one mark for each of its arguments. Fragments do by construction, and statements that are
joined do if each of them does; filling the whole then is the same as filling each part with its
own values (`filled_join`).
-/

namespace DocTable.Sql

/-- Characters, and values in the place of hole marks. -/
abbrev Filled := List (Char ⊕ Json)

/-- Characters alone. -/
def verbatim (t : Text) : Filled :=
  t.map .inl

/-- The text with the next value in the place of each hole mark. A mark that is left without a
value stays. -/
def fill : Text → List Json → Filled
  | [], _ => []
  | c :: t, [] => .inl c :: fill t []
  | c :: t, v :: vs => if c = holeMark then .inr v :: fill t vs else .inl c :: fill t (v :: vs)

/-- Pieces with single blanks between them. -/
def spaced (pieces : List Filled) : Filled :=
  List.intercalate (verbatim [' ']) pieces

/-- Text without hole marks takes no values. -/
theorem fill_clean_append {t : Text} (h : holeMark ∉ t) (u : Text) (vs : List Json) :
    fill (t ++ u) vs = verbatim t ++ fill u vs := by
  induction t with
  | nil => rfl
  | cons c t ih =>
    rw [List.mem_cons, not_or] at h
    have ih := ih h.2
    cases vs with
    | nil => rw [List.cons_append, fill, ih]; rfl
    | cons v vs => rw [List.cons_append, fill, if_neg (Ne.symm h.1), ih]; rfl

theorem fill_clean {t : Text} (h : holeMark ∉ t) (vs : List Json) : fill t vs = verbatim t := by
  have := fill_clean_append h [] vs
  rwa [List.append_nil, fill, List.append_nil] at this

/-- A text that takes all of its own values leaves the others to what follows it. -/
theorem fill_append {t : Text} {vs : List Json} (h : t.count holeMark = vs.length) (u : Text)
    (ws : List Json) : fill (t ++ u) (vs ++ ws) = fill t vs ++ fill u ws := by
  induction t generalizing vs with
  | nil =>
    rw [List.count_nil] at h
    rw [List.eq_nil_of_length_eq_zero h.symm]
    rfl
  | cons c t ih =>
    by_cases hc : c = holeMark
    · subst hc
      rw [List.count_cons_self] at h
      cases vs with
      | nil => exact absurd h (by simp)
      | cons v vs =>
        rw [List.length_cons, Nat.add_right_cancel_iff] at h
        rw [List.cons_append, List.cons_append, fill, if_pos rfl, ih h, fill, if_pos rfl]
        rfl
    · rw [List.count_cons_of_ne hc] at h
      have ih := ih h
      cases vs with
      | nil =>
        cases ws with
        | nil => simp only [List.cons_append, List.append_nil, fill] at ih ⊢; rw [ih]
        | cons w ws =>
          simp only [List.cons_append, List.nil_append, fill, if_neg hc] at ih ⊢
          rw [ih]
      | cons v vs =>
        simp only [List.cons_append, fill, if_neg hc] at ih ⊢
        rw [ih]

/-! ### Fragments -/

namespace Fragment

/-- A fragment with its values in their places. -/
def filled (f : Fragment) : Filled :=
  verbatim f.head ++ f.holes.flatMap fun h => .inr h.1 :: verbatim h.2

variable {holes : List (Json × Text)}

theorem count_holes (clean : ∀ h ∈ holes, holeMark ∉ h.2) :
    (holes.flatMap fun h => holeMark :: h.2).count holeMark = holes.length := by
  induction holes with
  | nil => rfl
  | cons h holes ih =>
    have hh : h.2.count holeMark = 0 :=
      List.count_eq_zero_of_not_mem (clean h List.mem_cons_self)
    rw [List.flatMap_cons, List.cons_append, List.count_cons_self, List.count_append, hh,
      ih fun x hx => clean x (List.mem_cons_of_mem _ hx), List.length_cons, Nat.zero_add]

theorem fill_holes (clean : ∀ h ∈ holes, holeMark ∉ h.2) :
    fill (holes.flatMap fun h => holeMark :: h.2) (holes.map (·.1)) =
      holes.flatMap fun h => .inr h.1 :: verbatim h.2 := by
  induction holes with
  | nil => rfl
  | cons h holes ih =>
    rw [List.flatMap_cons, List.map_cons, List.cons_append, fill, if_pos rfl,
      fill_clean_append (clean h List.mem_cons_self),
      ih fun x hx => clean x (List.mem_cons_of_mem _ hx), List.flatMap_cons, List.cons_append]

/-- The text of a fragment has one mark for each value. -/
theorem count_text (f : Fragment) : f.text.count holeMark = f.values.length := by
  have hhead : f.head.count holeMark = 0 := List.count_eq_zero_of_not_mem f.head_clean
  rw [text, List.count_append, hhead, Nat.zero_add, count_holes f.holes_clean, values,
    List.length_map]

/-- Filling the text of a fragment puts each value into its own place. -/
theorem fill_text (f : Fragment) : fill f.text f.values = f.filled := by
  rw [text, fill_clean_append f.head_clean, values, fill_holes f.holes_clean, filled]

@[simp] theorem filterMap_verbatim (t : Text) : (verbatim t).filterMap Sum.getRight? = [] := by
  simp [verbatim, List.filterMap_map]

/-- The values of a fragment can be told from the fragment with its values in their places. -/
theorem values_eq_filterMap (f : Fragment) : f.values = f.filled.filterMap Sum.getRight? := by
  rw [values, filled, List.filterMap_append, filterMap_verbatim, List.nil_append]
  induction f.holes with
  | nil => rfl
  | cons h rest ih => simp [List.filterMap_append, ih]

/-- The text with a mark in the place of each value. -/
def marked (t : Filled) : Text :=
  t.map (Sum.elim id fun _ => holeMark)

theorem marked_append (t u : Filled) : marked (t ++ u) = marked t ++ marked u :=
  List.map_append

@[simp] theorem marked_verbatim (t : Text) : marked (verbatim t) = t := by
  simp [marked, verbatim]

/-- The text of a fragment can be told from the fragment with its values in their places. -/
theorem text_eq_marked (f : Fragment) : f.text = marked f.filled := by
  rw [text, filled, marked_append, marked_verbatim]
  induction f.holes with
  | nil => rfl
  | cons h rest ih =>
    rw [List.append_cancel_left_eq] at ih ⊢
    rw [List.flatMap_cons, List.flatMap_cons, marked_append, ← ih]
    simp [marked, verbatim]

end Fragment

/-! ### Statements -/

namespace Statement

/-- A statement has one hole mark for each argument. -/
def LinesUp (s : Statement) : Prop :=
  s.text.count holeMark = s.args.length

/-- A statement with its arguments put in. -/
def filled (s : Statement) : Filled :=
  fill s.text s.args

theorem linesUp_raw {t : Text} (h : holeMark ∉ t) : LinesUp ⟨t, []⟩ :=
  List.count_eq_zero_of_not_mem h

theorem linesUp_fragment (f : Fragment) : LinesUp ⟨f.text, f.values⟩ :=
  f.count_text

theorem join_cons_cons (a b : Statement) (rest : List Statement) :
    join (a :: b :: rest) =
      ⟨a.text ++ [' '] ++ (join (b :: rest)).text, a.args ++ (join (b :: rest)).args⟩ := by
  simp [join, Text.join_cons_cons]

theorem linesUp_join {ss : List Statement} (h : ∀ s ∈ ss, s.LinesUp) : (join ss).LinesUp := by
  induction ss with
  | nil => rfl
  | cons a ss ih =>
    have ha := h a List.mem_cons_self
    have ih := ih fun s hs => h s (List.mem_cons_of_mem _ hs)
    cases ss with
    | nil => simpa [join] using ha
    | cons b rest =>
      rw [LinesUp] at ha ih ⊢
      rw [join_cons_cons, List.count_append, List.count_append, ha, ih, List.length_append]
      rfl

/-- A joined statement is filled by filling each part with its own arguments. -/
theorem filled_join {ss : List Statement} (h : ∀ s ∈ ss, s.LinesUp) :
    (join ss).filled = spaced (ss.map filled) := by
  induction ss with
  | nil => rfl
  | cons a ss ih =>
    have ha := h a List.mem_cons_self
    have ih := ih fun s hs => h s (List.mem_cons_of_mem _ hs)
    cases ss with
    | nil => simp [join, spaced, filled, List.intercalate]
    | cons b rest =>
      rw [filled] at ih
      rw [filled, join_cons_cons, List.append_assoc, fill_append ha,
        fill_clean_append (by decide), ih]
      simp [spaced, filled, List.intercalate]

end Statement

end DocTable.Sql
