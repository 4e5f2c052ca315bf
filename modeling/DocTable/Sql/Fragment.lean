import DocTable.Json.Same
import DocTable.Sql.Error
import DocTable.Sql.Shorthand
/-!
# DocTable.Sql.Fragment

Pieces of a statement with their bound values.

A fragment is literal text that is interrupted by holes, each with the value that is bound to it.
The literal segments never hold a hole mark of their own, so the text of a fragment has one mark
for each value; this is part of the type.

Fragments form a monoid under `append`. Literal text is written in the `$path` shorthand and
becomes SQL by `expanded`, which works on each segment on its own.
-/

namespace DocTable.Sql

/-- The mark of a hole in the text of a statement. -/
def holeMark : Char := '?'

/-- Literal text, interrupted by bound values. -/
@[ext]
structure Fragment where
  /-- The text before the first hole. -/
  head : Text
  /-- The value at each hole and the text that follows it. -/
  holes : List (Json × Text)
  head_clean : '?' ∉ head
  holes_clean : ∀ h ∈ holes, '?' ∉ h.2

namespace Fragment

/-- The literal segments; one more than there are values. -/
def parts (f : Fragment) : List Text :=
  f.head :: f.holes.map (·.2)

/-- The bound values, from left to right. -/
def values (f : Fragment) : List Json :=
  f.holes.map (·.1)

/-- The text with a mark at each hole. -/
def text (f : Fragment) : Text :=
  f.head ++ f.holes.flatMap fun h => holeMark :: h.2

/-- The text has a mark between neighbouring segments. -/
theorem text_eq_join (f : Fragment) : f.text = Text.join [holeMark] f.parts := by
  rw [text, parts, Text.join_cons_eq_flatMap, List.flatMap_map]
  rfl

@[simp] theorem length_parts (f : Fragment) : f.parts.length = f.values.length + 1 := by
  simp [parts, values]

theorem part_clean {f : Fragment} {p : Text} (h : p ∈ f.parts) : '?' ∉ p := by
  rcases List.mem_cons.1 h with rfl | h
  · exact f.head_clean
  · obtain ⟨x, hx, rfl⟩ := List.mem_map.1 h
    exact f.holes_clean x hx

/-! ### Building blocks -/

/-- The fragment without text and values. -/
def empty : Fragment := ⟨[], [], by simp, by simp⟩

/-- Literal text alone. -/
def literal (t : Text) (clean : '?' ∉ t) : Fragment := ⟨t, [], clean, by simp⟩

/-- One bound value alone. -/
def hole (v : Json) : Fragment := ⟨[], [(v, [])], by simp, by simp⟩

/-- Literal text from outside, which may not hold a hole mark. -/
def literal? (t : Text) : Except CompositionError Fragment :=
  if clean : '?' ∉ t then .ok (literal t clean) else .error (.textHole t)

/-- Segments and holes of one fragment followed by those of another: the last segment of the
first and the first segment of the second become one. -/
def glue (head : Text) : List (Json × Text) → Text × List (Json × Text) →
    Text × List (Json × Text)
  | [], next => (head ++ next.1, next.2)
  | (v, t) :: rest, next =>
    let (t', rest') := glue t rest next
    (head, (v, t') :: rest')

theorem glue_clean {head : Text} {holes : List (Json × Text)} {next : Text × List (Json × Text)}
    (hh : '?' ∉ head) (hs : ∀ h ∈ holes, '?' ∉ h.2) (hn : '?' ∉ next.1)
    (hns : ∀ h ∈ next.2, '?' ∉ h.2) :
    '?' ∉ (glue head holes next).1 ∧ ∀ h ∈ (glue head holes next).2, '?' ∉ h.2 := by
  induction holes generalizing head with
  | nil => exact ⟨by simp [glue, hh, hn], hns⟩
  | cons x rest ih =>
    obtain ⟨v, t⟩ := x
    have ht := hs (v, t) List.mem_cons_self
    obtain ⟨h₁, h₂⟩ := ih ht fun h m => hs h (List.mem_cons_of_mem _ m)
    refine ⟨hh, fun h m => ?_⟩
    rcases List.mem_cons.1 m with rfl | m
    · exact h₁
    · exact h₂ h m

/-- One fragment right after another. -/
def append (f g : Fragment) : Fragment :=
  let glued := glue f.head f.holes (g.head, g.holes)
  ⟨glued.1, glued.2, (glue_clean f.head_clean f.holes_clean g.head_clean g.holes_clean).1,
    (glue_clean f.head_clean f.holes_clean g.head_clean g.holes_clean).2⟩

instance : Append Fragment := ⟨append⟩

/-- The fragments with `sep` between neighbours. -/
def join (sep : Fragment) : List Fragment → Fragment
  | [] => empty
  | [f] => f
  | f :: g :: rest => f ++ sep ++ join sep (g :: rest)

/-- The fragment with each literal segment expanded from the shorthand. -/
def expanded (f : Fragment) : Fragment where
  head := expand f.head
  holes := f.holes.map fun h => (h.1, expand h.2)
  head_clean := hole_notMem_expand f.head_clean
  holes_clean := by
    intro h m
    obtain ⟨x, hx, rfl⟩ := List.mem_map.1 m
    exact hole_notMem_expand (f.holes_clean x hx)

@[simp] theorem parts_expanded (f : Fragment) : f.expanded.parts = f.parts.map expand := by
  simp [parts, expanded, Function.comp_def]

@[simp] theorem values_expanded (f : Fragment) : f.expanded.values = f.values := by
  simp [values, expanded, Function.comp_def]

/-! ### Fragments from outside -/

/-- A fragment from its segments and values, as they are. -/
def ofParts (parts : List Text) (values : List Json) : Except CompositionError Fragment :=
  match parts with
  | [] => .error (.segmentCount 0 values.length)
  | head :: rest =>
    if rest.length ≠ values.length then
      .error (.segmentCount (rest.length + 1) values.length)
    else if clean : ∀ p ∈ head :: rest, '?' ∉ p then
      .ok ⟨head, values.zip rest, clean head List.mem_cons_self, fun _ m =>
        clean _ (List.mem_cons_of_mem _ (List.of_mem_zip m).2)⟩
    else .error (.segmentHole (((head :: rest).find? (·.contains '?')).getD []))

/-- A fragment from segments in the shorthand and their values. The segments are expanded
first, so that a complaint shows the expanded segment. -/
def ofSource (parts : List Text) (values : List Json) : Except CompositionError Fragment :=
  ofParts (parts.map expand) values

/-- A template cut at its hole marks, in the shorthand, with a value for each of them. -/
def template (t : Text) (values : List Json) : Except CompositionError Fragment :=
  let cut := Text.cut '?' t
  if cut.2.length = values.length then
    .ok ⟨cut.1, values.zip cut.2, (Text.sep_notMem_cut '?' t).1, fun _ m =>
      (Text.sep_notMem_cut '?' t).2 _ (List.of_mem_zip m).2⟩
  else .error (.templateHoles t cut.2.length values.length)

/-- The fragment of a template: each `?` takes the next value. -/
def sql (t : Text) (values : List Json) : Except CompositionError Fragment :=
  expanded <$> template t values

/-- A template makes a fragment exactly if it has one value for each hole. -/
theorem sql_eq_ok_iff {t : Text} {values : List Json} {f : Fragment} :
    sql t values = .ok f ↔ (Text.cut '?' t).2.length = values.length ∧
      f.head = expand (Text.cut '?' t).1 ∧
      f.holes = values.zip ((Text.cut '?' t).2.map expand) := by
  by_cases h : (Text.cut '?' t).2.length = values.length
  · simp only [sql, template, Functor.map, Except.map, h, if_true, true_and]
    rw [Except.ok.injEq, eq_comm, Fragment.ext_iff, List.zip_map_right]
    exact Iff.rfl
  · simp [sql, template, h, Functor.map, Except.map]

theorem exists_sql {t : Text} {values : List Json}
    (h : (Text.cut '?' t).2.length = values.length) : ∃ f, sql t values = .ok f := by
  simp [sql, template, h, Functor.map, Except.map]

/-- The segments of a fragment are decided by its template. -/
theorem parts_sql {t : Text} {values : List Json} {f : Fragment} (h : sql t values = .ok f) :
    f.parts = (Text.pieces '?' t).map expand := by
  obtain ⟨hlength, hhead, hholes⟩ := sql_eq_ok_iff.1 h
  have hle : ((Text.cut '?' t).2.map expand).length ≤ values.length :=
    Nat.le_of_eq ((List.length_map _).trans hlength)
  rw [parts, hhead, hholes, List.map_snd_zip hle]
  rfl

theorem values_sql {t : Text} {values : List Json} {f : Fragment} (h : sql t values = .ok f) :
    f.values = values := by
  obtain ⟨hlength, -, hholes⟩ := sql_eq_ok_iff.1 h
  have hle : values.length ≤ ((Text.cut '?' t).2.map expand).length :=
    Nat.le_of_eq (hlength.symm.trans (List.length_map _).symm)
  rw [Fragment.values, hholes, List.map_fst_zip hle]

/-! ### Equality -/

/-- Whether two fragments are equal as the program compares them: in their segments, and in
their values up to the kinds of equal numbers and the order of members. -/
def same (f g : Fragment) : Bool :=
  f.parts == g.parts && Json.sameItems f.values g.values

end Fragment

end DocTable.Sql
