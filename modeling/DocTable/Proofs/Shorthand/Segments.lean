import DocTable.Proofs.Shorthand.Reading
import DocTable.Sql.Fragment
/-!
# DocTable.Proofs.Shorthand.Segments

Templates are expanded segment by segment.

The segments of a template are expanded one by one, each as if nothing came before it and nothing
after it. Where an even number of quotes comes before each hole mark, that is what expansion of the
whole template does to them: a segment that ends at a mark begins and ends outside of literals, so
each of its literals is closed in it (`expand_append_mark`). Only the last segment may hold a quote
that opens nothing, and it has the same end as the template.
-/

namespace DocTable.Sql

namespace Shorthand

/-- Each hole mark stands outside of string literals: an even number of quotes comes before it. -/
def HolesOutside (t : Text) : Prop :=
  ∀ before after, t = before ++ holeMark :: after → Even (before.count '\'')

theorem holesOutside_iff {t : Text} : HolesOutside t ↔
    ∀ n < t.length, t[n]? = some holeMark → Even ((t.take n).count '\'') := by
  constructor
  · intro h n hn hmark
    refine h (t.take n) (t.drop (n + 1)) ?_
    rw [List.getElem?_eq_getElem hn, Option.some.injEq] at hmark
    rw [← hmark, List.getElem_cons_drop, List.take_append_drop]
  · intro h before after heq
    subst heq
    have hmark := h before.length (by simp) (by simp)
    rwa [List.take_left] at hmark

instance (t : Text) : Decidable (HolesOutside t) :=
  decidable_of_iff _ holesOutside_iff.symm

/-! ### One hole mark -/

/-- The parity of the quotes that are left, one character later. -/
theorem insideAfter_isInside_cons (c : Char) (t : Text) :
    insideAfter (isInside (c :: t)) c = isInside t := by
  by_cases h : c = '\''
  · subst h
    simp only [isInside, insideAfter, List.count_cons_self, if_true]
    by_cases hp : t.count '\'' % 2 = 1 <;> simp [hp] <;> omega
  · simp [isInside, insideAfter, h]

theorem quote_mem_of_isInside {t : Text} (h : isInside t = true) : '\'' ∈ t := by
  by_contra hnone
  simp [isInside, List.count_eq_zero_of_not_mem hnone] at h

theorem startsPath_append_mark (t rest : Text) :
    startsPath (t ++ holeMark :: rest) = startsPath t := by
  cases t with
  | nil => exact show isPathStart holeMark = false by decide
  | cons c t => rfl

theorem continuesPath_append_mark {t : Text} (h : continuesPath t = false) (rest : Text) :
    continuesPath (t ++ holeMark :: rest) = false := by
  cases t with
  | nil => exact show isPathChar holeMark = false by decide
  | cons c t => exact h

/-- A text that ends outside of literals is expanded on its own before a hole mark. Its own quotes
tell whether it begins inside of one. -/
theorem expandFrom_append_mark (u rest : Text) :
    expandFrom (isInside u) (u ++ holeMark :: rest) =
      expandFrom (isInside u) u ++ holeMark :: expandFrom false rest := by
  induction u using tokenInduction with
  | nil =>
    have hmark : ¬(holeMark = '$' ∧ startsPath rest = true) := by simp [holeMark]
    rw [List.nil_append, expandFrom_plain hmark, expandFrom_nil]
    rfl
  | token path after hp ha ih =>
    have hinside : isInside ('$' :: (path ++ after)) = isInside after := by
      simp [isInside, List.count_append, List.count_eq_zero_of_not_mem hp.quote_notMem]
    -- An odd number of quotes behind the token has one of them before the mark.
    have hkeep : ∀ t : Text, (isInside after = true ∧ '\'' ∈ after ++ t) ↔
        isInside after = true := by
      intro t
      refine and_iff_left_of_imp ?_
      intro h
      exact List.mem_append_left t (quote_mem_of_isInside h)
    have hkeep₀ := hkeep []
    rw [List.append_nil] at hkeep₀
    rw [hinside, List.cons_append, List.append_assoc,
      expandFrom_token hp (continuesPath_append_mark ha rest), expandFrom_token hp ha, ih,
      List.append_assoc]
    simp only [hkeep, hkeep₀]
  | plain c t hc ih =>
    have hmark : ¬(c = '$' ∧ startsPath (t ++ holeMark :: rest) = true) := by
      rwa [startsPath_append_mark]
    rw [List.cons_append, expandFrom_plain hmark, expandFrom_plain hc, insideAfter_isInside_cons,
      ih, List.cons_append]

theorem expand_append_mark {u : Text} (h : Even (u.count '\'')) (rest : Text) :
    expand (u ++ holeMark :: rest) = expand u ++ holeMark :: expand rest := by
  have houtside : isInside u = false := isInside_eq_false_iff.2 h
  have hmark := expandFrom_append_mark u rest
  rw [houtside] at hmark
  simp only [expand_eq_expandFrom]
  exact hmark

/-! ### All hole marks -/

/-- Behind a hole mark outside of literals the count of quotes starts again. -/
theorem HolesOutside.behind {u rest : Text} (h : HolesOutside (u ++ holeMark :: rest)) :
    HolesOutside rest := by
  intro before after hrest
  have hu : Even (u.count '\'') := h u rest rfl
  have hboth : Even ((u ++ holeMark :: before).count '\'') :=
    h (u ++ holeMark :: before) after (by simp [hrest])
  have hmark : holeMark ≠ '\'' := by decide
  rw [List.count_append, List.count_cons_of_ne hmark, Nat.even_add] at hboth
  exact hboth.1 hu

/-- The segments are expanded as they are in the whole. -/
theorem join_map_expand_pieces {t : Text} (h : HolesOutside t) :
    Text.join [holeMark] ((Text.pieces holeMark t).map expand) = expand t := by
  induction hn : t.length using Nat.strongRecOn generalizing t with
  | _ n ih =>
  by_cases hmem : holeMark ∈ t
  · obtain ⟨u, rest, rfl, hu⟩ := List.eq_append_cons_of_mem hmem
    have hlt : rest.length < n := by
      rw [List.length_append, List.length_cons] at hn
      omega
    have hrest := ih rest.length hlt h.behind rfl
    rw [Text.pieces_append_cons hu, List.map_cons, expand_append_mark (h u rest rfl), ← hrest]
    simp [Text.pieces, Text.join_cons_cons]
  · rw [Text.pieces, Text.cut_eq_self hmem]
    rfl

/-- Inside of a literal a hole makes a difference: the token behind it is kept in the whole. -/
example : Text.join [holeMark] ((Text.pieces holeMark "'? $a'".toList).map expand) ≠
    expand "'? $a'".toList := by
  decide +kernel

end Shorthand

namespace Fragment

open Shorthand (HolesOutside join_map_expand_pieces)

theorem sql_eq_error {t : Text} {values : List Json} (h : t.count holeMark ≠ values.length) :
    sql t values = .error (.templateHoles t (t.count holeMark) values.length) := by
  have hcut : (Text.cut '?' t).2.length = t.count holeMark := Text.length_cut '?' t
  rw [← hcut] at h ⊢
  rw [sql, template]
  simp [h, Functor.map, Except.map]

/-- **Templates by the count of their holes.** A template makes a fragment exactly if it has as many
hole marks as there are values, and is refused with both counts otherwise. The fragment binds the
values in order. If all holes stand outside of string literals, its text is the whole template,
expanded. -/
theorem sql_agrees_with_expand (t : Text) (values : List Json) :
    ((∃ f, sql t values = .ok f) ↔ t.count holeMark = values.length) ∧
      (t.count holeMark ≠ values.length →
        sql t values = .error (.templateHoles t (t.count holeMark) values.length)) ∧
      ∀ f, sql t values = .ok f →
        f.values = values ∧ (HolesOutside t → f.text = expand t) := by
  have hcut : (Text.cut '?' t).2.length = t.count holeMark := Text.length_cut '?' t
  refine ⟨⟨?_, ?_⟩, sql_eq_error, ?_⟩
  · intro ⟨f, hf⟩
    rw [← hcut, (sql_eq_ok_iff.1 hf).1]
  · intro hcount
    exact exists_sql (hcut.trans hcount)
  · intro f hf
    refine ⟨values_sql hf, ?_⟩
    intro houtside
    rw [text_eq_join, parts_sql hf]
    exact join_map_expand_pieces houtside

/-- A literal with a doubled quote before the hole, and a quote that opens nothing behind it. -/
theorem sql_agrees_with_expand_quotes :
    ∃ f, sql "$a = 'it''s $b' and $c > ? and '$d".toList [.int 1] = .ok f ∧
      f.values = [.int 1] ∧
      f.text = "data->>'$.a' = 'it''s $b' and data->>'$.c' > ? and 'data->>'$.d'".toList := by
  obtain ⟨hok, -, hall⟩ :=
    sql_agrees_with_expand "$a = 'it''s $b' and $c > ? and '$d".toList [.int 1]
  obtain ⟨f, hf⟩ := hok.2 (by decide)
  obtain ⟨hvalues, htext⟩ := hall f hf
  have houtside : HolesOutside "$a = 'it''s $b' and $c > ? and '$d".toList := by decide
  refine ⟨f, hf, hvalues, ?_⟩
  rw [htext houtside]
  decide +kernel

end Fragment

end DocTable.Sql
