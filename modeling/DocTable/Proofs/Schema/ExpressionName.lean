import DocTable.Sql.Schema
/-!
# DocTable.Proofs.Schema.ExpressionName

What expressions are called in the names of indexes.

The characters that are no letters cut a text into runs of letters (`Text.letterRuns`), some of
them empty; the others are its words. The name of an expression is made of nothing else: it is the
first run, which is empty if the expression does not begin with a letter, and the words behind it,
with one underscore between neighbours (`expressionName_eq_join`).

So a name can be cut into its parts again, and they tell which expressions share it: those with the
same words, as long as both or neither begin with another character. The names themselves are the
texts of letters and single underscores with none at the end (`expressionName_normal_form`).
-/

namespace DocTable

namespace Text

/-! ### Runs of letters -/

/-- The texts between the characters that are no letters. Where two of those meet, and where one of
them begins or ends the text, the run is empty. -/
def letterRuns (t : Text) : List Text :=
  t.splitOnP fun c => !isLetter c

/-- The longest runs of letters in a text. -/
def letterWords (t : Text) : List Text :=
  (letterRuns t).filter (· ≠ [])

theorem letterRuns_ne_nil (t : Text) : letterRuns t ≠ [] :=
  List.splitOnP_ne_nil _ t

theorem letterRuns_append_cons {c : Char} (hc : isLetter c = false) (s t : Text) :
    letterRuns (s ++ c :: t) = letterRuns s ++ letterRuns t := by
  rw [letterRuns, List.splitOnP_append_cons s t (by simpa using hc)]
  rfl

theorem letterRuns_break {c : Char} (hc : isLetter c = false) (t : Text) :
    letterRuns (c :: t) = [] :: letterRuns t :=
  letterRuns_append_cons hc [] t

theorem letterRuns_letter {c : Char} (hc : isLetter c = true) {t run : Text} {runs : List Text}
    (h : letterRuns t = run :: runs) : letterRuns (c :: t) = (c :: run) :: runs := by
  rw [letterRuns] at h ⊢
  simp [List.splitOnP_cons_eq_if_modifyHead, hc, h]

/-- Runs of letters have letters only. -/
theorem isLetter_of_mem_letterRuns {t run : Text} (h : run ∈ letterRuns t) :
    ∀ c ∈ run, isLetter c = true := by
  induction t generalizing run with
  | nil =>
    obtain rfl := List.mem_singleton.1 h
    exact nofun
  | cons c t ih =>
    cases hc : isLetter c with
    | true =>
      obtain ⟨first, others, hruns⟩ := List.exists_cons_of_ne_nil (letterRuns_ne_nil t)
      rw [hruns, List.forall_mem_cons] at ih
      rw [letterRuns_letter hc hruns] at h
      rcases List.mem_cons.1 h with rfl | h
      · exact List.forall_mem_cons.2 ⟨hc, ih.1⟩
      · exact ih.2 run h
    | false =>
      rw [letterRuns_break hc] at h
      rcases List.mem_cons.1 h with rfl | h
      · exact nofun
      · exact ih h

theorem letterRuns_of_isLetter {t : Text} (h : ∀ c ∈ t, isLetter c = true) :
    letterRuns t = [t] := by
  rw [letterRuns, List.splitOnP_eq_singleton]
  intro c hc
  simpa using h c hc

theorem letterWords_append_cons {c : Char} (hc : isLetter c = false) (s t : Text) :
    letterWords (s ++ c :: t) = letterWords s ++ letterWords t := by
  rw [letterWords, letterRuns_append_cons hc, List.filter_append]
  rfl

theorem letterWords_nil : letterWords [] = [] := rfl

theorem letterWords_cons {c : Char} (hc : isLetter c = false) (t : Text) :
    letterWords (c :: t) = letterWords t := by
  rw [letterWords, letterRuns_break hc]
  rfl

theorem letterWords_concat {c : Char} (hc : isLetter c = false) (t : Text) :
    letterWords (t ++ [c]) = letterWords t := by
  rw [letterWords_append_cons hc, letterWords_nil, List.append_nil]

theorem letterWords_of_isLetter {t : Text} (hne : t ≠ []) (h : ∀ c ∈ t, isLetter c = true) :
    letterWords t = [t] := by
  rw [letterWords, letterRuns_of_isLetter h]
  simp [hne]

theorem isLetter_of_mem_letterWords {t w : Text} (hw : w ∈ letterWords t) :
    w ≠ [] ∧ ∀ c ∈ w, isLetter c = true := by
  obtain ⟨hrun, hne⟩ := List.mem_filter.1 hw
  exact ⟨by simpa using hne, isLetter_of_mem_letterRuns hrun⟩

/-- Words with a separator between them are the words of the joined text. -/
theorem letterWords_join {sep : Char} (hsep : isLetter sep = false) {ts : List Text}
    (h : ∀ t ∈ ts, t ≠ [] ∧ ∀ c ∈ t, isLetter c = true) : letterWords (join [sep] ts) = ts := by
  induction ts with
  | nil => rfl
  | cons t ts ih =>
    obtain ⟨ht, hts⟩ := List.forall_mem_cons.1 h
    have hword := letterWords_of_isLetter ht.1 ht.2
    cases ts with
    | nil => exact hword
    | cons u us =>
      rw [join_cons_cons, List.append_assoc, List.singleton_append,
        letterWords_append_cons hsep, hword, ih hts]
      rfl

end Text

namespace Sql

open Text

/-! ### Names of expressions -/

theorem squeeze_cons_letter {c : Char} (hc : isLetter c = true) (run : Bool) (t : Text) :
    squeeze run (c :: t) = c :: squeeze false t := by
  rw [squeeze, if_pos hc]

theorem squeeze_true_cons {c : Char} (hc : isLetter c = false) (t : Text) :
    squeeze true (c :: t) = squeeze true t := by
  rw [squeeze, if_neg (by simp [hc]), if_pos rfl]

theorem squeeze_false_cons {c : Char} (hc : isLetter c = false) (t : Text) :
    squeeze false (c :: t) = '_' :: squeeze true t := by
  rw [squeeze, if_neg (by simp [hc]), if_neg (by simp)]

theorem dropLastUnderscore_cons {c : Char} {t : Text} (h : c ≠ '_' ∨ t ≠ []) :
    dropLastUnderscore (c :: t) = c :: dropLastUnderscore t := by
  cases t with
  | nil => simp [dropLastUnderscore, h.resolve_right (by simp)]
  | cons d t =>
    rw [dropLastUnderscore, dropLastUnderscore, List.getLast?_cons_cons]
    split
    · rfl
    · rfl

theorem ne_underscore_of_isLetter {c : Char} (hc : isLetter c = true) : c ≠ '_' := by
  rintro rfl
  exact absurd hc (by decide)

/-- An underscore behind a text is the one that the name goes without. An open run shows in nothing
at all if the text has no letter, so both states of the run are followed together. -/
theorem squeeze_concat_underscore (t : Text) :
    squeeze false (t ++ ['_']) = dropLastUnderscore (squeeze false t) ++ ['_'] ∧
      squeeze true (t ++ ['_']) =
        if squeeze true t = [] then [] else dropLastUnderscore (squeeze true t) ++ ['_'] := by
  induction t with
  | nil => exact ⟨rfl, rfl⟩
  | cons c t ih =>
    obtain ⟨hfalse, htrue⟩ := ih
    cases hc : isLetter c with
    | true =>
      simp only [List.cons_append, squeeze_cons_letter hc]
      rw [hfalse, dropLastUnderscore_cons (.inl (ne_underscore_of_isLetter hc))]
      simp
    | false =>
      simp only [List.cons_append, squeeze_false_cons hc, squeeze_true_cons hc]
      refine ⟨?_, htrue⟩
      rw [htrue]
      split
      · next hnil =>
        rw [hnil]
        rfl
      · next hne =>
        rw [dropLastUnderscore_cons (.inr hne), List.cons_append]

/-- Squeezing leaves the first run and the words behind it, with one underscore behind each; where
a run of other characters is open, an empty first run is left out as well. -/
theorem squeeze_eq_flatMap (t : Text) {first : Text} {others : List Text}
    (h : letterRuns t = first :: others) :
    squeeze false (t ++ ['_']) = (first :: others.filter (· ≠ [])).flatMap (· ++ ['_']) ∧
      squeeze true (t ++ ['_']) = (letterWords t).flatMap (· ++ ['_']) := by
  induction t generalizing first others with
  | nil =>
    cases h
    exact ⟨rfl, rfl⟩
  | cons c t ih =>
    obtain ⟨run, runs, hruns⟩ := List.exists_cons_of_ne_nil (letterRuns_ne_nil t)
    obtain ⟨hfalse, htrue⟩ := ih hruns
    cases hc : isLetter c with
    | true =>
      have hcons := letterRuns_letter hc hruns
      obtain ⟨rfl, rfl⟩ := List.cons.inj (hcons.symm.trans h)
      simp only [List.cons_append, squeeze_cons_letter hc, hfalse]
      simp [letterWords, hcons]
    | false =>
      -- The first run ends at once, and the first one of the rest counts only if it is not empty.
      obtain ⟨rfl, rfl⟩ := List.cons.inj ((letterRuns_break hc t).symm.trans h)
      simp only [List.cons_append, squeeze_false_cons hc, squeeze_true_cons hc, htrue,
        letterWords_cons hc]
      simp [letterWords]

/-- What the name of an expression is made of: its first run of letters, and the words behind it. -/
def nameParts (expr : Text) : List Text :=
  (letterRuns expr).take 1 ++ ((letterRuns expr).drop 1).filter (· ≠ [])

/-- The name of an expression has one underscore between its parts. -/
theorem expressionName_eq_join (expr : Text) :
    expressionName expr = join ['_'] (nameParts expr) := by
  obtain ⟨first, others, hruns⟩ := List.exists_cons_of_ne_nil (letterRuns_ne_nil expr)
  have hparts : nameParts expr = first :: others.filter (· ≠ []) := by
    rw [nameParts, hruns]
    rfl
  have hclosed : expressionName expr ++ ['_'] = join ['_'] (nameParts expr) ++ ['_'] := by
    rw [expressionName, ← (squeeze_concat_underscore expr).1, (squeeze_eq_flatMap expr hruns).1,
      hparts, flatMap_append_sep _ (by simp)]
  exact List.append_cancel_right hclosed

/-! ### Parts of names -/

theorem isLetter_of_mem_nameParts {expr part : Text} (h : part ∈ nameParts expr) :
    ∀ c ∈ part, isLetter c = true := by
  refine isLetter_of_mem_letterRuns (t := expr) ?_
  rcases List.mem_append.1 h with h | h
  · exact List.mem_of_mem_take h
  · exact List.mem_of_mem_drop (List.mem_filter.1 h).1

/-- Only the first part of a name may be empty. -/
theorem nameParts_eq_cons (expr : Text) :
    ∃ first others, nameParts expr = first :: others ∧ [] ∉ others := by
  obtain ⟨first, others, hruns⟩ := List.exists_cons_of_ne_nil (letterRuns_ne_nil expr)
  refine ⟨first, others.filter (· ≠ []), ?_, by simp⟩
  rw [nameParts, hruns]
  rfl

theorem pieces_expressionName (expr : Text) :
    pieces '_' (expressionName expr) = nameParts expr := by
  obtain ⟨first, others, hparts, -⟩ := nameParts_eq_cons expr
  rw [expressionName_eq_join]
  refine pieces_join (by simp [hparts]) ?_
  intro part hpart hmem
  exact ne_underscore_of_isLetter (isLetter_of_mem_nameParts hpart _ hmem) rfl

/-- Names are equal exactly if their parts are. -/
theorem expressionName_eq_iff_nameParts {expr other : Text} :
    expressionName expr = expressionName other ↔ nameParts expr = nameParts other := by
  rw [← pieces_expressionName, ← pieces_expressionName]
  exact ⟨congrArg (pieces '_'), pieces_injective⟩

/-! ### The form of names -/

/-- The form that names have: letters and single underscores, none of them at the end. -/
structure IsName (t : Text) : Prop where
  characters : ∀ c ∈ t, isLetter c = true ∨ c = '_'
  single : ¬ ['_', '_'] <:+: t
  last : t.getLast? ≠ some '_'

theorem isName_expressionName (expr : Text) : IsName (expressionName expr) := by
  obtain ⟨first, others, hparts, hnil⟩ := nameParts_eq_cons expr
  have hpieces : pieces '_' (expressionName expr) = first :: others :=
    (pieces_expressionName expr).trans hparts
  -- The pieces behind an underscore are not the first one, so none of them is empty.
  have hbehind : ∀ u v, expressionName expr = u ++ '_' :: v → [] ∉ pieces '_' v := by
    intro u v huv hmem
    rw [huv, pieces_append_sep, pieces, List.cons_append] at hpieces
    rw [← (List.cons.inj hpieces).2] at hnil
    exact hnil (List.mem_append_right _ hmem)
  constructor
  · intro c hc
    rw [expressionName_eq_join] at hc
    rcases mem_join hc with hc | ⟨part, hpart, hc⟩
    · exact .inr (List.mem_singleton.1 hc)
    · exact .inl (isLetter_of_mem_nameParts hpart c hc)
  · rintro ⟨u, v, huv⟩
    refine hbehind u ('_' :: v) (by simpa using huv.symm) ?_
    simp [pieces, cut]
  · intro hlast
    obtain ⟨u, hu⟩ := List.getLast?_eq_some_iff.1 hlast
    exact hbehind u [] hu (by simp [pieces, cut])

/-- Squeezing changes nothing where there are letters and single underscores. -/
theorem squeeze_eq_self {t : Text} (hcharacters : ∀ c ∈ t, isLetter c = true ∨ c = '_')
    (hsingle : ¬ ['_', '_'] <:+: t) : squeeze false t = t := by
  induction t with
  | nil => rfl
  | cons c t ih =>
    rw [List.forall_mem_cons] at hcharacters
    have hrest := ih hcharacters.2 fun h => hsingle (h.trans (List.suffix_cons c t).isInfix)
    rcases hcharacters.1 with hc | rfl
    · rw [squeeze_cons_letter hc, hrest]
    · rw [squeeze_false_cons (by decide)]
      -- What stands behind the underscore is a letter, so no other character is left out.
      cases t with
      | nil => rfl
      | cons d t =>
        rcases hcharacters.2 d List.mem_cons_self with hd | rfl
        · rw [squeeze_cons_letter hd] at hrest ⊢
          rw [hrest]
        · exact absurd (List.prefix_append ['_', '_'] t).isInfix hsingle

/-- The texts of that form are the names, and each of them is its own. -/
theorem expressionName_eq_self_iff {t : Text} : expressionName t = t ↔ IsName t := by
  constructor
  · intro h
    exact h ▸ isName_expressionName t
  · intro h
    rw [expressionName, squeeze_eq_self h.characters h.single, dropLastUnderscore, if_neg h.last]

/-! ### Expressions of one name -/

/-- Whether a text begins with a character that is no letter. -/
def beginsWithOther (t : Text) : Bool :=
  t.head?.any fun c => !isLetter c

/-- The parts of a name are the words of the expression. An empty one stands before them if the
expression begins with another character, and alone if there is no word. -/
theorem nameParts_eq_append (expr : Text) :
    nameParts expr =
      (if beginsWithOther expr || letterWords expr = [] then [[]] else []) ++
        letterWords expr := by
  cases expr with
  | nil => rfl
  | cons c t =>
    cases hc : isLetter c with
    | true =>
      obtain ⟨run, runs, hruns⟩ := List.exists_cons_of_ne_nil (letterRuns_ne_nil t)
      rw [nameParts, letterWords, letterRuns_letter hc hruns]
      simp [beginsWithOther, hc]
    | false =>
      rw [nameParts, letterRuns_break hc, letterWords_cons hc]
      simp [beginsWithOther, hc, letterWords]

theorem filter_nameParts (expr : Text) : (nameParts expr).filter (· ≠ []) = letterWords expr := by
  have hwords : (letterWords expr).filter (· ≠ []) = letterWords expr := by
    simp [letterWords]
  rw [nameParts_eq_append, List.filter_append, hwords]
  split
  · rfl
  · rfl

/-- What the parts of a name tell about the expression. -/
theorem nameParts_eq_iff {expr other : Text} :
    nameParts expr = nameParts other ↔
      letterWords expr = letterWords other ∧
        (letterWords expr ≠ [] → beginsWithOther expr = beginsWithOther other) := by
  constructor
  · intro h
    have hwords : letterWords expr = letterWords other := by
      rw [← filter_nameParts, h, filter_nameParts]
    refine ⟨hwords, fun hne => ?_⟩
    rw [nameParts_eq_append, nameParts_eq_append other, ← hwords] at h
    have hfront := List.append_cancel_right h
    simp only [hne, decide_false, Bool.or_false] at hfront
    revert hfront
    cases beginsWithOther expr <;> cases beginsWithOther other <;> simp
  · rintro ⟨hwords, hfront⟩
    rw [nameParts_eq_append, nameParts_eq_append other, ← hwords]
    by_cases hnil : letterWords expr = []
    · simp [hnil]
    · rw [hfront hnil]

/-- **The names of expressions.** A name has letters and single underscores only, does not end with
an underscore and is its own name. Two expressions have one name if and only if they have the same
words and, where there is a word at all, both or neither begin with another character. -/
theorem expressionName_normal_form (expr other : Text) :
    IsName (expressionName expr) ∧ expressionName (expressionName expr) = expressionName expr ∧
      (expressionName expr = expressionName other ↔
        letterWords expr = letterWords other ∧
          (letterWords expr ≠ [] → beginsWithOther expr = beginsWithOther other)) := by
  have hname := isName_expressionName expr
  refine ⟨hname, expressionName_eq_self_iff.2 hname, ?_⟩
  rw [expressionName_eq_iff_nameParts, nameParts_eq_iff]

/-- What stands before the first word shows, what stands behind the last one does not. -/
example :
    expressionName "lower(a_b)".toList = "lower_a_b".toList ∧
      expressionName "(a_9b')".toList = "_a_b".toList ∧ expressionName "'9'".toList = [] := by
  decide

end Sql

end DocTable
