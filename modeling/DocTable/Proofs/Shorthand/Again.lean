import DocTable.Proofs.Shorthand.Reading
import DocTable.Sql.Clause
/-!
# DocTable.Proofs.Shorthand.Again

Expanding a text that has been expanded before.

An extraction holds no token of its own, so a second expansion finds only tokens that the first
one left alone, and leaves them alone again. The exception is a dollar sign right before a token:
once the token has become `data->>…`, the dollar sign and the word `data` are a token. It is
expanded unless quotes stand on both sides of it, and one stands behind it by then, so it is
expanded exactly if an even number of quotes came before (`expandFrom_expandFrom_iff`).
`expand_expand_iff` states this for texts, and for fragments that are embedded into others.
-/

namespace DocTable.Sql.Shorthand

/-! ### Dollar signs before tokens -/

/-- Whether a text begins with a token. -/
def startsToken : Text → Bool
  | [] => false
  | c :: rest => c == '$' && startsPath rest

/-- A dollar sign right before a token, outside literals. -/
def HasLooseDollar (t : Text) : Prop :=
  ∃ before after, t = before ++ '$' :: after ∧ startsToken after = true ∧
    Even (before.count '\'')

/-- `HasLooseDollar` from the left, where `inside` says that an odd number of quotes came before. -/
def LooseFrom (inside : Bool) : Text → Prop
  | [] => False
  | c :: rest =>
    (c = '$' ∧ startsToken rest = true ∧ inside = false) ∨ LooseFrom (insideAfter inside c) rest

theorem looseFrom_iff (u t : Text) :
    LooseFrom (isInside u) t ↔ ∃ before after, t = before ++ '$' :: after ∧
      startsToken after = true ∧ Even ((u ++ before).count '\'') := by
  induction t generalizing u with
  | nil => simp [LooseFrom]
  | cons c rest ih =>
    rw [LooseFrom, ← isInside_append_singleton, ih (u ++ [c])]
    constructor
    · rintro (⟨rfl, hs, hu⟩ | ⟨before, after, rfl, hs, he⟩)
      · exact ⟨[], rest, rfl, hs, by rwa [List.append_nil, ← isInside_eq_false_iff]⟩
      · exact ⟨c :: before, after, rfl, hs, by simpa using he⟩
    · rintro ⟨before, after, h, hs, he⟩
      cases before with
      | nil =>
        rw [List.nil_append, List.cons.injEq] at h
        rw [List.append_nil, ← isInside_eq_false_iff] at he
        exact .inl ⟨h.1, h.2 ▸ hs, he⟩
      | cons d before =>
        rw [List.cons_append, List.cons.injEq] at h
        obtain ⟨rfl, rfl⟩ := h
        exact .inr ⟨before, after, rfl, hs, by simpa using he⟩

theorem hasLooseDollar_iff (t : Text) : HasLooseDollar t ↔ LooseFrom false t :=
  (looseFrom_iff [] t).symm

theorem HasLooseDollar.infix {t : Text} (h : HasLooseDollar t) : "$$".toList <:+: t := by
  obtain ⟨before, after, rfl, htoken, -⟩ := h
  cases after with
  | nil => cases htoken
  | cons c rest =>
    obtain ⟨rfl, -⟩ : c = '$' ∧ startsPath rest = true := by simpa [startsToken] using htoken
    exact ⟨before, rest, by simp⟩

instance decidableLooseFrom (inside : Bool) : (t : Text) → Decidable (LooseFrom inside t)
  | [] => .isFalse id
  | c :: rest =>
    have := decidableLooseFrom (insideAfter inside c) rest
    inferInstanceAs (Decidable (_ ∨ _))

instance (t : Text) : Decidable (HasLooseDollar t) :=
  decidable_of_iff _ (hasLooseDollar_iff t).symm

/-- Paths hold no dollar signs and no quotes. -/
theorem looseFrom_path {u : Text} (hd : '$' ∉ u) (hq : '\'' ∉ u) (inside : Bool) (t : Text) :
    LooseFrom inside (u ++ t) ↔ LooseFrom inside t := by
  induction u with
  | nil => rfl
  | cons c rest ih =>
    rw [List.mem_cons, not_or] at hd hq
    rw [List.cons_append, LooseFrom, insideAfter, if_neg (Ne.symm hq.1), ih hd.2 hq.2]
    exact or_iff_right fun h => hd.1 h.1.symm

/-- The dollar sign of a token stands before a path, not before another token. -/
theorem looseFrom_token {path : Text} (h : IsPath path) (inside : Bool) (t : Text) :
    LooseFrom inside ('$' :: (path ++ t)) ↔ LooseFrom inside t := by
  have hstart : startsToken (path ++ t) = false := by
    cases path with
    | nil => exact absurd h.starts (by simp [startsPath])
    | cons c rest =>
      have hc : c ≠ '$' := fun e => h.dollar_notMem (e ▸ List.mem_cons_self)
      simp [startsToken, hc]
  rw [LooseFrom, hstart, insideAfter, if_neg (by decide),
    looseFrom_path h.dollar_notMem h.quote_notMem]
  simp

/-! ### What the first expansion leaves -/

variable {inside : Bool}

theorem quote_mem_extract (path : Text) : '\'' ∈ extract path := by
  simp [extract]

/-- No quote is lost. -/
theorem quote_mem_expandFrom {t : Text} (h : '\'' ∈ t) : '\'' ∈ expandFrom inside t := by
  induction t using tokenInduction generalizing inside with
  | nil => exact absurd h List.not_mem_nil
  | token path after hp ha ih =>
    have hafter : '\'' ∈ after := by simpa [hp.quote_notMem] using h
    rw [expandFrom_token hp ha]
    exact List.mem_append_right _ (ih hafter)
  | plain c t hc ih =>
    rw [expandFrom_plain hc]
    rcases List.mem_cons.1 h with rfl | h
    · exact List.mem_cons_self
    · exact List.mem_cons_of_mem _ (ih h)

/-- An extraction holds no token. -/
theorem expandFrom_extract {path : Text} (h : IsPath path) (t : Text) :
    expandFrom inside (extract path ++ t) = extract path ++ expandFrom inside t := by
  have hdot : '\'' ∉ '.' :: path ∧ '$' ∉ '.' :: path := by
    simp [h.quote_notMem, h.dollar_notMem]
  calc expandFrom inside (extract path ++ t)
      = expandFrom inside ("data->>".toList ++ '\'' :: '$' :: (('.' :: path) ++ '\'' :: t)) := by
        simp [extract, dataColumn]
    _ = "data->>".toList ++ '\'' :: '$' :: (('.' :: path) ++ '\'' :: expandFrom inside t) := by
        rw [expandFrom_append (by decide) (by decide), expandFrom_quote,
          expandFrom_plain (by simp [startsPath, isPathStart, Text.isLetter]), insideAfter,
          if_neg (by decide), expandFrom_append hdot.1 hdot.2, expandFrom_quote, Bool.not_not]
    _ = extract path ++ expandFrom inside t := by simp [extract, dataColumn]

/-- Where neither a path nor a token begins, no path begins after expansion. -/
theorem startsPath_expandFrom {t : Text} (hp : startsPath t = false)
    (ht : startsToken t = false) : startsPath (expandFrom inside t) = false := by
  cases t with
  | nil => simpa using hp
  | cons c rest =>
    rw [expandFrom_plain (by simpa [startsToken] using ht)]
    exact hp

/-- Where a token begins, a quote comes out: an extraction has quotes, and a token is kept only
before one. -/
theorem quote_mem_expandFrom_token {path after : Text} (hp : IsPath path)
    (ha : continuesPath after = false) : '\'' ∈ expandFrom inside ('$' :: (path ++ after)) := by
  rw [expandFrom_token hp ha]
  split
  · next hkeep => exact List.mem_append_right _ (quote_mem_expandFrom hkeep.2)
  · exact List.mem_append_left _ (quote_mem_extract path)

theorem isPath_dataColumn : IsPath dataColumn where
  starts := rfl
  chars := List.all_eq_true.1 rfl

/-! ### The second expansion -/

/-- A dollar sign that is copied by the first pass is copied by the second one, unless it stands
loose. -/
theorem expandFrom_dollar_iff {t : Text} (hp : startsPath t = false) (inside : Bool) :
    expandFrom inside ('$' :: expandFrom inside t) = '$' :: expandFrom inside t ↔
      ¬(startsToken t = true ∧ inside = false) ∧
        expandFrom inside (expandFrom inside t) = expandFrom inside t := by
  have hdollar : insideAfter inside '$' = inside := rfl
  cases ht : startsToken t with
  | false =>
    rw [expandFrom_plain (by simp [startsPath_expandFrom hp ht]), hdollar, List.cons.injEq]
    simp
  | true =>
    cases t with
    | nil => exact absurd ht (by simp [startsToken])
    | cons c rest =>
      obtain ⟨rfl, hs⟩ : c = '$' ∧ startsPath rest = true := by simpa [startsToken] using ht
      obtain ⟨path, after, hpath, ha, rfl⟩ := exists_path hs
      cases inside with
      | true =>
        rw [expandFrom_inside _ (quote_mem_expandFrom_token hpath ha), hdollar, List.cons.injEq]
        simp
      | false =>
        -- The dollar sign and the word `data` behind it are a token now.
        have hfirst : expandFrom false ('$' :: (path ++ after)) =
            dataColumn ++ ("->>'$.".toList ++ path ++ ['\''] ++ expandFrom false after) := by
          rw [expandFrom_token hpath ha, if_neg (by simp)]
          simp [extract]
        have hagain : expandFrom false ('$' :: expandFrom false ('$' :: (path ++ after))) =
            extract dataColumn ++ expandFrom false
              ("->>'$.".toList ++ path ++ ['\''] ++ expandFrom false after) := by
          rw [hfirst, expandFrom_token isPath_dataColumn (by simp [continuesPath]; decide),
            if_neg (by simp)]
        rw [hagain]
        simp [extract, dataColumn]

/-- A second pass changes nothing exactly if no dollar sign stands loose. -/
theorem expandFrom_expandFrom_iff (t : Text) (inside : Bool) :
    expandFrom inside (expandFrom inside t) = expandFrom inside t ↔ ¬LooseFrom inside t := by
  induction t using tokenInduction generalizing inside with
  | nil => simp [LooseFrom]
  | token path after hp ha ih =>
    rw [looseFrom_token hp, ← ih, expandFrom_token hp ha]
    split
    · next hkeep =>
      obtain ⟨rfl, hq⟩ := hkeep
      have hq' : '\'' ∈ path ++ expandFrom true after :=
        List.mem_append_right _ (quote_mem_expandFrom hq)
      have hdollar : insideAfter true '$' = true := rfl
      rw [List.cons_append, expandFrom_inside _ hq', hdollar, hp.expandFrom_append,
        List.cons.injEq, List.append_cancel_left_eq]
      simp
    · rw [expandFrom_extract hp, List.append_cancel_left_eq]
  | plain c t hc ih =>
    rw [expandFrom_plain hc, LooseFrom, not_or, ← ih]
    by_cases hd : c = '$'
    · subst hd
      have hdollar : insideAfter inside '$' = inside := rfl
      rw [hdollar, expandFrom_dollar_iff (by simpa using hc)]
      simp
    · rw [expandFrom_plain fun h => hd h.1, List.cons.injEq]
      simp [hd]

theorem expand_expand_eq_iff (t : Text) : expand (expand t) = expand t ↔ ¬HasLooseDollar t := by
  rw [expand_eq_expandFrom, expand_eq_expandFrom, expandFrom_expandFrom_iff, hasLooseDollar_iff]

/-! ### Embedded fragments -/

theorem expand_where (t : Text) : expand ("where ".toList ++ t) = "where ".toList ++ expand t := by
  rw [expand_eq_expandFrom, expand_eq_expandFrom, expandFrom_append (by decide) (by decide)]

/-- The segments behind holes stay, if each of them stays. -/
theorem zip_map_expand_iff {values : List Json} {others : List Text}
    (hlen : others.length = values.length) :
    values.zip ((others.map expand).map expand) = values.zip (others.map expand) ↔
      ∀ p ∈ others, expand (expand p) = expand p := by
  constructor
  · intro h
    have hsnd := congrArg (List.map Prod.snd) h
    rw [List.map_snd_zip (by simp [hlen]), List.map_snd_zip (by simp [hlen]), List.map_map,
      List.map_inj_left] at hsnd
    exact hsnd
  · intro h
    have hmap : (others.map expand).map expand = others.map expand := by
      rw [List.map_map]
      exact List.map_congr_left h
    rw [hmap]

/-- A clause that selects by a template is the template with the keyword before it, unless a
segment of the template changes when it is expanded again. -/
theorem selecting_sql_iff {t : Text} {values : List Json} {f g : Fragment}
    (hf : Fragment.sql t values = .ok f) (hg : Fragment.sql ("where ".toList ++ t) values = .ok g) :
    selecting f = g ↔ ∀ p ∈ Text.pieces '?' t, expand (expand p) = expand p := by
  obtain ⟨hlen, hhead, hholes⟩ := Fragment.sql_eq_ok_iff.1 hf
  obtain ⟨-, hhead', hholes'⟩ := Fragment.sql_eq_ok_iff.1 hg
  rw [Text.cut_append (by decide)] at hhead' hholes'
  have hclause : (selecting f).head = "where ".toList ++ expand (expand (Text.cut '?' t).1) ∧
      (selecting f).holes =
        values.zip (((Text.cut '?' t).2.map expand).map expand) := by
    constructor
    · rw [← expand_where, ← hhead]
      rfl
    · rw [List.zip_map_right, ← hholes]
      rfl
  rw [Fragment.ext_iff, hclause.1, hclause.2, hhead', hholes', expand_where,
    List.append_cancel_left_eq, zip_map_expand_iff hlen]
  simp [Text.pieces]

/-- **Expansion is idempotent except at loose dollar signs.** A text that has been expanded stays
as it is when it is expanded again exactly if it had no dollar sign right before a token with an
even number of quotes before it. So embedding the fragment of a template into a clause changes
nothing exactly if no segment of the template has one. -/
theorem expand_expand_iff (t : Text) :
    (expand (expand t) = expand t ↔ ¬HasLooseDollar t) ∧
      ∀ values f, Fragment.sql t values = .ok f →
        ∃ g, Fragment.sql ("where ".toList ++ t) values = .ok g ∧
          (selecting f = g ↔ ∀ p ∈ Text.pieces holeMark t, ¬HasLooseDollar p) := by
  refine ⟨expand_expand_eq_iff t, fun values f hf => ?_⟩
  have hlen : (Text.cut '?' ("where ".toList ++ t)).2.length = values.length := by
    rw [Text.cut_append (by decide)]
    exact (Fragment.sql_eq_ok_iff.1 hf).1
  obtain ⟨g, hg⟩ := Fragment.exists_sql hlen
  refine ⟨g, hg, ?_⟩
  rw [selecting_sql_iff hf hg]
  exact forall₂_congr fun p _ => expand_expand_eq_iff p

theorem selecting_sql_age :
    ∃ f g, Fragment.sql "$age > ?".toList [.int 42] = .ok f ∧
      Fragment.sql "where $age > ?".toList [.int 42] = .ok g ∧ selecting f = g := by
  obtain ⟨f, hf⟩ : ∃ f, Fragment.sql "$age > ?".toList [.int 42] = .ok f :=
    Fragment.exists_sql (by decide)
  obtain ⟨g, hg, h⟩ := (expand_expand_iff _).2 _ f hf
  exact ⟨f, g, hf, hg, h.2 (by decide)⟩

/-- Behind a loose dollar sign `data` becomes a path, in a text and in an embedded fragment. -/
theorem expand_expand_loose_dollar :
    expand (expand "$$a".toList) ≠ expand "$$a".toList ∧
      ∃ f g, Fragment.sql "$$a".toList [] = .ok f ∧
        Fragment.sql "where $$a".toList [] = .ok g ∧ selecting f ≠ g := by
  have hne : expand (expand "$$a".toList) ≠ expand "$$a".toList := fun h =>
    (expand_expand_eq_iff _).1 h (by decide)
  obtain ⟨f, hf⟩ : ∃ f, Fragment.sql "$$a".toList [] = .ok f := Fragment.exists_sql (by decide)
  obtain ⟨g, hg⟩ : ∃ g, Fragment.sql "where $$a".toList [] = .ok g :=
    Fragment.exists_sql (by decide)
  refine ⟨hne, f, g, hf, hg, fun h => hne ?_⟩
  exact (selecting_sql_iff hf hg).1 h _ (by decide)

end DocTable.Sql.Shorthand
