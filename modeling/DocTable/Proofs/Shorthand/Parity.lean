import DocTable.Sql.Shorthand
/-!
# DocTable.Proofs.Shorthand.Parity

Expansion by counting quotes.

The search of `expand` backtracks over string literals. `expandFrom` is one pass instead: it
carries whether an odd number of quotes has come before, and leaves a token as it is where that
is so and another quote follows. `expand_eq_expandFrom` says that the two agree on every text.

The search finds a literal at a quote exactly if another quote follows (`splits_literal_ne_nil`).
Whichever closing quote it settles on, the pass copies what it took (`expandFrom_literal`), so the
order of preference among matches is never looked into.
-/

namespace DocTable.Sql.Shorthand

/-! ### Paths and what follows them -/

/-- Whether a text begins with the path of a token. -/
def startsPath (t : Text) : Bool :=
  t.head?.any isPathStart

/-- Whether a text would continue a path that stands before it. -/
def continuesPath (t : Text) : Bool :=
  t.head?.any isPathChar

/-- The path of a token. -/
structure IsPath (path : Text) : Prop where
  starts : startsPath path = true
  chars : ∀ c ∈ path, isPathChar c = true

theorem isPathChar_of_isPathStart {c : Char} (h : isPathStart c = true) : isPathChar c = true := by
  simp [isPathChar, h]

theorem isPathChar_quote : isPathChar '\'' = false := by decide

theorem isPathChar_dollar : isPathChar '$' = false := by decide

namespace IsPath

variable {path : Text}

theorem notMem_of_not_isPathChar (h : IsPath path) {c : Char} (hc : isPathChar c = false) :
    c ∉ path := fun m => by
  rw [h.chars c m] at hc
  exact absurd hc (by simp)

theorem quote_notMem (h : IsPath path) : '\'' ∉ path :=
  h.notMem_of_not_isPathChar isPathChar_quote

theorem dollar_notMem (h : IsPath path) : '$' ∉ path :=
  h.notMem_of_not_isPathChar isPathChar_dollar

theorem startsPath_append (h : IsPath path) (t : Text) : startsPath (path ++ t) = true := by
  cases path with
  | nil => exact absurd h.starts (by simp [startsPath])
  | cons c rest => exact h.starts

theorem takeWhile_append (h : IsPath path) {after : Text} (ha : continuesPath after = false) :
    (path ++ after).takeWhile isPathChar = path := by
  rw [List.takeWhile_append_of_pos h.chars]
  cases after with
  | nil => simp
  | cons c rest => simp_all [continuesPath]

theorem dropWhile_append (h : IsPath path) {after : Text} (ha : continuesPath after = false) :
    (path ++ after).dropWhile isPathChar = after := by
  rw [List.dropWhile_append_of_pos h.chars]
  cases after with
  | nil => rfl
  | cons c rest => simp_all [continuesPath]

end IsPath

/-- Where a path begins, the longest one is followed by something else. -/
theorem exists_path {t : Text} (h : startsPath t = true) :
    ∃ path after, IsPath path ∧ continuesPath after = false ∧ t = path ++ after := by
  refine ⟨t.takeWhile isPathChar, t.dropWhile isPathChar, ⟨?_, ?_⟩, ?_,
    List.takeWhile_append_dropWhile.symm⟩
  · cases t with
    | nil => exact absurd h (by simp [startsPath])
    | cons c rest =>
      have hc : isPathStart c = true := h
      simpa [List.takeWhile_cons, isPathChar_of_isPathStart hc, startsPath] using hc
  · exact fun c hc => List.all_eq_true.1 List.all_takeWhile c hc
  · cases hd : t.dropWhile isPathChar with
    | nil => rfl
    | cons c rest =>
      have hne : t.dropWhile isPathChar ≠ [] := by simp [hd]
      have := List.head_dropWhile_not isPathChar hne
      simpa [continuesPath, hd] using this

/-- Texts by their tokens: a text is empty, begins with a token, or begins with a character at
which no token does. -/
@[elab_as_elim]
theorem tokenInduction {motive : Text → Prop} (nil : motive [])
    (token : ∀ path after, IsPath path → continuesPath after = false → motive after →
      motive ('$' :: (path ++ after)))
    (plain : ∀ c t, ¬(c = '$' ∧ startsPath t = true) → motive t → motive (c :: t)) (t : Text) :
    motive t := by
  induction hn : t.length using Nat.strongRecOn generalizing t with
  | _ n ih =>
  cases t with
  | nil => exact nil
  | cons c rest =>
    rw [List.length_cons] at hn
    by_cases hc : c = '$' ∧ startsPath rest = true
    · obtain ⟨rfl, hs⟩ := hc
      obtain ⟨path, after, hp, ha, rfl⟩ := exists_path hs
      rw [List.length_append] at hn
      exact token path after hp ha (ih after.length (by omega) after rfl)
    · exact plain c rest hc (ih rest.length (by omega) rest rfl)

/-! ### One pass -/

/-- Whether an odd number of quotes has come before, one character later. -/
def insideAfter (inside : Bool) (c : Char) : Bool :=
  if c = '\'' then !inside else inside

/-- Expand a text before which an odd number of quotes came, if `inside`, or else an even one. -/
def expandFrom (inside : Bool) : Text → Text
  | [] => []
  | c :: rest =>
    if c = '$' ∧ startsPath rest = true then
      let path := rest.takeWhile isPathChar
      let after := rest.dropWhile isPathChar
      (if inside = true ∧ '\'' ∈ after then '$' :: path else extract path)
        ++ expandFrom inside after
    else c :: expandFrom (insideAfter inside c) rest
  termination_by t => t.length
  decreasing_by
    · exact Nat.lt_succ_of_le (List.dropWhile_suffix _).length_le
    · simp

variable {inside : Bool}

@[simp] theorem expandFrom_nil : expandFrom inside [] = [] := by
  rw [expandFrom]

/-- A character at which no token begins is copied. -/
theorem expandFrom_plain {c : Char} {t : Text} (h : ¬(c = '$' ∧ startsPath t = true)) :
    expandFrom inside (c :: t) = c :: expandFrom (insideAfter inside c) t := by
  rw [expandFrom, if_neg h]

theorem expandFrom_quote (t : Text) :
    expandFrom inside ('\'' :: t) = '\'' :: expandFrom (!inside) t :=
  expandFrom_plain (by simp)

/-- A token is expanded, unless quotes stand on both sides. -/
theorem expandFrom_token {path after : Text} (hp : IsPath path)
    (ha : continuesPath after = false) :
    expandFrom inside ('$' :: (path ++ after)) =
      (if inside = true ∧ '\'' ∈ after then '$' :: path else extract path)
        ++ expandFrom inside after := by
  rw [expandFrom, if_pos ⟨rfl, hp.startsPath_append after⟩]
  simp only [hp.takeWhile_append ha, hp.dropWhile_append ha]

/-- Text without quotes and dollar signs is copied. -/
theorem expandFrom_append {u : Text} (hq : '\'' ∉ u) (hd : '$' ∉ u) (t : Text) :
    expandFrom inside (u ++ t) = u ++ expandFrom inside t := by
  induction u with
  | nil => rfl
  | cons c rest ih =>
    rw [List.mem_cons, not_or] at hq hd
    rw [List.cons_append, expandFrom_plain fun h => hd.1 h.1.symm, insideAfter,
      if_neg (Ne.symm hq.1), ih hq.2 hd.2]
    rfl

theorem IsPath.expandFrom_append {path : Text} (h : IsPath path) (t : Text) :
    expandFrom inside (path ++ t) = path ++ expandFrom inside t :=
  Shorthand.expandFrom_append h.quote_notMem h.dollar_notMem t

/-- With quotes on both sides every character is copied, those of tokens included. -/
theorem expandFrom_inside {t : Text} (c : Char) (h : '\'' ∈ t) :
    expandFrom true (c :: t) = c :: expandFrom (insideAfter true c) t := by
  by_cases hc : c = '$' ∧ startsPath t = true
  · obtain ⟨rfl, ht⟩ := hc
    obtain ⟨path, after, hp, ha, rfl⟩ := exists_path ht
    have hq : '\'' ∈ after := (List.mem_append.1 h).resolve_left hp.quote_notMem
    rw [expandFrom_token hp ha, if_pos ⟨rfl, hq⟩, insideAfter, if_neg (by decide),
      hp.expandFrom_append]
    rfl
  · exact expandFrom_plain hc

/-! ### Literals -/

theorem splits_quote_cons (t : Text) : quote.splits ('\'' :: t) = [(['\''], t)] := rfl

theorem eq_quote_of_mem_splits {t : Text} {s : Text × Text} (h : s ∈ quote.splits t) :
    s.1 = ['\''] := by
  cases t with
  | nil => simp [quote, Pattern.splits] at h
  | cons c rest =>
    simp only [quote, Pattern.splits] at h
    split at h
    · next hc => rw [List.mem_singleton.1 h, eq_of_beq hc]
    · simp at h

/-- A round inside a literal is one character that is no quote, or two quotes. -/
theorem eq_of_mem_splits_literalChar {t : Text} {s : Text × Text}
    (h : s ∈ literalChar.splits t) :
    (∃ c, c ≠ '\'' ∧ s.1 = [c]) ∨ s.1 = ['\'', '\''] := by
  rcases List.mem_append.1 h with h | h
  · refine .inl ?_
    cases t with
    | nil => simp [Pattern.splits] at h
    | cons c rest =>
      simp only [Pattern.splits] at h
      split at h
      · next hc => exact ⟨c, by simpa using hc, by rw [List.mem_singleton.1 h]⟩
      · simp at h
  · refine .inr ?_
    obtain ⟨a, ha, h⟩ := List.mem_flatMap.1 h
    obtain ⟨b, hb, rfl⟩ := List.mem_map.1 h
    rw [eq_quote_of_mem_splits ha, eq_quote_of_mem_splits hb]
    rfl

/-- Inside a literal everything is copied up to a quote that follows. -/
theorem expandFrom_literalChars {t : Text} {s : Text × Text}
    (h : s ∈ (Pattern.many literalChar).splits t) :
    ∀ rest, '\'' ∈ rest → expandFrom true (s.1 ++ rest) = s.1 ++ expandFrom true rest := by
  refine Pattern.rounds_induction
    (motive := fun m => ∀ rest, '\'' ∈ rest →
      expandFrom true (m ++ rest) = m ++ expandFrom true rest) (fun _ _ => rfl) ?_ h
  intro t s hs m ih rest hrest
  have hm : '\'' ∈ m ++ rest := List.mem_append_right _ hrest
  rcases eq_of_mem_splits_literalChar hs with ⟨c, hc, hsc⟩ | hsc
  · rw [hsc, List.append_assoc, List.singleton_append, expandFrom_inside c hm, insideAfter,
      if_neg hc, ih rest hrest]
    rfl
  · rw [hsc, List.append_assoc]
    change expandFrom true ('\'' :: '\'' :: (m ++ rest)) = _
    rw [expandFrom_quote, expandFrom_quote, Bool.not_not, ih rest hrest]
    rfl

/-- A literal is copied as a whole. -/
theorem expandFrom_literal {t : Text} {s : Text × Text} (h : s ∈ literal.splits t) :
    ∃ body, s.1 = '\'' :: body ∧ expandFrom false t = s.1 ++ expandFrom false s.2 := by
  have happ := Pattern.append_of_mem_splits h
  obtain ⟨a, ha, h⟩ := List.mem_flatMap.1 h
  obtain ⟨b, hb, rfl⟩ := List.mem_map.1 h
  obtain ⟨m, hm, hb⟩ := List.mem_flatMap.1 hb
  obtain ⟨z, hz, rfl⟩ := List.mem_map.1 hb
  refine ⟨m.1 ++ z.1, by rw [eq_quote_of_mem_splits ha]; rfl, ?_⟩
  rw [← happ, eq_quote_of_mem_splits ha, eq_quote_of_mem_splits hz]
  simp only [List.cons_append, List.nil_append, List.append_assoc]
  rw [expandFrom_quote, Bool.not_false, expandFrom_literalChars hm _ List.mem_cons_self,
    expandFrom_quote, Bool.not_true]

/-- Rounds may stop before the first quote. -/
theorem mem_splits_literalChars {u : Text} (h : '\'' ∉ u) (rest : Text) :
    (u, rest) ∈ (Pattern.many literalChar).splits (u ++ rest) := by
  induction u with
  | nil =>
    rw [Pattern.splits, Pattern.repeated]
    simp
  | cons c u ih =>
    rw [List.mem_cons, not_or] at h
    rw [Pattern.splits, Pattern.repeated, List.mem_append]
    refine .inl (List.mem_flatMap.2 ⟨([c], u ++ rest), ?_, ?_⟩)
    · simp [literalChar, Pattern.splits, Ne.symm h.1]
    · rw [if_pos (by simp)]
      exact List.mem_map.2 ⟨(u, rest), ih h.2, rfl⟩

/-- Where a quote follows a quote, there is a literal. -/
theorem splits_literal_ne_nil {t : Text} (h : '\'' ∈ t) : literal.splits ('\'' :: t) ≠ [] := by
  obtain ⟨u, v, rfl, hu⟩ := List.eq_append_cons_of_mem h
  refine List.ne_nil_of_mem (a := ('\'' :: (u ++ ['\'']), v)) ?_
  refine List.mem_flatMap.2 ⟨(['\''], u ++ '\'' :: v), by simp [splits_quote_cons], ?_⟩
  refine List.mem_map.2 ⟨(u ++ ['\''], v),
    List.mem_flatMap.2 ⟨_, mem_splits_literalChars hu _, ?_⟩, rfl⟩
  simp [splits_quote_cons]

/-! ### The search agrees with the pass -/

theorem splits_token_quote (t : Text) : token.splits ('\'' :: t) = [] := rfl

theorem splits_literal_of_ne_quote {c : Char} (h : c ≠ '\'') (t : Text) :
    literal.splits (c :: t) = [] := by
  simp [literal, quote, Pattern.splits, h]

/-- The search finds a token where one begins, and takes all of its path. -/
theorem first?_token {path after : Text} (hp : IsPath path) (ha : continuesPath after = false) :
    pattern.first? ('$' :: (path ++ after)) = some ('$' :: path, after) := by
  obtain ⟨hs, hc⟩ := hp
  cases path with
  | nil => exact absurd hs (by simp [startsPath])
  | cons c rest =>
    have hstart : isPathStart c = true := hs
    have hdollar : (Pattern.one (· == '$')).splits ('$' :: c :: (rest ++ after)) =
        [(['$'], c :: (rest ++ after))] := rfl
    have hhead : (Pattern.one isPathStart).splits (c :: (rest ++ after)) =
        [([c], rest ++ after)] := by
      simp [Pattern.splits, hstart]
    have hrest : ∀ x ∈ rest, isPathChar x = true := fun x hx => hc x (List.mem_cons_of_mem _ hx)
    have hend : after.takeWhile isPathChar = [] ∧ after.dropWhile isPathChar = after := by
      cases after with
      | nil => simp
      | cons d more => simp_all [continuesPath]
    have hfirst : token.first? ('$' :: c :: (rest ++ after)) = some ('$' :: c :: rest, after) := by
      rw [token, Pattern.first?_seq hdollar, Pattern.first?_seq hhead, Pattern.first?_many_one,
        List.takeWhile_append_of_pos hrest, List.dropWhile_append_of_pos hrest, hend.1, hend.2]
      simp
    rw [pattern, Pattern.first?, Pattern.splits, List.cons_append,
      splits_literal_of_ne_quote (by decide), List.nil_append]
    exact hfirst

/-- Elsewhere the search finds nothing, unless there is a literal. -/
theorem first?_plain {c : Char} {t : Text} (hc : c ≠ '\'')
    (h : ¬(c = '$' ∧ startsPath t = true)) : pattern.first? (c :: t) = none := by
  have htoken : token.splits (c :: t) = [] := by
    by_cases hd : c = '$'
    · have hs : startsPath t = false := by simpa [hd] using h
      cases t with
      | nil => simp [token, Pattern.splits, hd]
      | cons d rest =>
        have hd' : isPathStart d = false := hs
        simp [token, Pattern.splits, hd, hd']
    · simp [token, Pattern.splits, hd]
  rw [pattern, Pattern.first?, Pattern.splits, splits_literal_of_ne_quote hc, htoken]
  rfl

/-- At a quote only a literal can be found. -/
theorem first?_quote (t : Text) : pattern.first? ('\'' :: t) = literal.first? ('\'' :: t) := by
  rw [pattern, Pattern.first?, Pattern.splits, splits_token_quote, List.append_nil]
  rfl

/-- Behind the last quote, and wherever an even number of quotes came before, the search goes on
as the pass does. -/
theorem substitute_eq_expandFrom (t : Text) {inside : Bool} (h : inside = true → '\'' ∉ t) :
    pattern.substitute replacement t = expandFrom inside t := by
  induction hn : t.length using Nat.strongRecOn generalizing t inside with
  | _ n ih =>
  cases t with
  | nil => rw [Pattern.substitute_nil rfl, expandFrom_nil]
  | cons c rest =>
    rw [List.length_cons] at hn
    by_cases hc : c = '\''
    · subst hc
      have hout : inside = false := by
        cases inside with
        | false => rfl
        | true => exact absurd List.mem_cons_self (h rfl)
      subst hout
      cases hfirst : pattern.first? ('\'' :: rest) with
      | none =>
        -- No literal is found, so no quote follows and this one is an ordinary character.
        have hnone : '\'' ∉ rest := fun hq =>
          splits_literal_ne_nil hq (Pattern.first?_eq_none (first?_quote rest ▸ hfirst))
        rw [Pattern.substitute_none hfirst, expandFrom_quote,
          ih rest.length (by omega) rest (fun _ => hnone) rfl, Bool.not_false]
      | some found =>
        have hmem : found ∈ literal.splits ('\'' :: rest) :=
          Pattern.mem_of_first? (first?_quote rest ▸ hfirst)
        obtain ⟨body, hbody, hcopy⟩ := expandFrom_literal hmem
        have hlen : found.1.length + found.2.length = rest.length + 1 := by
          rw [← List.length_append, Pattern.append_of_mem_splits hmem, List.length_cons]
        rw [hbody, List.length_cons] at hlen
        have hfound : found = ('\'' :: body, found.2) := by rw [← hbody]
        have hnext := ih found.2.length (by omega) found.2
          (fun hi : false = true => absurd hi (by decide)) rfl
        rw [Pattern.substitute_some (hfirst.trans (congrArg some hfound)), hcopy, hbody, hnext]
        rfl
    · by_cases hd : c = '$' ∧ startsPath rest = true
      · obtain ⟨rfl, hs⟩ := hd
        obtain ⟨path, after, hp, ha, rfl⟩ := exists_path hs
        have hafter : inside = true → '\'' ∉ after := fun hi hq =>
          h hi (List.mem_cons_of_mem _ (List.mem_append_right _ hq))
        rw [List.length_append] at hn
        rw [Pattern.substitute_some (first?_token hp ha), expandFrom_token hp ha,
          if_neg fun hq => hafter hq.1 hq.2, ih after.length (by omega) after hafter rfl]
        rfl
      · have hrest : insideAfter inside c = true → '\'' ∉ rest := by
          rw [insideAfter, if_neg hc]
          exact fun hi hq => h hi (List.mem_cons_of_mem _ hq)
        rw [Pattern.substitute_none (first?_plain hc hd), expandFrom_plain hd,
          ih rest.length (by omega) rest hrest rfl]

/-- Expansion is the pass from the beginning. -/
theorem expand_eq_expandFrom (t : Text) : expand t = expandFrom false t :=
  substitute_eq_expandFrom t nofun

/-- Text without dollar signs is copied. -/
theorem expand_eq_self {t : Text} (h : '$' ∉ t) : expand t = t := by
  have hpass : ∀ inside, expandFrom inside t = t := by
    induction t with
    | nil => exact fun _ => expandFrom_nil
    | cons c t ih =>
      rw [List.mem_cons, not_or] at h
      intro inside
      rw [expandFrom_plain fun e => h.1 e.1.symm, ih h.2]
  rw [expand_eq_expandFrom, hpass]

end DocTable.Sql.Shorthand
