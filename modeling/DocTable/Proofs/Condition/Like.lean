import DocTable.Proofs.Condition.Rendering
/-!
# DocTable.Proofs.Condition.Like

What the searches for a text find.

`Like` is the matching of patterns by the engine: `%` stands for any run of characters, `_` for any
one character, and every other character for itself, with the case of ASCII letters ignored. The
searches for a text at the start, at the end or anywhere bind the text with `%` around it. So they
find every text that they should (`Search.like_of_finds`). They find no other one exactly if neither
of the two marks occurs in the text that is looked for, since both keep their meaning there
(`Search.like_iff_finds`).
-/

namespace DocTable.Sql

/-! ### Matching -/

/-- The characters that stand for others in a pattern. -/
def isWildcard (c : Char) : Bool :=
  c == '%' || c == '_'

/-- A pattern matches a text. -/
inductive Like : (pattern t : Text) → Prop
  | nil : Like [] []
  | run (skipped : Text) {p t : Text} : Like p t → Like ('%' :: p) (skipped ++ t)
  | one (c : Char) {p t : Text} : Like p t → Like ('_' :: p) (c :: t)
  | char {c d : Char} {p t : Text} : isWildcard c = false → c.toLower = d.toLower → Like p t →
      Like (c :: p) (d :: t)

/-- A text without the case of ASCII letters. -/
def folded (t : Text) : Text :=
  t.map Char.toLower

/-- A character of a pattern stands for another one: every wildcard does. -/
def Covers (c d : Char) : Prop :=
  isWildcard c = true ∨ c.toLower = d.toLower

theorem like_percent (t : Text) : Like ['%'] t := by
  rw [← List.append_nil t]
  exact .run t .nil

theorem Like.cons {c d : Char} {p t : Text} (hcd : Covers c d) (h : Like p t) :
    Like (c :: p) (d :: t) := by
  cases hc : isWildcard c with
  | false => exact .char hc (hcd.resolve_left (by simp [hc])) h
  | true =>
    rw [isWildcard, Bool.or_eq_true, beq_iff_eq, beq_iff_eq] at hc
    rcases hc with rfl | rfl
    · exact .run [d] h
    · exact .one d h

/-- Character by character, a pattern matches what it covers. -/
theorem like_append {x u p t : Text} (hxu : List.Forall₂ Covers x u) (h : Like p t) :
    Like (x ++ p) (u ++ t) := by
  induction hxu with
  | nil => exact h
  | cons hcd _ ih => exact .cons hcd ih

theorem folded_append (t u : Text) : folded (t ++ u) = folded t ++ folded u :=
  List.map_append

theorem covers_of_folded_eq {x u : Text} (h : folded u = folded x) : List.Forall₂ Covers x u := by
  rw [folded, folded, ← List.forall₂_eq_eq_eq, List.forall₂_map_left_iff,
    List.forall₂_map_right_iff] at h
  exact h.flip.imp fun _ _ hcd => .inr hcd.symm

theorem exists_of_like_percent {p s : Text} (h : Like ('%' :: p) s) :
    ∃ skipped t, s = skipped ++ t ∧ Like p t := by
  cases h with
  | run skipped h => exact ⟨skipped, _, rfl, h⟩
  | char hc => exact absurd hc (by decide)

/-- Without wildcards the beginning of a pattern matches itself alone. -/
theorem exists_of_like_append {x p s : Text} (hx : ∀ c ∈ x, isWildcard c = false)
    (h : Like (x ++ p) s) : ∃ u t, s = u ++ t ∧ folded u = folded x ∧ Like p t := by
  induction x generalizing s with
  | nil => exact ⟨[], s, rfl, rfl, h⟩
  | cons c x ih =>
    rw [List.forall_mem_cons] at hx
    cases h with
    | run => exact absurd hx.1 (by decide)
    | one => exact absurd hx.1 (by decide)
    | @char _ d _ t _ hcd h =>
      obtain ⟨u, t, rfl, hu, ht⟩ := ih hx.2 h
      exact ⟨d :: u, t, rfl, congrArg₂ List.cons hcd.symm hu, ht⟩

/-! ### Searches -/

/-- Where a text is looked for. -/
inductive Search where
  | start
  | stop
  | anywhere

namespace Search

/-- The condition that a field has a text at the place. -/
def condition (f : Field) (x : Text) : Search → Condition
  | .start => f.startsWith x
  | .stop => f.endsWith x
  | .anywhere => f.contains x

/-- The pattern of a search. -/
def pattern (x : Text) : Search → Text
  | .start => x ++ ['%']
  | .stop => '%' :: x
  | .anywhere => '%' :: x ++ ['%']

/-- A text has another one at the place, with the case of ASCII letters ignored. -/
def Finds (x s : Text) : Search → Prop
  | .start => folded x <+: folded s
  | .stop => folded x <:+ folded s
  | .anywhere => folded x <:+: folded s

theorem condition_eq (k : Search) (f : Field) (x : Text) :
    k.condition f x = .comparison f.path .like (.text (k.pattern x)) := by
  cases k with
  | _ => rfl

/-- What may stand before and behind a text that is found. -/
def Allows (before after : Text) : Search → Prop
  | .start => before = []
  | .stop => after = []
  | .anywhere => True

theorem allows_nil (k : Search) : k.Allows [] [] := by
  cases k with
  | start | stop => rfl
  | anywhere => trivial

/-- To be found is to stand somewhere, with nothing around it that the search does not allow. -/
theorem finds_iff {k : Search} {x s : Text} :
    k.Finds x s ↔
      ∃ before u after, s = before ++ u ++ after ∧ folded u = folded x ∧
        k.Allows before after := by
  cases k with
  | start =>
    constructor
    · rintro ⟨rest, h⟩
      obtain ⟨u, after, rfl, hu, -⟩ := List.map_eq_append_iff.1 h.symm
      exact ⟨[], u, after, rfl, hu, rfl⟩
    · rintro ⟨_, u, after, rfl, hu, rfl⟩
      rw [Finds, ← hu, List.nil_append, folded_append]
      exact List.prefix_append _ _
  | stop =>
    constructor
    · rintro ⟨rest, h⟩
      obtain ⟨before, u, rfl, -, hu⟩ := List.map_eq_append_iff.1 h.symm
      exact ⟨before, u, [], (List.append_nil _).symm, hu, rfl⟩
    · rintro ⟨before, u, _, rfl, hu, rfl⟩
      rw [Finds, ← hu, List.append_nil, folded_append]
      exact List.suffix_append _ _
  | anywhere =>
    constructor
    · rintro ⟨left, right, h⟩
      obtain ⟨front, after, rfl, hfront, -⟩ := List.map_eq_append_iff.1 h.symm
      obtain ⟨before, u, rfl, -, hu⟩ := List.map_eq_append_iff.1 hfront
      exact ⟨before, u, after, rfl, hu, trivial⟩
    · rintro ⟨before, u, after, rfl, hu, -⟩
      rw [Finds, ← hu, folded_append, folded_append]
      exact List.infix_append _ _ _

/-- A pattern matches what it covers, with anything around it that the search allows. -/
theorem like_pattern {k : Search} {x before u after : Text} (hxu : List.Forall₂ Covers x u)
    (hk : k.Allows before after) : Like (k.pattern x) (before ++ u ++ after) := by
  cases k with
  | start =>
    obtain rfl : before = [] := hk
    exact like_append hxu (like_percent after)
  | stop =>
    obtain rfl : after = [] := hk
    have hcovered : Like (x ++ []) (u ++ []) := like_append hxu .nil
    rw [List.append_nil] at hcovered
    rw [List.append_assoc]
    exact .run before hcovered
  | anywhere =>
    rw [List.append_assoc]
    exact .run before (like_append hxu (like_percent after))

/-- Without wildcards in the text, what a pattern matches has the text at its place. -/
theorem exists_of_like_pattern {k : Search} {x s : Text} (hx : ∀ c ∈ x, isWildcard c = false)
    (h : Like (k.pattern x) s) :
    ∃ before u after, s = before ++ u ++ after ∧ folded u = folded x ∧
      k.Allows before after := by
  cases k with
  | start =>
    obtain ⟨u, after, rfl, hu, -⟩ := exists_of_like_append hx h
    exact ⟨[], u, after, rfl, hu, rfl⟩
  | stop =>
    obtain ⟨before, t, rfl, ht⟩ := exists_of_like_percent h
    rw [← List.append_nil x] at ht
    obtain ⟨u, after, rfl, hu, hafter⟩ := exists_of_like_append hx ht
    cases hafter
    exact ⟨before, u, [], by simp, hu, rfl⟩
  | anywhere =>
    obtain ⟨before, t, rfl, ht⟩ := exists_of_like_percent h
    obtain ⟨u, after, rfl, hu, -⟩ := exists_of_like_append hx ht
    exact ⟨before, u, after, by simp, hu, trivial⟩

/-- A search finds every text that has the given one at the place, wildcards or not. -/
theorem like_of_finds {k : Search} {x s : Text} (h : k.Finds x s) : Like (k.pattern x) s := by
  obtain ⟨before, u, after, rfl, hu, hk⟩ := finds_iff.1 h
  exact like_pattern (covers_of_folded_eq hu) hk

/-- A search for a text without wildcards is literal. -/
theorem finds_of_like {k : Search} {x s : Text} (hx : ∀ c ∈ x, isWildcard c = false)
    (h : Like (k.pattern x) s) : k.Finds x s :=
  finds_iff.2 (exists_of_like_pattern hx h)

/-! ### Wildcards in the text -/

/-- A text with a letter in the place of every wildcard. -/
def withoutWildcards (x : Text) : Text :=
  x.map fun c => if isWildcard c then 'a' else c

theorem covers_withoutWildcards (x : Text) : List.Forall₂ Covers x (withoutWildcards x) := by
  rw [withoutWildcards, List.forall₂_map_right_iff, List.forall₂_same]
  intro c _
  by_cases hc : isWildcard c = true
  · exact .inl hc
  · rw [if_neg hc]
    exact .inr rfl

/-- That text has the length of the one with wildcards, but is another one even without case. -/
theorem not_finds_withoutWildcards {k : Search} {x : Text} (hx : ∃ c ∈ x, isWildcard c = true) :
    ¬ k.Finds x (withoutWildcards x) := by
  intro h
  have hinfix : folded x <:+: folded (withoutWildcards x) := by
    cases k with
    | start => exact List.IsPrefix.isInfix h
    | stop => exact List.IsSuffix.isInfix h
    | anywhere => exact h
  have heq : folded x = folded (withoutWildcards x) :=
    hinfix.eq_of_length (by simp [folded, withoutWildcards])
  obtain ⟨c, hc, hwild⟩ := hx
  rw [folded, folded, withoutWildcards, List.map_map, List.map_inj_left] at heq
  have hletter : c.toLower = 'a' := by simpa [hwild] using heq c hc
  rw [isWildcard, Bool.or_eq_true, beq_iff_eq, beq_iff_eq] at hwild
  rcases hwild with rfl | rfl
  · exact absurd hletter (by decide)
  · exact absurd hletter (by decide)

/-! ### What is found -/

/-- The condition of a search compiles to a comparison with its pattern by `LIKE`, and the pattern
is the value that it binds. -/
theorem compile_condition (k : Search) {f : Field} (hf : f.Reached) (x : Text) :
    ∃ fragment, (k.condition f x).compile = .ok fragment ∧
      fragment.values = [.text (k.pattern x)] := by
  have hwritten : (k.condition f x).Expressible := by
    cases k with
    | start => exact .startsWith x hf
    | stop => exact .endsWith x hf
    | anywhere => exact .contains x hf
  obtain ⟨fragment, hfragment, -⟩ := Condition.compile_wellFormed hwritten.wellFormed
  refine ⟨fragment, hfragment, ?_⟩
  rw [Condition.values_compile hwritten.wellFormed hfragment, condition_eq]
  rfl

/-- **What a search finds.** Its pattern matches every text that has the given one at the place. It
matches no other text, so that the search is literal, if and only if there is no wildcard in the
given text. -/
theorem like_iff_finds (k : Search) {f : Field} (hf : f.Reached) (x : Text) :
    ∃ fragment pattern, (k.condition f x).compile = .ok fragment ∧
      k.condition f x = .comparison f.path .like (.text pattern) ∧
      fragment.values = [.text pattern] ∧ (∀ s, k.Finds x s → Like pattern s) ∧
      ((∀ s, Like pattern s ↔ k.Finds x s) ↔ ∀ c ∈ x, isWildcard c = false) := by
  obtain ⟨fragment, hfragment, hvalues⟩ := k.compile_condition hf x
  refine ⟨fragment, k.pattern x, hfragment, k.condition_eq f x, hvalues, fun _ => like_of_finds,
    ?_, ?_⟩
  · -- The pattern matches the text with letters for the wildcards, which is not found.
    intro h c hc
    by_contra hwild
    have hmatch : Like (k.pattern x) ([] ++ withoutWildcards x ++ []) :=
      like_pattern (covers_withoutWildcards x) k.allows_nil
    rw [List.nil_append, List.append_nil] at hmatch
    exact not_finds_withoutWildcards ⟨c, hc, by simpa using hwild⟩ ((h _).1 hmatch)
  · intro hx s
    exact ⟨finds_of_like hx, like_of_finds⟩

/-- Names with `ei` in them. -/
theorem like_iff_finds_ei :
    (Field.mk "name".toList).Reached ∧
      ∃ fragment, ((Field.mk "name".toList).contains "ei".toList).compile = .ok fragment ∧
        fragment.values = [.text "%ei%".toList] ∧
        ∀ s, Like "%ei%".toList s ↔ folded "ei".toList <:+: folded s := by
  have hname : (Field.mk "name".toList).Reached :=
    @Field.Reached.ofPath "name".toList _ rfl
  obtain ⟨fragment, pattern, hfragment, hcondition, hvalues, -, hliteral⟩ :=
    like_iff_finds .anywhere hname "ei".toList
  obtain rfl : "%ei%".toList = pattern := Json.text.inj (Condition.comparison.inj hcondition).2.2
  have hplain : ∀ c ∈ "ei".toList, isWildcard c = false :=
    List.forall_mem_cons.2 ⟨rfl, List.forall_mem_singleton.2 rfl⟩
  exact ⟨hname, fragment, hfragment, hvalues, hliteral.2 hplain⟩

/-- A search for texts that start with `50%` finds `500`: its pattern ends in two wildcards. -/
theorem startsWith_percent :
    Field.ofPath "name".toList = .ok ⟨"name".toList⟩ ∧
      (Field.mk "name".toList).startsWith "50%".toList =
        .comparison "name".toList .like (.text "50%%".toList) ∧
      Like "50%%".toList "500".toList ∧ ¬ folded "50%".toList <+: folded "500".toList ∧
      ¬ ∀ s, Like "50%%".toList s ↔ folded "50%".toList <+: folded s := by
  have hlike : Like "50%%".toList "500".toList :=
    .char rfl rfl (.char rfl rfl (.run ['0'] (.run [] .nil)))
  have hstart : ¬ folded "50%".toList <+: folded "500".toList := by decide
  exact ⟨rfl, rfl, hlike, hstart, fun h => hstart ((h _).1 hlike)⟩

end Search

end DocTable.Sql
