import DocTable.Proofs.Shorthand.Again
/-!
# DocTable.Proofs.Shorthand.Embedded

Expanding texts that are embedded into others.

A text is dotted if each of its dollar signs stands before a dot, as those of extractions do. Such a
text holds no token, whatever it is embedded into, so it stays as it is. A text that has been
expanded once may still hold tokens; but whether they are expanded the next time is settled by then,
because a token that was left alone has quotes on both sides, and a dollar sign that has come to
stand before `data` has them behind it. So it is expanded on its own, whatever dotted text comes
after it (`expand_expand_append`).
-/

namespace DocTable.Sql.Shorthand

/-! ### Dotted texts -/

/-- Every dollar sign stands before a dot. -/
def Dotted : Text → Prop
  | [] => True
  | c :: rest => (c = '$' → rest.head? = some '.') ∧ Dotted rest

instance decidableDotted : (t : Text) → Decidable (Dotted t)
  | [] => .isTrue trivial
  | _ :: rest =>
    have := decidableDotted rest
    inferInstanceAs (Decidable (_ ∧ _))

theorem Dotted.append {s t : Text} (hs : Dotted s) (ht : Dotted t) : Dotted (s ++ t) := by
  induction s with
  | nil => exact ht
  | cons c s ih =>
    refine ⟨fun hc => ?_, ih hs.2⟩
    have hdot := hs.1 hc
    cases s with
    | nil => cases hdot
    | cons d s => exact hdot

theorem dotted_of_notMem {t : Text} (h : '$' ∉ t) : Dotted t := by
  induction t with
  | nil => trivial
  | cons c t ih =>
    rw [List.mem_cons, not_or] at h
    exact ⟨fun hc => absurd hc.symm h.1, ih h.2⟩

/-- A hole mark is no dot, so it does not hide a dollar sign. -/
theorem dotted_mark {s t : Text} (h : Dotted (s ++ holeMark :: t)) : Dotted s ∧ Dotted t := by
  induction s with
  | nil => exact ⟨trivial, h.2⟩
  | cons c s ih =>
    obtain ⟨hs, ht⟩ := ih h.2
    refine ⟨⟨fun hc => ?_, hs⟩, ht⟩
    have hdot := h.1 hc
    cases s with
    | nil =>
      have hmark : some holeMark = some '.' := hdot
      exact absurd hmark (by decide)
    | cons d s => exact hdot

/-- No token is in a dotted text. -/
theorem expandFrom_dotted {t : Text} (h : Dotted t) (inside : Bool) : expandFrom inside t = t := by
  induction t generalizing inside with
  | nil => exact expandFrom_nil
  | cons c t ih =>
    have hplain : ¬(c = '$' ∧ startsPath t = true) := by
      rintro ⟨hc, hpath⟩
      rw [startsPath, h.1 hc] at hpath
      exact absurd hpath (by decide)
    rw [expandFrom_plain hplain, ih h.2]

theorem expand_dotted {t : Text} (h : Dotted t) : expand t = t := by
  rw [expand_eq_expandFrom, expandFrom_dotted h]

/-! ### Texts that have been expanded -/

variable {rest : Text}

theorem startsPath_append {t : Text} (ht : startsPath t = false) (hrest : startsPath rest = false) :
    startsPath (t ++ rest) = false := by
  cases t with
  | nil => exact hrest
  | cons c t => exact ht

theorem extract_append (path u : Text) :
    extract path ++ u = dataColumn ++ ("->>'$.".toList ++ path ++ '\'' :: u) := by
  simp [extract]

theorem expandFrom_column (path u : Text) :
    expandFrom false (extract path ++ u) =
      dataColumn ++ expandFrom false ("->>'$.".toList ++ path ++ '\'' :: u) := by
  rw [extract_append, isPath_dataColumn.expandFrom_append]

/-- A dollar sign that has come to stand before an extraction makes a token with it. -/
theorem expandFrom_loose (path u : Text) :
    expandFrom false ('$' :: (extract path ++ u)) =
      extract dataColumn ++ expandFrom false ("->>'$.".toList ++ path ++ '\'' :: u) := by
  rw [extract_append, expandFrom_token isPath_dataColumn rfl, if_neg (by simp)]

/-- A dollar sign that was copied is treated as if nothing came after the text, if the text behind
it is. -/
theorem expandFrom_dollar_append (hrest : startsPath rest = false) {t : Text}
    (hp : startsPath t = false) {inside : Bool}
    (ht : expandFrom inside (expandFrom inside t ++ rest) =
      expandFrom inside (expandFrom inside t) ++ rest) :
    expandFrom inside ('$' :: (expandFrom inside t ++ rest)) =
      expandFrom inside ('$' :: expandFrom inside t) ++ rest := by
  have hdollar : insideAfter inside '$' = inside := rfl
  cases htoken : startsToken t with
  | false =>
    have hnone : startsPath (expandFrom inside t) = false := startsPath_expandFrom hp htoken
    have hplain : ¬('$' = '$' ∧ startsPath (expandFrom inside t ++ rest) = true) := by
      simp [startsPath_append hnone hrest]
    rw [expandFrom_plain hplain, expandFrom_plain (by simp [hnone]), hdollar, ht, List.cons_append]
  | true =>
    -- What stands behind the dollar sign came out of a token: that token again, which has a quote
    -- behind it, or an extraction, whose first word makes a token with the dollar sign.
    cases t with
    | nil => exact absurd htoken (by simp [startsToken])
    | cons c more =>
      obtain ⟨rfl, hs⟩ : c = '$' ∧ startsPath more = true := by simpa [startsToken] using htoken
      obtain ⟨path, after, hpath, ha, rfl⟩ := exists_path hs
      cases inside with
      | true =>
        have hquote : '\'' ∈ expandFrom true ('$' :: (path ++ after)) :=
          quote_mem_expandFrom_token hpath ha
        rw [expandFrom_inside _ (List.mem_append_left _ hquote), expandFrom_inside _ hquote,
          hdollar, ht, List.cons_append]
      | false =>
        -- Behind the first word the rest of the extraction is expanded as in the whole of it.
        have hfirst : expandFrom false ('$' :: (path ++ after)) =
            extract path ++ expandFrom false after := by
          rw [expandFrom_token hpath ha, if_neg (by simp)]
        rw [hfirst, List.append_assoc, expandFrom_column, expandFrom_column] at ht
        have hbehind := List.append_cancel_left (ht.trans (List.append_assoc ..))
        rw [hfirst, List.append_assoc, expandFrom_loose, expandFrom_loose, hbehind]
        exact (List.append_assoc ..).symm

/-- The second pass treats each token as if nothing came after the text. -/
theorem expandFrom_expandFrom_append (hdot : Dotted rest) (hrest : startsPath rest = false)
    (t : Text) (inside : Bool) :
    expandFrom inside (expandFrom inside t ++ rest) =
      expandFrom inside (expandFrom inside t) ++ rest := by
  induction t using tokenInduction generalizing inside with
  | nil => rw [expandFrom_nil, List.nil_append, expandFrom_dotted hdot, expandFrom_nil]; rfl
  | token path after hp ha ih =>
    rw [expandFrom_token hp ha]
    split
    · next hkeep =>
      -- The quote behind the token is still there, so it is kept again.
      obtain ⟨rfl, hq⟩ := hkeep
      have hkept : ∀ u, '\'' ∈ u → expandFrom true ('$' :: (path ++ u)) =
          '$' :: (path ++ expandFrom true u) := fun u hu => by
        rw [expandFrom_inside _ (List.mem_append_right _ hu), insideAfter, if_neg (by decide),
          hp.expandFrom_append]
      have hquote : '\'' ∈ expandFrom true after := quote_mem_expandFrom hq
      rw [List.cons_append, List.cons_append, List.append_assoc, hkept _ hquote,
        hkept _ (List.mem_append_left _ hquote), ih]
      simp
    · rw [List.append_assoc, expandFrom_extract hp, expandFrom_extract hp, ih, List.append_assoc]
  | plain c t hc ih =>
    rw [expandFrom_plain hc]
    by_cases hd : c = '$'
    · subst hd
      exact expandFrom_dollar_append hrest (by simpa using hc) (ih inside)
    · have hplain : ∀ u : Text, ¬(c = '$' ∧ startsPath u = true) := fun u h => hd h.1
      rw [List.cons_append, expandFrom_plain (hplain _), expandFrom_plain (hplain _), ih,
        List.cons_append]

/-- A text that has been expanded is expanded again on its own, whatever dotted text comes after
it. -/
theorem expand_expand_append (hdot : Dotted rest) (hrest : startsPath rest = false) (t : Text) :
    expand (expand t ++ rest) = expand (expand t) ++ rest := by
  simp only [expand_eq_expandFrom]
  exact expandFrom_expandFrom_append hdot hrest t false

end DocTable.Sql.Shorthand
