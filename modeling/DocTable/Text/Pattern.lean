import DocTable.Text.Basic
/-!
# DocTable.Text.Pattern

Patterns with ordered choice, and the replacement of what they match.

* `Pattern.splits` lists every way in which a pattern matches a beginning of a text, in the order
  in which a backtracking search tries them: a choice prefers its first side, a repetition prefers
  one more round.
* `Pattern.substitute` goes through a text from left to right, takes the preferred match at each
  position, and goes on behind it.
-/

namespace DocTable

/-- A pattern for a beginning of a text. -/
inductive Pattern where
  /-- One character of a class. -/
  | one (accepts : Char → Bool)
  | seq (first second : Pattern)
  /-- The first side, or else the second one. -/
  | choice (first second : Pattern)
  /-- As many rounds as possible, or else fewer. -/
  | many (round : Pattern)

namespace Pattern

/-- Rounds of `step`, more of them first. A round that matches nothing is not taken. -/
def repeated (step : Text → List (Text × Text)) (t : Text) : List (Text × Text) :=
  ((step t).flatMap fun s =>
    if s.2.length < t.length then (repeated step s.2).map fun m => (s.1 ++ m.1, m.2) else [])
    ++ [([], t)]
  termination_by t.length

/-- What a pattern matches at the beginning of a text, with the rest of the text; the preferred
match first. -/
def splits : Pattern → Text → List (Text × Text)
  | one _, [] => []
  | one accepts, c :: rest => if accepts c then [([c], rest)] else []
  | seq p q, t => (p.splits t).flatMap fun s => (q.splits s.2).map fun m => (s.1 ++ m.1, m.2)
  | choice p q, t => p.splits t ++ q.splits t
  | many p, t => repeated p.splits t

/-- The preferred match at the beginning of a text. -/
def first? (p : Pattern) (t : Text) : Option (Text × Text) :=
  (p.splits t).head?

/-- The text with every match replaced. A match of nothing is replaced as well, but the search
goes on one character behind it. -/
def substitute (p : Pattern) (replace : Text → Text) : Text → Text
  | [] => ((p.first? []).map fun m => replace m.1).getD []
  | c :: rest =>
    match p.first? (c :: rest) with
    | none => c :: substitute p replace rest
    | some (matched, after) =>
      if after.length ≤ rest.length then replace matched ++ substitute p replace after
      else replace matched ++ c :: substitute p replace rest
  termination_by t => t.length

/-! ### Matches are beginnings -/

/-- Rounds that are beginnings of what they are tried on make a beginning. -/
theorem append_of_mem_repeated {step : Text → List (Text × Text)}
    (hstep : ∀ t, ∀ s ∈ step t, s.1 ++ s.2 = t) {t : Text} {m : Text × Text}
    (h : m ∈ repeated step t) : m.1 ++ m.2 = t := by
  rw [repeated, List.mem_append, List.mem_flatMap, List.mem_singleton] at h
  rcases h with ⟨s, hs, h⟩ | rfl
  · split at h
    · next hlt =>
      obtain ⟨m', hm', rfl⟩ := List.mem_map.1 h
      rw [← hstep t s hs, ← append_of_mem_repeated hstep hm', List.append_assoc]
    · simp at h
  · rfl
  termination_by t.length

/-- A match and the rest make up the text. -/
theorem append_of_mem_splits {p : Pattern} {t : Text} {s : Text × Text} (h : s ∈ p.splits t) :
    s.1 ++ s.2 = t := by
  induction p generalizing t s with
  | one accepts =>
    cases t with
    | nil => simp [splits] at h
    | cons c rest =>
      simp only [splits] at h
      split at h
      · rw [List.mem_singleton.1 h]; rfl
      · simp at h
  | seq p q ihp ihq =>
    obtain ⟨a, ha, h⟩ := List.mem_flatMap.1 h
    obtain ⟨b, hb, rfl⟩ := List.mem_map.1 h
    rw [← ihp ha, ← ihq hb, List.append_assoc]
  | choice p q ihp ihq =>
    rcases List.mem_append.1 h with h | h
    · exact ihp h
    · exact ihq h
  | many p ih => exact append_of_mem_repeated (fun _ _ hs => ih hs) h

/-- What holds of nothing, and of a round before what it holds of, holds of all rounds. -/
theorem rounds_induction {motive : Text → Prop} {step : Text → List (Text × Text)}
    (nil : motive []) (round : ∀ t, ∀ s ∈ step t, ∀ m, motive m → motive (s.1 ++ m))
    {t : Text} {m : Text × Text} (h : m ∈ repeated step t) : motive m.1 := by
  rw [repeated, List.mem_append, List.mem_flatMap, List.mem_singleton] at h
  rcases h with ⟨s, hs, h⟩ | rfl
  · split at h
    · next hlt =>
      obtain ⟨m', hm', rfl⟩ := List.mem_map.1 h
      exact round t s hs m'.1 (rounds_induction nil round hm')
    · simp at h
  · exact nil
  termination_by t.length

theorem mem_of_first? {p : Pattern} {t : Text} {s : Text × Text} (h : p.first? t = some s) :
    s ∈ p.splits t :=
  List.mem_of_mem_head? h

theorem append_of_first? {p : Pattern} {t matched after : Text}
    (h : p.first? t = some (matched, after)) : matched ++ after = t :=
  append_of_mem_splits (mem_of_first? h)

/-! ### Preferred matches -/

theorem first?_eq_none {p : Pattern} {t : Text} (h : p.first? t = none) : p.splits t = [] :=
  List.head?_eq_none_iff.1 h

/-- After a first part that matches in one way only, the second part decides. -/
theorem first?_seq {p q : Pattern} {t m rest : Text} (h : p.splits t = [(m, rest)]) :
    (seq p q).first? t = (q.first? rest).map fun s => (m ++ s.1, s.2) := by
  simp [first?, splits, h]

/-- Repeated characters of a class are taken as long as they come. -/
theorem first?_many_one (accepts : Char → Bool) (t : Text) :
    (many (one accepts)).first? t = some (t.takeWhile accepts, t.dropWhile accepts) := by
  induction t with
  | nil => simp [first?, splits, repeated]
  | cons c rest ih =>
    simp only [first?, splits] at ih ⊢
    rw [repeated]
    cases h : accepts c with
    | false => simp [splits, h]
    | true => simp [splits, h, ih]

/-! ### Replacement -/

variable {p : Pattern} {replace : Text → Text}

theorem substitute_nil (h : p.first? [] = none) : p.substitute replace [] = [] := by
  rw [substitute, h]
  rfl

theorem substitute_none {c : Char} {rest : Text} (h : p.first? (c :: rest) = none) :
    p.substitute replace (c :: rest) = c :: p.substitute replace rest := by
  rw [substitute, h]

/-- A match of something is replaced, and the search goes on behind it. -/
theorem substitute_some {t matched after : Text} {c : Char}
    (h : p.first? t = some (c :: matched, after)) :
    p.substitute replace t = replace (c :: matched) ++ p.substitute replace after := by
  have happ := append_of_first? h
  rw [List.cons_append] at happ
  subst happ
  rw [substitute, h]
  simp

/-- A character that is neither in the text nor made by a replacement of what has none is not in
the result. -/
theorem notMem_substitute {x : Char}
    (hr : ∀ m, x ∉ m → x ∉ replace m) {t : Text} (h : x ∉ t) : x ∉ p.substitute replace t := by
  fun_induction substitute p replace t with
  | case1 =>
    cases hm : p.first? [] with
    | none => simp
    | some m =>
      have he : m.1 = [] := (List.append_eq_nil_iff.1 (append_of_first? hm)).1
      simpa [he] using hr [] (by simp)
  | case2 c rest _ ih =>
    rw [List.mem_cons, not_or] at h ⊢
    exact ⟨h.1, ih h.2⟩
  | case3 c rest matched after hm _ ih =>
    rw [← append_of_first? hm, List.mem_append, not_or] at h
    rw [List.mem_append, not_or]
    exact ⟨hr _ h.1, ih h.2⟩
  | case4 c rest matched after hm _ ih =>
    have hmatched : x ∉ matched := fun m => h (append_of_first? hm ▸ List.mem_append_left _ m)
    rw [List.mem_cons, not_or] at h
    rw [List.mem_append, List.mem_cons, not_or, not_or]
    exact ⟨hr _ hmatched, h.1, ih h.2⟩

end Pattern

end DocTable
