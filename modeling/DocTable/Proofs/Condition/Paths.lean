import DocTable.Console.Failure
import DocTable.Proofs.Condition.Dotted
import DocTable.Proofs.Result
/-!
# DocTable.Proofs.Condition.Paths

Which texts are accepted as paths, and which of them are columns.

A path is meant to be a chain of words: letters and underscores, with single dots between the words.
All that take a path check it in the same way, and they accept a little more, because a line break
behind a word is not seen. So the accepted paths are the chains of lines (`accepts_lines`), where a
line is a word with or without a line break behind it. Without line breaks they are the paths that
are meant, and then the token of a path is expanded to the extraction of that path. The token of any
other accepted path ends at its first line break, so that what comes behind it is not extracted.
-/

namespace DocTable.Sql

open Shorthand

namespace Path

/-! ### Chains -/

/-- A word of letters and underscores. -/
def IsWord (t : Text) : Prop :=
  t ≠ [] ∧ ∀ c ∈ t, isPathStart c = true

/-- A word, with or without a line break behind it. -/
def IsLine (t : Text) : Prop :=
  ∃ word, IsWord word ∧ (t = word ∨ t = word ++ ['\n'])

/-- A chain of texts of a kind: one or more of them, with single dots between them. -/
def IsChain (kind : Text → Prop) (path : Text) : Prop :=
  ∃ segments, segments ≠ [] ∧ (∀ s ∈ segments, kind s) ∧ path = Text.join ['.'] segments

instance : DecidablePred IsWord := fun t =>
  decidable_of_iff ((!t.isEmpty && t.all isPathStart) = true) (by simp [IsWord])

theorem IsWord.notMem {t : Text} (h : IsWord t) {c : Char} (hc : isPathStart c = false) :
    c ∉ t := by
  intro hmem
  rw [h.2 c hmem] at hc
  cases hc

theorem IsLine.dot_notMem {t : Text} (h : IsLine t) : '.' ∉ t := by
  obtain ⟨word, hword, rfl | rfl⟩ := h
  · exact hword.notMem (by decide)
  · have hdot : '.' ∉ word := hword.notMem (by decide)
    simp [hdot]

/-- A line without a line break is a word. -/
theorem isWord_iff {t : Text} : IsWord t ↔ IsLine t ∧ '\n' ∉ t := by
  constructor
  · intro h
    exact ⟨⟨t, h, .inl rfl⟩, h.notMem (by decide)⟩
  · rintro ⟨⟨word, hword, rfl | rfl⟩, hbreak⟩
    · exact hword
    · simp at hbreak

/-- The segments of a chain are the pieces between its dots. -/
theorem isChain_iff {kind : Text → Prop} (hdot : ∀ s, kind s → '.' ∉ s) {path : Text} :
    IsChain kind path ↔ ∀ s ∈ Text.pieces '.' path, kind s := by
  constructor
  · rintro ⟨segments, hne, hkind, rfl⟩
    rw [Text.pieces_join hne fun s hs => hdot s (hkind s hs)]
    exact hkind
  · intro h
    exact ⟨Text.pieces '.' path, List.cons_ne_nil _ _, h, (Text.join_pieces '.' path).symm⟩

theorem isChain_line_iff {path : Text} :
    IsChain IsLine path ↔ ∀ s ∈ Text.pieces '.' path, IsLine s :=
  isChain_iff fun _ h => h.dot_notMem

theorem isChain_word_iff {path : Text} : IsChain IsWord path ↔ IsPlain path :=
  isChain_iff fun _ h => h.notMem (by decide)

/-- A chain of lines without line breaks is a chain of words. -/
theorem isChain_word_iff_line {path : Text} :
    IsChain IsWord path ↔ IsChain IsLine path ∧ '\n' ∉ path := by
  constructor
  · intro h
    have hplain := isChain_word_iff.1 h
    refine ⟨isChain_line_iff.2 ?_, ?_⟩
    · intro s hs
      exact (isWord_iff.1 (hplain s hs)).1
    · exact hplain.isPath.notMem_of_not_isPathChar (by decide)
  · rintro ⟨h, hbreak⟩
    refine isChain_word_iff.2 ?_
    intro s hs
    refine isWord_iff.2 ⟨isChain_line_iff.1 h s hs, ?_⟩
    intro hmem
    exact hbreak ((Text.infix_of_mem_pieces hs).subset hmem)

/-- A chain goes on with a dot and one more segment. -/
theorem IsChain.concat {kind : Text → Prop} {path s : Text} (h : IsChain kind path)
    (hs : kind s) : IsChain kind (path ++ '.' :: s) := by
  obtain ⟨segments, hne, hkind, rfl⟩ := h
  refine ⟨segments ++ [s], by simp, ?_, ?_⟩
  · intro t ht
    rcases List.mem_append.1 ht with ht | ht
    · exact hkind t ht
    · rwa [List.mem_singleton.1 ht]
  · rw [Text.join_append_cons _ hne]
    simp

/-! ### Checks -/

theorem isSegment_iff {s : Text} : isSegment s = true ↔ IsLine s := by
  constructor
  · intro h
    have hword : IsWord (core s) := by simpa [isSegment, IsWord] using h
    refine ⟨core s, hword, ?_⟩
    by_cases hlast : s.getLast? = some '\n'
    · obtain ⟨front, rfl⟩ := List.getLast?_eq_some_iff.1 hlast
      exact .inr (by simp [core])
    · exact .inl (by simp [core, hlast])
  · rintro ⟨word, hword, rfl | rfl⟩
    · exact isSegment_of_isPathStart hword.1 hword.2
    · simpa [isSegment, core, IsWord] using hword

theorem check_eq_ok_iff_isChain {path : Text} : check path = .ok () ↔ IsChain IsLine path := by
  rw [check_eq_ok_iff, isChain_line_iff]
  simp only [isSegment_iff]
  refine ⟨fun h => h.2, fun h => ⟨?_, h⟩⟩
  rintro rfl
  obtain ⟨word, hword, hnil | hnil⟩ := h [] List.mem_cons_self
  · exact hword.1 hnil.symm
  · simp at hnil

/-- A refusal of a path is one of bad input. -/
def IsRefusal (e : PathError) : Prop :=
  (Error.query (.path e)).isBadInput = true

theorem judges_check (path : Text) : Judges IsRefusal (¬ IsChain IsLine path) (check path) := by
  refine (Judges.of_forall (check path) fun _ _ => rfl).congr (not_congr ?_)
  rw [← check_eq_ok_iff_isChain]
  exact ⟨fun ⟨_, h⟩ => h, fun h => ⟨(), h⟩⟩

theorem judges_checkSegment (s : Text) : Judges IsRefusal (¬ IsLine s) (checkSegment s) := by
  rw [checkSegment, ← isSegment_iff]
  cases isSegment s with
  | true => exact .passes (by simp)
  | false => exact .fails (by simp) rfl

theorem judges_ofPath (path : Text) :
    Judges IsRefusal (¬ IsChain IsLine path) (Field.ofPath path) :=
  (judges_check path).thenPasses fun _ _ => ⟨_, rfl⟩

theorem path_of_ofPath {path : Text} {f : Field} (h : Field.ofPath path = .ok f) :
    f.path = path := by
  obtain ⟨_, -, h⟩ := bind_eq_ok_iff.1 h
  cases h
  rfl

/-- What is behind the dot of a member is checked on its own; the path with it is a chain, too. -/
theorem judges_get {f : Field} (hf : IsChain IsLine f.path) (s : Text) :
    Judges IsRefusal (¬ IsLine s) (f.get s) := by
  refine ((judges_checkSegment s).bind (W := fun _ => ¬ IsChain IsLine (f.path ++ '.' :: s))
    fun _ _ => judges_ofPath _).congr ?_
  constructor
  · rintro (h | ⟨_, hs, h⟩)
    · exact h
    · intro hline
      exact h (hf.concat hline)
  · exact .inl

/-- Sorting by a path, least first. -/
theorem judges_ordering (path : Text) :
    Judges (fun e => ∃ e', e = .path e' ∧ IsRefusal e') (¬ IsChain IsLine path)
      ((OrderKey.ascending path).mapError QueryError.path >>= fun key => ordering [key]) := by
  have hkey : Judges IsRefusal (¬ IsChain IsLine path) (OrderKey.ascending path) :=
    (judges_check path).thenPasses fun _ _ => ⟨_, rfl⟩
  refine (hkey.mapError fun e he => ⟨e, rfl, he⟩).thenPasses ?_
  intro key hok
  obtain ⟨_, hcheck, hok⟩ := bind_eq_ok_iff.1 (mapError_eq_ok_iff.1 hok)
  cases hok
  obtain ⟨f, hf, -⟩ := ordering_eq_ok hcheck false
  exact ⟨f, hf⟩

/-! ### Columns -/

/-- The token of an accepted path is expanded to the extraction of the path, unless there is a line
break in it. -/
theorem expand_eq_extract_iff {path : Text} (h : check path = .ok ()) :
    expand ('$' :: path) = extract path ↔ '\n' ∉ path := by
  constructor
  · intro heq
    obtain ⟨token, tail, rfl, htoken, htail, hdollar, hquote, -⟩ := exists_of_check h
    have hcolumn : extract token ++ tail = extract (token ++ tail) := by
      rw [← columnText_eq htoken htail hdollar]
      exact heq
    have hclosing : '\'' :: tail = tail ++ ['\''] := by simpa [extract] using hcolumn
    have hnil : tail = [] := by
      cases tail with
      | nil => rfl
      | cons c tail =>
        have hc : '\'' = c := (List.cons.inj hclosing).1
        exact absurd (hc ▸ List.mem_cons_self) hquote
    have hbreak : '\n' ∉ token := htoken.notMem_of_not_isPathChar (by decide)
    simp [hnil, hbreak]
  · intro hbreak
    have hchain := check_eq_ok_iff_isChain.1 h
    exact columnText_plain (isChain_word_iff.1 (isChain_word_iff_line.2 ⟨hchain, hbreak⟩))

/-! ### Accepted paths -/

/-- **The accepted paths are the chains of lines.** A field, a sort key in either direction and an
order take the same paths and refuse all others as bad input, and a member of a field takes one
line. Without line breaks that is a chain of words, and one word. The token of an accepted path is
expanded to the extraction of that path exactly if there is no line break in it. -/
theorem accepts_lines (path : Text) :
    Judges IsRefusal (¬ IsChain IsLine path) (Field.ofPath path) ∧
    Judges IsRefusal (¬ IsChain IsLine path) (OrderKey.ascending path) ∧
    Judges IsRefusal (¬ IsChain IsLine path) (OrderKey.descend path) ∧
    Judges (fun e => ∃ e', e = .path e' ∧ IsRefusal e') (¬ IsChain IsLine path)
      ((OrderKey.ascending path).mapError QueryError.path >>= fun key => ordering [key]) ∧
    (IsChain IsWord path ↔ IsChain IsLine path ∧ '\n' ∉ path) ∧
    (∀ s, IsWord s ↔ IsLine s ∧ '\n' ∉ s) ∧
    ∀ f, Field.ofPath path = .ok f →
      (∀ s, Judges IsRefusal (¬ IsLine s) (f.get s)) ∧
      extractSegments (Text.pieces '.' path) = extract path ∧
      (expand ('$' :: path) = extract path ↔ '\n' ∉ path) := by
  have hkey (descending : Bool) : Judges IsRefusal (¬ IsChain IsLine path)
      ((if descending then OrderKey.descend else OrderKey.ascending) path) := by
    rw [direction_eq]
    exact (judges_check path).thenPasses fun _ _ => ⟨_, rfl⟩
  refine ⟨judges_ofPath path, hkey false, hkey true, judges_ordering path,
    isChain_word_iff_line, fun _ => isWord_iff, ?_⟩
  intro f hf
  have hchain : IsChain IsLine path := not_not.1 (hf ▸ judges_ofPath path).of_ok
  refine ⟨judges_get (path_of_ofPath hf ▸ hchain), ?_,
    expand_eq_extract_iff (check_eq_ok_iff_isChain.2 hchain)⟩
  rw [extractSegments, Text.join_pieces]

/-- A path of one word, a member of it, and a text with a dot, which is no member. -/
theorem accepts_lines_home :
    ∃ f, Field.ofPath "home".toList = .ok f ∧ (∃ g, f.get "planet".toList = .ok g) ∧
      (∃ e, f.get "x.y".toList = .error e ∧ IsRefusal e) ∧
      expand "$home".toList = extract "home".toList := by
  obtain ⟨-, -, -, -, -, -, hfield⟩ := accepts_lines "home".toList
  obtain ⟨hget, -, hcolumn⟩ := hfield _ rfl
  have hplanet : IsLine "planet".toList := ⟨_, by decide, .inl rfl⟩
  have hdot : ¬ IsLine "x.y".toList := fun h => h.dot_notMem (by decide)
  exact ⟨_, rfl, (hget _).exists_ok (not_not.2 hplanet), (hget _).exists_error hdot,
    hcolumn.2 (by decide)⟩

/-- A word with a line break behind it is accepted by all that take a path. It is no word, and the
extraction that its token is expanded to is that of the word alone. -/
theorem accepts_line_break :
    let path := "a\n".toList
    (¬ IsChain IsWord path ∧ ¬ IsWord path) ∧
    Field.ofPath path = .ok ⟨path⟩ ∧
    OrderKey.ascending path = .ok ⟨path, false⟩ ∧ OrderKey.descend path = .ok ⟨path, true⟩ ∧
    (∃ f, ordering [⟨path, false⟩] = .ok f) ∧
    (∃ g, (Field.mk "b".toList).get path = .ok g) ∧
    expand ('$' :: path) = "data->>'$.a'\n".toList ∧ extract path = "data->>'$.a\n'".toList := by
  intro path
  have hbreak : '\n' ∈ path := by decide
  have hplain : IsPlain "a".toList := by decide
  have hcolumn : columnText ("a".toList ++ ['\n']) = extract "a".toList ++ ['\n'] :=
    columnText_eq hplain.isPath rfl (by decide)
  have hcheck : check path = .ok () := rfl
  obtain ⟨f, hf, -⟩ := ordering_eq_ok hcheck false
  exact ⟨⟨fun h => (isChain_word_iff_line.1 h).2 hbreak, by decide⟩, rfl, rfl, rfl, ⟨f, hf⟩,
    ⟨_, rfl⟩, hcolumn, rfl⟩

end Path

end DocTable.Sql
