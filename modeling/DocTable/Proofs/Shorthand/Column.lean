import DocTable.Proofs.Shorthand.Parity
import DocTable.Sql.Path
/-!
# DocTable.Proofs.Shorthand.Column

Columns: accepted paths behind a dollar sign.

A path is accepted if each of its segments is. Such a path has path characters and line breaks
only, so it is the path of a token and then nothing, or a line break and what follows it
(`Path.exists_of_check`). Its column is the extraction of that token, with the rest behind it.

A text is closed if it is expanded on its own, whatever stands behind it (`Closed`). Closed texts
can be put together, so a text that is written piece by piece is expanded piece by piece.
-/

namespace DocTable.Text

/-- What stands before the first mark, and what stands behind it, can be told from the whole. -/
theorem append_mark_inj {α : Type} {mark : α} {s t u v : List α} (hs : mark ∉ s) (ht : mark ∉ t)
    (h : s ++ mark :: u = t ++ mark :: v) : s = t ∧ u = v := by
  induction s generalizing t with
  | nil =>
    cases t with
    | nil => exact ⟨rfl, (List.cons.inj h).2⟩
    | cons c t => exact absurd ((List.cons.inj h).1 ▸ List.mem_cons_self) ht
  | cons c s ih =>
    rw [List.mem_cons, not_or] at hs
    cases t with
    | nil => exact absurd (List.cons.inj h).1.symm hs.1
    | cons d t =>
      rw [List.mem_cons, not_or] at ht
      obtain ⟨rfl, hrest⟩ := List.cons.inj h
      obtain ⟨rfl, huv⟩ := ih hs.2 ht.2 hrest
      exact ⟨rfl, huv⟩

/-- What stands behind the last mark, and what stands before it, can be told from the whole. -/
theorem append_last_mark_inj {α : Type} {mark : α} {s t u v : List α} (hu : mark ∉ u)
    (hv : mark ∉ v) (h : s ++ mark :: u = t ++ mark :: v) : s = t ∧ u = v := by
  have hreverse : u.reverse ++ mark :: s.reverse = v.reverse ++ mark :: t.reverse := by
    simpa using congrArg List.reverse h
  obtain ⟨huv, hst⟩ := append_mark_inj (mt List.mem_reverse.1 hu) (mt List.mem_reverse.1 hv)
    hreverse
  exact ⟨List.reverse_inj.1 hst, List.reverse_inj.1 huv⟩

end DocTable.Text

namespace DocTable.Sql

open Shorthand

/-! ### Accepted paths -/

namespace Path

theorem forM_checkSegment {segments : List Text} :
    segments.forM checkSegment = .ok () ↔ ∀ s ∈ segments, isSegment s = true := by
  induction segments with
  | nil => exact ⟨fun _ => nofun, fun _ => rfl⟩
  | cons s rest ih =>
    have hcons : (s :: rest).forM checkSegment =
        checkSegment s >>= fun _ => rest.forM checkSegment := List.forM_cons
    rw [hcons, List.forall_mem_cons, ← ih]
    cases hs : isSegment s with
    | true => simp [checkSegment, hs, bind, Except.bind]
    | false => simp [checkSegment, hs, bind, Except.bind]

/-- A path is accepted if it is not empty and each of its segments is one. -/
theorem check_eq_ok_iff {path : Text} :
    check path = .ok () ↔ path ≠ [] ∧ ∀ s ∈ Text.pieces '.' path, isSegment s = true := by
  rw [check, ← forM_checkSegment]
  cases path with
  | nil => simp
  | cons c rest => simp

/-- A segment has characters that begin paths, and perhaps a line break at its end. -/
theorem isPathStart_of_mem_segment {segment : Text} (h : isSegment segment = true) {c : Char}
    (hc : c ∈ segment) : isPathStart c = true ∨ c = '\n' := by
  simp only [isSegment, Bool.and_eq_true, List.all_eq_true] at h
  have hcore := h.2
  rw [core] at hcore
  split at hcore
  · next hlast =>
    obtain ⟨front, rfl⟩ := List.getLast?_eq_some_iff.1 hlast
    rw [List.dropLast_concat] at hcore
    rcases List.mem_append.1 hc with hc | hc
    · exact .inl (hcore c hc)
    · exact .inr (List.mem_singleton.1 hc)
  · exact .inl (hcore c hc)

theorem startsPath_of_isSegment {segment : Text} (h : isSegment segment = true) :
    startsPath segment = true := by
  simp only [isSegment, Bool.and_eq_true, Bool.not_eq_true', List.isEmpty_eq_false_iff,
    List.all_eq_true] at h
  obtain ⟨hne, hall⟩ := h
  rw [core] at hne hall
  cases segment with
  | nil => exact absurd rfl hne
  | cons c rest =>
    refine hall c ?_
    split at hne
    · cases rest with
      | nil => exact absurd rfl hne
      | cons d rest => rw [if_pos (by assumption)]; exact List.mem_cons_self
    · rw [if_neg (by assumption)]; exact List.mem_cons_self

theorem startsPath_of_check {path : Text} (h : check path = .ok ()) : startsPath path = true := by
  have hfirst : isSegment (Text.cut '.' path).1 = true :=
    (check_eq_ok_iff.1 h).2 _ List.mem_cons_self
  have hstart := startsPath_of_isSegment hfirst
  cases path with
  | nil => exact hstart
  | cons c rest =>
    by_cases hc : c = '.'
    · simp [Text.cut, hc, startsPath] at hstart
    · simpa [Text.cut, hc, startsPath] using hstart

theorem isPathChar_of_check {path : Text} (h : check path = .ok ()) {c : Char} (hc : c ∈ path) :
    isPathChar c = true ∨ c = '\n' := by
  rw [← Text.join_pieces '.' path] at hc
  rcases Text.mem_join hc with hc | ⟨s, hs, hc⟩
  · rw [List.mem_singleton.1 hc]
    exact .inl (by decide)
  · exact (isPathStart_of_mem_segment ((check_eq_ok_iff.1 h).2 s hs) hc).imp
      isPathChar_of_isPathStart id

theorem notMem_of_check {path : Text} (h : check path = .ok ()) {c : Char}
    (hc : isPathChar c = false) (hbreak : c ≠ '\n') : c ∉ path := fun hmem => by
  rcases isPathChar_of_check h hmem with hpath | hpath
  · rw [hc] at hpath
    exact absurd hpath (by simp)
  · exact hbreak hpath

/-- An accepted path is the path of a token, and then nothing or a line break and more. -/
theorem exists_of_check {path : Text} (h : check path = .ok ()) :
    ∃ token tail, path = token ++ tail ∧ IsPath token ∧ continuesPath tail = false ∧
      '$' ∉ tail ∧ '\'' ∉ tail ∧ ' ' ∉ tail := by
  obtain ⟨token, tail, htoken, htail, rfl⟩ := exists_path (startsPath_of_check h)
  have hclean : ∀ c, isPathChar c = false → c ≠ '\n' → c ∉ tail := fun c hc hbreak hmem =>
    notMem_of_check h hc hbreak (List.mem_append_right _ hmem)
  exact ⟨token, tail, rfl, htoken, htail, hclean _ (by decide) (by decide),
    hclean _ (by decide) (by decide), hclean _ (by decide) (by decide)⟩

/-! ### Plain paths -/

/-- A path of segments that have characters of one kind alone. -/
def IsMadeOf (kind : Char → Bool) (path : Text) : Prop :=
  ∀ segment ∈ Text.pieces '.' path, segment ≠ [] ∧ ∀ c ∈ segment, kind c = true

instance (kind : Char → Bool) (path : Text) : Decidable (IsMadeOf kind path) :=
  decidable_of_iff
    ((Text.pieces '.' path).all (fun segment => !segment.isEmpty && segment.all kind) = true)
    (by simp [IsMadeOf])

/-- A path of segments that are letters and underscores alone. Accepted paths may have line breaks
besides. -/
abbrev IsPlain (path : Text) : Prop :=
  IsMadeOf isPathStart path

theorem isSegment_of_isPathStart {segment : Text} (hne : segment ≠ [])
    (h : ∀ c ∈ segment, isPathStart c = true) : isSegment segment = true := by
  have hcore : core segment = segment := by
    refine if_neg fun hlast => ?_
    have hbreak := h '\n' (List.mem_of_getLast? hlast)
    exact absurd hbreak (by decide)
  rw [isSegment, hcore, Bool.and_eq_true, Bool.not_eq_true', List.isEmpty_eq_false_iff,
    List.all_eq_true]
  exact ⟨hne, h⟩

theorem IsPlain.check {path : Text} (h : IsPlain path) : check path = .ok () := by
  refine check_eq_ok_iff.2 ⟨?_, fun s hs => isSegment_of_isPathStart (h s hs).1 (h s hs).2⟩
  rintro rfl
  exact (h [] List.mem_cons_self).1 rfl

/-- A plain path is the path of a token, all of it. -/
theorem IsPlain.isPath {path : Text} (h : IsPlain path) : IsPath path where
  starts := startsPath_of_check h.check
  chars c hc := by
    rw [← Text.join_pieces '.' path] at hc
    rcases Text.mem_join hc with hc | ⟨s, hs, hc⟩
    · rw [List.mem_singleton.1 hc]
      decide
    · exact isPathChar_of_isPathStart ((h s hs).2 c hc)

end Path

namespace Shorthand

/-! ### Closed texts -/

/-- A text that is expanded on its own, whatever stands behind it. -/
def Closed (t : Text) : Prop :=
  ∀ rest, expand (t ++ rest) = expand t ++ expand rest

theorem closed_nil : Closed [] := by
  intro rest
  rw [expand_eq_self List.not_mem_nil]
  rfl

theorem Closed.append {s t : Text} (hs : Closed s) (ht : Closed t) : Closed (s ++ t) := by
  intro rest
  rw [List.append_assoc, hs, ht, hs, List.append_assoc]

/-- Text without dollar signs and quotes is closed. -/
theorem closed_of_notMem {t : Text} (hd : '$' ∉ t) (hq : '\'' ∉ t) : Closed t := by
  intro rest
  rw [expand_eq_self hd, expand_eq_expandFrom, expandFrom_append hq hd, ← expand_eq_expandFrom]

/-- A token is closed by a text that does not go on with its path. -/
theorem closed_token {path after : Text} (hp : IsPath path) (hne : after ≠ [])
    (ha : continuesPath after = false) (hd : '$' ∉ after) (hq : '\'' ∉ after) :
    Closed ('$' :: (path ++ after)) := by
  intro rest
  have hrest : continuesPath (after ++ rest) = false := by
    cases after with
    | nil => exact absurd rfl hne
    | cons c after => exact ha
  calc expand ('$' :: (path ++ after) ++ rest)
      = expandFrom false ('$' :: (path ++ (after ++ rest))) := by
        rw [expand_eq_expandFrom, List.cons_append, List.append_assoc]
    _ = extract path ++ (after ++ expandFrom false rest) := by
        rw [expandFrom_token hp hrest, if_neg (by simp), expandFrom_append hq hd]
    _ = extract path ++ after ++ expand rest := by
        rw [expand_eq_expandFrom, List.append_assoc]
    _ = expand ('$' :: (path ++ after)) ++ expand rest := by
        rw [expand_eq_expandFrom ('$' :: _), expandFrom_token hp ha, if_neg (by simp),
          ← expand_eq_expandFrom after, expand_eq_self hd]

end Shorthand

/-! ### Columns -/

/-- The column of a path. -/
def columnText (path : Text) : Text :=
  expand ('$' :: path)

/-- The column of an accepted path, as it is written before another text. -/
theorem columnText_eq {token tail : Text} (ht : IsPath token) (htail : continuesPath tail = false)
    (hd : '$' ∉ tail) : columnText (token ++ tail) = extract token ++ tail := by
  rw [columnText, expand_eq_expandFrom, expandFrom_token ht htail, if_neg (by simp),
    ← expand_eq_expandFrom, expand_eq_self hd]

/-- The column of a plain path is its extraction. -/
theorem columnText_plain {path : Text} (h : Path.IsPlain path) :
    columnText path = extract path := by
  have hcolumn : columnText (path ++ []) = extract path ++ [] :=
    columnText_eq h.isPath rfl List.not_mem_nil
  simpa using hcolumn

/-- A column with a blank behind it, and any text without dollar signs and quotes. -/
theorem expand_column {path after : Text} (h : Path.check path = .ok ()) (hd : '$' ∉ after)
    (hq : '\'' ∉ after) :
    Closed ('$' :: path ++ ' ' :: after) ∧
      expand ('$' :: path ++ ' ' :: after) = columnText path ++ ' ' :: after := by
  obtain ⟨token, tail, rfl, ht, htail, htd, htq, -⟩ := Path.exists_of_check h
  have hend : continuesPath (tail ++ ' ' :: after) = false := by
    cases tail with
    | nil => exact show isPathChar ' ' = false by decide
    | cons c tail => exact htail
  have hdollar : '$' ∉ tail ++ ' ' :: after := by simp [htd, hd]
  have hquote : '\'' ∉ tail ++ ' ' :: after := by simp [htq, hq]
  constructor
  · have := closed_token ht (by simp) hend hdollar hquote
    simpa using this
  · rw [columnText_eq ht htail htd, List.cons_append, List.append_assoc, expand_eq_expandFrom,
      expandFrom_token ht hend, if_neg (by simp), ← expand_eq_expandFrom, expand_eq_self hdollar,
      List.append_assoc]

/-- No blank is in a column, so the first one behind it shows where it ends. -/
theorem blank_notMem_columnText {path : Text} (h : Path.check path = .ok ()) :
    ' ' ∉ columnText path := by
  obtain ⟨token, tail, rfl, ht, htail, hd, -, hb⟩ := Path.exists_of_check h
  have htoken : ' ' ∉ token := ht.notMem_of_not_isPathChar (by decide)
  rw [columnText_eq ht htail hd]
  simp [extract, dataColumn, htoken, hb]

/-- Different paths have different columns. -/
theorem columnText_inj {path path' : Text} (h : Path.check path = .ok ())
    (h' : Path.check path' = .ok ()) (heq : columnText path = columnText path') :
    path = path' := by
  obtain ⟨token, tail, rfl, ht, htail, hd, -⟩ := Path.exists_of_check h
  obtain ⟨token', tail', rfl, ht', htail', hd', -⟩ := Path.exists_of_check h'
  rw [columnText_eq ht htail hd, columnText_eq ht' htail' hd'] at heq
  simp only [extract, List.append_assoc, List.append_cancel_left_eq, List.singleton_append] at heq
  obtain ⟨rfl, rfl⟩ := Text.append_mark_inj ht.quote_notMem ht'.quote_notMem heq
  rfl

end DocTable.Sql
