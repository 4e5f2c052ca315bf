import DocTable.Proofs.Condition.Wording
import DocTable.Proofs.Shorthand.Embedded
import DocTable.Sql.Clause
/-!
# DocTable.Proofs.Condition.Dotted

Fragments that are embedded into others.

The text of a compiled condition is dotted: its dollar signs are those of extractions
(`dotted_wording`). So it stays as it is when a fragment that holds it is expanded again. A fragment
of a template is expanded again segment by segment, whatever dotted fragment comes after it
(`expanded_expanded_append`).
-/

namespace DocTable.Sql

open Shorthand

namespace Fragment

/-! ### Fragments one after another -/

theorem glue_glue (head : Text) (holes : List (Json × Text))
    (next last : Text × List (Json × Text)) :
    glue (glue head holes next).1 (glue head holes next).2 last =
      glue head holes (glue next.1 next.2 last) := by
  induction holes generalizing head with
  | nil =>
    obtain ⟨t, rest⟩ := next
    cases rest with
    | nil => simp [glue, List.append_assoc]
    | cons x rest => simp [glue]
  | cons x rest ih =>
    have ih := ih x.2
    simp only [glue] at ih ⊢
    rw [ih]

theorem append_assoc (f g h : Fragment) : f ++ g ++ h = f ++ (g ++ h) := by
  have hglue := glue_glue f.head f.holes (g.head, g.holes) (h.head, h.holes)
  exact Fragment.ext (congrArg Prod.fst hglue) (congrArg Prod.snd hglue)

@[simp] theorem text_append (f g : Fragment) : (f ++ g).text = f.text ++ g.text := by
  simp only [text_eq_marked, filled_append, marked_append]

@[simp] theorem values_append (f g : Fragment) : (f ++ g).values = f.values ++ g.values := by
  simp only [values_eq_filterMap, filled_append, List.filterMap_append]

@[simp] theorem text_literal (t : Text) (clean : '?' ∉ t) : (literal t clean).text = t :=
  List.append_nil t

@[simp] theorem values_literal (t : Text) (clean : '?' ∉ t) : (literal t clean).values = [] := rfl

theorem text_join (sep : Fragment) (fs : List Fragment) :
    (join sep fs).text = Text.join sep.text (fs.map text) := by
  induction fs with
  | nil => rfl
  | cons f fs ih =>
    cases fs with
    | nil => rfl
    | cons g rest => rw [join, text_append, text_append, ih]; rfl

theorem values_join {sep : Fragment} (hsep : sep.values = []) (fs : List Fragment) :
    (join sep fs).values = fs.flatMap values := by
  induction fs with
  | nil => rfl
  | cons f fs ih =>
    cases fs with
    | nil => simp [join]
    | cons g rest =>
      rw [join, values_append, values_append, ih, hsep, List.append_nil]
      rfl

/-! ### Dotted fragments -/

theorem dotted_segments {head : Text} {holes : List (Json × Text)}
    (h : Dotted (head ++ holes.flatMap fun h => holeMark :: h.2)) :
    Dotted head ∧ ∀ h ∈ holes, Dotted h.2 := by
  induction holes generalizing head with
  | nil => exact ⟨by simpa using h, nofun⟩
  | cons x rest ih =>
    rw [List.flatMap_cons, List.cons_append] at h
    obtain ⟨hhead, hrest⟩ := dotted_mark h
    exact ⟨hhead, List.forall_mem_cons.2 (ih hrest)⟩

theorem map_expand_eq_self {holes : List (Json × Text)} (h : ∀ x ∈ holes, expand x.2 = x.2) :
    holes.map (fun x => (x.1, expand x.2)) = holes := by
  have hmap : ∀ x ∈ holes, (x.1, expand x.2) = id x := by
    intro x hx
    rw [h x hx]
    rfl
  rw [List.map_congr_left hmap, List.map_id]

/-- A fragment stays as it is, if each of its segments does. -/
theorem expanded_eq_self {f : Fragment} (h : ∀ p ∈ f.parts, expand p = p) : f.expanded = f := by
  rw [parts, List.forall_mem_cons, List.forall_mem_map] at h
  exact Fragment.ext h.1 (map_expand_eq_self h.2)

theorem map_expand_dotted {holes : List (Json × Text)} (h : ∀ x ∈ holes, Dotted x.2) :
    holes.map (fun x => (x.1, expand x.2)) = holes := by
  refine map_expand_eq_self ?_
  intro x hx
  exact expand_dotted (h x hx)

/-- A fragment of dotted text stays as it is. -/
theorem expanded_dotted {f : Fragment} (h : Dotted f.text) : f.expanded = f := by
  obtain ⟨hhead, hholes⟩ := dotted_segments h
  exact Fragment.ext (expand_dotted hhead) (map_expand_dotted hholes)

theorem expand_glue_expanded (head : Text) (holes : List (Json × Text))
    (next : Text × List (Json × Text)) (hnext : Dotted next.1) (hstart : startsPath next.1 = false)
    (hholes : ∀ h ∈ next.2, Dotted h.2) :
    let again (h : Json × Text) := (h.1, expand h.2)
    let glued := glue (expand head) (holes.map again) next
    (expand glued.1, glued.2.map again) =
      glue (expand (expand head)) ((holes.map again).map again) next := by
  intro again glued
  -- What comes after is joined to the last segment, so the others are as they were.
  induction holes generalizing head with
  | nil =>
    show (expand (expand head ++ next.1), next.2.map again) =
      (expand (expand head) ++ next.1, next.2)
    rw [expand_expand_append hnext hstart, map_expand_dotted hholes]
  | cons x rest ih =>
    have ih := ih x.2
    simp only [glued, again, glue, List.map_cons] at ih ⊢
    rw [← ih]

/-- A fragment that has been expanded is expanded again on its own, whatever dotted fragment comes
after it. -/
theorem expanded_expanded_append (f : Fragment) {g : Fragment} (hg : Dotted g.text)
    (hstart : startsPath g.head = false) :
    (f.expanded ++ g).expanded = f.expanded.expanded ++ g := by
  obtain ⟨hhead, hholes⟩ := dotted_segments hg
  have hglue := expand_glue_expanded f.head f.holes (g.head, g.holes) hhead hstart hholes
  exact Fragment.ext (congrArg Prod.fst hglue) (congrArg Prod.snd hglue)

end Fragment

/-- A clause that selects by a dotted fragment puts its keyword in front of it. -/
theorem selecting_eq_where {f : Fragment} (h : Dotted f.text) : selecting f = Clause.where f := by
  refine Fragment.expanded_dotted ?_
  rw [Clause.where, Fragment.text_append]
  exact Dotted.append (show Dotted "where ".toList by decide) h

/-! ### Columns -/

theorem dotted_flatMap {α : Type} {f : α → Text} {xs : List α} (h : ∀ x ∈ xs, Dotted (f x)) :
    Dotted (xs.flatMap f) := by
  induction xs with
  | nil => trivial
  | cons x xs ih =>
    rw [List.forall_mem_cons] at h
    rw [List.flatMap_cons]
    exact h.1.append (ih h.2)

theorem dotted_columnText {path : Text} (h : Path.check path = .ok ()) :
    Dotted (columnText path) := by
  obtain ⟨token, tail, rfl, htoken, htail, hdollar, -⟩ := Path.exists_of_check h
  have hextract : Dotted ("data->>'$.".toList ++ (token ++ ['\''])) := by
    have hbehind : '$' ∉ token ++ ['\''] := by
      simp [htoken.dollar_notMem]
    exact Dotted.append (by decide) (dotted_of_notMem hbehind)
  rw [columnText_eq htoken htail hdollar, extract]
  exact Dotted.append (by simpa [dataColumn] using hextract) (dotted_of_notMem hdollar)

/-! ### Ordering and limiting -/

/-- The word behind a column that is sorted by: none if the least comes first. -/
def directionText (descending : Bool) : Text :=
  if descending then " desc".toList else []

/-- Both directions accept the same paths. -/
theorem direction_eq (path : Text) (descending : Bool) :
    (if descending then OrderKey.descend else OrderKey.ascending) path =
      Path.check path >>= fun _ => .ok ⟨path, descending⟩ := by
  cases descending with
  | false => rfl
  | true => rfl

theorem expand_orderKey {path : Text} (h : Path.check path = .ok ()) (descending : Bool) :
    expand ('$' :: path ++ directionText descending) =
      columnText path ++ directionText descending := by
  cases descending with
  | false => simp [directionText, columnText]
  | true =>
    have hdollar : '$' ∉ "desc".toList := by decide
    exact (expand_column h hdollar (by decide)).2

/-- The clause that sorts by a path has its column and the word for the direction. -/
theorem ordering_eq_ok {path : Text} (h : Path.check path = .ok ()) (descending : Bool) :
    ∃ f, ordering [⟨path, descending⟩] = .ok f ∧
      f.text = "order by ".toList ++ columnText path ++ directionText descending ∧
      f.values = [] := by
  have hclean : '?' ∉ path := Path.notMem_of_check h (by decide) (by decide)
  have hkey : '?' ∉ '$' :: path ++ directionText descending := by
    cases descending <;> simp [directionText, hclean]
  have hdraft : (⟨path, descending⟩ : OrderKey).draft = .ok (Fragment.literal _ hkey) := by
    show Condition.column path (directionText descending) = _
    rw [Condition.column, Fragment.literal?, dif_pos hkey]
    rfl
  have hkeyword : (Condition.keyword "order by " (by decide)).Closed :=
    Fragment.closed_keyword _ (by decide)
  refine ⟨build (Condition.keyword "order by " (by decide) ++ Fragment.literal _ hkey), ?_, ?_, rfl⟩
  · simp only [ordering, Clause.orderBy, List.mapM_cons, hdraft]
    rfl
  · have hcolumn : (Fragment.literal _ hkey).expanded.text =
        columnText path ++ directionText descending := by
      rw [← expand_orderKey h]
      exact List.append_nil _
    rw [build, Fragment.expanded_append hkeyword, Fragment.expanded_keyword _ (by decide),
      Fragment.text_append, hcolumn, List.append_assoc]
    rfl

/-- The clause that limits binds the limit. -/
theorem text_limiting (n : Int) :
    (limiting n none).text = "limit ?".toList ∧ (limiting n none).values = [.int n] := by
  have hdotted : (Clause.limit n none).expanded = Clause.limit n none :=
    Fragment.expanded_dotted (show Dotted "limit ?".toList by decide)
  rw [limiting, build, hdotted]
  exact ⟨rfl, rfl⟩

/-! ### Conditions -/

namespace Condition

open Fragment (marked marked_append marked_verbatim)

theorem marked_flatMap {α : Type} (f : α → Filled) (xs : List α) :
    marked (xs.flatMap f) = xs.flatMap fun x => marked (f x) :=
  List.map_flatMap ..

theorem dotted_holesWording (values : List Json) : Dotted (marked (holesWording values)) := by
  cases values with
  | nil => trivial
  | cons v vs =>
    rw [holesWording, List.map_cons, intercalate_cons, marked_append, marked_flatMap]
    refine Dotted.append (t := _) (show Dotted [holeMark] by decide) (dotted_flatMap ?_)
    intro hole hmem
    obtain ⟨w, -, rfl⟩ := List.mem_map.1 hmem
    show Dotted [',', ' ', holeMark]
    decide

theorem dotted_boundWording (op : Operator) (bound : Json) :
    Dotted (marked (boundWording op bound)) := by
  cases op with
  | isNull | isNotNull =>
    rw [boundWording, marked_verbatim]
    decide
  | oneOf =>
    rw [boundWording, marked_append, marked_append, marked_verbatim, marked_verbatim]
    exact (Dotted.append (by decide) (dotted_holesWording _)).append (by decide)
  | equal | notEqual | greater | greaterEqual | less | lessEqual | like | unknown =>
    exact show Dotted [holeMark] by decide

theorem dotted_comparisonWording {path : Text} (h : Path.check path = .ok ()) (op : Operator)
    (bound : Json) : Dotted (marked (comparisonWording path op bound)) := by
  have hword : Dotted (' ' :: testWord op) := by
    cases op with
    | unknown name => exact show Dotted [' '] by decide
    | _ => decide
  unfold comparisonWording
  split
  · rw [marked_verbatim]
    decide
  · rw [marked_append, marked_verbatim]
    have hcolumn := (dotted_columnText h).append hword
    exact (hcolumn.append (by decide)).append (dotted_boundWording op bound)

/-- Nothing but brackets and words comes around what is connected. -/
theorem dotted_enclosed {front : Text} (hfront : Dotted front) {w : Filled}
    (h : Dotted (marked w)) : Dotted (marked (verbatim front ++ w ++ verbatim [')'])) := by
  rw [marked_append, marked_append, marked_verbatim, marked_verbatim]
  exact (hfront.append h).append (by decide)

theorem dotted_operands {w rest : Filled} (hw : Dotted (marked w)) (hrest : Dotted (marked rest)) :
    Dotted (marked (verbatim ['('] ++ w ++ rest ++ verbatim [')'])) := by
  rw [List.append_assoc (verbatim _)]
  refine dotted_enclosed (by decide) ?_
  rw [marked_append]
  exact hw.append hrest

mutual

/-- The dollar signs of a wording are those of its columns. -/
theorem dotted_wording {c : Condition} (h : WellFormed c) : Dotted (marked (wording c)) := by
  match c, h with
  | .comparison path op bound, h => exact dotted_comparisonWording h.1 op bound
  | .logical .not [c], h =>
    have hc : WellFormed c := h
    rw [wording]
    exact dotted_enclosed (by decide) (dotted_wording hc)
  | .logical .and (c :: d :: cs), h =>
    have hrest : AllWellFormed (d :: cs) := h.2
    rw [wording]
    exact dotted_operands (dotted_wording h.1) (dotted_restWording (by decide) hrest)
  | .logical .or (c :: d :: cs), h =>
    have hrest : AllWellFormed (d :: cs) := h.2
    rw [wording]
    exact dotted_operands (dotted_wording h.1) (dotted_restWording (by decide) hrest)

theorem dotted_restWording {mark : Text} (hmark : Dotted mark) {cs : List Condition}
    (h : AllWellFormed cs) : Dotted (marked (restWording (verbatim mark) cs)) := by
  match cs, h with
  | [], _ => trivial
  | c :: cs, h =>
    rw [restWording, marked_append, marked_append, marked_verbatim]
    exact (hmark.append (dotted_wording h.1)).append (dotted_restWording hmark h.2)

end

/-- Compiled conditions stay as they are wherever they are embedded. -/
theorem dotted_compile {c : Condition} (h : WellFormed c) {f : Fragment} (hf : c.compile = .ok f) :
    Dotted f.text := by
  obtain ⟨g, hg, hfilled⟩ := compile_wellFormed h
  obtain rfl : g = f := Except.ok.inj (hg.symm.trans hf)
  rw [Fragment.text_eq_marked, hfilled]
  exact dotted_wording h

end Condition

end DocTable.Sql
