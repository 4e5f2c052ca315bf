import DocTable.Proofs.Shorthand.Column
import DocTable.Proofs.Statement.Filling
import DocTable.Sql.Condition
/-!
# DocTable.Proofs.Condition.Wording

The text of a condition, by recursion on the condition.

`wording` writes a condition with its values in their places. Compilation goes another way: it
writes the whole condition in the shorthand, as one fragment whose neighbouring texts are joined,
and expands the segments of that fragment afterwards. All texts it writes are closed, so the two
agree (`compile_wellFormed`): a well-formed condition compiles, and to its wording.
-/

namespace DocTable.Sql

open Shorthand

theorem verbatim_append (t u : Text) : verbatim (t ++ u) = verbatim t ++ verbatim u :=
  List.map_append

@[simp] theorem verbatim_nil : verbatim [] = [] := rfl

theorem verbatim_cons (c : Char) (t : Text) : verbatim (c :: t) = .inl c :: verbatim t := rfl

theorem verbatim_injective {t u : Text} (h : verbatim t = verbatim u) : t = u :=
  (List.map_inj_right fun _ _ => Sum.inl.inj).1 h

theorem mem_verbatim {c : Char} {t : Text} : .inl c ∈ verbatim t ↔ c ∈ t := by
  simp [verbatim]

namespace Fragment

/-! ### Fragments one after another -/

theorem filled_glue (head : Text) (holes : List (Json × Text)) (next : Text × List (Json × Text)) :
    (verbatim (glue head holes next).1 ++
        (glue head holes next).2.flatMap fun h => .inr h.1 :: verbatim h.2) =
      (verbatim head ++ holes.flatMap fun h => .inr h.1 :: verbatim h.2) ++
        (verbatim next.1 ++ next.2.flatMap fun h => .inr h.1 :: verbatim h.2) := by
  induction holes generalizing head with
  | nil => simp [glue, verbatim_append]
  | cons x rest ih =>
    obtain ⟨v, t⟩ := x
    have ih := ih t
    simp only [glue, List.flatMap_cons, List.cons_append, List.append_assoc] at ih ⊢
    rw [ih]

@[simp] theorem filled_append (f g : Fragment) : (f ++ g).filled = f.filled ++ g.filled :=
  filled_glue f.head f.holes (g.head, g.holes)

@[simp] theorem filled_hole (v : Json) : (hole v).filled = [.inr v] := rfl

theorem filled_literal (t : Text) (clean : '?' ∉ t) : (literal t clean).filled = verbatim t :=
  List.append_nil _

@[simp] theorem filled_keyword (t : String) (clean : '?' ∉ t.toList) :
    (Condition.keyword t clean).filled = verbatim t.toList :=
  filled_literal _ clean

theorem filled_join (sep : Fragment) (fs : List Fragment) :
    (join sep fs).filled = List.intercalate sep.filled (fs.map filled) := by
  induction fs with
  | nil => rfl
  | cons f fs ih =>
    cases fs with
    | nil => simp [join, List.intercalate]
    | cons g rest =>
      rw [join, filled_append, filled_append, ih]
      simp [List.intercalate]

/-- Fragments are alike in text and values exactly if they are alike with the values in their
places. -/
theorem filled_inj_iff {f g : Fragment} :
    f.filled = g.filled ↔ f.text = g.text ∧ f.values = g.values := by
  constructor
  · intro h
    rw [text_eq_marked, values_eq_filterMap, h, ← text_eq_marked, ← values_eq_filterMap]
    exact ⟨rfl, rfl⟩
  · rintro ⟨ht, hv⟩
    rw [← fill_text, ht, hv, fill_text]

/-! ### Expansion of closed fragments -/

/-- All segments of a fragment are closed. -/
def Closed (f : Fragment) : Prop :=
  ∀ p ∈ f.parts, Shorthand.Closed p

theorem closed_hole (v : Json) : (hole v).Closed := by
  simp [Closed, parts, hole, closed_nil]

theorem closed_literal {t : Text} (clean : '?' ∉ t) (h : Shorthand.Closed t) :
    (literal t clean).Closed := by
  simpa [Closed, parts, literal] using h

theorem closed_keyword {t : String} (clean : '?' ∉ t.toList)
    (h : '$' ∉ t.toList ∧ '\'' ∉ t.toList) : (Condition.keyword t clean).Closed :=
  closed_literal clean (closed_of_notMem h.1 h.2)

theorem closed_glue {head : Text} {holes : List (Json × Text)} {next : Text × List (Json × Text)}
    (hh : Shorthand.Closed head) (hs : ∀ h ∈ holes, Shorthand.Closed h.2)
    (hn : Shorthand.Closed next.1) (hns : ∀ h ∈ next.2, Shorthand.Closed h.2) :
    Shorthand.Closed (glue head holes next).1 ∧
      ∀ h ∈ (glue head holes next).2, Shorthand.Closed h.2 := by
  induction holes generalizing head with
  | nil => exact ⟨hh.append hn, hns⟩
  | cons x rest ih =>
    obtain ⟨v, t⟩ := x
    rw [List.forall_mem_cons] at hs
    obtain ⟨h₁, h₂⟩ := ih hs.1 hs.2
    exact ⟨hh, List.forall_mem_cons.2 ⟨h₁, h₂⟩⟩

theorem closed_iff {f : Fragment} :
    f.Closed ↔ Shorthand.Closed f.head ∧ ∀ h ∈ f.holes, Shorthand.Closed h.2 := by
  rw [Closed, parts, List.forall_mem_cons, List.forall_mem_map]

theorem Closed.append {f g : Fragment} (hf : f.Closed) (hg : g.Closed) : (f ++ g).Closed := by
  rw [closed_iff] at hf hg ⊢
  exact closed_glue hf.1 hf.2 hg.1 hg.2

theorem closed_join {sep : Fragment} (hsep : sep.Closed) {fs : List Fragment}
    (h : ∀ f ∈ fs, f.Closed) : (join sep fs).Closed := by
  induction fs with
  | nil => exact closed_literal (t := []) (by simp) closed_nil
  | cons f fs ih =>
    rw [List.forall_mem_cons] at h
    cases fs with
    | nil => exact h.1
    | cons g rest => exact (h.1.append hsep).append (ih h.2)

theorem expand_glue {head : Text} {holes : List (Json × Text)} (next : Text × List (Json × Text))
    (hh : Shorthand.Closed head) (hs : ∀ h ∈ holes, Shorthand.Closed h.2) :
    (expand (glue head holes next).1, (glue head holes next).2.map fun h => (h.1, expand h.2)) =
      glue (expand head) (holes.map fun h => (h.1, expand h.2))
        (expand next.1, next.2.map fun h => (h.1, expand h.2)) := by
  induction holes generalizing head with
  | nil => rw [glue, hh]; rfl
  | cons x rest ih =>
    obtain ⟨v, t⟩ := x
    rw [List.forall_mem_cons] at hs
    have ih := ih hs.1 hs.2
    simp only [glue, List.map_cons] at ih ⊢
    rw [← ih]

/-- Behind a closed fragment every other one is expanded on its own. -/
theorem expanded_append {f : Fragment} (hf : f.Closed) (g : Fragment) :
    (f ++ g).expanded = f.expanded ++ g.expanded := by
  rw [closed_iff] at hf
  have hglue := expand_glue (g.head, g.holes) hf.1 hf.2
  exact Fragment.ext (congrArg Prod.fst hglue) (congrArg Prod.snd hglue)

theorem expanded_join {sep : Fragment} (hsep : sep.Closed) {fs : List Fragment}
    (h : ∀ f ∈ fs, f.Closed) :
    (join sep fs).expanded = join sep.expanded (fs.map expanded) := by
  induction fs with
  | nil => exact Fragment.ext (expand_eq_self List.not_mem_nil) rfl
  | cons f fs ih =>
    rw [List.forall_mem_cons] at h
    cases fs with
    | nil => rfl
    | cons g rest =>
      rw [join, expanded_append (h.1.append hsep), expanded_append h.1, ih h.2]
      rfl

theorem expanded_hole (v : Json) : (hole v).expanded = hole v := by
  refine Fragment.ext (expand_eq_self List.not_mem_nil) ?_
  simp [expanded, hole, expand_eq_self]

theorem expanded_keyword {t : String} (clean : '?' ∉ t.toList) (h : '$' ∉ t.toList) :
    (Condition.keyword t clean).expanded = Condition.keyword t clean :=
  Fragment.ext (expand_eq_self h) rfl

end Fragment

namespace Condition

/-! ### The wording of a condition -/

/-- Holes for values with commas between them. -/
def holesWording (values : List Json) : Filled :=
  List.intercalate (verbatim [',', ' ']) (values.map fun v => [.inr v])

/-- The word that says what a comparison tests. -/
def testWord : Operator → Text
  | .isNull | .isNotNull => "IS".toList
  | .oneOf => "IN".toList
  | op => op.symbol?.getD []

/-- What a comparison tests against. -/
def boundWording (op : Operator) (bound : Json) : Filled :=
  match op with
  | .isNull => verbatim "NULL".toList
  | .isNotNull => verbatim "NOT NULL".toList
  | .oneOf => verbatim ['('] ++ holesWording (bound.items?.getD []) ++ verbatim [')']
  | _ => [.inr bound]

/-- A comparison. Membership in an empty list is the number zero, whatever its path. -/
def comparisonWording (path : Text) (op : Operator) (bound : Json) : Filled :=
  if op = .oneOf ∧ bound = .array [] then verbatim ['0']
  else verbatim (columnText path ++ ' ' :: testWord op ++ [' ']) ++ boundWording op bound

mutual

/-- A condition with its values in their places. -/
def wording : Condition → Filled
  | .comparison path op bound => comparisonWording path op bound
  | .logical .not (c :: _) => verbatim "NOT (".toList ++ wording c ++ verbatim [')']
  | .logical .and (c :: cs) =>
    verbatim ['('] ++ wording c ++ restWording (verbatim " AND ".toList) cs ++ verbatim [')']
  | .logical .or (c :: cs) =>
    verbatim ['('] ++ wording c ++ restWording (verbatim " OR ".toList) cs ++ verbatim [')']
  | .logical _ _ | .value _ => []

/-- Further operands, each behind the mark of the connective. -/
def restWording (mark : Filled) : List Condition → Filled
  | [] => []
  | c :: cs => mark ++ wording c ++ restWording mark cs

end

/-! ### Well-formed conditions -/

/-- Whether an operator can compare with a value: a test for null has none, membership is among
the items of a list. -/
def Fits : Operator → Json → Prop
  | .isNull, v | .isNotNull, v => v = .null
  | .oneOf, v => ∃ items, v = .array items
  | .unknown _, _ => False
  | _, _ => True

mutual

/-- Comparisons of accepted paths, negations of one operand, and connectives between two or
more. -/
def WellFormed : Condition → Prop
  | .comparison path op bound => Path.check path = .ok () ∧ Fits op bound
  | .logical .not [c] => WellFormed c
  | .logical .and (c :: d :: cs) | .logical .or (c :: d :: cs) =>
    WellFormed c ∧ WellFormed d ∧ AllWellFormed cs
  | .logical _ _ | .value _ => False

/-- `WellFormed` for each of several conditions. -/
def AllWellFormed : List Condition → Prop
  | [] => True
  | c :: cs => WellFormed c ∧ AllWellFormed cs

end

/-! ### Compilation gives the wording -/

/-- A draft that succeeds with a closed fragment, and the wording it expands to. -/
def Drafts (draft : Except QueryError Fragment) (w : Filled) : Prop :=
  ∃ f, draft = .ok f ∧ f.Closed ∧ f.expanded.filled = w

theorem drafts_column {path : Text} (h : Path.check path = .ok ()) (after : Text)
    (hd : '$' ∉ after) (hq : '\'' ∉ after) (hh : '?' ∉ after) :
    Drafts (column path (' ' :: after)) (verbatim (columnText path ++ ' ' :: after)) := by
  have hpath : '?' ∉ path := Path.notMem_of_check h (by decide) (by decide)
  have hclean : '?' ∉ '$' :: path ++ ' ' :: after := by simp [hpath, hh]
  obtain ⟨hclosed, hexpand⟩ := expand_column h hd hq
  refine ⟨Fragment.literal _ hclean, ?_, Fragment.closed_literal hclean hclosed, ?_⟩
  · rw [column, Fragment.literal?, dif_pos hclean]
    rfl
  · rw [← hexpand]
    exact List.append_nil _

theorem Drafts.append {r : Except QueryError Fragment} {w : Filled} (h : Drafts r w)
    {g : Fragment} (hg : g.Closed) :
    Drafts (do return (← r) ++ g) (w ++ g.expanded.filled) := by
  obtain ⟨f, rfl, hf, rfl⟩ := h
  refine ⟨f ++ g, rfl, hf.append hg, ?_⟩
  rw [Fragment.expanded_append hf, Fragment.filled_append]

theorem closed_comma : comma.Closed := Fragment.closed_keyword _ (by decide)

theorem closed_closing : (keyword ")" (by decide)).Closed := Fragment.closed_keyword _ (by decide)

theorem closed_holeList (values : List Json) : (holeList values).Closed :=
  Fragment.closed_join closed_comma (List.forall_mem_map.2 fun v _ => Fragment.closed_hole v)

theorem expanded_holeList (values : List Json) : (holeList values).expanded = holeList values := by
  have hholes : ∀ f ∈ values.map Fragment.hole, f.Closed :=
    List.forall_mem_map.2 fun v _ => Fragment.closed_hole v
  rw [holeList, Fragment.expanded_join closed_comma hholes, comma,
    Fragment.expanded_keyword _ (by decide), List.map_map]
  exact congrArg _ (List.map_congr_left fun v _ => Fragment.expanded_hole v)

theorem filled_holeList (values : List Json) : (holeList values).filled = holesWording values := by
  rw [holeList, Fragment.filled_join, comma, Fragment.filled_keyword, List.map_map]
  rfl

/-- A comparison with one bound value. -/
theorem drafts_bound {path symbol : Text} (h : Path.check path = .ok ()) (bound : Json)
    (hd : '$' ∉ symbol) (hq : '\'' ∉ symbol) (hh : '?' ∉ symbol) :
    Drafts (do return (← column path (' ' :: symbol ++ [' '])) ++ Fragment.hole bound)
      (verbatim (columnText path ++ ' ' :: symbol ++ [' ']) ++ [.inr bound]) := by
  have hcolumn := drafts_column h (symbol ++ [' ']) (by simpa using hd) (by simpa using hq)
    (by simpa using hh)
  have happend := hcolumn.append (Fragment.closed_hole bound)
  simpa [verbatim_append, verbatim_cons, Fragment.expanded_hole] using happend

/-- Membership in a list that is not empty. -/
theorem drafts_membership {path : Text} (h : Path.check path = .ok ()) (v : Json)
    (vs : List Json) :
    Drafts (draftComparison path .oneOf (.array (v :: vs)))
      (comparisonWording path .oneOf (.array (v :: vs))) := by
  have hdraft : draftComparison path .oneOf (.array (v :: vs)) =
      (do
        let before ← column path (' ' :: "IN (".toList)
        return before ++ holeList (v :: vs) ++ keyword ")" (by decide)) := rfl
  obtain ⟨f, hf, hclosed, hfilled⟩ :=
    drafts_column h "IN (".toList (by decide) (by decide) (by decide)
  have hlist := hclosed.append (closed_holeList (v :: vs))
  refine ⟨f ++ holeList (v :: vs) ++ keyword ")" (by decide), ?_, hlist.append closed_closing, ?_⟩
  · rw [hdraft, hf]
    rfl
  · rw [Fragment.expanded_append hlist, Fragment.expanded_append hclosed, expanded_holeList,
      Fragment.expanded_keyword _ (by decide), Fragment.filled_append, Fragment.filled_append,
      hfilled, filled_holeList, Fragment.filled_keyword, comparisonWording, if_neg (by simp)]
    simp [testWord, boundWording, Json.items?, verbatim_append, verbatim_cons]

theorem drafts_comparison {path : Text} {op : Operator} {bound : Json}
    (h : Path.check path = .ok ()) (hfits : Fits op bound) :
    Drafts (draftComparison path op bound) (comparisonWording path op bound) := by
  cases op with
  | isNull =>
    have hcolumn := drafts_column h "IS NULL".toList (by decide) (by decide) (by decide)
    rw [draftComparison]
    simpa [comparisonWording, testWord, boundWording, verbatim_append, verbatim_cons] using hcolumn
  | isNotNull =>
    have hcolumn := drafts_column h "IS NOT NULL".toList (by decide) (by decide) (by decide)
    rw [draftComparison]
    simpa [comparisonWording, testWord, boundWording, verbatim_append, verbatim_cons] using hcolumn
  | oneOf =>
    obtain ⟨items, rfl⟩ := hfits
    cases items with
    | nil =>
      refine ⟨_, rfl, Fragment.closed_keyword _ (by decide), ?_⟩
      rw [Fragment.expanded_keyword _ (by decide), Fragment.filled_keyword, comparisonWording,
        if_pos ⟨rfl, rfl⟩]
      rfl
    | cons v vs => exact drafts_membership h v vs
  | unknown name => exact hfits.elim
  | equal | notEqual | greater | greaterEqual | less | lessEqual | like =>
    exact drafts_bound h bound (by decide) (by decide) (by decide)

/-! #### Connectives -/

theorem expanded_bracketed {f : Fragment} (hf : f.Closed) :
    (bracketed f).Closed ∧
      (bracketed f).expanded.filled = verbatim ['('] ++ f.expanded.filled ++ verbatim [')'] := by
  have hopen : (keyword "(" (by decide)).Closed := Fragment.closed_keyword _ (by decide)
  have hfront := hopen.append hf
  refine ⟨hfront.append closed_closing, ?_⟩
  rw [bracketed, Fragment.expanded_append hfront, Fragment.expanded_append hopen,
    Fragment.expanded_keyword _ (by decide), Fragment.expanded_keyword _ (by decide),
    Fragment.filled_append, Fragment.filled_append, Fragment.filled_keyword,
    Fragment.filled_keyword]
  rfl

theorem restWording_eq (mark : Filled) (cs : List Condition) :
    restWording mark cs = (cs.map wording).flatMap (mark ++ ·) := by
  induction cs with
  | nil => rfl
  | cons c cs ih => rw [restWording, ih, List.map_cons, List.flatMap_cons]

theorem intercalate_cons {α : Type} (mark x : List α) (xs : List (List α)) :
    List.intercalate mark (x :: xs) = x ++ xs.flatMap (mark ++ ·) := by
  induction xs generalizing x with
  | nil => simp [List.intercalate]
  | cons y ys ih =>
    have ih := ih y
    simp only [List.intercalate, List.intersperse_cons_cons, List.flatten_cons] at ih ⊢
    rw [ih, List.flatMap_cons, List.append_assoc]

/-- Operands with a mark between them and brackets around them. -/
theorem drafts_joined {mark : Fragment} (hmark : mark.Closed) (hself : mark.expanded = mark)
    {c : Condition} {cs : List Condition}
    (h : ∃ fs, draftAll (c :: cs) = .ok fs ∧ (∀ f ∈ fs, f.Closed) ∧
      fs.map (fun f => f.expanded.filled) = (c :: cs).map wording) :
    Drafts (do return bracketed (Fragment.join mark (← draftAll (c :: cs))))
      (verbatim ['('] ++ wording c ++ restWording mark.filled cs ++ verbatim [')']) := by
  obtain ⟨fs, hfs, hclosed, hfilled⟩ := h
  obtain ⟨hbrackets, hinside⟩ := expanded_bracketed (Fragment.closed_join hmark hclosed)
  refine ⟨bracketed (Fragment.join mark fs), ?_, hbrackets, ?_⟩
  · rw [hfs]
    rfl
  · have hoperands : (fs.map Fragment.expanded).map Fragment.filled = (c :: cs).map wording := by
      rw [List.map_map]
      exact hfilled
    rw [hinside, Fragment.expanded_join hmark hclosed, Fragment.filled_join, hoperands, hself,
      List.map_cons, intercalate_cons, restWording_eq]
    simp only [List.append_assoc]

mutual

/-- A well-formed condition has a closed draft, which expands to its wording. -/
theorem drafts_wellFormed {c : Condition} (h : WellFormed c) : Drafts (draft c) (wording c) := by
  match c, h with
  | .comparison path op bound, h => exact drafts_comparison h.1 h.2
  | .logical .not [c], h =>
    have hc : WellFormed c := h
    obtain ⟨f, hf, hclosed, hfilled⟩ := drafts_wellFormed hc
    have hnot : (keyword "NOT " (by decide)).Closed := Fragment.closed_keyword _ (by decide)
    obtain ⟨hbrackets, hinside⟩ := expanded_bracketed hclosed
    refine ⟨keyword "NOT " (by decide) ++ bracketed f, ?_, hnot.append hbrackets, ?_⟩
    · rw [draft, hf]
      rfl
    · rw [Fragment.expanded_append hnot, Fragment.filled_append, hinside, hfilled,
        Fragment.expanded_keyword _ (by decide), Fragment.filled_keyword, wording]
      rfl
  | .logical .and (c :: d :: cs), h =>
    have hall : AllWellFormed (c :: d :: cs) := h
    rw [draft, wording]
    exact drafts_joined (Fragment.closed_keyword _ (by decide))
      (Fragment.expanded_keyword _ (by decide)) (drafts_allWellFormed hall)
  | .logical .or (c :: d :: cs), h =>
    have hall : AllWellFormed (c :: d :: cs) := h
    rw [draft, wording]
    exact drafts_joined (Fragment.closed_keyword _ (by decide))
      (Fragment.expanded_keyword _ (by decide)) (drafts_allWellFormed hall)

/-- Well-formed conditions have closed drafts, which expand to their wordings. -/
theorem drafts_allWellFormed {cs : List Condition} (h : AllWellFormed cs) :
    ∃ fs, draftAll cs = .ok fs ∧ (∀ f ∈ fs, f.Closed) ∧
      fs.map (fun f => f.expanded.filled) = cs.map wording := by
  match cs, h with
  | [], _ => exact ⟨[], rfl, nofun, rfl⟩
  | c :: cs, h =>
    obtain ⟨f, hf, hclosed, hfilled⟩ := drafts_wellFormed h.1
    obtain ⟨fs, hfs, hallClosed, hallFilled⟩ := drafts_allWellFormed h.2
    refine ⟨f :: fs, ?_, List.forall_mem_cons.2 ⟨hclosed, hallClosed⟩, ?_⟩
    · rw [draftAll, hf, hfs]
      rfl
    · rw [List.map_cons, List.map_cons, hfilled, hallFilled]

end

/-- A well-formed condition compiles, and to its wording. -/
theorem compile_wellFormed {c : Condition} (h : WellFormed c) :
    ∃ f, c.compile = .ok f ∧ f.filled = wording c := by
  obtain ⟨f, hf, -, hfilled⟩ := drafts_wellFormed h
  refine ⟨f.expanded, ?_, hfilled⟩
  rw [compile, hf]
  rfl

end Condition

end DocTable.Sql
